/-
Store-to-load forwarding in the load/store queue.  A queued store that has its
data has what the producer of its data register wrote back, however the data
came; and the query of a load answers with the bytes of the older stores, or
finds that none of them writes its bytes.
-/
import OoOCore.Producers

namespace OoOCore

theorem Uop.Paired.store_useRs2 {u : Uop} {e : RobEntry} (h : u.Paired e)
    (hstore : u.dataWriteEnable = true) : u.useRs2 = true := by
  obtain ⟨packet, ctx, r1, r2, rfl, -, -⟩ := h
  exact decoder_store_useRs2 hstore

namespace LoadStoreQueue

variable {q : LoadStoreQueue} {hidden : RobTag → Bool} {u : LsqUpdate}
  {w : Lane → Writeback}

/-- Where the data of an entry comes from: a write-back lane, the last one that
brings it, the update port, or the entry itself. -/
theorem captured_data {tag : LsqTag} {e : LsqEntry}
    (hready : (q.captured hidden u w tag e).dataReady = true) :
    (∃ l, q.snoops hidden (w l) tag = true ∧
        (l = 0 → q.snoops hidden (w 1) tag = false) ∧
        (q.captured hidden u w tag e).storeData = (w l).data) ∨
      (u.storeDataValid = true ∧ q.updates hidden u tag = true ∧
        (q.captured hidden u w tag e).storeData = u.storeData) ∨
      (e.dataReady = true ∧
        (q.captured hidden u w tag e).storeData = e.storeData) := by
  cases h1 : q.snoops hidden (w 1) tag with
  | true =>
      refine Or.inl ⟨1, h1, fun hl => absurd hl (by decide), ?_⟩
      simp only [captured, h1, if_true]
  | false =>
      cases h0 : q.snoops hidden (w 0) tag with
      | true =>
          refine Or.inl ⟨0, h0, fun _ => rfl, ?_⟩
          simp only [captured, h0, h1, if_true, Bool.false_eq_true, if_false]
      | false =>
          right
          simp only [captured, h0, h1, Bool.false_eq_true, if_false]
            at hready ⊢
          cases hport : u.storeDataValid && q.updates hidden u tag with
          | true =>
              rw [Bool.and_eq_true] at hport
              exact Or.inl ⟨hport.1, hport.2, rfl⟩
          | false =>
              right
              simp only [hport, Bool.false_eq_true, if_false] at hready ⊢
              split at hready
              · next hnamed =>
                rw [if_pos hnamed]
                exact ⟨hready, rfl⟩
              · next hnamed =>
                rw [if_neg hnamed]
                exact ⟨hready, rfl⟩

end LoadStoreQueue

namespace Backend

section Capture

variable {s : Backend} {i : Inputs} {h : History} {t : LsqTag}

/-- The register a queued store takes its data from. -/
def dataRegister (s : Backend) (t : LsqTag) : ArchReg :=
  (decoder (s.lsq.entries t).origin.insn).rs2

/-- A readable data register delivers the value of its producer. -/
theorem Traced.data_produced (ht : s.Traced h) (hmem : t ∈ s.lsq.window)
    (hread : s.Readable (s.lsq.entries t).storeDataPhys) :
    Produced (s.observe i h).result
      (s.prfReadData (s.lsq.entries t).storeDataPhys)
      (s.producerOf h (s.lsqOwner t) (s.dataRegister t)) := by
  have hreach := ht.reachable
  obtain ⟨older, younger, hwindow⟩ :=
    live_split (hreach.memoryOrder.owner_live hmem).1
  have hphys := hreach.sources.lsq t older younger hmem hwindow
  have holder := olderThan_eq hreach.inFlight.rob hwindow
  rw [← holder] at hphys
  apply ht.delivers_produced
  rw [hphys] at hread ⊢
  exact ht.delivers olderThan_live hread

/-- A write-back that a store captures is the value its register reads. -/
theorem Reachable.snooped (hreach : s.Reachable) {hidden : RobTag → Bool}
    {l : Lane} (hsnoop : s.lsq.snoops hidden (s.prfWriteback l) t = true)
    (hlast : l = 0 → s.lsq.snoops hidden (s.prfWriteback 1) t = false) :
    s.Readable (s.lsq.entries t).storeDataPhys ∧
      (s.prfWriteback l).data =
        s.prfReadData (s.lsq.entries t).storeDataPhys := by
  have hwaits := hsnoop
  rw [LoadStoreQueue.snoops, Bool.and_eq_true, Bool.and_eq_true] at hwaits
  obtain ⟨⟨hopen, hvalid⟩, hphys⟩ := hwaits
  have hhit : PhysicalRegisterFile.hits s.prfWriteback l
      (s.lsq.entries t).storeDataPhys = true := by
    rw [PhysicalRegisterFile.hits, hvalid, hphys]
    rfl
  have hne : (s.lsq.entries t).storeDataPhys ≠ 0 := by
    obtain ⟨howner, hwrites, hnew, -⟩ :=
      hreach.inFlight.writeback_owner hreach.writebackValid hvalid
    rw [← of_decide_eq_true hphys, ← hnew]
    exact hreach.renamingWf.newPhys_ne_zero howner hwrites
  refine ⟨Or.inr (Or.inl ⟨l, hhit⟩), ?_⟩
  rw [prfReadData, PhysicalRegisterFile.readData, if_neg hne]
  rcases lane_cases l with rfl | rfl
  · have hother : PhysicalRegisterFile.hits s.prfWriteback 1
        (s.lsq.entries t).storeDataPhys = false := by
      have hno := hlast rfl
      rw [LoadStoreQueue.snoops, Bool.and_assoc, hopen, Bool.true_and] at hno
      exact hno
    rw [if_neg (by rw [hother]; exact Bool.false_ne_true), if_pos hhit]
  · rw [if_pos hhit]

/-- The data that comes with a store's issue is the value its register reads. -/
theorem Traced.issued_data (ht : s.Traced h) {hidden : RobTag → Bool}
    (hvalid : (s.lsqUpdate i).storeDataValid = true)
    (hupdates : s.lsq.updates hidden (s.lsqUpdate i) t = true) :
    s.Readable (s.lsq.entries t).storeDataPhys ∧
      (s.lsqUpdate i).storeData =
        s.prfReadData (s.lsq.entries t).storeDataPhys := by
  have hreach := ht.reachable
  have hs := hreach.inFlight
  obtain ⟨j, hj, hclass, htag, -⟩ :=
    lsqUpdate_source (storeDataValid_address hvalid)
  rw [LoadStoreQueue.updates, Bool.and_eq_true, decide_eq_true_eq] at hupdates
  have hslot : (s.iq.entries j).lsqTag = t := htag.symm.trans hupdates.1
  have hentry := s.issueChoice_valid hj
  obtain ⟨hlive, -, -, hmem, howner⟩ :=
    hreach.memoryOrder.iq_slot hs hentry hclass
  rw [hslot] at hmem howner
  -- The uop and its LSQ entry name the same data register.
  obtain ⟨older, younger, hwindow⟩ := live_split hlive
  have hsrc := (hreach.sources.iq j older younger hentry hwindow).2
  have hdata := hreach.sources.lsq t older younger hmem
    (by rw [howner]; exact hwindow)
  have horigin : (s.lsq.entries t).origin = (s.iq.entries j).origin := by
    rw [(hreach.memoryOrder.paired t hmem).origin, howner]
    exact (hs.matched _ _ (s.heldAt_iq hentry)).origin
  rw [horigin, ← hsrc] at hdata
  have huop := s.issueUop_of_choice hj
  change s.exec.memory.storeDataValid (s.lsuInputs i) = true at hvalid
  simp only [LoadStoreExecutionUnit.storeDataValid, Bool.and_eq_true] at hvalid
  obtain ⟨⟨-, hstore⟩, hbit⟩ := hvalid
  change (s.issueUop 0).src2Ready = true at hbit
  change LoadStoreExecutionUnit.selectedIsStore (s.issueUop 0) = true at hstore
  rw [huop] at hbit hstore
  rw [LoadStoreExecutionUnit.selectedIsStore, Bool.and_eq_true] at hstore
  have huses := (hs.paired j hentry).store_useRs2 hstore.2
  have hready : IssueQueue.source2ReadyNow s.prfWriteback
      (s.iq.entries j) = true := hbit
  rw [hdata]
  refine ⟨sourceReady_readable (ht.readiness.source2 j hentry) hready huses,
    ?_⟩
  change s.prfReadData (s.issueUop 0).src2Phys = _
  rw [huop]
  rfl

end Capture

/-- Every queued store that has its data has the value of its producer. -/
def StoreDataProduced (s : Backend) (h : History) : Prop :=
  ∀ t ∈ s.lsq.window, (s.lsq.entries t).isStore = true →
    (s.lsq.entries t).dataReady = true →
      Produced h.result (s.lsq.entries t).storeData
        (s.producerOf h (s.lsqOwner t) (s.dataRegister t))

section Step

variable {s : Backend} {i : Inputs} {h : History} {t : LsqTag}

/-- A store that stays keeps its data or captures that of its producer. -/
theorem StoreDataProduced.step_survivor (hp : s.StoreDataProduced h)
    (ht : s.Traced h) (htrap : s.trapValid i = false)
    (hold : t ∈ s.lsq.window) (hnew : t ∈ (s.step i).lsq.window)
    (hstore : ((s.step i).lsq.entries t).isStore = true)
    (hready : ((s.step i).lsq.entries t).dataReady = true) :
    Produced (s.observe i h).result ((s.step i).lsq.entries t).storeData
      ((s.step i).producerOf (s.observe i h) ((s.step i).lsqOwner t)
        ((s.step i).dataRegister t)) := by
  have hreach := ht.reachable
  have hrob : s.RobReady i := hreach.inFlight.robReady
  have hm := hreach.memoryOrder
  obtain ⟨hframe, howner⟩ := hm.step_owner hrob htrap hold hnew
  obtain ⟨hkind, -, -, horigin⟩ := LsqEntry.atDispatch_fields hframe
  have hlive' := ((hreach.step i).memoryOrder.owner_live hnew).1
  rw [howner] at hlive' ⊢
  rw [hrob.step_producerOf hreach.countable htrap (hm.owner_live hold).1
    hlive', dataRegister, horigin]
  rw [hm.step_survivor hrob htrap hold hnew] at hready ⊢
  rcases LoadStoreQueue.captured_data hready with
    ⟨l, hsnoop, hlast, hdata⟩ | ⟨hvalid, hupdates, hdata⟩ | ⟨hbefore, hdata⟩
  · obtain ⟨hread, hvalue⟩ := hreach.snooped hsnoop hlast
    rw [hdata, hvalue]
    exact ht.data_produced hold hread
  · obtain ⟨hread, hvalue⟩ := ht.issued_data hvalid hupdates
    rw [hdata, hvalue]
    exact ht.data_produced hold hread
  · rw [hdata]
    exact ht.produced_kept (hp t hold (hkind.symm.trans hstore) hbefore)

/-- A new store has data only if it stores `x0`. -/
theorem Traced.step_new_data (ht : s.Traced h) (htrap : s.trapValid i = false)
    (hold : t ∉ s.lsq.window) (hnew : t ∈ (s.step i).lsq.window)
    (hready : ((s.step i).lsq.entries t).dataReady = true) :
    Produced (s.observe i h).result ((s.step i).lsq.entries t).storeData
      ((s.step i).producerOf (s.observe i h) ((s.step i).lsqOwner t)
        ((s.step i).dataRegister t)) := by
  have hreach := ht.reachable
  have hreach' := hreach.step i
  have hm := hreach.memoryOrder
  have hc := hreach.countable
  obtain ⟨hrec, l, hl, hmem, rfl⟩ :=
    hm.step_window_new hreach.inFlight.robReady hc htrap hold hnew
  obtain ⟨older, younger, hwindow⟩ :=
    live_split (hreach'.memoryOrder.owner_live hnew).1
  have hphys := hreach'.sources.lsq _ older younger hnew hwindow
  have holder := olderThan_eq hreach'.inFlight.rob hwindow
  have hentry := hm.step_new hc htrap hrec hl hmem
  have hzero : ((s.step i).lsq.entries (s.lsqAllocTag i l)).storeDataPhys = 0 ∧
      ((s.step i).lsq.entries (s.lsqAllocTag i l)).storeData = 0 := by
    rw [hentry] at hready ⊢
    rw [LoadStoreQueue.allocWrite] at hready ⊢
    split at hready
    · next hx0 =>
      rw [if_pos hx0]
      exact ⟨hx0.2, rfl⟩
    · cases hready
  rw [hzero.2]
  apply (ht.step i).zero_produced
  rw [holder, dataRegister, ← hphys]
  exact hzero.1

theorem Traced.storeDataProduced (ht : s.Traced h) :
    s.StoreDataProduced h := by
  induction ht with
  | reset =>
      intro t hmem
      cases hmem
  | @step s h ht i ih =>
      intro t hnew hstore hready
      have htrap := not_trap_of_queued hnew
      by_cases hold : t ∈ s.lsq.window
      · exact ih.step_survivor ht htrap hold hnew hstore hready
      · exact ht.step_new_data htrap hold hnew hready

end Step

section Zero

variable {s : Backend} {h : History}

/-- Only zero is produced for `x0`. -/
theorem Traced.produced_x0 (ht : s.Traced h) {tag : RobTag} {value : Word}
    (hp : Produced h.result value (s.producerOf h tag 0)) : value = 0 := by
  have hname : s.overlaid (s.olderThan tag) 0 = 0 :=
    ht.reachable.renamingWf.overlaid_zero olderThan_live
  exact Produced.unique hp (ht.zero_produced hname)

end Zero

/-- What the answer to a load says about the older stores of the queue: a
forwarded value is the one they leave in any memory, and a load that goes
without one finds their addresses known, cacheable and apart. -/
structure ForwardExact (stores : List LsqEntry) (address : Word)
    (access : MemAccess) (answer : LsqQuery) : Prop where
  forwarded : answer.ready = true → answer.forwardValid = true →
    ∀ m, answer.forwardData =
      loadValue (Overwrite.after m (stores.map fun e => e.request.byte))
        address access
  apart : answer.ready = true → answer.forwardValid = false →
    ∀ e ∈ stores, e.addressReady = true ∧ addressIsMmio e.address = false ∧
      e.request.Misses address access

section Forward

variable {s : Backend} {h : History}

theorem Reachable.query_exact (hreach : s.Reachable) {t : LsqTag}
    {older younger : List LsqTag}
    (hwindow : s.lsq.window = older ++ t :: younger)
    (hload : (s.lsq.entries t).isStore = false) {address : Word}
    {access : MemAccess}
    (haligned : LoadStoreExecutionUnit.misaligned access address = false) :
    ForwardExact ((s.lsq.storeSlots older).map s.lsq.entries) address access
      (s.lsq.query true t address access) := by
  have hscanned := hreach.memoryEntries.scanned_aligned hwindow
  have hanswers := LoadStoreQueue.scanStores_answers haligned hscanned
  constructor
  · intro hready hforward m
    have hquery := hreach.memoryOrder.wf.query_eq hwindow hload hready
    rw [hquery] at hready hforward ⊢
    rw [(hanswers hready).2 m, if_pos hforward]
  · intro hready hforward e he
    have hquery := hreach.memoryOrder.wf.query_eq hwindow hload hready
    rw [hquery] at hready hforward
    have hcleared := (hanswers hready).1 e he
    exact ⟨hcleared.addressReady, hcleared.cacheable,
      LoadStoreQueue.scanStores_misses haligned hscanned hready hforward e he⟩

/-- Forwarding is exact.  The query of an aligned load in the queue forwards
what the older queued stores, oldest to youngest, leave of its bytes in any
memory, or lets the load go past older stores with known cacheable addresses
that write none of them; and the data of a queued store is what the
program-order producer of its data register wrote back, zero for `x0`. -/
theorem Traced.lsq_forwarding_exact (ht : s.Traced h) :
    (∀ t older younger address access,
      s.lsq.window = older ++ t :: younger →
        (s.lsq.entries t).isStore = false →
        LoadStoreExecutionUnit.misaligned access address = false →
          ForwardExact ((s.lsq.storeSlots older).map s.lsq.entries) address
            access (s.lsq.query true t address access)) ∧
      ∀ t ∈ s.lsq.window, (s.lsq.entries t).isStore = true →
        (s.lsq.entries t).dataReady = true →
          Produced h.result (s.lsq.entries t).storeData
              (s.producerOf h (s.lsqOwner t) (s.dataRegister t)) ∧
            (s.dataRegister t = 0 → (s.lsq.entries t).storeData = 0) := by
  have hreach := ht.reachable
  refine ⟨?_, ?_⟩
  · intro t older younger address access hwindow hload haligned
    exact hreach.query_exact hwindow hload haligned
  · intro t hmem hstore hready
    have hdata := ht.storeDataProduced t hmem hstore hready
    refine ⟨hdata, ?_⟩
    intro hzero
    rw [hzero] at hdata
    exact ht.produced_x0 hdata

/-- `addi x1, x0, 1` and `sw x1, 0(x0)`, then `lw x2, 0(x0)`: the store issues
without its data and takes it from the write-back of the `addi`. -/
def snoopedStore : List Inputs :=
  [offerPair 0x00100093 0x00102023, offerPair 0x00002103 0, offerPair 0 0]

theorem lsq_forwarding_exact_snoopedStore :
    (reset.trace {} snoopedStore).2.result 0 = some 1 ∧
      ((reset.trace {} snoopedStore).1.lsq.query true 1 0 .word).forwardData =
        loadValue (Overwrite.after (fun _ => 0xff)
          [((reset.trace {} snoopedStore).1.lsq.entries 0).request.byte])
          0 .word := by
  have ht := Traced.reset.trace snoopedStore
  have hwindow : (reset.trace {} snoopedStore).1.lsq.window = [0] ++ 1 :: [] :=
    by decide +kernel
  have hslots : (reset.trace {} snoopedStore).1.lsq.storeSlots [0] = [0] := by
    decide +kernel
  have hproducer : (reset.trace {} snoopedStore).1.producerOf
      (reset.trace {} snoopedStore).2
      ((reset.trace {} snoopedStore).1.lsqOwner 0)
      ((reset.trace {} snoopedStore).1.dataRegister 0) = some 0 := by
    decide +kernel
  have hdata : ((reset.trace {} snoopedStore).1.lsq.entries 0).storeData =
      1 := by decide +kernel
  constructor
  · have hproduced := (ht.lsq_forwarding_exact.2 0 (by rw [hwindow]; simp)
      (by decide +kernel) (by decide +kernel)).1
    rw [hproducer, hdata] at hproduced
    exact hproduced
  · have hexact := ht.lsq_forwarding_exact.1 1 [0] [] 0 .word hwindow
      (by decide +kernel) (by decide)
    rw [hslots] at hexact
    exact hexact.forwarded (by decide +kernel) (by decide +kernel) _

end Forward

end Backend

end OoOCore
