/-
What the load/store queue knows about an access never changes once it is known:
the address port names only entries without an address, so an address stays,
and data that joined an address stays with it.  Known store addresses are
aligned, in the queue and in the store buffer behind it.
-/
import OoOCore.LoadQuery
import OoOCore.StoreOrder

namespace OoOCore

/-- An access that does not fault and is one of the three store sizes. -/
theorem StoreRequest.aligned_of {r : StoreRequest}
    (haccess : r.access = .byte ∨ r.access = .half ∨ r.access = .word)
    (haligned : LoadStoreExecutionUnit.misaligned r.access r.address = false) :
    r.Aligned := by
  unfold StoreRequest.Aligned
  rcases haccess with h | h | h <;> rw [h] at haligned ⊢
  · trivial
  · simp only [LoadStoreExecutionUnit.misaligned, BitVec.getLsbD,
      Nat.testBit_zero, decide_eq_false_iff_not] at haligned
    simp only
    omega
  · simp only [LoadStoreExecutionUnit.misaligned, decide_eq_false_iff_not,
      not_not] at haligned
    have hzero := congrArg BitVec.toNat haligned
    rw [byteOffset_toNat] at hzero
    exact hzero

theorem StoreRequest.Aligned.not_misaligned {r : StoreRequest}
    (h : r.Aligned) :
    LoadStoreExecutionUnit.misaligned r.access r.address = false := by
  unfold StoreRequest.Aligned at h
  cases haccess : r.access <;> rw [haccess] at h
  case byte => rfl
  case half =>
    simp only at h
    simp [LoadStoreExecutionUnit.misaligned, BitVec.getLsbD, h]
  case word =>
    simp only at h
    simp [LoadStoreExecutionUnit.misaligned, ← BitVec.toNat_inj,
      byteOffset_toNat, h]
  case byteU | halfU => exact h.elim

namespace LoadStoreQueue

variable {q : LoadStoreQueue} {hidden : RobTag → Bool} {u : LsqUpdate}
  {w : Lane → Writeback}

/-- An entry the update port does not name keeps its address, and its data if
it has some. -/
theorem captured_unnamed {tag : LsqTag} {e : LsqEntry}
    (haddress : (u.addressValid && q.updates hidden u tag) = false)
    (hdata : (u.storeDataValid && q.updates hidden u tag) = false) :
    (q.captured hidden u w tag e).addressReady = e.addressReady ∧
      (q.captured hidden u w tag e).address = e.address ∧
      ((q.entries tag).dataReady = true →
        q.captured hidden u w tag e = e) := by
  simp only [captured, haddress, hdata, if_neg Bool.false_ne_true]
  refine ⟨?_, ?_, ?_⟩
  · split <;> split <;> rfl
  · split <;> split <;> rfl
  · intro hready
    have hno (wb : Writeback) : q.snoops hidden wb tag = false := by
      simp [snoops, hready]
    rw [hno, hno]
    rfl

/-- An entry the address port names has the address of the port. -/
theorem captured_named {tag : LsqTag} {e : LsqEntry}
    (haddress : (u.addressValid && q.updates hidden u tag) = true) :
    (q.captured hidden u w tag e).addressReady = true ∧
      (q.captured hidden u w tag e).address = u.address := by
  simp only [captured, haddress, if_true]
  constructor
  all_goals
    split
    · split <;> split <;> rfl
    · split <;> split <;> rfl

end LoadStoreQueue

namespace Backend

/-- A memory operation has no address in the LSQ before it issues, and known
store addresses are aligned. -/
structure MemoryEntries (s : Backend) : Prop where
  unissued : ∀ j, (s.iq.entries j).valid = true →
    (s.iq.entries j).fuClass = .memory →
      (s.lsq.entries (s.iq.entries j).lsqTag).addressReady = false
  aligned : ∀ t ∈ s.lsq.window, (s.lsq.entries t).isStore = true →
    (s.lsq.entries t).addressReady = true → (s.lsq.entries t).request.Aligned
  buffered : ∀ r ∈ s.storeBuffer.contents, r.Aligned

section Update

variable {s : Backend} {i : Inputs}

/-- The access the address port reports. -/
theorem lsqUpdate_source (h : (s.lsqUpdate i).addressValid = true) :
    ∃ j, s.issueChoice 0 = some j ∧ (s.iq.entries j).fuClass = .memory ∧
      s.lsuTag = (s.iq.entries j).lsqTag ∧
      s.moves i (.iq j) ≠ some (.iq j) ∧
      LoadStoreExecutionUnit.misaligned (s.iq.entries j).memCtr s.lsuAddress =
        false := by
  change s.exec.memory.executeValid (s.lsuInputs i) = true at h
  simp only [LoadStoreExecutionUnit.executeValid, Bool.and_eq_true,
    Bool.not_eq_true'] at h
  obtain ⟨⟨⟨hfire, haligned⟩, -⟩, -⟩ := h
  obtain ⟨j, hj, hclass, hmoves⟩ := s.lsu_issueFire_source i hfire
  have huop := s.issueUop_of_choice hj
  refine ⟨j, hj, hclass, ?_, ?_, ?_⟩
  · rw [lsuTag, huop]
    rfl
  · rw [hmoves]
    split <;> intro heq <;> cases heq
  · change LoadStoreExecutionUnit.misaligned (s.issueUop 0).memCtr
      s.lsuAddress = false at haligned
    rw [huop] at haligned
    exact haligned

theorem storeDataValid_address (h : (s.lsqUpdate i).storeDataValid = true) :
    (s.lsqUpdate i).addressValid = true := by
  change s.exec.memory.storeDataValid (s.lsuInputs i) = true at h
  simp only [LoadStoreExecutionUnit.storeDataValid, Bool.and_eq_true] at h
  exact h.1.1

theorem storeData_unnamed {hidden : RobTag → Bool} {t : LsqTag}
    (h : ((s.lsqUpdate i).addressValid &&
      s.lsq.updates hidden (s.lsqUpdate i) t) = false) :
    ((s.lsqUpdate i).storeDataValid &&
      s.lsq.updates hidden (s.lsqUpdate i) t) = false := by
  by_contra hboth
  rw [Bool.not_eq_false, Bool.and_eq_true] at hboth
  rw [storeDataValid_address hboth.1, hboth.2] at h
  cases h

/-- The port does not name an entry that has its address. -/
theorem MemoryEntries.not_named (h : s.MemoryEntries) {t : LsqTag}
    (hready : (s.lsq.entries t).addressReady = true)
    (hidden : RobTag → Bool) :
    ((s.lsqUpdate i).addressValid &&
      s.lsq.updates hidden (s.lsqUpdate i) t) = false := by
  by_contra hboth
  rw [Bool.not_eq_false, Bool.and_eq_true, LoadStoreQueue.updates,
    Bool.and_eq_true, decide_eq_true_eq] at hboth
  obtain ⟨j, hj, hclass, htag, -⟩ := lsqUpdate_source hboth.1
  have hunissued := h.unissued j (s.issueChoice_valid hj) hclass
  rw [← htag, show s.lsuTag = t from hboth.2.1, hready] at hunissued
  cases hunissued

/-- What is known of a surviving entry stays known. -/
theorem MemoryEntries.step_known (h : s.MemoryEntries) (hm : s.MemoryOrder)
    (hs : s.RobReady i) (htrap : s.trapValid i = false) {t : LsqTag}
    (hold : t ∈ s.lsq.window) (hnew : t ∈ (s.step i).lsq.window)
    (hready : (s.lsq.entries t).addressReady = true) :
    ((s.step i).lsq.entries t).addressReady = true ∧
      ((s.step i).lsq.entries t).address = (s.lsq.entries t).address ∧
      ((s.step i).lsq.entries t).memCtr = (s.lsq.entries t).memCtr ∧
      ((s.lsq.entries t).dataReady = true →
        (s.step i).lsq.entries t = s.lsq.entries t) := by
  have haddress := h.not_named (i := i) hready (s.recoveryYoungerMask i)
  have haccess := congrArg LsqEntry.memCtr (hm.step_owner hs htrap hold hnew).1
  rw [hm.step_survivor hs htrap hold hnew] at haccess ⊢
  obtain ⟨h1, h2, h3⟩ := LoadStoreQueue.captured_unnamed
    (w := s.prfWriteback) (e := s.lsq.entries t) haddress
      (storeData_unnamed haddress)
  exact ⟨h1.trans hready, h2, haccess, h3⟩

end Update

section Step

variable {s : Backend} {i : Inputs}

/-- A live memory operation keeps its LSQ slot. -/
theorem MemoryOrder.slot_step (hm : s.MemoryOrder) (hs : s.RobReady i)
    (hc : s.Countable) (htrap : s.trapValid i = false) {tag : RobTag}
    (hold : tag ∈ s.rob.window) (hnew : tag ∈ (s.step i).rob.window)
    (hmem : s.isMemoryTag tag = true) :
    (s.rob.entries tag).lsqTag ∈ s.lsq.window ∧
      (s.rob.entries tag).lsqTag ∈ (s.step i).lsq.window ∧
      ((s.step i).rob.entries tag).lsqTag = (s.rob.entries tag).lsqTag := by
  have hslot : ((s.step i).rob.entries tag).lsqTag =
      (s.rob.entries tag).lsqTag := by
    have hframe := (hs.step_survivor hc htrap hold hnew).1
    have hfield := congrArg RobEntry.lsqTag hframe
    exact hfield
  have hmem' : (s.step i).isMemoryTag tag = true :=
    (hs.step_isMemory hc htrap hold hnew).trans hmem
  have hlive := ((hm.step hs hc).slot_of_live hnew hmem').1
  rw [hslot] at hlive
  exact ⟨(hm.slot_of_live hold hmem).1, hlive, hslot⟩

/-- The ROB and LSQ entries of a queued memory uop. -/
theorem MemoryOrder.iq_slot (hm : s.MemoryOrder) (hs : s.InFlight)
    {j : IqIndex} (hvalid : (s.iq.entries j).valid = true)
    (hclass : (s.iq.entries j).fuClass = .memory) :
    (s.iq.entries j).robTag ∈ s.rob.window ∧
      s.isMemoryTag (s.iq.entries j).robTag = true ∧
      (s.rob.entries (s.iq.entries j).robTag).lsqTag =
        (s.iq.entries j).lsqTag ∧
      (s.iq.entries j).lsqTag ∈ s.lsq.window ∧
      s.lsqOwner (s.iq.entries j).lsqTag = (s.iq.entries j).robTag := by
  have hlive : (s.iq.entries j).robTag ∈ s.rob.window :=
    hs.live _ _ (s.heldAt_iq hvalid)
  obtain ⟨hmem, hslot, -⟩ := (hs.paired j hvalid).memory
  have hmemory : s.isMemoryTag (s.iq.entries j).robTag = true := by
    rw [isMemoryTag, hmem, hclass]
    rfl
  have howner := hm.slot_of_live hlive hmemory
  rw [hslot] at howner
  exact ⟨hlive, hmemory, hslot, howner⟩

theorem MemoryEntries.step_unissued (h : s.MemoryEntries)
    (hm : s.MemoryOrder) (hs : s.InFlight) (hreach : s.Reachable)
    (htrap : s.trapValid i = false) (j : IqIndex)
    (hvalid : ((s.step i).iq.entries j).valid = true)
    (hclass : ((s.step i).iq.entries j).fuClass = .memory) :
    ((s.step i).lsq.entries ((s.step i).iq.entries j).lsqTag).addressReady =
      false := by
  have hc := hreach.countable
  rcases iq_step htrap hvalid with ⟨l, hd, heq⟩ | ⟨hold, hmoves, -, heq⟩
  · -- A dispatched uop comes with a fresh LSQ entry.
    rw [heq] at hclass ⊢
    have hmemory : laneIsMemory i l = true := by
      rw [laneIsMemory, decodeBus, ← fuClassOf_memory]
      exact beq_iff_eq.mpr hclass
    have hnew := hm.step_new hc htrap hd.1 (hc.dispatchedTo_accepted hd)
      hmemory
    change ((s.step i).lsq.entries (s.lsqAllocTag i l)).addressReady = false
    rw [hnew, LoadStoreQueue.allocWrite]
    split <;> rfl
  · have hlive' : ((s.step i).iq.entries j).robTag ∈ (s.step i).rob.window :=
      (hs.step hreach hc).live _ _ ((s.step i).heldAt_iq hvalid)
    rw [heq] at hclass hlive' ⊢
    change (s.iq.entries j).fuClass = .memory at hclass
    change (s.iq.entries j).robTag ∈ (s.step i).rob.window at hlive'
    change ((s.step i).lsq.entries (s.iq.entries j).lsqTag).addressReady =
      false
    obtain ⟨hlive, hmemory, hslot, hwindow, howner⟩ :=
      hm.iq_slot hs hold hclass
    have hwindow' := (hm.slot_step hs.robReady hc htrap hlive hlive' hmemory).2.1
    rw [hslot] at hwindow'
    rw [hm.step_survivor hs.robReady htrap hwindow hwindow']
    have hunnamed : ((s.lsqUpdate i).addressValid &&
        s.lsq.updates (s.recoveryYoungerMask i) (s.lsqUpdate i)
          (s.iq.entries j).lsqTag) = false := by
      -- The port names the entry of the uop that leaves the queue.
      by_contra hnamed
      rw [Bool.not_eq_false, Bool.and_eq_true, LoadStoreQueue.updates,
        Bool.and_eq_true, decide_eq_true_eq] at hnamed
      obtain ⟨j0, hj0, hclass0, htag, hleaves, -⟩ := lsqUpdate_source hnamed.1
      have hvalid0 := s.issueChoice_valid hj0
      have hsame : (s.iq.entries j0).lsqTag = (s.iq.entries j).lsqTag :=
        htag.symm.trans hnamed.2.1
      have hrob : (s.iq.entries j0).robTag = (s.iq.entries j).robTag := by
        rw [← (hm.iq_slot hs hvalid0 hclass0).2.2.2.2, hsame, howner]
      have hplace := hs.distinct (.iq j0) (.iq j) _ _ (s.heldAt_iq hvalid0)
        (s.heldAt_iq hold) hrob
      cases hplace
      exact hleaves hmoves
    rw [(LoadStoreQueue.captured_unnamed hunnamed
      (storeData_unnamed hunnamed)).1]
    exact h.unissued j hold hclass

/-- The sizes of the stores in the queue. -/
theorem MemoryOrder.store_access (hm : s.MemoryOrder) {t : LsqTag}
    (ht : t ∈ s.lsq.window) (hstore : (s.lsq.entries t).isStore = true) :
    (s.lsq.entries t).memCtr = .byte ∨ (s.lsq.entries t).memCtr = .half ∨
      (s.lsq.entries t).memCtr = .word := by
  obtain ⟨haccess, hwrite⟩ := (hm.paired t ht).decoded
  rw [haccess]
  exact (decoder_consistent _).access (hwrite.symm.trans hstore)

/-- A queued memory uop and its LSQ entry name the same access. -/
theorem MemoryOrder.iq_access (hm : s.MemoryOrder) (hs : s.InFlight)
    {j : IqIndex} (hvalid : (s.iq.entries j).valid = true)
    (hclass : (s.iq.entries j).fuClass = .memory) :
    (s.lsq.entries (s.iq.entries j).lsqTag).memCtr =
      (s.iq.entries j).memCtr := by
  obtain ⟨-, -, -, hwindow, howner⟩ := hm.iq_slot hs hvalid hclass
  have hlsq := (hm.paired _ hwindow).decoded.1
  rw [howner] at hlsq
  rw [hlsq, (hs.paired j hvalid).memCtr]

theorem MemoryEntries.step_aligned (h : s.MemoryEntries)
    (hm : s.MemoryOrder) (hs : s.InFlight) (hc : s.Countable)
    (htrap : s.trapValid i = false) {t : LsqTag}
    (hnew : t ∈ (s.step i).lsq.window)
    (hstore : ((s.step i).lsq.entries t).isStore = true)
    (hready : ((s.step i).lsq.entries t).addressReady = true) :
    ((s.step i).lsq.entries t).request.Aligned := by
  have hm' := hm.step (i := i) hs.robReady hc
  apply StoreRequest.aligned_of (hm'.store_access hnew hstore)
  change LoadStoreExecutionUnit.misaligned ((s.step i).lsq.entries t).memCtr
    ((s.step i).lsq.entries t).address = false
  by_cases hold : t ∈ s.lsq.window
  · have hframe := (hm.step_owner hs.robReady htrap hold hnew).1
    obtain ⟨hkind, haccess, -, -⟩ := LsqEntry.atDispatch_fields hframe
    rw [haccess]
    cases hbefore : (s.lsq.entries t).addressReady with
    | true =>
        rw [(h.step_known hm hs.robReady htrap hold hnew hbefore).2.1]
        have haligned := h.aligned t hold (hkind.symm.trans hstore) hbefore
        exact haligned.not_misaligned
    | false =>
        rw [hm.step_survivor hs.robReady htrap hold hnew] at hready ⊢
        cases hnamed : ((s.lsqUpdate i).addressValid &&
            s.lsq.updates (s.recoveryYoungerMask i) (s.lsqUpdate i) t) with
        | true =>
            rw [(LoadStoreQueue.captured_named hnamed).2]
            rw [Bool.and_eq_true, LoadStoreQueue.updates, Bool.and_eq_true,
              decide_eq_true_eq] at hnamed
            obtain ⟨j, hj, hclass, htag, -, haligned⟩ :=
              lsqUpdate_source hnamed.1
            have hslot : t = (s.iq.entries j).lsqTag :=
              hnamed.2.1.symm.trans htag
            rw [hslot, hm.iq_access hs (s.issueChoice_valid hj) hclass]
            exact haligned
        | false =>
            rw [(LoadStoreQueue.captured_unnamed hnamed
              (storeData_unnamed hnamed)).1, hbefore] at hready
            cases hready
  · obtain ⟨hrec, l, hl, hmemory, rfl⟩ :=
      hm.step_window_new hs.robReady hc htrap hold hnew
    rw [hm.step_new hc htrap hrec hl hmemory, LoadStoreQueue.allocWrite]
      at hready
    split at hready <;> cases hready

/-- A store the commit stage offers has its address, and is aligned. -/
theorem MemoryEntries.commitStore_aligned (h : s.MemoryEntries)
    (hm : s.MemoryOrder) {r : StoreRequest}
    (hstore : s.commitStore i = some r) : r.Aligned := by
  obtain ⟨l, hpass, hlane, rfl, -⟩ := commitStore_lane hstore
  have hmem := hlane
  rw [BackendCommitStage.storeLane, Bool.and_eq_true] at hmem
  obtain ⟨hvalid, htag⟩ := BackendCommitStage.passes_head hpass hmem.1
  have hhead : BackendCommitStage.laneHead (s.commitInputs i) l =
      s.lsq.entries (s.rob.commitEntry l).lsqTag := lsq_headEntry_eq hvalid htag
  have hready := (BackendCommitStage.passes_store_ready hpass hlane).1
  rw [hhead] at hvalid hready
  have hwindow := (hm.wf.valid_iff _).mp hvalid
  refine h.aligned _ hwindow ?_ hready
  have hcommit : s.rob.commitValid l = true :=
    (BackendCommitStage.passes_base hpass).2.1
  obtain ⟨hlt, -, hentry⟩ := s.commitValid_entry hcommit
  have hlive : s.commitSlot l ∈ s.rob.window :=
    List.mem_of_getElem? (ReorderBuffer.window_getElem? hlt)
  change (s.rob.commitEntry l).isMemory = true ∧
    (s.rob.commitEntry l).isStore = true at hmem
  change s.rob.commitEntry l = s.rob.entries (s.commitSlot l) at hentry
  rw [hentry] at hmem hwindow ⊢
  rw [(hm.paired _ hwindow).isStore, (hm.slot_of_live hlive hmem.1).2]
  exact hmem.2

theorem MemoryEntries.step (h : s.MemoryEntries) (hm : s.MemoryOrder)
    (hs : s.InFlight) (hreach : s.Reachable) : (s.step i).MemoryEntries := by
  have hc := hreach.countable
  have hbuffered : ∀ r ∈ (s.step i).storeBuffer.contents, r.Aligned := by
    intro r hr
    rcases hreach.storeBufferWf.mem_step hr with hr | ⟨hstore, -⟩
    · exact h.buffered r hr
    · exact h.commitStore_aligned hm hstore
  refine ⟨?_, ?_, hbuffered⟩
  · intro j hvalid
    have htrap := not_trap_of_held ((s.step i).heldAt_iq hvalid)
    exact h.step_unissued hm hs hreach htrap j hvalid
  · intro t hnew
    exact h.step_aligned hm hs hc (not_trap_of_queued hnew) hnew

theorem Reachable.memoryEntries {s : Backend} (h : s.Reachable) :
    s.MemoryEntries := by
  induction h with
  | reset =>
      refine ⟨?_, ?_, ?_⟩
      · intro j hvalid
        cases hvalid
      · intro t ht
        cases ht
      · intro r hr
        cases hr
  | step h i ih => exact ih.step h.memoryOrder h.inFlight h

end Step

end Backend

end OoOCore
