/-
The data cache in front of the data RAM.  Addresses that agree in their low 16
bits name one word of the RAM and different lines of the cache, so a store can
leave a stale line behind.  As long as no store does, the cached memory answers
every load as the RAM alone would.
-/
import OoOCore.DataMemory

namespace OoOCore

namespace DataMem

/-- The RAM after a store. -/
def stored (mem : BitVec 14 → Word) (r : StoreRequest) : BitVec 14 → Word :=
  Function.update mem (wordAddr r.address)
    (mergeStore (mem (wordAddr r.address))
      (alignStoreData r.data r.access (byteOffset r.address))
      (storeByteMask r.access (byteOffset r.address)))

/-- The RAM after some stores. -/
def after (mem : BitVec 14 → Word) (sent : List StoreRequest) :
    BitVec 14 → Word :=
  sent.foldl stored mem

theorem after_snoc (mem : BitVec 14 → Word) (sent : List StoreRequest)
    (r : StoreRequest) : after mem (sent ++ [r]) = stored (after mem sent) r := by
  rw [after, List.foldl_append]
  rfl

section Words

variable {r : StoreRequest}

/-- The RAM word of an address is given by the low bits of its word index. -/
theorem wordAddr_eq (address : Word) :
    wordAddr address = (wordIndex address).setWidth 14 := by
  ext j hj
  simp only [wordAddr, wordIndex, BitVec.getElem_extractLsb',
    BitVec.getElem_setWidth, BitVec.getLsbD_extractLsb']
  simp
  omega

theorem wordAddr_wordAddress (k : BitVec 30) :
    wordAddr (wordAddress k) = k.setWidth 14 := by
  rw [wordAddr_eq, wordAddress, wordIndex_append]

/-- The byte enables and the merge of the cache write the same word. -/
theorem mergeStore_eq (hr : r.Aligned) (current : Word) :
    mergeStore current (alignStoreData r.data r.access (byteOffset r.address))
        (storeByteMask r.access (byteOffset r.address)) =
      DataCache.mergeStore current r.data r.access (byteOffset r.address) := by
  apply word_ext (k := wordIndex r.address)
  intro x hx
  rw [mergeStore_lane hr _ hx.symm, mergeStore, mergeBytes_lane,
    hr.byte_eq (storeByteMask_lanes hr).1]
  unfold storeByteMask
  split
  · next hlane =>
      rw [if_pos ⟨hx.symm, hlane⟩]
      rfl
  · next hlane =>
      rw [if_neg fun h => hlane h.2]
      rfl

end Words

end DataMem

open DataMem in
/-- The RAM as a memory behind the cache.  A word lives in the cell given by
the low 14 bits of its index. -/
def Backing.ram (mem : BitVec 14 → Word) : Backing where
  read := fun sent address access =>
    formatLoadData (after mem sent (wordAddr address)) access
      (byteOffset address)
  index := fun k => (k.setWidth 14).setWidth 30
  format := by
    intro sent address access _
    rw [wordAddr_wordAddress, wordAddr_eq]
    rfl
  merge := by
    intro sent r hr
    rw [after_snoc, stored, wordAddr_wordAddress, ← wordAddr_eq,
      Function.update_self]
    exact mergeStore_eq hr _
  apart := by
    intro sent r k _ hne
    rw [after_snoc, stored, wordAddr_wordAddress, Function.update_of_ne]
    intro heq
    rw [heq, wordAddr_eq] at hne
    exact hne rfl

namespace DataMem

/-- Outside the MMIO window no register is selected. -/
theorem hits_of_plain {address : Word} (hplain : addressIsMmio address = false) :
    toHostHit address = false ∧ uartHit address = false ∧
      fromHostHit address = false := by
  have hwindow : ¬ (0xFFE0 ≤ address.toNat ∧ address.toNat ≤ 0xFFFF) := by
    rw [← DataCache.addressIsMmio_iff, hplain]
    exact Bool.false_ne_true
  have hword {register : Word} (hlow : 0xFFE0 ≤ register.toNat / 4 * 4)
      (hhigh : register.toNat / 4 * 4 ≤ 0xFFFC) :
      decide (wordIndex address = wordIndex register) = false := by
    rw [decide_eq_false_iff_not, wordIndex_eq_iff]
    omega
  refine ⟨hword (by decide) (by decide), ?_, hword (by decide) (by decide)⟩
  rw [uartHit, decide_eq_false_iff_not]
  rintro rfl
  exact hwindow (by decide)

section Steps

variable {d : DataMem} {i : Inputs}
  (hplain : addressIsMmio i.request.address = false)

include hplain

theorem step_mem : (d.step i).mem =
    if d.requestFire i && i.request.write then
      stored d.mem ⟨i.request.address, i.request.writeData, i.request.access⟩
    else d.mem := by
  obtain ⟨htohost, huart, hfromhost⟩ := hits_of_plain hplain
  change d.nextMem i = _
  rw [nextMem, htohost, huart, hfromhost]
  simp only [Bool.not_false, Bool.and_true]
  rfl

theorem step_response
    (hread : (d.requestFire i && !i.request.write) = true) :
    (d.step i).responseValidReg = true ∧ (d.step i).responseData =
      formatLoadData (d.mem (wordAddr i.request.address)) i.request.access
        (byteOffset i.request.address) := by
  obtain ⟨htohost, huart, hfromhost⟩ := hits_of_plain hplain
  have hword : d.nextReadWordReg i = d.mem (wordAddr i.request.address) := by
    simp [nextReadWordReg, hread, htohost, huart, hfromhost]
  refine ⟨by simp [step, hread], ?_⟩
  simp only [responseData, step, hread, if_true, hword]

end Steps

section Alone

variable {d : DataMem} {fromHost : Word}

/-- Requests presented to the memory itself are served at once. -/
theorem present_fire (q : CacheRequest) :
    d.requestFire (present fromHost q) = true := by
  simp [requestFire, requestReady, responseSlotAvailable, present]

theorem alone_mem (requests : List CacheRequest)
    (hplain : ∀ q ∈ requests, addressIsMmio q.address = false) :
    (d.alone fromHost requests).mem = after d.mem (storesIn requests) := by
  induction requests generalizing d with
  | nil => rfl
  | cons q requests ih =>
      have hstep := step_mem (d := d) (i := present fromHost q)
        (hplain q List.mem_cons_self)
      rw [present_fire, Bool.true_and] at hstep
      have htail := ih (d := d.step (present fromHost q))
        (fun x hx => hplain x (List.mem_cons_of_mem q hx))
      rw [hstep] at htail
      refine htail.trans ?_
      unfold storesIn
      cases hwrite : q.write with
      | true =>
          rw [List.filterMap_cons_some (b := q.store)
            (by rw [CacheRequest.store?, hwrite]; rfl)]
          simp only [present, hwrite, if_true]
          rfl
      | false =>
          rw [List.filterMap_cons_none
            (by rw [CacheRequest.store?, hwrite]; rfl)]
          simp only [present, hwrite, Bool.false_eq_true, if_false]

/-- The answer of the memory itself to a load after some requests. -/
theorem alone_load {requests : List CacheRequest} {q : CacheRequest}
    (hplain : ∀ x ∈ requests ++ [q], addressIsMmio x.address = false)
    (hload : q.write = false) :
    (d.alone fromHost (requests ++ [q])).responseValidReg = true ∧
      (d.alone fromHost (requests ++ [q])).responseData =
        (Backing.ram d.mem).read (storesIn requests) q.address q.access := by
  have hmem : (d.alone fromHost requests).mem =
      after d.mem (storesIn requests) :=
    alone_mem requests fun x hx => hplain x (List.mem_append_left _ hx)
  have hq : addressIsMmio q.address = false :=
    hplain q (List.mem_append_right _ (List.mem_singleton_self q))
  have hstep := step_response (d := d.alone fromHost requests)
    (i := present fromHost q) hq (by rw [present_fire]; simp [present, hload])
  rw [hmem] at hstep
  rw [alone, List.foldl_append]
  exact hstep

end Alone

end DataMem

namespace MemStages

open DataCache DataMem

/-- The CPU offers an aligned access outside the MMIO window, if any. -/
structure Inputs.Plain (i : Inputs) : Prop where
  aligned : i.requestValid = true → i.request.Aligned
  cached : i.requestValid = true → addressIsMmio i.request.address = false

/-- No store waits to be written through while a valid line of the cache has
the same address bits 15 to 4 and different higher ones. -/
def SynonymFree (m : MemStages) : Prop :=
  m.dataCache.lookupCachedStore = true →
    ∀ s, m.dataCache.validArray s = true →
      (m.dataCache.tagArray s ++ s).setWidth 12 =
          m.dataCache.lookup.request.address.extractLsb' 4 12 →
        m.dataCache.tagArray s ++ s =
          m.dataCache.lookup.request.address.extractLsb' 4 28

/-- The cache and the RAM with the traffic between them and with the CPU. -/
structure Linked (mem : BitVec 14 → Word) (m : MemStages) (t : CacheTraffic) :
    Prop where
  coherent : Coherent (Backing.ram mem) m.dataCache t
  ram : m.dataMem.mem = after mem t.sent
  pending : t.pending =
    if m.dataMem.responseValidReg then [m.dataMem.responseData] else []
  plain : ∀ q ∈ t.accepted, addressIsMmio q.address = false

section Step

variable {mem : BitVec 14 → Word} {m : MemStages} {t : CacheTraffic}
  {i : Inputs}

theorem lineIndex_synonym {address : Word} {tag : CacheTag} {set : CacheSet}
    {word : LineWord}
    (h : (wordIndex address).setWidth 14 =
      (lineIndex tag set word).setWidth 14) :
    (tag ++ set).setWidth 12 = address.extractLsb' 4 12 ∧
      wordOf address = word := by
  rw [wordIndex_eq_lineIndex, lineIndex, lineIndex, tagOf_append_setOf] at h
  constructor
  · ext j hj
    have hbit := congrArg (fun v => v.getLsbD (j + 2)) h
    simp only [BitVec.getLsbD_setWidth] at hbit
    rw [BitVec.getLsbD_append, BitVec.getLsbD_append] at hbit
    have hlow : j + 2 < 14 := by omega
    have hhigh : ¬ j + 2 < 2 := by omega
    have hline : j < 28 := by omega
    simp only [hlow, hhigh, hline, decide_true, Bool.true_and, if_false,
      BitVec.getLsbD_extractLsb', Nat.add_sub_cancel] at hbit
    simp [← hbit]
  · ext j hj
    have hbit := congrArg (fun v => v.getLsbD j) h
    simp only [BitVec.getLsbD_setWidth] at hbit
    rw [BitVec.getLsbD_append, BitVec.getLsbD_append] at hbit
    have hlow : j < 14 := by omega
    simp only [hlow, hj, decide_true, Bool.true_and, if_true] at hbit
    rw [← BitVec.getLsbD_eq_getElem, ← BitVec.getLsbD_eq_getElem]
    exact hbit

theorem Linked.lookup_plain (h : Linked mem m t)
    (hstage : m.dataCache.lookup.stageValid = true) :
    addressIsMmio m.dataCache.lookup.request.address = false :=
  h.plain _ (List.mem_of_getElem? (h.coherent.ledger.lookup hstage).1)

theorem Linked.unaliased (h : Linked mem m t) (hfree : m.SynonymFree)
    (j : DataCache.Inputs) :
    m.dataCache.Unaliased (Backing.ram mem) j := by
  have hc := h.coherent.control
  intro r hr s w hvalid hindex
  rw [hc.sent_eq] at hr
  split at hr
  · next hstoring =>
      rw [Bool.and_eq_true, storing, Bool.and_eq_true] at hstoring
      rw [List.mem_singleton] at hr
      subst hr
      have hmmio := h.lookup_plain hstoring.1.1
      rw [← hc.mmio] at hmmio
      have hstore : m.dataCache.lookupCachedStore = true := by
        rw [lookupCachedStore, hstoring.1.1, hstoring.1.2, hmmio]
        rfl
      have hlow := congrArg (fun v => v.setWidth 14) hindex
      simp only [Backing.ram, BitVec.setWidth_eq,
        BitVec.setWidth_setWidth_of_le _ (show 14 ≤ 30 by decide)] at hlow
      obtain ⟨hline, hword⟩ := lineIndex_synonym hlow
      have hsame := hfree hstore s hvalid hline
      rw [wordIndex_eq_lineIndex, lineIndex, lineIndex, hsame,
        tagOf_append_setOf, hword]
      rfl
  · cases hr

theorem Linked.offers (h : Linked mem m t) (hi : i.Plain) :
    Offers (m.cacheInputs i) t where
  answer := by
    intro hvalid
    change m.dataMem.responseValidReg = true at hvalid
    rw [h.pending, if_pos hvalid]
    rfl
  aligned := hi.aligned

/-- What the cache asks of the RAM is outside the MMIO window. -/
theorem Linked.request_plain (h : Linked mem m t) {q : BackingRequest}
    (hq : m.memoryRequest i = some q) : addressIsMmio q.address = false := by
  have hc := h.coherent.control
  have hline (word : LineWord) (hbusy : m.dataCache.mshr.valid = true) :
      addressIsMmio (m.dataCache.refillRequest word).address = false := by
    obtain ⟨htag, hset, -⟩ := lineIndex_fields
      (tagOf m.dataCache.mshr.address) (setOf m.dataCache.mshr.address) word
    change addressIsMmio (lineAddress _ word) = false
    rw [lineAddress_eq, addressIsMmio_line htag hset]
    exact (h.coherent.lines.missed hbusy).2
  unfold memoryRequest DataCache.memoryRequest at hq
  cases hstate : m.dataCache.mshr.refillState with
  | request =>
      have hbusy := hc.busy.mpr (by rw [hstate]; decide)
      rw [hstate] at hq
      rw [← Option.some.inj hq]
      exact hline _ hbusy
  | response =>
      have hbusy := hc.busy.mpr (by rw [hstate]; decide)
      rw [hstate] at hq
      dsimp only at hq
      split at hq
      · rw [← Option.some.inj hq]
        exact hline _ hbusy
      · cases hq
  | idle =>
      rw [hstate] at hq
      dsimp only at hq
      split at hq
      · next hstore =>
          simp only [lookupCachedStore, Bool.and_eq_true] at hstore
          rw [← Option.some.inj hq]
          exact h.lookup_plain hstore.1.1
      · split at hq
        · next hmmio =>
            simp only [lookupMmioStore, lookupMmioLoad, Bool.and_eq_true,
              Bool.or_eq_true] at hmmio
            rw [← Option.some.inj hq]
            apply h.lookup_plain
            rcases hmmio.1 with h' | h'
            · exact h'.1.1
            · exact h'.1.1
        · cases hq

/-- The handshakes of the two ports are the same. -/
theorem requestFire_eq : m.dataMem.requestFire (m.memoryInputs i) =
    (m.dataCache.memoryAccepts (m.cacheInputs i)).isSome := by
  change ((m.memoryRequest i).isSome && _) =
    (if m.dataMem.requestReady (m.memoryInputs i) then m.memoryRequest i
      else none).isSome
  cases m.dataMem.requestReady (m.memoryInputs i) with
  | true => exact Bool.and_true _
  | false => exact Bool.and_false _

theorem accepts_request {q : BackingRequest}
    (hq : m.dataCache.memoryAccepts (m.cacheInputs i) = some q) :
    m.memoryRequest i = some q ∧ (m.memoryInputs i).request = q := by
  have hrequest : m.memoryRequest i = some q := by
    change (if m.dataMem.requestReady (m.memoryInputs i) then
      m.memoryRequest i else none) = some q at hq
    split at hq
    · exact hq
    · cases hq
  refine ⟨hrequest, ?_⟩
  rw [memoryInputs, hrequest]
  rfl

/-- The RAM after a cycle holds the stores sent in it. -/
theorem Linked.step_ram (h : Linked mem m t) : (m.step i).dataMem.mem =
    after mem (t.sent ++
      sentBy (m.dataCache.memoryAccepts (m.cacheInputs i))) := by
  change (m.dataMem.step (m.memoryInputs i)).mem = _
  have hfire := requestFire_eq (m := m) (i := i)
  cases hq : m.dataCache.memoryAccepts (m.cacheInputs i) with
  | none =>
      rw [hq, Option.isSome_none] at hfire
      change m.dataMem.nextMem (m.memoryInputs i) = after mem (t.sent ++ [])
      rw [nextMem, hfire, List.append_nil]
      exact h.ram
  | some q =>
      obtain ⟨hrequest, hinput⟩ := accepts_request hq
      have hplain := h.request_plain hrequest
      rw [hq, Option.isSome_some] at hfire
      rw [step_mem (by rw [hinput]; exact hplain), hfire, hinput,
        Bool.true_and, h.ram]
      cases hwrite : q.write with
      | true =>
          have hsent : sentBy (some q) =
              [⟨q.address, q.writeData, q.access⟩] := by
            simp [sentBy, Option.filter, hwrite]
          rw [hsent, after_snoc]
          rfl
      | false =>
          have hsent : sentBy (some q) = [] := by
            simp [sentBy, Option.filter, hwrite]
          rw [hsent, List.append_nil]
          rfl

/-- The response register holds the answer the RAM owes. -/
theorem Linked.step_pending (h : Linked mem m t) :
    (m.dataCache.observe (Backing.ram mem) (m.cacheInputs i) t).pending =
      if (m.step i).dataMem.responseValidReg then
        [(m.step i).dataMem.responseData] else [] := by
  have hfire := requestFire_eq (m := m) (i := i)
  have hready : m.dataCache.memoryResponseFire (m.cacheInputs i) =
      (m.dataMem.responseValidReg && (m.memoryInputs i).responseReady) := rfl
  have hkept : (if m.dataCache.memoryResponseFire (m.cacheInputs i) then
      t.pending.tail else t.pending) =
        if m.dataMem.responseValidReg && !(m.memoryInputs i).responseReady
        then [m.dataMem.responseData] else [] := by
    rw [hready, h.pending]
    cases m.dataMem.responseValidReg with
    | true => cases (m.memoryInputs i).responseReady <;> rfl
    | false => rfl
  change (if m.dataCache.memoryResponseFire (m.cacheInputs i) then
      t.pending.tail else t.pending) ++ owedBy (Backing.ram mem) t.sent
        (m.dataCache.memoryAccepts (m.cacheInputs i)) =
    if (m.dataMem.step (m.memoryInputs i)).responseValidReg then
      [(m.dataMem.step (m.memoryInputs i)).responseData] else []
  rw [hkept]
  by_cases hread : (m.dataMem.requestFire (m.memoryInputs i) &&
      !(m.memoryInputs i).request.write) = true
  · have hread' := hread
    rw [Bool.and_eq_true, hfire, Option.isSome_iff_exists] at hread'
    obtain ⟨⟨q, hq⟩, hload⟩ := hread'
    obtain ⟨hrequest, hinput⟩ := accepts_request hq
    have hresponse := step_response (d := m.dataMem) (i := m.memoryInputs i)
      (by rw [hinput]; exact h.request_plain hrequest) hread
    -- A read is accepted only into a free response register.
    have hslot : (m.dataMem.responseValidReg &&
        !(m.memoryInputs i).responseReady) = false := by
      rw [Bool.and_eq_true, DataMem.requestFire, Bool.and_eq_true,
        DataMem.requestReady, Bool.or_eq_true, responseSlotAvailable] at hread
      rw [Bool.not_eq_true'] at hload
      rcases hread.1.2 with hwrite | hslot
      · rw [hload] at hwrite
        cases hwrite
      · revert hslot
        cases m.dataMem.responseValidReg <;>
          cases (m.memoryInputs i).responseReady <;> simp
    rw [hinput, Bool.not_eq_true'] at hload
    rw [hslot, hresponse.1, hresponse.2, hinput, hq, h.ram]
    simp [owedBy, Option.filter, hload, Backing.ram]
  · rw [Bool.not_eq_true] at hread
    have howed : owedBy (Backing.ram mem) t.sent
        (m.dataCache.memoryAccepts (m.cacheInputs i)) = [] := by
      cases hq : m.dataCache.memoryAccepts (m.cacheInputs i) with
      | none => rfl
      | some q =>
          rw [hfire, hq, (accepts_request hq).2] at hread
          have hwrite : q.write = true := by simpa using hread
          simp [owedBy, Option.filter, hwrite]
    have hvalid : (m.dataMem.step (m.memoryInputs i)).responseValidReg =
        (m.dataMem.responseValidReg &&
          !(m.memoryInputs i).responseReady) := by
      change (_ && _ || _) = _
      rw [hread, Bool.false_or]
    have hdata : (m.dataMem.step (m.memoryInputs i)).responseData =
        m.dataMem.responseData := by
      simp only [responseData, DataMem.step, nextReadWordReg, hread,
        Bool.false_eq_true, if_false]
    rw [howed, List.append_nil, hvalid, hdata]

theorem Linked.step (h : Linked mem m t) (hi : i.Plain)
    (hfree : m.SynonymFree) : Linked mem (m.step i)
      (m.dataCache.observe (Backing.ram mem) (m.cacheInputs i) t) where
  coherent := h.coherent.step (h.offers hi) (h.unaliased hfree _)
  ram := h.step_ram
  pending := h.step_pending
  plain := by
    intro q hq
    rcases List.mem_append.mp hq with hold | hnew
    · exact h.plain q hold
    · split at hnew
      · next hfire =>
          rw [DataCache.requestFire, Bool.and_eq_true] at hfire
          rw [List.mem_singleton.mp hnew]
          exact hi.cached hfire.1
      · cases hnew

end Step

/-- The cached memory and its traffic after some cycles. -/
def run (start : MemStages) (is : Nat → Inputs) :
    Nat → MemStages × CacheTraffic
  | 0 => (start, {})
  | n + 1 =>
      ((run start is n).1.step (is n),
        (run start is n).1.dataCache.observe (Backing.ram start.dataMem.mem)
          ((run start is n).1.cacheInputs (is n)) (run start is n).2)

/-- Every response is the one of the memory alone to the same requests in the
order in which they were accepted. -/
def ServedAsAlone (d : DataMem) (t : CacheTraffic) : Prop :=
  ∀ e ∈ t.responses, ∃ q, t.accepted[e.1]? = some q ∧ q.write = false ∧
    e.2.id = q.id ∧ ∀ fromHost, e.2.data =
      (d.alone fromHost (t.accepted.take (e.1 + 1))).responseData

section Runs

variable {tagArray : CacheSet → CacheTag}
  {dataBank : LineWord → CacheSet → Word} {mem : BitVec 14 → Word}
  {readWord : Word} {m : MemStages} {t : CacheTraffic} {is : Nat → Inputs}

theorem reset_linked :
    Linked mem (reset tagArray dataBank mem readWord) {} where
  coherent := reset_coherent _ _ _
  ram := rfl
  pending := rfl
  plain := by
    intro q hq
    cases hq

theorem run_linked (hplain : ∀ n, (is n).Plain) (n : Nat)
    (hfree : ∀ k < n,
      (run (reset tagArray dataBank mem readWord) is k).1.SynonymFree) :
    Linked mem (run (reset tagArray dataBank mem readWord) is n).1
      (run (reset tagArray dataBank mem readWord) is n).2 := by
  induction n with
  | zero => exact reset_linked
  | succ n ih =>
      have hprev := ih fun k hk => hfree k (Nat.lt_succ_of_lt hk)
      exact hprev.step (hplain n) (hfree n (Nat.lt_succ_self n))

theorem Linked.served (h : Linked mem m t) (d : DataMem) (hd : d.mem = mem) :
    ServedAsAlone d t := by
  intro e he
  obtain ⟨q, hq, hload, hanswer⟩ := h.coherent.ledger.correct e he
  refine ⟨q, hq, hload, by rw [hanswer], ?_⟩
  intro fromHost
  have htake : t.accepted.take (e.1 + 1) = t.accepted.take e.1 ++ [q] := by
    rw [List.take_add_one, hq]
    rfl
  have hplain : ∀ x ∈ t.accepted.take e.1 ++ [q],
      addressIsMmio x.address = false := by
    intro x hx
    rw [← htake] at hx
    exact h.plain x (List.mem_of_mem_take hx)
  rw [htake, (alone_load hplain hload).2, hanswer, hd]

theorem run_endless (hplain : ∀ n, (is n).Plain)
    (hlinked : ∀ n,
      Linked mem (run (reset tagArray dataBank mem readWord) is n).1
        (run (reset tagArray dataBank mem readWord) is n).2) :
    Endless (Backing.ram mem)
      (fun n => (run (reset tagArray dataBank mem readWord) is n).1.dataCache)
      (fun n => (run (reset tagArray dataBank mem readWord) is n).2)
      (fun n => (run (reset tagArray dataBank mem readWord) is
        n).1.cacheInputs (is n)) where
  start := ⟨tagArray, dataBank, rfl⟩
  empty := rfl
  step := fun _ => rfl
  observe := fun _ => rfl
  offers := fun n => (hlinked n).offers (hplain n)

/-- The RAM never blocks the cache for longer than the CPU does. -/
theorem run_fair {start : MemStages}
    (hlinked : ∀ n, Linked mem (run start is n).1 (run start is n).2)
    (htakes : ∀ n, ∃ k, n ≤ k ∧ (is k).responseReady = true) :
    Fair (fun n => (run start is n).1.dataCache)
      (fun n => (run start is n).2)
      (fun n => (run start is n).1.cacheInputs (is n)) where
  accepts := by
    intro n
    obtain ⟨k, hk, hready⟩ := htakes n
    refine ⟨k, hk, ?_⟩
    have hpending := (hlinked k).pending
    rw [(hlinked k).coherent.ledger.pending] at hpending
    change (_ || (!_ || DataCache.memoryResponseReady _ _)) = true
    cases hvalid : (run start is k).1.dataMem.responseValidReg with
    | false => rw [Bool.not_false, Bool.true_or, Bool.or_true]
    | true =>
        rw [hvalid, if_pos rfl, owed] at hpending
        have hc := (hlinked k).coherent.control
        have htaken : (run start is k).1.dataCache.memoryResponseReady
            ((run start is k).1.cachePorts (is k) false) = true := by
          unfold memoryResponseReady
          cases hstate : (run start is k).1.dataCache.mshr.refillState with
          | request =>
              rw [hstate] at hpending
              cases hpending
          | response =>
              change (_ || (is k).responseReady) = true
              rw [hready, Bool.or_true]
          | idle =>
              rw [hstate] at hpending
              dsimp only at hpending
              split at hpending
              · next hsent =>
                  have hmmio := hc.reading hsent
                  simp only [lookupMmioLoad, Bool.and_eq_true] at hmmio
                  rw [hc.mmio, (hlinked k).lookup_plain hmmio.1.1] at hmmio
                  cases hmmio.2
              · cases hpending
        rw [htaken, Bool.or_true, Bool.or_true]
  answers := by
    intro n hpending
    refine ⟨n, le_rfl, ?_⟩
    change (run start is n).1.dataMem.responseValidReg = true
    by_contra hvalid
    rw [(hlinked n).pending, if_neg hvalid] at hpending
    exact hpending rfl
  holds := by
    intro n hvalid hfire
    change (_ || ((run start is n).1.dataMem.responseValidReg && !_)) = true
    change (run start is n).1.dataMem.responseValidReg = true at hvalid
    change ((run start is n).1.dataMem.responseValidReg && _) = false at hfire
    rw [hvalid, Bool.true_and] at hfire
    rw [hvalid, Bool.true_and, Bool.or_eq_true]
    right
    rw [Bool.not_eq_true']
    exact hfire
  takes := htakes

/-- As long as no store is written through beside a valid line with another
name of its word, every load is answered as by the memory alone and at most
once.  If that never happens and the CPU keeps taking responses, every accepted
load is answered. -/
theorem cached_eq_alone (tagArray : CacheSet → CacheTag)
    (dataBank : LineWord → CacheSet → Word) (mem : BitVec 14 → Word)
    (readWord : Word) (is : Nat → Inputs) (hplain : ∀ n, (is n).Plain) :
    (∀ n, (∀ k < n,
        (run (reset tagArray dataBank mem readWord) is k).1.SynonymFree) →
      ServedAsAlone (reset tagArray dataBank mem readWord).dataMem
          (run (reset tagArray dataBank mem readWord) is n).2 ∧
        ((run (reset tagArray dataBank mem readWord) is n).2.responses.map
          Prod.fst).Nodup) ∧
    ((∀ k, (run (reset tagArray dataBank mem readWord) is k).1.SynonymFree) →
      (∀ n, ∃ k, n ≤ k ∧ (is k).responseReady = true) →
      ∀ n k q,
        (run (reset tagArray dataBank mem readWord) is n).2.accepted[k]? =
          some q → q.write = false →
        ∃ m, n ≤ m ∧ k ∈ (run (reset tagArray dataBank mem readWord) is
          m).2.responses.map Prod.fst) := by
  constructor
  · intro n hfree
    have hlinked := run_linked hplain n hfree
    exact ⟨hlinked.served _ rfl, hlinked.coherent.ledger.once⟩
  · intro hfree htakes n k q hq hload
    have hlinked (n : Nat) := run_linked hplain n fun k _ => hfree k
    exact load_answered (fun n => (hlinked n).coherent)
      (run_endless hplain hlinked) (run_fair hlinked htakes) hq hload

instance (m : MemStages) : Decidable m.SynonymFree :=
  inferInstanceAs (Decidable (_ → ∀ _ : BitVec 6, _ → _ → _))

/-- The inputs of a cycle in which the CPU offers a request or none. -/
def offer (request : Option CacheRequest) : Inputs where
  requestValid := request.isSome
  request := request.getD {}
  responseReady := true
  fromHost := 0

/-- A load of address 0, a store of 1, and the load again. -/
def reload (storeAddress : Word) : Nat → Inputs
  | 0 => offer (some { address := 0, id := 1 })
  | 8 => offer (some { write := true, address := storeAddress, writeData := 1 })
  | 9 => offer (some { address := 0, id := 2 })
  | _ => offer none

theorem reload_plain {storeAddress : Word}
    (haligned : storeAddress.toNat % 4 = 0)
    (hcached : addressIsMmio storeAddress = false) (n : Nat) :
    (reload storeAddress n).Plain := by
  unfold reload
  split
  · exact ⟨fun _ => rfl, fun _ => by decide⟩
  · exact ⟨fun _ => haligned, fun _ => hcached⟩
  · exact ⟨fun _ => rfl, fun _ => by decide⟩
  · exact ⟨fun h => (nomatch h), fun h => (nomatch h)⟩

/-- The cached memory after the reload, from cleared arrays. -/
def reloaded (storeAddress : Word) : Nat → MemStages × CacheTraffic :=
  run (reset (fun _ => 0) (fun _ _ => 0) (fun _ => 0) 0) (reload storeAddress)

theorem cached_eq_alone_reload :
    (reloaded 0 11).2.responses = [(0, ⟨0, 1⟩), (2, ⟨1, 2⟩)] ∧
      ServedAsAlone { mem := fun _ => 0 } (reloaded 0 11).2 := by
  refine ⟨by decide +kernel, ?_⟩
  have hfree : ∀ k < 11, (reloaded 0 k).1.SynonymFree := by
    decide +kernel
  exact ((cached_eq_alone (fun _ => 0) (fun _ _ => 0) (fun _ => 0) 0 (reload 0)
    (reload_plain (by decide) (by decide))).1 11 hfree).1

/-- A store to 0x10000 changes word 0 of the RAM and leaves its line in the
cache. -/
theorem stale_reload : ¬ ∀ (tagArray : CacheSet → CacheTag)
    (dataBank : LineWord → CacheSet → Word) (mem : BitVec 14 → Word)
    (readWord : Word) (is : Nat → Inputs), (∀ n, (is n).Plain) → ∀ n,
      ServedAsAlone (reset tagArray dataBank mem readWord).dataMem
        (run (reset tagArray dataBank mem readWord) is n).2 := by
  intro h
  have hserved := h (fun _ => 0) (fun _ _ => 0) (fun _ => 0) 0 (reload 0x10000)
    (reload_plain (by decide) (by decide)) 11
  obtain ⟨q, -, -, -, hdata⟩ := hserved (2, ⟨0, 2⟩) (by decide +kernel)
  have halone := hdata 0
  revert halone
  decide +kernel

end Runs

end MemStages

end OoOCore
