/-
The memory port of the core.  Behind the backend, the data cache and the data
memory are a port that behaves as a memory on the RAM, as long as every store
goes below 0x10000.
-/
import OoOCore.RamMemory
import OoOCore.RetiredLoads

namespace OoOCore

namespace Backend

variable {s : Backend} {i : Inputs}

/-- What the port carries for a load. -/
theorem memoryBus_access {tag : RobTag} {address : Word} {access : MemAccess}
    (h : s.memoryRequest i = some (.load tag address access)) :
    (s.memoryBus i).address = address ∧ (s.memoryBus i).access = access := by
  obtain ⟨-, rfl, rfl, hselect⟩ := memoryRequest_load h
  simp only [selectLoadRequest, Bool.and_eq_true, Bool.not_eq_true'] at hselect
  obtain ⟨⟨⟨hread, hmmio⟩, hcommit⟩, hforce⟩ := hselect
  have hdrain : s.selectStoreBufferDrain i = false := by
    simp [selectStoreBufferDrain, hcommit, hforce, hread]
  simp [memoryBus, hmmio, hdrain]

/-- A load that the port accepts takes a pending slot. -/
theorem accepted_starts {tag : RobTag} {address : Word} {access : MemAccess}
    (h : s.memoryRequest i = some (.load tag address access))
    (hready : i.memoryRequestReady = true) :
    s.exec.memory.startsLoad (s.lsuInputs i) = true := by
  obtain ⟨-, -, -, hselect⟩ := memoryRequest_load h
  simp only [selectLoadRequest, Bool.and_eq_true, Bool.not_eq_true'] at hselect
  obtain ⟨⟨⟨hread, -⟩, hcommit⟩, hforce⟩ := hselect
  have hport : (s.lsuInputs i).memoryRequestReady = true := by
    change s.loadCacheRequestReady i = true
    simp [loadCacheRequestReady, hready, hcommit, hforce]
  simp only [lsuLoadReadValid, LoadStoreExecutionUnit.loadReadValid,
    Bool.and_eq_true, Bool.not_eq_true'] at hread
  obtain ⟨⟨⟨hissue, hbase⟩, hnormal⟩, hfree⟩ := hread
  have hflush : (s.lsuInputs i).flush = false := by
    simp only [LoadStoreExecutionUnit.baseIssueReady, Bool.and_eq_true,
      Bool.not_eq_true'] at hbase
    exact hbase.2
  simp [LoadStoreExecutionUnit.startsLoad, LoadStoreExecutionUnit.issueFire,
    LoadStoreExecutionUnit.issueReady, hissue, hbase, hnormal, hfree, hport,
    hflush]

theorem Reachable.store_aligned (hreach : s.Reachable) {r : StoreRequest}
    (h : s.memoryRequest i = some (.store r)) : r.Aligned := by
  have hentries := hreach.memoryEntries
  rw [memoryRequest] at h
  split at h
  · obtain ⟨r', hcommit, heq⟩ := Option.map_eq_some_iff.mp h
    cases heq
    exact hentries.commitStore_aligned hreach.memoryOrder hcommit
  · split at h
    · next hdrain =>
      cases h
      simp only [selectStoreBufferDrain, Bool.and_eq_true] at hdrain
      obtain ⟨rest, hrest⟩ := StoreBuffer.drainRequest_eq hdrain.1.1
      apply hentries.buffered
      rw [hrest]
      exact List.mem_cons_self
    · split at h <;> cases h

/-- Every access that the backend asks for is aligned. -/
theorem Reachable.request_aligned (hreach : s.Reachable)
    (h : (s.memoryRequest i).isSome = true) : (s.memoryBus i).Aligned := by
  cases hreq : s.memoryRequest i with
  | none =>
      rw [hreq] at h
      cases h
  | some request =>
      cases request with
      | store r =>
          obtain ⟨hwrite, hstore⟩ := memoryBus_store hreq
          rw [CacheRequest.Aligned, if_pos hwrite, hstore]
          exact hreach.store_aligned hreq
      | load tag address access =>
          obtain ⟨haddress, haccess⟩ := memoryBus_access hreq
          obtain ⟨-, rfl, rfl, hselect⟩ := memoryRequest_load hreq
          simp only [selectLoadRequest, Bool.and_eq_true] at hselect
          have hnormal := (loadReadValid_checked hselect.1.1.1).2.2.2
          simp only [LoadStoreExecutionUnit.normalCacheLoad, Bool.and_eq_true,
            Bool.not_eq_true'] at hnormal
          rw [CacheRequest.Aligned, (memoryBus_load hreq).1,
            if_neg Bool.false_ne_true, haddress, haccess]
          exact hnormal.1.2

end Backend

theorem storesIn_singleton (q : CacheRequest) :
    storesIn [q] = if q.write then [q.store] else [] := by
  cases hwrite : q.write <;> simp [storesIn, CacheRequest.store?, hwrite]

namespace TopCpu

open DataCache DataMem

variable {init : Word → BitVec 8} {c : TopCpu} {h : History}
  {p : Backend.Promises} {bank : LineWord → CacheSet → Word} {data : Word}
  {t : CacheTraffic} {fromHost : Word}

/-- What the port owes a load that was accepted at position `k`. -/
def owedAt (init : Word → BitVec 8) (t : CacheTraffic) (k : Nat)
    (q : CacheRequest) : Option Word :=
  if inRam q.address then
    some ((Backing.flat init).read (storesIn (t.accepted.take k)) q.address
      q.access)
  else none

/-- The load at position `k` has been accepted and waits for its response. -/
structure WaitingLoad (c : TopCpu) (t : CacheTraffic) (k : Nat)
    (q : CacheRequest) : Prop where
  waits : c.memStage.dataCache.Waits t k
  accepted : t.accepted[k]? = some q
  load : q.write = false

/-- The traffic at the port is the one that the backend has seen, and each load
that waits has its pending slot and its promise. -/
structure Ported (init : Word → BitVec 8) (c : TopCpu) (h : History)
    (p : Backend.Promises) (bank : LineWord → CacheSet → Word) (data : Word)
    (t : CacheTraffic) : Prop where
  behind : MemStages.Behind init c.memStage bank data t
  stores : storesIn t.accepted = h.accepted
  pending : ∀ k q, c.WaitingLoad t k q →
    c.backend.exec.memory.pendingValid q.id = true ∧
      p q.id = owedAt init t k q
  apart : ∀ k k' q q', c.WaitingLoad t k q → c.WaitingLoad t k' q' →
    q.id = q'.id → k = k'

theorem Ported.boot (b : Boot) : Ported (bytes b.dataMem) (boot b) {}
    (fun _ => none) b.dataBank 0 {} where
  behind := MemStages.Behind.reset _ _ _ _
  stores := rfl
  pending := by
    intro k q hq
    cases hq.accepted
  apart := by
    intro k k' q q' hq
    cases hq.accepted

/-- The traffic of the twin after a cycle. -/
def twinTraffic (init : Word → BitVec 8) (c : TopCpu) (fromHost : Word)
    (bank : LineWord → CacheSet → Word) (data : Word) (t : CacheTraffic) :
    CacheTraffic :=
  (c.memStage.dataCache.withData bank data).observe (Backing.flat init)
    (c.memStage.twinInputs (c.memoryInputs fromHost) t) t

/-- The cache accepts the request of the backend in this cycle. -/
def portFire (c : TopCpu) (fromHost : Word) : Bool :=
  c.memStage.dataCache.requestFire
    (c.memStage.cacheInputs (c.memoryInputs fromHost))

theorem twinTraffic_accepted : (c.twinTraffic init fromHost bank data
    t).accepted = t.accepted ++
      if c.portFire fromHost then [(c.memoryInputs fromHost).request]
      else [] := by
  have hfire : (c.memStage.dataCache.withData bank data).requestFire
      (c.memStage.twinInputs (c.memoryInputs fromHost) t) =
        c.portFire fromHost := rfl
  have hrequest : (c.memStage.twinInputs (c.memoryInputs fromHost) t).request =
    (c.memoryInputs fromHost).request := rfl
  rw [twinTraffic, observe, hfire, hrequest]

section Step

variable (hp : Ported init c h p bank data t)

include hp

omit hp in
/-- The response that the backend sees is one of the cache. -/
theorem response_some (hvalid : (c.inputs fromHost).response.valid = true) :
    ∃ r, c.memStage.dataCache.response
        (c.memStage.cacheInputs (c.memoryInputs fromHost)) = some r ∧
      (c.inputs fromHost).response = ⟨true, r.id, r.data⟩ := by
  cases hr : c.memStage.dataCache.response
      (c.memStage.cacheInputs (c.memoryInputs fromHost)) with
  | none =>
      have hnone : c.memStage.response = ⟨false, 0, 0⟩ := by
        rw [MemStages.response]
        change c.memStage.dataCache.response
          (c.memStage.cachePorts ⟨false, {}, false, 0⟩ false) = none at hr
        rw [hr]
      change c.memStage.response.valid = true at hvalid
      rw [hnone] at hvalid
      cases hvalid
  | some r => exact ⟨r, rfl, response_eq hr⟩

/-- The response that the backend sees goes to a load that waits, and the
backend takes it. -/
theorem Ported.served (hreach : c.backend.Reachable)
    (hvalid : (c.inputs fromHost).response.valid = true) :
    ∃ k q, c.WaitingLoad t k q ∧ q.id = (c.inputs fromHost).response.id ∧
      k ∈ (c.memStage.dataCache.answered
        (c.memStage.cacheInputs (c.memoryInputs fromHost)) t).map Prod.fst ∧
      (inRam q.address = true → (c.inputs fromHost).response.data =
        (Backing.flat init).read (storesIn (t.accepted.take k)) q.address
          q.access) := by
  obtain ⟨r, hr, hresponse⟩ := response_some hvalid
  obtain ⟨hwaits, q, hq, hload, hid, hdata⟩ :=
    hp.behind.response hreach.request_aligned hr
  have hwaiting : c.WaitingLoad t _ q := ⟨hwaits, hq, hload⟩
  have hready : (c.memStage.cacheInputs
      (c.memoryInputs fromHost)).responseReady = true := by
    change c.backend.exec.memory.pendingValid
      (c.inputs fromHost).response.id = true
    rw [hresponse]
    change c.backend.exec.memory.pendingValid r.id = true
    rw [hid]
    exact (hp.pending _ q hwaiting).1
  refine ⟨_, q, hwaiting, ?_, ?_, ?_⟩
  · rw [hresponse]
    exact hid.symm
  · rw [answered, if_pos hready, hr]
    exact List.mem_singleton_self _
  · rw [hresponse]
    exact hdata

/-- The port keeps its promises. -/
theorem Ported.answered (hreach : c.backend.Reachable) :
    c.backend.Answered (c.inputs fromHost) p := by
  intro hvalid _ value hvalue
  obtain ⟨k, q, hq, hid, -, hdata⟩ := hp.served hreach hvalid
  rw [← hid, (hp.pending k q hq).2, owedAt] at hvalue
  split at hvalue
  · next hram =>
    rw [hdata hram]
    exact Option.some.inj hvalue
  · cases hvalue

/-- Who waits after a cycle waited before and was not answered, or has just
been accepted. -/
theorem Ported.waiting_cases {k : Nat} {q : CacheRequest}
    (hq : (c.step fromHost).WaitingLoad
      (c.twinTraffic init fromHost bank data t) k q) :
    (c.WaitingLoad t k q ∧
        k ∉ (c.memStage.dataCache.answered
          (c.memStage.cacheInputs (c.memoryInputs fromHost)) t).map Prod.fst ∧
        owedAt init (c.twinTraffic init fromHost bank data t) k q =
          owedAt init t k q) ∨
      (c.portFire fromHost = true ∧ q = (c.memoryInputs fromHost).request ∧
        k = t.accepted.length ∧
        owedAt init (c.twinTraffic init fromHost bank data t) k q =
          if inRam q.address then
            some ((Backing.flat init).read h.accepted q.address q.access)
          else none) := by
  obtain ⟨hwaits, haccepted, hload⟩ := hq
  rw [twinTraffic_accepted] at haccepted
  have htake (hk : k ≤ t.accepted.length) : (c.twinTraffic init fromHost bank
      data t).accepted.take k = t.accepted.take k := by
    rw [twinTraffic_accepted, List.take_append_of_le_length hk]
  by_cases hk : k < t.accepted.length
  · left
    rw [List.getElem?_append_left hk] at haccepted
    have hstep := (hp.behind.coherent.ledger.step_waits
      (i := c.memStage.twinInputs (c.memoryInputs fromHost) t)
      hp.behind.coherent.control haccepted hload).mp (by
        rw [MemStages.twinInputs, step_withData]
        exact hwaits)
    refine ⟨⟨hstep.1, haccepted, hload⟩, ?_, ?_⟩
    · rw [answered_positions] at hstep ⊢
      exact hstep.2
    · rw [owedAt, owedAt, htake (Nat.le_of_lt hk)]
  · right
    rw [List.getElem?_append_right (Nat.le_of_not_lt hk)] at haccepted
    split at haccepted
    · next hfire =>
      obtain ⟨hlt, hget⟩ := List.getElem?_eq_some_iff.mp haccepted
      rw [List.length_singleton] at hlt
      have hlast : k = t.accepted.length := by omega
      subst hlast
      simp only [Nat.sub_self, List.getElem_cons_zero] at hget
      refine ⟨hfire, hget.symm, rfl, ?_⟩
      rw [owedAt, htake le_rfl, List.take_length, hp.stores]
    · cases haccepted

omit hp in
/-- An accepted load takes its pending slot with its promise. -/
theorem accepted_pending (init : Word → BitVec 8) (h : History)
    (p : Backend.Promises) (hfire : c.portFire fromHost = true)
    (hload : (c.memoryInputs fromHost).request.write = false) :
    c.backend.exec.memory.pendingValid (c.memoryInputs fromHost).request.id =
        false ∧
      (c.step fromHost).backend.exec.memory.pendingValid
        (c.memoryInputs fromHost).request.id = true ∧
      c.backend.promiseCovered inRam (c.inputs fromHost) init h p
          (c.memoryInputs fromHost).request.id =
        if inRam (c.memoryInputs fromHost).request.address then
          some ((Backing.flat init).read h.accepted
            (c.memoryInputs fromHost).request.address
            (c.memoryInputs fromHost).request.access)
        else none := by
  have hboth := hfire
  rw [portFire, requestFire_eq, Bool.and_eq_true] at hboth
  obtain ⟨hsome, hready⟩ := hboth
  cases hreq : c.backend.memoryRequest (c.inputs fromHost) with
  | none =>
      rw [hreq] at hsome
      cases hsome
  | some request =>
      cases request with
      | store r =>
          have hwrite := (Backend.memoryBus_store hreq).1
          exact absurd (hload.symm.trans hwrite) Bool.false_ne_true
      | load tag address access =>
          have hid := (Backend.memoryBus_load hreq).2
          obtain ⟨haddress, haccess⟩ := Backend.memoryBus_access hreq
          have hstart := Backend.accepted_starts hreq hready
          have htag := (Backend.memoryRequest_load hreq).1
          change (c.memoryInputs fromHost).request.id = tag at hid
          change (c.memoryInputs fromHost).request.address = address
            at haddress
          change (c.memoryInputs fromHost).request.access = access at haccess
          rw [hid, haddress, haccess]
          refine ⟨Backend.accepted_free hreq, ?_, ?_⟩
          · rw [htag]
            exact (LoadStoreExecutionUnit.step_pending_started _ _ hstart).1
          · rw [Backend.promiseCovered, if_pos hready, hreq,
              Backend.owesCovered, Function.update_self]
            rfl

/-- A load keeps its pending slot until it is answered. -/
theorem Ported.step_kept (hreach : c.backend.Reachable) {k : Nat}
    {q : CacheRequest} (hq : c.WaitingLoad t k q)
    (hnot : k ∉ (c.memStage.dataCache.answered
      (c.memStage.cacheInputs (c.memoryInputs fromHost)) t).map Prod.fst) :
    (c.step fromHost).backend.exec.memory.pendingValid q.id = true := by
  have hpending := (hp.pending k q hq).1
  have hother : c.backend.exec.memory.startsLoad
      (c.backend.lsuInputs (c.inputs fromHost)) = true →
      q.id ≠ (c.backend.lsuInputs (c.inputs fromHost)).uop.robTag := by
    intro hstart htag
    have hfree := (Backend.startsLoad_pending hstart).2.2.1
    change q.id = (c.backend.issueUop 0).robTag at htag
    rw [htag] at hpending
    exact Bool.false_ne_true (hfree.symm.trans hpending)
  have hslot := (LoadStoreExecutionUnit.step_pending_other
    c.backend.exec.memory (c.backend.lsuInputs (c.inputs fromHost))
    hother).2.2.1
  refine hslot.trans ?_
  rw [hpending, Bool.true_and, Bool.not_eq_true', Bool.and_eq_false_iff]
  by_contra hanswered
  rw [not_or, Bool.not_eq_false, Bool.not_eq_false,
    decide_eq_true_eq] at hanswered
  obtain ⟨hfire, hid⟩ := hanswered
  rw [LoadStoreExecutionUnit.responseFire, Bool.and_eq_true] at hfire
  obtain ⟨k', q', hq', hid', hmem, -⟩ := hp.served hreach hfire.1
  rw [hp.apart k k' q q' hq hq' (hid.symm.trans hid'.symm)] at hnot
  exact hnot hmem

theorem Ported.step (fromHost : Word) (hreach : c.backend.Reachable)
    (hlow : ∀ r ∈ h.accepted, r.address.toNat < 0x10000) :
    Ported init (c.step fromHost) (c.backend.observe (c.inputs fromHost) h)
      (c.backend.promiseCovered inRam (c.inputs fromHost) init h p)
      ((c.memStage.dataCache.withData bank data).nextDataBank
        (c.memStage.twinInputs (c.memoryInputs fromHost) t))
      ((c.memStage.dataCache.withData bank data).nextLookup
        (c.memStage.twinInputs (c.memoryInputs fromHost) t)).data
      (c.twinTraffic init fromHost bank data t) where
  behind := by
    rw [← hp.stores] at hlow
    exact hp.behind.step hreach.request_aligned hlow
  stores := by
    change _ = h.accepted ++ c.backend.acceptedStores (c.inputs fromHost)
    rw [twinTraffic_accepted, storesIn_append, hp.stores, acceptedStores_eq]
    change _ ++ storesIn (if c.portFire fromHost then _ else _) =
      _ ++ if c.portFire fromHost && _ then _ else _
    congr 1
    cases c.portFire fromHost with
    | false => rfl
    | true =>
        rw [if_pos rfl, Bool.true_and]
        exact storesIn_singleton _
  pending := by
    intro k q hq
    rcases hp.waiting_cases hq with ⟨hold, hnot, howed⟩ |
      ⟨hfire, rfl, -, howed⟩
    · obtain ⟨hpending, hpromise⟩ := hp.pending k q hold
      rw [howed, Backend.promiseCovered_pending hpending]
      exact ⟨hp.step_kept hreach hold hnot, hpromise⟩
    · obtain ⟨-, hslot, hpromise⟩ :=
        accepted_pending init h p hfire hq.load
      rw [howed]
      exact ⟨hslot, hpromise⟩
  apart := by
    intro k k' q q' hq hq' hid
    -- A new load has another id than those that wait.
    have hfresh {k : Nat} {q : CacheRequest} (hold : c.WaitingLoad t k q)
        (hfire : c.portFire fromHost = true)
        (hload : (c.memoryInputs fromHost).request.write = false) :
        q.id ≠ (c.memoryInputs fromHost).request.id := by
      intro heq
      have hfree := (accepted_pending init h p hfire
        hload).1
      rw [← heq, (hp.pending k q hold).1] at hfree
      cases hfree
    rcases hp.waiting_cases hq with ⟨hold, -⟩ | ⟨hfire, rfl, rfl, -⟩
    · rcases hp.waiting_cases hq' with ⟨hold', -⟩ | ⟨hfire', rfl, -, -⟩
      · exact hp.apart k k' q q' hold hold' hid
      · exact absurd hid (hfresh hold hfire' hq'.load)
    · rcases hp.waiting_cases hq' with ⟨hold', -⟩ | ⟨-, -, rfl, -⟩
      · exact absurd hid.symm (hfresh hold' hfire hq.load)
      · rfl

end Step

end TopCpu

end OoOCore
