/-
Stores leave the backend once, in program order and only after retirement: the
stores the memory port has accepted, followed by the store buffer's contents,
are the retired stores.
-/
import OoOCore.History

namespace OoOCore

namespace Backend

section Commit

variable {s : Backend} {i : Inputs}

open BackendCommitStage

/-- An LSQ head that carries a tag is the entry in that slot. -/
theorem lsq_headEntry_eq {q : LoadStoreQueue} {k : Nat} {t : LsqTag}
    (hvalid : (q.headEntry k).valid = true) (htag : q.headTag k = t) :
    q.headEntry k = q.entries t := by
  unfold LoadStoreQueue.headEntry LoadStoreQueue.headTag at *
  by_cases hk : k < q.entryCount
  · rw [if_pos hk] at htag ⊢
    rw [htag]
  · rw [if_neg hk] at hvalid
    cases hvalid

/-- The destination of a store is ready to take it. -/
def storeDestinationReady (s : Backend) (i : Inputs) (r : StoreRequest) :
    Bool :=
  if addressIsMmio r.address then s.mmioStoreReady i
  else s.storeBufferEnqueueReady i

/-- The lane whose store the commit stage offers. -/
theorem commitStore_lane {r : StoreRequest}
    (h : s.commitStore i = some r) :
    ∃ l, passes (s.commitInputs i) candidateReady l = true ∧
      storeLane (s.commitInputs i) l = true ∧
      r = s.storeRequest (s.rob.commitEntry l).lsqTag ∧
      s.robRetireValid i l = s.storeDestinationReady i r := by
  obtain ⟨l, hpass, hstore, hr⟩ := store_eq_some h
  have hmem := hstore
  rw [storeLane, Bool.and_eq_true] at hmem
  obtain ⟨hvalid, htag⟩ := passes_head hpass hmem.1
  have hhead : laneHead (s.commitInputs i) l =
      s.lsq.entries (s.rob.commitEntry l).lsqTag := lsq_headEntry_eq hvalid htag
  refine ⟨l, hpass, hstore, ?_, ?_⟩
  · rw [hr, hhead]
    rfl
  · rw [hr]
    exact passes_eq_ready hpass hstore

/-- The stores a cycle retires: the offered one, when its destination is
ready. -/
theorem retiredStores_eq : s.retiredStores i =
    match s.commitStore i with
    | some r => if s.storeDestinationReady i r then [r] else []
    | none => [] := by
  have hfilter : s.retiredStores i =
      ([0, 1].filter fun l => s.robRetireValid i l &&
        storeLane (s.commitInputs i) l).map
          fun l => s.storeRequest (s.rob.commitEntry l).lsqTag := by
    have hlane : (Retired.store ∘ fun l => s.retire (s.rob.commitEntry l)) =
        fun l => if storeLane (s.commitInputs i) l then
            some (s.storeRequest (s.rob.commitEntry l).lsqTag)
          else none := rfl
    rw [retiredStores, retiredNow, retiredLanes, List.filterMap_map, hlane]
    simp only [List.filter_cons, List.filter_nil]
    cases s.robRetireValid i 0 <;> cases s.robRetireValid i 1 <;>
      cases h0 : storeLane (s.commitInputs i) 0 <;>
      cases h1 : storeLane (s.commitInputs i) 1 <;>
      simp [h0, h1]
  rw [hfilter]
  cases hstore : s.commitStore i with
  | none =>
      have hnone : ∀ l, (s.robRetireValid i l &&
          storeLane (s.commitInputs i) l) = false := by
        intro l
        cases hretire : s.robRetireValid i l with
        | false => rfl
        | true => exact store_eq_none hstore (passes_candidate hretire)
      simp [hnone]
  | some r =>
      obtain ⟨l, hpass, hlane, rfl, hretire⟩ := commitStore_lane hstore
      have hother : ∀ l', l' ≠ l → (s.robRetireValid i l' &&
          storeLane (s.commitInputs i) l') = false := by
        intro l' hne
        by_contra h
        rw [Bool.not_eq_false, Bool.and_eq_true] at h
        exact hne (storeLane_unique hpass hlane (passes_candidate h.1) h.2)
      have hself : (s.robRetireValid i l && storeLane (s.commitInputs i) l) =
          s.storeDestinationReady i
            (s.storeRequest (s.rob.commitEntry l).lsqTag) := by
        rw [hlane, Bool.and_true, hretire]
      rcases lane_cases l with rfl | rfl
      · simp only [List.filter_cons, List.filter_nil, hself,
          hother 1 (by decide)]
        cases s.storeDestinationReady i _ <;> simp
      · simp only [List.filter_cons, List.filter_nil, hself,
          hother 0 (by decide)]
        cases s.storeDestinationReady i _ <;> simp

end Commit

section Arbitration

variable {s : Backend} {i : Inputs}

theorem commitStoreMmio_eq : s.commitStoreMmio i =
    (s.commitStore i).any fun r => addressIsMmio r.address := rfl

/-- The drain handshake of the buffer is the port taking its oldest store. -/
theorem drainFire_eq : s.storeBuffer.drainFire (s.storeBufferDrainReady i) =
    (s.selectStoreBufferDrain i && i.memoryRequestReady) := by
  unfold StoreBuffer.drainFire storeBufferDrainReady selectStoreBufferDrain
  cases s.storeBuffer.drainValid <;> simp

/-- What the port accepts: the MMIO store at the ROB head, or a drain. -/
theorem acceptedStores_eq : s.acceptedStores i =
    if s.mmioStoreRequest i then
      if i.memoryRequestReady then (s.commitStore i).toList else []
    else if s.storeBuffer.drainFire (s.storeBufferDrainReady i) then
      [s.storeBuffer.drainRequest]
    else [] := by
  rw [acceptedStores, memoryRequest, drainFire_eq]
  cases hready : i.memoryRequestReady with
  | false => simp
  | true =>
      cases hmmio : s.mmioStoreRequest i with
      | true =>
          cases s.commitStore i with
          | none => rfl
          | some r => rfl
      | false =>
          cases hdrain : s.selectStoreBufferDrain i with
          | true => rfl
          | false =>
              cases s.selectLoadRequest i <;> rfl

/-- One cycle: the accepted stores leave the front of the pending ones, and
the retired ones join at the back. -/
theorem accepted_step (hwf : s.storeBuffer.Wf) :
    s.acceptedStores i ++ (s.step i).storeBuffer.contents =
      s.storeBuffer.contents ++ s.retiredStores i := by
  have hstep : (s.step i).storeBuffer.contents =
      s.storeBuffer.contents.drop
          (s.storeBuffer.drainFire (s.storeBufferDrainReady i)).toNat ++
        if s.storeBuffer.enqueueFire (s.storeBufferEnqueueValid i)
          (s.storeBufferDrainReady i) then
          [(s.commitStore i).getD ⟨0, 0, .word⟩] else [] :=
    hwf.step_contents _ _ _
  have hpop : s.mmioStoreRequest i = false →
      s.acceptedStores i ++ s.storeBuffer.contents.drop
          (s.storeBuffer.drainFire (s.storeBufferDrainReady i)).toNat =
        s.storeBuffer.contents := by
    intro hmmio
    rw [acceptedStores_eq, hmmio]
    cases hdrain : s.storeBuffer.drainFire (s.storeBufferDrainReady i) with
    | false => rfl
    | true =>
        have hvalid : s.storeBuffer.drainValid = true := by
          rw [StoreBuffer.drainFire, Bool.and_eq_true] at hdrain
          exact hdrain.1
        obtain ⟨rest, hrest⟩ := StoreBuffer.drainRequest_eq hvalid
        rw [hrest]
        rfl
  rw [hstep, retiredStores_eq]
  cases hstore : s.commitStore i with
  | none =>
      have hmmio : s.mmioStoreRequest i = false := by
        simp [mmioStoreRequest, commitStoreMmio_eq, hstore]
      have henqueue : s.storeBuffer.enqueueFire (s.storeBufferEnqueueValid i)
          (s.storeBufferDrainReady i) = false := by
        simp [StoreBuffer.enqueueFire, storeBufferEnqueueValid, hstore]
      rw [henqueue, ← List.append_assoc, hpop hmmio]
      rfl
  | some r =>
      cases haddress : addressIsMmio r.address with
      | false =>
          -- A cacheable store joins the buffer exactly when it retires.
          have hmmio : s.commitStoreMmio i = false := by
            simp [commitStoreMmio_eq, hstore, haddress]
          have hrequest : s.mmioStoreRequest i = false := by
            simp [mmioStoreRequest, hmmio]
          have henqueue : s.storeBuffer.enqueueFire
              (s.storeBufferEnqueueValid i) (s.storeBufferDrainReady i) =
                s.storeDestinationReady i r := by
            simp [StoreBuffer.enqueueFire, storeBufferEnqueueValid, hstore,
              hmmio, storeDestinationReady, haddress, storeBufferEnqueueReady]
          rw [henqueue, ← List.append_assoc, hpop hrequest]
          rfl
      | true =>
          -- An MMIO store goes to the port in the cycle that retires it.
          have hmmio : s.commitStoreMmio i = true := by
            simp [commitStoreMmio_eq, hstore, haddress]
          have henqueue : s.storeBuffer.enqueueFire
              (s.storeBufferEnqueueValid i) (s.storeBufferDrainReady i) =
                false := by
            simp [StoreBuffer.enqueueFire, storeBufferEnqueueValid, hmmio]
          have hready : s.storeDestinationReady i r =
              (s.storeBuffer.empty && i.memoryRequestReady) := by
            rw [storeDestinationReady, haddress]
            rfl
          rw [henqueue, if_neg Bool.false_ne_true, List.append_nil]
          simp only [hready]
          cases hempty : s.storeBuffer.empty with
          | false =>
              have hrequest : s.mmioStoreRequest i = false := by
                simp [mmioStoreRequest, hempty]
              rw [hpop hrequest]
              simp
          | true =>
              have hrequest : s.mmioStoreRequest i = true := by
                simp [mmioStoreRequest, hmmio, hempty]
              have hnil := (s.storeBuffer.empty_iff).mp hempty
              rw [acceptedStores_eq, hrequest, hnil, hstore, List.drop_nil]
              cases i.memoryRequestReady <;> rfl

/-- The buffer is a well-formed queue of cacheable stores. -/
structure StoreBufferWf (s : Backend) : Prop where
  wf : s.storeBuffer.Wf
  cacheable : ∀ r ∈ s.storeBuffer.contents, addressIsMmio r.address = false

/-- A buffered store was buffered before, or is the cacheable one the commit
stage offers. -/
theorem StoreBufferWf.mem_step (h : s.StoreBufferWf) {r : StoreRequest}
    (hr : r ∈ (s.step i).storeBuffer.contents) :
    r ∈ s.storeBuffer.contents ∨
      (s.commitStore i = some r ∧ addressIsMmio r.address = false) := by
  have hstep : (s.step i).storeBuffer.contents = _ :=
    h.wf.step_contents (s.storeBufferEnqueueValid i)
      ((s.commitStore i).getD ⟨0, 0, .word⟩) (s.storeBufferDrainReady i)
  rw [hstep, List.mem_append] at hr
  rcases hr with hr | hr
  · exact Or.inl (List.mem_of_mem_drop hr)
  · split at hr
    · next hfire =>
      rw [List.mem_singleton] at hr
      rw [StoreBuffer.enqueueFire, storeBufferEnqueueValid,
        Bool.and_eq_true, Bool.and_eq_true, Bool.not_eq_true'] at hfire
      obtain ⟨⟨hsome, hmmio⟩, -⟩ := hfire
      obtain ⟨r', hr'⟩ := Option.isSome_iff_exists.mp hsome
      rw [commitStoreMmio_eq, hr'] at hmmio
      rw [hr'] at hr
      cases hr
      exact Or.inr ⟨hr', hmmio⟩
    · cases hr

theorem StoreBufferWf.step (h : s.StoreBufferWf) :
    (s.step i).StoreBufferWf where
  wf := h.wf.step_wf _ _ _
  cacheable := by
    intro r hr
    rcases h.mem_step hr with hr | ⟨-, hcacheable⟩
    · exact h.cacheable r hr
    · exact hcacheable

theorem Reachable.storeBufferWf {s : Backend} (h : s.Reachable) :
    s.StoreBufferWf := by
  induction h with
  | reset =>
      refine ⟨StoreBuffer.reset_wf, ?_⟩
      intro r hr
      cases hr
  | step _ i ih => exact ih.step

/-- Accepted stores and buffered stores together are the retired ones. -/
theorem Traced.accepted_append {h : History} (ht : s.Traced h) :
    h.accepted ++ s.storeBuffer.contents = h.stores := by
  induction ht with
  | reset => rfl
  | @step s h ht i ih =>
      have hwf := ht.reachable.storeBufferWf.wf
      change (h.accepted ++ s.acceptedStores i) ++ _ = _
      rw [observe_stores, List.append_assoc, accepted_step hwf, ← List.append_assoc, ih]

end Arbitration

section Requests

variable {s : Backend} {i : Inputs}

/-- The commit lane `l` offers the MMIO store `r` to the port: the ROB entry is
complete and faultless, nothing older is pending, this cycle does not squash
it, and it retires exactly when the port takes it. -/
structure OffersMmioStore (s : Backend) (i : Inputs) (r : StoreRequest)
    (l : Lane) : Prop where
  mmio : addressIsMmio r.address = true
  drained : s.storeBuffer.contents = []
  live : s.commitSlot l ∈ s.rob.window
  complete : (s.rob.entries (s.commitSlot l)).complete = true
  faultless : (s.rob.entries (s.commitSlot l)).exception = false
  isStore : (s.rob.entries (s.commitSlot l)).isMemory = true ∧
    (s.rob.entries (s.commitSlot l)).isStore = true
  request : r = s.storeRequest (s.rob.entries (s.commitSlot l)).lsqTag
  kept : s.squashes i (s.commitSlot l) = false
  retires : s.robRetireValid i l = i.memoryRequestReady
  leaves : s.retiredStores i = if i.memoryRequestReady then [r] else []

open BackendCommitStage

theorem mmioStoreRequest_offers {r : StoreRequest}
    (hreq : s.mmioStoreRequest i = true) (hstore : s.commitStore i = some r) :
    ∃ l, s.OffersMmioStore i r l := by
  rw [mmioStoreRequest, Bool.and_eq_true, commitStoreMmio_eq, hstore] at hreq
  have hmmio : addressIsMmio r.address = true := hreq.1
  obtain ⟨l, hpass, hlane, hr, hretire⟩ := commitStore_lane hstore
  obtain ⟨hrec, hvalid, hexc⟩ := passes_base hpass
  change s.rob.commitValid l = true at hvalid
  change (s.rob.commitEntry l).exception = false at hexc
  rw [storeLane, Bool.and_eq_true] at hlane
  change (s.rob.commitEntry l).isMemory = true ∧
    (s.rob.commitEntry l).isStore = true at hlane
  obtain ⟨hlt, hcomplete, hentry⟩ := s.commitValid_entry hvalid
  change s.rob.commitEntry l = s.rob.entries (s.commitSlot l) at hentry
  rw [hentry] at hexc hlane hr
  have htrap : s.trapValid i = false := by
    by_contra htrap
    rw [Bool.not_eq_false] at htrap
    rw [passes_false_of_trap htrap] at hpass
    cases hpass
  have hready : s.storeDestinationReady i r = i.memoryRequestReady := by
    rw [storeDestinationReady, hmmio, if_pos rfl, mmioStoreReady, hreq.2]
    rfl
  refine ⟨l, hmmio, (s.storeBuffer.empty_iff).mp hreq.2, ?_, hcomplete, hexc,
    hlane, hr, ?_, ?_, ?_⟩
  · exact List.mem_of_getElem? (ReorderBuffer.window_getElem? hlt)
  · rw [squashes, htrap, recoveryYoungerMask_of_normal hrec]
    rfl
  · rw [hretire, hready]
  · rw [retiredStores_eq, hstore]
    simp only [hready]

/-- A store request comes from the head of the buffer or from an MMIO store
that waits at the ROB head. -/
theorem memoryRequest_store {r : StoreRequest}
    (h : s.memoryRequest i = some (.store r)) :
    (∃ rest, s.storeBuffer.contents = r :: rest) ∨
      ∃ l, s.OffersMmioStore i r l := by
  rw [memoryRequest] at h
  cases hreq : s.mmioStoreRequest i with
  | true =>
      rw [hreq, if_pos rfl, Option.map_eq_some_iff] at h
      obtain ⟨r', hstore, heq⟩ := h
      cases heq
      exact Or.inr (mmioStoreRequest_offers hreq hstore)
  | false =>
      rw [hreq, if_neg Bool.false_ne_true] at h
      cases hdrain : s.selectStoreBufferDrain i with
      | true =>
          rw [hdrain, if_pos rfl] at h
          have hr : s.storeBuffer.drainRequest = r := by
            cases h
            rfl
          have hvalid : s.storeBuffer.drainValid = true := by
            simp only [selectStoreBufferDrain, Bool.and_eq_true] at hdrain
            exact hdrain.1.1
          rw [← hr]
          exact Or.inl (StoreBuffer.drainRequest_eq hvalid)
      | false =>
          rw [hdrain, if_neg Bool.false_ne_true] at h
          split at h <;> cases h

/-- A load request comes from the LSU, for the memory candidate. -/
theorem memoryRequest_load {tag : RobTag} {address : Word} {access : MemAccess}
    (h : s.memoryRequest i = some (.load tag address access)) :
    tag = (s.issueUop 0).robTag ∧ address = s.lsuAddress ∧
      access = s.lsuMemoryAccess ∧ s.selectLoadRequest i = true := by
  rw [memoryRequest] at h
  split at h
  · rw [Option.map_eq_some_iff] at h
    obtain ⟨r, -, heq⟩ := h
    cases heq
  · split at h
    · cases h
    · split at h
      · next hselect =>
        cases h
        exact ⟨rfl, rfl, rfl, hselect⟩
      · cases h

/-- What the LSU has checked when it asks the port for a load. -/
theorem loadReadValid_checked (h : s.lsuLoadReadValid i = true) :
    s.candidate0IsMemory = true ∧ s.lsuIsStore = false ∧
      s.combinedLsqIssueReady = true ∧
      LoadStoreExecutionUnit.normalCacheLoad (s.lsuInputs i) = true := by
  simp only [lsuLoadReadValid, LoadStoreExecutionUnit.loadReadValid,
    LoadStoreExecutionUnit.baseIssueReady, Bool.and_eq_true] at h
  obtain ⟨⟨⟨hissue, ⟨⟨hready, -⟩, -⟩⟩, hload⟩, -⟩ := h
  change (s.candidate0IsMemory && !s.fallbackActive) = true at hissue
  rw [Bool.and_eq_true] at hissue
  refine ⟨hissue.1, ?_, hready, hload⟩
  simp only [LoadStoreExecutionUnit.normalCacheLoad, Bool.and_eq_true] at hload
  have hclass := hload.1.1.1
  change LoadStoreExecutionUnit.selectedIsLoad (s.issueUop 0) = true at hclass
  simp only [LoadStoreExecutionUnit.selectedIsLoad, Bool.and_eq_true,
    Bool.not_eq_true'] at hclass
  simp [lsuIsStore, LoadStoreExecutionUnit.selectedIsStore, hclass.2]

/-- The memory candidate and its ROB entry. -/
theorem InFlight.candidate_entry (hs : s.InFlight)
    (h : s.candidate0IsMemory = true) :
    (s.issueUop 0).robTag ∈ s.rob.window ∧
      s.isMemoryTag (s.issueUop 0).robTag = true ∧
      (s.rob.entries (s.issueUop 0).robTag).lsqTag = s.lsuTag ∧
      (s.rob.entries (s.issueUop 0).robTag).isStore =
        (s.issueUop 0).dataWriteEnable := by
  obtain ⟨j, hj, hclass⟩ := s.candidate0_choice h
  have hvalid := s.issueChoice_valid hj
  have hlive := hs.live _ _ (s.heldAt_iq hvalid)
  obtain ⟨hmem, hslot, hstore⟩ := (hs.paired j hvalid).memory
  have hissue := s.issueUop_of_choice hj
  rw [lsuTag, hissue]
  refine ⟨hlive, ?_, hslot, hstore⟩
  change (s.rob.entries (s.iq.entries j).robTag).isMemory = true
  rw [hmem, hclass]
  rfl

/-- The LSQ head belongs to the oldest live memory operation. -/
theorem MemoryOrder.head_oldest (h : s.MemoryOrder) (hwf : s.rob.Wf)
    {tag : RobTag} (hlive : tag ∈ s.rob.window)
    (hmem : s.isMemoryTag tag = true)
    (hvalid : (s.lsq.headEntry 0).valid = true)
    (hhead : s.lsq.headTag 0 = (s.rob.entries tag).lsqTag) :
    ∃ older younger, s.rob.window = older ++ tag :: younger ∧
      ∀ t ∈ older, s.isMemoryTag t = false := by
  have hcount : 0 < s.lsq.entryCount := by
    by_contra hzero
    rw [LoadStoreQueue.headEntry, if_neg hzero] at hvalid
    cases hvalid
  have hslot : s.lsq.headTag 0 = s.lsq.headPtr := by
    rw [LoadStoreQueue.headTag, if_pos hcount]
    exact Ring.slot_zero _
  have howner : s.lsqOwner s.lsq.headPtr = tag := by
    rw [← hslot, hhead]
    exact (h.slot_of_live hlive hmem).2
  obtain ⟨count, hsucc⟩ := Nat.exists_eq_succ_of_ne_zero
    (Nat.pos_iff_ne_zero.mp hcount)
  have howners := h.owners
  rw [LoadStoreQueue.window, hsucc, Ring.slots_cons, List.map_cons,
    howner] at howners
  obtain ⟨older, younger, hwindow⟩ := live_split hlive
  refine ⟨older, younger, hwindow, ?_⟩
  intro t ht
  by_contra hmemt
  rw [Bool.not_eq_false] at hmemt
  have hnodup := hwf.window_nodup
  rw [hwindow] at howners hnodup
  rw [List.filter_append] at howners
  -- The first memory operation of the window would be in `older`.
  cases hfilter : older.filter s.isMemoryTag with
  | nil =>
      have hnil := List.filter_eq_nil_iff.mp hfilter t ht
      exact hnil hmemt
  | cons first rest =>
      rw [hfilter, List.cons_append, List.cons.injEq] at howners
      have hfirst : first ∈ older := by
        have hmemfirst : first ∈ older.filter s.isMemoryTag := by
          rw [hfilter]
          exact List.mem_cons_self
        exact (List.mem_filter.mp hmemfirst).1
      rw [← howners.1] at hfirst
      exact (List.nodup_append.mp hnodup).2.2 tag hfirst tag
        List.mem_cons_self rfl

/-- An MMIO load asks the port only when it is the oldest memory operation and
the store buffer is empty. -/
theorem mmioLoad_ordered (hs : s.InFlight) (hm : s.MemoryOrder)
    {tag : RobTag} {address : Word} {access : MemAccess}
    (h : s.memoryRequest i = some (.load tag address access))
    (hmmio : addressIsMmio address = true) :
    s.storeBuffer.contents = [] ∧
      ∃ older younger, s.rob.window = older ++ tag :: younger ∧
        ∀ t ∈ older, s.isMemoryTag t = false := by
  obtain ⟨rfl, rfl, -, hselect⟩ := memoryRequest_load h
  simp only [selectLoadRequest, Bool.and_eq_true] at hselect
  obtain ⟨hcandidate, hstore, hready, -⟩ :=
    loadReadValid_checked hselect.1.1.1
  have hload : s.loadIssueCandidate = true := by
    simp [loadIssueCandidate, hcandidate, hstore]
  have hordered : s.mmioLoadOrdered = true := by
    rw [combinedLsqIssueReady, Bool.and_eq_true, hload, hmmio] at hready
    exact hready.2
  simp only [mmioLoadOrdered, Bool.and_eq_true, decide_eq_true_eq] at hordered
  obtain ⟨⟨hempty, hvalid⟩, hhead⟩ := hordered
  obtain ⟨hlive, hmem, hslot, -⟩ := hs.candidate_entry hcandidate
  refine ⟨(s.storeBuffer.empty_iff).mp hempty, ?_⟩
  exact hm.head_oldest hs.rob hlive hmem hvalid (hhead.trans hslot.symm)

/-- Stores reach memory once, in program order and only after retirement.
Retirement follows dispatch order; what the port accepted, followed by the
buffer, is what retired; every store request is the oldest buffered store or a
faultless MMIO store at the ROB head that retires exactly when it is accepted;
and MMIO accesses wait for everything older. -/
theorem Traced.stores_once_in_order {h : History} (ht : s.Traced h) :
    h.uids.Pairwise (· < ·) ∧
      h.accepted ++ s.storeBuffer.contents = h.stores ∧
      ∀ i, (∀ r, s.memoryRequest i = some (.store r) →
          (∃ rest, s.storeBuffer.contents = r :: rest) ∨
            ∃ l, s.OffersMmioStore i r l) ∧
        (∀ r, s.accepts i (.store r) → addressIsMmio r.address = true →
          h.accepted = h.stores ∧
            (s.observe i h).stores = h.stores ++ [r] ∧
            (s.observe i h).accepted = h.accepted ++ [r]) ∧
        (∀ tag address access, s.accepts i (.load tag address access) →
          addressIsMmio address = true →
            h.accepted = h.stores ∧
              ∃ older younger, s.rob.window = older ++ tag :: younger ∧
                ∀ t ∈ older, s.isMemoryTag t = false) := by
  have hpending := ht.accepted_append
  have hwf := ht.reachable.storeBufferWf
  have hall : s.storeBuffer.contents = [] → h.accepted = h.stores := by
    intro hnil
    rw [hnil, List.append_nil] at hpending
    exact hpending
  refine ⟨?_, hpending, ?_⟩
  · exact (List.pairwise_append.mp ht.programOrder.1).1
  intro i
  refine ⟨fun r hr => memoryRequest_store hr, ?_, ?_⟩
  · rintro r ⟨hreq, hready⟩ hmmio
    rcases memoryRequest_store hreq with ⟨rest, hrest⟩ | ⟨l, hoffer⟩
    · have hcacheable := hwf.cacheable r (by rw [hrest]; simp)
      rw [hmmio] at hcacheable
      cases hcacheable
    · have haccepted : s.acceptedStores i = [r] := by
        rw [acceptedStores, hready, hreq]
        rfl
      refine ⟨hall hoffer.drained, ?_, ?_⟩
      · rw [observe_stores, hoffer.leaves, hready]
        rfl
      · change h.accepted ++ s.acceptedStores i = _
        rw [haccepted]
  · rintro tag address access ⟨hreq, -⟩ hmmio
    obtain ⟨hdrained, hoverlap⟩ := mmioLoad_ordered ht.reachable.inFlight
      ht.reachable.memoryOrder hreq hmmio
    exact ⟨hall hdrained, hoverlap⟩

/-- A word store to address 0 on its way: dispatched, issued, completed,
retired; the port is busy throughout. -/
def busyStore : List Inputs :=
  [0x00102023, 0, 0, 0].map fun insn =>
    { offerPair insn 0 with memoryRequestReady := false }

theorem stores_once_in_order_busyStore :
    (reset.trace {} busyStore).2.stores = [⟨0, 0, .word⟩] ∧
      (reset.trace {} busyStore).2.accepted ++
        (reset.trace {} busyStore).1.storeBuffer.contents =
          [⟨0, 0, .word⟩] := by
  have hstores : (reset.trace {} busyStore).2.stores = [⟨0, 0, .word⟩] := by
    decide +kernel
  have horder := (Traced.reset.trace busyStore).stores_once_in_order
  exact ⟨hstores, horder.2.1.trans hstores⟩

end Requests

end Backend

end OoOCore
