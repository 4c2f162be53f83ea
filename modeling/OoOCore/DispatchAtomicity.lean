/-
Dispatch is all or nothing.  An accepted lane is written into the ROB, the issue
queue and, for its class, the LSQ and the rename tables on one edge, under tags
that name each other; a lane that is not accepted, or that meets a recovery or a
flush, leaves no trace; the fetch queue gives up exactly the accepted packets.
-/
import OoOCore.FetchOrder
import OoOCore.MemoryOrder
import OoOCore.RenameRefinement

namespace OoOCore

namespace FetchQueue

/-- The states of the queue under any fetch, issue and flush inputs. -/
inductive Reachable : FetchQueue → Prop
  | reset : Reachable {}
  | step {q : FetchQueue} (h : Reachable q) (fetch : Lane → FetchPacket)
      (issue : Lane → Bool) (flush : Bool) : Reachable (q.step fetch issue flush)

variable {q : FetchQueue} {fetch : Lane → FetchPacket} {issue : Lane → Bool}

/-- Only instructions enter the queue. -/
theorem incoming_insn {p : FetchPacket}
    (hp : p ∈ [fetch 0, fetch 1].take (q.enqueueCount fetch issue)) :
    p.insn ≠ 0 := by
  have hle : q.enqueueCount fetch issue ≤
      incomingCount fun lane => (fetch lane).insn := by
    unfold enqueueCount
    split
    · exact Nat.le_refl _
    · exact Nat.zero_le _
  have hmem : p ∈ [fetch 0, fetch 1].take
      (incomingCount fun lane => (fetch lane).insn) :=
    (List.take_sublist_take_left hle).subset hp
  unfold incomingCount at hmem
  split at hmem
  · next h0 =>
      split at hmem
      · next h1 =>
          simp only [List.take_succ_cons, List.take_zero, List.mem_cons,
            List.not_mem_nil, or_false] at hmem
          rcases hmem with rfl | rfl
          · exact h0
          · exact h1
      · simp only [List.take_succ_cons, List.take_zero, List.mem_cons,
          List.not_mem_nil, or_false] at hmem
        rw [hmem]
        exact h0
  · simp at hmem

theorem Reachable.wf (h : q.Reachable) : q.Wf := by
  induction h with
  | reset => exact Wf.empty _
  | step _ fetch issue flush ih =>
      cases flush with
      | true => exact Wf.empty _
      | false => exact ih.step

theorem Reachable.insn (h : q.Reachable) {p : FetchPacket}
    (hp : p ∈ q.contents) : p.insn ≠ 0 := by
  induction h with
  | reset => cases hp
  | step hreach fetch issue flush ih =>
      cases flush with
      | true => cases hp
      | false =>
          rw [hreach.wf.step_contents, List.mem_append] at hp
          rcases hp with hp | hp
          · exact ih (List.mem_of_mem_drop hp)
          · exact incoming_insn hp

end FetchQueue

namespace Backend

section Definitions

variable (s : Backend) (i : Inputs)

/-- `jumpEnable` of `topCPU`, which flushes the fetch queue. -/
def jumpEnable : Bool :=
  s.trapValid i || ((s.branch i).resolved && (s.branch i).mispredicted)

/-- The accepted lanes, in order. -/
def acceptedLanes : List Lane := [0, 1].filter (s.dispatchAccept i)

/-- What an accepted lane gets in the reorder buffer and the issue queue: slots
that were empty, under one ROB tag. -/
structure Enters (l : Lane) : Prop where
  robFree : (s.rob.entries (s.robAllocTag i l)).valid = false
  robEntry : (s.step i).rob.entries (s.robAllocTag i l) =
    ReorderBuffer.allocWrite (s.renameRobEntry i l)
  robTags : ((s.step i).rob.entries (s.robAllocTag i l)).valid = true ∧
    ((s.step i).rob.entries (s.robAllocTag i l)).lsqTag = s.lsqAllocTag i l ∧
    ((s.step i).rob.entries (s.robAllocTag i l)).newPhys =
      s.destinationPhys i l
  issue : ∃ j, s.iq.dispatchSlot (s.renamedUop i) l = some j ∧
    (s.iq.entries j).valid = false ∧
    (s.step i).iq.entries j =
      IssueQueue.dispatchEntry s.prfWriteback (s.renamedUop i l) ∧
    ((s.step i).iq.entries j).valid = true ∧
    ((s.step i).iq.entries j).robTag = s.robAllocTag i l ∧
    ((s.step i).iq.entries j).lsqTag = s.lsqAllocTag i l ∧
    ((s.step i).iq.entries j).destPhys = s.destinationPhys i l

/-- What an accepted memory operation gets in the LSQ. -/
structure EntersLsq (l : Lane) : Prop where
  free : (s.lsq.entries (s.lsqAllocTag i l)).valid = false
  entry : (s.step i).lsq.entries (s.lsqAllocTag i l) =
    LoadStoreQueue.allocWrite (s.renameLsqEntry i l)
  tags : ((s.step i).lsq.entries (s.lsqAllocTag i l)).valid = true ∧
    ((s.step i).lsq.entries (s.lsqAllocTag i l)).robTag =
      s.robAllocTag i l ∧
    ((s.step i).lsq.entries (s.lsqAllocTag i l)).destPhys =
      s.destinationPhys i l

/-- What an accepted register writer gets from the rename tables.  The map
shows its register unless lane 1 renames the same register again. -/
structure Renames (l : Lane) : Prop where
  free : s.destinationPhys i l ≠ 0 ∧
    s.rename.freeList.freeMask (s.destinationPhys i l) = true
  taken : (s.step i).rename.freeList.freeMask (s.destinationPhys i l) = false
  mapped : (s.step i).rename.mapTable.speculativeMap (decodeBus i l).rd =
      s.destinationPhys i l ∨
    (l = 0 ∧ s.freeRequest i 1 = true ∧ (decodeBus i 1).rd = (decodeBus i 0).rd)

/-- The lanes share nothing. -/
structure DistinctSlots : Prop where
  robTag : s.robAllocTag i 0 ≠ s.robAllocTag i 1
  slot : s.iq.dispatchSlot (s.renamedUop i) 0 ≠
    s.iq.dispatchSlot (s.renamedUop i) 1
  lsqTag : laneIsMemory i 0 = true → s.lsqAllocTag i 0 ≠ s.lsqAllocTag i 1
  phys : s.freeRequest i 0 = true → s.freeRequest i 1 = true →
    s.destinationPhys i 0 ≠ s.destinationPhys i 1

/-- On an ordinary edge the structures allocate for accepted lanes only. -/
structure OnlyAccepted : Prop where
  rob : (s.step i).rob.window = s.rob.window.drop (s.retireCount i) ++
    (s.acceptedLanes i).map (s.robAllocTag i)
  issue : ∀ j, ((s.step i).iq.entries j).valid = true →
    ((s.iq.entries j).valid = true ∧ (s.step i).iq.entries j =
        IssueQueue.wakeEntry s.prfWriteback (s.iq.entries j)) ∨
      ∃ l ∈ s.acceptedLanes i,
        s.iq.dispatchSlot (s.renamedUop i) l = some j
  lsq : (s.step i).lsq.window = s.lsq.window.drop (s.lsqRetireCount i) ++
    ((s.acceptedLanes i).filter (laneIsMemory i)).map (s.lsqAllocTag i)
  mapped : ∀ r, (s.step i).rename.mapTable.speculativeMap r ≠
      s.rename.mapTable.speculativeMap r →
    ∃ l ∈ s.acceptedLanes i,
      RenameStage.writesDestination (decodeBus i l) = true ∧
        (decodeBus i l).rd = r ∧
        (s.step i).rename.mapTable.speculativeMap r = s.destinationPhys i l
  taken : ∀ p, s.rename.freeList.freeMask p = true →
    (s.step i).rename.freeList.freeMask p = false →
    ∃ l ∈ s.acceptedLanes i,
      RenameStage.writesDestination (decodeBus i l) = true ∧
        s.destinationPhys i l = p

/-- A recovery or a flush allocates nothing: no entry is new, and what the
decoders offer makes no difference. -/
structure AllocatesNothing : Prop where
  rob : ∀ tag, ((s.step i).rob.entries tag).valid = true →
    (s.rob.entries tag).valid = true
  issue : ∀ j, ((s.step i).iq.entries j).valid = true →
    (s.iq.entries j).valid = true
  lsq : ∀ t, ((s.step i).lsq.entries t).valid = true →
    (s.lsq.entries t).valid = true
  blind : ∀ packet, let i' := { i with packet := packet }
    (s.step i').rob = (s.step i).rob ∧ (s.step i').iq = (s.step i).iq ∧
      (s.step i').lsq = (s.step i).lsq ∧
      (s.step i').rename.mapTable.speculativeMap =
        (s.step i).rename.mapTable.speculativeMap ∧
      (s.step i').rename.freeList.freeMask =
        (s.step i).rename.freeList.freeMask

end Definitions

section Accepted

variable {s : Backend} {i : Inputs}

theorem acceptedLanes_eq : s.acceptedLanes i = s.newLanes i := by
  apply List.filter_congr
  intro l _
  exact (s.robAllocValid_eq i l).symm

theorem mem_acceptedLanes {l : Lane} :
    l ∈ s.acceptedLanes i ↔ s.dispatchAccept i l = true := by
  rw [acceptedLanes_eq, mem_newLanes, robAllocValid_eq]

theorem Reachable.enters (hreach : s.Reachable)
    (htrap : s.trapValid i = false) (hrec : s.recoveryValid i = false)
    {l : Lane} (hl : s.dispatchAccept i l = true) : s.Enters i l := by
  have hc := hreach.countable
  have hs : s.RobReady i := hreach.inFlight.robReady
  have halloc : s.robAllocValid i l = true := by
    rw [robAllocValid_eq]
    exact hl
  obtain ⟨hfresh, -, hentry⟩ := hs.step_dispatched hc htrap hrec halloc
  have hfire : s.iq.dispatchFire (s.renamedUop i) l = true := by
    rw [hc.iqDispatchFire]
    exact halloc
  obtain ⟨j, hj⟩ := s.iq.dispatchSlot_some _ hfire
  have hiq : (s.step i).iq.entries j =
      IssueQueue.dispatchEntry s.prfWriteback (s.renamedUop i l) := by
    rw [step_iq_normal htrap hrec]
    exact s.iq.stepNormal_dispatched _ _ _ _ hj
  refine ⟨?_, hentry, ?_, j, hj, s.iq.dispatchSlot_free _ hj, hiq, ?_, ?_⟩
  · rw [← hs.wf.valid_iff, Bool.not_eq_true] at hfresh
    exact hfresh
  · rw [hentry]
    exact ⟨rfl, rfl, rfl⟩
  · rw [hiq]
    exact (hc.renamedUop_valid i l).trans halloc
  · rw [hiq]
    exact ⟨rfl, rfl, rfl⟩

theorem Reachable.entersLsq (hreach : s.Reachable)
    (htrap : s.trapValid i = false) (hrec : s.recoveryValid i = false)
    {l : Lane} (hl : s.dispatchAccept i l = true)
    (hmem : laneIsMemory i l = true) : s.EntersLsq i l := by
  have hc := hreach.countable
  have hm := hreach.memoryOrder
  have halloc : s.robAllocValid i l = true := by
    rw [robAllocValid_eq]
    exact hl
  have hfire : s.lsq.allocFire (s.lsqAllocValid i) l = true := by
    rw [hc.lsqAllocFire, lsqAllocValid, halloc, hmem]
    rfl
  have hfresh := hm.wf.allocTag_not_mem (s.lsqAllocValid i) hfire
  rw [← hm.wf.valid_iff, Bool.not_eq_true] at hfresh
  have hentry := hm.step_new hc htrap hrec halloc hmem
  have hframe := LoadStoreQueue.allocWrite_atDispatch (s.renameLsqEntry i l)
  refine ⟨hfresh, hentry, ?_⟩
  rw [hentry]
  refine ⟨LoadStoreQueue.allocWrite_valid _, ?_, ?_⟩
  · exact congrArg LsqEntry.robTag hframe
  · exact congrArg LsqEntry.destPhys hframe

end Accepted

section Tables

variable {s : Backend} {i : Inputs}

theorem takenMask_apply (hc : s.Countable) (l : Lane) (mask : PhysReg → Bool)
    (p : PhysReg) : s.takenMask i l mask p =
      (mask p && !(s.freeRequest i l && decide (p = s.destinationPhys i l))) := by
  unfold takenMask PhysicalFreeList.takeLane
  cases hreq : s.freeRequest i l with
  | false => cases s.freeChoice i l <;> simp
  | true =>
      rw [hc.freeChoice_eq i hreq]
      simp only [if_true, Function.update_apply]
      by_cases hp : p = s.destinationPhys i l
      · simp [hp]
      · simp [hp]

/-- The free mask after an ordinary edge. -/
theorem step_freeMask_normal (htrap : s.trapValid i = false)
    (hrec : s.recoveryValid i = false) {p : PhysReg} (hp : p ≠ 0) :
    (s.step i).rename.freeList.freeMask p =
      s.takenMask i 1 (s.takenMask i 0
        (s.freedMask i s.rename.freeList.freeMask)) p := by
  have hmask : (s.step i).rename.freeList.freeMask =
      Function.update (s.takenMask i 1 (s.takenMask i 0
        (s.freedMask i s.rename.freeList.freeMask))) 0 false := by
    rw [step_freeList, htrap, hrec]
    rfl
  rw [hmask, Function.update_of_ne hp]

theorem writeLane_apply (hc : s.Countable) (l : Lane) (m : ArchReg → PhysReg)
    (r : ArchReg) : RenameMapTable.writeLane m (s.renameLane i l) r =
      if s.freeRequest i l = true ∧ (decodeBus i l).rd = r then
        s.destinationPhys i l
      else m r := by
  have hvalid : (s.renameLane i l).valid = s.freeRequest i l :=
    hc.destinationAllocValid_eq i l
  unfold RenameMapTable.writeLane
  rw [hvalid]
  cases hreq : s.freeRequest i l with
  | false => simp
  | true =>
      have hrd : (s.renameLane i l).archRd ≠ 0 := by
        simp only [freeRequest, Bool.and_eq_true] at hreq
        exact writesDestination_rd hreq.2
      rw [if_pos ⟨rfl, hrd⟩, Function.update_apply]
      simp only [true_and, eq_comm (a := r)]
      rfl

/-- The speculative map after an ordinary edge. -/
theorem step_map_normal (hc : s.Countable) (htrap : s.trapValid i = false)
    (hrec : s.recoveryValid i = false) (r : ArchReg) :
    (s.step i).rename.mapTable.speculativeMap r =
      if s.freeRequest i 1 = true ∧ (decodeBus i 1).rd = r then
        s.destinationPhys i 1
      else if s.freeRequest i 0 = true ∧ (decodeBus i 0).rd = r then
        s.destinationPhys i 0
      else s.rename.mapTable.speculativeMap r := by
  rw [s.step_speculativeMap_normal i htrap hrec, writeLane_apply hc,
    writeLane_apply hc]

theorem Reachable.renames (hreach : s.Reachable)
    (htrap : s.trapValid i = false) (hrec : s.recoveryValid i = false)
    {l : Lane} (hl : s.dispatchAccept i l = true)
    (hwrites : RenameStage.writesDestination (decodeBus i l) = true) :
    s.Renames i l := by
  have hc := hreach.countable
  have hreq : s.freeRequest i l = true := by simp [freeRequest, hl, hwrites]
  have hfree := hc.destination_free i hreq
  refine ⟨hfree, ?_, ?_⟩
  · rw [step_freeMask_normal htrap hrec hfree.1, takenMask_apply hc,
      takenMask_apply hc]
    rcases lane_cases l with rfl | rfl
    · simp [hreq]
    · simp [hreq]
  · rw [step_map_normal hc htrap hrec]
    rcases lane_cases l with rfl | rfl
    · by_cases hsame : s.freeRequest i 1 = true ∧
          (decodeBus i 1).rd = (decodeBus i 0).rd
      · exact Or.inr ⟨rfl, hsame⟩
      · left
        rw [if_neg hsame, if_pos ⟨hreq, rfl⟩]
    · left
      rw [if_pos ⟨hreq, rfl⟩]

theorem freeRequest_accepted {l : Lane} (h : s.freeRequest i l = true) :
    l ∈ s.acceptedLanes i ∧
      RenameStage.writesDestination (decodeBus i l) = true := by
  rw [mem_acceptedLanes]
  simpa only [freeRequest, Bool.and_eq_true] using h

theorem Reachable.onlyAccepted (hreach : s.Reachable)
    (htrap : s.trapValid i = false) (hrec : s.recoveryValid i = false) :
    s.OnlyAccepted i := by
  have hc := hreach.countable
  have hs : s.RobReady i := hreach.inFlight.robReady
  refine ⟨?_, ?_, ?_, ?_, ?_⟩
  · rw [acceptedLanes_eq]
    exact hs.step_window_normal hc htrap hrec
  · intro j hj
    rcases iq_step htrap hj with ⟨l, hd, -⟩ | ⟨hold, -, -, heq⟩
    · right
      refine ⟨l, ?_, hd.2⟩
      rw [acceptedLanes_eq, mem_newLanes]
      exact hc.dispatchedTo_accepted hd
    · exact Or.inl ⟨hold, heq⟩
  · rw [acceptedLanes_eq]
    exact hreach.memoryOrder.step_window_normal hc htrap hrec
  · intro r hchanged
    rw [step_map_normal hc htrap hrec] at hchanged ⊢
    split at hchanged
    · next h1 =>
        obtain ⟨hmem, hwrites⟩ := freeRequest_accepted h1.1
        exact ⟨1, hmem, hwrites, h1.2, if_pos h1⟩
    · next h1 =>
        split at hchanged
        · next h0 =>
            obtain ⟨hmem, hwrites⟩ := freeRequest_accepted h0.1
            refine ⟨0, hmem, hwrites, h0.2, ?_⟩
            rw [if_neg h1, if_pos h0]
        · exact absurd rfl hchanged
  · intro p hfree htaken
    have hp : p ≠ 0 := by
      rintro rfl
      rw [hc.zero] at hfree
      cases hfree
    have hfreed : s.freedMask i s.rename.freeList.freeMask p = true := by
      have hset := freedMask_set s i s.rename.freeList.freeMask
      have hmem : p ∈ {p | s.freedMask i s.rename.freeList.freeMask p =
          true} := by
        rw [hset]
        exact Or.inl (Or.inl hfree)
      exact hmem
    rw [step_freeMask_normal htrap hrec hp, takenMask_apply hc,
      takenMask_apply hc, hfreed, Bool.true_and] at htaken
    simp only [Bool.and_eq_false_iff, Bool.not_eq_false', Bool.and_eq_true,
      decide_eq_true_eq] at htaken
    rcases htaken with ⟨hreq, rfl⟩ | ⟨hreq, rfl⟩
    · obtain ⟨hmem, hwrites⟩ := freeRequest_accepted hreq
      exact ⟨0, hmem, hwrites, rfl⟩
    · obtain ⟨hmem, hwrites⟩ := freeRequest_accepted hreq
      exact ⟨1, hmem, hwrites, rfl⟩

/-- Lane 1 gets nothing that an accepted lane 0 takes. -/
theorem Reachable.distinctSlots (hreach : s.Reachable)
    (h0 : s.dispatchAccept i 0 = true) : s.DistinctSlots i := by
  have hc := hreach.countable
  have halloc : s.robAllocValid i 0 = true := by
    rw [robAllocValid_eq]
    exact h0
  refine ⟨hc.robAllocTag_ne halloc, ?_, ?_, hc.destination_ne i⟩
  · intro heq
    have hfire : s.iq.dispatchFire (s.renamedUop i) 0 = true := by
      rw [hc.iqDispatchFire]
      exact halloc
    obtain ⟨j, hj⟩ := s.iq.dispatchSlot_some _ hfire
    have hsame := s.iq.dispatchSlot_injective _ hj (heq ▸ hj)
    exact absurd hsame (by decide)
  · intro hmem heq
    have hvalid : s.lsqAllocValid i 0 = true := by
      simp [lsqAllocValid, halloc, hmem]
    have hroom : s.lsq.entryCount < LoadStoreQueue.depth := by
      have hres := (s.dispatchAccept_zero i h0).2.2.1 hmem
      simp only [LoadStoreQueue.depth]
      omega
    change s.lsq.allocTag _ 0 = s.lsq.allocTag _ 1 at heq
    simp only [LoadStoreQueue.allocTag, hvalid, hroom, and_self, if_true]
      at heq
    have hslot : Ring.slot s.lsq.tailPtr 0 = Ring.slot s.lsq.tailPtr 1 := by
      simpa using heq
    have := Ring.slot_injective s.lsq.tailPtr (by decide) (by decide) hslot
    omega

end Tables

section Squashed

variable {s : Backend} {i : Inputs}

theorem step_iq_flush (htrap : s.trapValid i = true) :
    (s.step i).iq = IssueQueue.reset := by
  change IssueQueue.step _ (s.trapValid i) _ _ _ _ _ _ = _
  rw [htrap]
  rfl

theorem step_freeMask_flush (htrap : s.trapValid i = true) :
    (s.step i).rename.freeList.freeMask =
      Function.update s.rename.mapTable.committedFreeMask 0 false := by
  rw [step_freeList, htrap]
  rfl

theorem step_freeMask_recover (htrap : s.trapValid i = false)
    (hrec : s.recoveryValid i = true) :
    (s.step i).rename.freeList.freeMask =
      Function.update (s.freedMask i
        (s.rename.freeList.checkpointFreeMask (s.recoveryTag i))) 0 false := by
  rw [step_freeList, htrap, hrec]
  rfl

theorem allocatesNothing_flush (htrap : s.trapValid i = true) :
    s.AllocatesNothing i := by
  refine ⟨?_, ?_, ?_, ?_⟩
  · intro tag hvalid
    rw [s.step_rob_flush i htrap] at hvalid
    cases hvalid
  · intro j hvalid
    rw [step_iq_flush htrap] at hvalid
    cases hvalid
  · intro t hvalid
    rw [step_lsq_flush htrap] at hvalid
    cases hvalid
  · intro packet i'
    have htrap' : s.trapValid i' = true := htrap
    rw [s.step_rob_flush i htrap, s.step_rob_flush i' htrap',
      step_iq_flush htrap, step_iq_flush htrap', step_lsq_flush htrap,
      step_lsq_flush htrap', s.step_speculativeMap_flush i htrap,
      s.step_speculativeMap_flush i' htrap', step_freeMask_flush htrap,
      step_freeMask_flush htrap']
    exact ⟨rfl, rfl, rfl, rfl, rfl⟩

theorem Reachable.allocatesNothing_recover (hreach : s.Reachable)
    (htrap : s.trapValid i = false) (hrec : s.recoveryValid i = true) :
    s.AllocatesNothing i := by
  have hs : s.RobReady i := hreach.inFlight.robReady
  have hm := hreach.memoryOrder
  refine ⟨?_, ?_, ?_, ?_⟩
  · intro tag hvalid
    have hlive := (hs.step_wf.valid_iff tag).mp hvalid
    rw [hs.mem_step_window_recover htrap hrec] at hlive
    exact (hs.wf.valid_iff tag).mpr hlive.1
  · intro j hvalid
    rw [step_iq_recover htrap hrec] at hvalid
    exact (s.iq.stepRecover_valid _ _ _ _ hvalid).1
  · intro t hvalid
    have hlive := ((hm.step hs hreach.countable).wf.valid_iff t).mp hvalid
    obtain ⟨kept, cut, hlsq, -, hkept, hcut⟩ := hm.recover_split hs htrap hrec
    rw [step_lsq_recover htrap hrec,
      hm.wf.stepRecover_window _ _ _ hlsq hkept hcut] at hlive
    rw [hm.wf.valid_iff, hlsq]
    exact List.mem_append_left _ hlive
  · intro packet i'
    have htrap' : s.trapValid i' = false := htrap
    have hrec' : s.recoveryValid i' = true := hrec
    rw [s.step_rob_recover i htrap hrec, s.step_rob_recover i' htrap' hrec',
      step_iq_recover htrap hrec, step_iq_recover htrap' hrec',
      step_lsq_recover htrap hrec, step_lsq_recover htrap' hrec',
      s.step_speculativeMap_recover i htrap hrec,
      s.step_speculativeMap_recover i' htrap' hrec',
      step_freeMask_recover htrap hrec, step_freeMask_recover htrap' hrec']
    exact ⟨rfl, rfl, rfl, rfl, rfl⟩

end Squashed

section Queue

variable {s : Backend} {i : Inputs}

/-- The redirect of the front end is the trap or the recovery of the
backend. -/
theorem jumpEnable_eq : s.jumpEnable i =
    (s.trapValid i || s.recoveryValid i) := by
  unfold jumpEnable recoveryValid
  rw [branch_mispredicted, branch_resolved,
    OoOExecutionUnit.branchMispredicted]
  cases OoOExecutionUnit.branchResolved (s.secondaryPort i) true <;> simp

/-- The fetch queue gives up the accepted packets, its oldest, and nothing
else. -/
theorem accepted_leave {q : FetchQueue} (hq : q.Reachable)
    (hpacket : i.packet = q.packet) (htrap : s.trapValid i = false)
    (hrec : s.recoveryValid i = false) (fetch : Lane → FetchPacket) :
    ∃ rest, q.contents = (s.acceptedLanes i).map q.packet ++ rest ∧
      (q.step fetch (s.dispatchAccept i) (s.jumpEnable i)).contents =
        rest ++ [fetch 0, fetch 1].take
          (q.enqueueCount fetch (s.dispatchAccept i)) := by
  have hjump : s.jumpEnable i = false := by
    rw [jumpEnable_eq, htrap, hrec]
    rfl
  have hbus (lane : Lane) : (decodeBus i lane).valid = true ↔
      (q.packet lane).insn ≠ 0 := by
    rw [← hpacket]
    exact decide_eq_true_iff
  have htaken : ([0, 1].filter (s.dispatchAccept i)).map q.packet =
      q.contents.take (q.dequeueCount (s.dispatchAccept i)) := by
    apply FetchQueue.taken_eq
    · intro lane h
      exact (hbus lane).mp (s.dispatchAccept_valid i h)
    · intro h hne
      exact s.dispatchAccept_order i h ((hbus 0).mpr hne)
    · intro p hp
      exact hq.insn hp
  refine ⟨q.contents.drop (q.dequeueCount (s.dispatchAccept i)), ?_, ?_⟩
  · rw [acceptedLanes, htaken, List.take_append_drop]
  · rw [hjump, hq.wf.step_contents]

end Queue

/-- Dispatch atomicity.  On an edge without trap or recovery every accepted lane
enters the ROB and the issue queue, an accepted memory operation also the LSQ
and an accepted writer the rename tables, in slots that were free, distinct and
name each other, and nothing is allocated for another lane.  An edge with a trap
or a recovery allocates nothing.  Lane 1 never overtakes lane 0, and the fetch
queue in front of the decoders loses exactly the accepted packets, or everything
when it is redirected. -/
theorem Reachable.dispatch_atomic {s : Backend} (hreach : s.Reachable)
    (i : Inputs) :
    (s.trapValid i = false → s.recoveryValid i = false →
      (∀ l, s.dispatchAccept i l = true → s.Enters i l ∧
        (laneIsMemory i l = true → s.EntersLsq i l) ∧
        (RenameStage.writesDestination (decodeBus i l) = true →
          s.Renames i l)) ∧
      (s.dispatchAccept i 0 = true → s.DistinctSlots i) ∧
      s.OnlyAccepted i) ∧
    (s.trapValid i = true ∨ s.recoveryValid i = true →
      s.AllocatesNothing i) ∧
    (s.dispatchAccept i 1 = true → (decodeBus i 0).valid = true →
      s.dispatchAccept i 0 = true) ∧
    ∀ q : FetchQueue, q.Reachable → i.packet = q.packet → ∀ fetch,
      (s.trapValid i = false → s.recoveryValid i = false →
        ∃ rest, q.contents = (s.acceptedLanes i).map q.packet ++ rest ∧
          (q.step fetch (s.dispatchAccept i) (s.jumpEnable i)).contents =
            rest ++ [fetch 0, fetch 1].take
              (q.enqueueCount fetch (s.dispatchAccept i))) ∧
      (s.trapValid i = true ∨ s.recoveryValid i = true →
        (q.step fetch (s.dispatchAccept i) (s.jumpEnable i)).contents =
          []) := by
  refine ⟨?_, ?_, s.dispatchAccept_order i, ?_⟩
  · intro htrap hrec
    refine ⟨?_, hreach.distinctSlots, hreach.onlyAccepted htrap hrec⟩
    intro l hl
    exact ⟨hreach.enters htrap hrec hl, hreach.entersLsq htrap hrec hl,
      hreach.renames htrap hrec hl⟩
  · intro hsquash
    cases htrap : s.trapValid i with
    | true => exact allocatesNothing_flush htrap
    | false =>
        rw [htrap] at hsquash
        rcases hsquash with hfalse | hrec
        · cases hfalse
        · exact hreach.allocatesNothing_recover htrap hrec
  · intro q hq hpacket fetch
    refine ⟨fun htrap hrec => accepted_leave hq hpacket htrap hrec fetch, ?_⟩
    intro hsquash
    have hjump : s.jumpEnable i = true := by
      rw [jumpEnable_eq, Bool.or_eq_true]
      exact hsquash
    rw [hjump]
    rfl

/-- An addition and a load dispatched together. -/
theorem dispatch_atomic_pair :
    reset.Enters (offerPair 0x00100093 0x00002103) 0 ∧
      reset.EntersLsq (offerPair 0x00100093 0x00002103) 1 ∧
      reset.Renames (offerPair 0x00100093 0x00002103) 1 := by
  have hall := ((Reachable.reset.dispatch_atomic
    (offerPair 0x00100093 0x00002103)).1 (by decide +kernel)
      (by decide +kernel)).1
  have hload := hall 1 (by decide +kernel)
  exact ⟨(hall 0 (by decide +kernel)).1, hload.2.1 (by decide +kernel),
    hload.2.2 (by decide +kernel)⟩

end Backend

end OoOCore
