/-
Renaming refines `Lib/Renaming`: the map tables, the free list and the live ROB
entries are one abstract renaming state, and every clock edge is a flush, a
recovery, or commits followed by allocations of that state.
-/
import OoOCore.InFlight
import OoOCore.Lib.Renaming

namespace OoOCore

namespace Backend

open Renaming (Item State)

section Abstraction

variable (s : Backend)

/-- What a ROB slot means to renaming. -/
def renamingItem (tag : RobTag) : Item ArchReg PhysReg where
  write := if (s.rob.entries tag).writesRd then
      some ⟨(s.rob.entries tag).archRd, (s.rob.entries tag).newPhys,
        (s.rob.entries tag).oldPhys⟩
    else none
  checkpoint := if (s.rob.entries tag).isBranch then
      some ⟨s.rename.mapTable.checkpointMap tag,
        {p | s.rename.freeList.checkpointFreeMask tag p = true}⟩
    else none

/-- The renaming state of the backend. -/
def renamingState : State ArchReg PhysReg where
  committed := s.rename.mapTable.committedMap
  speculative := s.rename.mapTable.speculativeMap
  free := {p | s.rename.freeList.freeMask p = true}
  queue := s.rob.window.map s.renamingItem

/-- `x0` keeps the name `p0`. -/
def RenamingWf : Prop := Renaming.Wf (0 : ArchReg) (0 : PhysReg) s.renamingState

theorem reset_renamingWf : reset.RenamingWf where
  speculative_eq := rfl
  checkpoint_eq := by
    intro older item younger c hsplit
    exact absurd hsplit (by simp [renamingState, reset, ReorderBuffer.reset,
      ReorderBuffer.window])
  old_eq := by
    intro older item younger w hsplit
    exact absurd hsplit (by simp [renamingState, reset, ReorderBuffer.reset,
      ReorderBuffer.window])
  committed_injective := by
    intro a b hab
    exact Fin.castLE_injective (by decide : 32 ≤ 48) hab
  taken_nodup := List.nodup_nil
  taken_fresh := by
    intro p hp
    cases hp
  free_eq := by
    ext p
    change decide (32 ≤ p.val) = true ↔
      (∀ a : ArchReg, RenameMapTable.identityMap a ≠ p) ∧ p ∉ []
    rw [decide_eq_true_eq]
    constructor
    · rintro hp
      refine ⟨fun a ha => ?_, List.not_mem_nil⟩
      have hval : a.val = p.val := congrArg Fin.val ha
      omega
    · rintro ⟨hmap, -⟩
      by_contra hp
      exact hmap ⟨p.val, by omega⟩ rfl
  pinned := rfl
  not_pinned := by
    intro item hmem
    cases hmem

end Abstraction

section Lanes

variable (s : Backend) (i : Inputs)

/-- The registers a commit lane frees. -/
def releasedBy (l : Lane) : Set PhysReg :=
  {p | s.freeCommitValid i l = true ∧ (s.rob.commitEntry l).oldPhys = p}

/-- The destination a dispatch lane asks for. -/
def laneDest (l : Lane) : Option (ArchReg × PhysReg) :=
  if RenameStage.writesDestination (decodeBus i l) then
    some ((decodeBus i l).rd, s.destinationPhys i l)
  else none

/-- A dispatch lane that takes a checkpoint. -/
def laneMark (l : Lane) : Bool := (decodeBus i l).branchCtr != .none

/-- A free mask after the frees of this cycle. -/
def freedMask (mask : PhysReg → Bool) : PhysReg → Bool :=
  PhysicalFreeList.freeLane
    (PhysicalFreeList.freeLane mask (s.freeCommitValid i 0)
      (s.rob.commitEntry 0).oldPhys)
    (s.freeCommitValid i 1) (s.rob.commitEntry 1).oldPhys

/-- A free mask after one rename lane. -/
def takenMask (l : Lane) (mask : PhysReg → Bool) : PhysReg → Bool :=
  PhysicalFreeList.takeLane mask (s.freeRequest i l) (s.freeChoice i l)

theorem freeLane_iff (mask : PhysReg → Bool) (valid : Bool) (q p : PhysReg)
    (hq : valid = true → q ≠ 0) :
    PhysicalFreeList.freeLane mask valid q p = true ↔
      mask p = true ∨ (valid = true ∧ q = p) := by
  unfold PhysicalFreeList.freeLane
  cases valid with
  | false => simp
  | true =>
      rw [if_pos ⟨rfl, hq rfl⟩, Function.update_apply]
      by_cases hp : p = q
      · simp [hp]
      · have hp' : ¬ q = p := fun h => hp h.symm
        simp [hp, hp']

theorem freeCommitValid_old {l : Lane} (h : s.freeCommitValid i l = true) :
    s.robRetireValid i l = true ∧ s.commitArchRd l ≠ 0 ∧
      (s.rob.commitEntry l).oldPhys ≠ 0 := by
  simp only [freeCommitValid, Bool.and_eq_true, decide_eq_true_eq] at h
  exact ⟨h.1.1, h.1.2, h.2⟩

theorem freedMask_set (mask : PhysReg → Bool) :
    {p | s.freedMask i mask p = true} =
      {p | mask p = true} ∪ s.releasedBy i 0 ∪ s.releasedBy i 1 := by
  ext p
  change s.freedMask i mask p = true ↔ _
  unfold freedMask
  rw [freeLane_iff _ _ _ _ (fun h => (s.freeCommitValid_old i h).2.2),
    freeLane_iff _ _ _ _ (fun h => (s.freeCommitValid_old i h).2.2)]
  rfl

/-- The register an accepted lane takes. -/
theorem Countable.freeChoice_eq {s : Backend} (hc : s.Countable) {l : Lane}
    (h : s.freeRequest i l = true) :
    s.freeChoice i l = some (s.destinationPhys i l) := by
  obtain ⟨p, hp⟩ := Option.isSome_iff_exists.mp (hc.freeChoice_isSome i h)
  have hw : RenameStage.writesDestination (decodeBus i l) = true := by
    simp only [freeRequest, Bool.and_eq_true] at h
    exact h.2
  rw [destinationPhys, if_pos hw, hp]
  rfl

theorem Countable.destination_free {s : Backend} (hc : s.Countable) {l : Lane}
    (h : s.freeRequest i l = true) : s.destinationPhys i l ≠ 0 ∧
      s.rename.freeList.freeMask (s.destinationPhys i l) = true :=
  s.rename.freeList.allocChoice_free (hc.freeChoice_eq i h)

theorem Countable.destination_ne {s : Backend} (hc : s.Countable)
    (h0 : s.freeRequest i 0 = true) (h1 : s.freeRequest i 1 = true) :
    s.destinationPhys i 0 ≠ s.destinationPhys i 1 := by
  have hq0 := hc.freeChoice_eq i h0
  have hq1 := hc.freeChoice_eq i h1
  unfold freeChoice at hq0 hq1
  rw [h0] at hq0 hq1
  exact s.rename.freeList.allocChoice_ne hq0 hq1

theorem takenMask_set {s : Backend} (hc : s.Countable) (l : Lane)
    (mask : PhysReg → Bool) :
    {p | s.takenMask i l mask p = true} =
      if s.robAllocValid i l then
        {p | mask p = true} \ Renaming.acquired (s.laneDest i l)
      else {p | mask p = true} := by
  rw [robAllocValid_eq]
  unfold takenMask PhysicalFreeList.takeLane laneDest
  cases ha : s.dispatchAccept i l with
  | false =>
      have hreq : s.freeRequest i l = false := by simp [freeRequest, ha]
      cases s.freeChoice i l <;> simp [hreq]
  | true =>
      cases hw : RenameStage.writesDestination (decodeBus i l) with
      | false =>
          have hreq : s.freeRequest i l = false := by simp [freeRequest, hw]
          cases s.freeChoice i l <;> simp [hreq, Renaming.acquired]
      | true =>
          have hreq : s.freeRequest i l = true := by
            simp [freeRequest, ha, hw]
          rw [hc.freeChoice_eq i hreq]
          ext p
          simp only [hreq, if_true, Renaming.acquired, Option.some.injEq,
            Prod.mk.injEq, Set.mem_ofPred_eq, Set.mem_sdiff]
          rw [Function.update_apply]
          by_cases hp : p = s.destinationPhys i l
          · simp [hp]
          · have hp' : ¬ s.destinationPhys i l = p := fun h => hp h.symm
            simp [hp, hp']

end Lanes

section Tables

variable (s : Backend) (i : Inputs)

theorem step_mapTable : (s.step i).rename.mapTable =
    s.rename.mapTable.step (s.trapValid i) (s.recoveryValid i)
      (s.recoveryTag i) (s.checkpointValid i) (s.robAllocTag i)
      (s.renameLane i) (s.commitLane i) := rfl

theorem step_committedMap : (s.step i).rename.mapTable.committedMap =
    RenameMapTable.commitLane
      (RenameMapTable.commitLane s.rename.mapTable.committedMap
        (s.commitLane i 0)) (s.commitLane i 1) := by
  rw [step_mapTable, RenameMapTable.step]

theorem commitLane_of_not_retired {l : Lane} (m : ArchReg → PhysReg)
    (h : s.robRetireValid i l = false) :
    RenameMapTable.commitLane m (s.commitLane i l) = m := by
  rw [RenameMapTable.commitLane, if_neg]
  rintro ⟨hvalid, -⟩
  change s.robRetireValid i l = true at hvalid
  rw [h] at hvalid
  exact absurd hvalid (by decide)

theorem step_committedMap_of_none (h : ∀ l, s.robRetireValid i l = false) :
    (s.step i).rename.mapTable.committedMap =
      s.rename.mapTable.committedMap := by
  rw [step_committedMap, s.commitLane_of_not_retired i _ (h 0),
    s.commitLane_of_not_retired i _ (h 1)]

theorem step_speculativeMap_flush (htrap : s.trapValid i = true) :
    (s.step i).rename.mapTable.speculativeMap =
      s.rename.mapTable.committedMap := by
  rw [step_mapTable, htrap]
  rfl

theorem step_speculativeMap_recover (htrap : s.trapValid i = false)
    (hrec : s.recoveryValid i = true) :
    (s.step i).rename.mapTable.speculativeMap =
      s.rename.mapTable.checkpointMap (s.recoveryTag i) := by
  rw [step_mapTable, htrap, hrec]
  rfl

theorem step_speculativeMap_normal (htrap : s.trapValid i = false)
    (hrec : s.recoveryValid i = false) :
    (s.step i).rename.mapTable.speculativeMap =
      RenameMapTable.writeLane
        (RenameMapTable.writeLane s.rename.mapTable.speculativeMap
          (s.renameLane i 0)) (s.renameLane i 1) := by
  rw [step_mapTable, htrap, hrec]
  rfl

theorem checkpointValid_accepted {l : Lane}
    (h : s.checkpointValid i l = true) : s.robAllocValid i l = true := by
  rw [robAllocValid_eq]
  simp only [checkpointValid, Bool.and_eq_true] at h
  exact h.1

variable {s i}

/-- A slot that no lane is dispatched into keeps its checkpoint; its free mask
learns of the registers freed this cycle. -/
theorem step_checkpoint_other {tag : RobTag}
    (hother : ∀ l, s.robAllocValid i l = true → tag ≠ s.robAllocTag i l) :
    (s.step i).rename.mapTable.checkpointMap tag =
        s.rename.mapTable.checkpointMap tag ∧
      (s.step i).rename.freeList.checkpointFreeMask tag =
        s.freedMask i (s.rename.freeList.checkpointFreeMask tag) := by
  have hne (l : Lane) (h : s.checkpointValid i l = true) :
      tag ≠ s.robAllocTag i l :=
    hother l (s.checkpointValid_accepted i h)
  rw [step_mapTable, step_freeList]
  simp only [RenameMapTable.step, PhysicalFreeList.step]
  cases h0 : s.checkpointValid i 0 <;> cases h1 : s.checkpointValid i 1 <;>
    simp [h0, h1, hne, freedMask]

/-- The checkpoint of a dispatched lane 0. -/
theorem step_checkpoint_zero (hc : s.Countable)
    (h0 : s.checkpointValid i 0 = true) :
    (s.step i).rename.mapTable.checkpointMap (s.robAllocTag i 0) =
        RenameMapTable.writeLane s.rename.mapTable.speculativeMap
          (s.renameLane i 0) ∧
      (s.step i).rename.freeList.checkpointFreeMask (s.robAllocTag i 0) =
        s.freedMask i (s.takenMask i 0 s.rename.freeList.freeMask) := by
  have hne := hc.robAllocTag_ne (s.checkpointValid_accepted i h0)
  rw [step_mapTable, step_freeList]
  simp only [RenameMapTable.step, PhysicalFreeList.step]
  cases s.checkpointValid i 1 <;>
    simp [h0, hne, freedMask, takenMask, freeChoice]

/-- The checkpoint of a dispatched lane 1. -/
theorem step_checkpoint_one (h1 : s.checkpointValid i 1 = true) :
    (s.step i).rename.mapTable.checkpointMap (s.robAllocTag i 1) =
        RenameMapTable.writeLane
          (RenameMapTable.writeLane s.rename.mapTable.speculativeMap
            (s.renameLane i 0)) (s.renameLane i 1) ∧
      (s.step i).rename.freeList.checkpointFreeMask (s.robAllocTag i 1) =
        s.freedMask i (s.takenMask i 1
          (s.takenMask i 0 s.rename.freeList.freeMask)) := by
  rw [step_mapTable, step_freeList]
  simp only [RenameMapTable.step, PhysicalFreeList.step]
  simp [h1, freedMask, takenMask, freeChoice]

end Tables

section Flush

variable {s : Backend} {i : Inputs}

/-- On a trap the renaming state drops everything in flight. -/
theorem RenamingWf.step_flush (hwf : s.RenamingWf)
    (htrap : s.trapValid i = true) :
    (s.step i).renamingState = Renaming.flush s.renamingState := by
  have hcommitted := s.step_committedMap_of_none i
    (s.robRetireValid_of_trap i htrap)
  have hfree : {p | (s.step i).rename.freeList.freeMask p = true} =
      Renaming.unused s.renamingState.committed [] := by
    ext p
    rw [step_freeList, htrap]
    change Function.update s.rename.mapTable.committedFreeMask 0 false p =
      true ↔ (∀ a, s.rename.mapTable.committedMap a ≠ p) ∧ p ∉ []
    have hzero : s.rename.mapTable.committedMap 0 = 0 := hwf.pinned
    by_cases hp : p = 0
    · subst hp
      simp only [Function.update_self, Bool.false_eq_true, false_iff, not_and]
      intro hall
      exact absurd hzero (hall 0)
    · rw [Function.update_of_ne hp]
      simp [RenameMapTable.committedFreeMask, hp]
  unfold renamingState Renaming.flush
  rw [hcommitted, s.step_speculativeMap_flush i htrap,
    step_window_flush htrap, hfree]
  rfl

end Flush

section Recover

variable {s : Backend} {i : Inputs}

theorem RobReady.robAllocTag_fresh (hs : s.RobReady i) (hc : s.Countable)
    {tag : RobTag} (hlive : tag ∈ s.rob.window) (l : Lane)
    (hl : s.robAllocValid i l = true) : tag ≠ s.robAllocTag i l := by
  rintro rfl
  rw [← hc.robAllocFire] at hl
  exact hs.wf.allocTag_not_mem _ hl hlive

/-- A surviving slot means the same to renaming, up to the frees. -/
theorem RobReady.step_renamingItem (hs : s.RobReady i) (hc : s.Countable)
    (htrap : s.trapValid i = false) {tag : RobTag}
    (hold : tag ∈ s.rob.window) (hnew : tag ∈ (s.step i).rob.window) :
    (s.step i).renamingItem tag =
      (s.renamingItem tag).addFree (s.releasedBy i 0 ∪ s.releasedBy i 1) := by
  have hframe := (hs.step_survivor hc htrap hold hnew).1
  obtain ⟨hwrites, harch, hphys, hprev, hbranch⟩ :=
    RobEntry.atDispatch_renaming hframe
  obtain ⟨hmap, hmask⟩ :=
    step_checkpoint_other (hs.robAllocTag_fresh hc hold)
  unfold renamingItem Renaming.Item.addFree
  rw [hwrites, harch, hphys, hprev, hbranch, hmap, hmask, freedMask_set]
  cases (s.rob.entries tag).isBranch <;> simp [Set.union_assoc]

theorem releasedBy_of_not_retired {l : Lane}
    (h : s.robRetireValid i l = false) : s.releasedBy i l = ∅ := by
  ext p
  simp [releasedBy, freeCommitValid, h]

/-- A misprediction is a recovery of the renaming state to the branch. -/
theorem InFlight.step_renaming_recover (hs : s.InFlight) (hc : s.Countable)
    (htrap : s.trapValid i = false) (hrec : s.recoveryValid i = true)
    (hwf : s.RenamingWf) :
    ∃ older younger c,
      s.renamingState.queue =
        older ++ s.renamingItem (s.recoveryTag i) :: younger ∧
      (s.renamingItem (s.recoveryTag i)).checkpoint = some c ∧
      (s.step i).renamingState = Renaming.recover s.renamingState older
        (s.renamingItem (s.recoveryTag i)) c := by
  obtain ⟨older, younger, hwindow, hwindow'⟩ :=
    hs.robReady.window_split htrap hrec
  have hnone := s.robRetireValid_of_recovery i hrec
  have hempty : s.releasedBy i 0 ∪ s.releasedBy i 1 = ∅ := by
    rw [releasedBy_of_not_retired (hnone 0), releasedBy_of_not_retired
      (hnone 1), Set.union_empty]
  have hitem (tag : RobTag) (hmem : tag ∈ older ++ [s.recoveryTag i]) :
      (s.step i).renamingItem tag = s.renamingItem tag := by
    have hold : tag ∈ s.rob.window := by
      rw [hwindow]
      simp only [List.mem_append, List.mem_cons, List.not_mem_nil,
        or_false] at hmem ⊢
      tauto
    rw [← hwindow'] at hmem
    rw [hs.robReady.step_renamingItem hc htrap hold hmem, hempty,
      Renaming.addFree_empty]
  have hqueue : s.renamingState.queue = older.map s.renamingItem ++
      s.renamingItem (s.recoveryTag i) :: younger.map s.renamingItem := by
    change s.rob.window.map s.renamingItem = _
    rw [hwindow, List.map_append, List.map_cons]
  have hcheck : (s.renamingItem (s.recoveryTag i)).checkpoint =
      some ⟨s.rename.mapTable.checkpointMap (s.recoveryTag i),
        {p | s.rename.freeList.checkpointFreeMask (s.recoveryTag i) p =
          true}⟩ := by
    rw [renamingItem, hs.recover_isBranch hrec, if_pos rfl]
  refine ⟨_, _, _, hqueue, hcheck, ?_⟩
  · have hfree : {p | (s.step i).rename.freeList.freeMask p = true} =
        {p | s.rename.freeList.checkpointFreeMask (s.recoveryTag i) p =
          true} := by
      rw [step_freeList, htrap, hrec]
      ext p
      change Function.update (s.freedMask i
        (s.rename.freeList.checkpointFreeMask (s.recoveryTag i))) 0 false p =
          true ↔ s.rename.freeList.checkpointFreeMask (s.recoveryTag i) p = true
      by_cases hp : p = 0
      · subst hp
        rw [Function.update_self]
        simp only [Bool.false_eq_true, false_iff]
        intro hzero
        have hmem : (0 : PhysReg) ∈ Renaming.unused s.renamingState.committed
            (older.map s.renamingItem ++ [s.renamingItem (s.recoveryTag i)]) := by
          rw [← (hwf.checkpoint_eq _ _ _ _ hqueue hcheck).2]
          exact hzero
        exact hmem.1 0 hwf.pinned
      · rw [Function.update_of_ne hp]
        have hset := s.freedMask_set i
          (s.rename.freeList.checkpointFreeMask (s.recoveryTag i))
        rw [Set.union_assoc, hempty, Set.union_empty] at hset
        exact Set.ext_iff.mp hset p
    have hqueue' : (s.step i).rob.window.map (s.step i).renamingItem =
        older.map s.renamingItem ++ [s.renamingItem (s.recoveryTag i)] := by
      rw [hwindow', List.map_congr_left hitem, List.map_append]
      rfl
    unfold renamingState Renaming.recover
    rw [s.step_committedMap_of_none i hnone,
      s.step_speculativeMap_recover i htrap hrec, hfree, hqueue']

end Recover

section Commit

variable {s : Backend} {i : Inputs}

/-- One commit lane, on any renaming state whose head is the lane's slot. -/
theorem commit_lane {B : State ArchReg PhysReg}
    (hB : Renaming.Wf (0 : ArchReg) (0 : PhysReg) B) {l : Lane}
    {item : Item ArchReg PhysReg}
    (hhead : s.robRetireValid i l = true → B.queue.head? = some item)
    (hitem : item.write = (s.renamingItem (s.commitSlot l)).write) :
    (Renaming.commitIf B (s.robRetireValid i l)).committed =
        RenameMapTable.commitLane B.committed (s.commitLane i l) ∧
      Renaming.headReleased B (s.robRetireValid i l) = s.releasedBy i l := by
  rw [Renaming.commitIf_committed hhead]
  cases hv : s.robRetireValid i l with
  | false =>
      rw [s.commitLane_of_not_retired i _ hv, releasedBy_of_not_retired hv,
        Renaming.headReleased_false]
      exact ⟨rfl, rfl⟩
  | true =>
      obtain ⟨rest, hqueue⟩ := List.head?_eq_some_iff.mp (hhead hv)
      have hentry := (s.commitValid_entry
        (s.robRetireValid_base i hv).2.1).2.2
      change s.rob.commitEntry l = s.rob.entries (s.commitSlot l) at hentry
      rw [if_pos rfl, Renaming.headReleased_cons hqueue]
      cases hw : (s.rob.entries (s.commitSlot l)).writesRd with
      | false =>
          have hnone : item.write = none := by
            rw [hitem, renamingItem, hw]
            rfl
          have harch : s.commitArchRd l = 0 := by
            rw [commitArchRd, hentry, hw]
            rfl
          constructor
          · rw [RenameMapTable.commitLane, if_neg (fun h => h.2 harch)]
            simp [Renaming.install, hnone]
          · ext p
            simp [Renaming.released, hnone, releasedBy, freeCommitValid, harch]
      | true =>
          have hsome : item.write = some
              ⟨(s.rob.entries (s.commitSlot l)).archRd,
                (s.rob.entries (s.commitSlot l)).newPhys,
                (s.rob.entries (s.commitSlot l)).oldPhys⟩ := by
            rw [hitem, renamingItem, hw]
            rfl
          have harch : s.commitArchRd l =
              (s.rob.entries (s.commitSlot l)).archRd := by
            rw [commitArchRd, hentry, hw]
            rfl
          have hreg : (s.rob.entries (s.commitSlot l)).archRd ≠ 0 :=
            hB.not_pinned item (by rw [hqueue]; simp) _ hsome
          have hold : (s.rob.entries (s.commitSlot l)).oldPhys ≠ 0 := by
            have hmem : (s.rob.entries (s.commitSlot l)).oldPhys ∈
                Renaming.headReleased B true := by
              rw [Renaming.headReleased_cons hqueue]
              exact ⟨_, hsome, rfl⟩
            exact (hB.headReleased_not_free hmem).2
          constructor
          · rw [RenameMapTable.commitLane, if_pos ⟨hv, by
              change s.commitArchRd l ≠ 0
              rw [harch]
              exact hreg⟩]
            change Renaming.install B.committed item = Function.update
              B.committed (s.commitArchRd l) (s.rob.commitEntry l).newPhys
            rw [harch, hentry]
            simp [Renaming.install, hsome]
          · ext p
            simp [Renaming.released, hsome, releasedBy, freeCommitValid, hv,
              harch, hreg, hentry, hold]

variable (s i)

/-- The renaming state after the retirements of this cycle. -/
def afterFirst : State ArchReg PhysReg :=
  Renaming.commitIf s.renamingState (s.robRetireValid i 0)

def afterCommit : State ArchReg PhysReg :=
  Renaming.commitIf (s.afterFirst i) (s.robRetireValid i 1)

variable {s i}

theorem queue_getElem? {k : Nat} (hk : k < s.rob.entryCount) :
    s.renamingState.queue[k]? =
      some (s.renamingItem (addPtr s.rob.headPtr k)) := by
  change (s.rob.window.map s.renamingItem)[k]? = _
  rw [List.getElem?_map, ReorderBuffer.window_getElem? hk]
  rfl

theorem head_zero (h : s.robRetireValid i 0 = true) :
    s.renamingState.queue.head? = some (s.renamingItem (s.commitSlot 0)) := by
  have hlt : 0 < s.rob.entryCount :=
    (s.commitValid_entry (s.robRetireValid_base i h).2.1).1
  rw [List.head?_eq_getElem?, queue_getElem? hlt]
  rfl

theorem head_one (h : s.robRetireValid i 1 = true) :
    (s.afterFirst i).queue.head? =
      some ((s.renamingItem (s.commitSlot 1)).addFree
        (Renaming.headReleased s.renamingState (s.robRetireValid i 0))) := by
  have hlt : 1 + 0 < s.rob.entryCount :=
    (s.commitValid_entry (s.robRetireValid_base i h).2.1).1
  rw [afterFirst, Renaming.commitIf_queue, s.robRetireValid_one i h,
    List.head?_map, List.head?_eq_getElem?, List.getElem?_drop,
    Bool.toNat_true, queue_getElem? hlt]
  rfl

variable (hwf : s.RenamingWf)

include hwf

theorem RenamingWf.afterFirst (i : Inputs) :
    Renaming.Wf (0 : ArchReg) (0 : PhysReg) (s.afterFirst i) :=
  Renaming.Wf.commitIf hwf _

theorem RenamingWf.afterCommit (i : Inputs) :
    Renaming.Wf (0 : ArchReg) (0 : PhysReg) (s.afterCommit i) :=
  (RenamingWf.afterFirst hwf i).commitIf _

theorem RenamingWf.released_zero (i : Inputs) :
    Renaming.headReleased s.renamingState (s.robRetireValid i 0) =
      s.releasedBy i 0 :=
  (commit_lane hwf head_zero rfl).2

theorem RenamingWf.released_one (i : Inputs) :
    Renaming.headReleased (s.afterFirst i) (s.robRetireValid i 1) =
      s.releasedBy i 1 :=
  (commit_lane (RenamingWf.afterFirst hwf i) head_one rfl).2

theorem RenamingWf.afterCommit_committed (i : Inputs) :
    (s.afterCommit i).committed =
      (s.step i).rename.mapTable.committedMap := by
  rw [step_committedMap, Backend.afterCommit,
    (commit_lane (RenamingWf.afterFirst hwf i) head_one rfl).1,
    Backend.afterFirst, (commit_lane hwf head_zero rfl).1]
  rfl

theorem RenamingWf.afterCommit_free (i : Inputs) :
    (s.afterCommit i).free =
      {p | s.freedMask i s.rename.freeList.freeMask p = true} := by
  rw [Backend.afterCommit, Renaming.commitIf_free,
    RenamingWf.released_one hwf, Backend.afterFirst, Renaming.commitIf_free,
    RenamingWf.released_zero hwf, freedMask_set]
  rfl

theorem RenamingWf.afterCommit_queue (i : Inputs) :
    (s.afterCommit i).queue =
      (s.rob.window.drop (s.retireCount i)).map fun tag =>
        (s.renamingItem tag).addFree
          (s.releasedBy i 0 ∪ s.releasedBy i 1) := by
  rw [Backend.afterCommit, Renaming.commitIf_queue,
    RenamingWf.released_one hwf, Backend.afterFirst, Renaming.commitIf_queue,
    RenamingWf.released_zero hwf, ← List.map_drop, List.map_map,
    List.drop_drop]
  change ((s.rob.window.map s.renamingItem).drop _).map _ = _
  rw [← List.map_drop, List.map_map, retireCount]
  apply List.map_congr_left
  intro tag _
  exact Renaming.addFree_addFree _ _ _

/-- The registers freed this cycle were in use. -/
theorem RenamingWf.released_not_free (i : Inputs) {p : PhysReg}
    (hp : s.rename.freeList.freeMask p = true) :
    p ∉ s.releasedBy i 0 ∪ s.releasedBy i 1 := by
  have hmem : p ∈ s.renamingState.free := hp
  rintro (h | h)
  · rw [← RenamingWf.released_zero hwf] at h
    exact (hwf.headReleased_not_free h).1 hmem
  · rw [← RenamingWf.released_one hwf] at h
    apply ((RenamingWf.afterFirst hwf i).headReleased_not_free h).1
    rw [Backend.afterFirst, Renaming.commitIf_free]
    exact Or.inl hmem

end Commit

section Allocate

variable {s : Backend} {i : Inputs}

theorem writesDestination_rd {l : Lane}
    (h : RenameStage.writesDestination (decodeBus i l) = true) :
    (decodeBus i l).rd ≠ 0 := by
  simp only [RenameStage.writesDestination, Bool.and_eq_true,
    decide_eq_true_eq] at h
  exact h.2

/-- One rename lane writes the map as allocation does. -/
theorem Countable.allocate_lane (hc : s.Countable) (l : Lane)
    (B : State ArchReg PhysReg) (m : ArchReg → PhysReg) :
    (if s.robAllocValid i l then
        Renaming.install m (Renaming.newItem B (s.laneDest i l) (laneMark i l))
      else m) = RenameMapTable.writeLane m (s.renameLane i l) := by
  have hvalid : (s.renameLane i l).valid =
      (s.robAllocValid i l &&
        RenameStage.writesDestination (decodeBus i l)) := by
    change s.destinationAllocValid i l = _
    rw [hc.destinationAllocValid_eq, robAllocValid_eq]
    rfl
  unfold RenameMapTable.writeLane
  rw [hvalid]
  cases s.robAllocValid i l with
  | false => simp
  | true =>
      cases hw : RenameStage.writesDestination (decodeBus i l) with
      | false => simp [Renaming.install, Renaming.newItem, laneDest, hw]
      | true =>
          have hrd : (s.renameLane i l).archRd ≠ 0 := writesDestination_rd hw
          simp only [if_true, Renaming.install, Renaming.newItem, laneDest, hw,
            Option.map_some, Bool.and_self, ne_eq, hrd, not_false_eq_true,
            and_self]
          rfl

/-- The slot of an accepted lane is the item allocation appends. -/
theorem RobReady.new_item (hs : s.RobReady i) (hc : s.Countable)
    (htrap : s.trapValid i = false) (hrec : s.recoveryValid i = false)
    {l : Lane} (hl : s.robAllocValid i l = true) {B : State ArchReg PhysReg}
    (hlookup : ∀ r, r ≠ 0 → s.renameLookup i l r = B.speculative r)
    (hcheck : s.checkpointValid i l = true →
      (s.step i).rename.mapTable.checkpointMap (s.robAllocTag i l) =
          RenameMapTable.writeLane B.speculative (s.renameLane i l) ∧
        {p | (s.step i).rename.freeList.checkpointFreeMask
            (s.robAllocTag i l) p = true} =
          B.free \ Renaming.acquired (s.laneDest i l)) :
    (s.step i).renamingItem (s.robAllocTag i l) =
      Renaming.newItem B (s.laneDest i l) (laneMark i l) := by
  have hentry := (hs.step_dispatched hc htrap hrec hl).2.2
  have hwrite : ((s.step i).renamingItem (s.robAllocTag i l)).write =
      (Renaming.newItem B (s.laneDest i l) (laneMark i l)).write := by
    rw [renamingItem, hentry]
    change (if RenameStage.writesDestination (decodeBus i l) then _ else none) =
      (s.laneDest i l).map _
    cases hw : RenameStage.writesDestination (decodeBus i l) with
    | false => simp [laneDest, hw]
    | true =>
        have hold := hlookup _ (writesDestination_rd hw)
        simp [laneDest, hw, ReorderBuffer.allocWrite, renameRobEntry,
          RenameStage.robEntry, laneContext, hold]
  have hmark : ((s.step i).rob.entries (s.robAllocTag i l)).isBranch =
      laneMark i l := by
    rw [hentry]
    rfl
  have hpoint : ((s.step i).renamingItem (s.robAllocTag i l)).checkpoint =
      (Renaming.newItem B (s.laneDest i l) (laneMark i l)).checkpoint := by
    rw [renamingItem, hmark]
    unfold Renaming.newItem
    cases hb : laneMark i l with
    | false => rfl
    | true =>
        have hcp : s.checkpointValid i l = true := by
          rw [robAllocValid_eq] at hl
          rw [checkpointValid, hl]
          exact hb
        have hlane := hc.allocate_lane (i := i) l B B.speculative
        rw [hl, if_pos rfl] at hlane
        simp only [if_true, (hcheck hcp).1, (hcheck hcp).2, ← hlane]
        rfl
  exact Renaming.Item.ext hwrite hpoint

theorem RenamingWf.freed_sdiff (hwf : s.RenamingWf) {used : Set PhysReg}
    (hused : ∀ p ∈ used, s.rename.freeList.freeMask p = true)
    (free : Set PhysReg) :
    free \ used ∪ s.releasedBy i 0 ∪ s.releasedBy i 1 =
      (free ∪ s.releasedBy i 0 ∪ s.releasedBy i 1) \ used := by
  ext p
  have hdisjoint (h : p ∈ used) :=
    RenamingWf.released_not_free hwf i (hused p h)
  simp only [Set.mem_union, Set.mem_sdiff] at hdisjoint ⊢
  tauto

theorem Countable.acquired_free (hc : s.Countable) {l : Lane}
    (hl : s.robAllocValid i l = true) {p : PhysReg}
    (hp : p ∈ Renaming.acquired (s.laneDest i l)) :
    p ≠ 0 ∧ s.freeRequest i l = true ∧ p = s.destinationPhys i l ∧
      s.rename.freeList.freeMask p = true := by
  obtain ⟨a, ha⟩ := hp
  rw [laneDest] at ha
  split at ha
  · next hw =>
    have hreq : s.freeRequest i l = true := by
      rw [robAllocValid_eq] at hl
      simp [freeRequest, hl, hw]
    have hpair := Option.some.inj ha
    have hphys : s.destinationPhys i l = p := congrArg Prod.snd hpair
    have hfree := hc.destination_free i hreq
    rw [hphys] at hfree
    exact ⟨hfree.1, hreq, hphys.symm, hfree.2⟩
  · cases ha

variable (s i)

/-- The renaming state after lane 0 was renamed, and after both lanes. -/
def afterLane : State ArchReg PhysReg :=
  Renaming.allocateIf (s.afterCommit i) (s.robAllocValid i 0)
    (s.laneDest i 0) (laneMark i 0)

def afterDispatch : State ArchReg PhysReg :=
  Renaming.allocateIf (s.afterLane i) (s.robAllocValid i 1)
    (s.laneDest i 1) (laneMark i 1)

variable {s i}

theorem afterCommit_speculative : (s.afterCommit i).speculative =
    s.rename.mapTable.speculativeMap := by
  rw [afterCommit, Renaming.commitIf_speculative, afterFirst,
    Renaming.commitIf_speculative]
  rfl

theorem Countable.afterLane_speculative (hc : s.Countable) :
    (s.afterLane i).speculative =
      RenameMapTable.writeLane s.rename.mapTable.speculativeMap
        (s.renameLane i 0) := by
  rw [afterLane, Renaming.allocateIf_speculative, hc.allocate_lane,
    afterCommit_speculative]

theorem Countable.afterDispatch_speculative (hc : s.Countable)
    (htrap : s.trapValid i = false) (hrec : s.recoveryValid i = false) :
    (s.afterDispatch i).speculative =
      (s.step i).rename.mapTable.speculativeMap := by
  rw [afterDispatch, Renaming.allocateIf_speculative, hc.allocate_lane,
    hc.afterLane_speculative, s.step_speculativeMap_normal i htrap hrec]

theorem RenamingWf.afterLane_free (hwf : s.RenamingWf) (hc : s.Countable) :
    (s.afterLane i).free =
      {p | s.freedMask i (s.takenMask i 0 s.rename.freeList.freeMask) p =
        true} := by
  rw [Backend.afterLane, Renaming.allocateIf_free,
    RenamingWf.afterCommit_free hwf, freedMask_set, freedMask_set,
    takenMask_set i hc]
  split
  · next h0 =>
    rw [RenamingWf.freed_sdiff hwf]
    intro p hp
    exact (hc.acquired_free h0 hp).2.2.2
  · rfl

theorem RenamingWf.afterDispatch_freed (hwf : s.RenamingWf)
    (hc : s.Countable) : (s.afterDispatch i).free =
      {p | s.freedMask i (s.takenMask i 1 (s.takenMask i 0
        s.rename.freeList.freeMask)) p = true} := by
  rw [Backend.afterDispatch, Renaming.allocateIf_free,
    RenamingWf.afterLane_free hwf hc, freedMask_set, freedMask_set,
    takenMask_set i hc 1]
  split
  · next h1 =>
    rw [RenamingWf.freed_sdiff hwf]
    intro p hp
    exact (hc.acquired_free h1 hp).2.2.2
  · rfl

/-- The order of frees and allocations on the edge does not matter. -/
theorem RenamingWf.afterDispatch_free (hwf : s.RenamingWf)
    (hc : s.Countable) (htrap : s.trapValid i = false)
    (hrec : s.recoveryValid i = false) : (s.afterDispatch i).free =
      {p | (s.step i).rename.freeList.freeMask p = true} := by
  have htaken : (s.afterDispatch i).free = {p | s.takenMask i 1 (s.takenMask
      i 0 (s.freedMask i s.rename.freeList.freeMask)) p = true} := by
    rw [takenMask_set i hc, takenMask_set i hc, Backend.afterDispatch,
      Renaming.allocateIf_free, Backend.afterLane, Renaming.allocateIf_free,
      RenamingWf.afterCommit_free hwf]
  have hzero : (0 : PhysReg) ∉ (s.afterDispatch i).free := by
    rw [RenamingWf.afterDispatch_freed hwf hc, freedMask_set, Set.union_assoc]
    rintro (h | h)
    · rw [takenMask_set i hc, takenMask_set i hc] at h
      have hmask := hc.zero
      split at h <;> split at h <;>
        simp_all [Set.mem_sdiff, Set.mem_ofPred_eq]
    · rcases h with ⟨h, hz⟩ | ⟨h, hz⟩
      · exact (s.freeCommitValid_old i h).2.2 hz
      · exact (s.freeCommitValid_old i h).2.2 hz
  rw [step_freeList, htrap, hrec]
  ext p
  change _ ↔ Function.update (s.takenMask i 1 (s.takenMask i 0
    (s.freedMask i s.rename.freeList.freeMask))) 0 false p = true
  by_cases hp : p = 0
  · subst hp
    rw [Function.update_self]
    simp [hzero]
  · rw [Function.update_of_ne hp, htaken]
    rfl

/-- The slots of the accepted lanes are the items dispatch appends. -/
theorem RenamingWf.afterDispatch_queue (hwf : s.RenamingWf)
    (hs : s.RobReady i) (hc : s.Countable) (htrap : s.trapValid i = false)
    (hrec : s.recoveryValid i = false) : (s.afterDispatch i).queue =
      (s.step i).rob.window.map (s.step i).renamingItem := by
  have hwindow := hs.step_window_normal hc htrap hrec
  have hold : (s.rob.window.drop (s.retireCount i)).map
      (s.step i).renamingItem = (s.afterCommit i).queue := by
    rw [RenamingWf.afterCommit_queue hwf]
    apply List.map_congr_left
    intro tag htag
    refine hs.step_renamingItem hc htrap (List.mem_of_mem_drop htag) ?_
    rw [hwindow]
    exact List.mem_append_left _ htag
  have h0 (ha : s.robAllocValid i 0 = true) :
      (s.step i).renamingItem (s.robAllocTag i 0) =
        Renaming.newItem (s.afterCommit i) (s.laneDest i 0)
          (laneMark i 0) := by
    apply hs.new_item hc htrap hrec ha
    · intro r hr
      rw [afterCommit_speculative]
      change s.rename.mapTable.lookup0 r = _
      rw [RenameMapTable.lookup0, if_neg hr]
    · intro hcp
      obtain ⟨hmap, hfree⟩ := step_checkpoint_zero hc hcp
      rw [hmap, hfree, afterCommit_speculative]
      refine ⟨rfl, ?_⟩
      have hlane := RenamingWf.afterLane_free (i := i) hwf hc
      rw [Backend.afterLane, Renaming.allocateIf_free, if_pos ha] at hlane
      exact hlane.symm
  have h1 (ha : s.robAllocValid i 1 = true) :
      (s.step i).renamingItem (s.robAllocTag i 1) =
        Renaming.newItem (s.afterLane i) (s.laneDest i 1) (laneMark i 1) := by
    apply hs.new_item hc htrap hrec ha
    · intro r hr
      rw [hc.afterLane_speculative]
      change s.rename.mapTable.lookup1 (s.renameLane i 0) r = _
      rw [RenameMapTable.lookup1, if_neg hr, RenameMapTable.writeLane]
      split
      · next hlane =>
        rw [if_pos ⟨hlane.1, hlane.2.1⟩, hlane.2.2, Function.update_self]
      · next hlane =>
        split
        · next hvalid =>
          rw [Function.update_of_ne]
          rintro rfl
          exact hlane ⟨hvalid.1, hvalid.2, rfl⟩
        · rfl
    · intro hcp
      obtain ⟨hmap, hfree⟩ := step_checkpoint_one hcp
      rw [hmap, hfree, hc.afterLane_speculative]
      refine ⟨rfl, ?_⟩
      have hlane := RenamingWf.afterDispatch_freed (i := i) hwf hc
      rw [Backend.afterDispatch, Renaming.allocateIf_free, if_pos ha] at hlane
      exact hlane.symm
  rw [hwindow, List.map_append, hold, Backend.afterDispatch,
    Renaming.allocateIf_queue, Backend.afterLane, Renaming.allocateIf_queue,
    List.append_assoc]
  congr 1
  unfold newLanes
  change _ ++ (if s.robAllocValid i 1 = true then
    [Renaming.newItem (s.afterLane i) (s.laneDest i 1) (laneMark i 1)]
    else []) = _
  cases ha0 : s.robAllocValid i 0 <;> cases ha1 : s.robAllocValid i 1 <;>
    simp [ha0, ha1, h0, h1]

/-- On an ordinary edge the retired items commit and the accepted lanes are
allocated behind them. -/
theorem RenamingWf.step_normal (hwf : s.RenamingWf) (hs : s.RobReady i)
    (hc : s.Countable) (htrap : s.trapValid i = false)
    (hrec : s.recoveryValid i = false) :
    (s.step i).renamingState = s.afterDispatch i := by
  have hcommitted : (s.afterDispatch i).committed =
      (s.step i).rename.mapTable.committedMap := by
    rw [Backend.afterDispatch, Renaming.allocateIf_committed,
      Backend.afterLane, Renaming.allocateIf_committed,
      RenamingWf.afterCommit_committed hwf]
  exact Renaming.State.ext hcommitted.symm
    (hc.afterDispatch_speculative htrap hrec).symm
    (RenamingWf.afterDispatch_free hwf hc htrap hrec).symm
    (RenamingWf.afterDispatch_queue hwf hs hc htrap hrec).symm

theorem laneDest_some {l : Lane} {d : ArchReg × PhysReg}
    (hd : s.laneDest i l = some d) : d.1 ≠ 0 := by
  rw [laneDest] at hd
  split at hd
  · next hw =>
    cases hd
    exact writesDestination_rd hw
  · cases hd

/-- What dispatch allocates is unused at that moment. -/
theorem RenamingWf.afterDispatch (hwf : s.RenamingWf) (hc : s.Countable) :
    Renaming.Wf (0 : ArchReg) (0 : PhysReg) (s.afterDispatch i) := by
  have hfree0 {p : PhysReg}
      (hp : s.rename.freeList.freeMask p = true) :
      p ∈ (s.afterCommit i).free := by
    rw [RenamingWf.afterCommit_free hwf, freedMask_set]
    exact Or.inl (Or.inl hp)
  have hlane : Renaming.Wf (0 : ArchReg) (0 : PhysReg) (s.afterLane i) := by
    apply (RenamingWf.afterCommit hwf i).allocateIf
    intro h0 d hd
    refine ⟨laneDest_some hd, hfree0 ?_⟩
    exact (hc.acquired_free h0 ⟨d.1, hd⟩).2.2.2
  apply hlane.allocateIf
  intro h1 d hd
  refine ⟨laneDest_some hd, ?_⟩
  obtain ⟨-, hreq1, hphys1, hmask⟩ := hc.acquired_free h1 ⟨d.1, hd⟩
  rw [RenamingWf.afterLane_free hwf hc, freedMask_set, takenMask_set i hc]
  left
  left
  split
  · next h0 =>
    refine ⟨hmask, fun hacq => ?_⟩
    obtain ⟨-, hreq0, hphys0, -⟩ := hc.acquired_free h0 hacq
    exact hc.destination_ne i hreq0 hreq1 (hphys0.symm.trans hphys1)
  · exact hmask

end Allocate

section Reachable

/-- Every edge keeps the renaming invariant. -/
theorem RenamingWf.step {s : Backend} {i : Inputs} (hwf : s.RenamingWf)
    (hs : s.InFlight) (hc : s.Countable) : (s.step i).RenamingWf := by
  unfold RenamingWf
  cases htrap : s.trapValid i with
  | true =>
      rw [RenamingWf.step_flush hwf htrap]
      exact Renaming.Wf.flush hwf
  | false =>
      cases hrec : s.recoveryValid i with
      | true =>
          obtain ⟨older, younger, c, hqueue, hcheck, hstep⟩ :=
            hs.step_renaming_recover hc htrap hrec hwf
          rw [hstep]
          exact Renaming.Wf.recover hwf hqueue hcheck
      | false =>
          rw [RenamingWf.step_normal hwf hs.robReady hc htrap hrec]
          exact RenamingWf.afterDispatch hwf hc

theorem Reachable.renamingWf {s : Backend} (h : s.Reachable) :
    s.RenamingWf := by
  induction h with
  | reset => exact reset_renamingWf
  | step hreach i ih => exact ih.step hreach.inFlight hreach.countable

/-- The committed map overlaid with the writes of the given slots, in order. -/
def overlaid (s : Backend) (tags : List RobTag) : ArchReg → PhysReg :=
  tags.foldl (fun m tag =>
    if (s.rob.entries tag).writesRd then
      Function.update m (s.rob.entries tag).archRd (s.rob.entries tag).newPhys
    else m) s.rename.mapTable.committedMap

/-- The destinations of the given slots that write a register. -/
def destinations (s : Backend) (tags : List RobTag) : List PhysReg :=
  (tags.filter fun tag => (s.rob.entries tag).writesRd).map fun tag =>
    (s.rob.entries tag).newPhys

theorem overlaid_eq (s : Backend) (tags : List RobTag) :
    s.overlaid tags = Renaming.overlay s.renamingState.committed
      (tags.map s.renamingItem) := by
  unfold overlaid Renaming.overlay
  rw [List.foldl_map]
  congr 1
  funext m tag
  unfold Renaming.install renamingItem
  cases (s.rob.entries tag).writesRd <;> rfl

theorem destinations_eq (s : Backend) (tags : List RobTag) :
    s.destinations tags = Renaming.taken (tags.map s.renamingItem) := by
  unfold destinations Renaming.taken
  induction tags with
  | nil => rfl
  | cons tag rest ih =>
      cases hw : (s.rob.entries tag).writesRd <;>
        simp [hw, renamingItem, ih]

variable {s : Backend}

theorem queue_split {older younger : List RobTag} {tag : RobTag}
    (hwindow : s.rob.window = older ++ tag :: younger) :
    s.renamingState.queue = older.map s.renamingItem ++
      s.renamingItem tag :: younger.map s.renamingItem := by
  change s.rob.window.map s.renamingItem = _
  rw [hwindow, List.map_append, List.map_cons]

theorem Reachable.speculativeMap_eq (h : s.Reachable) :
    s.rename.mapTable.speculativeMap = s.overlaid s.rob.window := by
  rw [overlaid_eq]
  exact h.renamingWf.speculative_eq

theorem Reachable.checkpointMap_eq (h : s.Reachable)
    {older younger : List RobTag} {tag : RobTag}
    (hwindow : s.rob.window = older ++ tag :: younger)
    (hbranch : (s.rob.entries tag).isBranch = true) :
    s.rename.mapTable.checkpointMap tag = s.overlaid (older ++ [tag]) := by
  have hcheck : (s.renamingItem tag).checkpoint =
      some ⟨s.rename.mapTable.checkpointMap tag,
        {p | s.rename.freeList.checkpointFreeMask tag p = true}⟩ := by
    rw [renamingItem, hbranch, if_pos rfl]
  have hmap := (h.renamingWf.checkpoint_eq _ _ _ _ (queue_split hwindow)
    hcheck).1
  rw [overlaid_eq, List.map_append]
  exact hmap

theorem Reachable.oldPhys_eq (h : s.Reachable)
    {older younger : List RobTag} {tag : RobTag}
    (hwindow : s.rob.window = older ++ tag :: younger)
    (hwrites : (s.rob.entries tag).writesRd = true) :
    (s.rob.entries tag).oldPhys =
      s.overlaid older (s.rob.entries tag).archRd := by
  have hwrite : (s.renamingItem tag).write =
      some ⟨(s.rob.entries tag).archRd, (s.rob.entries tag).newPhys,
        (s.rob.entries tag).oldPhys⟩ := by
    rw [renamingItem, hwrites, if_pos rfl]
  have hold := h.renamingWf.old_eq _ _ _ _ (queue_split hwindow) hwrite
  rw [overlaid_eq]
  exact hold

/-- In every reachable state the maps are what the live entries say: the
speculative map, the checkpoint of every live branch and the old name of every
live writer.  A recovery then leaves the overlay of the surviving entries, a
flush the committed map. -/
theorem Reachable.rename_maps (h : s.Reachable) :
    s.rename.mapTable.speculativeMap = s.overlaid s.rob.window ∧
      (∀ older tag younger, s.rob.window = older ++ tag :: younger →
        ((s.rob.entries tag).isBranch = true →
          s.rename.mapTable.checkpointMap tag = s.overlaid (older ++ [tag])) ∧
        ((s.rob.entries tag).writesRd = true →
          (s.rob.entries tag).oldPhys =
            s.overlaid older (s.rob.entries tag).archRd)) ∧
      (∀ i, s.trapValid i = false → s.recoveryValid i = true →
        ∃ older younger, s.rob.window = older ++ s.recoveryTag i :: younger ∧
          (s.rob.entries (s.recoveryTag i)).isBranch = true ∧
          (s.step i).rob.window = older ++ [s.recoveryTag i] ∧
          (s.step i).rename.mapTable.committedMap =
            s.rename.mapTable.committedMap ∧
          (s.step i).rename.mapTable.speculativeMap =
            s.overlaid (older ++ [s.recoveryTag i])) ∧
      (∀ i, s.trapValid i = true →
        (s.step i).rename.mapTable.committedMap =
            s.rename.mapTable.committedMap ∧
          (s.step i).rename.mapTable.speculativeMap =
            s.rename.mapTable.committedMap) := by
  refine ⟨h.speculativeMap_eq, ?_, ?_, ?_⟩
  · intro older tag younger hwindow
    exact ⟨h.checkpointMap_eq hwindow, h.oldPhys_eq hwindow⟩
  · intro i htrap hrec
    have hs := h.inFlight
    obtain ⟨older, younger, hwindow, hwindow'⟩ :=
      hs.robReady.window_split htrap hrec
    have hbranch := hs.recover_isBranch hrec
    refine ⟨older, younger, hwindow, hbranch, hwindow', ?_, ?_⟩
    · exact s.step_committedMap_of_none i (s.robRetireValid_of_recovery i hrec)
    · rw [s.step_speculativeMap_recover i htrap hrec]
      exact h.checkpointMap_eq hwindow hbranch
  · intro i htrap
    exact ⟨s.step_committedMap_of_none i (s.robRetireValid_of_trap i htrap),
      s.step_speculativeMap_flush i htrap⟩

/-- `addi x1, x0, 1` and `addi x2, x0, 2` are in flight in front of
`beq x0, x0, 8`. -/
def behindPair : Backend :=
  (reset.step (offerPair 0x00100093 0x00200113)).step (offerPair 0x00000463 0)

/-- There the checkpoint of the branch holds both new names. -/
theorem rename_maps_behindPair :
    behindPair.rob.window = [0, 1, 2] ∧
      (behindPair.rob.entries 2).isBranch = true ∧
      behindPair.rename.mapTable.checkpointMap 2 =
        behindPair.overlaid [0, 1, 2] := by
  have hreach : behindPair.Reachable := (Reachable.reset.step _).step _
  have hwindow : behindPair.rob.window = [0, 1, 2] := by decide +kernel
  have hbranch : (behindPair.rob.entries 2).isBranch = true := by
    decide +kernel
  exact ⟨hwindow, hbranch,
    (hreach.rename_maps.2.1 [0, 1] 2 [] hwindow).1 hbranch⟩

/-- In every reachable state the free registers, the committed names and the
destinations of the live entries partition the physical registers, without
repetition; register zero is never free, and what dispatch hands out is free
and differs between the lanes. -/
theorem Reachable.physRegs_partition (h : s.Reachable) :
    Function.Injective s.rename.mapTable.committedMap ∧
      (s.destinations s.rob.window).Nodup ∧
      (∀ p, s.rename.freeList.freeMask p = true →
        p ∉ Set.range s.rename.mapTable.committedMap ∧
          p ∉ s.destinations s.rob.window) ∧
      (∀ p ∈ s.destinations s.rob.window,
        p ∉ Set.range s.rename.mapTable.committedMap) ∧
      (∀ p, s.rename.freeList.freeMask p = true ∨
        p ∈ Set.range s.rename.mapTable.committedMap ∨
        p ∈ s.destinations s.rob.window) ∧
      s.rename.freeList.freeMask 0 = false ∧
      0 ∉ s.destinations s.rob.window ∧
      (∀ i l, s.destinationAllocValid i l = true →
        s.destinationPhys i l ≠ 0 ∧
          s.rename.freeList.freeMask (s.destinationPhys i l) = true) ∧
      (∀ i, s.destinationAllocValid i 0 = true →
        s.destinationAllocValid i 1 = true →
        s.destinationPhys i 0 ≠ s.destinationPhys i 1) := by
  have hwf := h.renamingWf
  have hc := h.countable
  have hdest : s.destinations s.rob.window =
      Renaming.taken s.renamingState.queue := destinations_eq _ _
  have hfree (p : PhysReg) : s.rename.freeList.freeMask p = true ↔
      (∀ a, s.rename.mapTable.committedMap a ≠ p) ∧
        p ∉ Renaming.taken s.renamingState.queue :=
    Set.ext_iff.mp hwf.free_eq p
  rw [hdest]
  refine ⟨hwf.committed_injective, hwf.taken_nodup, ?_, ?_, ?_, hc.zero, ?_,
    ?_, ?_⟩
  · intro p hp
    obtain ⟨hmap, htaken⟩ := (hfree p).mp hp
    refine ⟨?_, htaken⟩
    rintro ⟨a, ha⟩
    exact hmap a ha
  · rintro p hp ⟨a, ha⟩
    exact hwf.taken_fresh p hp a ha
  · intro p
    by_cases hmap : p ∈ Set.range s.rename.mapTable.committedMap
    · exact Or.inr (Or.inl hmap)
    · by_cases htaken : p ∈ Renaming.taken s.renamingState.queue
      · exact Or.inr (Or.inr htaken)
      · left
        rw [hfree]
        exact ⟨fun a ha => hmap ⟨a, ha⟩, htaken⟩
  · intro hzero
    exact hwf.taken_fresh 0 hzero 0 hwf.pinned
  · intro i l hl
    rw [hc.destinationAllocValid_eq] at hl
    exact hc.destination_free i hl
  · intro i h0 h1
    rw [hc.destinationAllocValid_eq] at h0 h1
    exact hc.destination_ne i h0 h1

/-- With one `addi x1, x0, 1` in flight, `p32` is its destination. -/
theorem physRegs_partition_addi :
    (reset.step (offerPair 0x00100093 0)).destinations
        (reset.step (offerPair 0x00100093 0)).rob.window = [32] ∧
      ((reset.step (offerPair 0x00100093 0)).destinations
        (reset.step (offerPair 0x00100093 0)).rob.window).Nodup := by
  have hreach := Reachable.reset.step (offerPair 0x00100093 0)
  exact ⟨by decide +kernel, hreach.physRegs_partition.2.1⟩

end Reachable

end Backend

end OoOCore
