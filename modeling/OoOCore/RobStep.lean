/-
The reorder buffer's edge as the backend drives it: which tags stay live, what
happens to their entries, and which tags are new.
-/
import OoOCore.Dispatch
import OoOCore.LsqWindow
import OoOCore.Retirement
import OoOCore.RobWindow

namespace OoOCore

namespace Backend

section Counters

variable (s : Backend) (i : Inputs)

theorem step_rob_flush (htrap : s.trapValid i = true) :
    (s.step i).rob = ReorderBuffer.reset := by
  change ReorderBuffer.step _ (s.trapValid i) _ _ _ _ _ _ = _
  rw [htrap]
  rfl

theorem step_rob_recover (htrap : s.trapValid i = false)
    (hrec : s.recoveryValid i = true) :
    (s.step i).rob = s.rob.stepRecover (s.branchResolve i) s.robComplete := by
  change ReorderBuffer.step _ (s.trapValid i) (s.recoveryValid i) _ _ _ _ _ = _
  rw [htrap, hrec]
  rfl

theorem step_rob_normal (htrap : s.trapValid i = false)
    (hrec : s.recoveryValid i = false) :
    (s.step i).rob = s.rob.stepNormal (s.robAllocValid i) (s.renameRobEntry i)
      s.robComplete (s.branchResolve i) (s.robRetireValid i) := by
  change ReorderBuffer.step _ (s.trapValid i) (s.recoveryValid i) _ _ _ _ _ = _
  rw [htrap, hrec]
  rfl

theorem recoverKeepCount_le (r : ReorderBuffer) (tag : RobTag) :
    r.recoverKeepCount true tag ≤ r.entryCount := by
  rw [ReorderBuffer.recoverKeepCount, ReorderBuffer.recoverScan,
    r.recoverScan_prefix tag (Nat.le_refl _)]
  split
  · exact Nat.le_trans (Nat.min_le_left _ _) (Nat.min_le_right _ _)
  · exact Nat.le_refl _

theorem Countable.step_rob (hs : s.Countable) :
    (s.step i).rob.entryCount ≤ 16 := by
  have hle := hs.rob
  cases htrap : s.trapValid i with
  | true =>
      rw [s.step_rob_flush i htrap]
      decide
  | false =>
      cases hrec : s.recoveryValid i with
      | true =>
          rw [s.step_rob_recover i htrap hrec]
          exact Nat.le_trans (recoverKeepCount_le _ _) hle
      | false =>
          rw [s.step_rob_normal i htrap hrec]
          have halloc := s.rob.allocAccepted_le (s.robAllocValid i) hle
          change s.rob.entryCount + s.rob.allocAccepted (s.robAllocValid i) -
            s.rob.commitAccepted (s.robRetireValid i) ≤ 16
          unfold ReorderBuffer.depth at halloc
          omega

theorem Countable.step_lsq (hs : s.Countable) :
    (s.step i).lsq.entryCount ≤ 16 := by
  have hle := hs.lsq
  change (LoadStoreQueue.step _ (s.trapValid i) (s.recoveryValid i) _ _ _ _ _
    _).entryCount ≤ 16
  unfold LoadStoreQueue.step
  split
  · decide
  · split
    · change s.lsq.recoveryRetainedCount _ ≤ 16
      refine Nat.le_trans List.countP_le_length ?_
      simp
    · have halloc := s.lsq.allocAccepted_le (s.lsqAllocValid i) hle
      change s.lsq.entryCount + s.lsq.allocAccepted (s.lsqAllocValid i) -
        s.lsq.retireAccepted (s.lsqRetireCount i) ≤ 16
      unfold LoadStoreQueue.depth at halloc
      omega

/-- Every branch of the free list's edge clears bit zero. -/
theorem freeList_step_zero (f : PhysicalFreeList) (restore : Bool)
    (restoreFreeMask : PhysReg → Bool) (recoverValid : Bool)
    (recoverTag : RobTag) (checkpointValid : Lane → Bool)
    (checkpointTag : Lane → RobTag) (request freeValid : Lane → Bool)
    (freePhys : Lane → PhysReg) :
    (f.step restore restoreFreeMask recoverValid recoverTag checkpointValid
      checkpointTag request freeValid freePhys).freeMask 0 = false := by
  cases restore <;> cases recoverValid <;>
    simp [PhysicalFreeList.step]

theorem step_freeList : (s.step i).rename.freeList =
    s.rename.freeList.step (s.trapValid i)
      s.rename.mapTable.committedFreeMask (s.recoveryValid i)
      (s.recoveryTag i) (s.checkpointValid i) (s.robAllocTag i)
      (s.freeRequest i) (s.freeCommitValid i)
      (fun l => (s.rob.commitEntry l).oldPhys) := rfl

/-- The counters describe the structures in every reachable state. -/
theorem Reachable.countable {s : Backend} (h : s.Reachable) : s.Countable := by
  induction h with
  | reset => exact ⟨Nat.zero_le _, Nat.zero_le _, rfl⟩
  | @step s _ i ih =>
      refine ⟨ih.step_rob s i, ih.step_lsq s i, ?_⟩
      rw [s.step_freeList i]
      exact freeList_step_zero _ _ _ _ _ _ _ _ _ _

end Counters

section Window

variable (s : Backend) (i : Inputs)

/-- The ROB is well formed and a recovery names one of its live entries. -/
structure RobReady : Prop where
  wf : s.rob.Wf
  recover_live : s.recoveryValid i = true → s.recoveryTag i ∈ s.rob.window

/-- The slot commit lane `l` looks at. -/
def commitSlot (l : Lane) : RobTag := addPtr s.rob.headPtr l.val

/-- The commit lanes that retire, in order. -/
def retiredLanes : List Lane := [0, 1].filter (s.robRetireValid i)

/-- The dispatch lanes that are accepted, in order. -/
def newLanes : List Lane := [0, 1].filter (s.robAllocValid i)

theorem mem_newLanes {l : Lane} :
    l ∈ s.newLanes i ↔ s.robAllocValid i l = true := by
  unfold newLanes
  rw [List.mem_filter, and_iff_right]
  match l with
  | 0 => simp
  | 1 => simp

theorem Countable.allocLanes_eq (hs : s.Countable) :
    s.rob.allocLanes (s.robAllocValid i) = s.newLanes i := by
  unfold ReorderBuffer.allocLanes newLanes
  apply List.filter_congr
  intro l _
  exact hs.robAllocFire i l

variable {s i}

theorem RobReady.step_wf (hs : s.RobReady i) : (s.step i).rob.Wf := by
  cases htrap : s.trapValid i with
  | true =>
      rw [s.step_rob_flush i htrap]
      exact ReorderBuffer.reset_wf
  | false =>
      cases hrec : s.recoveryValid i with
      | true =>
          rw [s.step_rob_recover i htrap hrec]
          exact hs.wf.stepRecover_wf _ (hs.recover_live hrec)
      | false =>
          rw [s.step_rob_normal i htrap hrec]
          exact hs.wf.stepNormal_wf _ _ _ _ _

theorem step_window_flush (htrap : s.trapValid i = true) :
    (s.step i).rob.window = [] := by
  rw [s.step_rob_flush i htrap]
  rfl

/-- A flush leaves nothing live. -/
theorem not_trap_of_live {tag : RobTag}
    (hlive : tag ∈ (s.step i).rob.window) : s.trapValid i = false := by
  by_contra htrap
  rw [Bool.not_eq_false] at htrap
  rw [step_window_flush htrap] at hlive
  cases hlive

theorem RobReady.step_window_recover (hs : s.RobReady i)
    (htrap : s.trapValid i = false) (hrec : s.recoveryValid i = true) :
    (s.step i).rob.window =
      s.rob.window.take (s.rob.age (s.recoveryTag i) + 1) := by
  rw [s.step_rob_recover i htrap hrec]
  exact hs.wf.stepRecover_window _ (hs.recover_live hrec)

/-- Recovery cuts the window behind the branch. -/
theorem RobReady.window_split (hs : s.RobReady i)
    (htrap : s.trapValid i = false) (hrec : s.recoveryValid i = true) :
    ∃ older younger, s.rob.window = older ++ s.recoveryTag i :: younger ∧
      (s.step i).rob.window = older ++ [s.recoveryTag i] := by
  have hlive := (hs.wf.mem_window _).mp (hs.recover_live hrec)
  have hget := ReorderBuffer.getElem?_age hlive
  obtain ⟨hlen, helem⟩ := List.getElem?_eq_some_iff.mp hget
  refine ⟨s.rob.window.take (s.rob.age (s.recoveryTag i)),
    s.rob.window.drop (s.rob.age (s.recoveryTag i) + 1), ?_, ?_⟩
  · have hdrop := List.drop_eq_getElem_cons hlen
    rw [helem] at hdrop
    rw [← hdrop, List.take_append_drop]
  · rw [hs.step_window_recover htrap hrec, List.take_add_one, hget]
    rfl

theorem RobReady.step_window_normal (hs : s.RobReady i) (hc : s.Countable)
    (htrap : s.trapValid i = false) (hrec : s.recoveryValid i = false) :
    (s.step i).rob.window =
      s.rob.window.drop (s.retireCount i) ++
        (s.newLanes i).map (s.robAllocTag i) := by
  rw [s.step_rob_normal i htrap hrec, hs.wf.stepNormal_window,
    s.commitAccepted_eq, hc.allocLanes_eq]
  rfl

/-- The tags recovery removes are the live ones behind the branch. -/
theorem RobReady.recoveryYoungerMask_eq (hs : s.RobReady i)
    (hrec : s.recoveryValid i = true) (tag : RobTag) :
    s.recoveryYoungerMask i tag = true ↔
      tag ∈ s.rob.window ∧ s.rob.age (s.recoveryTag i) < s.rob.age tag := by
  rw [recoveryYoungerMask, hrec]
  exact hs.wf.recoverYoungerMask_eq (hs.recover_live hrec) tag

theorem recoveryYoungerMask_of_normal (hrec : s.recoveryValid i = false)
    (tag : RobTag) : s.recoveryYoungerMask i tag = false := by
  rw [recoveryYoungerMask, hrec]
  exact ReorderBuffer.recoverYoungerMask_false _

/-- A live tag survives recovery exactly when the mask spares it. -/
theorem RobReady.mem_step_window_recover (hs : s.RobReady i)
    (htrap : s.trapValid i = false) (hrec : s.recoveryValid i = true)
    (tag : RobTag) : tag ∈ (s.step i).rob.window ↔
      tag ∈ s.rob.window ∧ s.recoveryYoungerMask i tag = false := by
  rw [hs.step_window_recover htrap hrec, ← Bool.not_eq_true,
    hs.recoveryYoungerMask_eq hrec]
  constructor
  · intro hmem
    have hlive := List.mem_of_mem_take hmem
    refine ⟨hlive, fun h => ?_⟩
    obtain ⟨k, hk⟩ := List.mem_iff_getElem?.mp hmem
    have hlt : k < s.rob.age (s.recoveryTag i) + 1 := by
      have hlen := (List.getElem?_eq_some_iff.mp hk).1
      rw [List.length_take] at hlen
      omega
    rw [List.getElem?_take_of_lt hlt] at hk
    have hage := hs.wf.age_eq_of_getElem? hk
    omega
  · rintro ⟨hlive, hnot⟩
    have hlt := (hs.wf.mem_window tag).mp hlive
    have hle : s.rob.age tag < s.rob.age (s.recoveryTag i) + 1 := by
      by_contra hge
      exact hnot ⟨hlive, by omega⟩
    have hk := ReorderBuffer.getElem?_age hlt
    apply List.mem_of_getElem? (i := s.rob.age tag)
    rw [List.getElem?_take_of_lt hle]
    exact hk

theorem mem_retiredLanes {l : Lane} :
    l ∈ s.retiredLanes i ↔ s.robRetireValid i l = true := by
  unfold retiredLanes
  rw [List.mem_filter, and_iff_right]
  match l with
  | 0 => simp
  | 1 => simp

/-- The tags that leave at the head are the slots of the retired lanes. -/
theorem take_retireCount : s.rob.window.take (s.retireCount i) =
    (s.retiredLanes i).map s.commitSlot := by
  have hslot (l : Lane) (h : s.robRetireValid i l = true) :
      l.val < s.rob.entryCount :=
    (s.commitValid_entry (s.robRetireValid_base i h).2.1).1
  unfold retireCount retiredLanes
  cases h0 : s.robRetireValid i 0 with
  | false =>
      have h1 := s.robRetireValid_one_false i h0
      simp [h0, h1]
  | true =>
      have hget0 : s.rob.window[0]? = some (s.commitSlot 0) :=
        ReorderBuffer.window_getElem? (hslot 0 h0)
      cases h1 : s.robRetireValid i 1 with
      | false => simp [h0, h1, List.take_add_one, hget0]
      | true =>
          have hget1 : s.rob.window[1]? = some (s.commitSlot 1) :=
            ReorderBuffer.window_getElem? (hslot 1 h1)
          simp [h0, h1, List.take_add_one, hget0, hget1]

/-- The tags that leave at the head have completed without a fault. -/
theorem retired_complete {tag : RobTag}
    (htag : tag ∈ s.rob.window.take (s.retireCount i)) :
    (s.rob.entries tag).complete = true ∧
      (s.rob.entries tag).exception = false := by
  rw [take_retireCount] at htag
  obtain ⟨l, hl, rfl⟩ := List.mem_map.mp htag
  rw [mem_retiredLanes] at hl
  obtain ⟨-, hvalid, hclean⟩ := s.robRetireValid_base i hl
  obtain ⟨-, hcomplete, hentry⟩ := s.commitValid_entry hvalid
  rw [hentry] at hclean
  exact ⟨hcomplete, hclean⟩

/-- An incomplete live entry that recovery spares stays live. -/
theorem RobReady.stays_live (hs : s.RobReady i) (hc : s.Countable)
    (htrap : s.trapValid i = false) {tag : RobTag}
    (hlive : tag ∈ s.rob.window)
    (hopen : (s.rob.entries tag).complete = false)
    (hmask : s.recoveryYoungerMask i tag = false) :
    tag ∈ (s.step i).rob.window := by
  cases hrec : s.recoveryValid i with
  | true =>
      rw [hs.mem_step_window_recover htrap hrec]
      exact ⟨hlive, hmask⟩
  | false =>
      rw [hs.step_window_normal hc htrap hrec, List.mem_append]
      left
      rw [← List.take_append_drop (s.retireCount i) s.rob.window,
        List.mem_append] at hlive
      rcases hlive with h | h
      · rw [(retired_complete h).1] at hopen
        exact absurd hopen (by decide)
      · exact h

/-- The entry of a survivor: the completion lanes write it, and a recovery
completes its branch. -/
theorem RobReady.step_entry (hs : s.RobReady i) (hc : s.Countable)
    (htrap : s.trapValid i = false) {tag : RobTag}
    (hold : tag ∈ s.rob.window) (hnew : tag ∈ (s.step i).rob.window) :
    ∃ hidden e, hidden tag = false ∧
      e = s.rob.completeBoth hidden s.robComplete s.rob.entries tag ∧
      ((s.step i).rob.entries tag).atDispatch = e.atDispatch ∧
      ((s.step i).rob.entries tag).exception = e.exception ∧
      (((s.step i).rob.entries tag).complete = true ↔ e.complete = true ∨
        (s.recoveryValid i = true ∧ tag = s.recoveryTag i)) := by
  cases hrec : s.recoveryValid i with
  | true =>
      have hmask := ((hs.mem_step_window_recover htrap hrec tag).mp hnew).2
      refine ⟨s.recoveryYoungerMask i, _, hmask, rfl, ?_⟩
      rw [s.step_rob_recover i htrap hrec] at hnew ⊢
      have hmaskEq : s.rob.recoverYoungerMask true (s.branchResolve i).tag =
          s.recoveryYoungerMask i := by
        rw [recoveryYoungerMask, hrec]
        rfl
      rw [hs.wf.stepRecover_entries _ (hs.recover_live hrec) hnew, hmaskEq]
      change _ ∧ _ ∧
        (_ ↔ _ ∨ (true = true ∧ tag = (s.branchResolve i).tag))
      simp only [true_and]
      split
      · next heq =>
        refine ⟨rfl, rfl, ?_⟩
        simp only [heq, or_true, iff_true]
        rfl
      · next hne =>
        refine ⟨rfl, rfl, ?_⟩
        simp only [hne, or_false]
  | false =>
      have hsurvives : tag ∈ s.rob.window.drop
          (s.rob.commitAccepted (s.robRetireValid i)) := by
        rw [hs.step_window_normal hc htrap hrec, List.mem_append] at hnew
        rw [s.commitAccepted_eq]
        rcases hnew with h | h
        · exact h
        · obtain ⟨l, hl, rfl⟩ := List.mem_map.mp h
          rw [mem_newLanes, ← hc.robAllocFire] at hl
          exact absurd hold (hs.wf.allocTag_not_mem _ hl)
      refine ⟨fun _ => false, _, rfl, rfl, ?_⟩
      rw [s.step_rob_normal i htrap hrec, hs.wf.stepNormal_survivor _ _ _ _ _
        hsurvives]
      obtain ⟨hframe, -, hcomplete, hexc⟩ := s.rob.resolveAt_frame
        (s.branchResolve i) tag
        (s.rob.completeBoth (fun _ => false) s.robComplete s.rob.entries tag)
      rw [hframe, hcomplete, hexc]
      simp

/-- A lane completes a live entry that nothing hides exactly when it names
it. -/
theorem RobReady.completes_iff (hs : s.RobReady i) {tag : RobTag}
    (hold : tag ∈ s.rob.window) {hidden : RobTag → Bool}
    (hhidden : hidden tag = false) (l : Lane) :
    s.rob.completes hidden (s.robComplete l) tag = true ↔
      (s.robComplete l).valid = true ∧ (s.robComplete l).robTag = tag := by
  have hvalid := (hs.wf.valid_iff tag).mpr hold
  simp [ReorderBuffer.completes, hvalid, hhidden]

/-- A tag that was live and still is has survived: what dispatch wrote is
unchanged, and completion is monotone. -/
theorem RobReady.step_survivor (hs : s.RobReady i) (hc : s.Countable)
    (htrap : s.trapValid i = false) {tag : RobTag}
    (hold : tag ∈ s.rob.window) (hnew : tag ∈ (s.step i).rob.window) :
    ((s.step i).rob.entries tag).atDispatch =
        (s.rob.entries tag).atDispatch ∧
      (((s.step i).rob.entries tag).complete = true ↔
        (s.rob.entries tag).complete = true ∨
          (∃ l, (s.robComplete l).valid = true ∧
            (s.robComplete l).robTag = tag) ∨
          (s.recoveryValid i = true ∧ tag = s.recoveryTag i)) := by
  obtain ⟨hidden, e, hhidden, rfl, hframe, -, hcomplete⟩ :=
    hs.step_entry hc htrap hold hnew
  have hlanes := hs.completes_iff hold hhidden
  rw [hframe, (ReorderBuffer.completeBoth_frame _ _ _ _).1, hcomplete,
    ReorderBuffer.completeBoth_complete]
  simp only [hlanes, or_assoc, true_and]

/-- A survivor without a recorded exception: the lane that completes it now
reports none, or no lane completes it and it had none. -/
theorem RobReady.step_faultless (hs : s.RobReady i) (hc : s.Countable)
    (htrap : s.trapValid i = false) {tag : RobTag}
    (hold : tag ∈ s.rob.window) (hnew : tag ∈ (s.step i).rob.window)
    (hclean : ((s.step i).rob.entries tag).exception = false) :
    (∃ l, (s.robComplete l).valid = true ∧ (s.robComplete l).robTag = tag ∧
        (s.robComplete l).exception = false) ∨
      ((∀ l, ¬ ((s.robComplete l).valid = true ∧
          (s.robComplete l).robTag = tag)) ∧
        (s.rob.entries tag).exception = false) := by
  obtain ⟨hidden, e, hhidden, rfl, -, hexc, -⟩ :=
    hs.step_entry hc htrap hold hnew
  have hlanes := hs.completes_iff hold hhidden
  rw [hexc] at hclean
  rcases ReorderBuffer.completeBoth_faultless hidden _ _ _ hclean with
    ⟨l, hl, hlane⟩ | ⟨hnone, hentry⟩
  · obtain ⟨hvalid, htag⟩ := (hlanes l).mp hl
    exact Or.inl ⟨l, hvalid, htag, hlane⟩
  · refine Or.inr ⟨?_, hentry⟩
    intro l hl
    exact hnone l ((hlanes l).mpr hl)

/-- A tag that was not live is new: a lane was dispatched into it. -/
theorem RobReady.step_new (hs : s.RobReady i) (hc : s.Countable)
    {tag : RobTag} (hold : tag ∉ s.rob.window)
    (hnew : tag ∈ (s.step i).rob.window) :
    s.recoveryValid i = false ∧ ∃ l, s.robAllocValid i l = true ∧
      tag = s.robAllocTag i l := by
  have htrap := not_trap_of_live hnew
  cases hrec : s.recoveryValid i with
  | true =>
      rw [hs.mem_step_window_recover htrap hrec] at hnew
      exact absurd hnew.1 hold
  | false =>
      refine ⟨rfl, ?_⟩
      rw [hs.step_window_normal hc htrap hrec, List.mem_append] at hnew
      rcases hnew with h | h
      · exact absurd (List.mem_of_mem_drop h) hold
      · obtain ⟨l, hl, rfl⟩ := List.mem_map.mp h
        exact ⟨l, (s.mem_newLanes i).mp hl, rfl⟩

/-- An accepted lane becomes live with the entry rename made for it. -/
theorem RobReady.step_dispatched (hs : s.RobReady i) (hc : s.Countable)
    (htrap : s.trapValid i = false) (hrec : s.recoveryValid i = false)
    {l : Lane} (hl : s.robAllocValid i l = true) :
    s.robAllocTag i l ∉ s.rob.window ∧
      s.robAllocTag i l ∈ (s.step i).rob.window ∧
      (s.step i).rob.entries (s.robAllocTag i l) =
        ReorderBuffer.allocWrite (s.renameRobEntry i l) := by
  have hfire : s.rob.allocFire (s.robAllocValid i) l = true := by
    rw [hc.robAllocFire]
    exact hl
  refine ⟨hs.wf.allocTag_not_mem _ hfire, ?_, ?_⟩
  · rw [hs.step_window_normal hc htrap hrec, List.mem_append]
    right
    exact List.mem_map_of_mem ((s.mem_newLanes i).mpr hl)
  · rw [s.step_rob_normal i htrap hrec]
    exact hs.wf.stepNormal_new _ _ _ _ _ hfire

/-- Lane 1 takes another tag than an accepted lane 0. -/
theorem Countable.robAllocTag_ne (hc : s.Countable)
    (h0 : s.robAllocValid i 0 = true) :
    s.robAllocTag i 0 ≠ s.robAllocTag i 1 := by
  intro heq
  have hfire : s.rob.allocFire (s.robAllocValid i) 0 = true := by
    rw [hc.robAllocFire]
    exact h0
  change s.rob.allocTag _ 0 = s.rob.allocTag _ 1 at heq
  rw [ReorderBuffer.allocTag_one, hfire] at heq
  have hslot : Ring.slot s.rob.tailPtr 0 = Ring.slot s.rob.tailPtr 1 := by
    simpa [ReorderBuffer.allocTag] using heq
  have := Ring.slot_injective s.rob.tailPtr (by decide) (by decide) hslot
  omega

end Window

end Backend

end OoOCore
