/-
The reorder buffer as a list of live tags, oldest first.  The clock edge drops
a retired front, appends the accepted allocations, or truncates behind a
recovered branch; what an entry was given at dispatch never changes.
-/
import OoOCore.Lib.DualRing
import OoOCore.ReorderBuffer
import Mathlib.Data.List.Basic

namespace OoOCore

/-- The entry as dispatch wrote it: completion and branch resolution erased. -/
def RobEntry.atDispatch (e : RobEntry) : RobEntry :=
  { e with
    valid := true, complete := false, branchTaken := false, branchTarget := 0,
    branchMispredicted := false, exception := false, exceptionCause := 0,
    exceptionValue := 0 }

/-- The fields renaming reads, all fixed at dispatch. -/
theorem RobEntry.atDispatch_renaming {e e' : RobEntry}
    (h : e'.atDispatch = e.atDispatch) :
    e'.writesRd = e.writesRd ∧ e'.archRd = e.archRd ∧
      e'.newPhys = e.newPhys ∧ e'.oldPhys = e.oldPhys ∧
      e'.isBranch = e.isBranch := by
  have hwrites := congrArg RobEntry.writesRd h
  have harch := congrArg RobEntry.archRd h
  have hnew := congrArg RobEntry.newPhys h
  have hold := congrArg RobEntry.oldPhys h
  have hbranch := congrArg RobEntry.isBranch h
  exact ⟨hwrites, harch, hnew, hold, hbranch⟩

namespace ReorderBuffer

/-- The live tags, oldest first. -/
def window (r : ReorderBuffer) : List RobTag :=
  Ring.slots r.headPtr r.entryCount

/-- How many live entries are older than the tag. -/
def age (r : ReorderBuffer) (tag : RobTag) : Nat := Ring.dist r.headPtr tag

/-- The pointers delimit the valid entries. -/
structure Wf (r : ReorderBuffer) : Prop where
  count_le : r.entryCount ≤ depth
  tail_eq : r.tailPtr = addPtr r.headPtr r.entryCount
  valid_iff : ∀ tag, (r.entries tag).valid = true ↔ tag ∈ r.window

theorem reset_wf : reset.Wf where
  count_le := by decide
  tail_eq := by decide
  valid_iff := by
    intro tag
    simp [reset, window, Ring.slots]
    rfl

@[simp] theorem reset_window : reset.window = [] := rfl

section Window

variable {r : ReorderBuffer}

theorem window_length : r.window.length = r.entryCount := by
  simp [window]

theorem Wf.mem_window (hwf : r.Wf) (tag : RobTag) :
    tag ∈ r.window ↔ r.age tag < r.entryCount :=
  Ring.mem_slots _ _ hwf.count_le

theorem Wf.window_nodup (hwf : r.Wf) : r.window.Nodup :=
  Ring.slots_nodup _ hwf.count_le

theorem window_getElem? {k : Nat} (hk : k < r.entryCount) :
    r.window[k]? = some (addPtr r.headPtr k) :=
  Ring.slots_getElem? _ hk

theorem Wf.age_eq_of_getElem? (hwf : r.Wf) {k : Nat} {tag : RobTag}
    (hk : r.window[k]? = some tag) : r.age tag = k := by
  have hlt : k < r.entryCount := by
    rw [← window_length]
    exact (List.getElem?_eq_some_iff.mp hk).1
  rw [window_getElem? hlt] at hk
  cases hk
  exact Ring.dist_slot _ (Nat.lt_of_lt_of_le hlt hwf.count_le)

/-- A live tag splits the window in one way. -/
theorem Wf.split_unique (hwf : r.Wf) {tag : RobTag}
    {older younger older' younger' : List RobTag}
    (h : r.window = older ++ tag :: younger)
    (h' : r.window = older' ++ tag :: younger') : older = older' := by
  have hnodup := hwf.window_nodup
  rw [h, List.nodup_append] at hnodup
  have holder : tag ∉ older := fun hmem =>
    hnodup.2.2 tag hmem tag (by simp) rfl
  have hyounger : tag ∉ younger := (List.nodup_cons.mp hnodup.2.1).1
  rw [h] at h'
  exact ((List.append_cons_inj_of_notMem holder hyounger).mp h').1

theorem getElem?_age {tag : RobTag} (hage : r.age tag < r.entryCount) :
    r.window[r.age tag]? = some tag := by
  rw [window_getElem? hage]
  simp [age]

end Window

section Recover

variable (r : ReorderBuffer) (tag : RobTag)

/-- The scan after its first `n` iterations. -/
theorem recoverScan_prefix {n : Nat} (hn : n ≤ depth) :
    (List.range n).foldl (r.recoverScanStep tag) ⟨fun _ => false, 0, false⟩ =
      ⟨fun t => decide (r.age tag < r.age t ∧ r.age t < min n r.entryCount),
        min (min n r.entryCount) (r.age tag + 1),
        decide (r.age tag < min n r.entryCount)⟩ := by
  induction n with
  | zero => simp
  | succ n ih =>
      rw [List.range_succ, List.foldl_append, ih (by omega)]
      simp only [List.foldl_cons, List.foldl_nil, recoverScanStep]
      have hage : ∀ t, addPtr r.headPtr n = t ↔ r.age t = n := by
        intro t
        constructor
        · rintro rfl
          exact Ring.dist_slot _ (Nat.lt_of_lt_of_le (Nat.lt_succ_self n) hn)
        · rintro rfl
          exact Ring.slot_dist _ t
      by_cases hlt : n < r.entryCount
      · have hmin : min n r.entryCount = n := by omega
        have hmin' : min (n + 1) r.entryCount = n + 1 := by omega
        simp only [hlt, if_true, hmin, hmin', hage]
        by_cases hfound : r.age tag < n
        · have hne : ¬ r.age tag = n := by omega
          simp only [hfound, decide_true, if_true, hne, if_false]
          congr 1
          · funext t
            simp only [Function.update_apply, eq_comm (a := t), hage]
            by_cases ht : r.age t = n
            · simp [ht, hfound]
            · simp only [ht, if_false, decide_eq_decide]
              omega
          · omega
          · simp only [true_eq_decide_iff]
            omega
        · simp only [hfound, decide_false, Bool.false_eq_true, if_false]
          by_cases heq : r.age tag = n
          · simp only [heq, if_true]
            congr 1
            · funext t
              simp only [decide_eq_decide]
              omega
            · omega
            · simp
          · simp only [heq, if_false]
            congr 1
            · funext t
              simp only [decide_eq_decide]
              omega
            · omega
            · simp only [false_eq_decide_iff]
              omega
      · have hmin : min (n + 1) r.entryCount = min n r.entryCount := by omega
        simp [hlt, hmin]

variable {r tag}

theorem Wf.recoverScan_eq (hwf : r.Wf) :
    r.recoverScan tag =
      ⟨fun t => decide (r.age tag < r.age t ∧ r.age t < r.entryCount),
        min r.entryCount (r.age tag + 1), decide (r.age tag < r.entryCount)⟩ := by
  have hmin : min depth r.entryCount = r.entryCount :=
    Nat.min_eq_right hwf.count_le
  rw [recoverScan, recoverScan_prefix r tag (Nat.le_refl _), hmin]

/-- Recovery keeps the branch and everything older. -/
theorem Wf.recoverKeepCount_eq (hwf : r.Wf) (hlive : tag ∈ r.window) :
    r.recoverKeepCount true tag = r.age tag + 1 := by
  have hlt := (hwf.mem_window tag).mp hlive
  rw [recoverKeepCount, hwf.recoverScan_eq]
  simp only [hlt, decide_true, and_self, if_true]
  omega

/-- Recovery removes exactly the live entries younger than the branch. -/
theorem Wf.recoverYoungerMask_eq (hwf : r.Wf) (hlive : tag ∈ r.window)
    (t : RobTag) : r.recoverYoungerMask true tag t = true ↔
      t ∈ r.window ∧ r.age tag < r.age t := by
  have hlt := (hwf.mem_window tag).mp hlive
  rw [recoverYoungerMask, hwf.recoverScan_eq, hwf.mem_window]
  simp only [hlt, decide_true, and_self, if_true, decide_eq_true_eq]
  tauto

theorem recoverYoungerMask_false (t : RobTag) :
    r.recoverYoungerMask false tag t = false := by
  simp [recoverYoungerMask]

end Recover

section Complete

variable (r : ReorderBuffer)

/-- A completion lane reaches the entry. -/
def completes (hidden : RobTag → Bool) (c : Completion) (tag : RobTag) :
    Bool :=
  c.valid && decide (c.robTag = tag) && (r.entries tag).valid && !hidden tag

theorem completeLane_apply (hidden : RobTag → Bool) (c : Completion)
    (next : RobTag → RobEntry) (tag : RobTag) :
    r.completeLane hidden c next tag =
      if r.completes hidden c tag then completeEntry (next tag) c
      else next tag := by
  unfold completeLane completes
  by_cases htag : c.robTag = tag
  · subst htag
    by_cases hfire : c.valid = true ∧ (r.entries c.robTag).valid = true ∧
        ¬ hidden c.robTag = true
    · rw [if_pos hfire, if_pos (by simpa [and_assoc] using hfire)]
      simp
    · rw [if_neg hfire, if_neg (by simpa [and_assoc] using hfire)]
  · rw [if_neg (by simp [htag] : ¬ (c.valid && decide (c.robTag = tag) &&
      (r.entries tag).valid && !hidden tag) = true)]
    split
    · rw [Function.update_of_ne (fun h => htag h.symm)]
    · rfl

@[simp] theorem completeEntry_atDispatch (e : RobEntry) (c : Completion) :
    (completeEntry e c).atDispatch = e.atDispatch := rfl

@[simp] theorem resolveEntry_atDispatch (e : RobEntry) (b : BranchResolve) :
    (resolveEntry e b).atDispatch = e.atDispatch := rfl

/-- Both completion lanes. -/
def completeBoth (hidden : RobTag → Bool) (complete : Lane → Completion)
    (next : RobTag → RobEntry) : RobTag → RobEntry :=
  r.completeLane hidden (complete 1) (r.completeLane hidden (complete 0) next)

variable {r}

/-- Completion writes only what dispatch left open. -/
theorem completeBoth_frame (hidden : RobTag → Bool)
    (complete : Lane → Completion) (next : RobTag → RobEntry) (tag : RobTag) :
    (r.completeBoth hidden complete next tag).atDispatch =
        (next tag).atDispatch ∧
      (r.completeBoth hidden complete next tag).valid = (next tag).valid := by
  unfold completeBoth
  rw [completeLane_apply, completeLane_apply]
  split <;> split <;> exact ⟨rfl, rfl⟩

/-- An entry is complete after the lanes exactly when it was or a lane
completes it. -/
theorem completeBoth_complete (hidden : RobTag → Bool)
    (complete : Lane → Completion) (next : RobTag → RobEntry) (tag : RobTag) :
    (r.completeBoth hidden complete next tag).complete = true ↔
      (next tag).complete = true ∨
        ∃ l, r.completes hidden (complete l) tag := by
  unfold completeBoth
  rw [completeLane_apply, completeLane_apply]
  by_cases h1 : r.completes hidden (complete 1) tag = true
  · rw [if_pos h1]
    exact iff_of_true rfl (Or.inr ⟨1, h1⟩)
  · rw [if_neg h1]
    by_cases h0 : r.completes hidden (complete 0) tag = true
    · rw [if_pos h0]
      exact iff_of_true rfl (Or.inr ⟨0, h0⟩)
    · rw [if_neg h0]
      constructor
      · exact Or.inl
      · rintro (h | ⟨l, hl⟩)
        · exact h
        · match l, hl with
          | 0, hl => exact absurd hl h0
          | 1, hl => exact absurd hl h1

/-- An entry without a recorded exception: the lane that completes it last
reports none, or no lane completes it and it had none. -/
theorem completeBoth_faultless (hidden : RobTag → Bool)
    (complete : Lane → Completion) (next : RobTag → RobEntry) (tag : RobTag)
    (hclean : (r.completeBoth hidden complete next tag).exception = false) :
    (∃ l, r.completes hidden (complete l) tag ∧
        (complete l).exception = false) ∨
      ((∀ l, ¬ r.completes hidden (complete l) tag) ∧
        (next tag).exception = false) := by
  unfold completeBoth at hclean
  rw [completeLane_apply, completeLane_apply] at hclean
  by_cases h1 : r.completes hidden (complete 1) tag = true
  · rw [if_pos h1] at hclean
    exact Or.inl ⟨1, h1, hclean⟩
  · rw [if_neg h1] at hclean
    by_cases h0 : r.completes hidden (complete 0) tag = true
    · rw [if_pos h0] at hclean
      exact Or.inl ⟨0, h0, hclean⟩
    · rw [if_neg h0] at hclean
      refine Or.inr ⟨?_, hclean⟩
      intro l
      match l with
      | 0 => exact h0
      | 1 => exact h1

theorem completeBoth_of_not_completes {hidden : RobTag → Bool}
    {complete : Lane → Completion} {next : RobTag → RobEntry} {tag : RobTag}
    (hnone : ∀ l, ¬ r.completes hidden (complete l) tag) :
    r.completeBoth hidden complete next tag = next tag := by
  unfold completeBoth
  rw [completeLane_apply, completeLane_apply, if_neg (hnone 1),
    if_neg (hnone 0)]

end Complete

section StepRecover

variable {r : ReorderBuffer} {b : BranchResolve}
  (complete : Lane → Completion)

theorem Wf.stepRecover_window (hwf : r.Wf) (hlive : b.tag ∈ r.window) :
    (r.stepRecover b complete).window = r.window.take (r.age b.tag + 1) := by
  have hlt := (hwf.mem_window b.tag).mp hlive
  unfold window
  rw [Ring.slots_take _ (by omega), stepRecover]
  simp only [hwf.recoverKeepCount_eq hlive]

/-- A surviving entry after recovery: completed by the lanes, and by the
recovery itself when it is the branch. -/
theorem Wf.stepRecover_entries (hwf : r.Wf) (hlive : b.tag ∈ r.window)
    {tag : RobTag} (htag : tag ∈ (r.stepRecover b complete).window) :
    (r.stepRecover b complete).entries tag =
      let e := r.completeBoth (r.recoverYoungerMask true b.tag) complete
        r.entries tag
      if tag = b.tag then resolveEntry { e with complete := true } b else e := by
  have hmask : r.recoverYoungerMask true b.tag tag = false := by
    rw [hwf.stepRecover_window complete hlive] at htag
    obtain ⟨k, hk⟩ := List.mem_iff_getElem?.mp htag
    have hklt : k < r.age b.tag + 1 := by
      have hlen := (List.getElem?_eq_some_iff.mp hk).1
      rw [List.length_take] at hlen
      omega
    rw [List.getElem?_take_of_lt hklt] at hk
    have hage := hwf.age_eq_of_getElem? hk
    by_contra hne
    rw [Bool.not_eq_false, hwf.recoverYoungerMask_eq hlive] at hne
    omega
  simp only [stepRecover, completeBoth, Function.update_apply,
    completeLane_apply, hmask, Bool.false_eq_true, if_false]
  split
  · next heq => subst heq; simp only [hmask, Bool.false_eq_true, if_false]
  · rfl

theorem Wf.stepRecover_wf (hwf : r.Wf) (hlive : b.tag ∈ r.window) :
    (r.stepRecover b complete).Wf where
  count_le := by
    have hlt := (hwf.mem_window b.tag).mp hlive
    have hle := hwf.count_le
    simp only [stepRecover, hwf.recoverKeepCount_eq hlive]
    omega
  tail_eq := rfl
  valid_iff := by
    intro tag
    have hlt := (hwf.mem_window b.tag).mp hlive
    have hle := hwf.count_le
    have hmem : tag ∈ (r.stepRecover b complete).window ↔
        r.age tag < r.age b.tag + 1 := by
      unfold window stepRecover age
      rw [hwf.recoverKeepCount_eq hlive, Ring.mem_slots _ _ (by
        change r.age b.tag + 1 ≤ 16
        unfold depth at hle
        omega)]
      rfl
    by_cases htag : tag ∈ (r.stepRecover b complete).window
    · rw [hwf.stepRecover_entries complete hlive htag]
      simp only [htag, iff_true]
      have hvalid : (r.entries tag).valid = true := by
        rw [hwf.valid_iff, hwf.mem_window]
        rw [hmem] at htag
        omega
      have hframe := (completeBoth_frame (r := r)
        (r.recoverYoungerMask true b.tag) complete r.entries tag).2
      split <;> simp only [resolveEntry, hframe, hvalid]
    · simp only [htag, iff_false, Bool.not_eq_true]
      have hne : tag ≠ b.tag := by
        rintro rfl
        rw [hmem] at htag
        omega
      rw [hmem] at htag
      simp only [stepRecover, Function.update_of_ne hne]
      change (r.completeBoth _ complete _ tag).valid = false
      rw [(completeBoth_frame _ _ _ _).2]
      by_cases hmask : r.recoverYoungerMask true b.tag tag = true
      · simp only [hmask, if_true]
        rfl
      · simp only [hmask, Bool.false_eq_true, if_false]
        rw [hwf.recoverYoungerMask_eq hlive] at hmask
        rw [← Bool.not_eq_true, hwf.valid_iff]
        intro hwin
        exact hmask ⟨hwin, by omega⟩

end StepRecover

section StepNormal

variable (r : ReorderBuffer) (allocValid : Lane → Bool)
  (allocEntry : Lane → RobEntry) (complete : Lane → Completion)
  (b : BranchResolve) (commitReady : Lane → Bool)

/-- The lanes whose allocation the buffer accepts, in order. -/
def allocLanes : List Lane := [0, 1].filter (r.allocFire allocValid)

/-- The edge of the ring: what is offered, and what leaves. -/
def ports (commitReady : Lane → Bool) : DualRing depth where
  head := r.headPtr
  tail := r.tailPtr
  count := r.entryCount
  valid := allocValid
  leaving := r.commitAccepted commitReady

theorem allocTag_one : r.allocTag allocValid 1 =
    addPtr r.tailPtr (r.allocFire allocValid 0).toNat :=
  DualRing.tag_one (e := r.ports allocValid fun _ => false)

theorem allocAccepted_le (hcount : r.entryCount ≤ depth) :
    r.entryCount + r.allocAccepted allocValid ≤ depth :=
  DualRing.count_accepted_le (e := r.ports allocValid fun _ => false) hcount

theorem commitAccepted_le : r.commitAccepted commitReady ≤ r.entryCount ∧
    r.commitAccepted commitReady ≤ 2 := by
  unfold commitAccepted
  split
  · next h0 =>
    simp only [commitValid, laneComplete, Bool.and_eq_true,
      decide_eq_true_eq] at h0
    have hpos : 0 < r.entryCount := h0.1.1.1
    split
    · next h1 =>
      simp only [commitValid, laneComplete, Bool.and_eq_true,
        decide_eq_true_eq] at h1
      have htwo : 1 < r.entryCount := h1.1.2.1.1
      omega
    · omega
  · omega

/-- The branch resolution of an ordinary cycle. -/
def resolveAt (tag : RobTag) (e : RobEntry) : RobEntry :=
  if b.valid = true ∧ (r.entries b.tag).valid = true ∧ tag = b.tag then
    resolveEntry e b
  else e

theorem resolveAt_frame (tag : RobTag) (e : RobEntry) :
    (r.resolveAt b tag e).atDispatch = e.atDispatch ∧
      (r.resolveAt b tag e).valid = e.valid ∧
      (r.resolveAt b tag e).complete = e.complete ∧
      (r.resolveAt b tag e).exception = e.exception := by
  unfold resolveAt
  split <;> exact ⟨rfl, rfl, rfl, rfl⟩

/-- The entries after retirement and allocation. -/
def allocated : RobTag → RobEntry :=
  allocLane (r.allocFire allocValid 1) (r.allocTag allocValid 1)
    (allocEntry 1)
    (allocLane (r.allocFire allocValid 0) (r.allocTag allocValid 0)
      (allocEntry 0)
      (r.clearCommitted (r.commitAccepted commitReady) r.entries))

theorem stepNormal_entries (tag : RobTag) :
    (r.stepNormal allocValid allocEntry complete b commitReady).entries tag =
      r.resolveAt b tag (r.completeBoth (fun _ => false) complete
        (r.allocated allocValid allocEntry commitReady) tag) := by
  unfold stepNormal resolveAt
  by_cases hfire : b.valid = true ∧ (r.entries b.tag).valid = true
  · by_cases htag : tag = b.tag
    · subst htag
      simp only [hfire, and_self, if_true, Function.update_self]
      rfl
    · simp only [hfire, and_self, if_true, htag, and_false, if_false,
        Function.update_of_ne htag]
      rfl
  · rw [if_neg (fun h => hfire ⟨h.1, h.2.1⟩)]
    simp only [hfire, if_false]
    rfl

variable {r}

theorem Wf.ports (hwf : r.Wf) : (r.ports allocValid commitReady).Wf where
  two := by decide
  count_le := hwf.count_le
  tail_eq := hwf.tail_eq
  leaving_le := (r.commitAccepted_le commitReady).1
  leaving_two := (r.commitAccepted_le commitReady).2

theorem Wf.allocTag_not_mem (hwf : r.Wf) {l : Lane}
    (hfire : r.allocFire allocValid l = true) :
    r.allocTag allocValid l ∉ r.window :=
  (hwf.ports allocValid fun _ => false).tag_not_mem hfire

theorem allocated_eq : r.allocated allocValid allocEntry commitReady =
    (r.ports allocValid commitReady).entries default
      (fun l => allocWrite (allocEntry l)) r.entries := rfl

/-- Live tags that are not retired keep their entry through allocation. -/
theorem Wf.allocated_of_survivor (hwf : r.Wf) {tag : RobTag}
    (htag : tag ∈ r.window.drop (r.commitAccepted commitReady)) :
    r.allocated allocValid allocEntry commitReady tag = r.entries tag := by
  rw [allocated_eq]
  exact (hwf.ports allocValid commitReady).entries_of_survivor htag _ _ _

/-- An accepted lane writes its entry as given. -/
theorem Wf.allocated_of_lane (hwf : r.Wf) {l : Lane}
    (hfire : r.allocFire allocValid l = true) :
    r.allocated allocValid allocEntry commitReady (r.allocTag allocValid l) =
      allocWrite (allocEntry l) := by
  rw [allocated_eq]
  exact (hwf.ports allocValid commitReady).entries_of_tag hfire _ _ _

/-- Every other entry is invalid after allocation. -/
theorem Wf.allocated_invalid (hwf : r.Wf) {tag : RobTag}
    (hwin : tag ∉ r.window.drop (r.commitAccepted commitReady))
    (hnew : tag ∉ (r.allocLanes allocValid).map (r.allocTag allocValid)) :
    (r.allocated allocValid allocEntry commitReady tag).valid = false := by
  rw [allocated_eq]
  rcases (hwf.ports allocValid commitReady).entries_of_other hwin hnew default
    (fun l => allocWrite (allocEntry l)) r.entries with hempty | ⟨hsame, hout⟩
  · rw [hempty]
    rfl
  · rw [hsame, ← Bool.not_eq_true, hwf.valid_iff]
    exact hout

theorem Wf.stepNormal_window (hwf : r.Wf) :
    (r.stepNormal allocValid allocEntry complete b commitReady).window =
      r.window.drop (r.commitAccepted commitReady) ++
        (r.allocLanes allocValid).map (r.allocTag allocValid) :=
  (hwf.ports allocValid commitReady).window_next

/-- No completion or resolution reaches a slot that was not live. -/
theorem Wf.not_completes_of_not_mem (hwf : r.Wf) {tag : RobTag}
    (htag : tag ∉ r.window) (hidden : RobTag → Bool) (c : Completion) :
    ¬ r.completes hidden c tag = true := by
  intro hc
  simp only [completes, Bool.and_eq_true] at hc
  exact htag ((hwf.valid_iff tag).mp hc.1.2)

theorem Wf.stepNormal_survivor (hwf : r.Wf) {tag : RobTag}
    (htag : tag ∈ r.window.drop (r.commitAccepted commitReady)) :
    (r.stepNormal allocValid allocEntry complete b commitReady).entries tag =
      r.resolveAt b tag
        (r.completeBoth (fun _ => false) complete r.entries tag) := by
  rw [stepNormal_entries]
  unfold completeBoth
  rw [completeLane_apply, completeLane_apply, completeLane_apply,
    completeLane_apply,
    hwf.allocated_of_survivor allocValid allocEntry commitReady htag]

theorem Wf.stepNormal_new (hwf : r.Wf) {l : Lane}
    (hfire : r.allocFire allocValid l = true) :
    (r.stepNormal allocValid allocEntry complete b commitReady).entries
      (r.allocTag allocValid l) =
        allocWrite (allocEntry l) := by
  have hnot := hwf.allocTag_not_mem allocValid hfire
  rw [stepNormal_entries, completeBoth_of_not_completes
    (fun l => hwf.not_completes_of_not_mem hnot _ _), resolveAt, if_neg,
    hwf.allocated_of_lane allocValid allocEntry commitReady hfire]
  rintro ⟨-, hvalid, heq⟩
  rw [heq] at hnot
  exact hnot ((hwf.valid_iff _).mp hvalid)

theorem Wf.stepNormal_wf (hwf : r.Wf) :
    (r.stepNormal allocValid allocEntry complete b commitReady).Wf where
  count_le := by
    have h1 := r.allocAccepted_le allocValid hwf.count_le
    have h2 := (r.commitAccepted_le commitReady).1
    change r.entryCount + r.allocAccepted allocValid -
      r.commitAccepted commitReady ≤ depth
    omega
  tail_eq := (hwf.ports allocValid commitReady).tail_next
  valid_iff := by
    intro tag
    rw [hwf.stepNormal_window]
    by_cases hold : tag ∈ r.window.drop (r.commitAccepted commitReady)
    · rw [hwf.stepNormal_survivor allocValid allocEntry complete b commitReady
        hold, (r.resolveAt_frame b _ _).2.1, (completeBoth_frame _ _ _ _).2]
      have hvalid := (hwf.valid_iff tag).mpr (List.mem_of_mem_drop hold)
      simp [hvalid, hold]
    · by_cases hnew : tag ∈ (r.allocLanes allocValid).map
          (r.allocTag allocValid)
      · rw [List.mem_append]
        simp only [hnew, or_true, iff_true]
        obtain ⟨l, hl, rfl⟩ := List.mem_map.mp hnew
        have hfire : r.allocFire allocValid l = true :=
          (List.mem_filter.mp hl).2
        rw [hwf.stepNormal_new allocValid allocEntry complete b commitReady
          hfire]
        rfl
      · rw [stepNormal_entries, (r.resolveAt_frame b _ _).2.1,
          (completeBoth_frame _ _ _ _).2,
          hwf.allocated_invalid allocValid allocEntry commitReady hold hnew]
        simp only [Bool.false_eq_true, List.mem_append, hold, hnew, or_self]

end StepNormal

end ReorderBuffer

end OoOCore
