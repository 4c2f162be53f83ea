/-
How branches resolve.  A branch leaves the issue queue on port 1 and reports its
direction and its target in that cycle, once in its life; the ROB keeps what it
reported, over the ordinary path and over recovery, until the branch retires.
-/
import OoOCore.LoadValues

namespace OoOCore

/-- Where a control transfer turned out to go. -/
structure BranchOutcome where
  taken : Bool
  target : Word
deriving DecidableEq, Repr

/-- The outcomes by dispatch number. -/
abbrev Outcomes := Nat → Option BranchOutcome

/-- What the ROB keeps of a resolution. -/
def RobEntry.outcome (e : RobEntry) : BranchOutcome where
  taken := e.branchTaken
  target := e.branchTarget

def BranchReport.outcome (b : BranchReport) : BranchOutcome where
  taken := b.taken
  target := b.target

/-- The entry holds the outcome of its own branch. -/
def RobEntry.Resolved (e : RobEntry) (o : Outcomes) : Prop :=
  o e.origin.uid = some e.outcome

namespace ReorderBuffer

/-- Completion leaves the outcome alone. -/
theorem completeBoth_outcome (r : ReorderBuffer) (hidden : RobTag → Bool)
    (complete : Lane → Completion) (next : RobTag → RobEntry) (tag : RobTag) :
    (r.completeBoth hidden complete next tag).outcome = (next tag).outcome := by
  unfold completeBoth
  rw [completeLane_apply, completeLane_apply]
  split <;> split <;> rfl

end ReorderBuffer

namespace Backend

/-- The ROB entry at the tag is a control transfer. -/
def isBranchTag (s : Backend) (tag : RobTag) : Bool :=
  (s.rob.entries tag).isBranch

/-- The outcomes one cycle later. -/
def resolve (s : Backend) (i : Inputs) (o : Outcomes) : Outcomes :=
  if (s.branch i).resolved then
    Function.update o (s.branch i).origin.uid (some (s.branch i).outcome)
  else o

variable {s : Backend} {i : Inputs} {o : Outcomes}

section Units

/-- A branch issues on port 1 only. -/
theorem moves_branch {j : IqIndex} {q : Place}
    (hmoves : s.moves i (.iq j) = some q)
    (hclass : (s.iq.entries j).fuClass = .branch) :
    q = .secondary ∨ q = .iq j := by
  rcases s.moves_iq_cases i hmoves with ⟨hj, -, -, -⟩ | ⟨hj, -, -, -⟩ |
    ⟨-, -, rfl⟩ | ⟨hj, -, -⟩ | ⟨rfl, -⟩
  · exact absurd hclass (s.iq.select_port0_not_branch _ hj)
  · exact absurd hclass (s.iq.select_port0_not_branch _ hj)
  · exact Or.inl rfl
  · have hinteger := (s.iq.select_fallback_candidate _ hj).2
    rw [hclass] at hinteger
    cases hinteger
  · exact Or.inr rfl

/-- Past the issue queue, a branch is in the secondary unit. -/
def BranchUnit (s : Backend) : Prop :=
  ∀ p h, s.heldAt p = some h → s.isBranchTag h.robTag = true →
    p = .secondary ∨ ∃ j, p = .iq j

theorem RobReady.step_isBranch (hs : s.RobReady i) (hc : s.Countable)
    (htrap : s.trapValid i = false) {tag : RobTag}
    (hold : tag ∈ s.rob.window) (hnew : tag ∈ (s.step i).rob.window) :
    (s.step i).isBranchTag tag = s.isBranchTag tag := by
  have hframe := (hs.step_survivor hc htrap hold hnew).1
  have hbranch := congrArg RobEntry.isBranch hframe
  exact hbranch

theorem BranchUnit.step (hb : s.BranchUnit) (hs : s.InFlight)
    (hc : s.Countable) : (s.step i).BranchUnit := by
  intro p h' hheld hbranch
  have htrap := not_trap_of_held hheld
  rcases heldAt_step htrap hheld with hmoved | ⟨l, j, rfl, -, -⟩
  · obtain ⟨hold, hnew, -⟩ := hs.moved hc htrap hmoved
    rw [hs.robReady.step_isBranch hc htrap hold hnew] at hbranch
    obtain ⟨p0, h0, hheld0, hmoves, hfollows, -⟩ := hmoved
    rw [hfollows.robTag] at hbranch
    rcases hb p0 h0 hheld0 hbranch with rfl | ⟨j, rfl⟩
    · cases hmoves
    · obtain ⟨hvalid, rfl⟩ : (s.iq.entries j).valid = true ∧
          h0 = (s.iq.entries j).held := by
        rw [heldAt] at hheld0
        split at hheld0
        · next hvalid => exact ⟨hvalid, (Option.some.inj hheld0).symm⟩
        · cases hheld0
      rcases moves_branch hmoves ((hs.paired j hvalid).fuClass hbranch) with
        rfl | rfl
      · exact Or.inl rfl
      · exact Or.inr ⟨j, rfl⟩
  · exact Or.inr ⟨j, rfl⟩

theorem Reachable.branchUnit (h : s.Reachable) : s.BranchUnit := by
  induction h with
  | reset =>
      intro p h hheld
      rw [reset_heldAt] at hheld
      cases hheld
  | step h i ih => exact ih.step h.inFlight h.countable

/-- A branch completes from the register of the secondary unit. -/
theorem BranchUnit.complete_secondary (hb : s.BranchUnit) {l : Lane}
    (hvalid : (s.robComplete l).valid = true)
    (hbranch : s.isBranchTag (s.robComplete l).robTag = true) :
    s.completionAt .secondary = some (s.robComplete l) := by
  obtain ⟨p, hp⟩ := complete_at hvalid
  rcases hb p _ (completionAt_held hp) hbranch with rfl | ⟨j, rfl⟩
  · exact hp
  · cases hp

end Units

section Outcome

/-- The entry a resolution names is live, open and its own. -/
theorem InFlight.resolved_entry (hs : s.InFlight)
    (hres : (s.branch i).resolved = true) :
    (s.branch i).robTag ∈ s.rob.window ∧
      (s.rob.entries (s.branch i).robTag).complete = false ∧
      (s.rob.entries (s.branch i).robTag).origin = (s.branch i).origin := by
  obtain ⟨j, hvalid, hmoves, htag, horigin, -⟩ := s.resolved_held i hres
  have hheld := s.heldAt_iq hvalid
  rw [← htag, ← horigin]
  exact ⟨hs.live _ _ hheld, hs.incomplete_of_moves hheld hmoves,
    (hs.matched _ _ hheld).origin⟩

/-- A survivor changes its outcome exactly when its branch resolves. -/
theorem RobReady.step_outcome (hs : s.RobReady i) (hc : s.Countable)
    (htrap : s.trapValid i = false) {tag : RobTag}
    (hold : tag ∈ s.rob.window) (hnew : tag ∈ (s.step i).rob.window) :
    ((s.step i).rob.entries tag).outcome =
      if (s.branch i).resolved = true ∧ tag = (s.branch i).robTag then
        (s.branch i).outcome
      else (s.rob.entries tag).outcome := by
  cases hrec : s.recoveryValid i with
  | true =>
      rw [s.step_rob_recover i htrap hrec] at hnew ⊢
      rw [hs.wf.stepRecover_entries _ (hs.recover_live hrec) hnew]
      by_cases htag : tag = (s.branch i).robTag
      · rw [if_pos (show tag = (s.branchResolve i).tag from htag),
          if_pos ⟨s.recovery_resolved i hrec, htag⟩]
        rfl
      · rw [if_neg (show ¬ tag = (s.branchResolve i).tag from htag),
          if_neg fun h => htag h.2]
        exact s.rob.completeBoth_outcome _ _ _ _
  | false =>
      have hsurvives : tag ∈ s.rob.window.drop
          (s.rob.commitAccepted (s.robRetireValid i)) := by
        rw [hs.step_window_normal hc htrap hrec, List.mem_append] at hnew
        rw [s.commitAccepted_eq]
        rcases hnew with h | h
        · exact h
        · obtain ⟨l, hl, rfl⟩ := List.mem_map.mp h
          rw [mem_newLanes, ← hc.robAllocFire] at hl
          exact absurd hold (hs.wf.allocTag_not_mem _ hl)
      rw [s.step_rob_normal i htrap hrec, hs.wf.stepNormal_survivor _ _ _ _ _
        hsurvives, ReorderBuffer.resolveAt]
      by_cases hres : (s.branch i).resolved = true ∧ tag = (s.branch i).robTag
      · obtain ⟨hvalid, rfl⟩ := hres
        rw [if_pos ⟨hvalid, (hs.wf.valid_iff _).mpr hold, rfl⟩,
          if_pos ⟨hvalid, rfl⟩]
        rfl
      · rw [if_neg fun h => hres ⟨h.1, h.2.2⟩, if_neg hres]
        exact s.rob.completeBoth_outcome _ _ _ _

/-- The outcome of a dispatch that does not resolve stays. -/
theorem resolve_of_ne {uid : Nat} (hne : (s.branch i).resolved = true →
    (s.branch i).origin.uid ≠ uid) : s.resolve i o uid = o uid := by
  unfold resolve
  split
  · next hres => exact Function.update_of_ne (hne hres).symm _ _
  · rfl

/-- A survivor whose branch resolves, or has resolved, holds the outcome. -/
theorem step_resolved (hreach : s.Reachable) (htrap : s.trapValid i = false)
    {tag : RobTag} (hold : tag ∈ s.rob.window)
    (hnew : tag ∈ (s.step i).rob.window)
    (hres : ((s.branch i).resolved = true ∧ tag = (s.branch i).robTag) ∨
      (s.rob.entries tag).Resolved o) :
    ((s.step i).rob.entries tag).Resolved (s.resolve i o) := by
  have hs := hreach.inFlight
  have hready : s.RobReady i := hs.robReady
  unfold RobEntry.Resolved
  rw [hready.step_outcome hreach.countable htrap hold hnew,
    hready.step_uid hreach.countable htrap hold hnew]
  by_cases hnow : (s.branch i).resolved = true ∧ tag = (s.branch i).robTag
  · rw [if_pos hnow]
    obtain ⟨hvalid, rfl⟩ := hnow
    rw [(hs.resolved_entry hvalid).2.2, resolve, if_pos hvalid,
      Function.update_self]
  · rw [if_neg hnow]
    have hbefore : (s.rob.entries tag).Resolved o := hres.resolve_left hnow
    rw [resolve_of_ne]
    · exact hbefore
    · intro hvalid huid
      obtain ⟨hlive, -, horigin⟩ := hs.resolved_entry hvalid
      rw [← horigin] at huid
      exact hnow ⟨hvalid, (hreach.uidOrder.injective _ hlive _ hold huid).symm⟩

end Outcome

section Recording

/-- A branch that the secondary unit executes without a fault resolves. -/
theorem InFlight.secondary_resolves (hs : s.InFlight)
    (hvalid : (s.secondaryPort i).valid = true)
    (hbranch : s.isBranchTag (s.secondaryPort i).uop.robTag = true)
    (hclean : OoOExecutionUnit.executeException (s.secondaryPort i) = false) :
    (s.branch i).resolved = true ∧
      (s.branch i).robTag = (s.secondaryPort i).uop.robTag := by
  obtain ⟨j, hj, hlive, -, huop⟩ := s.secondaryPort_source i hvalid
  have htag : (s.secondaryPort i).uop.robTag = (s.iq.entries j).robTag :=
    congrArg Held.robTag huop
  rw [htag] at hbranch
  have hclass : (s.secondaryPort i).uop.fuClass = .branch := by
    change (s.issueUop 1).fuClass = .branch
    rw [s.issueUop_of_choice hj]
    exact (hs.paired j hlive).fuClass hbranch
  have hres : OoOExecutionUnit.branchResolved (s.secondaryPort i) true =
      true := by
    rw [OoOExecutionUnit.branchResolved, hvalid, hclean, hclass]
    rfl
  refine ⟨(s.branch_resolved i).trans hres, ?_⟩
  rw [s.branch_eq_of_resolved i hres]
  rfl

/-- What the outcomes say of the branches under way: none before it issues,
its own once it has been executed without a fault. -/
structure Recorded (s : Backend) (o : Outcomes) : Prop where
  fresh : ∀ uid, s.nextUid ≤ uid → o uid = none
  queued : ∀ j, (s.iq.entries j).valid = true →
    o (s.iq.entries j).origin.uid = none
  executed : ∀ c, s.completionAt .secondary = some c →
    s.isBranchTag c.robTag = true → c.exception = false →
    (s.rob.entries c.robTag).Resolved o
  completed : ∀ tag ∈ s.rob.window, s.isBranchTag tag = true →
    (s.rob.entries tag).complete = true →
    (s.rob.entries tag).exception = false → (s.rob.entries tag).Resolved o

theorem Recorded.reset : reset.Recorded fun _ => none where
  fresh := fun _ _ => rfl
  queued := fun _ _ => rfl
  executed := fun _ h => absurd h.symm (Option.some_ne_none _)
  completed := fun _ h => absurd h List.not_mem_nil

theorem resolved_uid_lt (hreach : s.Reachable)
    (hres : (s.branch i).resolved = true) :
    (s.branch i).origin.uid < s.nextUid := by
  obtain ⟨hlive, -, horigin⟩ := hreach.inFlight.resolved_entry hres
  rw [← horigin]
  exact hreach.uidOrder.lt_next _ hlive

theorem Recorded.step_fresh (h : s.Recorded o) (hreach : s.Reachable)
    {uid : Nat} (huid : s.nextUid ≤ uid) : s.resolve i o uid = none := by
  rw [resolve_of_ne]
  · exact h.fresh uid huid
  · intro hres heq
    have hlt := resolved_uid_lt hreach hres
    omega

/-- A branch resolves in the cycle in which it leaves the queue, and no uop
that stays has its number. -/
theorem Recorded.step_queued (h : s.Recorded o) (hreach : s.Reachable)
    {j : IqIndex} (hvalid : ((s.step i).iq.entries j).valid = true) :
    s.resolve i o ((s.step i).iq.entries j).origin.uid = none := by
  have hs := hreach.inFlight
  have htrap := not_trap_of_held ((s.step i).heldAt_iq hvalid)
  rcases iq_step htrap hvalid with ⟨l, hd, heq⟩ | ⟨hold, hmoves, -, heq⟩
  · rw [heq]
    exact h.step_fresh hreach
      (laneUid_bounds (hreach.countable.dispatchedTo_accepted hd)).1
  · rw [heq]
    change s.resolve i o (s.iq.entries j).origin.uid = none
    rw [resolve_of_ne]
    · exact h.queued j hold
    · intro hres huid
      obtain ⟨j', hvalid', hmoves', -, horigin, -⟩ :=
        s.resolved_held i hres
      have hheld := s.heldAt_iq hold
      have hheld' := s.heldAt_iq hvalid'
      have htag := hreach.uidOrder.injective _ (hs.live _ _ hheld') _
        (hs.live _ _ hheld) (by
          rw [(hs.matched _ _ hheld).origin, (hs.matched _ _ hheld').origin]
          exact (congrArg Origin.uid horigin).trans huid)
      have hsame := hs.distinct _ _ _ _ hheld' hheld htag
      rw [hsame, hmoves] at hmoves'
      cases hmoves'

theorem Recorded.step_executed (hreach : s.Reachable) {c : Completion}
    (hc : (s.step i).completionAt .secondary = some c)
    (hbranch : (s.step i).isBranchTag c.robTag = true)
    (hclean : c.exception = false) :
    ((s.step i).rob.entries c.robTag).Resolved (s.resolve i o) := by
  have hs := hreach.inFlight
  have hheld := completionAt_held hc
  have htrap := not_trap_of_held hheld
  obtain ⟨hold, hnew, -⟩ :=
    hs.moved hreach.countable htrap (movedTo_secondary htrap hheld)
  change c.robTag ∈ _ at hold hnew
  rw [hs.robReady.step_isBranch hreach.countable htrap hold hnew] at hbranch
  obtain ⟨hvis, hc⟩ : (s.step i).exec.visible (s.step i).exec.secondary =
      true ∧ (s.step i).exec.secondary = c := by
    rw [completionAt] at hc
    split at hc
    · next hvis => exact ⟨hvis, Option.some.inj hc⟩
    · cases hc
  rw [BackendExecuteStage.visible, Bool.and_eq_true] at hvis
  rw [s.step_secondary i htrap] at hvis hc
  subst hc
  obtain ⟨hres, htag⟩ := hs.secondary_resolves hvis.1 hbranch hclean
  exact step_resolved hreach htrap hold hnew (Or.inl ⟨hres, htag.symm⟩)

theorem Recorded.step_completed (h : s.Recorded o) (hreach : s.Reachable)
    {tag : RobTag} (hnew : tag ∈ (s.step i).rob.window)
    (hbranch : (s.step i).isBranchTag tag = true)
    (hdone : ((s.step i).rob.entries tag).complete = true)
    (hclean : ((s.step i).rob.entries tag).exception = false) :
    ((s.step i).rob.entries tag).Resolved (s.resolve i o) := by
  have hs := hreach.inFlight
  have hc := hreach.countable
  have htrap := not_trap_of_live hnew
  by_cases hold : tag ∈ s.rob.window
  · rw [hs.robReady.step_isBranch hc htrap hold hnew] at hbranch
    apply step_resolved hreach htrap hold hnew
    rcases hs.robReady.step_faultless hc htrap hold hnew hclean with
      ⟨l, hvalid, rfl, hfault⟩ | ⟨hnone, hfault⟩
    · right
      exact h.executed _
        (hreach.branchUnit.complete_secondary hvalid hbranch) hbranch hfault
    · rcases (hs.robReady.step_survivor hc htrap hold hnew).2.mp hdone with
        hbefore | ⟨l, hl⟩ | ⟨hrec, htag⟩
      · exact Or.inr (h.completed tag hold hbranch hbefore hfault)
      · exact absurd hl (hnone l)
      · exact Or.inl ⟨s.recovery_resolved i hrec, htag⟩
  · obtain ⟨hrec, l, hl, rfl⟩ := hs.robReady.step_new hc hold hnew
    rw [(hs.robReady.step_dispatched hc htrap hrec hl).2.2] at hdone
    cases hdone

theorem Recorded.step (h : s.Recorded o) (hreach : s.Reachable) :
    (s.step i).Recorded (s.resolve i o) where
  fresh := fun _ huid => h.step_fresh hreach (nextUid_le.trans huid)
  queued := fun _ hvalid => h.step_queued hreach hvalid
  executed := fun _ hc hbranch hclean =>
    Recorded.step_executed hreach hc hbranch hclean
  completed := fun _ hnew hbranch hdone hclean =>
    h.step_completed hreach hnew hbranch hdone hclean

end Recording

end Backend

end OoOCore
