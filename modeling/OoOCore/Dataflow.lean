/-
Dataflow: an instruction that has left the issue queue for an integer unit ran
on what the program-order producers of its sources wrote back, and everything
the core keeps of it is what the unit computed from these values.
-/
import OoOCore.IntegerExecution
import OoOCore.LsqForwarding
import OoOCore.Resolution

namespace OoOCore

/-- The fault an entry records. -/
def RobEntry.fault (e : RobEntry) : Option (Cause × Word) :=
  if e.exception then some (e.exceptionCause, e.exceptionValue) else none

/-- The fault a completion reports. -/
def Completion.fault (c : Completion) : Option (Cause × Word) :=
  if c.exception then some (c.cause, c.value) else none

theorem Completion.fault_eq_none {c : Completion} :
    c.fault = none ↔ c.exception = false := by
  rw [fault]
  cases c.exception <;> simp

theorem RobEntry.fault_eq_none {e : RobEntry} :
    e.fault = none ↔ e.exception = false := by
  rw [fault]
  cases e.exception <;> simp

namespace ReorderBuffer

/-- The fault a completion lane leaves, the later lane last. -/
theorem completeBoth_fault (r : ReorderBuffer) (hidden : RobTag → Bool)
    (complete : Lane → Completion) (next : RobTag → RobEntry) (tag : RobTag) :
    (∃ l, r.completes hidden (complete l) tag = true ∧
        (r.completeBoth hidden complete next tag).fault =
          (complete l).fault) ∨
      ((∀ l, ¬ r.completes hidden (complete l) tag = true) ∧
        (r.completeBoth hidden complete next tag).fault = (next tag).fault) := by
  unfold completeBoth
  rw [completeLane_apply, completeLane_apply]
  by_cases h1 : r.completes hidden (complete 1) tag = true
  · rw [if_pos h1]
    exact Or.inl ⟨1, h1, rfl⟩
  · rw [if_neg h1]
    by_cases h0 : r.completes hidden (complete 0) tag = true
    · rw [if_pos h0]
      exact Or.inl ⟨0, h0, rfl⟩
    · rw [if_neg h0]
      refine Or.inr ⟨?_, rfl⟩
      intro l
      rcases lane_cases l with rfl | rfl
      · exact h0
      · exact h1

/-- Resolving a branch records no fault. -/
theorem resolveAt_fault (r : ReorderBuffer) (b : BranchResolve) (tag : RobTag)
    (e : RobEntry) : (r.resolveAt b tag e).fault = e.fault := by
  unfold resolveAt
  split <;> rfl

end ReorderBuffer

namespace Backend

section Faults

variable {s : Backend} {i : Inputs}

/-- The fault of a survivor: that of the lane that completes it, or the one it
had. -/
theorem RobReady.step_fault (hs : s.RobReady i) (hc : s.Countable)
    (htrap : s.trapValid i = false) {tag : RobTag}
    (hold : tag ∈ s.rob.window) (hnew : tag ∈ (s.step i).rob.window) :
    (∃ l, (s.robComplete l).valid = true ∧ (s.robComplete l).robTag = tag ∧
        ((s.step i).rob.entries tag).fault = (s.robComplete l).fault) ∨
      ((∀ l, ¬ ((s.robComplete l).valid = true ∧
          (s.robComplete l).robTag = tag)) ∧
        ((s.step i).rob.entries tag).fault = (s.rob.entries tag).fault) := by
  have hentry : ∃ hidden, hidden tag = false ∧
      ((s.step i).rob.entries tag).fault =
        (s.rob.completeBoth hidden s.robComplete s.rob.entries tag).fault := by
    cases hrec : s.recoveryValid i with
    | true =>
        have hmask := ((hs.mem_step_window_recover htrap hrec tag).mp hnew).2
        refine ⟨s.recoveryYoungerMask i, hmask, ?_⟩
        rw [s.step_rob_recover i htrap hrec] at hnew ⊢
        have hmaskEq : s.rob.recoverYoungerMask true (s.branchResolve i).tag =
            s.recoveryYoungerMask i := by
          rw [recoveryYoungerMask, hrec]
          rfl
        rw [hs.wf.stepRecover_entries _ (hs.recover_live hrec) hnew, hmaskEq]
        split <;> rfl
    | false =>
        have hsurvives : tag ∈ s.rob.window.drop
            (s.rob.commitAccepted (s.robRetireValid i)) := by
          rw [hs.step_window_normal hc htrap hrec, List.mem_append] at hnew
          rw [s.commitAccepted_eq]
          rcases hnew with h | h
          · exact h
          · obtain ⟨l, hl, rfl⟩ := List.mem_map.mp h
            rw [mem_newLanes, ← hc.robAllocFire] at hl
            exact absurd hold (hs.wf.allocTag_not_mem _ hl)
        refine ⟨fun _ => false, rfl, ?_⟩
        rw [s.step_rob_normal i htrap hrec, hs.wf.stepNormal_survivor _ _ _ _ _
          hsurvives]
        exact s.rob.resolveAt_fault _ _ _
  obtain ⟨hidden, hhidden, heq⟩ := hentry
  have hlanes := hs.completes_iff hold hhidden
  rw [heq]
  rcases s.rob.completeBoth_fault hidden s.robComplete s.rob.entries tag with
    ⟨l, hl, hfault⟩ | ⟨hnone, hfault⟩
  · obtain ⟨hvalid, htag⟩ := (hlanes l).mp hl
    exact Or.inl ⟨l, hvalid, htag, hfault⟩
  · exact Or.inr ⟨fun l hl => hnone l ((hlanes l).mpr hl), hfault⟩

/-- An entry that has not completed has no fault. -/
def OpenClean (s : Backend) : Prop :=
  ∀ tag ∈ s.rob.window, (s.rob.entries tag).complete = false →
    (s.rob.entries tag).fault = none

theorem Reachable.openClean {s : Backend} (h : s.Reachable) :
    s.OpenClean := by
  induction h with
  | reset =>
      intro tag hlive
      cases hlive
  | @step s hreach i ih =>
      intro tag hnew hopen
      have htrap := not_trap_of_live hnew
      have hc := hreach.countable
      have hs : s.RobReady i := hreach.inFlight.robReady
      by_cases hold : tag ∈ s.rob.window
      · have hcomplete := (hs.step_survivor hc htrap hold hnew).2
        rw [← Bool.not_eq_true, hcomplete, not_or, Bool.not_eq_true]
          at hopen
        rcases hs.step_fault hc htrap hold hnew with
          ⟨l, hvalid, htag, -⟩ | ⟨-, hfault⟩
        · exact absurd (Or.inl ⟨l, hvalid, htag⟩) hopen.2
        · rw [hfault]
          exact ih tag hold hopen.1
      · obtain ⟨hrec, l, hl, rfl⟩ := hs.step_new hc hold hnew
        rw [(hs.step_dispatched hc htrap hrec hl).2.2]
        rfl

end Faults

section Places

variable {s : Backend} {i : Inputs}

/-- The instruction at the tag is still in the issue queue. -/
def Waiting (s : Backend) (tag : RobTag) : Prop :=
  ∃ j, (s.iq.entries j).valid = true ∧ (s.iq.entries j).robTag = tag

/-- The LSU holds memory operations only. -/
def MemoryUnit (s : Backend) : Prop :=
  ∀ p h, s.heldAt p = some h → (p = .lsu ∨ ∃ tag, p = .pending tag) →
    s.isMemoryTag h.robTag = true

theorem heldAt_iq_some {j : IqIndex} {h : Held}
    (hheld : s.heldAt (.iq j) = some h) :
    (s.iq.entries j).valid = true ∧ h = (s.iq.entries j).held := by
  rw [heldAt] at hheld
  split at hheld
  · next hvalid => exact ⟨hvalid, (Option.some.inj hheld).symm⟩
  · cases hheld

theorem MemoryUnit.step (hu : s.MemoryUnit) (hs : s.InFlight)
    (hc : s.Countable) : (s.step i).MemoryUnit := by
  intro q h' hheld hq
  have htrap := not_trap_of_held hheld
  rcases heldAt_step htrap hheld with hmoved | ⟨l, j, rfl, -, -⟩
  · obtain ⟨hold, hnew, -⟩ := hs.moved hc htrap hmoved
    rw [hs.robReady.step_isMemory hc htrap hold hnew]
    obtain ⟨p, h, hbefore, hmoves, hfollows, -⟩ := hmoved
    rw [hfollows.robTag]
    cases p with
    | iq j =>
        obtain ⟨hvalid, rfl⟩ := heldAt_iq_some hbefore
        change s.isMemoryTag (s.iq.entries j).robTag = true
        rcases s.moves_iq_cases i hmoves with ⟨hj, -, hmem, -⟩ |
          ⟨-, -, -, rfl⟩ | ⟨-, -, rfl⟩ | ⟨-, -, rfl⟩ | ⟨rfl, -⟩
        · obtain ⟨j', hj', hclass⟩ := s.candidate0_choice hmem
          rw [hj] at hj'
          cases hj'
          rw [isMemoryTag, (hs.paired j hvalid).memory.1, hclass]
          rfl
        all_goals
          rcases hq with hq | ⟨tag, hq⟩ <;> cases hq
    | primary =>
        rw [moves] at hmoves
        split at hmoves
        · cases hmoves
        · cases hmoves
          rcases hq with hq | ⟨tag, hq⟩ <;> cases hq
    | secondary => cases hmoves
    | lsu => cases hmoves
    | pending tag => exact hu _ h hbefore (Or.inr ⟨tag, rfl⟩)
  · rcases hq with hq | ⟨tag, hq⟩ <;> cases hq

theorem Reachable.memoryUnit {s : Backend} (h : s.Reachable) :
    s.MemoryUnit := by
  induction h with
  | reset =>
      intro p h hheld
      rw [reset_heldAt] at hheld
      cases hheld
  | step h i ih => exact ih.step h.inFlight h.countable

/-- The port at the input of an integer unit. -/
def unitPort (s : Backend) (i : Inputs) : Place → IssuePort
  | .primary => s.primaryPort i
  | _ => s.secondaryPort i

/-- The fallback reaches the primary unit as it was chosen. -/
theorem primaryPort_fallback {j : IqIndex}
    (hj : s.issueSelection.fallback = some j)
    (hready : s.issueFallbackReady = true) :
    s.primaryPort i = s.fallbackPort i := by
  simp only [issueFallbackReady, Bool.and_eq_true] at hready
  obtain ⟨⟨hmem, hactive⟩, -⟩ := hready
  have hclass : s.issueFallbackUop.fuClass = .integer := by
    rw [issueFallbackUop, hj]
    exact (s.iq.select_fallback_candidate _ hj).2
  have huop : { s.issueFallbackUop with fuClass := FuClass.integer } =
      s.issueFallbackUop := by
    rw [← hclass]
  rw [primaryPort, BackendExecuteStage.primaryPort, hmem, if_pos rfl, hactive]
  simp only [fallbackPort, issuePort, Bool.and_true, huop, if_true]

/-- An integer instruction leaves the queue through the port of its unit. -/
theorem accepts_unitPort {j : IqIndex} {q : Place}
    (hmoves : s.moves i (.iq j) = some q) (hleaves : q ≠ .iq j)
    (hclass : (s.iq.entries j).fuClass ≠ .memory) :
    s.Accepts i j (s.unitPort i q) ∧
      ((q = .primary ∧ s.exec.pReady = true) ∨ q = .secondary) := by
  rcases s.moves_iq_cases i hmoves with ⟨hj, -, hmem, -⟩ |
    ⟨hj, hready, hmem, rfl⟩ | ⟨hj, hready, rfl⟩ | ⟨hj, hready, rfl⟩ | ⟨rfl, -⟩
  · obtain ⟨j', hj', hmemory⟩ := s.candidate0_choice hmem
    rw [hj] at hj'
    cases hj'
    exact absurd hmemory hclass
  · have hport : s.primaryPort i = s.issuePort i 0 := by
      rw [primaryPort, BackendExecuteStage.primaryPort, hmem,
        if_neg Bool.false_ne_true]
    refine ⟨?_, Or.inl ⟨rfl, ?_⟩⟩
    · change s.Accepts i j (s.primaryPort i)
      rw [hport]
      exact Accepts.port 0 j hj hready
    · rw [issueReady, hmem, if_neg Bool.false_ne_true] at hready
      exact hready
  · exact ⟨Accepts.port 1 j hj hready, Or.inr rfl⟩
  · refine ⟨?_, Or.inl ⟨rfl, ?_⟩⟩
    · change s.Accepts i j (s.primaryPort i)
      rw [primaryPort_fallback hj hready]
      exact Accepts.fallback j hj hready
    · rw [issueFallbackReady, Bool.and_eq_true] at hready
      exact hready.2
  · exact absurd rfl hleaves

/-- The unit holds what it computes from its port. -/
theorem completionAt_unitPort (htrap : s.trapValid i = false) {q : Place}
    (hq : (q = .primary ∧ s.exec.pReady = true) ∨ q = .secondary)
    {c : Completion} (hc : (s.step i).completionAt q = some c) :
    c = OoOExecutionUnit.execute (s.unitPort i q) := by
  rcases hq with ⟨rfl, hready⟩ | rfl
  · simp only [completionAt] at hc
    split at hc
    · cases hc
      rw [s.step_primary i htrap, hready, if_pos rfl]
      rfl
    · cases hc
  · simp only [completionAt] at hc
    split at hc
    · cases hc
      exact s.step_secondary i htrap
    · cases hc

end Places

/-- The port carries the uop of an entry and the values that the producers of
its source registers wrote back. -/
structure Fed (result : Nat → Option Word) (producer : ArchReg → Option Nat)
    (e : RobEntry) (p : IssuePort) : Prop where
  valid : p.valid = true
  uop : p.uop.Paired e
  source1 : p.uop.useRs1 = true →
    Produced result p.sourceA (producer (decoder e.origin.insn).rs1)
  source2 : p.uop.useRs2 = true →
    Produced result p.sourceB (producer (decoder e.origin.insn).rs2)

/-- What the core keeps of the instruction at a tag is what its unit computed
from the port. -/
structure Computed (s : Backend) (h : History) (tag : RobTag)
    (p : IssuePort) : Prop where
  fed : Fed h.result (s.producerOf h tag) (s.rob.entries tag) p
  completion : ∀ q c, s.completionAt q = some c → c.robTag = tag →
    c = OoOExecutionUnit.execute p
  fault : (s.rob.entries tag).complete = true →
    (s.rob.entries tag).fault = (OoOExecutionUnit.execute p).fault
  result : ∀ value, h.result (s.uidAt tag) = some value →
    value = OoOExecutionUnit.selectedResult p
  outcome : s.isBranchTag tag = true →
    OoOExecutionUnit.executeException p = false →
    (s.rob.entries tag).outcome =
      ⟨OoOExecutionUnit.branchTaken p, OoOExecutionUnit.branchTarget p⟩

section Feeding

variable {s : Backend} {i : Inputs} {h : History}

/-- The instruction behind an accepted port. -/
theorem InFlight.accepts_entry (hs : s.InFlight) {j : IqIndex}
    {p : IssuePort} (ha : s.Accepts i j p) :
    p.uop.Paired (s.rob.entries (s.iq.entries j).robTag) ∧
      p.uop.robTag = (s.iq.entries j).robTag ∧
      p.uop.origin = (s.rob.entries (s.iq.entries j).robTag).origin := by
  have hport := ha.portOf
  obtain ⟨r1, r2, huop⟩ := hport.entry
  have hentry := IssueQueue.readyEntry_valid _ hport.ready
  rw [huop]
  refine ⟨(hs.paired j hentry).withReady r1 r2, rfl, ?_⟩
  exact (hs.matched _ _ (s.heldAt_iq hentry)).origin.symm

/-- The first source of an accepted instruction. -/
theorem Traced.accepts_source1 (ht : s.Traced h) {j : IqIndex}
    {p : IssuePort} (ha : s.Accepts i j p) (huse : p.uop.useRs1 = true) :
    Produced (s.observe i h).result p.sourceA
      (s.producerOf h (s.iq.entries j).robTag
        (decoder (s.rob.entries (s.iq.entries j).robTag).origin.insn).rs1) := by
  obtain ⟨-, htag, horigin⟩ := ht.reachable.inFlight.accepts_entry ha
  rw [← horigin, ← htag]
  exact ht.delivers_produced ((ht.operandsDelivered ha).source1 huse)

/-- An accepted integer instruction gets what its producers wrote back. -/
theorem Traced.accepts_fed (ht : s.Traced h) {j : IqIndex} {p : IssuePort}
    (ha : s.Accepts i j p) (hvalid : p.valid = true)
    (hclass : (s.iq.entries j).fuClass ≠ .memory) :
    Fed (s.observe i h).result (s.producerOf h (s.iq.entries j).robTag)
      (s.rob.entries (s.iq.entries j).robTag) p := by
  have hoperands := ht.operandsDelivered ha
  obtain ⟨hpaired, htag, horigin⟩ :=
    ht.reachable.inFlight.accepts_entry ha
  constructor
  · exact hvalid
  · exact hpaired
  · exact ht.accepts_source1 ha
  · intro huse
    have hready : p.uop.src2Ready = true := by
      by_contra hopen
      rw [Bool.not_eq_true] at hopen
      obtain ⟨r1, r2, huop⟩ := ha.portOf.entry
      apply hclass
      have hmem := (hoperands.pending hopen).1
      rw [huop] at hmem
      exact hmem
    rw [← horigin, ← htag]
    exact ht.delivers_produced (hoperands.source2 huse hready)

/-- What feeds an instruction stays while it is live. -/
theorem Fed.step (ht : s.Traced h) (htrap : s.trapValid i = false)
    {tag : RobTag} (hold : tag ∈ s.rob.window)
    (hnew : tag ∈ (s.step i).rob.window) {p : IssuePort}
    (hf : Fed (s.observe i h).result (s.producerOf h tag)
      (s.rob.entries tag) p) :
    Fed (s.observe i h).result
      ((s.step i).producerOf (s.observe i h) tag)
      ((s.step i).rob.entries tag) p := by
  have hs : s.RobReady i := ht.reachable.inFlight.robReady
  have hc := ht.reachable.countable
  have hframe := (hs.step_survivor hc htrap hold hnew).1
  have horigin := congrArg RobEntry.origin hframe
  change ((s.step i).rob.entries tag).origin =
    (s.rob.entries tag).origin at horigin
  constructor
  · exact hf.valid
  · exact hf.uop.of_atDispatch hframe
  · intro huse
    rw [hs.step_producerOf hc htrap hold hnew, horigin]
    exact hf.source1 huse
  · intro huse
    rw [hs.step_producerOf hc htrap hold hnew, horigin]
    exact hf.source2 huse

theorem Fed.observe (ht : s.Traced h) {producer : ArchReg → Option Nat}
    {e : RobEntry} {p : IssuePort} (hf : Fed h.result producer e p) :
    Fed (s.observe i h).result producer e p where
  valid := hf.valid
  uop := hf.uop
  source1 := fun huse => ht.produced_kept (hf.source1 huse)
  source2 := fun huse => ht.produced_kept (hf.source2 huse)

end Feeding

section Leaving

variable {s : Backend} {i : Inputs} {h : History}

/-- A recovery that spares a waiting instruction's tag and completes it is its
own: the instruction resolves. -/
theorem InFlight.resolves_moved (hs : s.InFlight) {j : IqIndex} {q : Place}
    (hvalid : (s.iq.entries j).valid = true)
    (hmoves : s.moves i (.iq j) = some q)
    (hres : (s.branch i).resolved = true)
    (htag : (s.branch i).robTag = (s.iq.entries j).robTag) :
    q = .secondary ∧ s.branch i = OoOExecutionUnit.branchReport
        (s.secondaryPort i) true ∧
      OoOExecutionUnit.executeException (s.secondaryPort i) = false := by
  obtain ⟨j', hvalid', hmoves', htag', -⟩ := s.resolved_held i hres
  have hplace := hs.distinct (.iq j') (.iq j) _ _ (s.heldAt_iq hvalid')
    (s.heldAt_iq hvalid) (htag'.trans htag)
  cases hplace
  rw [hmoves'] at hmoves
  cases hmoves
  have hreport := hres
  rw [branch_resolved] at hreport
  refine ⟨rfl, s.branch_eq_of_resolved i hreport, ?_⟩
  simp only [OoOExecutionUnit.branchResolved, Bool.and_eq_true,
    Bool.not_eq_true'] at hreport
  exact hreport.1.2

/-- A waiting instruction that lives on and no longer waits has left. -/
theorem InFlight.leaves (hs : s.InFlight) (htrap : s.trapValid i = false)
    {j : IqIndex} (hvalid : (s.iq.entries j).valid = true)
    (hnew : (s.iq.entries j).robTag ∈ (s.step i).rob.window)
    (hleft : ¬ (s.step i).Waiting (s.iq.entries j).robTag) :
    ∃ q, s.moves i (.iq j) = some q ∧ q ≠ .iq j := by
  have hmask := hs.robReady.survivor_unmasked htrap hnew
  obtain ⟨q, hmoves⟩ : ∃ q, s.moves i (.iq j) = some q := by
    rw [moves]
    repeat' split
    all_goals exact ⟨_, rfl⟩
  refine ⟨q, hmoves, ?_⟩
  rintro rfl
  obtain ⟨h', hheld', htag⟩ :=
    heldAt_forward htrap (s.heldAt_iq hvalid) hmoves hmask
  obtain ⟨hvalid', rfl⟩ := heldAt_iq_some hheld'
  exact hleft ⟨j, hvalid', htag⟩

/-- An integer instruction that leaves the queue is computed from its port. -/
theorem Traced.computed_leaving (ht : s.Traced h)
    (htrap : s.trapValid i = false) {j : IqIndex} {q : Place}
    (hvalid : (s.iq.entries j).valid = true)
    (hmoves : s.moves i (.iq j) = some q) (hleaves : q ≠ .iq j)
    (hclass : (s.iq.entries j).fuClass ≠ .memory)
    (hnew : (s.iq.entries j).robTag ∈ (s.step i).rob.window) :
    (s.step i).Computed (s.observe i h) (s.iq.entries j).robTag
      (s.unitPort i q) := by
  have hreach := ht.reachable
  have hs := hreach.inFlight
  have hc := hreach.countable
  have hheld := s.heldAt_iq hvalid
  have hold : (s.iq.entries j).robTag ∈ s.rob.window := hs.live _ _ hheld
  obtain ⟨haccepts, hunit⟩ := accepts_unitPort hmoves hleaves hclass
  have hmask := hs.robReady.survivor_unmasked htrap hnew
  have hportValid : (s.unitPort i q).valid = true := by
    obtain ⟨h', hheld', -⟩ := heldAt_forward htrap hheld hmoves hmask
    rcases hunit with ⟨rfl, hready⟩ | rfl
    · obtain ⟨hvis, -⟩ := heldAt_eq_some hheld'
      rw [s.step_visible i htrap, s.step_primary i htrap, hready, if_pos rfl,
        Bool.and_eq_true] at hvis
      exact hvis.1
    · obtain ⟨hvis, -⟩ := heldAt_eq_some hheld'
      rw [s.step_visible i htrap, s.step_secondary i htrap,
        Bool.and_eq_true] at hvis
      exact hvis.1
  have hfed := (ht.accepts_fed haccepts hportValid hclass).step ht htrap hold
    hnew
  have hopen := hs.incomplete_of_moves hheld hmoves
  constructor
  · exact hfed
  · intro q' c hcompletion htag
    have hheld' := completionAt_held hcompletion
    have hsame : q' = q := by
      obtain ⟨g, hg, hgtag⟩ := heldAt_forward htrap hheld hmoves hmask
      exact (hreach.step i).inFlight.distinct q' q _ _ hheld' hg
        (htag.trans hgtag.symm)
    subst hsame
    exact completionAt_unitPort htrap hunit hcompletion
  · intro hdone
    rcases ((hs.robReady (i := i)).step_survivor hc htrap hold hnew).2.mp hdone
      with hbefore | hlane | ⟨hrec, htag⟩
    · exact absurd (hopen.symm.trans hbefore) Bool.false_ne_true
    · exact absurd hlane (hs.not_completed hheld hmoves)
    · -- A recovery completes its own branch.
      obtain ⟨rfl, -, hclean⟩ := hs.resolves_moved hvalid hmoves
        (s.recovery_resolved i hrec) htag.symm
      rcases hs.robReady.step_fault hc htrap hold hnew with
        ⟨l, hlvalid, hltag, -⟩ | ⟨-, hfault⟩
      · exact absurd ⟨l, hlvalid, hltag⟩ (hs.not_completed hheld hmoves)
      · rw [hfault, hreach.openClean _ hold hopen]
        exact (Completion.fault_eq_none.mpr hclean).symm
  · intro value hresult
    have huid := hs.robReady.step_uid hc htrap hold hnew
    rw [uidAt, huid] at hresult
    change (s.written (s.uidAt (s.iq.entries j).held.robTag)).or
      (h.result (s.uidAt (s.iq.entries j).held.robTag)) = some value at hresult
    rw [hreach.written_moved hheld hmoves, ht.unwritten.held _ _ hheld]
      at hresult
    cases hresult
  · intro hbranch hclean
    rw [hs.robReady.step_isBranch hc htrap hold hnew] at hbranch
    have hq : q = .secondary := by
      rcases moves_branch hmoves ((hs.paired j hvalid).fuClass hbranch) with
        rfl | rfl
      · rfl
      · exact absurd rfl hleaves
    subst hq
    have huop : (s.secondaryPort i).uop.robTag = (s.iq.entries j).robTag := by
      obtain ⟨r1, r2, heq⟩ := haccepts.portOf.entry
      change (s.secondaryPort i).uop = _ at heq
      rw [heq]
      rfl
    obtain ⟨hres, htag⟩ := hs.secondary_resolves hportValid
      (by rw [huop]; exact hbranch) hclean
    rw [huop] at htag
    rw [hs.robReady.step_outcome hc htrap hold hnew,
      if_pos ⟨hres, htag.symm⟩,
      (hs.resolves_moved hvalid hmoves hres htag).2.1]
    rfl

end Leaving

section Staying

variable {s : Backend} {i : Inputs} {h : History} {tag : RobTag}
  {p : IssuePort}

/-- What an instruction writes back is what its unit computed. -/
theorem Computed.written (hp : s.Computed h tag p) (ht : s.Traced h)
    (hold : tag ∈ s.rob.window) {value : Word}
    (hresult : (s.observe i h).result (s.uidAt tag) = some value) :
    value = OoOExecutionUnit.selectedResult p := by
  change (s.written (s.uidAt tag)).or (h.result (s.uidAt tag)) = some value
    at hresult
  rw [Option.or_eq_some_iff] at hresult
  rcases hresult with hnow | ⟨-, hbefore⟩
  · obtain ⟨l, hlane⟩ := written_source hnow
    obtain ⟨hvalid, howner, huid⟩ := ht.reachable.laneResult_source hlane
    have htag : (s.robComplete l).robTag = tag :=
      ht.reachable.uidOrder.injective _ howner _ hold huid
    obtain ⟨q, hq⟩ := complete_at hvalid
    have hcompletion := hp.completion q _ hq htag
    rw [laneResult] at hlane
    split at hlane
    · have hdata : (s.robComplete l).writebackData = value :=
        Option.some.inj hlane
      rw [← hdata, hcompletion]
      rfl
    · cases hlane
  · exact hp.result value hbefore

/-- No branch resolves that has left the queue. -/
theorem not_resolving (hleft : ¬ s.Waiting tag) :
    ¬ ((s.branch i).resolved = true ∧ tag = (s.branch i).robTag) := by
  rintro ⟨hres, rfl⟩
  obtain ⟨j, hvalid, -, htag, -⟩ := s.resolved_held i hres
  exact hleft ⟨j, hvalid, htag⟩

/-- An integer instruction past the queue stays what it computed. -/
theorem Computed.step (hp : s.Computed h tag p) (ht : s.Traced h)
    (htrap : s.trapValid i = false) (hold : tag ∈ s.rob.window)
    (hnew : tag ∈ (s.step i).rob.window)
    (hinteger : s.isMemoryTag tag = false) (hleft : ¬ s.Waiting tag) :
    (s.step i).Computed (s.observe i h) tag p := by
  have hreach := ht.reachable
  have hs := hreach.inFlight
  have hc := hreach.countable
  have hready : s.RobReady i := hs.robReady
  constructor
  · exact (hp.fed.observe ht).step ht htrap hold hnew
  · intro q c hcompletion htag
    have hheld := completionAt_held hcompletion
    rcases heldAt_step htrap hheld with hmoved | ⟨l, j, rfl, -, -⟩
    · obtain ⟨q0, h0, hbefore, hmoves, hfollows, -⟩ := hmoved
      have h0tag : h0.robTag = tag := hfollows.robTag.symm.trans htag
      cases q0 with
      | iq j =>
          obtain ⟨hvalid, rfl⟩ := heldAt_iq_some hbefore
          exact absurd ⟨j, hvalid, h0tag⟩ hleft
      | primary =>
          rw [moves] at hmoves
          split at hmoves
          · cases hmoves
          · next hbusy =>
            cases hmoves
            rw [Bool.not_eq_true] at hbusy
            have hvis := (s.primary_of_not_ready hbusy).1
            simp only [completionAt] at hcompletion
            split at hcompletion
            · cases hcompletion
              rw [s.step_primary i htrap, hbusy, if_neg Bool.false_ne_true]
                at htag ⊢
              exact hp.completion .primary _ (if_pos hvis) htag
            · cases hcompletion
      | secondary => cases hmoves
      | lsu => cases hmoves
      | pending t =>
          have hmem := hreach.memoryUnit _ _ hbefore (Or.inr ⟨t, rfl⟩)
          rw [h0tag, hinteger] at hmem
          cases hmem
    · cases hcompletion
  · intro hdone
    rcases hready.step_fault hc htrap hold hnew with
      ⟨l, hvalid, htag, hfault⟩ | ⟨hnone, hfault⟩
    · obtain ⟨q, hq⟩ := complete_at hvalid
      rw [hfault, hp.completion q _ hq htag]
    · rw [hfault]
      rcases (hready.step_survivor hc htrap hold hnew).2.mp hdone with
        hbefore | ⟨l, hl⟩ | ⟨hrec, htag⟩
      · exact hp.fault hbefore
      · exact absurd hl (hnone l)
      · exact absurd ⟨s.recovery_resolved i hrec, htag⟩
          (not_resolving hleft)
  · intro value hresult
    rw [uidAt, hready.step_uid hc htrap hold hnew] at hresult
    exact hp.written ht hold hresult
  · intro hbranch hclean
    rw [hready.step_isBranch hc htrap hold hnew] at hbranch
    rw [hready.step_outcome hc htrap hold hnew,
      if_neg (not_resolving hleft)]
    exact hp.outcome hbranch hclean

end Staying

section Runs

variable {s : Backend} {i : Inputs} {h : History}

/-- A new instruction waits in the issue queue. -/
theorem Reachable.waiting_new (hreach : s.Reachable) {tag : RobTag}
    (hold : tag ∉ s.rob.window) (hnew : tag ∈ (s.step i).rob.window) :
    (s.step i).Waiting tag := by
  have hs := hreach.inFlight
  have hc := hreach.countable
  have htrap := not_trap_of_live hnew
  obtain ⟨hrec, l, hl, rfl⟩ := hs.robReady.step_new hc hold hnew
  have hfire := hl
  rw [← hc.iqDispatchFire] at hfire
  obtain ⟨j, hslot⟩ := s.iq.dispatchSlot_some _ hfire
  have hentry : (s.step i).iq.entries j =
      IssueQueue.dispatchEntry s.prfWriteback (s.renamedUop i l) := by
    rw [step_iq_normal htrap hrec]
    exact s.iq.stepNormal_dispatched _ _ _ _ hslot
  refine ⟨j, ?_, ?_⟩
  · rw [hentry]
    exact (hc.renamedUop_valid i l).trans hl
  · rw [hentry]
    rfl

/-- Every live integer instruction past the queue is what its unit computed. -/
def DataflowLive (s : Backend) (h : History) : Prop :=
  ∀ tag ∈ s.rob.window, s.isMemoryTag tag = false → ¬ s.Waiting tag →
    ∃ p, s.Computed h tag p

theorem Traced.dataflowLive (ht : s.Traced h) : s.DataflowLive h := by
  induction ht with
  | reset =>
      intro tag hlive
      cases hlive
  | @step s h ht i ih =>
      intro tag hnew hinteger hleft
      have hreach := ht.reachable
      have hs := hreach.inFlight
      have hc := hreach.countable
      have htrap := not_trap_of_live hnew
      by_cases hold : tag ∈ s.rob.window
      · rw [hs.robReady.step_isMemory hc htrap hold hnew] at hinteger
        by_cases hwait : s.Waiting tag
        · obtain ⟨j, hvalid, rfl⟩ := hwait
          obtain ⟨q, hmoves, hleaves⟩ := hs.leaves htrap hvalid hnew hleft
          have hclass : (s.iq.entries j).fuClass ≠ .memory := by
            intro hclass
            rw [isMemoryTag, (hs.paired j hvalid).memory.1, hclass] at hinteger
            cases hinteger
          exact ⟨_, ht.computed_leaving htrap hvalid hmoves hleaves hclass hnew⟩
        · obtain ⟨p, hp⟩ := ih tag hold hinteger hwait
          exact ⟨p, hp.step ht htrap hold hnew hinteger hwait⟩
      · exact absurd (hreach.waiting_new hold hnew) hleft

end Runs

end Backend

end OoOCore
