/-
Where a uop can be between dispatch and completion: an issue-queue slot, one of
the three completion registers, or an LSU pending slot.  `moves` says where the
content of a place goes on an edge without a flush; the lemmas below show that
the clock edge moves uops along `moves` and creates none.
-/
import OoOCore.ControlFlow
import OoOCore.Dispatch
import OoOCore.IssueStep
import OoOCore.RobWindow

namespace OoOCore

/-- A place that can hold a uop after dispatch. -/
inductive Place where
  | iq (j : IqIndex)
  | primary
  | secondary
  | lsu
  | pending (tag : RobTag)
deriving DecidableEq, Repr

/-- What every place remembers of its uop; `writes` is set while the uop may
still write `dest`. -/
structure Held where
  robTag : RobTag
  origin : Origin
  writes : Bool
  dest : PhysReg
deriving DecidableEq, Repr

/-- `h'` is the same uop as `h`, possibly with its register write dropped by an
exception. -/
structure Held.Follows (h' h : Held) : Prop where
  robTag : h'.robTag = h.robTag
  origin : h'.origin = h.origin
  writes : h'.writes = true → h.writes = true ∧ h'.dest = h.dest

theorem Held.Follows.refl (h : Held) : h.Follows h :=
  ⟨rfl, rfl, fun hw => ⟨hw, rfl⟩⟩

def Uop.held (u : Uop) : Held where
  robTag := u.robTag
  origin := u.origin
  writes := u.registerWriteEnable && decide (u.destPhys ≠ 0)
  dest := u.destPhys

def Completion.held (c : Completion) : Held where
  robTag := c.robTag
  origin := c.origin
  writes := c.writebackValid
  dest := c.writebackPhys

def LoadStoreExecutionUnit.pendingHeld (u : LoadStoreExecutionUnit)
    (tag : RobTag) : Held where
  robTag := tag
  origin := u.pendingOrigin tag
  writes := u.pendingRegisterWrite tag && decide (u.pendingDestPhys tag ≠ 0)
  dest := u.pendingDestPhys tag

namespace LoadStoreExecutionUnit

variable (u : LoadStoreExecutionUnit) (x : LsuInputs)

/-- The slot a cache load takes. -/
theorem step_pending_started (hstart : u.startsLoad x = true) :
    (u.step x).pendingValid x.uop.robTag = true ∧
      (u.step x).pendingKilled x.uop.robTag = false ∧
      (u.step x).pendingHeld x.uop.robTag = x.uop.held ∧
      (u.step x).pendingAddress x.uop.robTag = address x := by
  simp only [step, pendingHeld, hstart, if_true, Function.update_self]
  exact ⟨trivial, trivial, rfl, trivial⟩

/-- A slot that no load takes keeps its fields; a response frees it, a flush
or a recovery marks it. -/
theorem step_pending_other {tag : RobTag}
    (hother : u.startsLoad x = true → tag ≠ x.uop.robTag) :
    (u.step x).pendingHeld tag = u.pendingHeld tag ∧
      (u.step x).pendingAddress tag = u.pendingAddress tag ∧
      (u.step x).pendingValid tag =
        (u.pendingValid tag &&
          !(u.responseFire x && decide (x.response.id = tag))) ∧
      (u.step x).pendingKilled tag =
        if (u.responseFire x && decide (x.response.id = tag)) = true then false
        else if u.pendingValid tag = true ∧
            (x.flush = true ∨ removes x tag = true) then true
        else u.pendingKilled tag := by
  by_cases hst : u.startsLoad x = true
  · have hne := hother hst
    simp only [step, pendingHeld, hst, if_true, Function.update_of_ne hne]
    by_cases hr : u.responseFire x = true
    · by_cases hid : x.response.id = tag
      · subst hid
        simp [hr]
      · have hid' : tag ≠ x.response.id := fun h => hid h.symm
        simp [hr, hid, Function.update_of_ne hid']
    · simp [hr]
  · simp only [step, pendingHeld, hst]
    by_cases hr : u.responseFire x = true
    · by_cases hid : x.response.id = tag
      · subst hid
        simp [hr]
      · have hid' : tag ≠ x.response.id := fun h => hid h.symm
        simp [hr, hid, Function.update_of_ne hid']
    · simp [hr]

end LoadStoreExecutionUnit

namespace Backend

section Definitions

variable (s : Backend) (i : Inputs)

/-- The uop a place holds: completion registers count unless the recovery
filter covers them, pending slots unless they are killed. -/
def heldAt : Place → Option Held
  | .iq j => if (s.iq.entries j).valid then some (s.iq.entries j).held else none
  | .primary =>
      if s.exec.visible s.exec.primary then some s.exec.primary.held else none
  | .secondary =>
      if s.exec.visible s.exec.secondary then some s.exec.secondary.held
      else none
  | .lsu =>
      if s.exec.visible s.exec.memory.completion then
        some s.exec.memory.completion.held
      else none
  | .pending tag =>
      if s.exec.memory.pendingValid tag && !s.exec.memory.pendingKilled tag then
        some (s.exec.memory.pendingHeld tag)
      else none

/-- Where the content of a place goes on an edge without a flush. -/
def moves : Place → Option Place
  | .iq j =>
      if s.issueChoice 0 = some j ∧ s.issueReady i 0 = true then
        if s.candidate0IsMemory then
          if LoadStoreExecutionUnit.normalCacheLoad (s.lsuInputs i) then
            some (.pending (s.iq.entries j).robTag)
          else some .lsu
        else some .primary
      else if s.issueChoice 1 = some j ∧ s.issueReady i 1 = true then
        some .secondary
      else if s.issueSelection.fallback = some j ∧
          s.issueFallbackReady = true then some .primary
      else some (.iq j)
  | .primary => if s.exec.pReady then none else some .primary
  | .secondary => none
  | .lsu => none
  | .pending tag =>
      if i.response.valid = true ∧ i.response.id = tag then some .lsu
      else some (.pending tag)

end Definitions

section IssueFacts

variable (s : Backend) (i : Inputs)

theorem issueChoice_ready {l : Lane} {j : IqIndex}
    (hj : s.issueChoice l = some j) :
    IssueQueue.readyEntry s.prfWriteback (s.iq.entries j) = true := by
  match l, hj with
  | 0, hj => exact s.iq.select_port0_ready _ hj
  | 1, hj => exact (s.iq.select_port1_candidate _ hj).1

theorem issueChoice_valid {l : Lane} {j : IqIndex}
    (hj : s.issueChoice l = some j) : (s.iq.entries j).valid = true :=
  IssueQueue.readyEntry_valid _ (s.issueChoice_ready hj)

theorem fallback_valid {j : IqIndex}
    (hj : s.issueSelection.fallback = some j) :
    (s.iq.entries j).valid = true :=
  IssueQueue.readyEntry_valid _ (s.iq.select_fallback_candidate _ hj).1

theorem issueChoice_one_ne {j : IqIndex} (hj : s.issueChoice 1 = some j) :
    s.issueChoice 0 ≠ some j :=
  s.iq.select_port1_ne_port0 _ hj

theorem fallback_ne {j : IqIndex} (hj : s.issueSelection.fallback = some j)
    (l : Lane) : s.issueChoice l ≠ some j := by
  match l with
  | 0 => exact (s.iq.select_fallback_ne _ hj).1
  | 1 => exact (s.iq.select_fallback_ne _ hj).2

theorem issueReady_one : s.issueReady i 1 = true := by
  simp [issueReady, sReady_eq_true]

theorem issueUop_held {l : Lane} {j : IqIndex}
    (hj : s.issueChoice l = some j) :
    (s.issueUop l).held = (s.iq.entries j).held := by
  rw [s.issueUop_of_choice hj]
  rfl

theorem issueUop_robTag {l : Lane} {j : IqIndex}
    (hj : s.issueChoice l = some j) :
    (s.issueUop l).robTag = (s.iq.entries j).robTag := by
  rw [s.issueUop_of_choice hj]
  rfl

theorem fallbackUop_held {j : IqIndex}
    (hj : s.issueSelection.fallback = some j) :
    s.issueFallbackUop.held = (s.iq.entries j).held := by
  simp only [issueFallbackUop, hj, IssueQueue.fallbackUop]
  rfl

theorem candidate0_choice (h : s.candidate0IsMemory = true) :
    ∃ j, s.issueChoice 0 = some j ∧
      (s.iq.entries j).fuClass = .memory := by
  simp only [candidate0IsMemory, issueValid, Bool.and_eq_true,
    beq_iff_eq] at h
  obtain ⟨j, hj⟩ := Option.isSome_iff_exists.mp h.1
  refine ⟨j, hj, ?_⟩
  have hclass := h.2
  rw [s.issueUop_of_choice hj] at hclass
  exact hclass

/-- The moves of an entry that does not leave the queue. -/
theorem moves_iq_of_stays {j : IqIndex}
    (hstays : IssueQueue.leaves s.issueSelection (s.issueReady i)
      s.issueFallbackReady j = false) : s.moves i (.iq j) = some (.iq j) := by
  simp only [IssueQueue.leaves, Bool.or_eq_false_iff, Bool.and_eq_false_iff,
    decide_eq_false_iff_not] at hstays
  obtain ⟨⟨h0, h1⟩, hf⟩ := hstays
  have h0' : ¬ (s.issueChoice 0 = some j ∧ s.issueReady i 0 = true) := by
    rintro ⟨hc, hr⟩
    rcases h0 with h | h
    · exact h hc
    · rw [hr] at h
      exact absurd h (by decide)
  have h1' : ¬ (s.issueChoice 1 = some j ∧ s.issueReady i 1 = true) := by
    rintro ⟨hc, hr⟩
    rcases h1 with h | h
    · exact h hc
    · rw [hr] at h
      exact absurd h (by decide)
  have hf' : ¬ (s.issueSelection.fallback = some j ∧
      s.issueFallbackReady = true) := by
    rintro ⟨hc, hr⟩
    rcases hf with h | h
    · exact h hc
    · rw [hr] at h
      exact absurd h (by decide)
  rw [moves, if_neg h0', if_neg h1', if_neg hf']

/-- Where an entry goes: to the LSU, to the integer unit behind port 0, to that
behind port 1, to the first one by the fallback, or nowhere, and then no
handshake accepted it. -/
theorem moves_iq_cases {j : IqIndex} {q : Place}
    (hmoves : s.moves i (.iq j) = some q) :
    (s.issueChoice 0 = some j ∧ s.issueReady i 0 = true ∧
      s.candidate0IsMemory = true ∧
      q = if LoadStoreExecutionUnit.normalCacheLoad (s.lsuInputs i) then
          .pending (s.iq.entries j).robTag
        else .lsu) ∨
    (s.issueChoice 0 = some j ∧ s.issueReady i 0 = true ∧
      s.candidate0IsMemory = false ∧ q = .primary) ∨
    (s.issueChoice 1 = some j ∧ s.issueReady i 1 = true ∧ q = .secondary) ∨
    (s.issueSelection.fallback = some j ∧ s.issueFallbackReady = true ∧
      q = .primary) ∨
    (q = .iq j ∧ IssueQueue.leaves s.issueSelection (s.issueReady i)
      s.issueFallbackReady j = false) := by
  rw [moves] at hmoves
  by_cases h0 : s.issueChoice 0 = some j ∧ s.issueReady i 0 = true
  · rw [if_pos h0] at hmoves
    cases hmem : s.candidate0IsMemory with
    | true =>
        refine Or.inl ⟨h0.1, h0.2, rfl, ?_⟩
        rw [hmem, if_pos rfl] at hmoves
        split at hmoves
        · next hnormal =>
          rw [if_pos hnormal]
          exact (Option.some.inj hmoves).symm
        · next hlocal =>
          rw [if_neg hlocal]
          exact (Option.some.inj hmoves).symm
    | false =>
        rw [hmem, if_neg Bool.false_ne_true] at hmoves
        exact Or.inr (Or.inl ⟨h0.1, h0.2, rfl, (Option.some.inj hmoves).symm⟩)
  rw [if_neg h0] at hmoves
  by_cases h1 : s.issueChoice 1 = some j ∧ s.issueReady i 1 = true
  · rw [if_pos h1] at hmoves
    exact Or.inr (Or.inr (Or.inl ⟨h1.1, h1.2, (Option.some.inj hmoves).symm⟩))
  rw [if_neg h1] at hmoves
  by_cases hf : s.issueSelection.fallback = some j ∧
      s.issueFallbackReady = true
  · rw [if_pos hf] at hmoves
    exact Or.inr (Or.inr (Or.inr (Or.inl
      ⟨hf.1, hf.2, (Option.some.inj hmoves).symm⟩)))
  rw [if_neg hf] at hmoves
  refine Or.inr (Or.inr (Or.inr (Or.inr
    ⟨(Option.some.inj hmoves).symm, ?_⟩)))
  change ((decide (s.issueChoice 0 = some j) && s.issueReady i 0) ||
    (decide (s.issueChoice 1 = some j) && s.issueReady i 1) ||
    (decide (s.issueSelection.fallback = some j) &&
      s.issueFallbackReady)) = false
  rw [← Bool.not_eq_true, Bool.or_eq_true, Bool.or_eq_true, Bool.and_eq_true,
    Bool.and_eq_true, Bool.and_eq_true, decide_eq_true_eq, decide_eq_true_eq,
    decide_eq_true_eq]
  rintro ((h | h) | h)
  · exact h0 h
  · exact h1 h
  · exact hf h

end IssueFacts

section ExecuteFacts

variable (s : Backend) (i : Inputs)

theorem step_visible (htrap : s.trapValid i = false) (c : Completion) :
    (s.step i).exec.visible c =
      (c.valid && !s.recoveryYoungerMask i c.robTag) := by
  unfold BackendExecuteStage.visible BackendExecuteStage.allowed
  change (c.valid && (!(!s.trapValid i && s.recoveryValid i) ||
    !(if s.trapValid i then fun _ => false else s.recoveryYoungerMask i)
      c.robTag)) = _
  rw [htrap]
  cases hrec : s.recoveryValid i with
  | true => simp
  | false =>
      have hmask : s.recoveryYoungerMask i c.robTag = false := by
        rw [recoveryYoungerMask, hrec]
        exact ReorderBuffer.recoverYoungerMask_false _
      simp [hmask]

theorem step_primary (htrap : s.trapValid i = false) :
    (s.step i).exec.primary =
      if s.exec.pReady then OoOExecutionUnit.execute (s.primaryPort i)
      else s.exec.primary := by
  change OoOExecutionUnit.step s.exec.primary (s.trapValid i)
    s.exec.pCompletionReady (s.primaryPort i) = _
  rw [OoOExecutionUnit.step, htrap]
  rfl

theorem step_secondary (htrap : s.trapValid i = false) :
    (s.step i).exec.secondary =
      OoOExecutionUnit.execute (s.secondaryPort i) := by
  change OoOExecutionUnit.step s.exec.secondary (s.trapValid i) true
    (s.secondaryPort i) = _
  rw [OoOExecutionUnit.step, htrap]
  simp [OoOExecutionUnit.issueReady]

/-- A held primary result is neither filtered nor consumed. -/
theorem primary_of_not_ready (hready : s.exec.pReady = false) :
    s.exec.visible s.exec.primary = true ∧
      s.exec.visible s.exec.memory.completion = true := by
  simp only [BackendExecuteStage.pReady, OoOExecutionUnit.issueReady,
    Bool.or_eq_false_iff, BackendExecuteStage.pCompletionReady,
    Bool.not_eq_false', Bool.and_eq_false_iff] at hready
  obtain ⟨hvalid, hmem, hkill⟩ := hready
  refine ⟨?_, hmem⟩
  rw [BackendExecuteStage.visible, hvalid, Bool.true_and]
  rcases hkill with h | h
  · rw [hvalid] at h
    exact absurd h (by decide)
  · exact h

/-- A visible primary result that is consumed owns completion lane 0. -/
theorem memory_not_visible_of_primary (hready : s.exec.pReady = true)
    (hvis : s.exec.visible s.exec.primary = true) :
    s.exec.visible s.exec.memory.completion = false := by
  rw [BackendExecuteStage.visible, Bool.and_eq_true] at hvis
  simp only [BackendExecuteStage.pReady, OoOExecutionUnit.issueReady, hvis.1,
    Bool.not_true, Bool.false_or, BackendExecuteStage.pCompletionReady,
    hvis.2, Bool.and_false, Bool.or_false, Bool.not_eq_true'] at hready
  exact hready

/-- The uop at the primary input and the move that brings it there. -/
theorem primaryPort_source (hready : s.exec.pReady = true)
    (hvalid : (s.primaryPort i).valid = true) :
    ∃ j, (s.iq.entries j).valid = true ∧
      s.moves i (.iq j) = some .primary ∧
      (s.primaryPort i).uop.held = (s.iq.entries j).held := by
  by_cases hmem : s.candidate0IsMemory = true
  · have hport : s.primaryPort i =
        { s.fallbackPort i with
          valid := s.issueFallbackValid && s.fallbackActive
          uop := { s.issueFallbackUop with fuClass := .integer } } := by
      simp [primaryPort, BackendExecuteStage.primaryPort, hmem, fallbackPort,
        issuePort]
    rw [hport] at hvalid ⊢
    simp only [Bool.and_eq_true, issueFallbackValid] at hvalid
    obtain ⟨j, hj⟩ := Option.isSome_iff_exists.mp hvalid.1
    refine ⟨j, s.fallback_valid hj, ?_, ?_⟩
    · rw [moves, if_neg (fun h => s.fallback_ne hj 0 h.1),
        if_neg (fun h => s.fallback_ne hj 1 h.1), if_pos]
      exact ⟨hj, by simp [issueFallbackReady, hmem, hvalid.2, hready]⟩
    · rw [← s.fallbackUop_held hj]
      rfl
  · have hport : s.primaryPort i = s.issuePort i 0 := by
      simp [primaryPort, BackendExecuteStage.primaryPort, hmem]
    rw [hport] at hvalid ⊢
    obtain ⟨j, hj⟩ := Option.isSome_iff_exists.mp hvalid
    refine ⟨j, s.issueChoice_valid hj, ?_, s.issueUop_held hj⟩
    rw [moves, if_pos ⟨hj, by simp [issueReady, hmem, hready]⟩, if_neg hmem]

/-- The uop at the secondary input. -/
theorem secondaryPort_source (hvalid : (s.secondaryPort i).valid = true) :
    ∃ j, s.issueChoice 1 = some j ∧ (s.iq.entries j).valid = true ∧
      s.moves i (.iq j) = some .secondary ∧
      (s.secondaryPort i).uop.held = (s.iq.entries j).held := by
  obtain ⟨j, hj⟩ := Option.isSome_iff_exists.mp hvalid
  refine ⟨j, hj, s.issueChoice_valid hj, ?_, s.issueUop_held hj⟩
  rw [moves, if_neg (fun h => s.issueChoice_one_ne hj h.1),
    if_pos ⟨hj, s.issueReady_one i⟩]

/-- The memory uop that issues, and the move it makes. -/
theorem lsu_issueFire_source
    (hfire : s.exec.memory.issueFire (s.lsuInputs i) = true) :
    ∃ j, s.issueChoice 0 = some j ∧ (s.iq.entries j).fuClass = .memory ∧
      s.moves i (.iq j) =
        if LoadStoreExecutionUnit.normalCacheLoad (s.lsuInputs i) then
          some (.pending (s.iq.entries j).robTag)
        else some .lsu := by
  simp only [LoadStoreExecutionUnit.issueFire, Bool.and_eq_true] at hfire
  have hissue : s.candidate0IsMemory = true ∧ s.fallbackActive = false := by
    simpa [lsuInputs] using hfire.1
  obtain ⟨j, hj, hclass⟩ := s.candidate0_choice hissue.1
  refine ⟨j, hj, hclass, ?_⟩
  have hready : s.issueReady i 0 = true := by
    simp [issueReady, hissue.1, hissue.2, hfire.2]
  rw [moves, if_pos ⟨hj, hready⟩, if_pos hissue.1]

/-- Executing keeps the uop, and drops its write on an exception. -/
theorem execute_follows (p : IssuePort) :
    (OoOExecutionUnit.execute p).held.Follows p.uop.held where
  robTag := rfl
  origin := rfl
  writes := by
    intro h
    simp only [Completion.held, OoOExecutionUnit.execute,
      Bool.and_eq_true] at h
    exact ⟨by simp [Uop.held, h.1.2, h.2], rfl⟩

theorem localCompletion_follows (x : LsuInputs) :
    (LoadStoreExecutionUnit.localCompletion x).held.Follows x.uop.held where
  robTag := rfl
  origin := rfl
  writes := by
    intro h
    simp only [Completion.held, LoadStoreExecutionUnit.localCompletion,
      Bool.and_eq_true] at h
    exact ⟨by simp [Uop.held, h.1.2, h.2], rfl⟩

end ExecuteFacts

section Backward

variable (s : Backend) (i : Inputs)

/-- The content `h'` of place `q` after the edge was in some place before it
and moved, outside the part of the window that recovery removes. -/
def MovedTo (q : Place) (h' : Held) : Prop :=
  ∃ p h, s.heldAt p = some h ∧ s.moves i p = some q ∧ h'.Follows h ∧
    s.recoveryYoungerMask i h.robTag = false

variable {s i}

theorem heldAt_eq_some {c : Completion} {h : Held} {b : Bool}
    (hheld : (if b = true then some c.held else none) = some h) :
    b = true ∧ c.held = h := by
  split at hheld
  · next hb => exact ⟨hb, Option.some.inj hheld⟩
  · cases hheld

theorem pending_robTag {tag : RobTag} {h : Held}
    (hheld : s.heldAt (.pending tag) = some h) : h.robTag = tag := by
  rw [heldAt] at hheld
  split at hheld
  · cases hheld
    rfl
  · cases hheld

theorem movedTo_primary (htrap : s.trapValid i = false) {h' : Held}
    (hheld : (s.step i).heldAt .primary = some h') :
    s.MovedTo i .primary h' := by
  obtain ⟨hvis, rfl⟩ := heldAt_eq_some hheld
  rw [s.step_visible i htrap, Bool.and_eq_true, Bool.not_eq_true'] at hvis
  rw [s.step_primary i htrap] at hvis ⊢
  cases hready : s.exec.pReady with
  | true =>
      rw [hready, if_pos rfl] at hvis
      rw [if_pos rfl]
      obtain ⟨j, hvalid, hmoves, huop⟩ :=
        s.primaryPort_source i hready hvis.1
      have hfollows := execute_follows (s.primaryPort i)
      rw [huop] at hfollows
      refine ⟨.iq j, _, by simp [heldAt, hvalid], hmoves, hfollows, ?_⟩
      rw [← hfollows.robTag]
      exact hvis.2
  | false =>
      rw [hready, if_neg (by decide)] at hvis
      rw [if_neg (by decide)]
      refine ⟨.primary, s.exec.primary.held, ?_, ?_, Held.Follows.refl _,
        hvis.2⟩
      · simp [heldAt, (s.primary_of_not_ready hready).1]
      · simp [moves, hready]

theorem movedTo_secondary (htrap : s.trapValid i = false) {h' : Held}
    (hheld : (s.step i).heldAt .secondary = some h') :
    s.MovedTo i .secondary h' := by
  obtain ⟨hvis, rfl⟩ := heldAt_eq_some hheld
  rw [s.step_visible i htrap, Bool.and_eq_true, Bool.not_eq_true'] at hvis
  rw [s.step_secondary i htrap] at hvis ⊢
  obtain ⟨j, -, hvalid, hmoves, huop⟩ := s.secondaryPort_source i hvis.1
  have hfollows := execute_follows (s.secondaryPort i)
  rw [huop] at hfollows
  refine ⟨.iq j, _, by simp [heldAt, hvalid], hmoves, hfollows, ?_⟩
  rw [← hfollows.robTag]
  exact hvis.2

theorem step_memory : (s.step i).exec.memory =
    s.exec.memory.step (s.lsuInputs i) := rfl

/-- A result that appears in the LSU's register: an issued uop that completes
locally, or the response for a pending load. -/
theorem lsu_cases (htrap : s.trapValid i = false)
    (hvis : (s.step i).exec.visible (s.step i).exec.memory.completion = true) :
    (s.exec.memory.completesLocally (s.lsuInputs i) = true ∧
        (s.step i).exec.memory.completion =
          LoadStoreExecutionUnit.localCompletion (s.lsuInputs i)) ∨
      (i.response.valid = true ∧
        s.heldAt (.pending i.response.id) =
          some (s.exec.memory.pendingHeld i.response.id) ∧
        (s.step i).exec.memory.completion =
          s.exec.memory.responseCompletion (s.lsuInputs i)) := by
  rw [s.step_visible i htrap, Bool.and_eq_true] at hvis
  rw [step_memory] at hvis ⊢
  simp only [LoadStoreExecutionUnit.step] at hvis ⊢
  by_cases hlocal : s.exec.memory.completesLocally (s.lsuInputs i) = true
  · rw [if_pos hlocal]
    exact Or.inl ⟨hlocal, rfl⟩
  · rw [if_neg hlocal] at hvis ⊢
    by_cases hresp : (s.exec.memory.responseFire (s.lsuInputs i) &&
        !s.exec.memory.responseKilled (s.lsuInputs i)) = true
    · rw [if_pos hresp]
      simp only [LoadStoreExecutionUnit.responseFire,
        LoadStoreExecutionUnit.memoryResponseReady,
        LoadStoreExecutionUnit.responsePending,
        LoadStoreExecutionUnit.responseKilled, Bool.and_eq_true,
        Bool.not_eq_true', Bool.or_eq_false_iff] at hresp
      obtain ⟨⟨hvalid, hpending⟩, ⟨hkilled, -⟩, -⟩ := hresp
      change s.exec.memory.pendingValid i.response.id = true at hpending
      change s.exec.memory.pendingKilled i.response.id = false at hkilled
      refine Or.inr ⟨hvalid, ?_, rfl⟩
      simp only [heldAt, hpending, hkilled, Bool.not_false, Bool.and_self,
        if_true]
    · rw [if_neg hresp] at hvis
      cases hvis.1

theorem movedTo_lsu (htrap : s.trapValid i = false) {h' : Held}
    (hheld : (s.step i).heldAt .lsu = some h') : s.MovedTo i .lsu h' := by
  obtain ⟨hvis, rfl⟩ := heldAt_eq_some hheld
  have hmask := hvis
  rw [s.step_visible i htrap, Bool.and_eq_true, Bool.not_eq_true'] at hmask
  rcases lsu_cases htrap hvis with ⟨hlocal, heq⟩ | ⟨hvalid, hpending, heq⟩
  · rw [heq] at hmask ⊢
    simp only [LoadStoreExecutionUnit.completesLocally, Bool.and_eq_true,
      Bool.not_eq_true'] at hlocal
    obtain ⟨j, hj, -, hmoves⟩ := s.lsu_issueFire_source i hlocal.1.1
    rw [hlocal.2, if_neg (by decide)] at hmoves
    have hfollows := localCompletion_follows (s.lsuInputs i)
    have huop : (s.lsuInputs i).uop.held = (s.iq.entries j).held :=
      s.issueUop_held hj
    rw [huop] at hfollows
    refine ⟨.iq j, _, by simp [heldAt, s.issueChoice_valid hj], hmoves,
      hfollows, ?_⟩
    rw [← hfollows.robTag]
    exact hmask.2
  · rw [heq] at hmask ⊢
    refine ⟨.pending i.response.id, _, hpending, ?_, Held.Follows.refl _,
      hmask.2⟩
    simp [moves, hvalid]

theorem startsLoad_pending
    (hstart : s.exec.memory.startsLoad (s.lsuInputs i) = true) :
    s.exec.memory.issueFire (s.lsuInputs i) = true ∧
      LoadStoreExecutionUnit.normalCacheLoad (s.lsuInputs i) = true ∧
      s.exec.memory.pendingValid (s.issueUop 0).robTag = false ∧
      s.recoveryYoungerMask i (s.issueUop 0).robTag = false := by
  simp only [LoadStoreExecutionUnit.startsLoad, Bool.and_eq_true] at hstart
  obtain ⟨⟨hfire, -⟩, hnormal⟩ := hstart
  refine ⟨hfire, hnormal, ?_⟩
  simp only [LoadStoreExecutionUnit.issueFire,
    LoadStoreExecutionUnit.issueReady, hnormal, if_true, Bool.and_eq_true,
    Bool.not_eq_true', LoadStoreExecutionUnit.baseIssueReady,
    LoadStoreExecutionUnit.issueAllowed, LoadStoreExecutionUnit.removes,
    Bool.and_eq_false_iff] at hfire
  obtain ⟨-, ⟨⟨-, hallowed⟩, -⟩, hpending, -⟩ := hfire
  refine ⟨hpending, ?_⟩
  rcases hallowed with hrec | hmask
  · change s.recoveryValid i = false at hrec
    rw [recoveryYoungerMask, hrec]
    exact ReorderBuffer.recoverYoungerMask_false _
  · exact hmask

theorem removes_eq (tag : RobTag) :
    LoadStoreExecutionUnit.removes (s.lsuInputs i) tag =
      s.recoveryYoungerMask i tag := by
  change (s.recoveryValid i && s.recoveryYoungerMask i tag) = _
  cases hrec : s.recoveryValid i with
  | true => simp
  | false =>
      rw [recoveryYoungerMask, hrec]
      exact (ReorderBuffer.recoverYoungerMask_false _).symm

/-- A load that occupies a pending slot has just started, or waits on. -/
theorem pending_cases {tag : RobTag} {h' : Held}
    (hheld : (s.step i).heldAt (.pending tag) = some h') :
    (s.exec.memory.startsLoad (s.lsuInputs i) = true ∧
        tag = (s.issueUop 0).robTag ∧ h' = (s.issueUop 0).held) ∨
      (s.heldAt (.pending tag) = some h' ∧
        s.moves i (.pending tag) = some (.pending tag) ∧
        s.recoveryYoungerMask i tag = false) := by
  rw [heldAt, step_memory] at hheld
  split at hheld
  · next hslot =>
    have hheld := Option.some.inj hheld
    subst hheld
    rw [Bool.and_eq_true, Bool.not_eq_true'] at hslot
    by_cases hstart : s.exec.memory.startsLoad (s.lsuInputs i) = true ∧
        tag = (s.issueUop 0).robTag
    · obtain ⟨hstart, rfl⟩ := hstart
      exact Or.inl ⟨hstart, rfl,
        (s.exec.memory.step_pending_started _ hstart).2.2.1⟩
    · right
      have hother : s.exec.memory.startsLoad (s.lsuInputs i) = true →
          tag ≠ (s.lsuInputs i).uop.robTag :=
        fun h htag => hstart ⟨h, htag⟩
      obtain ⟨hfields, -, hvalid, hkilled⟩ :=
        s.exec.memory.step_pending_other (s.lsuInputs i) hother
      rw [hvalid, hkilled, Bool.and_eq_true, Bool.not_eq_true'] at hslot
      obtain ⟨⟨hpending, hfire⟩, hkill⟩ := hslot
      rw [hfire, if_neg (by decide), removes_eq] at hkill
      split at hkill
      · exact absurd hkill (by decide)
      · next hnot =>
        rw [hfields]
        refine ⟨by simp [heldAt, hpending, hkill], ?_, ?_⟩
        · rw [moves, if_neg]
          rintro ⟨hresp, rfl⟩
          change (i.response.valid && s.exec.memory.pendingValid
            i.response.id && decide (i.response.id = i.response.id)) =
            false at hfire
          rw [hresp, hpending] at hfire
          simp at hfire
        · by_contra hmask
          rw [Bool.not_eq_false] at hmask
          exact hnot ⟨hpending, Or.inr hmask⟩
  · cases hheld

theorem movedTo_pending {tag : RobTag} {h' : Held}
    (hheld : (s.step i).heldAt (.pending tag) = some h') :
    s.MovedTo i (.pending tag) h' := by
  rcases pending_cases hheld with ⟨hstart, rfl, rfl⟩ | ⟨hold, hmoves, hmask⟩
  · obtain ⟨hfire, hnormal, -, hmask⟩ := startsLoad_pending hstart
    obtain ⟨j, hj, -, hmoves⟩ := s.lsu_issueFire_source i hfire
    rw [hnormal, if_pos rfl, ← s.issueUop_robTag hj] at hmoves
    refine ⟨.iq j, (s.iq.entries j).held,
      by simp [heldAt, s.issueChoice_valid hj], hmoves, ?_, ?_⟩
    · rw [s.issueUop_held hj]
      exact Held.Follows.refl _
    · change s.recoveryYoungerMask i (s.iq.entries j).robTag = false
      rw [← s.issueUop_robTag hj]
      exact hmask
  · refine ⟨.pending tag, h', hold, hmoves, Held.Follows.refl _, ?_⟩
    rw [pending_robTag hold]
    exact hmask

@[simp] theorem withReady_held (u : Uop) (r1 r2 : Bool) :
    (u.withReady r1 r2).held = u.held := rfl

theorem step_iq_recover (htrap : s.trapValid i = false)
    (hrec : s.recoveryValid i = true) :
    (s.step i).iq = s.iq.stepRecover (s.recoveryYoungerMask i)
      s.prfWriteback (s.issueReady i) s.issueFallbackReady := by
  change IssueQueue.step _ (s.trapValid i) (s.recoveryValid i) _ _ _ _ _ = _
  rw [htrap, hrec]
  rfl

theorem movedTo_iq_recover (htrap : s.trapValid i = false)
    (hrec : s.recoveryValid i = true) {j : IqIndex} {h' : Held}
    (hheld : (s.step i).heldAt (.iq j) = some h') :
    s.MovedTo i (.iq j) h' := by
  rw [heldAt, step_iq_recover htrap hrec] at hheld
  split at hheld
  · next hvalid =>
    have hheld := Option.some.inj hheld
    subst hheld
    obtain ⟨hold, hstays, hmask⟩ := s.iq.stepRecover_valid _ _ _ _ hvalid
    rw [s.iq.stepRecover_resident _ _ _ _ hold hstays hmask,
      IssueQueue.wakeEntry, withReady_held]
    exact ⟨.iq j, _, by simp [heldAt, hold], s.moves_iq_of_stays i hstays,
      Held.Follows.refl _, hmask⟩
  · cases hheld

/-- Lane `l` was dispatched into slot `j` on this edge. -/
def DispatchedTo (s : Backend) (i : Inputs) (l : Lane) (j : IqIndex) : Prop :=
  s.recoveryValid i = false ∧
    s.iq.dispatchSlot (s.renamedUop i) l = some j

theorem step_iq_normal (htrap : s.trapValid i = false)
    (hrec : s.recoveryValid i = false) :
    (s.step i).iq = s.iq.stepNormal (s.renamedUop i) s.prfWriteback
      (s.issueReady i) s.issueFallbackReady := by
  change IssueQueue.step _ (s.trapValid i) (s.recoveryValid i) _ _ _ _ _ = _
  rw [htrap, hrec]
  rfl

theorem movedTo_iq_normal (htrap : s.trapValid i = false)
    (hrec : s.recoveryValid i = false) {j : IqIndex} {h' : Held}
    (hheld : (s.step i).heldAt (.iq j) = some h') :
    s.MovedTo i (.iq j) h' ∨
      ∃ l, s.DispatchedTo i l j ∧ h' = (s.renamedUop i l).held := by
  rw [heldAt, step_iq_normal htrap hrec] at hheld
  split at hheld
  · next hvalid =>
    have hheld := Option.some.inj hheld
    subst hheld
    rcases s.iq.stepNormal_valid _ _ _ _ hvalid with
      ⟨l, hslot⟩ | ⟨hold, hstays⟩
    · right
      refine ⟨l, ⟨hrec, hslot⟩, ?_⟩
      rw [s.iq.stepNormal_dispatched _ _ _ _ hslot, IssueQueue.dispatchEntry,
        withReady_held]
    · left
      rw [s.iq.stepNormal_resident _ _ _ _ hold hstays, IssueQueue.wakeEntry,
        withReady_held]
      refine ⟨.iq j, _, by simp [heldAt, hold], s.moves_iq_of_stays i hstays,
        Held.Follows.refl _, ?_⟩
      rw [recoveryYoungerMask, hrec]
      exact ReorderBuffer.recoverYoungerMask_false _
  · cases hheld

/-- Nothing appears in a place except by moving there or by dispatch. -/
theorem heldAt_step (htrap : s.trapValid i = false) {q : Place} {h' : Held}
    (hheld : (s.step i).heldAt q = some h') :
    s.MovedTo i q h' ∨
      ∃ l j, q = .iq j ∧ s.DispatchedTo i l j ∧
        h' = (s.renamedUop i l).held := by
  cases q with
  | primary => exact Or.inl (movedTo_primary htrap hheld)
  | secondary => exact Or.inl (movedTo_secondary htrap hheld)
  | lsu => exact Or.inl (movedTo_lsu htrap hheld)
  | pending tag => exact Or.inl (movedTo_pending hheld)
  | iq j =>
      cases hrec : s.recoveryValid i with
      | true => exact Or.inl (movedTo_iq_recover htrap hrec hheld)
      | false =>
          rcases movedTo_iq_normal htrap hrec hheld with h | ⟨l, hl⟩
          · exact Or.inl h
          · exact Or.inr ⟨l, j, rfl, hl⟩

end Backward

section Forward

variable {s : Backend} {i : Inputs}

theorem completion_arrives (htrap : s.trapValid i = false) {c : Completion}
    {h : Held} (hvalid : c.valid = true) (htag : c.robTag = h.robTag)
    (hmask : s.recoveryYoungerMask i h.robTag = false) :
    (s.step i).exec.visible c = true := by
  rw [s.step_visible i htrap, hvalid, htag, hmask]
  rfl

/-- A result at the primary input arrives in the primary register. -/
theorem arrives_primary (htrap : s.trapValid i = false)
    (hready : s.exec.pReady = true) (hvalid : (s.primaryPort i).valid = true)
    {h : Held} (htag : (s.primaryPort i).uop.robTag = h.robTag)
    (hmask : s.recoveryYoungerMask i h.robTag = false) :
    ∃ h', (s.step i).heldAt .primary = some h' ∧ h'.robTag = h.robTag := by
  have hprimary := s.step_primary i htrap
  rw [hready, if_pos rfl] at hprimary
  refine ⟨(s.step i).exec.primary.held, ?_, ?_⟩
  · rw [heldAt, if_pos]
    rw [hprimary]
    exact completion_arrives htrap hvalid htag hmask
  · rw [hprimary]
    exact htag

theorem forward_iq_memory (htrap : s.trapValid i = false) {j : IqIndex}
    (hj : s.issueChoice 0 = some j) (hready : s.issueReady i 0 = true)
    (hmem : s.candidate0IsMemory = true)
    (hmask : s.recoveryYoungerMask i (s.iq.entries j).robTag = false) :
    ∃ h', (s.step i).heldAt
      (if LoadStoreExecutionUnit.normalCacheLoad (s.lsuInputs i) then
        .pending (s.iq.entries j).robTag else .lsu) = some h' ∧
      h'.robTag = (s.iq.entries j).robTag := by
  have hboth : s.fallbackActive = false ∧
      s.exec.memory.issueReady (s.lsuInputs i) = true := by
    simpa [issueReady, hmem] using hready
  have hoffer : (s.lsuInputs i).issueValid = true := by
    simp [lsuInputs, hmem, hboth.1]
  have hfire : s.exec.memory.issueFire (s.lsuInputs i) = true := by
    rw [LoadStoreExecutionUnit.issueFire, hoffer, hboth.2]
    rfl
  have hflush : (s.lsuInputs i).flush = false := htrap
  have htag : (s.lsuInputs i).uop.robTag = (s.iq.entries j).robTag :=
    s.issueUop_robTag hj
  cases hnormal : LoadStoreExecutionUnit.normalCacheLoad (s.lsuInputs i) with
  | true =>
      have hstart : s.exec.memory.startsLoad (s.lsuInputs i) = true := by
        simp [LoadStoreExecutionUnit.startsLoad, hfire, hflush, hnormal]
      obtain ⟨hv, hk, hheld, -⟩ :=
        s.exec.memory.step_pending_started _ hstart
      rw [htag] at hv hk
      exact ⟨_, by
        rw [if_pos rfl, heldAt, step_memory, hv, hk]
        rfl, rfl⟩
  | false =>
      have hlocal : s.exec.memory.completesLocally (s.lsuInputs i) = true := by
        simp [LoadStoreExecutionUnit.completesLocally, hfire, hflush, hnormal]
      have hcompletion : (s.step i).exec.memory.completion =
          LoadStoreExecutionUnit.localCompletion (s.lsuInputs i) := by
        rw [step_memory]
        simp only [LoadStoreExecutionUnit.step, hlocal, if_true]
      have hclass : (s.lsuInputs i).uop.fuClass = .memory := by
        simp only [candidate0IsMemory, Bool.and_eq_true, beq_iff_eq] at hmem
        exact hmem.2
      refine ⟨(s.step i).exec.memory.completion.held, ?_, ?_⟩
      · rw [if_neg (by decide), heldAt, if_pos]
        rw [hcompletion]
        refine completion_arrives (h := (s.iq.entries j).held) htrap ?_ htag
          hmask
        simp only [LoadStoreExecutionUnit.localCompletion,
          LoadStoreExecutionUnit.selectedIsLoad,
          LoadStoreExecutionUnit.selectedIsStore, hclass, beq_self_eq_true,
          Bool.true_and]
        cases (s.lsuInputs i).uop.dataWriteEnable <;> rfl
      · rw [hcompletion]
        exact htag

theorem forward_iq (htrap : s.trapValid i = false) {j : IqIndex} {q : Place}
    (hvalid : (s.iq.entries j).valid = true)
    (hmoves : s.moves i (.iq j) = some q)
    (hmask : s.recoveryYoungerMask i (s.iq.entries j).robTag = false) :
    ∃ h', (s.step i).heldAt q = some h' ∧
      h'.robTag = (s.iq.entries j).robTag := by
  rcases s.moves_iq_cases i hmoves with ⟨hj, hready, hmem, rfl⟩ |
    ⟨hj, hready, hmem, rfl⟩ | ⟨hj, -, rfl⟩ | ⟨hj, hready, rfl⟩ | ⟨rfl, hstays⟩
  · exact forward_iq_memory htrap hj hready hmem hmask
  · have hport : s.primaryPort i = s.issuePort i 0 := by
      simp [primaryPort, BackendExecuteStage.primaryPort, hmem]
    have hunit : s.exec.pReady = true := by
      simpa [issueReady, hmem] using hready
    refine arrives_primary (h := (s.iq.entries j).held) htrap hunit ?_ ?_ hmask
    · rw [hport]
      change (s.issueChoice 0).isSome = true
      rw [hj]
      rfl
    · rw [hport]
      exact s.issueUop_robTag hj
  · have hsecondary := s.step_secondary i htrap
    refine ⟨(s.step i).exec.secondary.held, ?_, ?_⟩
    · rw [heldAt, if_pos]
      rw [hsecondary]
      refine completion_arrives (h := (s.iq.entries j).held) htrap ?_
        (s.issueUop_robTag hj) hmask
      change (s.issueChoice 1).isSome = true
      rw [hj]
      rfl
    · rw [hsecondary]
      exact s.issueUop_robTag hj
  · simp only [issueFallbackReady, Bool.and_eq_true] at hready
    refine arrives_primary (h := (s.iq.entries j).held) htrap hready.2 ?_ ?_
      hmask
    · simp [primaryPort, BackendExecuteStage.primaryPort, hready.1.1,
        hready.1.2, fallbackPort, issueFallbackValid, hj]
    · simp only [primaryPort, BackendExecuteStage.primaryPort, hready.1.1,
        if_true, fallbackPort, issueFallbackUop, hj, IssueQueue.fallbackUop]
      rfl
  · have hentry : (s.step i).iq.entries j =
        IssueQueue.wakeEntry s.prfWriteback (s.iq.entries j) := by
      cases hrec : s.recoveryValid i with
      | true =>
          rw [step_iq_recover htrap hrec]
          exact s.iq.stepRecover_resident _ _ _ _ hvalid hstays hmask
      | false =>
          rw [step_iq_normal htrap hrec]
          exact s.iq.stepNormal_resident _ _ _ _ hvalid hstays
    refine ⟨((s.step i).iq.entries j).held, ?_, ?_⟩
    · rw [heldAt, if_pos]
      rw [hentry]
      exact hvalid
    · rw [hentry]
      rfl

theorem forward_pending (htrap : s.trapValid i = false) {tag : RobTag}
    {q : Place} (hpending : s.exec.memory.pendingValid tag = true)
    (hkilled : s.exec.memory.pendingKilled tag = false)
    (hmoves : s.moves i (.pending tag) = some q)
    (hmask : s.recoveryYoungerMask i tag = false) :
    ∃ h', (s.step i).heldAt q = some h' ∧ h'.robTag = tag := by
  have hflush : (s.lsuInputs i).flush = false := htrap
  have hother : s.exec.memory.startsLoad (s.lsuInputs i) = true →
      tag ≠ (s.lsuInputs i).uop.robTag := by
    rintro hstart rfl
    have hfree := (startsLoad_pending hstart).2.2.1
    change s.exec.memory.pendingValid (s.lsuInputs i).uop.robTag = false
      at hfree
    rw [hpending] at hfree
    exact absurd hfree (by decide)
  rw [moves] at hmoves
  by_cases hresp : i.response.valid = true ∧ i.response.id = tag
  · rw [if_pos hresp] at hmoves
    cases hmoves
    obtain ⟨hrv, rfl⟩ := hresp
    have hkill : s.exec.memory.responseKilled (s.lsuInputs i) = false := by
      simp only [LoadStoreExecutionUnit.responseKilled, hflush,
        removes_eq, Bool.or_false, Bool.or_eq_false_iff]
      exact ⟨hkilled, hmask⟩
    have hpend : s.exec.memory.responsePending (s.lsuInputs i) = true :=
      hpending
    have hrvalid : (s.lsuInputs i).response.valid = true := hrv
    have hcomp : s.exec.memory.responseCompletes (s.lsuInputs i) = true := by
      simp [LoadStoreExecutionUnit.responseCompletes, hrvalid, hpend, hkill]
    have hlocal :
        s.exec.memory.completesLocally (s.lsuInputs i) = false := by
      by_contra h
      rw [Bool.not_eq_false] at h
      simp only [LoadStoreExecutionUnit.completesLocally, Bool.and_eq_true,
        Bool.not_eq_true'] at h
      have hfire := h.1.1
      simp [LoadStoreExecutionUnit.issueFire,
        LoadStoreExecutionUnit.issueReady, h.2, hcomp] at hfire
    have hcompletion : (s.step i).exec.memory.completion =
        s.exec.memory.responseCompletion (s.lsuInputs i) := by
      rw [step_memory]
      simp [LoadStoreExecutionUnit.step, hlocal,
        LoadStoreExecutionUnit.responseFire,
        LoadStoreExecutionUnit.memoryResponseReady, hrvalid, hpend, hkill]
    refine ⟨(s.step i).exec.memory.completion.held, ?_, ?_⟩
    · rw [heldAt, if_pos]
      rw [hcompletion]
      exact completion_arrives (h := s.exec.memory.pendingHeld i.response.id)
        htrap rfl rfl hmask
    · rw [hcompletion]
      rfl
  · rw [if_neg hresp] at hmoves
    cases hmoves
    obtain ⟨-, -, hv, hk⟩ :=
      s.exec.memory.step_pending_other (s.lsuInputs i) hother
    have hfire : (s.exec.memory.responseFire (s.lsuInputs i) &&
        decide ((s.lsuInputs i).response.id = tag)) = false := by
      by_contra h
      rw [Bool.not_eq_false, Bool.and_eq_true, decide_eq_true_eq] at h
      simp only [LoadStoreExecutionUnit.responseFire, Bool.and_eq_true] at h
      exact hresp ⟨h.1.1, h.2⟩
    rw [hfire, hpending] at hv
    rw [hfire, if_neg (by decide), if_neg, hkilled] at hk
    · exact ⟨_, by
        rw [heldAt, step_memory, hv, hk]
        rfl, rfl⟩
    · rintro ⟨-, h | h⟩
      · rw [hflush] at h
        exact absurd h (by decide)
      · rw [removes_eq, hmask] at h
        exact absurd h (by decide)

/-- A uop that recovery does not remove arrives where `moves` sends it. -/
theorem heldAt_forward (htrap : s.trapValid i = false) {p q : Place} {h : Held}
    (hheld : s.heldAt p = some h) (hmoves : s.moves i p = some q)
    (hmask : s.recoveryYoungerMask i h.robTag = false) :
    ∃ h', (s.step i).heldAt q = some h' ∧ h'.robTag = h.robTag := by
  cases p with
  | iq j =>
      rw [heldAt] at hheld
      split at hheld
      · next hvalid =>
        cases hheld
        exact forward_iq htrap hvalid hmoves hmask
      · cases hheld
  | primary =>
      obtain ⟨hvis, rfl⟩ := heldAt_eq_some hheld
      rw [moves] at hmoves
      split at hmoves
      · cases hmoves
      · next hready =>
        cases hmoves
        rw [Bool.not_eq_true] at hready
        have hprimary := s.step_primary i htrap
        rw [hready, if_neg (by decide)] at hprimary
        refine ⟨(s.step i).exec.primary.held, ?_, ?_⟩
        · rw [heldAt, if_pos]
          rw [hprimary]
          rw [BackendExecuteStage.visible, Bool.and_eq_true] at hvis
          exact completion_arrives (h := s.exec.primary.held) htrap hvis.1 rfl
            hmask
        · rw [hprimary]
  | secondary => cases hmoves
  | lsu => cases hmoves
  | pending tag =>
      rw [heldAt] at hheld
      split at hheld
      · next hslot =>
        cases hheld
        rw [Bool.and_eq_true, Bool.not_eq_true'] at hslot
        exact forward_pending htrap hslot.1 hslot.2 hmoves hmask
      · cases hheld

/-- A uop that leaves its last place completes its ROB entry. -/
theorem completes_of_moves_none {p : Place} {h : Held}
    (hheld : s.heldAt p = some h) (hmoves : s.moves i p = none) :
    ∃ l, (s.robComplete l).valid = true ∧
      (s.robComplete l).held = h := by
  cases p with
  | iq j =>
      rw [moves] at hmoves
      split at hmoves
      · split at hmoves
        · split at hmoves <;> cases hmoves
        · cases hmoves
      · split at hmoves
        · cases hmoves
        · split at hmoves <;> cases hmoves
  | primary =>
      obtain ⟨hvis, rfl⟩ := heldAt_eq_some hheld
      rw [moves] at hmoves
      split at hmoves
      · next hready =>
        have hmem := s.memory_not_visible_of_primary hready hvis
        refine ⟨0, ?_, ?_⟩ <;>
          simp [robComplete, BackendExecuteStage.completion,
            BackendExecuteStage.laneSource, hmem, hvis, Completion.held]
      · cases hmoves
  | secondary =>
      obtain ⟨hvis, rfl⟩ := heldAt_eq_some hheld
      exact ⟨1, hvis, rfl⟩
  | lsu =>
      obtain ⟨hvis, rfl⟩ := heldAt_eq_some hheld
      refine ⟨0, ?_, ?_⟩ <;>
        simp [robComplete, BackendExecuteStage.completion,
          BackendExecuteStage.laneSource, hvis, Completion.held]
  | pending tag =>
      rw [moves] at hmoves
      split at hmoves <;> cases hmoves

/-- Every completion lane is a uop leaving its last place. -/
theorem source_of_complete (i : Inputs) {l : Lane}
    (hvalid : (s.robComplete l).valid = true) :
    ∃ p, s.heldAt p = some (s.robComplete l).held ∧ s.moves i p = none := by
  match l, hvalid with
  | 1, hvalid =>
      have hvis : s.exec.visible s.exec.secondary = true := hvalid
      refine ⟨.secondary, ?_, rfl⟩
      rw [heldAt, if_pos hvis]
      rfl
  | 0, hvalid =>
      cases hmem : s.exec.visible s.exec.memory.completion with
      | true =>
          refine ⟨.lsu, ?_, rfl⟩
          simp [heldAt, hmem, robComplete, BackendExecuteStage.completion,
            BackendExecuteStage.laneSource, Completion.held]
      | false =>
          have hsource : s.exec.laneSource 0 = s.exec.primary := by
            simp [BackendExecuteStage.laneSource, hmem]
          have hvis : s.exec.visible s.exec.primary = true := by
            simpa [robComplete, BackendExecuteStage.completion, hsource]
              using hvalid
          refine ⟨.primary, ?_, ?_⟩
          · simp [heldAt, hvis, robComplete, BackendExecuteStage.completion,
              hsource, Completion.held]
          · rw [moves, if_pos]
            by_contra hready
            rw [Bool.not_eq_true] at hready
            rw [(s.primary_of_not_ready hready).2] at hmem
            exact absurd hmem (by decide)

end Forward

end Backend

end OoOCore
