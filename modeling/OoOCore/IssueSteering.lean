/-
Issue steering: which entries the queue offers, which execution unit takes each
of them, and that an entry leaves the queue exactly when one unit took it.
-/
import OoOCore.LoadValues

namespace OoOCore

/-- The units that take uops from the queue. -/
inductive ExecUnit where
  | primary | secondary | memory
deriving DecidableEq

namespace IssueSelection

/-- Candidates 0 and 1, and the fallback. -/
def candidate (sel : IssueSelection) : Fin 3 → Option IqIndex
  | 0 => sel.port0
  | 1 => sel.port1
  | 2 => sel.fallback

end IssueSelection

namespace IssueQueue

variable (q : IssueQueue) (wb : Lane → Writeback)

/-- The sources a uop needs are ready; a store goes without its data. -/
structure SourcesReady (u : Uop) : Prop where
  source1 : source1ReadyNow wb u = true
  source2 : source2ReadyNow wb u = true ∨
    (u.fuClass = .memory ∧ u.dataWriteEnable = true)

theorem readyEntry_iff {u : Uop} : readyEntry wb u = true ↔
    u.valid = true ∧ SourcesReady wb u := by
  simp only [readyEntry, Bool.and_eq_true, Bool.or_eq_true, beq_iff_eq]
  constructor
  · rintro ⟨⟨hvalid, h1⟩, h2⟩
    exact ⟨hvalid, h1, h2.symm⟩
  · rintro ⟨hvalid, h1, h2⟩
    exact ⟨⟨hvalid, h1⟩, h2.symm⟩

theorem candidate_ready {a : Fin 3} {j : IqIndex}
    (hj : (q.select wb).candidate a = some j) :
    readyEntry wb (q.entries j) = true := by
  match a, hj with
  | 0, hj => exact q.select_port0_ready wb hj
  | 1, hj => exact (q.select_port1_candidate wb hj).1
  | 2, hj => exact (q.select_fallback_candidate wb hj).1

theorem candidate_injective {a b : Fin 3} {j : IqIndex}
    (ha : (q.select wb).candidate a = some j)
    (hb : (q.select wb).candidate b = some j) : a = b := by
  match a, b, ha, hb with
  | 0, 0, _, _ => rfl
  | 1, 1, _, _ => rfl
  | 2, 2, _, _ => rfl
  | 0, 1, ha, hb => exact absurd ha (q.select_port1_ne_port0 wb hb)
  | 1, 0, ha, hb => exact absurd hb (q.select_port1_ne_port0 wb ha)
  | 0, 2, ha, hb => exact absurd ha (q.select_fallback_ne wb hb).1
  | 2, 0, ha, hb => exact absurd hb (q.select_fallback_ne wb ha).1
  | 1, 2, ha, hb => exact absurd ha (q.select_fallback_ne wb hb).2
  | 2, 1, ha, hb => exact absurd hb (q.select_fallback_ne wb ha).2

/-- The classes each candidate position can carry. -/
theorem candidate_class {a : Fin 3} {j : IqIndex}
    (hj : (q.select wb).candidate a = some j) :
    ((q.entries j).fuClass = .memory ∨ (q.entries j).fuClass = .csr → a = 0) ∧
      ((q.entries j).fuClass = .branch → a = 1) ∧
      (a = 2 → (q.entries j).fuClass = .integer) := by
  match a, hj with
  | 0, hj =>
      refine ⟨fun _ => rfl, ?_, fun h => absurd h (by decide)⟩
      intro hbranch
      exact absurd hbranch (q.select_port0_not_branch wb hj)
  | 1, hj =>
      have hclass := (q.select_port1_candidate wb hj).2
      refine ⟨?_, fun _ => rfl, fun h => absurd h (by decide)⟩
      intro hmem
      rcases hclass with h | h <;> rw [h] at hmem <;> simp at hmem
  | 2, hj =>
      have hclass := (q.select_fallback_candidate wb hj).2
      rw [hclass]
      simp

end IssueQueue

namespace Backend

section Latches

variable (s : Backend) (i : Inputs)

/-- The entry behind the port of the primary unit. -/
def primaryChoice : Option IqIndex :=
  if s.candidate0IsMemory then
    if s.fallbackActive then s.issueSelection.fallback else none
  else s.issueSelection.port0

/-- The D-cache port accepts the load of a tag. -/
def loadAccepted (tag : RobTag) : Prop :=
  i.memoryRequestReady = true ∧
    ∃ address access, s.memoryRequest i = some (.load tag address access)

/-- The unit takes the entry on this edge: an integer unit into its completion
register, the LSU into its own or by an accepted load request. -/
def Latches (j : IqIndex) : ExecUnit → Prop
  | .primary => s.exec.pReady = true ∧ s.primaryChoice = some j
  | .secondary => s.exec.sReady = true ∧ s.issueSelection.port1 = some j
  | .memory => s.candidate0IsMemory = true ∧ s.issueSelection.port0 = some j ∧
      (s.exec.memory.completesLocally (s.lsuInputs i) = true ∨
        s.loadAccepted i (s.iq.entries j).robTag)

/-- The queue removes the entry because its handshake completed. -/
def issued (j : IqIndex) : Bool :=
  IssueQueue.leaves s.issueSelection (s.issueReady i) s.issueFallbackReady j

end Latches

variable {s : Backend} {i : Inputs}

/-- The D-cache accepts a load exactly when the LSU starts it. -/
theorem loadAccepted_iff (htrap : s.trapValid i = false) {j : IqIndex}
    (hj : s.issueChoice 0 = some j) :
    s.loadAccepted i (s.iq.entries j).robTag ↔
      s.exec.memory.startsLoad (s.lsuInputs i) = true := by
  constructor
  · rintro ⟨hport, address, access, hreq⟩
    obtain ⟨-, -, -, hselect⟩ := memoryRequest_load hreq
    simp only [selectLoadRequest, lsuLoadReadValid,
      LoadStoreExecutionUnit.loadReadValid, Bool.and_eq_true,
      Bool.not_eq_true'] at hselect
    obtain ⟨⟨⟨⟨⟨⟨hvalid, hbase⟩, hnormal⟩, hpending⟩, -⟩, hmmio⟩, hforce⟩ :=
      hselect
    have hready : (s.lsuInputs i).memoryRequestReady = true := by
      change s.loadCacheRequestReady i = true
      simp [loadCacheRequestReady, hport, hmmio, hforce]
    have hflush : (s.lsuInputs i).flush = false := htrap
    simp [LoadStoreExecutionUnit.startsLoad, LoadStoreExecutionUnit.issueFire,
      LoadStoreExecutionUnit.issueReady, hvalid, hbase, hnormal, hpending,
      hready, hflush]
  · intro hstart
    obtain ⟨hport, hreq⟩ := startsLoad_accepted hstart
    rw [← s.issueUop_robTag hj]
    exact ⟨hport, _, _, hreq⟩

/-- The LSU fires exactly when it completes the uop itself or starts a load. -/
theorem issueFire_iff (htrap : s.trapValid i = false) :
    s.exec.memory.issueFire (s.lsuInputs i) = true ↔
      s.exec.memory.completesLocally (s.lsuInputs i) = true ∨
        s.exec.memory.startsLoad (s.lsuInputs i) = true := by
  have hflush : (s.lsuInputs i).flush = false := htrap
  rw [LoadStoreExecutionUnit.completesLocally,
    LoadStoreExecutionUnit.startsLoad, hflush]
  cases LoadStoreExecutionUnit.normalCacheLoad (s.lsuInputs i) <;> simp

/-- The memory unit takes candidate 0 exactly when its handshake completes. -/
theorem latches_memory_iff (htrap : s.trapValid i = false) {j : IqIndex} :
    s.Latches i j .memory ↔
      s.candidate0IsMemory = true ∧ s.issueSelection.port0 = some j ∧
        s.issueReady i 0 = true := by
  unfold Latches
  refine and_congr_right (fun hmem => and_congr_right (fun hj => ?_))
  rw [loadAccepted_iff htrap hj, ← issueFire_iff htrap]
  have hvalid : (s.lsuInputs i).issueValid = !s.fallbackActive := by
    change (s.candidate0IsMemory && !s.fallbackActive) = _
    rw [hmem, Bool.true_and]
  simp [LoadStoreExecutionUnit.issueFire, hvalid, issueReady, hmem]

/-- With no memory candidate, or with one that is blocked, an integer candidate
has the primary unit. -/
theorem latches_primary_iff {j : IqIndex} :
    s.Latches i j .primary ↔
      (s.candidate0IsMemory = false ∧ s.issueSelection.port0 = some j ∧
        s.issueReady i 0 = true) ∨
      (s.issueSelection.fallback = some j ∧ s.issueFallbackReady = true) := by
  cases hmem : s.candidate0IsMemory with
  | false =>
      simp [Latches, primaryChoice, issueReady, issueFallbackReady, hmem,
        and_comm]
  | true =>
      cases hfall : s.fallbackActive <;>
        simp [Latches, primaryChoice, issueFallbackReady, hmem, hfall, and_comm]

/-- Every accepted entry is taken by a unit, and nothing else is. -/
theorem issued_iff (htrap : s.trapValid i = false) (j : IqIndex) :
    s.issued i j = true ↔ ∃ unit, s.Latches i j unit := by
  have hleaves : s.issued i j = true ↔
      (s.issueSelection.port0 = some j ∧ s.issueReady i 0 = true) ∨
      (s.issueSelection.port1 = some j ∧ s.issueReady i 1 = true) ∨
      (s.issueSelection.fallback = some j ∧ s.issueFallbackReady = true) := by
    simp [issued, IssueQueue.leaves, or_assoc]
  rw [hleaves]
  constructor
  · rintro (⟨hj, hready⟩ | ⟨hj, hready⟩ | hfall)
    · cases hmem : s.candidate0IsMemory with
      | true =>
          exact ⟨.memory, (latches_memory_iff htrap).mpr ⟨hmem, hj, hready⟩⟩
      | false =>
          exact ⟨.primary, latches_primary_iff.mpr
            (Or.inl ⟨hmem, hj, hready⟩)⟩
    · exact ⟨.secondary, hready, hj⟩
    · exact ⟨.primary, latches_primary_iff.mpr (Or.inr hfall)⟩
  · rintro ⟨unit, hlatch⟩
    cases unit with
    | primary =>
        rcases latches_primary_iff.mp hlatch with ⟨-, h0⟩ | hf
        · exact Or.inl h0
        · exact Or.inr (Or.inr hf)
    | secondary => exact Or.inr (Or.inl ⟨hlatch.2, hlatch.1⟩)
    | memory => exact Or.inl ((latches_memory_iff htrap).mp hlatch).2

/-- The candidate position behind each unit's port. -/
def unitPosition (candidate0IsMemory : Bool) : ExecUnit → Fin 3
  | .primary => if candidate0IsMemory then 2 else 0
  | .secondary => 1
  | .memory => 0

theorem latches_candidate {j : IqIndex} {unit : ExecUnit}
    (h : s.Latches i j unit) :
    s.issueSelection.candidate (unitPosition s.candidate0IsMemory unit) =
        some j ∧
      (unit = .memory → s.candidate0IsMemory = true) := by
  match unit, h with
  | .secondary, h => exact ⟨h.2, fun h => by cases h⟩
  | .memory, h => exact ⟨h.2.1, fun _ => h.1⟩
  | .primary, h =>
      refine ⟨?_, fun h => by cases h⟩
      rcases latches_primary_iff.mp h with ⟨hmem, hj, -⟩ | ⟨hj, hready⟩
      · rw [hmem]
        exact hj
      · have hmem : s.candidate0IsMemory = true := by
          simp only [issueFallbackReady, Bool.and_eq_true] at hready
          exact hready.1.1
        rw [hmem]
        exact hj

/-- No entry goes to two units. -/
theorem latches_unique {j : IqIndex} {unit unit' : ExecUnit}
    (h : s.Latches i j unit) (h' : s.Latches i j unit') : unit = unit' := by
  obtain ⟨hj, hmem⟩ := latches_candidate h
  obtain ⟨hj', hmem'⟩ := latches_candidate h'
  have hpos := s.iq.candidate_injective s.prfWriteback hj hj'
  match unit, unit', hpos with
  | .primary, .primary, _ => rfl
  | .secondary, .secondary, _ => rfl
  | .memory, .memory, _ => rfl
  | .primary, .secondary, hpos =>
      cases hm : s.candidate0IsMemory <;> rw [hm] at hpos <;> cases hpos
  | .secondary, .primary, hpos =>
      cases hm : s.candidate0IsMemory <;> rw [hm] at hpos <;> cases hpos
  | .primary, .memory, hpos =>
      rw [hmem' rfl] at hpos
      cases hpos
  | .memory, .primary, hpos =>
      rw [hmem rfl] at hpos
      cases hpos
  | .secondary, .memory, hpos => cases hpos
  | .memory, .secondary, hpos => cases hpos

/-- No unit takes two entries. -/
theorem latches_entry {j k : IqIndex} {unit : ExecUnit}
    (hj : s.Latches i j unit) (hk : s.Latches i k unit) : j = k :=
  Option.some.inj ((latches_candidate hj).1.symm.trans
    (latches_candidate hk).1)

/-- The accepted candidates of one cycle. -/
def acceptedCount (s : Backend) (i : Inputs) : Nat :=
  (s.issueValid 0 && s.issueReady i 0).toNat +
    (s.issueValid 1 && s.issueReady i 1).toNat +
    (s.issueFallbackValid && s.issueFallbackReady).toNat

theorem acceptedCount_le (s : Backend) (i : Inputs) :
    s.acceptedCount i ≤ 2 := by
  have h0 := Bool.toNat_le (s.issueValid 0 && s.issueReady i 0)
  have h1 := Bool.toNat_le (s.issueValid 1 && s.issueReady i 1)
  unfold acceptedCount
  cases hfall : s.issueFallbackReady with
  | false =>
      rw [Bool.and_false, Bool.toNat_false]
      omega
  | true =>
      -- The fallback is accepted only while candidate 0 is refused.
      have hrefused : s.issueReady i 0 = false := by
        simp only [issueFallbackReady, Bool.and_eq_true] at hfall
        simp [issueReady, hfall.1.1, hfall.1.2]
      have h2 := Bool.toNat_le (s.issueFallbackValid && true)
      rw [hrefused, Bool.and_false, Bool.toNat_false]
      omega

/-- The unit's registers carry the uop. -/
def UnitHolds (s : Backend) (u : Uop) : ExecUnit → Prop
  | .primary => s.exec.primary.valid = true ∧
      s.exec.primary.robTag = u.robTag ∧ s.exec.primary.origin = u.origin
  | .secondary => s.exec.secondary.valid = true ∧
      s.exec.secondary.robTag = u.robTag ∧ s.exec.secondary.origin = u.origin
  | .memory => (s.exec.memory.completion.valid = true ∧
        s.exec.memory.completion.robTag = u.robTag ∧
        s.exec.memory.completion.origin = u.origin) ∨
      (s.exec.memory.pendingValid u.robTag = true ∧
        s.exec.memory.pendingOrigin u.robTag = u.origin)

theorem issueUop_origin {l : Lane} {j : IqIndex}
    (hj : s.issueChoice l = some j) :
    (s.issueUop l).origin = (s.iq.entries j).origin := by
  rw [s.issueUop_of_choice hj]
  rfl

theorem issueValid_of_choice {l : Lane} {j : IqIndex}
    (hj : s.issueChoice l = some j) : s.issueValid l = true := by
  rw [issueValid, hj]
  rfl

theorem unitHolds_primary (htrap : s.trapValid i = false) {j : IqIndex}
    (h : s.Latches i j .primary) :
    (s.step i).UnitHolds (s.iq.entries j) .primary := by
  rw [UnitHolds, s.step_primary i htrap, if_pos h.1]
  rcases latches_primary_iff.mp h with ⟨hmem, hj, -⟩ | ⟨hj, hready⟩
  · have hport : s.primaryPort i = s.issuePort i 0 := by
      simp [primaryPort, BackendExecuteStage.primaryPort, hmem]
    rw [hport]
    exact ⟨issueValid_of_choice hj, s.issueUop_robTag hj, issueUop_origin hj⟩
  · simp only [issueFallbackReady, Bool.and_eq_true] at hready
    obtain ⟨⟨hmem, hfall⟩, -⟩ := hready
    have hvalid : s.issueFallbackValid = true := by
      rw [issueFallbackValid, hj]
      rfl
    have huop : s.issueFallbackUop = (s.iq.entries j).withReady true true := by
      rw [issueFallbackUop, hj]
      rfl
    refine ⟨?_, ?_, ?_⟩
    · simp [OoOExecutionUnit.execute, primaryPort,
        BackendExecuteStage.primaryPort, hmem, hfall, fallbackPort, hvalid]
    · simp [OoOExecutionUnit.execute, primaryPort,
        BackendExecuteStage.primaryPort, hmem, fallbackPort, huop,
        Uop.withReady]
    · simp [OoOExecutionUnit.execute, primaryPort,
        BackendExecuteStage.primaryPort, hmem, fallbackPort, huop,
        Uop.withReady]

theorem unitHolds_secondary (htrap : s.trapValid i = false) {j : IqIndex}
    (h : s.Latches i j .secondary) :
    (s.step i).UnitHolds (s.iq.entries j) .secondary := by
  rw [UnitHolds, s.step_secondary i htrap]
  have hj : s.issueChoice 1 = some j := h.2
  exact ⟨issueValid_of_choice hj, s.issueUop_robTag hj, issueUop_origin hj⟩

theorem unitHolds_memory (htrap : s.trapValid i = false) {j : IqIndex}
    (h : s.Latches i j .memory) :
    (s.step i).UnitHolds (s.iq.entries j) .memory := by
  obtain ⟨hmem, hj, hlatch⟩ := h
  have hchoice : s.issueChoice 0 = some j := hj
  have htag : (s.lsuInputs i).uop.robTag = (s.iq.entries j).robTag :=
    s.issueUop_robTag hchoice
  have horigin : (s.lsuInputs i).uop.origin = (s.iq.entries j).origin :=
    issueUop_origin hchoice
  rw [UnitHolds, step_memory]
  rw [loadAccepted_iff htrap hj] at hlatch
  rcases hlatch with hlocal | hstart
  · left
    have hclass : (s.lsuInputs i).uop.fuClass = .memory := by
      simp only [candidate0IsMemory, Bool.and_eq_true, beq_iff_eq] at hmem
      exact hmem.2
    have hcompletion : (s.exec.memory.step (s.lsuInputs i)).completion =
        LoadStoreExecutionUnit.localCompletion (s.lsuInputs i) := by
      simp [LoadStoreExecutionUnit.step, hlocal]
    rw [hcompletion]
    refine ⟨?_, htag, horigin⟩
    simp only [LoadStoreExecutionUnit.localCompletion,
      LoadStoreExecutionUnit.selectedIsLoad,
      LoadStoreExecutionUnit.selectedIsStore, hclass]
    cases (s.lsuInputs i).uop.dataWriteEnable <;> rfl
  · right
    rw [← htag, ← horigin]
    constructor
    · exact (LoadStoreExecutionUnit.step_pending_started _ _ hstart).1
    · simp [LoadStoreExecutionUnit.step, hstart]

theorem latches_unitHolds (htrap : s.trapValid i = false) {j : IqIndex}
    {unit : ExecUnit} (h : s.Latches i j unit) :
    (s.step i).UnitHolds (s.iq.entries j) unit := by
  match unit, h with
  | .primary, h => exact unitHolds_primary htrap h
  | .secondary, h => exact unitHolds_secondary htrap h
  | .memory, h => exact unitHolds_memory htrap h

/-- A resident entry is gone after the edge when it was issued or squashed. -/
theorem entry_gone_iff (htrap : s.trapValid i = false) {j : IqIndex}
    (hvalid : (s.iq.entries j).valid = true) :
    ((s.step i).iq.entries j).valid = false ↔
      s.issued i j = true ∨
        s.recoveryYoungerMask i (s.iq.entries j).robTag = true := by
  have hwoken : (IssueQueue.wakeEntry s.prfWriteback
      (s.iq.entries j)).valid = true := hvalid
  cases hrec : s.recoveryValid i with
  | true =>
      rw [step_iq_recover htrap hrec, IssueQueue.stepRecover_entries]
      change (if s.issued i j = true then _ else _ : Uop).valid = false ↔ _
      cases hissued : s.issued i j <;>
        cases hmask : s.recoveryYoungerMask i (s.iq.entries j).robTag <;>
        simp [hvalid, hwoken] <;> rfl
  | false =>
      have hmask : s.recoveryYoungerMask i (s.iq.entries j).robTag = false := by
        rw [recoveryYoungerMask, hrec]
        exact ReorderBuffer.recoverYoungerMask_false _
      rw [step_iq_normal htrap hrec, hmask]
      cases hissued : s.issued i j with
      | false =>
          rw [s.iq.stepNormal_resident _ _ _ _ hvalid hissued, hwoken]
          simp
      | true =>
          have hne (l : Lane) :
              s.iq.dispatchSlot (s.renamedUop i) l ≠ some j := by
            intro hslot
            rw [s.iq.dispatchSlot_free _ hslot] at hvalid
            cases hvalid
          have hleaves : IssueQueue.leaves (s.iq.select s.prfWriteback)
              (s.issueReady i) s.issueFallbackReady j = true := hissued
          rw [IssueQueue.stepNormal_entries, if_neg (hne 1), if_neg (hne 0),
            if_pos hleaves]
          exact ⟨fun _ => Or.inl rfl, fun _ => rfl⟩

/-- Issue steering in one cycle: what is offered, who takes it, what leaves. -/
structure IssueSteered (s : Backend) (i : Inputs) : Prop where
  distinct : ∀ a b j, s.issueSelection.candidate a = some j →
    s.issueSelection.candidate b = some j → a = b
  ready : ∀ a j, s.issueSelection.candidate a = some j →
    (s.iq.entries j).valid = true ∧
      IssueQueue.SourcesReady s.prfWriteback (s.iq.entries j)
  memory : ∀ a j, s.issueSelection.candidate a = some j →
    (s.iq.entries j).fuClass = .memory ∨ (s.iq.entries j).fuClass = .csr →
    a = 0
  branch : ∀ a j, s.issueSelection.candidate a = some j →
    (s.iq.entries j).fuClass = .branch → a = 1
  fallback : ∀ j, s.issueSelection.candidate 2 = some j →
    (s.iq.entries j).fuClass = .integer
  width : s.acceptedCount i ≤ 2
  oneEntry : ∀ unit j k, s.Latches i j unit → s.Latches i k unit → j = k
  oneUnit : ∀ j unit unit', s.Latches i j unit → s.Latches i j unit' →
    unit = unit'
  latched : s.trapValid i = false → ∀ j unit, s.Latches i j unit →
    (s.step i).UnitHolds (s.iq.entries j) unit
  issued : s.trapValid i = false → ∀ j,
    s.issued i j = true ↔ ∃! unit, s.Latches i j unit
  gone : s.trapValid i = false → ∀ j, (s.iq.entries j).valid = true →
    (((s.step i).iq.entries j).valid = false ↔ s.issued i j = true ∨
      s.recoveryYoungerMask i (s.iq.entries j).robTag = true)

/-- Issue steering is safe in every state and under every input. -/
theorem issue_steering (s : Backend) (i : Inputs) : s.IssueSteered i := by
  constructor
  · exact fun a b j => s.iq.candidate_injective s.prfWriteback
  · exact fun a j hj => (IssueQueue.readyEntry_iff _).mp
      (s.iq.candidate_ready s.prfWriteback hj)
  · exact fun a j hj => (s.iq.candidate_class s.prfWriteback hj).1
  · exact fun a j hj => (s.iq.candidate_class s.prfWriteback hj).2.1
  · exact fun j hj => (s.iq.candidate_class s.prfWriteback hj).2.2 rfl
  · exact s.acceptedCount_le i
  · exact fun unit j k => latches_entry
  · exact fun j unit unit' => latches_unique
  · exact fun htrap j unit => latches_unitHolds htrap
  · intro htrap j
    rw [issued_iff htrap]
    constructor
    · rintro ⟨unit, hlatch⟩
      exact ⟨unit, hlatch, fun unit' h => latches_unique h hlatch⟩
    · exact ExistsUnique.exists
  · exact fun htrap j => entry_gone_iff htrap

end Backend

end OoOCore
