/-
What the selection loops of the issue queue can return: every choice is a ready
entry of its class, the three choices are different entries, and a branch is
offered on port 1 only.
-/
import OoOCore.IssueQueue

namespace OoOCore

namespace IssueQueue

variable (q : IssueQueue)

theorem selectStep_candidate {candidate : IqIndex → Bool}
    {held : Option IqIndex} (hheld : ∀ j, held = some j → candidate j)
    (k : IqIndex) : ∀ j, q.selectStep candidate held k = some j →
      candidate j := by
  intro j hj
  cases held with
  | none =>
      simp only [selectStep] at hj
      split at hj
      · next hk => cases hj; exact hk
      · cases hj
  | some m =>
      simp only [selectStep] at hj
      split at hj
      · next hk => cases hj; exact hk.1
      · exact hheld j hj

theorem selectOldest_candidate {candidate : IqIndex → Bool} {j : IqIndex}
    (hj : q.selectOldest candidate = some j) : candidate j := by
  have hfold : ∀ (l : List IqIndex) (held : Option IqIndex),
      (∀ j, held = some j → candidate j) →
      ∀ j, l.foldl (q.selectStep candidate) held = some j → candidate j := by
    intro l
    induction l with
    | nil =>
        intro held hheld j hj
        exact hheld j hj
    | cons k rest ih =>
        intro held hheld
        exact ih _ (q.selectStep_candidate hheld k)
  exact hfold _ none (by simp) j hj

theorem selectStep_none {candidate : IqIndex → Bool} {held : Option IqIndex}
    {k : IqIndex} (hnone : q.selectStep candidate held k = none) :
    held = none ∧ candidate k = false := by
  cases held with
  | none =>
      simp only [selectStep] at hnone
      split at hnone
      · cases hnone
      · next hk => exact ⟨rfl, by simpa using hk⟩
  | some m =>
      simp only [selectStep] at hnone
      split at hnone <;> cases hnone

theorem selectOldest_none {candidate : IqIndex → Bool}
    (hnone : q.selectOldest candidate = none) (j : IqIndex) :
    candidate j = false := by
  have hfold : ∀ (l : List IqIndex) (held : Option IqIndex),
      l.foldl (q.selectStep candidate) held = none →
      held = none ∧ ∀ j ∈ l, candidate j = false := by
    intro l
    induction l with
    | nil =>
        intro held hheld
        exact ⟨hheld, by simp⟩
    | cons k rest ih =>
        intro held hfold
        obtain ⟨hstep, hrest⟩ := ih _ hfold
        obtain ⟨hheld, hk⟩ := q.selectStep_none hstep
        refine ⟨hheld, ?_⟩
        intro j hj
        rcases List.mem_cons.mp hj with rfl | hj
        · exact hk
        · exact hrest j hj
  exact (hfold _ none hnone).2 j (List.mem_finRange j)

variable (wb : Lane → Writeback)

theorem select_port0_ready {j : IqIndex} (hj : (q.select wb).port0 = some j) :
    readyEntry wb (q.entries j) := by
  simp only [select] at hj
  split at hj
  · have hcand := q.selectOldest_candidate hj
    simp only [Bool.and_eq_true] at hcand
    exact hcand.1
  · have hcand := q.selectOldest_candidate hj
    simp only [Bool.and_eq_true] at hcand
    exact hcand.1.1

theorem select_port1_candidate {j : IqIndex}
    (hj : (q.select wb).port1 = some j) :
    readyEntry wb (q.entries j) ∧
      ((q.entries j).fuClass = .integer ∨ (q.entries j).fuClass = .branch) := by
  simp only [select] at hj
  split at hj <;>
    · have hcand := q.selectOldest_candidate hj
      simp only [Bool.and_eq_true, Bool.or_eq_true, isClass, beq_iff_eq]
        at hcand
      tauto

theorem select_fallback_candidate {j : IqIndex}
    (hj : (q.select wb).fallback = some j) :
    readyEntry wb (q.entries j) ∧ (q.entries j).fuClass = .integer := by
  have hcand := q.selectOldest_candidate hj
  simp only [Bool.and_eq_true, isClass, beq_iff_eq] at hcand
  exact ⟨hcand.1.1.1, hcand.1.1.2⟩

theorem select_port1_ne_port0 {j : IqIndex}
    (hj : (q.select wb).port1 = some j) : (q.select wb).port0 ≠ some j := by
  intro h0
  simp only [select] at hj h0
  split at hj
  · next hsome =>
    have h1 := q.selectOldest_candidate hj
    rw [hj] at h0
    split at h0
    · next hmem =>
      simp [h0] at h1
    · have hcand := q.selectOldest_candidate h0
      simp at hcand
  · have hcand := q.selectOldest_candidate hj
    simp only [Bool.and_eq_true, bne_iff_ne, ne_eq] at hcand
    exact hcand.1.2 h0.symm

theorem select_fallback_ne {j : IqIndex}
    (hj : (q.select wb).fallback = some j) :
    (q.select wb).port0 ≠ some j ∧ (q.select wb).port1 ≠ some j := by
  have hcand := q.selectOldest_candidate hj
  simp only [Bool.and_eq_true, bne_iff_ne, ne_eq] at hcand
  exact ⟨fun h => hcand.1.2 h.symm, fun h => hcand.2 h.symm⟩

/-- A ready branch always has the integer/branch loop to itself, so port 0
never carries one. -/
theorem select_port0_not_branch {j : IqIndex}
    (hj : (q.select wb).port0 = some j) :
    (q.entries j).fuClass ≠ .branch := by
  intro hbranch
  simp only [select] at hj
  split at hj
  · have hcand := q.selectOldest_candidate hj
    simp [isClass, hbranch] at hcand
  · next hmem =>
    have hcand := q.selectOldest_candidate hj
    simp only [Bool.and_eq_true, Bool.not_eq_true', bne_iff_ne, ne_eq] at hcand
    obtain ⟨⟨hready, -⟩, hnot⟩ := hcand
    have hclass : q.isClass j .branch = true := by simp [isClass, hbranch]
    rw [hclass, Bool.and_true, Option.isSome_eq_false_iff,
      Option.isNone_iff_eq_none] at hnot
    have hcontra := q.selectOldest_none hnot j
    rw [Bool.not_eq_true, Option.isSome_eq_false_iff,
      Option.isNone_iff_eq_none] at hmem
    simp [hready, hclass, hmem] at hcontra

theorem readyEntry_valid {u : Uop} (hready : readyEntry wb u) :
    u.valid = true := by
  simp only [readyEntry, Bool.and_eq_true] at hready
  exact hready.1.1

end IssueQueue

end OoOCore
