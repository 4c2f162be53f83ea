/-
Runs of a clocked component from its reset state.  An input may be promised to
be legal in the state that receives it; what every legal step keeps then holds
after every legal run.
-/
import Mathlib.Data.List.Basic
import Mathlib.Data.List.Induction

namespace OoOCore

namespace Run

variable {σ ι : Type} {step : σ → ι → σ} {init : σ} {legal : σ → ι → Prop}

/-- Every input is legal in the state that receives it. -/
def Legal (step : σ → ι → σ) (init : σ) (legal : σ → ι → Prop)
    (inputs : List ι) : Prop :=
  ∀ before x after, inputs = before ++ x :: after →
    legal (before.foldl step init) x

theorem Legal.nil : Legal step init legal [] := by
  intro before x after heq
  simp at heq

theorem legal_append {before : List ι} {x : ι} :
    Legal step init legal (before ++ [x]) ↔
      Legal step init legal before ∧ legal (before.foldl step init) x := by
  constructor
  · intro h
    refine ⟨?_, h before x [] rfl⟩
    intro front y rest hfront
    apply h front y (rest ++ [x])
    rw [hfront, List.append_assoc]
    rfl
  · rintro ⟨h, hx⟩ front y rest heq
    rcases List.eq_nil_or_concat rest with rfl | ⟨rest', z, rfl⟩
    · obtain ⟨rfl, hxy⟩ := List.append_inj' heq rfl
      cases hxy
      exact hx
    · apply h front y rest'
      rw [List.concat_eq_append, ← List.cons_append,
        ← List.append_assoc] at heq
      exact (List.append_inj' heq rfl).1

theorem legal_cons {x : ι} {after : List ι} :
    Legal step init legal (x :: after) ↔
      legal init x ∧ Legal step (step init x) legal after := by
  constructor
  · intro h
    refine ⟨h [] x after rfl, ?_⟩
    intro before y rest heq
    apply h (x :: before) y rest
    rw [heq]
    rfl
  · rintro ⟨hx, h⟩ before y rest heq
    cases before with
    | nil =>
        cases heq
        exact hx
    | cons z before =>
        rw [List.cons_append, List.cons.injEq] at heq
        obtain ⟨rfl, hafter⟩ := heq
        exact h before y rest hafter

/-- A run is checked input by input. -/
def decidableLegal [∀ s x, Decidable (legal s x)] :
    (init : σ) → (inputs : List ι) → Decidable (Legal step init legal inputs)
  | _, [] => isTrue Legal.nil
  | init, x :: after =>
      have := decidableLegal (step init x) after
      decidable_of_iff _ legal_cons.symm

instance [∀ s x, Decidable (legal s x)] (inputs : List ι) :
    Decidable (Legal step init legal inputs) :=
  decidableLegal init inputs

/-- The invariant rule of legal runs. -/
theorem Legal.invariant {holds : σ → Prop} (hinit : holds init)
    (hstep : ∀ s x, holds s → legal s x → holds (step s x))
    {inputs : List ι} (h : Legal step init legal inputs) :
    holds (inputs.foldl step init) := by
  induction inputs using List.reverseRecOn with
  | nil => exact hinit
  | append_singleton before x ih =>
      obtain ⟨hbefore, hx⟩ := legal_append.mp h
      rw [List.foldl_append]
      exact hstep _ x (ih hbefore) hx

end Run

end OoOCore
