/-
Paths as lists of links.  Each link leads to the place of the next one, except
behind a gap, from which a path may go on anywhere.
-/
import Mathlib.Data.List.Basic

namespace OoOCore

/-- A place on a path and the place it leads to. -/
structure Link (α : Type*) where
  place : α
  next : α

namespace Link

variable {α : Type*} {gap : α → Prop} {start a b : α} {l : Link α}
  {first second : List (Link α)}

/-- What leads to `a` goes on at `b`. -/
def Leads (gap : α → Prop) (a b : α) : Prop := b = a ∨ gap a

/-- Where a path from `start` leads. -/
def endOf (start : α) : List (Link α) → α
  | [] => start
  | l :: rest => endOf l.next rest

/-- The links follow each other from `start` on. -/
def Follows (gap : α → Prop) (start : α) : List (Link α) → Prop
  | [] => True
  | l :: rest => Leads gap start l.place ∧ Follows gap l.next rest

theorem Leads.refl (gap : α → Prop) (a : α) : Leads gap a a := Or.inl rfl

theorem Leads.trans {c : α} (h : Leads gap a b) (h' : Leads gap b c) :
    Leads gap a c := by
  rcases h with rfl | hgap
  · exact h'
  · exact Or.inr hgap

theorem endOf_append (start : α) (first second : List (Link α)) :
    endOf start (first ++ second) = endOf (endOf start first) second := by
  induction first generalizing start with
  | nil => rfl
  | cons l rest ih => exact ih l.next

theorem endOf_snoc (start : α) (first : List (Link α)) (l : Link α) :
    endOf start (first ++ [l]) = l.next := endOf_append start first [l]

theorem follows_append : Follows gap start (first ++ second) ↔
    Follows gap start first ∧ Follows gap (endOf start first) second := by
  induction first generalizing start with
  | nil => simp [Follows, endOf]
  | cons l rest ih =>
      simp only [List.cons_append, Follows, endOf, ih, and_assoc]

theorem follows_snoc : Follows gap start (first ++ [l]) ↔
    Follows gap start first ∧ Leads gap (endOf start first) l.place := by
  rw [follows_append]
  exact and_congr_right fun _ => and_iff_left trivial

/-- What follows from `b` on follows from where `b` is led to. -/
theorem Follows.of_leads (hab : Leads gap a b) (h : Follows gap b first)
    (hend : Leads gap (endOf b first) start) :
    Follows gap a first ∧ Leads gap (endOf a first) start := by
  cases first with
  | nil => exact ⟨trivial, hab.trans hend⟩
  | cons l rest => exact ⟨⟨hab.trans h.1, h.2⟩, hend⟩

end Link

end OoOCore
