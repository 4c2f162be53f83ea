/-
Sequences of partial writes.  A write covers some places and gives each of them
a value; after a sequence of writes a place holds what the youngest write that
covers it gave, or what it held before.
-/
import Mathlib.Data.List.Induction

namespace OoOCore

namespace Overwrite

variable {A B : Type}

/-- What `a` holds after the writes, oldest first, when it held `m a` before. -/
def after (m : A → B) (writes : List (A → Option B)) (a : A) : B :=
  (writes.reverse.findSome? fun w => w a).getD (m a)

@[simp] theorem after_nil (m : A → B) (a : A) : after m [] a = m a := rfl

/-- The youngest writes decide first. -/
theorem after_append (m : A → B) (older younger : List (A → Option B))
    (a : A) : after m (older ++ younger) a = after (after m older) younger a := by
  unfold after
  rw [List.reverse_append, List.findSome?_append]
  cases younger.reverse.findSome? fun w => w a <;> rfl

theorem after_snoc (m : A → B) (writes : List (A → Option B))
    (w : A → Option B) (a : A) :
    after m (writes ++ [w]) a = (w a).getD (after m writes a) := by
  rw [after_append]
  unfold after
  simp only [List.reverse_singleton, List.findSome?_cons, List.findSome?_nil]
  cases w a <;> rfl

/-- Writes that do not cover the place are invisible there. -/
theorem after_skip (m : A → B) {writes : List (A → Option B)} {a : A}
    (hnone : ∀ w ∈ writes, w a = none) : after m writes a = m a := by
  have hfind : (writes.reverse.findSome? fun w => w a) = none := by
    rw [List.findSome?_eq_none_iff]
    intro w hw
    exact hnone w (List.mem_reverse.mp hw)
  rw [after, hfind]
  rfl

theorem after_filterMap_snoc {S T : Type} (m : A → B) (write : S → A → Option B)
    (f : T → Option S) (items : List T) (t : T) (a : A) :
    after m (((items ++ [t]).filterMap f).map write) a =
      ((f t).bind fun r => write r a).getD
        (after m ((items.filterMap f).map write) a) := by
  rw [List.filterMap_append, List.map_append, after_append]
  cases h : f t with
  | none => simp [h]
  | some r =>
      rw [List.filterMap_cons, h, List.filterMap_nil]
      exact after_snoc _ [] _ _

/-- Only what the writes do at the place matters. -/
theorem after_filterMap_congr {S T : Type} (m : A → B)
    {write : S → A → Option B} {f g : T → Option S} {items : List T} {a : A}
    (hsame : ∀ t ∈ items,
      ((f t).bind fun r => write r a) = (g t).bind fun r => write r a) :
    after m ((items.filterMap f).map write) a =
      after m ((items.filterMap g).map write) a := by
  induction items using List.reverseRecOn with
  | nil => rfl
  | append_singleton items t ih =>
      rw [after_filterMap_snoc, after_filterMap_snoc, hsame t (by simp), ih]
      intro t' ht'
      exact hsame t' (List.mem_append_left _ ht')

end Overwrite

end OoOCore
