/-
Circular windows: the occupied part of a fixed array addressed by a base slot
and a length, read oldest first.  Every queue of the core stores its entries
this way, so the wrap-around arithmetic is settled here once.
-/
import Mathlib.Algebra.GroupWithZero.Nat
import Mathlib.Data.List.Nodup
import Mathlib.Data.List.Range
import Mathlib.Logic.Function.Basic

namespace OoOCore

namespace Ring

variable {n : Nat} [NeZero n]

/-- The slot `k` steps after `base`, wrapping at the end of the array. -/
def slot (base : Fin n) (k : Nat) : Fin n :=
  ⟨(base.val + k) % n, Nat.mod_lt _ (Nat.pos_of_neZero n)⟩

/-- How many forward steps lead from `base` to `target`. -/
def dist (base target : Fin n) : Nat :=
  (target.val + (n - base.val)) % n

/-- The `count` slots starting at `base`, oldest first. -/
def slots (base : Fin n) (count : Nat) : List (Fin n) :=
  (List.range count).map (slot base)

@[simp] theorem slot_zero (base : Fin n) : slot base 0 = base := by
  apply Fin.ext
  simp [slot, Nat.mod_eq_of_lt base.isLt]

theorem slot_slot (base : Fin n) (j k : Nat) :
    slot (slot base j) k = slot base (j + k) := by
  apply Fin.ext
  simp only [slot, Nat.mod_add_mod, Nat.add_assoc]

@[simp] theorem slot_dist (base target : Fin n) :
    slot base (dist base target) = target := by
  apply Fin.ext
  have hb := base.isLt
  have ht := target.isLt
  simp only [slot, dist, Nat.add_mod_mod]
  have hsum : base.val + (target.val + (n - base.val)) = target.val + n := by
    omega
  rw [hsum, Nat.add_mod_right, Nat.mod_eq_of_lt ht]

theorem dist_slot (base : Fin n) {k : Nat} (hk : k < n) :
    dist base (slot base k) = k := by
  have hb := base.isLt
  simp only [slot, dist, Nat.mod_add_mod]
  have hsum : base.val + k + (n - base.val) = k + n := by omega
  rw [hsum, Nat.add_mod_right, Nat.mod_eq_of_lt hk]

theorem slot_injective (base : Fin n) {j k : Nat} (hj : j < n) (hk : k < n)
    (heq : slot base j = slot base k) : j = k := by
  have hdist := congrArg (dist base) heq
  rwa [dist_slot base hj, dist_slot base hk] at hdist

theorem dist_injective (base : Fin n) {a b : Fin n}
    (heq : dist base a = dist base b) : a = b := by
  rw [← slot_dist base a, heq, slot_dist]

@[simp] theorem slots_zero (base : Fin n) : slots base 0 = [] := rfl

@[simp] theorem slots_length (base : Fin n) (count : Nat) :
    (slots base count).length = count := by
  simp [slots]

@[simp] theorem slots_getElem (base : Fin n) (count k : Nat)
    (hk : k < (slots base count).length) :
    (slots base count)[k] = slot base k := by
  simp [slots]

theorem slots_getElem? (base : Fin n) {count k : Nat} (hk : k < count) :
    (slots base count)[k]? = some (slot base k) := by
  rw [List.getElem?_eq_getElem (by simpa using hk), slots_getElem]

theorem slots_succ (base : Fin n) (count : Nat) :
    slots base (count + 1) = slots base count ++ [slot base count] := by
  simp [slots, List.range_succ]

theorem slots_add (base : Fin n) (a b : Nat) :
    slots base (a + b) = slots base a ++ slots (slot base a) b := by
  induction b with
  | zero => simp
  | succ b ih =>
      rw [← Nat.add_assoc, slots_succ, ih, slots_succ, slot_slot,
        List.append_assoc]

theorem slots_cons (base : Fin n) (count : Nat) :
    slots base (count + 1) = base :: slots (slot base 1) count := by
  rw [Nat.add_comm, slots_add]
  simp [slots]

theorem slots_take (base : Fin n) {count k : Nat} (hk : k ≤ count) :
    (slots base count).take k = slots base k := by
  obtain ⟨rest, rfl⟩ := Nat.exists_eq_add_of_le hk
  rw [slots_add, List.take_append_of_le_length (by simp),
    List.take_of_length_le (by simp)]

theorem slots_drop (base : Fin n) {count k : Nat} (hk : k ≤ count) :
    (slots base count).drop k = slots (slot base k) (count - k) := by
  obtain ⟨rest, rfl⟩ := Nat.exists_eq_add_of_le hk
  rw [slots_add, List.drop_append_of_le_length (by simp),
    List.drop_of_length_le (by simp), List.nil_append,
    Nat.add_sub_cancel_left]

/-- A window no longer than the array visits a slot exactly when the forward
distance from its base is below its length. -/
theorem mem_slots (base target : Fin n) {count : Nat} (hcount : count ≤ n) :
    target ∈ slots base count ↔ dist base target < count := by
  simp only [slots, List.mem_map, List.mem_range]
  constructor
  · rintro ⟨k, hk, rfl⟩
    rwa [dist_slot base (Nat.lt_of_lt_of_le hk hcount)]
  · intro hlt
    exact ⟨dist base target, hlt, slot_dist base target⟩

theorem slots_nodup (base : Fin n) {count : Nat} (hcount : count ≤ n) :
    (slots base count).Nodup := by
  rw [slots, List.nodup_map_iff_inj_on List.nodup_range]
  intro j hj k hk heq
  rw [List.mem_range] at hj hk
  exact slot_injective base (Nat.lt_of_lt_of_le hj hcount)
    (Nat.lt_of_lt_of_le hk hcount) heq

/-- The tail slot of a window that is not full lies outside the window. -/
theorem slot_not_mem_slots (base : Fin n) {count k : Nat}
    (hle : count ≤ k) (hk : k < n) : slot base k ∉ slots base count := by
  rw [mem_slots base _ (by omega), dist_slot base hk]
  omega

/-- A scan over the whole array that does nothing past the occupied part. -/
theorem foldl_range_occupied {A : Type} {f : A → Nat → A} {count depth : Nat}
    (hle : count ≤ depth) (hskip : ∀ acc k, count ≤ k → f acc k = acc)
    (acc : A) :
    (List.range depth).foldl f acc = (List.range count).foldl f acc := by
  induction depth, hle using Nat.le_induction with
  | base => rfl
  | succ depth hle ih =>
      rw [List.range_succ, List.foldl_append, ih]
      exact hskip _ depth hle

end Ring

end OoOCore
