/-
The fold of a bit sequence: the bits at positions that agree modulo a width are
combined by exclusive or.  A fold follows a shift of the sequence by a rotation,
the new bit and the bit that leaves the window.
-/
import Mathlib.Data.Nat.ModEq

namespace OoOCore

namespace Fold

/-- Bit `j` of the fold of the first bits of a sequence. -/
def bit (width : Nat) (h : Nat → Bool) (j : Nat) : Nat → Bool
  | 0 => false
  | n + 1 => bit width h j n ^^ (decide (n % width = j) && h n)

/-- The sequence with a new first bit. -/
def shift (b : Bool) (h : Nat → Bool) : Nat → Bool
  | 0 => b
  | n + 1 => h n

/-- A fold depends on the bits of its window only. -/
theorem bit_congr {width j n : Nat} {h h' : Nat → Bool}
    (hsame : ∀ k < n, h k = h' k) : bit width h j n = bit width h' j n := by
  induction n with
  | zero => rfl
  | succ n ih =>
      rw [bit, bit, ih fun k hk => hsame k (Nat.lt_succ_of_lt hk),
        hsame n (Nat.lt_succ_self n)]

theorem bit_false (width j n : Nat) :
    bit width (fun _ => false) j n = false := by
  induction n with
  | zero => rfl
  | succ n ih => rw [bit, ih, Bool.and_false, Bool.xor_false]

section Shift

variable {width j : Nat} {h : Nat → Bool} {b : Bool}

theorem succ_mod_eq_iff {i : Nat} (hj : j < width) :
    (i + 1) % width = j ↔ i % width = (j + (width - 1)) % width := by
  have hwidth : 0 < width := by omega
  constructor
  · intro hi
    rw [← hi, Nat.mod_add_mod]
    have hsum : i + 1 + (width - 1) = i + width := by omega
    rw [hsum, Nat.add_mod_right]
  · intro hi
    rw [← Nat.mod_add_mod, hi, Nat.mod_add_mod]
    have hsum : j + (width - 1) + 1 = j + width := by omega
    rw [hsum, Nat.add_mod_right, Nat.mod_eq_of_lt hj]

/-- The bits behind the new one are folded one position further. -/
theorem bit_shift_succ (hj : j < width) (n : Nat) :
    bit width (shift b h) j (n + 1) =
      ((decide (j = 0) && b) ^^
        bit width h ((j + (width - 1)) % width) n) := by
  induction n with
  | zero =>
      have hzero : (0 % width = j) ↔ (j = 0) := by
        rw [Nat.zero_mod]
        exact eq_comm
      simp only [bit, shift, Bool.false_xor, Bool.xor_false, hzero]
  | succ n ih =>
      rw [bit, ih, bit, Bool.xor_assoc]
      congr 2
      simp only [shift, succ_mod_eq_iff hj]

/-- The fold of a shifted sequence, from the fold before the shift. -/
theorem bit_shift (hj : j < width) {n : Nat} (hn : 0 < n) :
    bit width (shift b h) j n =
      (bit width h ((j + (width - 1)) % width) n ^^ (decide (j = 0) && b) ^^
        (decide (n % width = j) && h (n - 1))) := by
  have hfull := bit_shift_succ (h := h) (b := b) hj n
  obtain ⟨k, rfl⟩ := Nat.exists_eq_succ_of_ne_zero hn.ne'
  rw [bit] at hfull
  have hlast : shift b h (k + 1) = h (k + 1 - 1) := rfl
  rw [hlast] at hfull
  -- The bit at the end of the window is on both sides.
  generalize (decide ((k + 1) % width = j) && h (k + 1 - 1)) = outgoing
    at hfull ⊢
  generalize bit width (shift b h) j (k + 1) = folded at hfull ⊢
  generalize bit width h ((j + (width - 1)) % width) (k + 1) = rotated
    at hfull ⊢
  generalize (decide (j = 0) && b) = incoming at hfull ⊢
  revert hfull
  cases outgoing <;> cases folded <;> cases rotated <;> cases incoming <;> decide

end Shift

section Blocks

variable {width j : Nat} {h : Nat → Bool}

/-- Up to a whole block more adds one bit of the block at most. -/
theorem bit_block (hj : j < width) (k : Nat) {r : Nat} (hr : r ≤ width) :
    bit width h j (width * k + r) =
      (bit width h j (width * k) ^^ (decide (j < r) && h (width * k + j))) := by
  induction r with
  | zero => simp
  | succ r ih =>
      rw [← Nat.add_assoc, bit, ih (by omega), Nat.mul_add_mod,
        Nat.mod_eq_of_lt (show r < width by omega)]
      by_cases heq : r = j
      · subst heq
        simp
      · have hlt : j < r + 1 ↔ j < r := by omega
        simp [heq, hlt]

/-- Whole blocks are folded bit by bit. -/
theorem bit_mul (hj : j < width) (k : Nat) :
    bit width h j (width * k) =
      (List.range k).foldl (fun acc i => acc ^^ h (width * i + j)) false := by
  induction k with
  | zero => rfl
  | succ k ih =>
      rw [Nat.mul_succ, bit_block hj k le_rfl, ih, List.range_succ,
        List.foldl_append]
      simp [hj]

end Blocks

end Fold

end OoOCore
