/-
Bit-serial machines over the two-element field.  When the step is linear, what
a run comes to is the exclusive or of a run on no input and of one column for
every set input bit, so a matrix of parities replaces the serial chain.
-/
import Mathlib.Data.List.Basic

namespace OoOCore

namespace Serial

variable {w : Nat} {κ : Type}

/-- The exclusive or of the first bits of a sequence. -/
def parity (f : Nat → Bool) : Nat → Bool
  | 0 => false
  | n + 1 => parity f n ^^ f n

theorem parity_foldl (f : Nat → Bool) (n : Nat) :
    (List.range n).foldl (fun acc j => acc ^^ f j) false = parity f n := by
  induction n with
  | zero => rfl
  | succ n ih =>
      rw [List.range_succ, List.foldl_append, ih]
      rfl

theorem parity_congr {f g : Nat → Bool} {n : Nat}
    (hsame : ∀ j < n, f j = g j) : parity f n = parity g n := by
  induction n with
  | zero => rfl
  | succ n ih =>
      rw [parity, parity, ih fun j hj => hsame j (Nat.lt_succ_of_lt hj),
        hsame n (Nat.lt_succ_self n)]

theorem parity_false (n : Nat) : parity (fun _ => false) n = false := by
  induction n with
  | zero => rfl
  | succ n ih => rw [parity, ih, Bool.xor_false]

/-- Only one position counts. -/
theorem parity_single (f : Nat → Bool) {k n : Nat} (hk : k < n) :
    parity (fun j => f j && (k == j)) n = f k := by
  induction n with
  | zero => exact absurd hk (Nat.not_lt_zero k)
  | succ n ih =>
      rw [parity]
      by_cases hlast : k = n
      · have hnone : parity (fun j => f j && (k == j)) n = false := by
          rw [← parity_false n]
          apply parity_congr
          intro j hj
          have hne : (k == j) = false := beq_false_of_ne (by omega)
          rw [hne, Bool.and_false]
        rw [hnone, hlast, beq_self_eq_true, Bool.and_true, Bool.false_xor]
      · have hne : (k == n) = false := beq_false_of_ne hlast
        rw [ih (by omega), hne, Bool.and_false, Bool.xor_false]

/-- The step takes exclusive ors of states and inputs to exclusive ors. -/
def Linear (step : BitVec w → Bool → BitVec w) : Prop :=
  ∀ a b x y, step (a ^^^ b) (x ^^ y) = step a x ^^^ step b y

/-- A run that reads its input bits by the keys of a list. -/
def run (step : BitVec w → Bool → BitVec w) (state : BitVec w)
    (keys : List κ) (input : κ → Bool) : BitVec w :=
  keys.foldl (fun state key => step state (input key)) state

section Runs

variable {step : BitVec w → Bool → BitVec w}

theorem run_congr {keys : List κ} {input input' : κ → Bool}
    (hsame : ∀ key ∈ keys, input key = input' key)
    (state : BitVec w) :
    run step state keys input = run step state keys input' := by
  induction keys generalizing state with
  | nil => rfl
  | cons key rest ih =>
      rw [run, List.foldl_cons, hsame key List.mem_cons_self]
      exact ih (fun k hk => hsame k (List.mem_cons_of_mem key hk)) _

/-- Runs from two states on two inputs superpose. -/
theorem Linear.run_xor (h : Linear step) (keys : List κ)
    (input input' : κ → Bool) (a b : BitVec w) :
    run step (a ^^^ b) keys (fun key => input key ^^ input' key) =
      run step a keys input ^^^ run step b keys input' := by
  induction keys generalizing a b with
  | nil => rfl
  | cons key rest ih =>
      rw [run, List.foldl_cons, h]
      exact ih _ _

/-- Nothing comes of nothing. -/
theorem Linear.run_false (h : Linear step) (keys : List κ) :
    run step 0#w keys (fun _ => false) = 0#w := by
  have hzero : step 0#w false = 0#w := by
    have hsum := h 0#w 0#w false false
    rwa [BitVec.xor_self, BitVec.xor_self, Bool.xor_false] at hsum
  induction keys with
  | nil => rfl
  | cons key rest ih =>
      rw [run, List.foldl_cons, hzero]
      exact ih

/-- Each output bit of a run on a combination of inputs is the parity of that
bit in the runs on the inputs that take part. -/
theorem Linear.run_parity (h : Linear step) (keys : List κ)
    (c : Nat → Bool) (basis : Nat → κ → Bool) (n i : Nat) :
    (run step 0#w keys fun key =>
        parity (fun j => c j && basis j key) n).getLsbD i =
      parity (fun j => c j && (run step 0#w keys (basis j)).getLsbD i) n := by
  induction n with
  | zero =>
      simp only [parity]
      rw [h.run_false, BitVec.getLsbD_zero]
  | succ n ih =>
      have hlast : run step 0#w keys (fun key => c n && basis n key) =
          if c n then run step 0#w keys (basis n) else 0#w := by
        cases c n with
        | true => simp only [Bool.true_and, if_true]
        | false =>
            simp only [Bool.false_and, Bool.false_eq_true, if_false]
            exact h.run_false keys
      have hsplit := h.run_xor keys
        (fun key => parity (fun j => c j && basis j key) n)
        (fun key => c n && basis n key) 0#w 0#w
      rw [BitVec.xor_self] at hsplit
      simp only [parity]
      rw [hsplit, BitVec.getLsbD_xor, ih, hlast]
      cases c n with
      | true => rfl
      | false => rw [if_neg Bool.false_ne_true, BitVec.getLsbD_zero]; rfl

/-- A run on two blocks of input bits, from the run of the seed alone and the
columns of the two blocks. -/
theorem Linear.run_columns (h : Linear step) (keys : List κ)
    (seed : BitVec w) (c d : Nat → Bool) (basis basis' : Nat → κ → Bool)
    (m n i : Nat) :
    (run step seed keys fun key =>
        parity (fun j => c j && basis j key) m ^^
          parity (fun j => d j && basis' j key) n).getLsbD i =
      ((run step seed keys fun _ => false).getLsbD i ^^
        parity (fun j => c j && (run step 0#w keys (basis j)).getLsbD i) m ^^
        parity (fun j => d j && (run step 0#w keys (basis' j)).getLsbD i) n) := by
  have hblocks := h.run_xor keys
    (fun key => parity (fun j => c j && basis j key) m)
    (fun key => parity (fun j => d j && basis' j key) n) seed 0#w
  have hfirst := h.run_xor keys (fun _ => false)
    (fun key => parity (fun j => c j && basis j key) m) seed 0#w
  simp only [BitVec.xor_zero, Bool.false_xor] at hblocks hfirst
  rw [hblocks, hfirst, BitVec.getLsbD_xor, BitVec.getLsbD_xor, h.run_parity,
    h.run_parity]

end Runs

end Serial

end OoOCore
