/-
The folds of the statistical corrector.  Training rebuilds from the saved
history what prediction read from the fold registers; five of the six rebuild
expressions cover the history length of their register.
-/
import OoOCore.StatisticalCorrector

namespace OoOCore

namespace StatisticalCorrector

open TageFoldedHistory

section Rebuild

variable {history : TageHistory} {j : Nat}

theorem getLsbD_fold64 (history : TageHistory) (start : Nat) (hj : j < 8) :
    (fold64 (history.extractLsb' start 64)).getLsbD j =
      (List.range 8).foldl
        (fun acc i => acc ^^ history.getLsbD (start + 8 * i + j)) false := by
  have hrange : List.range 8 = [0, 1, 2, 3, 4, 5, 6, 7] := by decide
  rw [hrange]
  simp (disch := omega) only [fold64, BitVec.getLsbD_xor,
    BitVec.getLsbD_setWidth, BitVec.getLsbD_ushiftRight,
    BitVec.getLsbD_extractLsb', decide_eq_true, Bool.true_and, List.foldl,
    Bool.false_xor, Nat.mul_zero, Nat.add_zero, Nat.reduceMul,
    Nat.add_assoc]

/-- The bits of the rebuilt folds.  The expression of component 2 covers 16
bits of the history, its register 12. -/
theorem getLsbD_rebuildGlobalFold (hj : j < 8) (tableId : Fin 6) :
    (rebuildGlobalFold history tableId).getLsbD j =
      (Fold.bit 8 history.getLsbD j (historyLength tableId) ^^
        (decide (tableId = 2 ∧ 4 ≤ j) && history.getLsbD (8 + j))) := by
  have hblock (k : Nat) {r : Nat} (hr : r ≤ 8) :=
    Fold.bit_block (h := history.getLsbD) hj k hr
  have hmul (k : Nat) := Fold.bit_mul (h := history.getLsbD) hj k
  match tableId with
  | 0 =>
      have hmask : ∀ k < 8, (3#192).getLsbD k = decide (k < 2) := by decide
      change ((history &&& 3#192).setWidth 8).getLsbD j =
        (Fold.bit 8 history.getLsbD j (8 * 0 + 2) ^^ _)
      rw [hblock 0 (by decide), BitVec.getLsbD_setWidth, BitVec.getLsbD_and,
        hmask j hj]
      simp [hj, Fold.bit, Bool.and_comm]
  | 1 =>
      have hmask : ∀ k < 8, (63#192).getLsbD k = decide (k < 6) := by decide
      change ((history &&& 63#192).setWidth 8).getLsbD j =
        (Fold.bit 8 history.getLsbD j (8 * 0 + 6) ^^ _)
      rw [hblock 0 (by decide), BitVec.getLsbD_setWidth, BitVec.getLsbD_and,
        hmask j hj]
      simp [hj, Fold.bit, Bool.and_comm]
  | 2 =>
      change _ = (Fold.bit 8 history.getLsbD j (8 * 1 + 4) ^^ _)
      rw [hblock 1 (by decide), hmul]
      by_cases hlow : j < 4
      · have hhigh : ¬ 4 ≤ j := by omega
        simp [rebuildGlobalFold, hj, List.range_succ, hlow, hhigh]
      · have hhigh : 4 ≤ j := by omega
        simp [rebuildGlobalFold, hj, List.range_succ, hlow, hhigh]
  | 3 =>
      change _ = (Fold.bit 8 history.getLsbD j (8 * 3) ^^ _)
      rw [hmul]
      simp [rebuildGlobalFold, hj, List.range_succ]
  | 4 =>
      change _ = (Fold.bit 8 history.getLsbD j (8 * 6) ^^ _)
      rw [hmul]
      simp [rebuildGlobalFold, hj, List.range_succ]
  | 5 =>
      change (fold64 _ ^^^ fold64 _ ^^^ fold64 _).getLsbD j =
        (Fold.bit 8 history.getLsbD j (8 * 24) ^^ _)
      rw [hmul]
      simp only [BitVec.getLsbD_xor, getLsbD_fold64 _ _ hj]
      simp [List.range_succ]

/-- The high nibble that the register of component 2 does not see. -/
def foldable (history : TageHistory) (tableId : Fin 6) : Prop :=
  tableId = 2 → history.extractLsb' 12 4 = 0

/-- The rebuilt fold is the one the register holds, unless component 2 has a
taken branch 13 to 16 branches back. -/
theorem rebuild_eq_iff (history : TageHistory) (tableId : Fin 6) :
    rebuildGlobalFold history tableId =
        foldHistory (historyLength tableId) 8 history ↔
      foldable history tableId := by
  have hbits (j : Nat) (hj : j < 8) :=
    @getLsbD_rebuildGlobalFold history j hj tableId
  constructor
  · intro heq hid
    subst hid
    apply BitVec.eq_of_getLsbD_eq
    intro k hk
    have hbit := hbits (k + 4) (by omega)
    rw [heq, getLsbD_foldHistory (by decide)] at hbit
    have hcancel : ∀ x y : Bool, x = (x ^^ y) → y = false := by decide
    have hzero := hcancel _ _ hbit
    have hposition : 8 + (k + 4) = 12 + k := by omega
    rw [hposition] at hzero
    rw [BitVec.getLsbD_extractLsb', decide_eq_true hk, Bool.true_and]
    simpa using hzero
  · intro hclear
    apply BitVec.eq_of_getLsbD_eq
    intro j hj
    rw [hbits j hj, getLsbD_foldHistory (by decide)]
    by_cases hextra : tableId = 2 ∧ 4 ≤ j
    · have hnibble := congrArg (fun v => v.getLsbD (j - 4)) (hclear hextra.1)
      simp only [BitVec.getLsbD_extractLsb'] at hnibble
      have hlt : j - 4 < 4 := by omega
      have hposition : 12 + (j - 4) = 8 + j := by omega
      rw [decide_eq_true hlt, Bool.true_and, hposition] at hnibble
      rw [hnibble, show BitVec.getLsbD 0 (j - 4) = false from BitVec.getLsbD_zero,
        Bool.and_false, Bool.xor_false]
    · rw [decide_eq_false hextra, Bool.false_and, Bool.xor_false]

end Rebuild

section Training

variable {history : TageHistory} {foldedHistory : BitVec 8} {tableId : Fin 6}

theorem historyLength_bounds (tableId : Fin 6) :
    0 < historyLength tableId ∧ historyLength tableId ≤ 192 := by
  revert tableId
  decide

/-- Another fold of the history is another counter of component 2. -/
theorem hashGlobal_two_injective {pc : Word} {path : PathHistory}
    {fold fold' : BitVec 8}
    (h : hashGlobal pc fold path 2 = hashGlobal pc fold' path 2) :
    fold = fold' := by
  simp only [hashGlobal] at h
  rw [BitVec.xor_left_inj, BitVec.xor_left_inj, BitVec.xor_right_inj] at h
  exact h

/-- Whatever run a fold register has made, training rebuilds the fold it holds
and finds the global counter that was read, exactly when the history is
`foldable`.  The IMLI tables mix in folds that are always rebuilt. -/
theorem rebuilds_read_fold_iff
    (h : Run (historyLength tableId) 8 history foldedHistory) :
    (rebuildGlobalFold history tableId = foldedHistory ↔
      foldable history tableId) ∧
    (∀ pc path, hashGlobal pc (rebuildGlobalFold history tableId) path tableId =
        hashGlobal pc foldedHistory path tableId ↔ foldable history tableId) ∧
    ∀ t, imliFoldId t = tableId → ∀ pc imli path,
      hashImli pc imli (rebuildGlobalFold history tableId) path t =
        hashImli pc imli foldedHistory path t := by
  obtain ⟨hpositive, hfits⟩ := historyLength_bounds tableId
  have hfold := (h.follows hpositive hfits (by decide)).fold
  have hrebuild : rebuildGlobalFold history tableId = foldedHistory ↔
      foldable history tableId := by
    rw [hfold]
    exact rebuild_eq_iff history tableId
  refine ⟨hrebuild, ?_, ?_⟩
  · intro pc path
    constructor
    · intro hindex hid
      subst hid
      exact hrebuild.mp (hashGlobal_two_injective hindex) rfl
    · intro hclear
      rw [hrebuild.mpr hclear]
  · intro t ht pc imli path
    have hother : ∀ t, imliFoldId t ≠ 2 := by decide
    have hclear : foldable history tableId := by
      intro hid
      exact absurd (ht.trans hid) (hother t)
    rw [hrebuild.mpr hclear]

/-- A register after a sequence of branches. -/
def afterBranches (length width : Nat) (outcomes : List Bool) :
    TageHistory × BitVec width :=
  outcomes.foldl (fun s taken => (pushHistory s.1 taken,
    advanceFold length s.2 (s.1.getLsbD (length - 1)) taken)) (0, 0)

theorem run_afterBranches (length width : Nat) (outcomes : List Bool) :
    Run length width (afterBranches length width outcomes).1
      (afterBranches length width outcomes).2 := by
  unfold afterBranches
  induction outcomes using List.reverseRecOn with
  | nil => exact Run.reset
  | append_singleton outcomes taken ih =>
      rw [List.foldl_append]
      exact ih.step ⟨_, false, { valid := true, taken := taken }, false, 0⟩ rfl

theorem rebuilds_read_fold_iff_short :
    rebuildGlobalFold (afterBranches 12 8 [true, false, true]).1 2 =
      (afterBranches 12 8 [true, false, true]).2 := by
  have hrun : Run (historyLength (2 : Fin 6)) 8
      (afterBranches 12 8 [true, false, true]).1
      (afterBranches 12 8 [true, false, true]).2 := run_afterBranches _ _ _
  exact (rebuilds_read_fold_iff hrun).1.mpr fun _ => by decide +kernel

/-- One taken branch and twelve others behind it. -/
theorem rebuild_beyond_window : ¬ ∀ (tableId : Fin 6) history foldedHistory,
    Run (historyLength tableId) 8 history foldedHistory →
      rebuildGlobalFold history tableId = foldedHistory := by
  intro h
  have heq := h 2 _ _
    (run_afterBranches 12 8 (true :: List.replicate 12 false))
  revert heq
  decide +kernel

end Training

end StatisticalCorrector

end OoOCore
