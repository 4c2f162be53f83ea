/-
`TageFoldedHistory.sv`: one folded register of the speculative direction
history.  Normal prediction rotates it; a recovery folds the restored history
afresh.  Both give the fold of the history.
-/
import OoOCore.Types
import OoOCore.Lib.Fold

namespace OoOCore

/-- `tage_history_t`: bit zero is the newest direction. -/
abbrev TageHistory := BitVec 192

/-- `v[k] ^= b`. -/
def xorBit {width : Nat} (v : BitVec width) (k : Nat) (b : Bool) :
    BitVec width :=
  v ^^^ (BitVec.ofBool b).setWidth width <<< k

/-- `{history[190:0], taken}`. -/
def pushHistory (history : TageHistory) (taken : Bool) : TageHistory :=
  history.shiftConcat taken

/-- The conditional branches a cycle speculates on, by slot. -/
structure Speculation where
  valid : Bool := false
  taken : Bool := false
  valid1 : Bool := false
  taken1 : Bool := false
deriving DecidableEq, Repr

/-- `speculativeHistoryNext`. -/
def Speculation.history (s : Speculation) (globalHistory : TageHistory) :
    TageHistory :=
  let first := if s.valid then pushHistory globalHistory s.taken
    else globalHistory
  if s.valid1 then pushHistory first s.taken1 else first

namespace TageFoldedHistory

/-- `foldHistory`. -/
def foldHistory (length width : Nat) (history : TageHistory) : BitVec width :=
  (List.range length).foldl (fun result bitIndex =>
    xorBit result (bitIndex % width) (history.getLsbD bitIndex)) 0

/-- `advanceFold`. -/
def advanceFold (length : Nat) {width : Nat} (currentFold : BitVec width)
    (outgoingBit incomingBit : Bool) : BitVec width :=
  xorBit (xorBit (currentFold.rotateLeft 1) 0 incomingBit) (length % width)
    outgoingBit

/-- The inputs of one cycle. -/
structure Inputs where
  globalHistory : TageHistory
  query0Conditional : Bool
  speculate : Speculation
  restoreValid : Bool
  restoreHistory : TageHistory

section Wires

variable (length : Nat) {width : Nat} (foldedHistory : BitVec width)
  (i : Inputs)

/-- The two accepted events of a cycle, one after the other. -/
def speculativeFoldNext : BitVec width :=
  let s := i.speculate
  let first := if s.valid then
      advanceFold length foldedHistory
        (i.globalHistory.getLsbD (length - 1)) s.taken
    else foldedHistory
  let history := if s.valid then pushHistory i.globalHistory s.taken
    else i.globalHistory
  if s.valid1 then
    advanceFold length first (history.getLsbD (length - 1)) s.taken1
  else first

/-- `requestBaseHistory`. -/
def requestBaseHistory : TageHistory :=
  if i.restoreValid then i.restoreHistory
  else i.speculate.history i.globalHistory

/-- `requestBaseFold`, which is also what the register takes. -/
def requestBaseFold : BitVec width :=
  if i.restoreValid then foldHistory length width i.restoreHistory
  else speculativeFoldNext length foldedHistory i

/-- `queryFold_o`. -/
def queryFold : BitVec width := requestBaseFold length foldedHistory i

/-- `queryFold1_o`: slot 1 is hashed as if slot 0 is not taken. -/
def queryFold1 : BitVec width :=
  if i.query0Conditional then
    advanceFold length (requestBaseFold length foldedHistory i)
      ((requestBaseHistory i).getLsbD (length - 1)) false
  else requestBaseFold length foldedHistory i

end Wires

section Folds

variable {length width : Nat}

theorem getLsbD_xorBit (v : BitVec width) {k : Nat} (hk : k < width)
    (b : Bool) (j : Nat) :
    (xorBit v k b).getLsbD j = (v.getLsbD j ^^ (decide (k = j) && b)) := by
  rw [xorBit, BitVec.getLsbD_xor, BitVec.getLsbD_shiftLeft,
    BitVec.getLsbD_setWidth, BitVec.getLsbD_ofBool]
  congr 1
  by_cases hkj : k = j
  · subst hkj
    have hpos : 0 < width := by omega
    simp [hk, hpos]
  · by_cases hlt : j < k
    · simp [hkj, hlt]
    · have hpos : j - k ≠ 0 := by omega
      simp [hkj, hpos]

/-- The bits of a fold. -/
theorem getLsbD_foldHistory (hwidth : 0 < width) (history : TageHistory)
    (n j : Nat) :
    (foldHistory n width history).getLsbD j =
      Fold.bit width history.getLsbD j n := by
  unfold foldHistory
  induction n with
  | zero => simp [Fold.bit]
  | succ n ih =>
      rw [List.range_succ, List.foldl_append, List.foldl_cons, List.foldl_nil,
        getLsbD_xorBit _ (Nat.mod_lt n hwidth), ih, Fold.bit]

theorem getLsbD_pushHistory (history : TageHistory) (taken : Bool) {k : Nat}
    (hk : k < 192) : (pushHistory history taken).getLsbD k =
      Fold.shift taken history.getLsbD k := by
  rw [pushHistory, BitVec.getLsbD_shiftConcat, decide_eq_true hk,
    Bool.true_and]
  cases k with
  | zero => rfl
  | succ k => rfl

/-- Rotating, adding the new bit and removing the one that leaves the window
gives the fold of the pushed history. -/
theorem foldHistory_push (hlength : 0 < length) (hfit : length ≤ 192)
    (hwidth : 0 < width) (history : TageHistory) (taken : Bool) :
    foldHistory length width (pushHistory history taken) =
      advanceFold length (foldHistory length width history)
        (history.getLsbD (length - 1)) taken := by
  apply BitVec.eq_of_getLsbD_eq
  intro j hj
  have hrotate : ((foldHistory length width history).rotateLeft 1).getLsbD j =
      Fold.bit width history.getLsbD ((j + (width - 1)) % width) length := by
    rw [BitVec.getLsbD_rotateLeft, getLsbD_foldHistory hwidth,
      getLsbD_foldHistory hwidth]
    by_cases hone : width = 1
    · subst hone
      have hzero : j = 0 := by omega
      subst hzero
      rfl
    · have hmod : 1 % width = 1 := Nat.mod_eq_of_lt (by omega)
      rw [hmod]
      by_cases hfirst : j = 0
      · subst hfirst
        rw [Nat.zero_add, Nat.mod_eq_of_lt (show width - 1 < width by omega)]
        rfl
      · have hback : (j + (width - 1)) % width = j - 1 := by
          have hsum : j + (width - 1) = j - 1 + width := by omega
          rw [hsum, Nat.add_mod_right, Nat.mod_eq_of_lt (by omega)]
        have hlt : ¬ j < 1 := by omega
        simp [hback, hlt, hj]
  rw [getLsbD_foldHistory hwidth, advanceFold,
    getLsbD_xorBit _ (Nat.mod_lt _ hwidth), getLsbD_xorBit _ hwidth, hrotate,
    Fold.bit_congr fun k hk => getLsbD_pushHistory history taken (by omega),
    Fold.bit_shift hj hlength]
  simp only [eq_comm (a := 0)]

/-- What a register that holds the fold of the history gives to the tables. -/
structure Follows (length : Nat) (foldedHistory : BitVec width)
    (history : TageHistory) : Prop where
  positive : 0 < length
  fits : length ≤ 192
  width_pos : 0 < width
  fold : foldedHistory = foldHistory length width history

variable {foldedHistory : BitVec width} {i : Inputs}

theorem Follows.push {history : TageHistory}
    (h : Follows length foldedHistory history) (taken : Bool) :
    Follows length
      (advanceFold length foldedHistory (history.getLsbD (length - 1)) taken)
      (pushHistory history taken) where
  positive := h.positive
  fits := h.fits
  width_pos := h.width_pos
  fold := by
    rw [h.fold, foldHistory_push h.positive h.fits h.width_pos]

theorem Follows.speculate (h : Follows length foldedHistory i.globalHistory) :
    Follows length (speculativeFoldNext length foldedHistory i)
      (i.speculate.history i.globalHistory) := by
  dsimp only [speculativeFoldNext, Speculation.history]
  have hfirst : Follows length
      (if i.speculate.valid then
        advanceFold length foldedHistory
          (i.globalHistory.getLsbD (length - 1)) i.speculate.taken
      else foldedHistory)
      (if i.speculate.valid then
        pushHistory i.globalHistory i.speculate.taken
      else i.globalHistory) := by
    cases i.speculate.valid with
    | true => exact h.push _
    | false => exact h
  cases i.speculate.valid1 with
  | true => exact hfirst.push _
  | false => exact hfirst

/-- The register keeps following the history. -/
theorem Follows.step (h : Follows length foldedHistory i.globalHistory) :
    Follows length (requestBaseFold length foldedHistory i)
      (requestBaseHistory i) := by
  unfold requestBaseFold requestBaseHistory
  cases i.restoreValid with
  | true => exact ⟨h.positive, h.fits, h.width_pos, rfl⟩
  | false => exact h.speculate

/-- The fold of slot 1 is that of the history it is hashed with. -/
theorem Follows.step1 (h : Follows length foldedHistory i.globalHistory) :
    Follows length (queryFold1 length foldedHistory i)
      (if i.query0Conditional then pushHistory (requestBaseHistory i) false
        else requestBaseHistory i) := by
  unfold queryFold1
  cases i.query0Conditional with
  | true => exact h.step.push false
  | false => exact h.step

/-- The runs of a register beside the history it folds, from reset. -/
inductive Run (length width : Nat) : TageHistory → BitVec width → Prop
  | reset : Run length width 0 0
  | step {history : TageHistory} {foldedHistory : BitVec width}
      (h : Run length width history foldedHistory) (i : Inputs)
      (hglobal : i.globalHistory = history) :
      Run length width (requestBaseHistory i)
        (requestBaseFold length foldedHistory i)

theorem Follows.reset (hpositive : 0 < length) (hfits : length ≤ 192)
    (hwidth : 0 < width) : Follows length (0 : BitVec width) 0 where
  positive := hpositive
  fits := hfits
  width_pos := hwidth
  fold := by
    apply BitVec.eq_of_getLsbD_eq
    intro j _
    have hzero : (0 : TageHistory).getLsbD = fun _ => false := by
      funext k
      exact BitVec.getLsbD_zero
    rw [getLsbD_foldHistory hwidth, hzero, Fold.bit_false]
    exact BitVec.getLsbD_zero

theorem Run.follows {history : TageHistory}
    (h : Run length width history foldedHistory) (hpositive : 0 < length)
    (hfits : length ≤ 192) (hwidth : 0 < width) :
    Follows length foldedHistory history := by
  induction h with
  | reset => exact Follows.reset hpositive hfits hwidth
  | step _ i hglobal ih =>
      subst hglobal
      exact ih.step

end Folds

end TageFoldedHistory

end OoOCore
