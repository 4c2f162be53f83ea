/-
`TageHash.sv` for any parameters of the module.  The parity matrices that the
source builds at elaboration are the columns of the serial checks, so a hash of
the address and the path is the check run over their bits.
-/
import OoOCore.Lib.Serial
import OoOCore.TageTables

namespace OoOCore

/-- `v[k] = b`. -/
def assignBit {width : Nat} (v : BitVec width) (k : Nat) (b : Bool) :
    BitVec width :=
  xorBit v k (v.getLsbD k ^^ b)

/-- `^v`. -/
def reductionXor {width : Nat} (v : BitVec width) : Bool :=
  (List.range width).foldl (fun parity k => parity ^^ v.getLsbD k) false

/-- The parameters `TABLE_ID`, `INDEX_WIDTH` and `TAG_WIDTH` of `TageHash`. -/
structure HashConfig where
  tableId : Nat
  indexWidth : Nat
  tagWidth : Nat

namespace HashConfig

section Constants

variable (c : HashConfig)

/-- `INDEX_POLYNOMIAL`. -/
def indexPolynomial : BitVec c.indexWidth :=
  BitVec.ofNat _ (match c.tableId with
    | 0 => 0x1d
    | 1 => 0x2b
    | 2 => 0x4d
    | 3 => 0x87
    | 4 => 0x0b9
    | 5 => 0x12d
    | 6 => 0x163
    | _ => 0x1cf)

/-- `INDEX_SEED`. -/
def indexSeed : BitVec c.indexWidth :=
  BitVec.ofNat _ (match c.tableId with
    | 0 => 0x13
    | 1 => 0x35
    | 2 => 0x59
    | 3 => 0xa7
    | 4 => 0x0c3
    | 5 => 0x15d
    | 6 => 0x197
    | _ => 0x1e5)

/-- `TAG_POLYNOMIAL`. -/
def tagPolynomial : BitVec c.tagWidth :=
  BitVec.ofNat _ (match c.tableId with
    | 0 => 0x005b
    | 1 => 0x00b7
    | 2 => 0x016d
    | 3 => 0x02d5
    | 4 => 0x0539
    | 5 => 0x0ca7
    | 6 => 0x15b3
    | _ => 0x2d2b)

/-- `TAG_SEED`. -/
def tagSeed : BitVec c.tagWidth :=
  BitVec.ofNat _ (match c.tableId with
    | 0 => 0x0025
    | 1 => 0x0067
    | 2 => 0x00d3
    | 3 => 0x01a9
    | 4 => 0x0357
    | 5 => 0x06b5
    | 6 => 0x0d4f
    | _ => 0x1a93)

def indexCrcStep : BitVec c.indexWidth → Bool → BitVec c.indexWidth :=
  TageHash.crcStep c.indexPolynomial

def tagCrcStep : BitVec c.tagWidth → Bool → BitVec c.tagWidth :=
  TageHash.crcStep c.tagPolynomial

/-- The address bit a tag step takes in. -/
def tagPcIndex (stepIndex : Nat) : Nat := TageHash.pcHashBits - 1 - stepIndex

/-- `pathIndex` of the index steps. -/
def indexPathIndex (stepIndex : Nat) : Nat :=
  ((2 * c.tableId + 1) * stepIndex + c.tableId) % 16

/-- `pathIndex` of the tag steps. -/
def tagPathIndex (stepIndex : Nat) : Nat :=
  16 - 1 - ((2 * c.tableId + 1) * stepIndex + c.tableId) % 16

end Constants

section Matrices

variable {width : Nat} (step : BitVec width → Bool → BitVec width)

/-- The state after the bit of the address with this index alone. -/
def pcState (order : Nat → Nat) (inputIndex : Nat) : BitVec width :=
  let state := (List.range TageHash.pcHashBits).foldl
    (fun state stepIndex => step state (order stepIndex == inputIndex)) 0
  (List.range 16).foldl (fun state _ => step state false) state

/-- The state after the bit of the path with this index alone. -/
def pathState (order : Nat → Nat) (inputIndex : Nat) : BitVec width :=
  let state := (List.range TageHash.pcHashBits).foldl
    (fun state _ => step state false) 0
  (List.range 16).foldl
    (fun state stepIndex => step state (order stepIndex == inputIndex)) state

def finalSeed (seed : BitVec width) : BitVec width :=
  (List.range (TageHash.pcHashBits + 16)).foldl
    (fun state _ => step state false) seed

/-- `matrix[outputIndex*n + inputIndex] = state[outputIndex]` for every bit of
the states that the input bits lead to. -/
def buildMatrix (width n : Nat) (state : Nat → BitVec width) :
    BitVec (width * n) :=
  (List.range n).foldl (fun matrix inputIndex =>
    (List.range width).foldl (fun matrix outputIndex =>
      assignBit matrix (outputIndex * n + inputIndex)
        ((state inputIndex).getLsbD outputIndex)) matrix) 0

/-- The loop of the hash functions over their output bits. -/
def matrixHash (finalSeed : BitVec width)
    (pcMatrix : BitVec (width * TageHash.pcHashBits))
    (pathMatrix : BitVec (width * 16)) (pc : Word) (pathHistory : PathHistory) :
    BitVec width :=
  let pcBits := pc.extractLsb' 2 TageHash.pcHashBits
  (List.range width).foldl (fun result outputIndex =>
    let pcMask := pcMatrix.extractLsb' (outputIndex * TageHash.pcHashBits)
      TageHash.pcHashBits
    let pathMask := pathMatrix.extractLsb' (outputIndex * 16) 16
    assignBit result outputIndex (finalSeed.getLsbD outputIndex ^^
      reductionXor (pcBits &&& pcMask) ^^
      reductionXor (pathHistory &&& pathMask))) 0

variable (c : HashConfig)

def buildIndexPcMatrix : BitVec (c.indexWidth * TageHash.pcHashBits) :=
  buildMatrix c.indexWidth TageHash.pcHashBits (pcState c.indexCrcStep id)

def buildIndexPathMatrix : BitVec (c.indexWidth * 16) :=
  buildMatrix c.indexWidth 16 (pathState c.indexCrcStep c.indexPathIndex)

def buildIndexFinalSeed : BitVec c.indexWidth :=
  finalSeed c.indexCrcStep c.indexSeed

def buildTagPcMatrix : BitVec (c.tagWidth * TageHash.pcHashBits) :=
  buildMatrix c.tagWidth TageHash.pcHashBits (pcState c.tagCrcStep tagPcIndex)

def buildTagPathMatrix : BitVec (c.tagWidth * 16) :=
  buildMatrix c.tagWidth 16 (pathState c.tagCrcStep c.tagPathIndex)

def buildTagFinalSeed : BitVec c.tagWidth :=
  finalSeed c.tagCrcStep c.tagSeed

def indexPcPathHash : Word → PathHistory → BitVec c.indexWidth :=
  matrixHash c.buildIndexFinalSeed c.buildIndexPcMatrix c.buildIndexPathMatrix

def tagPcPathHash : Word → PathHistory → BitVec c.tagWidth :=
  matrixHash c.buildTagFinalSeed c.buildTagPcMatrix c.buildTagPathMatrix

end Matrices

section Serial

variable (c : HashConfig) (pc : Word) (pathHistory : PathHistory)

/-- The address bits from bit 2 up and then the path bits of the table's
order. -/
def indexInput : List Bool :=
  (List.range 30).map (fun k => pc.getLsbD (2 + k)) ++
    (List.range 16).map fun k =>
      pathHistory.getLsbD (((2 * c.tableId + 1) * k + c.tableId) % 16)

/-- The address bits from bit 31 down and then the path bits of the mirrored
order. -/
def tagInput : List Bool :=
  (List.range 30).map (fun k => pc.getLsbD (31 - k)) ++
    (List.range 16).map fun k =>
      pathHistory.getLsbD (15 - ((2 * c.tableId + 1) * k + c.tableId) % 16)

/-- The serial check of the index. -/
def indexCrc : BitVec c.indexWidth :=
  (c.indexInput pc pathHistory).foldl c.indexCrcStep c.indexSeed

/-- The serial check of the tag. -/
def tagCrc : BitVec c.tagWidth :=
  (c.tagInput pc pathHistory).foldl c.tagCrcStep c.tagSeed

end Serial

section Loops

variable {width : Nat}

theorem getLsbD_assignBit (v : BitVec width) {k : Nat} (hk : k < width)
    (b : Bool) (j : Nat) :
    (assignBit v k b).getLsbD j = if j = k then b else v.getLsbD j := by
  rw [assignBit, TageFoldedHistory.getLsbD_xorBit v hk]
  by_cases hj : j = k
  · rw [if_pos hj, hj, decide_eq_true rfl, Bool.true_and, ← Bool.xor_assoc,
      Bool.xor_self, Bool.false_xor]
  · rw [if_neg hj, decide_eq_false (Ne.symm hj), Bool.false_and,
      Bool.xor_false]

theorem reductionXor_eq (v : BitVec width) :
    reductionXor v = Serial.parity v.getLsbD width :=
  Serial.parity_foldl v.getLsbD width

/-- A loop that gives every bit of a cleared result its value. -/
theorem getLsbD_bit_loop {write : BitVec width → Nat → Bool → BitVec width}
    (hwrite : ∀ v k b j, k < width → v.getLsbD k = false →
      (write v k b).getLsbD j = if j = k then b else v.getLsbD j)
    (f : Nat → Bool) {m : Nat} (hm : m ≤ width) (j : Nat) :
    ((List.range m).foldl (fun result k => write result k (f k))
      (0 : BitVec width)).getLsbD j = (decide (j < m) && f j) := by
  induction m generalizing j with
  | zero => simp
  | succ m ih =>
      have hclear := ih (by omega) m
      rw [decide_eq_false (Nat.lt_irrefl m), Bool.false_and] at hclear
      rw [List.range_succ, List.foldl_append, List.foldl_cons, List.foldl_nil,
        hwrite _ m (f m) j (by omega) hclear, ih (by omega)]
      by_cases hlast : j = m
      · rw [if_pos hlast, hlast, decide_eq_true (Nat.lt_succ_self m),
          Bool.true_and]
      · have hlt : j < m + 1 ↔ j < m := by omega
        rw [if_neg hlast, decide_eq_decide.mpr hlt]

/-- The place of a matrix bit and back. -/
theorem place_iff {p outputIndex inputIndex n : Nat} (hin : inputIndex < n) :
    p = outputIndex * n + inputIndex ↔
      p % n = inputIndex ∧ p / n = outputIndex := by
  have hunique : p / n = outputIndex ∧ p % n = inputIndex ↔
      inputIndex + n * outputIndex = p ∧ inputIndex < n :=
    Nat.div_mod_unique (by omega)
  rw [and_comm, hunique, Nat.mul_comm, Nat.add_comm]
  constructor
  · intro h
    exact ⟨h.symm, hin⟩
  · rintro ⟨h, -⟩
    exact h.symm

theorem place_lt {outputIndex inputIndex n : Nat} (hout : outputIndex < width)
    (hin : inputIndex < n) : outputIndex * n + inputIndex < width * n :=
  calc outputIndex * n + inputIndex < outputIndex * n + n := by omega
    _ = (outputIndex + 1) * n := (Nat.succ_mul outputIndex n).symm
    _ ≤ width * n := Nat.mul_le_mul_right n hout

/-- One column of the matrix. -/
theorem getLsbD_column {n inputIndex : Nat} (hin : inputIndex < n)
    (matrix : BitVec (width * n)) (state : BitVec width) {m : Nat}
    (hm : m ≤ width) (p : Nat) :
    ((List.range m).foldl (fun matrix outputIndex =>
      assignBit matrix (outputIndex * n + inputIndex)
        (state.getLsbD outputIndex)) matrix).getLsbD p =
      if p % n = inputIndex ∧ p / n < m then state.getLsbD (p / n)
      else matrix.getLsbD p := by
  induction m with
  | zero => simp
  | succ m ih =>
      rw [List.range_succ, List.foldl_append, List.foldl_cons, List.foldl_nil,
        getLsbD_assignBit _ (place_lt hm hin), ih (by omega)]
      by_cases hplace : p = m * n + inputIndex
      · obtain ⟨hmod, hdiv⟩ := (place_iff hin).mp hplace
        rw [if_pos hplace, hdiv, if_pos ⟨hmod, Nat.lt_succ_self m⟩]
      · rw [if_neg hplace]
        have hother : (p % n = inputIndex ∧ p / n < m + 1) ↔
            (p % n = inputIndex ∧ p / n < m) := by
          rw [place_iff hin] at hplace
          omega
        simp only [hother]

/-- The columns in front of one still to come. -/
theorem getLsbD_columns {n : Nat} (state : Nat → BitVec width) {m : Nat}
    (hm : m ≤ n) {p : Nat} (hp : p / n < width) :
    ((List.range m).foldl (fun matrix inputIndex =>
      (List.range width).foldl (fun matrix outputIndex =>
        assignBit matrix (outputIndex * n + inputIndex)
          ((state inputIndex).getLsbD outputIndex)) matrix)
      (0 : BitVec (width * n))).getLsbD p =
      (decide (p % n < m) && (state (p % n)).getLsbD (p / n)) := by
  induction m with
  | zero => simp
  | succ m ih =>
      rw [List.range_succ, List.foldl_append, List.foldl_cons, List.foldl_nil,
        getLsbD_column (by omega) _ _ le_rfl, ih (by omega)]
      by_cases hlast : p % n = m
      · rw [if_pos ⟨hlast, hp⟩, hlast, decide_eq_true (Nat.lt_succ_self m),
          Bool.true_and]
      · have hlt : p % n < m + 1 ↔ p % n < m := by omega
        rw [if_neg fun h => hlast h.1, decide_eq_decide.mpr hlt]

/-- The matrix has the states as its columns. -/
theorem getLsbD_buildMatrix {n : Nat} (state : Nat → BitVec width)
    {outputIndex inputIndex : Nat} (hout : outputIndex < width)
    (hin : inputIndex < n) :
    (buildMatrix width n state).getLsbD (outputIndex * n + inputIndex) =
      (state inputIndex).getLsbD outputIndex := by
  obtain ⟨hmod, hdiv⟩ := (place_iff hin).mp
    (rfl : outputIndex * n + inputIndex = outputIndex * n + inputIndex)
  have hrow : (outputIndex * n + inputIndex) / n < width := by rwa [hdiv]
  rw [buildMatrix, getLsbD_columns state le_rfl hrow, hmod, hdiv,
    decide_eq_true hin, Bool.true_and]

/-- The row of a matrix, masked by input bits. -/
theorem reductionXor_row {n : Nat} (state : Nat → BitVec width)
    {outputIndex : Nat} (hout : outputIndex < width) (bits : BitVec n) :
    reductionXor (bits &&&
        (buildMatrix width n state).extractLsb' (outputIndex * n) n) =
      Serial.parity (fun inputIndex => bits.getLsbD inputIndex &&
        (state inputIndex).getLsbD outputIndex) n := by
  rw [reductionXor_eq]
  apply Serial.parity_congr
  intro inputIndex hin
  rw [BitVec.getLsbD_and, BitVec.getLsbD_extractLsb', decide_eq_true hin,
    Bool.true_and, getLsbD_buildMatrix state hout hin]

/-- Each output bit is the seed and the two parities of its rows. -/
theorem getLsbD_matrixHash (seed : BitVec width)
    (pcColumn pathColumn : Nat → BitVec width) (pc : Word)
    (pathHistory : PathHistory) {outputIndex : Nat}
    (hout : outputIndex < width) :
    (matrixHash seed (buildMatrix width TageHash.pcHashBits pcColumn)
        (buildMatrix width 16 pathColumn) pc pathHistory).getLsbD outputIndex =
      (seed.getLsbD outputIndex ^^
        Serial.parity (fun inputIndex => pc.getLsbD (2 + inputIndex) &&
          (pcColumn inputIndex).getLsbD outputIndex) TageHash.pcHashBits ^^
        Serial.parity (fun inputIndex => pathHistory.getLsbD inputIndex &&
          (pathColumn inputIndex).getLsbD outputIndex) 16) := by
  have hassign (v : BitVec width) (k : Nat) (b : Bool) (j : Nat)
      (hk : k < width) (_ : v.getLsbD k = false) :
      (assignBit v k b).getLsbD j = if j = k then b else v.getLsbD j :=
    getLsbD_assignBit v hk b j
  rw [matrixHash, getLsbD_bit_loop hassign _ le_rfl, decide_eq_true hout,
    Bool.true_and, reductionXor_row _ hout, reductionXor_row _ hout]
  congr 2
  apply Serial.parity_congr
  intro inputIndex hin
  rw [BitVec.getLsbD_extractLsb', decide_eq_true hin, Bool.true_and]

end Loops

section Superposition

open Serial (Linear)

theorem crcStep_linear {width : Nat} (polynomial : BitVec width) :
    Linear (TageHash.crcStep polynomial) := by
  intro a b x y
  have hfeedback : ((x ^^ y) ^^ (a ^^^ b).msb) =
      ((x ^^ a.msb) ^^ (y ^^ b.msb)) := by
    rw [BitVec.msb_xor]
    generalize a.msb = am
    generalize b.msb = bm
    revert x y am bm
    decide
  simp only [TageHash.crcStep]
  rw [hfeedback, BitVec.shiftLeft_xor_distrib]
  generalize a <<< 1 = a'
  generalize b <<< 1 = b'
  cases x ^^ a.msb with
  | false =>
      cases y ^^ b.msb with
      | false => rfl
      | true => exact BitVec.xor_assoc a' b' polynomial
  | true =>
      cases y ^^ b.msb with
      | false =>
          change a' ^^^ b' ^^^ polynomial = a' ^^^ polynomial ^^^ b'
          rw [BitVec.xor_assoc, BitVec.xor_comm b', ← BitVec.xor_assoc]
      | true =>
          change a' ^^^ b' = a' ^^^ polynomial ^^^ (b' ^^^ polynomial)
          rw [BitVec.xor_comm b', BitVec.xor_assoc, ← BitVec.xor_assoc polynomial,
            BitVec.xor_self, BitVec.zero_xor]

/-- The steps of a check: those that take in the address, then those that take
in the path. -/
def inputSteps : List (Nat ⊕ Nat) :=
  (List.range TageHash.pcHashBits).map Sum.inl ++ (List.range 16).map Sum.inr

variable {width : Nat} (step : BitVec width → Bool → BitVec width)

theorem run_inputSteps (state : BitVec width) (f g : Nat → Bool) :
    Serial.run step state inputSteps (Sum.elim f g) =
      (List.range 16).foldl (fun state k => step state (g k))
        ((List.range TageHash.pcHashBits).foldl
          (fun state k => step state (f k)) state) := by
  rw [Serial.run, inputSteps, List.foldl_append, List.foldl_map,
    List.foldl_map]
  rfl

theorem pcState_eq (order : Nat → Nat) (inputIndex : Nat) :
    pcState step order inputIndex =
      Serial.run step (BitVec.ofNat width 0) inputSteps
        (Sum.elim (fun k => order k == inputIndex) fun _ => false) := by
  rw [run_inputSteps]
  rfl

theorem pathState_eq (order : Nat → Nat) (inputIndex : Nat) :
    pathState step order inputIndex =
      Serial.run step (BitVec.ofNat width 0) inputSteps
        (Sum.elim (fun _ => false) fun k => order k == inputIndex) := by
  rw [run_inputSteps]
  rfl

theorem finalSeed_eq (seed : BitVec width) :
    finalSeed step seed = Serial.run step seed inputSteps fun _ => false := by
  have hnone : (fun _ : Nat ⊕ Nat => false) =
      Sum.elim (fun _ => false) fun _ => false := by
    funext key
    cases key <;> rfl
  rw [hnone, run_inputSteps, finalSeed, List.range_add, List.foldl_append,
    List.foldl_map]

/-- The matrix hash of a linear check is the check. -/
theorem matrixHash_eq_foldl {step : BitVec width → Bool → BitVec width}
    (h : Linear step) (seed : BitVec width) (pcOrder pathOrder : Nat → Nat)
    (hpc : ∀ k < TageHash.pcHashBits, pcOrder k < TageHash.pcHashBits)
    (hpath : ∀ k < 16, pathOrder k < 16) (pc : Word)
    (pathHistory : PathHistory) :
    matrixHash (finalSeed step seed)
        (buildMatrix width TageHash.pcHashBits (pcState step pcOrder))
        (buildMatrix width 16 (pathState step pathOrder)) pc pathHistory =
      ((List.range TageHash.pcHashBits).map
          (fun k => pc.getLsbD (2 + pcOrder k)) ++
        (List.range 16).map
          fun k => pathHistory.getLsbD (pathOrder k)).foldl step seed := by
  apply BitVec.eq_of_getLsbD_eq
  intro outputIndex hout
  rw [getLsbD_matrixHash _ _ _ _ _ hout, finalSeed_eq]
  simp only [pcState_eq, pathState_eq]
  rw [← h.run_columns, List.foldl_append, List.foldl_map, List.foldl_map,
    ← run_inputSteps]
  refine congrArg (fun state => state.getLsbD outputIndex)
    (Serial.run_congr ?_ seed)
  intro key hkey
  rw [inputSteps, List.mem_append, List.mem_map, List.mem_map] at hkey
  rcases hkey with ⟨k, hk, rfl⟩ | ⟨k, hk, rfl⟩
  · simp only [Sum.elim_inl, Bool.and_false]
    rw [Serial.parity_single _ (hpc k (List.mem_range.mp hk)),
      Serial.parity_false, Bool.xor_false]
  · simp only [Sum.elim_inr, Bool.and_false]
    rw [Serial.parity_single _ (hpath k (List.mem_range.mp hk)),
      Serial.parity_false, Bool.false_xor]

/-- For every table number and widths, every address and every path, the hash
by parity matrices is the serial check. -/
theorem pcPathHash_eq_crc (c : HashConfig) (pc : Word)
    (pathHistory : PathHistory) :
    c.indexPcPathHash pc pathHistory = c.indexCrc pc pathHistory ∧
      c.tagPcPathHash pc pathHistory = c.tagCrc pc pathHistory := by
  have hlt (k : Nat) : ((2 * c.tableId + 1) * k + c.tableId) % 16 < 16 :=
    Nat.mod_lt _ (by decide)
  constructor
  · have hhash := matrixHash_eq_foldl (crcStep_linear c.indexPolynomial)
      c.indexSeed id c.indexPathIndex (fun _ hk => hk) (fun k _ => hlt k) pc
      pathHistory
    rw [indexCrc, indexInput]
    exact hhash
  · have hdown : (List.range 30).map (fun k => pc.getLsbD (2 + tagPcIndex k)) =
        (List.range 30).map fun k => pc.getLsbD (31 - k) := by
      apply List.map_congr_left
      intro k hk
      have hk' := List.mem_range.mp hk
      have hplace : 2 + tagPcIndex k = 31 - k := by
        rw [tagPcIndex, TageHash.pcHashBits]
        omega
      rw [hplace]
    have hhash := matrixHash_eq_foldl (crcStep_linear c.tagPolynomial)
      c.tagSeed tagPcIndex c.tagPathIndex
      (fun k hk => by rw [tagPcIndex]; omega)
      (fun k _ => by rw [tagPathIndex]; omega) pc pathHistory
    rw [tagCrc, tagInput, ← hdown]
    exact hhash

end Superposition

section Tables

variable {width : Nat}

/-- To flip a cleared bit is to assign it. -/
theorem getLsbD_xorBit_clear (v : BitVec width) (k : Nat) (b : Bool) (j : Nat)
    (hk : k < width) (hclear : v.getLsbD k = false) :
    (xorBit v k b).getLsbD j = if j = k then b else v.getLsbD j := by
  have hassign := getLsbD_assignBit v hk b j
  rwa [assignBit, hclear, Bool.false_xor] at hassign

/-- The hash that reads the matrices by columns. -/
theorem pcPathHash_eq_matrixHash (seed : BitVec width)
    (pcColumn pathColumn : Nat → BitVec width) (pc : Word)
    (pathHistory : PathHistory) :
    TageHash.pcPathHash seed pcColumn pathColumn pc pathHistory =
      matrixHash seed (buildMatrix width TageHash.pcHashBits pcColumn)
        (buildMatrix width 16 pathColumn) pc pathHistory := by
  apply BitVec.eq_of_getLsbD_eq
  intro outputIndex hout
  rw [getLsbD_matrixHash _ _ _ _ _ hout, TageHash.pcPathHash,
    getLsbD_bit_loop getLsbD_xorBit_clear _ le_rfl, decide_eq_true hout, Bool.true_and,
    TageHash.rowParity, TageHash.rowParity, Serial.parity_foldl,
    Serial.parity_foldl]
  congr 2
  apply Serial.parity_congr
  intro inputIndex hin
  rw [BitVec.getLsbD_extractLsb', decide_eq_true hin, Bool.true_and]

/-- The parameters of a table of the predictor. -/
def ofTable (t : TageTableId) : HashConfig := ⟨t.val, 9, tageTagWidth t⟩

theorem constants_ofTable (t : TageTableId) :
    (ofTable t).indexPolynomial = TageHash.indexPolynomial t ∧
      (ofTable t).tagPolynomial = TageHash.tagPolynomial t ∧
      (ofTable t).indexSeed = TageHash.indexSeed t ∧
      (ofTable t).tagSeed = TageHash.tagSeed t :=
  match t with
  | 0 | 1 | 2 | 3 | 4 | 5 | 6 | 7 => ⟨rfl, rfl, rfl, rfl⟩

/-- The keys of the predictor's eight tables use the hashes of their
parameters. -/
theorem pcPathHash_ofTable (t : TageTableId) (pc : Word)
    (pathHistory : PathHistory) :
    TageHash.indexPcPathHash t pc pathHistory =
        (ofTable t).indexPcPathHash pc pathHistory ∧
      TageHash.tagPcPathHash t pc pathHistory =
        (ofTable t).tagPcPathHash pc pathHistory := by
  obtain ⟨hindex, htag, hindexSeed, htagSeed⟩ := constants_ofTable t
  rw [TageHash.indexPcPathHash, TageHash.tagPcPathHash,
    pcPathHash_eq_matrixHash, pcPathHash_eq_matrixHash, indexPcPathHash,
    tagPcPathHash, buildIndexFinalSeed, buildTagFinalSeed, buildIndexPcMatrix,
    buildIndexPathMatrix, buildTagPcMatrix, buildTagPathMatrix, indexCrcStep,
    tagCrcStep, hindex, htag, hindexSeed, htagSeed]
  exact ⟨rfl, rfl⟩

end Tables

end HashConfig

end OoOCore
