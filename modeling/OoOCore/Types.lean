/-
The data model of `TypesPkg.sv`: widths, control encodings and the packed
records that travel between the stages.  Enumerations are inductive types; a
packed all-zero value is the `default` of its record.
-/
import Mathlib.Data.Fintype.Basic
import Mathlib.Data.Fin.VecNotation
import OoOCore.Lib.Ring

namespace OoOCore

abbrev Word := BitVec 32
abbrev CsrAddr := BitVec 12
abbrev Cause := BitVec 6

/-- `REG_NUM` architectural registers. -/
abbrev ArchReg := Fin 32
/-- `PHYS_REG_NUM` physical registers. -/
abbrev PhysReg := Fin 48
/-- `ROB_ENTRY_NUM` reorder-buffer slots. -/
abbrev RobTag := Fin 16
/-- `LSQ_ENTRY_NUM` load/store-queue slots. -/
abbrev LsqTag := Fin 16
/-- `UNIFIED_IQ_ENTRY_NUM` issue-queue slots. -/
abbrev IqIndex := Fin 16
/-- The two lanes of rename, dispatch, completion and retirement. -/
abbrev Lane := Fin 2

-- The numerals of these types all carry the instances named here, in whichever
-- module they are written.
instance (priority := 1100) lane_neZero : NeZero 2 := ⟨by decide⟩
instance (priority := 1100) table6_neZero : NeZero 6 := ⟨by decide⟩
instance (priority := 1100) slot8_neZero : NeZero 8 := ⟨by decide⟩
instance (priority := 1100) slot16_neZero : NeZero 16 := ⟨by decide⟩
instance (priority := 1100) archReg_neZero : NeZero 32 := ⟨by decide⟩
instance (priority := 1100) physReg_neZero : NeZero 48 := ⟨by decide⟩

theorem lane_cases (l : Lane) : l = 0 ∨ l = 1 := by
  revert l
  decide

def resetVector : Word := 0#32
def uartTxAddr : Word := 0x0000FFE0#32
def fromHostAddr : Word := 0x0000FFF0#32
def toHostAddr : Word := 0x0000FFF8#32
/-- `MMIO_BASE_ADDR` as `topCPU` passes it down. -/
def mmioBaseAddr : Word := uartTxAddr
/-- `MMIO_LAST_ADDR` as `topCPU` passes it down. -/
def mmioLastAddr : Word := toHostAddr + 7#32

/-- `addressIsMmio`, written out in the commit stage, the LSQ and the caches. -/
def addressIsMmio (address : Word) : Bool :=
  mmioBaseAddr ≤ address && address ≤ mmioLastAddr

def excInsnAddrMisaligned : Cause := 0
def excIllegalInsn : Cause := 2
def excBreakpoint : Cause := 3
def excLoadAddrMisaligned : Cause := 4
def excStoreAddrMisaligned : Cause := 6
def excEcallMmode : Cause := 11

/-- `alu_ctr_t`. -/
inductive AluCtr where
  | add | sub | and | or | xor | sll | srl | sra | slt | sltu | pass
deriving DecidableEq, Repr

/-- `wb_select_t`. -/
inductive WbSelect where
  | alu | mem | pc4 | imm | csr
deriving DecidableEq, Repr

/-- `csr_op_t`. -/
inductive CsrOp where
  | none | rw | rs | rc
deriving DecidableEq, Repr

/-- `branch_ctr_t`. -/
inductive BranchCtr where
  | none | beq | bne | blt | bge | bltu | bgeu | jal | jalr | mret
deriving DecidableEq, Repr

/-- The range test `BR_BEQ <= ctr <= BR_BGEU` of the branch outputs. -/
def BranchCtr.isConditional : BranchCtr → Bool
  | .beq | .bne | .blt | .bge | .bltu | .bgeu => true
  | _ => false

/-- `mem_access_t`. -/
inductive MemAccess where
  | byte | half | word | byteU | halfU
deriving DecidableEq, Repr

/-- `fu_class_t`. -/
inductive FuClass where
  | integer | branch | memory | csr
deriving DecidableEq, Repr

/-- `loop_meta_t`. -/
structure LoopMeta where
  hit : Bool := false
  confident : Bool := false
  prediction : Bool := false
  used : Bool := false
  tableIndex : BitVec 6 := 0
  tag : BitVec 12 := 0
  generation : BitVec 4 := 0
  iterationBefore : BitVec 10 := 0
  tripCount : BitVec 10 := 0
  direction : Bool := false
  checkpointTail : BitVec 5 := 0
deriving DecidableEq, Repr, Inhabited

/-- `tage_meta_t`: what the predictor remembers about one prediction. -/
structure TageMeta where
  history : BitVec 192 := 0
  pathHistory : BitVec 16 := 0
  providerValid : Bool := false
  provider : BitVec 3 := 0
  providerGeneration : BitVec 5 := 0
  providerPrediction : Bool := false
  alternatePrediction : Bool := false
  tagePrediction : Bool := false
  preScPrediction : Bool := false
  finalPrediction : Bool := false
  providerWeak : Bool := false
  scLocalHistory : BitVec 12 := 0
  scImli : BitVec 10 := 0
  scScore : BitVec 12 := 0
  scFamilyTaken : BitVec 5 := 0
  scFamilyValid : BitVec 5 := 0
  scLowConfidence : Bool := false
  loop : LoopMeta := {}
deriving DecidableEq, Repr, Inhabited

/-- `fetch_packet_t`: one fetched instruction with its prediction. -/
structure FetchPacket where
  insn : Word := 0
  pc : Word := resetVector
  predictedTaken : Bool := false
  predictedTarget : Word := 0
  predictorIndex : BitVec 10 := 0
  historySnapshot : BitVec 10 := 0
  tageMeta : TageMeta := {}
  predictedBtbHit : Bool := false
  predictedRasUsed : Bool := false
deriving DecidableEq, Repr, Inhabited

/-- Which dispatch a piece of in-flight state belongs to.  The hardware has no
such field: `uid` numbers the accepted dispatches and `insn` is the word that
was decoded.  Every record copies the origin of the uop it was made from, and
no function of the model branches on it. -/
structure Origin where
  uid : Nat := 0
  insn : Word := 0
deriving DecidableEq, Repr, Inhabited

/-- `renamed_uop_t`. -/
structure Uop where
  valid : Bool := false
  pc : Word := 0
  predictedTaken : Bool := false
  predictedTarget : Word := 0
  predictorIndex : BitVec 10 := 0
  historySnapshot : BitVec 10 := 0
  predictedBtbHit : Bool := false
  predictedRasUsed : Bool := false
  isCall : Bool := false
  isReturn : Bool := false
  fuClass : FuClass := .integer
  registerWriteEnable : Bool := false
  dataWriteEnable : Bool := false
  wbSelect : WbSelect := .alu
  csrOp : CsrOp := .none
  csrAddr : CsrAddr := 0
  csrUseImm : Bool := false
  csrImm : Word := 0
  branchCtr : BranchCtr := .none
  aluCtr : AluCtr := .add
  memCtr : MemAccess := .byte
  aluSrcASelect : Bool := false
  aluSrcBSelect : Bool := false
  useRs1 : Bool := false
  useRs2 : Bool := false
  src1Phys : PhysReg := 0
  src2Phys : PhysReg := 0
  src1Ready : Bool := false
  src2Ready : Bool := false
  destPhys : PhysReg := 0
  robTag : RobTag := 0
  lsqTag : LsqTag := 0
  immediate : Word := 0
  decodeException : Bool := false
  decodeExceptionCause : Cause := 0
  exceptionValue : Word := 0
  serialize : Bool := false
  mret : Bool := false
  origin : Origin := {}
deriving DecidableEq, Repr, Inhabited

/-- The uop with new values of its two readiness bits. -/
def Uop.withReady (u : Uop) (src1Ready src2Ready : Bool) : Uop :=
  { u with src1Ready := src1Ready, src2Ready := src2Ready }

@[simp] theorem Uop.withReady_withReady (u : Uop) (r1 r2 r3 r4 : Bool) :
    (u.withReady r1 r2).withReady r3 r4 = u.withReady r3 r4 := rfl

/-- `rob_entry_t`. -/
structure RobEntry where
  valid : Bool := false
  complete : Bool := false
  pc : Word := 0
  writesRd : Bool := false
  archRd : ArchReg := 0
  newPhys : PhysReg := 0
  oldPhys : PhysReg := 0
  isMemory : Bool := false
  lsqTag : LsqTag := 0
  isStore : Bool := false
  isBranch : Bool := false
  branchCtr : BranchCtr := .none
  isCall : Bool := false
  isReturn : Bool := false
  predictedTaken : Bool := false
  predictedTarget : Word := 0
  predictedBtbHit : Bool := false
  predictedRasUsed : Bool := false
  predictorIndex : BitVec 10 := 0
  tageMeta : TageMeta := {}
  branchTaken : Bool := false
  branchTarget : Word := 0
  branchMispredicted : Bool := false
  isCsr : Bool := false
  exception : Bool := false
  exceptionCause : Cause := 0
  exceptionValue : Word := 0
  mret : Bool := false
  origin : Origin := {}
deriving Repr, Inhabited

/-- `lsq_entry_t`. -/
structure LsqEntry where
  valid : Bool := false
  isLoad : Bool := false
  isStore : Bool := false
  robTag : RobTag := 0
  destPhys : PhysReg := 0
  memCtr : MemAccess := .byte
  pc : Word := 0
  addressReady : Bool := false
  address : Word := 0
  dataReady : Bool := false
  storeDataPhys : PhysReg := 0
  storeData : Word := 0
  origin : Origin := {}
deriving Repr, Inhabited

/-- One execution unit's completion register, with the write-back it carries. -/
structure Completion where
  valid : Bool := false
  robTag : RobTag := 0
  exception : Bool := false
  cause : Cause := 0
  value : Word := 0
  writebackValid : Bool := false
  writebackPhys : PhysReg := 0
  writebackData : Word := 0
  origin : Origin := {}
deriving Repr, Inhabited

/-- One lane of the physical-register write-back bus. -/
structure Writeback where
  valid : Bool := false
  phys : PhysReg := 0
  data : Word := 0
deriving Repr, Inhabited

/-- A store as it is handed to the store buffer or to the memory port. -/
structure StoreRequest where
  address : Word := 0
  data : Word := 0
  access : MemAccess := .word
deriving DecidableEq, Repr, Inhabited

/-- `addPtr` of the ROB, the LSQ and the fetch queue: its `while` loop brings
the sum back below the depth, which is the wrap of a ring slot. -/
abbrev addPtr {n : Nat} [NeZero n] (base : Fin n) (increment : Nat) : Fin n :=
  Ring.slot base increment

end OoOCore
