/-
`Decoder.sv` and `IdStages.sv`: one instruction word to the control bundle that
rename consumes.  Each opcode group starts from the decoder's safe defaults and
turns on only what the instruction needs.
-/
import OoOCore.Types

namespace OoOCore

/-- The outputs of `Decoder`. -/
structure Decoded where
  registerWriteEnable : Bool := false
  dataWriteEnable : Bool := false
  wbSelect : WbSelect := .alu
  csrOp : CsrOp := .none
  csrAddr : CsrAddr := 0
  csrUseImm : Bool := false
  csrImm : Word := 0
  branchCtr : BranchCtr := .none
  aluCtr : AluCtr := .add
  memCtr : MemAccess := .word
  aluSrcASelect : Bool := false
  aluSrcBSelect : Bool := false
  useRs1 : Bool := false
  useRs2 : Bool := false
  rs1 : ArchReg := 0
  rs2 : ArchReg := 0
  rd : ArchReg := 0
  immediate : Word := 0
  decodeException : Bool := true
  decodeExceptionCause : Cause := excIllegalInsn
  exceptionValue : Word := 0
  serialize : Bool := false
  mret : Bool := false
deriving DecidableEq, Repr

namespace Insn

def opcode (insn : Word) : BitVec 7 := insn.extractLsb' 0 7
def funct3 (insn : Word) : BitVec 3 := insn.extractLsb' 12 3
def funct7 (insn : Word) : BitVec 7 := insn.extractLsb' 25 7
def rs1 (insn : Word) : ArchReg := (insn.extractLsb' 15 5).toFin
def rs2 (insn : Word) : ArchReg := (insn.extractLsb' 20 5).toFin
def rd (insn : Word) : ArchReg := (insn.extractLsb' 7 5).toFin

/-- `{{20{insn[31]}}, insn[31:20]}`. -/
def immI (insn : Word) : Word := (insn.extractLsb' 20 12).signExtend 32

/-- `{{20{insn[31]}}, insn[31:25], insn[11:7]}`. -/
def immS (insn : Word) : Word :=
  (insn.extractLsb' 25 7 ++ insn.extractLsb' 7 5 : BitVec 12).signExtend 32

/-- `{{19{insn[31]}}, insn[31], insn[7], insn[30:25], insn[11:8], 1'b0}`. -/
def immB (insn : Word) : Word :=
  (insn.extractLsb' 31 1 ++ insn.extractLsb' 7 1 ++ insn.extractLsb' 25 6 ++
    insn.extractLsb' 8 4 ++ 0#1 : BitVec 13).signExtend 32

/-- `{insn[31:12], 12'b0}`. -/
def immU (insn : Word) : Word := insn.extractLsb' 12 20 ++ 0#12

/-- `{{11{insn[31]}}, insn[31], insn[19:12], insn[20], insn[30:21], 1'b0}`. -/
def immJ (insn : Word) : Word :=
  (insn.extractLsb' 31 1 ++ insn.extractLsb' 12 8 ++ insn.extractLsb' 20 1 ++
    insn.extractLsb' 21 10 ++ 0#1 : BitVec 21).signExtend 32

/-- `{27'd0, insn[24:20]}`. -/
def shamt (insn : Word) : Word := (insn.extractLsb' 20 5).setWidth 32

end Insn

open Insn

/-- The assignments in front of the opcode `case`. -/
def decodeDefaults (insn : Word) : Decoded where
  rs1 := rs1 insn
  rs2 := rs2 insn
  rd := rd insn
  csrAddr := insn.extractLsb' 20 12
  csrImm := (insn.extractLsb' 15 5).setWidth 32
  exceptionValue := insn

/-- The operation of `{funct7, funct3}` under opcode `0110011`. -/
def opCtr (insn : Word) : Option AluCtr :=
  if funct7 insn = 0b0000000 then
    if funct3 insn = 0b000 then some .add
    else if funct3 insn = 0b001 then some .sll
    else if funct3 insn = 0b010 then some .slt
    else if funct3 insn = 0b011 then some .sltu
    else if funct3 insn = 0b100 then some .xor
    else if funct3 insn = 0b101 then some .srl
    else if funct3 insn = 0b110 then some .or
    else some .and
  else if funct7 insn = 0b0100000 then
    if funct3 insn = 0b000 then some .sub
    else if funct3 insn = 0b101 then some .sra
    else none
  else none

/-- Opcode `0110011`. -/
def decodeOp (insn : Word) : Decoded :=
  { decodeDefaults insn with
    decodeException := (opCtr insn).isNone
    registerWriteEnable := (opCtr insn).isSome
    aluCtr := (opCtr insn).getD .add
    useRs1 := true
    useRs2 := true }

/-- The operation of `funct3`, and of `funct7` for shifts, under opcode
`0010011`. -/
def opImmCtr (insn : Word) : Option AluCtr :=
  if funct3 insn = 0b000 then some .add
  else if funct3 insn = 0b010 then some .slt
  else if funct3 insn = 0b011 then some .sltu
  else if funct3 insn = 0b100 then some .xor
  else if funct3 insn = 0b110 then some .or
  else if funct3 insn = 0b111 then some .and
  else if funct3 insn = 0b001 then
    if funct7 insn = 0b0000000 then some .sll else none
  else
    -- The remaining encoding is 101: SRLI and SRAI share it.
    if funct7 insn = 0b0000000 then some .srl
    else if funct7 insn = 0b0100000 then some .sra
    else none

/-- Shifts take `shamt`; a malformed `SLLI` keeps the I immediate. -/
def opImmImmediate (insn : Word) : Word :=
  if funct3 insn = 0b101 ∨ (funct3 insn = 0b001 ∧ funct7 insn = 0b0000000) then
    shamt insn
  else immI insn

/-- Opcode `0010011`. -/
def decodeOpImm (insn : Word) : Decoded :=
  { decodeDefaults insn with
    decodeException := (opImmCtr insn).isNone
    registerWriteEnable := (opImmCtr insn).isSome
    aluCtr := (opImmCtr insn).getD .add
    aluSrcBSelect := true
    useRs1 := true
    immediate := opImmImmediate insn }

/-- The access of `funct3` under opcode `0000011`. -/
def loadAccess (insn : Word) : Option MemAccess :=
  if funct3 insn = 0b000 then some .byte
  else if funct3 insn = 0b001 then some .half
  else if funct3 insn = 0b010 then some .word
  else if funct3 insn = 0b100 then some .byteU
  else if funct3 insn = 0b101 then some .halfU
  else none

/-- Opcode `0000011`. -/
def decodeLoad (insn : Word) : Decoded :=
  { decodeDefaults insn with
    decodeException := (loadAccess insn).isNone
    registerWriteEnable := (loadAccess insn).isSome
    wbSelect := .mem
    memCtr := (loadAccess insn).getD .word
    aluSrcBSelect := true
    useRs1 := true
    immediate := immI insn }

/-- The access of `funct3` under opcode `0100011`. -/
def storeAccess (insn : Word) : Option MemAccess :=
  if funct3 insn = 0b000 then some .byte
  else if funct3 insn = 0b001 then some .half
  else if funct3 insn = 0b010 then some .word
  else none

/-- Opcode `0100011`. -/
def decodeStore (insn : Word) : Decoded :=
  { decodeDefaults insn with
    decodeException := (storeAccess insn).isNone
    dataWriteEnable := (storeAccess insn).isSome
    memCtr := (storeAccess insn).getD .word
    aluSrcBSelect := true
    useRs1 := true
    useRs2 := true
    immediate := immS insn }

/-- The comparison of `funct3` under opcode `1100011`. -/
def branchKind (insn : Word) : Option BranchCtr :=
  if funct3 insn = 0b000 then some .beq
  else if funct3 insn = 0b001 then some .bne
  else if funct3 insn = 0b100 then some .blt
  else if funct3 insn = 0b101 then some .bge
  else if funct3 insn = 0b110 then some .bltu
  else if funct3 insn = 0b111 then some .bgeu
  else none

/-- Opcode `1100011`. -/
def decodeBranch (insn : Word) : Decoded :=
  { decodeDefaults insn with
    decodeException := (branchKind insn).isNone
    branchCtr := (branchKind insn).getD .none
    aluSrcASelect := true
    aluSrcBSelect := true
    useRs1 := true
    useRs2 := true
    immediate := immB insn }

/-- Opcode `1101111`. -/
def decodeJal (insn : Word) : Decoded :=
  { decodeDefaults insn with
    decodeException := false, registerWriteEnable := true, wbSelect := .pc4,
    branchCtr := .jal, aluSrcASelect := true, aluSrcBSelect := true,
    immediate := immJ insn }

/-- Opcode `1100111`. -/
def decodeJalr (insn : Word) : Decoded :=
  if funct3 insn = 0b000 then
    { decodeDefaults insn with
      decodeException := false, registerWriteEnable := true, wbSelect := .pc4,
      branchCtr := .jalr, aluSrcBSelect := true, useRs1 := true,
      immediate := immI insn }
  else decodeDefaults insn

/-- Opcode `0110111`. -/
def decodeLui (insn : Word) : Decoded :=
  { decodeDefaults insn with
    decodeException := false, registerWriteEnable := true, wbSelect := .imm,
    immediate := immU insn }

/-- Opcode `0010111`. -/
def decodeAuipc (insn : Word) : Decoded :=
  { decodeDefaults insn with
    decodeException := false, registerWriteEnable := true,
    aluSrcASelect := true, aluSrcBSelect := true, immediate := immU insn }

/-- `FENCE`, or the one accepted `FENCE.I` encoding. -/
def isFence (insn : Word) : Bool :=
  decide (funct3 insn = 0b000) ||
    (decide (funct3 insn = 0b001) && decide (rd insn = 0) &&
      decide (rs1 insn = 0) && decide (insn.extractLsb' 20 12 = 0))

/-- Opcode `0001111`. -/
def decodeFence (insn : Word) : Decoded :=
  { decodeDefaults insn with
    decodeException := !isFence insn
    serialize := isFence insn }

/-- The CSR form of `funct3`: operation, immediate operand, register source.
CSRRS/CSRRC with a zero source field are pure reads. -/
def csrForm (insn : Word) : Option (CsrOp × Bool × Bool) :=
  let setOp (op : CsrOp) : CsrOp := if rs1 insn = 0 then .none else op
  if funct3 insn = 0b001 then some (.rw, false, true)
  else if funct3 insn = 0b010 then some (setOp .rs, false, decide (rs1 insn ≠ 0))
  else if funct3 insn = 0b011 then some (setOp .rc, false, decide (rs1 insn ≠ 0))
  else if funct3 insn = 0b101 then some (.rw, true, false)
  else if funct3 insn = 0b110 then some (setOp .rs, true, false)
  else if funct3 insn = 0b111 then some (setOp .rc, true, false)
  else none

/-- The six CSR instructions of opcode `1110011`. -/
def decodeCsr (insn : Word) (form : CsrOp × Bool × Bool) : Decoded :=
  { decodeDefaults insn with
    decodeException := false
    wbSelect := .csr
    registerWriteEnable := decide (rd insn ≠ 0)
    csrOp := form.1
    csrUseImm := form.2.1
    useRs1 := form.2.2 }

/-- Opcode `1110011` with `funct3 = 000`: ECALL, EBREAK, MRET and the words
that are illegal but still serialize. -/
def decodePrivileged (insn : Word) : Decoded :=
  if insn = 0x00000073 then
    { decodeDefaults insn with
      serialize := true, decodeExceptionCause := excEcallMmode,
      exceptionValue := 0 }
  else if insn = 0x00100073 then
    { decodeDefaults insn with
      serialize := true, decodeExceptionCause := excBreakpoint,
      exceptionValue := 0 }
  else if insn = 0x30200073 then
    { decodeDefaults insn with
      serialize := true, decodeException := false, mret := true,
      branchCtr := .mret, csrAddr := 0x341 }
  else { decodeDefaults insn with serialize := true }

/-- Opcode `1110011`. -/
def decodeSystem (insn : Word) : Decoded :=
  if funct3 insn = 0b000 then decodePrivileged insn
  else match csrForm insn with
    | some form => decodeCsr insn form
    | none => decodeDefaults insn

/-- `Decoder`. -/
def decoder (insn : Word) : Decoded :=
  if opcode insn = 0b0110011 then decodeOp insn
  else if opcode insn = 0b0010011 then decodeOpImm insn
  else if opcode insn = 0b0000011 then decodeLoad insn
  else if opcode insn = 0b0100011 then decodeStore insn
  else if opcode insn = 0b1100011 then decodeBranch insn
  else if opcode insn = 0b1101111 then decodeJal insn
  else if opcode insn = 0b1100111 then decodeJalr insn
  else if opcode insn = 0b0110111 then decodeLui insn
  else if opcode insn = 0b0010111 then decodeAuipc insn
  else if opcode insn = 0b0001111 then decodeFence insn
  else if opcode insn = 0b1110011 then decodeSystem insn
  else decodeDefaults insn

/-- How the side effects the decoder turns on exclude one another. -/
structure Decoded.Consistent (d : Decoded) : Prop where
  store : d.dataWriteEnable → d.registerWriteEnable = false ∧
    d.branchCtr = .none ∧ d.wbSelect = .alu ∧ d.decodeException = false
  load : d.wbSelect = .mem → d.dataWriteEnable = false ∧ d.branchCtr = .none
  csr : d.wbSelect = .csr → d.dataWriteEnable = false ∧ d.branchCtr = .none
  branch : d.branchCtr ≠ .none → d.decodeException = false
  access : d.dataWriteEnable → d.memCtr = .byte ∨ d.memCtr = .half ∨
    d.memCtr = .word

theorem decodeDefaults_consistent (insn : Word) :
    (decodeDefaults insn).Consistent := by
  constructor <;> simp [decodeDefaults]

theorem decodeBranch_consistent (insn : Word) :
    (decodeBranch insn).Consistent := by
  constructor <;> cases h : branchKind insn <;>
    simp [decodeBranch, decodeDefaults, h]

theorem storeAccess_cases {insn : Word} {access : MemAccess}
    (h : storeAccess insn = some access) :
    access = .byte ∨ access = .half ∨ access = .word := by
  simp only [storeAccess] at h
  repeat' split at h
  all_goals cases h
  all_goals simp

theorem decodeStore_consistent (insn : Word) :
    (decodeStore insn).Consistent := by
  cases h : storeAccess insn with
  | none => constructor <;> simp [decodeStore, decodeDefaults, h]
  | some access =>
      have hcases := storeAccess_cases h
      constructor <;> simp [decodeStore, decodeDefaults, h, hcases]

theorem decodeJalr_consistent (insn : Word) :
    (decodeJalr insn).Consistent := by
  unfold decodeJalr
  split
  · constructor <;> simp [decodeDefaults]
  · exact decodeDefaults_consistent insn

theorem decodeSystem_consistent (insn : Word) :
    (decodeSystem insn).Consistent := by
  unfold decodeSystem decodePrivileged
  split
  · split
    · constructor <;> simp [decodeDefaults]
    · split
      · constructor <;> simp [decodeDefaults]
      · split <;> constructor <;> simp [decodeDefaults]
  · split
    · constructor <;> simp [decodeCsr, decodeDefaults]
    · exact decodeDefaults_consistent insn

/-- The arm of the decoder that an instruction word takes. -/
inductive DecodeArm (insn : Word) : Decoded → Prop
  | op (hop : opcode insn = 0b0110011) : DecodeArm insn (decodeOp insn)
  | opImm (hop : opcode insn = 0b0010011) : DecodeArm insn (decodeOpImm insn)
  | load (hop : opcode insn = 0b0000011) : DecodeArm insn (decodeLoad insn)
  | store (hop : opcode insn = 0b0100011) : DecodeArm insn (decodeStore insn)
  | branch (hop : opcode insn = 0b1100011) : DecodeArm insn (decodeBranch insn)
  | jal (hop : opcode insn = 0b1101111) : DecodeArm insn (decodeJal insn)
  | jalr (hop : opcode insn = 0b1100111) : DecodeArm insn (decodeJalr insn)
  | lui (hop : opcode insn = 0b0110111) : DecodeArm insn (decodeLui insn)
  | auipc (hop : opcode insn = 0b0010111) : DecodeArm insn (decodeAuipc insn)
  | fence (hop : opcode insn = 0b0001111) : DecodeArm insn (decodeFence insn)
  | system (hop : opcode insn = 0b1110011) :
      DecodeArm insn (decodeSystem insn)
  | other : DecodeArm insn (decodeDefaults insn)

theorem decoder_arm (insn : Word) : DecodeArm insn (decoder insn) := by
  rw [decoder]
  by_cases hop : opcode insn = 0b0110011
  · rw [if_pos hop]
    exact .op hop
  rw [if_neg hop]
  by_cases hopImm : opcode insn = 0b0010011
  · rw [if_pos hopImm]
    exact .opImm hopImm
  rw [if_neg hopImm]
  by_cases hload : opcode insn = 0b0000011
  · rw [if_pos hload]
    exact .load hload
  rw [if_neg hload]
  by_cases hstore : opcode insn = 0b0100011
  · rw [if_pos hstore]
    exact .store hstore
  rw [if_neg hstore]
  by_cases hbranch : opcode insn = 0b1100011
  · rw [if_pos hbranch]
    exact .branch hbranch
  rw [if_neg hbranch]
  by_cases hjal : opcode insn = 0b1101111
  · rw [if_pos hjal]
    exact .jal hjal
  rw [if_neg hjal]
  by_cases hjalr : opcode insn = 0b1100111
  · rw [if_pos hjalr]
    exact .jalr hjalr
  rw [if_neg hjalr]
  by_cases hlui : opcode insn = 0b0110111
  · rw [if_pos hlui]
    exact .lui hlui
  rw [if_neg hlui]
  by_cases hauipc : opcode insn = 0b0010111
  · rw [if_pos hauipc]
    exact .auipc hauipc
  rw [if_neg hauipc]
  by_cases hfence : opcode insn = 0b0001111
  · rw [if_pos hfence]
    exact .fence hfence
  rw [if_neg hfence]
  by_cases hsystem : opcode insn = 0b1110011
  · rw [if_pos hsystem]
    exact .system hsystem
  rw [if_neg hsystem]
  exact .other

theorem decoder_consistent (insn : Word) : (decoder insn).Consistent := by
  have harm := decoder_arm insn
  generalize decoder insn = d at harm ⊢
  cases harm with
  | op => constructor <;> simp [decodeOp, decodeDefaults]
  | opImm => constructor <;> simp [decodeOpImm, decodeDefaults]
  | load => constructor <;> simp [decodeLoad, decodeDefaults]
  | store => exact decodeStore_consistent insn
  | branch => exact decodeBranch_consistent insn
  | jal => constructor <;> simp [decodeJal, decodeDefaults]
  | jalr => exact decodeJalr_consistent insn
  | lui => constructor <;> simp [decodeLui, decodeDefaults]
  | auipc => constructor <;> simp [decodeAuipc, decodeDefaults]
  | fence => constructor <;> simp [decodeFence, decodeDefaults]
  | system => exact decodeSystem_consistent insn
  | other => exact decodeDefaults_consistent insn

theorem decodeSystem_dataWriteEnable (insn : Word) :
    (decodeSystem insn).dataWriteEnable = false := by
  unfold decodeSystem decodePrivileged
  repeat' split
  all_goals rfl

/-- A store reads its data register. -/
theorem decoder_store_useRs2 {insn : Word}
    (h : (decoder insn).dataWriteEnable = true) :
    (decoder insn).useRs2 = true := by
  have harm := decoder_arm insn
  generalize decoder insn = d at harm h ⊢
  cases harm with
  | op | store | branch => rfl
  | opImm | load | jal | lui | auipc | fence | other => cases h
  | jalr =>
      unfold decodeJalr at h
      split at h <;> cases h
  | system =>
      rw [decodeSystem_dataWriteEnable] at h
      cases h

/-- `IdExeBusIf` as `IdStages` drives it; `insn` is the word behind the bus and
is only copied into origins. -/
structure DecodeBus extends Decoded where
  valid : Bool
  pc : Word
  predictedTaken : Bool
  predictedTarget : Word
  predictorIndex : BitVec 10
  historySnapshot : BitVec 10
  tageMeta : TageMeta
  predictedBtbHit : Bool
  predictedRasUsed : Bool
  insn : Word

/-- `IdStages`: a zero word is a bubble. -/
def idStage (packet : FetchPacket) : DecodeBus where
  toDecoded := decoder packet.insn
  valid := decide (packet.insn ≠ 0)
  pc := packet.pc
  predictedTaken := packet.predictedTaken
  predictedTarget := packet.predictedTarget
  predictorIndex := packet.predictorIndex
  historySnapshot := packet.historySnapshot
  tageMeta := packet.tageMeta
  predictedBtbHit := packet.predictedBtbHit
  predictedRasUsed := packet.predictedRasUsed
  insn := packet.insn

end OoOCore
