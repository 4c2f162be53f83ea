/-
The decoder against the instruction set: which words it accepts, which control
bundle each accepted word gets, and what a rejected word leaves disabled.
-/
import OoOCore.Decode
import OoOCore.Lib.Rv32

namespace OoOCore

open Insn Rv32

section Encodings

/-! The control encodings that stand for the ISA's own tables. -/

def regOpCtr : RegOp → AluCtr
  | .add => .add
  | .sub => .sub
  | .sll => .sll
  | .slt => .slt
  | .sltu => .sltu
  | .xor => .xor
  | .srl => .srl
  | .sra => .sra
  | .or => .or
  | .and => .and

def condCtr : Cond → BranchCtr
  | .eq => .beq
  | .ne => .bne
  | .lt => .blt
  | .ge => .bge
  | .ltu => .bltu
  | .geu => .bgeu

def loadKindAccess : LoadKind → MemAccess
  | .lb => .byte
  | .lh => .half
  | .lw => .word
  | .lbu => .byteU
  | .lhu => .halfU

def storeKindAccess : StoreKind → MemAccess
  | .sb => .byte
  | .sh => .half
  | .sw => .word

def csrKindOp : CsrKind → CsrOp
  | .rw => .rw
  | .rs => .rs
  | .rc => .rc

/-- The load an instruction performs. -/
@[simp] def instrLoad : Instr → Option MemAccess
  | .load k _ _ _ => some (loadKindAccess k)
  | _ => none

/-- The store an instruction performs. -/
@[simp] def instrStore : Instr → Option MemAccess
  | .store k _ _ _ => some (storeKindAccess k)
  | _ => none

@[simp] def intInstrBranch : IntInstr → BranchCtr
  | .jal .. => .jal
  | .jalr .. => .jalr
  | .branch c _ _ _ => condCtr c
  | _ => .none

@[simp] def instrBranch : Instr → BranchCtr
  | .int i => intInstrBranch i
  | .mret => .mret
  | _ => .none

/-- One CSR access: what is done, to which CSR, with which immediate operand
when the operand is no register. -/
structure CsrAccess where
  op : CsrOp
  addr : CsrAddr
  operand : Option Word

/-- A set or clear with a zero source field only reads. -/
@[simp] def instrCsr : Instr → Option CsrAccess
  | .csr k _ rs1 addr =>
      some ⟨if k.writes rs1 then csrKindOp k else .none, addr, none⟩
  | .csrImm k _ zimm addr =>
      some ⟨if k.writes zimm then csrKindOp k else .none, addr,
        some (zimm.bits.setWidth 32)⟩
  | _ => none

/-- The cause of the instructions that trap by themselves. -/
@[simp] def instrTrap : Instr → Option Cause
  | .ecall => some excEcallMmode
  | .ebreak => some excBreakpoint
  | _ => none

end Encodings

namespace Decoded

variable (d : Decoded)

/-- The register the bundle writes. -/
@[simp] def dest : Option ArchReg :=
  if d.registerWriteEnable ∧ d.rd ≠ 0 then some d.rd else none

@[simp] def source1 : Option ArchReg := if d.useRs1 then some d.rs1 else none

@[simp] def source2 : Option ArchReg := if d.useRs2 then some d.rs2 else none

@[simp] def load : Option MemAccess := if d.wbSelect = .mem then some d.memCtr else none

@[simp] def store : Option MemAccess := if d.dataWriteEnable then some d.memCtr else none

@[simp] def csr : Option CsrAccess :=
  if d.wbSelect = .csr then
    some ⟨d.csrOp, d.csrAddr, if d.csrUseImm then some d.csrImm else none⟩
  else none

@[simp] def trap : Option Cause :=
  if d.decodeException then some d.decodeExceptionCause else none

/-- The illegal-instruction exception. -/
def Illegal : Prop := d.trap = some excIllegalInsn

/-- The bundle carries the fields of the instruction's own format. -/
structure Follows (i : Instr) : Prop where
  dest : d.dest = i.dest
  source1 : d.source1 = i.source1
  source2 : d.source2 = i.source2
  immediate : ∀ imm, i.immediate = some imm → d.immediate = imm
  load : d.load = instrLoad i
  store : d.store = instrStore i
  branch : d.branchCtr = instrBranch i
  csr : d.csr = instrCsr i
  csrWrite : d.csrOp = ((instrCsr i).map CsrAccess.op).getD .none
  mret : d.mret = decide (i = .mret)
  trap : d.trap = instrTrap i

/-- No enable of the bundle is active. -/
structure Inert : Prop where
  registerWrite : d.registerWriteEnable = false
  store : d.dataWriteEnable = false
  csrWrite : d.csrOp = .none
  branch : d.branchCtr = .none
  mret : d.mret = false

end Decoded

section Equations

/-! The bundle of every accepted instruction, over the decoder's defaults. -/

theorem decoder_op (k : RegOp) (rd rs1 rs2 : ArchReg) :
    decoder (IntInstr.op k rd rs1 rs2).encode =
      { decodeDefaults (IntInstr.op k rd rs1 rs2).encode with
        decodeException := false, registerWriteEnable := true,
        aluCtr := regOpCtr k, rd := rd, rs1 := rs1, rs2 := rs2,
        useRs1 := true, useRs2 := true } := by
  cases k <;> simp [decoder, IntInstr.encode, opcode, decodeOp, opCtr, funct3,
    funct7, RegOp.funct, regOpCtr, decodeDefaults, Insn.rd, Insn.rs1, Insn.rs2]

theorem decoder_opImm (k : ImmOp) (rd rs1 : ArchReg) (imm : BitVec 12) :
    decoder (IntInstr.opImm k rd rs1 imm).encode =
      { decodeDefaults (IntInstr.opImm k rd rs1 imm).encode with
        decodeException := false, registerWriteEnable := true,
        aluCtr := regOpCtr k.regOp, rd := rd, rs1 := rs1, aluSrcBSelect := true
        useRs1 := true, immediate := imm.signExtend 32 } := by
  cases k <;> simp [decoder, IntInstr.encode, opcode, decodeOpImm, opImmCtr,
    opImmImmediate, immI, funct3, ImmOp.funct3, ImmOp.regOp, regOpCtr,
    decodeDefaults, Insn.rd, Insn.rs1]

theorem decoder_shift (k : ShiftOp) (rd rs1 : ArchReg) (amount : BitVec 5) :
    decoder (IntInstr.shift k rd rs1 amount).encode =
      { decodeDefaults (IntInstr.shift k rd rs1 amount).encode with
        decodeException := false, registerWriteEnable := true,
        aluCtr := regOpCtr k.regOp, rd := rd, rs1 := rs1, aluSrcBSelect := true
        useRs1 := true, immediate := amount.setWidth 32 } := by
  have hlow (f7 : BitVec 7) : (f7 ++ amount).extractLsb' 0 5 = amount :=
    BitVec.extractLsb'_append_eq_right
  have hhigh (f7 : BitVec 7) : (f7 ++ amount).extractLsb' 5 7 = f7 :=
    BitVec.extractLsb'_append_eq_left
  cases k <;> simp [decoder, IntInstr.encode, opcode, decodeOpImm, opImmCtr,
    opImmImmediate, shamt, funct3, funct7, ShiftOp.funct, ShiftOp.regOp,
    regOpCtr, decodeDefaults, Insn.rd, Insn.rs1, hlow, hhigh]

theorem decoder_lui (rd : ArchReg) (imm : BitVec 20) :
    decoder (IntInstr.lui rd imm).encode =
      { decodeDefaults (IntInstr.lui rd imm).encode with
        decodeException := false, registerWriteEnable := true,
        wbSelect := .imm, rd := rd, immediate := imm ++ 0#12 } := by
  simp [decoder, IntInstr.encode, opcode, decodeLui, immU, decodeDefaults,
    Insn.rd]

theorem decoder_auipc (rd : ArchReg) (imm : BitVec 20) :
    decoder (IntInstr.auipc rd imm).encode =
      { decodeDefaults (IntInstr.auipc rd imm).encode with
        decodeException := false, registerWriteEnable := true,
        aluSrcASelect := true, aluSrcBSelect := true,
        rd := rd, immediate := imm ++ 0#12 } := by
  simp [decoder, IntInstr.encode, opcode, decodeAuipc, immU, decodeDefaults,
    Insn.rd]

theorem decoder_jal (rd : ArchReg) (offset : BitVec 20) :
    decoder (IntInstr.jal rd offset).encode =
      { decodeDefaults (IntInstr.jal rd offset).encode with
        decodeException := false, registerWriteEnable := true,
        wbSelect := .pc4, branchCtr := .jal, aluSrcASelect := true,
        aluSrcBSelect := true, rd := rd,
        immediate := (offset ++ 0#1 : BitVec 21).signExtend 32 } := by
  simp [decoder, IntInstr.encode, opcode, decodeJal, immJ, decodeDefaults,
    Insn.rd]

theorem decoder_jalr (rd rs1 : ArchReg) (imm : BitVec 12) :
    decoder (IntInstr.jalr rd rs1 imm).encode =
      { decodeDefaults (IntInstr.jalr rd rs1 imm).encode with
        decodeException := false, registerWriteEnable := true,
        wbSelect := .pc4, branchCtr := .jalr, aluSrcBSelect := true,
        useRs1 := true, rd := rd, rs1 := rs1,
        immediate := imm.signExtend 32 } := by
  simp [decoder, IntInstr.encode, opcode, decodeJalr, immI, funct3,
    decodeDefaults, Insn.rd, Insn.rs1]

theorem decoder_branch (c : Cond) (rs1 rs2 : ArchReg) (offset : BitVec 12) :
    decoder (IntInstr.branch c rs1 rs2 offset).encode =
      { decodeDefaults (IntInstr.branch c rs1 rs2 offset).encode with
        decodeException := false, branchCtr := condCtr c,
        aluSrcASelect := true, aluSrcBSelect := true, useRs1 := true,
        useRs2 := true, rs1 := rs1, rs2 := rs2,
        immediate := (offset ++ 0#1 : BitVec 13).signExtend 32 } := by
  cases c <;> simp [decoder, IntInstr.encode, opcode, decodeBranch, branchKind,
    immB, funct3, Cond.funct3, condCtr, decodeDefaults, Insn.rs1, Insn.rs2]

theorem decoder_load (k : LoadKind) (rd rs1 : ArchReg) (imm : BitVec 12) :
    decoder (Instr.load k rd rs1 imm).encode =
      { decodeDefaults (Instr.load k rd rs1 imm).encode with
        decodeException := false, registerWriteEnable := true,
        wbSelect := .mem, memCtr := loadKindAccess k, aluSrcBSelect := true,
        useRs1 := true, rd := rd, rs1 := rs1,
        immediate := imm.signExtend 32 } := by
  cases k <;> simp [decoder, Instr.encode, opcode, decodeLoad, loadAccess,
    immI, funct3, LoadKind.funct3, loadKindAccess, decodeDefaults, Insn.rd,
    Insn.rs1]

theorem decoder_store (k : StoreKind) (rs1 rs2 : ArchReg) (imm : BitVec 12) :
    decoder (Instr.store k rs1 rs2 imm).encode =
      { decodeDefaults (Instr.store k rs1 rs2 imm).encode with
        decodeException := false, dataWriteEnable := true,
        memCtr := storeKindAccess k, aluSrcBSelect := true, useRs1 := true,
        useRs2 := true, rs1 := rs1, rs2 := rs2,
        immediate := imm.signExtend 32 } := by
  cases k <;> simp [decoder, Instr.encode, opcode, decodeStore, storeAccess,
    immS, funct3, StoreKind.funct3, storeKindAccess, decodeDefaults, Insn.rs1,
    Insn.rs2]

theorem decoder_fence (rd rs1 : ArchReg) (imm : BitVec 12) :
    decoder (Instr.fence rd rs1 imm).encode =
      { decodeDefaults (Instr.fence rd rs1 imm).encode with
        decodeException := false, serialize := true } := by
  simp [decoder, Instr.encode, opcode, decodeFence, isFence, funct3,
    decodeDefaults]

theorem decoder_fenceI :
    decoder Instr.fenceI.encode =
      { decodeDefaults Instr.fenceI.encode with
        decodeException := false, serialize := true } := by
  decide

theorem decoder_csr (k : CsrKind) (rd rs1 : ArchReg) (addr : CsrAddr) :
    decoder (Instr.csr k rd rs1 addr).encode =
      { decodeDefaults (Instr.csr k rd rs1 addr).encode with
        decodeException := false, wbSelect := .csr,
        registerWriteEnable := decide (rd ≠ 0), rd := rd, rs1 := rs1,
        csrOp := if k.writes rs1 then csrKindOp k else .none,
        csrAddr := addr, useRs1 := k.writes rs1 } := by
  cases k <;> simp [decoder, Instr.encode, opcode, decodeSystem, csrForm,
    decodeCsr, funct3, CsrKind.funct3, CsrKind.writes, csrKindOp,
    decodeDefaults, Insn.rd, Insn.rs1] 

theorem decoder_csrImm (k : CsrKind) (rd zimm : ArchReg) (addr : CsrAddr) :
    decoder (Instr.csrImm k rd zimm addr).encode =
      { decodeDefaults (Instr.csrImm k rd zimm addr).encode with
        decodeException := false, wbSelect := .csr,
        registerWriteEnable := decide (rd ≠ 0), rd := rd,
        csrOp := if k.writes zimm then csrKindOp k else .none,
        csrAddr := addr, csrUseImm := true,
        csrImm := (Reg.bits zimm).setWidth 32 } := by
  cases k <;> simp [decoder, Instr.encode, opcode, decodeSystem, csrForm,
    decodeCsr, funct3, CsrKind.funct3, CsrKind.writes, csrKindOp,
    decodeDefaults, Insn.rd, Insn.rs1]

theorem decoder_ecall :
    decoder Instr.ecall.encode =
      { decodeDefaults Instr.ecall.encode with
        serialize := true, decodeExceptionCause := excEcallMmode,
        exceptionValue := 0 } := by
  decide

theorem decoder_ebreak :
    decoder Instr.ebreak.encode =
      { decodeDefaults Instr.ebreak.encode with
        serialize := true, decodeExceptionCause := excBreakpoint,
        exceptionValue := 0 } := by
  decide

theorem decoder_mret :
    decoder Instr.mret.encode =
      { decodeDefaults Instr.mret.encode with
        serialize := true, decodeException := false, mret := true,
        branchCtr := .mret, csrAddr := 0x341 } := by
  decide

end Equations

theorem decoder_follows_int (i : IntInstr) :
    (decoder i.encode).Follows (.int i) := by
  cases i with
  | op k rd rs1 rs2 =>
      rw [decoder_op]
      constructor <;> simp [decodeDefaults, Option.filter]
  | opImm k rd rs1 imm =>
      rw [decoder_opImm]
      constructor <;> simp [decodeDefaults, Option.filter]
  | shift k rd rs1 amount =>
      rw [decoder_shift]
      constructor <;> simp [decodeDefaults, Option.filter]
  | lui rd imm =>
      rw [decoder_lui]
      constructor <;> simp [decodeDefaults, Option.filter]
  | auipc rd imm =>
      rw [decoder_auipc]
      constructor <;> simp [decodeDefaults, Option.filter]
  | jal rd offset =>
      rw [decoder_jal]
      constructor <;> simp [decodeDefaults, Option.filter]
  | jalr rd rs1 imm =>
      rw [decoder_jalr]
      constructor <;> simp [decodeDefaults, Option.filter]
  | branch c rs1 rs2 offset =>
      rw [decoder_branch]
      constructor <;> simp [decodeDefaults, Option.filter]

theorem decoder_follows (i : Instr) : (decoder i.encode).Follows i := by
  cases i with
  | int i => exact decoder_follows_int i
  | load k rd rs1 imm =>
      rw [decoder_load]
      constructor <;> simp [decodeDefaults, Option.filter]
  | store k rs1 rs2 imm =>
      rw [decoder_store]
      constructor <;> simp [decodeDefaults]
  | fence rd rs1 imm =>
      rw [decoder_fence]
      constructor <;> simp [decodeDefaults]
  | fenceI =>
      rw [decoder_fenceI]
      constructor <;> simp [decodeDefaults]
  | csr k rd rs1 addr =>
      rw [decoder_csr]
      constructor <;> simp [decodeDefaults, Option.filter]
  | csrImm k rd zimm addr =>
      rw [decoder_csrImm]
      constructor <;> simp [decodeDefaults, Option.filter]
  | ecall =>
      rw [decoder_ecall]
      constructor <;> simp [decodeDefaults]
  | ebreak =>
      rw [decoder_ebreak]
      constructor <;> simp [decodeDefaults]
  | mret =>
      rw [decoder_mret]
      constructor <;> simp [decodeDefaults]

section Acceptance

/-! A word that an opcode group accepts is the encoding of an instruction of
that group, found from the word's own fields. -/

variable {insn : Word}

theorem encodes_op (hop : opcode insn = 0b0110011) (h : opCtr insn ≠ none) :
    ∃ i : Instr, i.encode = insn := by
  have hfunct : funct7 insn = 0b0000000 ∨ funct7 insn = 0b0100000 ∧
      (funct3 insn = 0b000 ∨ funct3 insn = 0b101) := by
    by_contra hno
    push Not at hno
    obtain ⟨h0, h32⟩ := hno
    apply h
    by_cases h7 : funct7 insn = 0b0100000
    · obtain ⟨hadd, hsrl⟩ := h32 h7
      rw [opCtr, if_neg h0, if_pos h7, if_neg hadd, if_neg hsrl]
    · rw [opCtr, if_neg h0, if_neg h7]
  obtain ⟨k, hk⟩ := RegOp.exists_funct hfunct
  refine ⟨.int (.op k (rd insn) (rs1 insn) (rs2 insn)), ?_⟩
  simp only [Instr.encode, IntInstr.encode, hk, ← hop]
  exact rType_of_fields insn

/-- `funct7` and the `rs2` bits make up the immediate field. -/
theorem funct7_append_shamt (insn : Word) :
    funct7 insn ++ insn.extractLsb' 20 5 = insn.extractLsb' 20 12 :=
  BitVec.extractLsb'_append_extractLsb'_eq_extractLsb' (by decide)

theorem encodes_shift (hop : opcode insn = 0b0010011) (k : ShiftOp)
    (h3 : k.funct.1 = funct3 insn) (h7 : k.funct.2 = funct7 insn) :
    ∃ i : Instr, i.encode = insn := by
  refine ⟨.int (.shift k (rd insn) (rs1 insn) (insn.extractLsb' 20 5)), ?_⟩
  simp only [Instr.encode, IntInstr.encode, h3, h7, funct7_append_shamt, ← hop]
  exact iType_of_fields insn

theorem encodes_opImm (hop : opcode insn = 0b0010011)
    (h : opImmCtr insn ≠ none) : ∃ i : Instr, i.encode = insn := by
  by_cases hsll : funct3 insn = 0b001
  · have h7 : funct7 insn = 0b0000000 := by
      by_contra h7
      apply h
      simp only [opImmCtr, hsll]
      exact if_neg h7
    exact encodes_shift hop .slli hsll.symm h7.symm
  by_cases hsr : funct3 insn = 0b101
  · by_cases h7 : funct7 insn = 0b0000000
    · exact encodes_shift hop .srli hsr.symm h7.symm
    have h32 : funct7 insn = 0b0100000 := by
      by_contra h32
      apply h
      simp only [opImmCtr, hsr]
      exact (if_neg h7).trans (if_neg h32)
    exact encodes_shift hop .srai hsr.symm h32.symm
  obtain ⟨k, hk⟩ := ImmOp.exists_funct3 hsll hsr
  refine ⟨.int (.opImm k (rd insn) (rs1 insn) (insn.extractLsb' 20 12)), ?_⟩
  simp only [Instr.encode, IntInstr.encode, hk, ← hop]
  exact iType_of_fields insn

theorem encodes_load (hop : opcode insn = 0b0000011)
    (h : loadAccess insn ≠ none) : ∃ i : Instr, i.encode = insn := by
  obtain ⟨k, hk⟩ := LoadKind.exists_funct3
    (fun (hf : funct3 insn = _) => h (by simp [loadAccess, hf]))
    (fun hf => h (by simp [loadAccess, hf]))
    (fun hf => h (by simp [loadAccess, hf]))
  refine ⟨.load k (rd insn) (rs1 insn) (insn.extractLsb' 20 12), ?_⟩
  simp only [Instr.encode, hk, ← hop]
  exact iType_of_fields insn

theorem encodes_store_kind (hop : opcode insn = 0b0100011) (k : StoreKind)
    (hk : k.funct3 = funct3 insn) : ∃ i : Instr, i.encode = insn := by
  refine ⟨.store k (rs1 insn) (rs2 insn)
    (insn.extractLsb' 25 7 ++ insn.extractLsb' 7 5), ?_⟩
  simp only [Instr.encode, hk, ← hop]
  exact sType_of_fields insn

theorem encodes_store (hop : opcode insn = 0b0100011)
    (h : storeAccess insn ≠ none) : ∃ i : Instr, i.encode = insn := by
  by_cases h0 : funct3 insn = 0b000
  · exact encodes_store_kind hop .sb h0.symm
  by_cases h1 : funct3 insn = 0b001
  · exact encodes_store_kind hop .sh h1.symm
  have h2 : funct3 insn = 0b010 := by
    by_contra h2
    apply h
    rw [storeAccess, if_neg h0, if_neg h1, if_neg h2]
  exact encodes_store_kind hop .sw h2.symm

theorem encodes_branch (hop : opcode insn = 0b1100011)
    (h : branchKind insn ≠ none) : ∃ i : Instr, i.encode = insn := by
  obtain ⟨c, hc⟩ := Cond.exists_funct3
    (fun (hf : funct3 insn = _) => h (by simp [branchKind, hf]))
    (fun hf => h (by simp [branchKind, hf]))
  refine ⟨.int (.branch c (rs1 insn) (rs2 insn)
    (insn.extractLsb' 31 1 ++ insn.extractLsb' 7 1 ++ insn.extractLsb' 25 6 ++
      insn.extractLsb' 8 4)), ?_⟩
  simp only [Instr.encode, IntInstr.encode, hc, ← hop]
  exact bType_of_fields insn

theorem encodes_jal (hop : opcode insn = 0b1101111) :
    ∃ i : Instr, i.encode = insn := by
  refine ⟨.int (.jal (rd insn) (insn.extractLsb' 31 1 ++
    insn.extractLsb' 12 8 ++ insn.extractLsb' 20 1 ++
    insn.extractLsb' 21 10)), ?_⟩
  simp only [Instr.encode, IntInstr.encode, ← hop]
  exact jType_of_fields insn

theorem encodes_jalr (hop : opcode insn = 0b1100111)
    (h3 : funct3 insn = 0b000) : ∃ i : Instr, i.encode = insn := by
  refine ⟨.int (.jalr (rd insn) (rs1 insn) (insn.extractLsb' 20 12)), ?_⟩
  simp only [Instr.encode, IntInstr.encode, ← h3, ← hop]
  exact iType_of_fields insn

theorem encodes_lui (hop : opcode insn = 0b0110111) :
    ∃ i : Instr, i.encode = insn := by
  refine ⟨.int (.lui (rd insn) (insn.extractLsb' 12 20)), ?_⟩
  simp only [Instr.encode, IntInstr.encode, ← hop]
  exact uType_of_fields insn

theorem encodes_auipc (hop : opcode insn = 0b0010111) :
    ∃ i : Instr, i.encode = insn := by
  refine ⟨.int (.auipc (rd insn) (insn.extractLsb' 12 20)), ?_⟩
  simp only [Instr.encode, IntInstr.encode, ← hop]
  exact uType_of_fields insn

theorem encodes_fence (hop : opcode insn = 0b0001111)
    (h : isFence insn = true) : ∃ i : Instr, i.encode = insn := by
  by_cases h0 : funct3 insn = 0b000
  · refine ⟨.fence (rd insn) (rs1 insn) (insn.extractLsb' 20 12), ?_⟩
    simp only [Instr.encode, ← h0, ← hop]
    exact iType_of_fields insn
  · simp only [isFence, h0, decide_false, Bool.false_or, Bool.and_eq_true,
      decide_eq_true_eq] at h
    obtain ⟨⟨⟨h3, hrd⟩, hrs1⟩, himm⟩ := h
    refine ⟨.fenceI, ?_⟩
    simp only [Instr.encode]
    rw [← h3, ← hop, ← himm]
    nth_rewrite 1 [← hrd]
    nth_rewrite 1 [← hrs1]
    exact iType_of_fields insn

theorem encodes_csr (hop : opcode insn = 0b1110011)
    (h0 : funct3 insn ≠ 0b000) (h : csrForm insn ≠ none) :
    ∃ i : Instr, i.encode = insn := by
  obtain ⟨k, hk | hk⟩ := CsrKind.exists_funct3 h0
    (fun hf => h (by simp [csrForm, hf]))
  · refine ⟨.csr k (rd insn) (rs1 insn) (insn.extractLsb' 20 12), ?_⟩
    simp only [Instr.encode, hk, ← hop]
    exact iType_of_fields insn
  · refine ⟨.csrImm k (rd insn) (rs1 insn) (insn.extractLsb' 20 12), ?_⟩
    simp only [Instr.encode, hk, ← hop]
    exact iType_of_fields insn

theorem encodes_system (hop : opcode insn = 0b1110011)
    (h : ¬(decodeSystem insn).Illegal) : ∃ i : Instr, i.encode = insn := by
  by_cases h0 : funct3 insn = 0b000
  · rw [decodeSystem, if_pos h0, decodePrivileged] at h
    split at h
    · next hw => exact ⟨.ecall, by rw [hw]; decide⟩
    split at h
    · next hw => exact ⟨.ebreak, by rw [hw]; decide⟩
    split at h
    · next hw => exact ⟨.mret, by rw [hw]; decide⟩
    · exact absurd rfl h
  · apply encodes_csr hop h0
    intro hnone
    apply h
    rw [decodeSystem, if_neg h0, hnone]
    rfl

/-- Every word that does not raise the illegal-instruction exception encodes
an instruction. -/
theorem encodes_of_legal (h : ¬(decoder insn).Illegal) :
    ∃ i : Instr, i.encode = insn := by
  have harm := decoder_arm insn
  generalize decoder insn = d at harm h
  cases harm with
  | op hop =>
      apply encodes_op hop
      intro hno
      exact h (by simp [Decoded.Illegal, decodeOp, hno, decodeDefaults])
  | opImm hop =>
      apply encodes_opImm hop
      intro hno
      exact h (by simp [Decoded.Illegal, decodeOpImm, hno, decodeDefaults])
  | load hop =>
      apply encodes_load hop
      intro hno
      exact h (by simp [Decoded.Illegal, decodeLoad, hno, decodeDefaults])
  | store hop =>
      apply encodes_store hop
      intro hno
      exact h (by simp [Decoded.Illegal, decodeStore, hno, decodeDefaults])
  | branch hop =>
      apply encodes_branch hop
      intro hno
      exact h (by simp [Decoded.Illegal, decodeBranch, hno, decodeDefaults])
  | jal hop => exact encodes_jal hop
  | jalr hop =>
      by_cases h3 : funct3 insn = 0b000
      · exact encodes_jalr hop h3
      · exact absurd (by rw [decodeJalr, if_neg h3]; rfl) h
  | lui hop => exact encodes_lui hop
  | auipc hop => exact encodes_auipc hop
  | fence hop =>
      cases hfence : isFence insn with
      | true => exact encodes_fence hop hfence
      | false =>
          exact absurd (by simp [Decoded.Illegal, decodeFence, hfence,
            decodeDefaults]) h
  | system hop => exact encodes_system hop h
  | other => exact absurd rfl h

/-- The decoder raises the illegal-instruction exception on exactly the words
that encode nothing. -/
theorem illegal_iff : (decoder insn).Illegal ↔ ∀ i : Instr, i.encode ≠ insn := by
  constructor
  · rintro hillegal i rfl
    have htrap : instrTrap i = some excIllegalInsn :=
      (decoder_follows i).trap.symm.trans hillegal
    cases i <;> simp [excIllegalInsn, excEcallMmode, excBreakpoint] at htrap
  · intro hnone
    by_contra hlegal
    obtain ⟨i, hi⟩ := encodes_of_legal hlegal
    exact hnone i hi

end Acceptance

section Rejection

variable {insn : Word}

theorem decodeDefaults_inert (insn : Word) : (decodeDefaults insn).Inert := by
  constructor <;> rfl

theorem decodeJalr_inert (h : (decodeJalr insn).decodeException = true) :
    (decodeJalr insn).Inert := by
  unfold decodeJalr at h ⊢
  split at h
  · exact absurd h Bool.false_ne_true
  · next h3 =>
      rw [if_neg h3]
      exact decodeDefaults_inert insn

theorem decodePrivileged_inert
    (h : (decodePrivileged insn).decodeException = true) :
    (decodePrivileged insn).Inert := by
  unfold decodePrivileged at h ⊢
  split
  · constructor <;> rfl
  split
  · constructor <;> rfl
  split
  · next hecall hebreak hmret =>
      rw [if_neg hecall, if_neg hebreak, if_pos hmret] at h
      exact absurd h Bool.false_ne_true
  · constructor <;> rfl

theorem decodeSystem_inert (h : (decodeSystem insn).decodeException = true) :
    (decodeSystem insn).Inert := by
  unfold decodeSystem at h ⊢
  split
  · next h0 =>
      rw [if_pos h0] at h
      exact decodePrivileged_inert h
  · next h0 =>
      rw [if_neg h0] at h
      cases hform : csrForm insn with
      | some form =>
          rw [hform] at h
          exact absurd h Bool.false_ne_true
      | none => exact decodeDefaults_inert insn

/-- A word that raises a decode exception enables nothing. -/
theorem decoder_inert (h : (decoder insn).decodeException = true) :
    (decoder insn).Inert := by
  have harm := decoder_arm insn
  generalize decoder insn = d at harm h ⊢
  cases harm with
  | op => constructor <;> simp_all [decodeOp, decodeDefaults]
  | opImm => constructor <;> simp_all [decodeOpImm, decodeDefaults]
  | load => constructor <;> simp_all [decodeLoad, decodeDefaults]
  | store => constructor <;> simp_all [decodeStore, decodeDefaults]
  | branch => constructor <;> simp_all [decodeBranch, decodeDefaults]
  | jal | lui | auipc => exact absurd h Bool.false_ne_true
  | jalr => exact decodeJalr_inert h
  | fence => constructor <;> rfl
  | system => exact decodeSystem_inert h
  | other => exact decodeDefaults_inert insn

/-- The decoder rejects exactly the words outside the instruction set, gives
every instruction the fields of its format, and disarms every word that raises
an exception. -/
theorem decoder_exact (insn : Word) :
    ((decoder insn).Illegal ↔ ∀ i : Instr, i.encode ≠ insn) ∧
      (∀ i : Instr, i.encode = insn → (decoder insn).Follows i) ∧
      ((decoder insn).decodeException = true → (decoder insn).Inert) := by
  refine ⟨illegal_iff, ?_, decoder_inert⟩
  rintro i rfl
  exact decoder_follows i

end Rejection

end OoOCore
