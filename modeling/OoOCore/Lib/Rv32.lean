/-
RV32I with Zicsr and the machine-mode return as the ISA manual tabulates them:
instruction formats, one constructor per group of encodings, and what the
integer instructions compute.
-/
import Mathlib.Logic.Basic

namespace Rv32

abbrev Reg := Fin 32

/-- A register number as an instruction field. -/
def Reg.bits (r : Reg) : BitVec 5 := BitVec.ofFin r

@[simp] theorem Reg.toFin_bits (r : Reg) : r.bits.toFin = r := rfl

@[simp] theorem Reg.bits_toFin (x : BitVec 5) : Reg.bits x.toFin = x := rfl

section Formats

variable (rd rs1 rs2 : Reg) (f3 : BitVec 3) (op : BitVec 7)

/-- `funct7 | rs2 | rs1 | funct3 | rd | opcode`. -/
def rType (f7 : BitVec 7) : BitVec 32 :=
  f7 ++ rs2.bits ++ rs1.bits ++ f3 ++ rd.bits ++ op

/-- `imm[11:0] | rs1 | funct3 | rd | opcode`. -/
def iType (imm : BitVec 12) : BitVec 32 :=
  imm ++ rs1.bits ++ f3 ++ rd.bits ++ op

/-- `imm[11:5] | rs2 | rs1 | funct3 | imm[4:0] | opcode`. -/
def sType (imm : BitVec 12) : BitVec 32 :=
  imm.extractLsb' 5 7 ++ rs2.bits ++ rs1.bits ++ f3 ++
    imm.extractLsb' 0 5 ++ op

/-- `imm[12|10:5] | rs2 | rs1 | funct3 | imm[4:1|11] | opcode`; `offset` holds
`imm[12:1]`. -/
def bType (offset : BitVec 12) : BitVec 32 :=
  offset.extractLsb' 11 1 ++ offset.extractLsb' 4 6 ++ rs2.bits ++
    rs1.bits ++ f3 ++ offset.extractLsb' 0 4 ++
    offset.extractLsb' 10 1 ++ op

/-- `imm[31:12] | rd | opcode`. -/
def uType (imm : BitVec 20) : BitVec 32 := imm ++ rd.bits ++ op

/-- `imm[20|10:1|11|19:12] | rd | opcode`; `offset` holds `imm[20:1]`. -/
def jType (offset : BitVec 20) : BitVec 32 :=
  offset.extractLsb' 19 1 ++ offset.extractLsb' 0 10 ++
    offset.extractLsb' 10 1 ++ offset.extractLsb' 11 8 ++ rd.bits ++ op

/-! The fields of an encoded word, and every word as the encoding of its own
fields. -/

@[simp] theorem rType_fields (f7 : BitVec 7) :
    (rType rd rs1 rs2 f3 op f7).extractLsb' 0 7 = op ∧
      (rType rd rs1 rs2 f3 op f7).extractLsb' 7 5 = rd.bits ∧
      (rType rd rs1 rs2 f3 op f7).extractLsb' 12 3 = f3 ∧
      (rType rd rs1 rs2 f3 op f7).extractLsb' 15 5 = rs1.bits ∧
      (rType rd rs1 rs2 f3 op f7).extractLsb' 20 5 = rs2.bits ∧
      (rType rd rs1 rs2 f3 op f7).extractLsb' 25 7 = f7 := by
  refine ⟨?_, ?_, ?_, ?_, ?_, ?_⟩ <;>
    apply BitVec.eq_of_getLsbD_eq <;> intro k hk <;>
    simp only [rType, BitVec.getLsbD_append, BitVec.getLsbD_extractLsb'] <;>
    grind

@[simp] theorem iType_fields (imm : BitVec 12) :
    (iType rd rs1 f3 op imm).extractLsb' 0 7 = op ∧
      (iType rd rs1 f3 op imm).extractLsb' 7 5 = rd.bits ∧
      (iType rd rs1 f3 op imm).extractLsb' 12 3 = f3 ∧
      (iType rd rs1 f3 op imm).extractLsb' 15 5 = rs1.bits ∧
      (iType rd rs1 f3 op imm).extractLsb' 20 12 = imm ∧
      (iType rd rs1 f3 op imm).extractLsb' 20 5 = imm.extractLsb' 0 5 ∧
      (iType rd rs1 f3 op imm).extractLsb' 25 7 = imm.extractLsb' 5 7 := by
  refine ⟨?_, ?_, ?_, ?_, ?_, ?_, ?_⟩ <;>
    apply BitVec.eq_of_getLsbD_eq <;> intro k hk <;>
    simp only [iType, BitVec.getLsbD_append, BitVec.getLsbD_extractLsb'] <;>
    grind

@[simp] theorem sType_fields (imm : BitVec 12) :
    (sType rs1 rs2 f3 op imm).extractLsb' 0 7 = op ∧
      (sType rs1 rs2 f3 op imm).extractLsb' 12 3 = f3 ∧
      (sType rs1 rs2 f3 op imm).extractLsb' 15 5 = rs1.bits ∧
      (sType rs1 rs2 f3 op imm).extractLsb' 20 5 = rs2.bits ∧
      (sType rs1 rs2 f3 op imm).extractLsb' 25 7 ++
        (sType rs1 rs2 f3 op imm).extractLsb' 7 5 = imm := by
  refine ⟨?_, ?_, ?_, ?_, ?_⟩ <;>
    apply BitVec.eq_of_getLsbD_eq <;> intro k hk <;>
    simp only [sType, BitVec.getLsbD_append, BitVec.getLsbD_extractLsb'] <;>
    grind

@[simp] theorem bType_fields (offset : BitVec 12) :
    (bType rs1 rs2 f3 op offset).extractLsb' 0 7 = op ∧
      (bType rs1 rs2 f3 op offset).extractLsb' 12 3 = f3 ∧
      (bType rs1 rs2 f3 op offset).extractLsb' 15 5 = rs1.bits ∧
      (bType rs1 rs2 f3 op offset).extractLsb' 20 5 = rs2.bits ∧
      (bType rs1 rs2 f3 op offset).extractLsb' 31 1 ++
        (bType rs1 rs2 f3 op offset).extractLsb' 7 1 ++
        (bType rs1 rs2 f3 op offset).extractLsb' 25 6 ++
        (bType rs1 rs2 f3 op offset).extractLsb' 8 4 = offset := by
  refine ⟨?_, ?_, ?_, ?_, ?_⟩ <;>
    apply BitVec.eq_of_getLsbD_eq <;> intro k hk <;>
    simp only [bType, BitVec.getLsbD_append, BitVec.getLsbD_extractLsb'] <;>
    grind

@[simp] theorem uType_fields (imm : BitVec 20) :
    (uType rd op imm).extractLsb' 0 7 = op ∧
      (uType rd op imm).extractLsb' 7 5 = rd.bits ∧
      (uType rd op imm).extractLsb' 12 20 = imm := by
  refine ⟨?_, ?_, ?_⟩ <;>
    apply BitVec.eq_of_getLsbD_eq <;> intro k hk <;>
    simp only [uType, BitVec.getLsbD_append, BitVec.getLsbD_extractLsb'] <;>
    grind

@[simp] theorem jType_fields (offset : BitVec 20) :
    (jType rd op offset).extractLsb' 0 7 = op ∧
      (jType rd op offset).extractLsb' 7 5 = rd.bits ∧
      (jType rd op offset).extractLsb' 31 1 ++
        (jType rd op offset).extractLsb' 12 8 ++
        (jType rd op offset).extractLsb' 20 1 ++
        (jType rd op offset).extractLsb' 21 10 = offset := by
  refine ⟨?_, ?_, ?_⟩ <;>
    apply BitVec.eq_of_getLsbD_eq <;> intro k hk <;>
    simp only [jType, BitVec.getLsbD_append, BitVec.getLsbD_extractLsb'] <;>
    grind

end Formats

section Reassembly

variable (w : BitVec 32)

theorem rType_of_fields :
    rType (w.extractLsb' 7 5).toFin (w.extractLsb' 15 5).toFin
      (w.extractLsb' 20 5).toFin (w.extractLsb' 12 3) (w.extractLsb' 0 7)
      (w.extractLsb' 25 7) = w := by
  apply BitVec.eq_of_getLsbD_eq
  intro k hk
  simp only [rType, Reg.bits_toFin, BitVec.getLsbD_append,
    BitVec.getLsbD_extractLsb']
  grind

theorem iType_of_fields :
    iType (w.extractLsb' 7 5).toFin (w.extractLsb' 15 5).toFin
      (w.extractLsb' 12 3) (w.extractLsb' 0 7) (w.extractLsb' 20 12) = w := by
  apply BitVec.eq_of_getLsbD_eq
  intro k hk
  simp only [iType, Reg.bits_toFin, BitVec.getLsbD_append,
    BitVec.getLsbD_extractLsb']
  grind

theorem sType_of_fields :
    sType (w.extractLsb' 15 5).toFin (w.extractLsb' 20 5).toFin
      (w.extractLsb' 12 3) (w.extractLsb' 0 7)
      (w.extractLsb' 25 7 ++ w.extractLsb' 7 5) = w := by
  apply BitVec.eq_of_getLsbD_eq
  intro k hk
  simp only [sType, Reg.bits_toFin, BitVec.getLsbD_append,
    BitVec.getLsbD_extractLsb']
  grind

theorem bType_of_fields :
    bType (w.extractLsb' 15 5).toFin (w.extractLsb' 20 5).toFin
      (w.extractLsb' 12 3) (w.extractLsb' 0 7)
      (w.extractLsb' 31 1 ++ w.extractLsb' 7 1 ++ w.extractLsb' 25 6 ++
        w.extractLsb' 8 4) = w := by
  apply BitVec.eq_of_getLsbD_eq
  intro k hk
  simp only [bType, Reg.bits_toFin, BitVec.getLsbD_append,
    BitVec.getLsbD_extractLsb']
  grind

theorem uType_of_fields :
    uType (w.extractLsb' 7 5).toFin (w.extractLsb' 0 7)
      (w.extractLsb' 12 20) = w := by
  apply BitVec.eq_of_getLsbD_eq
  intro k hk
  simp only [uType, Reg.bits_toFin, BitVec.getLsbD_append,
    BitVec.getLsbD_extractLsb']
  grind

theorem jType_of_fields :
    jType (w.extractLsb' 7 5).toFin (w.extractLsb' 0 7)
      (w.extractLsb' 31 1 ++ w.extractLsb' 12 8 ++ w.extractLsb' 20 1 ++
        w.extractLsb' 21 10) = w := by
  apply BitVec.eq_of_getLsbD_eq
  intro k hk
  simp only [jType, Reg.bits_toFin, BitVec.getLsbD_append,
    BitVec.getLsbD_extractLsb']
  grind

end Reassembly

/-- The register-register operations. -/
inductive RegOp where
  | add | sub | sll | slt | sltu | xor | srl | sra | or | and
deriving DecidableEq

/-- The operations on a sign-extended immediate. -/
inductive ImmOp where
  | addi | slti | sltiu | xori | ori | andi
deriving DecidableEq

/-- The shifts by an immediate amount. -/
inductive ShiftOp where
  | slli | srli | srai
deriving DecidableEq

/-- The branch conditions. -/
inductive Cond where
  | eq | ne | lt | ge | ltu | geu
deriving DecidableEq

inductive LoadKind where
  | lb | lh | lw | lbu | lhu
deriving DecidableEq

inductive StoreKind where
  | sb | sh | sw
deriving DecidableEq

/-- Write, set bits or clear bits. -/
inductive CsrKind where
  | rw | rs | rc
deriving DecidableEq

/-- Instructions that compute from their pc and their source registers only. -/
inductive IntInstr where
  | op (k : RegOp) (rd rs1 rs2 : Reg)
  | opImm (k : ImmOp) (rd rs1 : Reg) (imm : BitVec 12)
  | shift (k : ShiftOp) (rd rs1 : Reg) (shamt : BitVec 5)
  | lui (rd : Reg) (imm : BitVec 20)
  | auipc (rd : Reg) (imm : BitVec 20)
  | jal (rd : Reg) (offset : BitVec 20)
  | jalr (rd rs1 : Reg) (imm : BitVec 12)
  | branch (c : Cond) (rs1 rs2 : Reg) (offset : BitVec 12)
deriving DecidableEq

/-- Every accepted instruction.  `FENCE` leaves its unused fields free. -/
inductive Instr where
  | int (i : IntInstr)
  | load (k : LoadKind) (rd rs1 : Reg) (imm : BitVec 12)
  | store (k : StoreKind) (rs1 rs2 : Reg) (imm : BitVec 12)
  | fence (rd rs1 : Reg) (imm : BitVec 12)
  | fenceI
  | csr (k : CsrKind) (rd rs1 : Reg) (addr : BitVec 12)
  | csrImm (k : CsrKind) (rd zimm : Reg) (addr : BitVec 12)
  | ecall
  | ebreak
  | mret
deriving DecidableEq

section Encoding

/-- `funct3` and `funct7`. -/
def RegOp.funct : RegOp → BitVec 3 × BitVec 7
  | .add => (0b000, 0b0000000)
  | .sub => (0b000, 0b0100000)
  | .sll => (0b001, 0b0000000)
  | .slt => (0b010, 0b0000000)
  | .sltu => (0b011, 0b0000000)
  | .xor => (0b100, 0b0000000)
  | .srl => (0b101, 0b0000000)
  | .sra => (0b101, 0b0100000)
  | .or => (0b110, 0b0000000)
  | .and => (0b111, 0b0000000)

def ImmOp.funct3 : ImmOp → BitVec 3
  | .addi => 0b000
  | .slti => 0b010
  | .sltiu => 0b011
  | .xori => 0b100
  | .ori => 0b110
  | .andi => 0b111

/-- `funct3` and `funct7`. -/
def ShiftOp.funct : ShiftOp → BitVec 3 × BitVec 7
  | .slli => (0b001, 0b0000000)
  | .srli => (0b101, 0b0000000)
  | .srai => (0b101, 0b0100000)

def Cond.funct3 : Cond → BitVec 3
  | .eq => 0b000
  | .ne => 0b001
  | .lt => 0b100
  | .ge => 0b101
  | .ltu => 0b110
  | .geu => 0b111

def LoadKind.funct3 : LoadKind → BitVec 3
  | .lb => 0b000
  | .lh => 0b001
  | .lw => 0b010
  | .lbu => 0b100
  | .lhu => 0b101

def StoreKind.funct3 : StoreKind → BitVec 3
  | .sb => 0b000
  | .sh => 0b001
  | .sw => 0b010

/-- `funct3` of the register form; the immediate form sets the top bit. -/
def CsrKind.funct3 : CsrKind → BitVec 3
  | .rw => 0b001
  | .rs => 0b010
  | .rc => 0b011

/-! Which field values some operation has. -/

theorem funct3_cases :
    ∀ f3 : BitVec 3, f3 = 0b000 ∨ f3 = 0b001 ∨ f3 = 0b010 ∨ f3 = 0b011 ∨
      f3 = 0b100 ∨ f3 = 0b101 ∨ f3 = 0b110 ∨ f3 = 0b111 := by
  decide

theorem RegOp.exists_funct {f3 : BitVec 3} {f7 : BitVec 7}
    (h : f7 = 0b0000000 ∨ f7 = 0b0100000 ∧ (f3 = 0b000 ∨ f3 = 0b101)) :
    ∃ k : RegOp, k.funct = (f3, f7) := by
  rcases h with rfl | ⟨rfl, rfl | rfl⟩
  · rcases funct3_cases f3 with
      rfl | rfl | rfl | rfl | rfl | rfl | rfl | rfl
    · exact ⟨.add, rfl⟩
    · exact ⟨.sll, rfl⟩
    · exact ⟨.slt, rfl⟩
    · exact ⟨.sltu, rfl⟩
    · exact ⟨.xor, rfl⟩
    · exact ⟨.srl, rfl⟩
    · exact ⟨.or, rfl⟩
    · exact ⟨.and, rfl⟩
  · exact ⟨.sub, rfl⟩
  · exact ⟨.sra, rfl⟩

theorem ImmOp.exists_funct3 {f3 : BitVec 3} (h1 : f3 ≠ 0b001)
    (h5 : f3 ≠ 0b101) : ∃ k : ImmOp, k.funct3 = f3 := by
  rcases funct3_cases f3 with rfl | rfl | rfl | rfl | rfl | rfl | rfl | rfl
  · exact ⟨.addi, rfl⟩
  · exact absurd rfl h1
  · exact ⟨.slti, rfl⟩
  · exact ⟨.sltiu, rfl⟩
  · exact ⟨.xori, rfl⟩
  · exact absurd rfl h5
  · exact ⟨.ori, rfl⟩
  · exact ⟨.andi, rfl⟩

theorem Cond.exists_funct3 {f3 : BitVec 3} (h2 : f3 ≠ 0b010)
    (h3 : f3 ≠ 0b011) : ∃ c : Cond, c.funct3 = f3 := by
  rcases funct3_cases f3 with rfl | rfl | rfl | rfl | rfl | rfl | rfl | rfl
  · exact ⟨.eq, rfl⟩
  · exact ⟨.ne, rfl⟩
  · exact absurd rfl h2
  · exact absurd rfl h3
  · exact ⟨.lt, rfl⟩
  · exact ⟨.ge, rfl⟩
  · exact ⟨.ltu, rfl⟩
  · exact ⟨.geu, rfl⟩

theorem LoadKind.exists_funct3 {f3 : BitVec 3} (h3 : f3 ≠ 0b011)
    (h6 : f3 ≠ 0b110) (h7 : f3 ≠ 0b111) : ∃ k : LoadKind, k.funct3 = f3 := by
  rcases funct3_cases f3 with rfl | rfl | rfl | rfl | rfl | rfl | rfl | rfl
  · exact ⟨.lb, rfl⟩
  · exact ⟨.lh, rfl⟩
  · exact ⟨.lw, rfl⟩
  · exact absurd rfl h3
  · exact ⟨.lbu, rfl⟩
  · exact ⟨.lhu, rfl⟩
  · exact absurd rfl h6
  · exact absurd rfl h7

theorem CsrKind.exists_funct3 {f3 : BitVec 3} (h0 : f3 ≠ 0b000)
    (h4 : f3 ≠ 0b100) :
    ∃ k : CsrKind, k.funct3 = f3 ∨ k.funct3 ||| 0b100 = f3 := by
  rcases funct3_cases f3 with rfl | rfl | rfl | rfl | rfl | rfl | rfl | rfl
  · exact absurd rfl h0
  · exact ⟨.rw, Or.inl rfl⟩
  · exact ⟨.rs, Or.inl rfl⟩
  · exact ⟨.rc, Or.inl rfl⟩
  · exact absurd rfl h4
  · exact ⟨.rw, Or.inr rfl⟩
  · exact ⟨.rs, Or.inr rfl⟩
  · exact ⟨.rc, Or.inr rfl⟩

def IntInstr.encode : IntInstr → BitVec 32
  | .op k rd rs1 rs2 => rType rd rs1 rs2 k.funct.1 0b0110011 k.funct.2
  | .opImm k rd rs1 imm => iType rd rs1 k.funct3 0b0010011 imm
  | .shift k rd rs1 shamt =>
      iType rd rs1 k.funct.1 0b0010011 (k.funct.2 ++ shamt)
  | .lui rd imm => uType rd 0b0110111 imm
  | .auipc rd imm => uType rd 0b0010111 imm
  | .jal rd offset => jType rd 0b1101111 offset
  | .jalr rd rs1 imm => iType rd rs1 0b000 0b1100111 imm
  | .branch c rs1 rs2 offset => bType rs1 rs2 c.funct3 0b1100011 offset

def Instr.encode : Instr → BitVec 32
  | .int i => i.encode
  | .load k rd rs1 imm => iType rd rs1 k.funct3 0b0000011 imm
  | .store k rs1 rs2 imm => sType rs1 rs2 k.funct3 0b0100011 imm
  | .fence rd rs1 imm => iType rd rs1 0b000 0b0001111 imm
  | .fenceI => iType 0 0 0b001 0b0001111 0
  | .csr k rd rs1 addr => iType rd rs1 k.funct3 0b1110011 addr
  | .csrImm k rd zimm addr => iType rd zimm (k.funct3 ||| 0b100) 0b1110011 addr
  | .ecall => iType 0 0 0b000 0b1110011 0x000
  | .ebreak => iType 0 0 0b000 0b1110011 0x001
  | .mret => iType 0 0 0b000 0b1110011 0x302

end Encoding

section Fields

/-- The operand an immediate field stands for: sign-extended, except shift
amounts; branch and jump offsets count half-words, upper immediates pages. -/
@[simp] def IntInstr.immediate : IntInstr → Option (BitVec 32)
  | .op .. => none
  | .opImm _ _ _ imm => some (imm.signExtend 32)
  | .shift _ _ _ shamt => some (shamt.setWidth 32)
  | .lui _ imm | .auipc _ imm => some (imm ++ 0#12)
  | .jal _ offset => some ((offset ++ 0#1 : BitVec 21).signExtend 32)
  | .jalr _ _ imm => some (imm.signExtend 32)
  | .branch _ _ _ offset => some ((offset ++ 0#1 : BitVec 13).signExtend 32)

@[simp] def Instr.immediate : Instr → Option (BitVec 32)
  | .int i => i.immediate
  | .load _ _ _ imm | .store _ _ _ imm => some (imm.signExtend 32)
  | _ => none

/-- The destination field, when the format has one. -/
@[simp] def IntInstr.rd : IntInstr → Option Reg
  | .op _ rd _ _ | .opImm _ rd _ _ | .shift _ rd _ _ | .lui rd _
  | .auipc rd _ | .jal rd _ | .jalr rd _ _ => some rd
  | .branch .. => none

/-- The register the instruction writes; writes of `x0` are no writes. -/
@[simp] def Instr.dest : Instr → Option Reg
  | .int i => i.rd.filter (· ≠ 0)
  | .load _ rd _ _ | .csr _ rd _ _ | .csrImm _ rd _ _ =>
      (some rd).filter (· ≠ 0)
  | _ => none

/-- A CSR set or clear with a zero source field leaves the CSR alone. -/
def CsrKind.writes (k : CsrKind) (source : Reg) : Bool :=
  k = .rw ∨ source ≠ 0

@[simp] def Instr.source1 : Instr → Option Reg
  | .int (.op _ _ rs1 _) | .int (.opImm _ _ rs1 _) | .int (.shift _ _ rs1 _)
  | .int (.jalr _ rs1 _) | .int (.branch _ rs1 _ _) => some rs1
  | .load _ _ rs1 _ | .store _ rs1 _ _ => some rs1
  | .csr k _ rs1 _ => if k.writes rs1 then some rs1 else none
  | _ => none

@[simp] def Instr.source2 : Instr → Option Reg
  | .int (.op _ _ _ rs2) | .int (.branch _ _ rs2 _) => some rs2
  | .store _ _ rs2 _ => some rs2
  | _ => none

end Fields

section Semantics

variable (pc a b : BitVec 32)

def RegOp.eval : RegOp → BitVec 32
  | .add => a + b
  | .sub => a - b
  | .sll => a <<< (b.toNat % 32)
  | .slt => if a.toInt < b.toInt then 1 else 0
  | .sltu => if a.toNat < b.toNat then 1 else 0
  | .xor => a ^^^ b
  | .srl => a >>> (b.toNat % 32)
  | .sra => a.sshiftRight (b.toNat % 32)
  | .or => a ||| b
  | .and => a &&& b

/-- The register operation an immediate form shares. -/
def ImmOp.regOp : ImmOp → RegOp
  | .addi => .add
  | .slti => .slt
  | .sltiu => .sltu
  | .xori => .xor
  | .ori => .or
  | .andi => .and

def ShiftOp.regOp : ShiftOp → RegOp
  | .slli => .sll
  | .srli => .srl
  | .srai => .sra

def Cond.Holds : Cond → Prop
  | .eq => a = b
  | .ne => a ≠ b
  | .lt => a.toInt < b.toInt
  | .ge => b.toInt ≤ a.toInt
  | .ltu => a.toNat < b.toNat
  | .geu => b.toNat ≤ a.toNat

instance (c : Cond) : Decidable (c.Holds a b) :=
  match c with
  | .eq => inferInstanceAs (Decidable (a = b))
  | .ne => inferInstanceAs (Decidable (a ≠ b))
  | .lt => inferInstanceAs (Decidable (a.toInt < b.toInt))
  | .ge => inferInstanceAs (Decidable (b.toInt ≤ a.toInt))
  | .ltu => inferInstanceAs (Decidable (a.toNat < b.toNat))
  | .geu => inferInstanceAs (Decidable (b.toNat ≤ a.toNat))

/-- The result for `rd`. -/
def IntInstr.value : IntInstr → Option (Reg × BitVec 32)
  | .op k rd _ _ => some (rd, k.eval a b)
  | .opImm k rd _ imm => some (rd, k.regOp.eval a (imm.signExtend 32))
  | .shift k rd _ shamt => some (rd, k.regOp.eval a (shamt.setWidth 32))
  | .lui rd imm => some (rd, imm ++ 0#12)
  | .auipc rd imm => some (rd, pc + (imm ++ 0#12))
  | .jal rd _ => some (rd, pc + 4)
  | .jalr rd _ _ => some (rd, pc + 4)
  | .branch .. => none

/-- Where a taken control transfer goes; `JALR` clears bit 0. -/
def IntInstr.transfer : IntInstr → Option (BitVec 32)
  | .jal _ offset => some (pc + (offset ++ 0#1 : BitVec 21).signExtend 32)
  | .jalr _ _ imm => some ((a + imm.signExtend 32) &&& ~~~1#32)
  | .branch c _ _ offset =>
      if c.Holds a b then
        some (pc + (offset ++ 0#1 : BitVec 13).signExtend 32)
      else none
  | _ => none

/-- What an instruction leaves behind when it does not trap. -/
structure Outcome where
  write : Option (Reg × BitVec 32)
  nextPc : BitVec 32
deriving DecidableEq

/-- One instruction; the error is an instruction-address-misaligned exception
and carries the target. -/
def IntInstr.exec (i : IntInstr) : Except (BitVec 32) Outcome :=
  match i.transfer pc a b with
  | some target =>
      if target.toNat % 4 ≠ 0 then .error target
      else .ok ⟨(i.value pc a b).filter (·.1 ≠ 0), target⟩
  | none => .ok ⟨(i.value pc a b).filter (·.1 ≠ 0), pc + 4⟩

end Semantics

end Rv32
