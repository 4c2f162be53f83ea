/-
A sequential RV32I machine: decoding, one instruction at a time, and the events
of a run.  It halts at a trap, and at what a single hart with plain data memory
leaves open: CSR accesses, MRET and data accesses outside a given region.
-/
import Mathlib.Logic.Function.Basic
import OoOCore.Lib.Rv32

namespace Rv32

section Tables

variable {A B : Type} [DecidableEq B]

/-- The entry of a table with the given code. -/
def pick (table : List A) (code : A → B) (b : B) : Option A :=
  table.find? fun a => decide (code a = b)

/-- In a table of all entries with their own codes a lookup inverts the
code. -/
theorem pick_eq_some {table : List A} {code : A → B}
    (hown : ∀ a, pick table code (code a) = some a) {a : A} {b : B} :
    pick table code b = some a ↔ code a = b := by
  constructor
  · intro h
    have hcode := List.find?_some h
    exact of_decide_eq_true hcode
  · rintro rfl
    exact hown a

end Tables

section Decoding

def RegOp.table : List RegOp :=
  [.add, .sub, .sll, .slt, .sltu, .xor, .srl, .sra, .or, .and]

def ImmOp.table : List ImmOp := [.addi, .slti, .sltiu, .xori, .ori, .andi]

def ShiftOp.table : List ShiftOp := [.slli, .srli, .srai]

def Cond.table : List Cond := [.eq, .ne, .lt, .ge, .ltu, .geu]

def LoadKind.table : List LoadKind := [.lb, .lh, .lw, .lbu, .lhu]

def StoreKind.table : List StoreKind := [.sb, .sh, .sw]

def CsrKind.table : List CsrKind := [.rw, .rs, .rc]

theorem RegOp.pick_funct (k : RegOp) : pick table funct k.funct = some k := by
  cases k <;> rfl

theorem ImmOp.pick_funct3 (k : ImmOp) :
    pick table funct3 k.funct3 = some k := by
  cases k <;> rfl

theorem ShiftOp.pick_funct (k : ShiftOp) :
    pick table funct k.funct = some k := by
  cases k <;> rfl

theorem Cond.pick_funct3 (c : Cond) : pick table funct3 c.funct3 = some c := by
  cases c <;> rfl

theorem LoadKind.pick_funct3 (k : LoadKind) :
    pick table funct3 k.funct3 = some k := by
  cases k <;> rfl

theorem StoreKind.pick_funct3 (k : StoreKind) :
    pick table funct3 k.funct3 = some k := by
  cases k <;> rfl

theorem CsrKind.pick_funct3 (k : CsrKind) :
    pick table funct3 k.funct3 = some k := by
  cases k <;> rfl

section Fields

variable (w : BitVec 32)

def fieldRd : Reg := (w.extractLsb' 7 5).toFin

def fieldRs1 : Reg := (w.extractLsb' 15 5).toFin

def fieldRs2 : Reg := (w.extractLsb' 20 5).toFin

def fieldFunct3 : BitVec 3 := w.extractLsb' 12 3

def fieldFunct7 : BitVec 7 := w.extractLsb' 25 7

def fieldImm : BitVec 12 := w.extractLsb' 20 12

/-! The instruction of a word with a given opcode. -/

def decodeRegister : Option Instr :=
  (pick RegOp.table RegOp.funct (fieldFunct3 w, fieldFunct7 w)).map fun k =>
    .int (.op k (fieldRd w) (fieldRs1 w) (fieldRs2 w))

def decodeShift : Option Instr :=
  (pick ShiftOp.table ShiftOp.funct (fieldFunct3 w, fieldFunct7 w)).map
    fun k => .int (.shift k (fieldRd w) (fieldRs1 w) (w.extractLsb' 20 5))

def decodeImmediate : Option Instr :=
  (pick ImmOp.table ImmOp.funct3 (fieldFunct3 w)).map fun k =>
    .int (.opImm k (fieldRd w) (fieldRs1 w) (fieldImm w))

def decodeJump : Option Instr :=
  some (.int (.jal (fieldRd w) (w.extractLsb' 31 1 ++ w.extractLsb' 12 8 ++
    w.extractLsb' 20 1 ++ w.extractLsb' 21 10)))

def decodeJumpRegister : Option Instr :=
  if fieldFunct3 w = 0b000 then
    some (.int (.jalr (fieldRd w) (fieldRs1 w) (fieldImm w)))
  else none

def decodeConditional : Option Instr :=
  (pick Cond.table Cond.funct3 (fieldFunct3 w)).map fun c =>
    .int (.branch c (fieldRs1 w) (fieldRs2 w)
      (w.extractLsb' 31 1 ++ w.extractLsb' 7 1 ++ w.extractLsb' 25 6 ++
        w.extractLsb' 8 4))

def decodeMemoryRead : Option Instr :=
  (pick LoadKind.table LoadKind.funct3 (fieldFunct3 w)).map fun k =>
    .load k (fieldRd w) (fieldRs1 w) (fieldImm w)

def decodeMemoryWrite : Option Instr :=
  (pick StoreKind.table StoreKind.funct3 (fieldFunct3 w)).map fun k =>
    .store k (fieldRs1 w) (fieldRs2 w)
      (w.extractLsb' 25 7 ++ w.extractLsb' 7 5)

def decodeOrdering : Option Instr :=
  if fieldFunct3 w = 0b000 then
    some (.fence (fieldRd w) (fieldRs1 w) (fieldImm w))
  else if w = Instr.fenceI.encode then some .fenceI
  else none

def decodeEnvironment : Option Instr :=
  [Instr.ecall, .ebreak, .mret].find? fun i => decide (i.encode = w)

def decodeCsrAccess : Option Instr :=
  ((pick CsrKind.table CsrKind.funct3 (fieldFunct3 w)).map fun k =>
    .csr k (fieldRd w) (fieldRs1 w) (fieldImm w)).or
  ((pick CsrKind.table (fun k => k.funct3 ||| 0b100) (fieldFunct3 w)).map
    fun k => .csrImm k (fieldRd w) (fieldRs1 w) (fieldImm w))

/-- The instruction a word encodes. -/
def decode : Option Instr :=
  if w.extractLsb' 0 7 = 0b0110011 then decodeRegister w
  else if w.extractLsb' 0 7 = 0b0010011 then
    (decodeShift w).or (decodeImmediate w)
  else if w.extractLsb' 0 7 = 0b0110111 then
    some (.int (.lui (fieldRd w) (w.extractLsb' 12 20)))
  else if w.extractLsb' 0 7 = 0b0010111 then
    some (.int (.auipc (fieldRd w) (w.extractLsb' 12 20)))
  else if w.extractLsb' 0 7 = 0b1101111 then decodeJump w
  else if w.extractLsb' 0 7 = 0b1100111 then decodeJumpRegister w
  else if w.extractLsb' 0 7 = 0b1100011 then decodeConditional w
  else if w.extractLsb' 0 7 = 0b0000011 then decodeMemoryRead w
  else if w.extractLsb' 0 7 = 0b0100011 then decodeMemoryWrite w
  else if w.extractLsb' 0 7 = 0b0001111 then decodeOrdering w
  else if w.extractLsb' 0 7 = 0b1110011 then
    if fieldFunct3 w = 0b000 then decodeEnvironment w else decodeCsrAccess w
  else none

end Fields

theorem CsrKind.pick_immediate (k : CsrKind) :
    pick table (fun k => k.funct3 ||| 0b100) (k.funct3 ||| 0b100) =
      some k := by
  cases k <;> rfl

theorem decode_int (i : IntInstr) : decode i.encode = some (.int i) := by
  cases i with
  | op k rd rs1 rs2 =>
      simp [decode, IntInstr.encode, decodeRegister, fieldFunct3, fieldFunct7,
        fieldRd, fieldRs1, fieldRs2]
      exact k.pick_funct
  | opImm k rd rs1 imm =>
      have hshift : ∀ f7 : BitVec 7,
          pick ShiftOp.table ShiftOp.funct (k.funct3, f7) = none := by
        cases k <;> decide
      simp [decode, IntInstr.encode, decodeShift, decodeImmediate, fieldFunct3,
        fieldFunct7, fieldRd, fieldRs1, fieldImm, hshift, ImmOp.pick_funct3]
  | shift k rd rs1 shamt =>
      have hlow (f7 : BitVec 7) : (f7 ++ shamt).extractLsb' 0 5 = shamt :=
        BitVec.extractLsb'_append_eq_right
      have hhigh (f7 : BitVec 7) : (f7 ++ shamt).extractLsb' 5 7 = f7 :=
        BitVec.extractLsb'_append_eq_left
      have hpick : pick ShiftOp.table ShiftOp.funct
          (k.funct.1, k.funct.2) = some k := k.pick_funct
      simp [decode, IntInstr.encode, decodeShift, fieldFunct3, fieldFunct7,
        fieldRd, fieldRs1, hlow, hhigh, hpick]
  | lui rd imm => simp [decode, IntInstr.encode, fieldRd]
  | auipc rd imm => simp [decode, IntInstr.encode, fieldRd]
  | jal rd offset => simp [decode, IntInstr.encode, decodeJump, fieldRd]
  | jalr rd rs1 imm =>
      simp [decode, IntInstr.encode, decodeJumpRegister, fieldFunct3, fieldRd,
        fieldRs1, fieldImm]
  | branch c rs1 rs2 offset =>
      simp [decode, IntInstr.encode, decodeConditional, fieldFunct3, fieldRs1,
        fieldRs2, Cond.pick_funct3]

theorem decode_encode (i : Instr) : decode i.encode = some i := by
  cases i with
  | int i => exact decode_int i
  | load k rd rs1 imm =>
      simp [decode, Instr.encode, decodeMemoryRead, fieldFunct3, fieldRd,
        fieldRs1, fieldImm, LoadKind.pick_funct3]
  | store k rs1 rs2 imm =>
      simp [decode, Instr.encode, decodeMemoryWrite, fieldFunct3, fieldRs1,
        fieldRs2, StoreKind.pick_funct3]
  | fence rd rs1 imm =>
      simp [decode, Instr.encode, decodeOrdering, fieldFunct3, fieldRd,
        fieldRs1, fieldImm]
  | fenceI => decide
  | csr k rd rs1 addr =>
      have h0 : k.funct3 ≠ 0#3 := by cases k <;> decide
      simp [decode, Instr.encode, decodeCsrAccess, fieldFunct3, fieldRd,
        fieldRs1, fieldImm, CsrKind.pick_funct3, h0]
  | csrImm k rd zimm addr =>
      have hreg : pick CsrKind.table CsrKind.funct3 (k.funct3 ||| 4#3) =
          none := by cases k <;> decide
      have himm := k.pick_immediate
      simp [decode, Instr.encode, decodeCsrAccess, fieldFunct3, fieldRd,
        fieldRs1, fieldImm, hreg]
      exact himm
  | ecall => decide
  | ebreak => decide
  | mret => decide

section Inverse

variable {w : BitVec 32} {i : Instr}

theorem encode_of_decodeRegister (hop : w.extractLsb' 0 7 = 0b0110011)
    (h : decodeRegister w = some i) : i.encode = w := by
  obtain ⟨k, hk, rfl⟩ := Option.map_eq_some_iff.mp h
  have hfunct := (pick_eq_some RegOp.pick_funct).mp hk
  simp only [Instr.encode, IntInstr.encode, hfunct, ← hop]
  exact rType_of_fields w

theorem encode_of_decodeShift (hop : w.extractLsb' 0 7 = 0b0010011)
    (h : decodeShift w = some i) : i.encode = w := by
  obtain ⟨k, hk, rfl⟩ := Option.map_eq_some_iff.mp h
  have hfunct := (pick_eq_some ShiftOp.pick_funct).mp hk
  have hcat : w.extractLsb' 25 7 ++ w.extractLsb' 20 5 =
      w.extractLsb' 20 12 :=
    BitVec.extractLsb'_append_extractLsb'_eq_extractLsb' (by decide)
  simp only [Instr.encode, IntInstr.encode, hfunct, ← hop, fieldFunct7, hcat]
  exact iType_of_fields w

theorem encode_of_decodeImmediate (hop : w.extractLsb' 0 7 = 0b0010011)
    (h : decodeImmediate w = some i) : i.encode = w := by
  obtain ⟨k, hk, rfl⟩ := Option.map_eq_some_iff.mp h
  have hfunct := (pick_eq_some ImmOp.pick_funct3).mp hk
  simp only [Instr.encode, IntInstr.encode, hfunct, ← hop]
  exact iType_of_fields w

theorem encode_of_decodeJumpRegister (hop : w.extractLsb' 0 7 = 0b1100111)
    (h : decodeJumpRegister w = some i) : i.encode = w := by
  unfold decodeJumpRegister at h
  split at h
  · next h3 =>
    cases h
    simp only [Instr.encode, IntInstr.encode, ← h3, ← hop]
    exact iType_of_fields w
  · cases h

theorem encode_of_decodeConditional (hop : w.extractLsb' 0 7 = 0b1100011)
    (h : decodeConditional w = some i) : i.encode = w := by
  obtain ⟨c, hc, rfl⟩ := Option.map_eq_some_iff.mp h
  have hfunct := (pick_eq_some Cond.pick_funct3).mp hc
  simp only [Instr.encode, IntInstr.encode, hfunct, ← hop]
  exact bType_of_fields w

theorem encode_of_decodeMemoryRead (hop : w.extractLsb' 0 7 = 0b0000011)
    (h : decodeMemoryRead w = some i) : i.encode = w := by
  obtain ⟨k, hk, rfl⟩ := Option.map_eq_some_iff.mp h
  have hfunct := (pick_eq_some LoadKind.pick_funct3).mp hk
  simp only [Instr.encode, hfunct, ← hop]
  exact iType_of_fields w

theorem encode_of_decodeMemoryWrite (hop : w.extractLsb' 0 7 = 0b0100011)
    (h : decodeMemoryWrite w = some i) : i.encode = w := by
  obtain ⟨k, hk, rfl⟩ := Option.map_eq_some_iff.mp h
  have hfunct := (pick_eq_some StoreKind.pick_funct3).mp hk
  simp only [Instr.encode, hfunct, ← hop]
  exact sType_of_fields w

theorem encode_of_decodeOrdering (hop : w.extractLsb' 0 7 = 0b0001111)
    (h : decodeOrdering w = some i) : i.encode = w := by
  unfold decodeOrdering at h
  split at h
  · next h3 =>
    cases h
    simp only [Instr.encode, ← h3, ← hop]
    exact iType_of_fields w
  split at h
  · next hword =>
    cases h
    exact hword.symm
  · cases h

theorem encode_of_decodeEnvironment (h : decodeEnvironment w = some i) :
    i.encode = w := by
  have hword := List.find?_some h
  exact of_decide_eq_true hword

theorem encode_of_decodeCsrAccess (hop : w.extractLsb' 0 7 = 0b1110011)
    (h : decodeCsrAccess w = some i) : i.encode = w := by
  rcases Option.or_eq_some_iff.mp h with h | ⟨-, h⟩
  · obtain ⟨k, hk, rfl⟩ := Option.map_eq_some_iff.mp h
    have hfunct := (pick_eq_some CsrKind.pick_funct3).mp hk
    simp only [Instr.encode, hfunct, ← hop]
    exact iType_of_fields w
  · obtain ⟨k, hk, rfl⟩ := Option.map_eq_some_iff.mp h
    have hfunct := (pick_eq_some CsrKind.pick_immediate).mp hk
    simp only [Instr.encode, hfunct, ← hop]
    exact iType_of_fields w

theorem encode_of_decode (h : decode w = some i) : i.encode = w := by
  rw [decode] at h
  by_cases hregister : w.extractLsb' 0 7 = 0b0110011
  · rw [if_pos hregister] at h
    exact encode_of_decodeRegister hregister h
  rw [if_neg hregister] at h
  by_cases himmediate : w.extractLsb' 0 7 = 0b0010011
  · rw [if_pos himmediate] at h
    rcases Option.or_eq_some_iff.mp h with h | ⟨-, h⟩
    · exact encode_of_decodeShift himmediate h
    · exact encode_of_decodeImmediate himmediate h
  rw [if_neg himmediate] at h
  by_cases hlui : w.extractLsb' 0 7 = 0b0110111
  · rw [if_pos hlui] at h
    cases h
    simp only [Instr.encode, IntInstr.encode, ← hlui]
    exact uType_of_fields w
  rw [if_neg hlui] at h
  by_cases hauipc : w.extractLsb' 0 7 = 0b0010111
  · rw [if_pos hauipc] at h
    cases h
    simp only [Instr.encode, IntInstr.encode, ← hauipc]
    exact uType_of_fields w
  rw [if_neg hauipc] at h
  by_cases hjal : w.extractLsb' 0 7 = 0b1101111
  · rw [if_pos hjal] at h
    cases h
    simp only [Instr.encode, IntInstr.encode, ← hjal]
    exact jType_of_fields w
  rw [if_neg hjal] at h
  by_cases hjalr : w.extractLsb' 0 7 = 0b1100111
  · rw [if_pos hjalr] at h
    exact encode_of_decodeJumpRegister hjalr h
  rw [if_neg hjalr] at h
  by_cases hbranch : w.extractLsb' 0 7 = 0b1100011
  · rw [if_pos hbranch] at h
    exact encode_of_decodeConditional hbranch h
  rw [if_neg hbranch] at h
  by_cases hload : w.extractLsb' 0 7 = 0b0000011
  · rw [if_pos hload] at h
    exact encode_of_decodeMemoryRead hload h
  rw [if_neg hload] at h
  by_cases hstore : w.extractLsb' 0 7 = 0b0100011
  · rw [if_pos hstore] at h
    exact encode_of_decodeMemoryWrite hstore h
  rw [if_neg hstore] at h
  by_cases hfence : w.extractLsb' 0 7 = 0b0001111
  · rw [if_pos hfence] at h
    exact encode_of_decodeOrdering hfence h
  rw [if_neg hfence] at h
  by_cases hsystem : w.extractLsb' 0 7 = 0b1110011
  · rw [if_pos hsystem] at h
    by_cases h0 : fieldFunct3 w = 0b000
    · rw [if_pos h0] at h
      exact encode_of_decodeEnvironment h
    · rw [if_neg h0] at h
      exact encode_of_decodeCsrAccess hsystem h
  rw [if_neg hsystem] at h
  cases h

/-- Decoding inverts encoding, and accepts nothing else. -/
theorem decode_eq_some : decode w = some i ↔ i.encode = w := by
  constructor
  · exact encode_of_decode
  · rintro rfl
    exact decode_encode i

end Inverse

end Decoding

/-- The value of a source register; a missing source reads zero. -/
def operand (regs : Reg → BitVec 32) (source : Option Reg) : BitVec 32 :=
  source.elim 0 regs

/-- An integer instruction depends on its own sources only. -/
theorem IntInstr.exec_congr {i : IntInstr} {pc a b a' b' : BitVec 32}
    (ha : (Instr.int i).source1.isSome → a = a')
    (hb : (Instr.int i).source2.isSome → b = b') :
    i.exec pc a b = i.exec pc a' b' := by
  cases i <;> simp_all [IntInstr.exec, IntInstr.transfer, IntInstr.value]

section Accesses

/-- The number of bytes a load reads. -/
def LoadKind.width : LoadKind → Nat
  | .lb | .lbu => 1
  | .lh | .lhu => 2
  | .lw => 4

/-- The number of bytes a store writes. -/
def StoreKind.width : StoreKind → Nat
  | .sb => 1
  | .sh => 2
  | .sw => 4

/-- The value a load reads, little-endian and extended. -/
def LoadKind.read (k : LoadKind) (m : BitVec 32 → BitVec 8) (a : BitVec 32) :
    BitVec 32 :=
  match k with
  | .lb => (m a).signExtend 32
  | .lh => (m (a + 1) ++ m a).signExtend 32
  | .lbu => (m a).setWidth 32
  | .lhu => (m (a + 1) ++ m a).setWidth 32
  | .lw => m (a + 3) ++ m (a + 2) ++ m (a + 1) ++ m a

/-- The memory after a store. -/
def StoreKind.write (k : StoreKind) (m : BitVec 32 → BitVec 8)
    (a value : BitVec 32) : BitVec 32 → BitVec 8 := fun x =>
  if (x - a).toNat < k.width then
    value.extractLsb' (8 * (x - a).toNat) 8
  else m x

end Accesses

/-- The synchronous exceptions. -/
inductive Fault where
  | misalignedTarget (target : BitVec 32)
  | illegal (word : BitVec 32)
  | breakpoint
  | misalignedLoad (address : BitVec 32)
  | misalignedStore (address : BitVec 32)
  | ecall
deriving DecidableEq

/-- The exception code of `mcause`. -/
def Fault.cause : Fault → BitVec 6
  | .misalignedTarget _ => 0
  | .illegal _ => 2
  | .breakpoint => 3
  | .misalignedLoad _ => 4
  | .misalignedStore _ => 6
  | .ecall => 11

/-- The value of `mtval`. -/
def Fault.value : Fault → BitVec 32
  | .misalignedTarget a | .misalignedLoad a | .misalignedStore a => a
  | .illegal w => w
  | .breakpoint | .ecall => 0

/-- Why the machine halts. -/
inductive Halt where
  | fault (f : Fault)
  | outside
deriving DecidableEq

/-- A store as it is performed. -/
structure StoreEvent where
  kind : StoreKind
  address : BitVec 32
  value : BitVec 32
deriving DecidableEq

/-- What an instruction does to the registers and the memory. -/
structure Event where
  pc : BitVec 32
  write : Option (Reg × BitVec 32)
  store : Option StoreEvent
deriving DecidableEq

structure Machine where
  pc : BitVec 32
  regs : Reg → BitVec 32
  mem : BitVec 32 → BitVec 8

/-- Where instructions come from and which data addresses are plain memory. -/
structure Platform where
  fetch : BitVec 32 → BitVec 32
  plain : BitVec 32 → Bool

namespace Machine

/-- The machine after the effects of an event. -/
def apply (m : Machine) (e : Event) (next : BitVec 32) : Machine where
  pc := next
  regs := match e.write with
    | some (r, v) => Function.update m.regs r v
    | none => m.regs
  mem := match e.store with
    | some s => s.kind.write m.mem s.address s.value
    | none => m.mem

/-- One instruction: its event and the next pc. -/
def exec (plain : BitVec 32 → Bool) (m : Machine) :
    Instr → Except Halt (Event × BitVec 32)
  | .int i =>
      match i.exec m.pc (operand m.regs (Instr.int i).source1)
          (operand m.regs (Instr.int i).source2) with
      | .error target => .error (.fault (.misalignedTarget target))
      | .ok out => .ok (⟨m.pc, out.write, none⟩, out.nextPc)
  | .load k rd rs1 imm =>
      let address := m.regs rs1 + imm.signExtend 32
      if address.toNat % k.width ≠ 0 then
        .error (.fault (.misalignedLoad address))
      else if !plain address then .error .outside
      else .ok (⟨m.pc, (Instr.load k rd rs1 imm).dest.map fun rd =>
        (rd, k.read m.mem address), none⟩, m.pc + 4)
  | .store k rs1 rs2 imm =>
      let address := m.regs rs1 + imm.signExtend 32
      if address.toNat % k.width ≠ 0 then
        .error (.fault (.misalignedStore address))
      else if !plain address then .error .outside
      else .ok (⟨m.pc, none, some ⟨k, address, m.regs rs2⟩⟩, m.pc + 4)
  | .fence .. | .fenceI => .ok (⟨m.pc, none, none⟩, m.pc + 4)
  | .csr .. | .csrImm .. | .mret => .error .outside
  | .ecall => .error (.fault .ecall)
  | .ebreak => .error (.fault .breakpoint)

section Accesses

variable (m : Machine) (plain : BitVec 32 → Bool) (rd rs2 : Reg) {rs1 : Reg}
  {imm : BitVec 12}

/-- An aligned load. -/
theorem exec_load {k : LoadKind}
    (haligned : (m.regs rs1 + imm.signExtend 32).toNat % k.width = 0) :
    m.exec plain (.load k rd rs1 imm) =
      if plain (m.regs rs1 + imm.signExtend 32) then
        .ok (⟨m.pc, (Instr.load k rd rs1 imm).dest.map fun rd =>
          (rd, k.read m.mem (m.regs rs1 + imm.signExtend 32)), none⟩, m.pc + 4)
      else .error .outside := by
  by_cases hplain : plain (m.regs rs1 + imm.signExtend 32) = true <;>
    simp only [exec, haligned, hplain, ne_eq, not_true_eq_false, if_false,
      Bool.not_true, Bool.not_false, Bool.false_eq_true, if_true]

/-- An aligned store. -/
theorem exec_store {k : StoreKind}
    (haligned : (m.regs rs1 + imm.signExtend 32).toNat % k.width = 0) :
    m.exec plain (.store k rs1 rs2 imm) =
      if plain (m.regs rs1 + imm.signExtend 32) then
        .ok (⟨m.pc, none, some ⟨k, m.regs rs1 + imm.signExtend 32,
          m.regs rs2⟩⟩, m.pc + 4)
      else .error .outside := by
  by_cases hplain : plain (m.regs rs1 + imm.signExtend 32) = true <;>
    simp only [exec, haligned, hplain, ne_eq, not_true_eq_false, if_false,
      Bool.not_true, Bool.not_false, Bool.false_eq_true, if_true]

/-- A misaligned load. -/
theorem exec_load_misaligned {k : LoadKind}
    (hmisaligned : (m.regs rs1 + imm.signExtend 32).toNat % k.width ≠ 0) :
    m.exec plain (.load k rd rs1 imm) =
      .error (.fault (.misalignedLoad (m.regs rs1 + imm.signExtend 32))) := by
  rw [exec]
  exact if_pos hmisaligned

/-- A misaligned store. -/
theorem exec_store_misaligned {k : StoreKind}
    (hmisaligned : (m.regs rs1 + imm.signExtend 32).toNat % k.width ≠ 0) :
    m.exec plain (.store k rs1 rs2 imm) =
      .error (.fault (.misalignedStore (m.regs rs1 + imm.signExtend 32))) := by
  rw [exec]
  exact if_pos hmisaligned

end Accesses

variable (p : Platform)

/-- Fetch, decode and execute. -/
def step (m : Machine) : Except Halt (Event × Machine) :=
  match decode (p.fetch m.pc) with
  | none => .error (.fault (.illegal (p.fetch m.pc)))
  | some i =>
      match m.exec p.plain i with
      | .error halt => .error halt
      | .ok (e, next) => .ok (e, m.apply e next)

section Steps

variable {p : Platform} {m : Machine} {i : Instr}

theorem step_illegal (hdecode : decode (p.fetch m.pc) = none) :
    m.step p = .error (.fault (.illegal (p.fetch m.pc))) := by
  rw [step, hdecode]

theorem step_error (hdecode : decode (p.fetch m.pc) = some i) {halt : Halt}
    (hexec : m.exec p.plain i = .error halt) : m.step p = .error halt := by
  rw [step, hdecode]
  simp only [hexec]

theorem step_ok (hdecode : decode (p.fetch m.pc) = some i) {e : Event}
    {next : BitVec 32} (hexec : m.exec p.plain i = .ok (e, next)) :
    m.step p = .ok (e, m.apply e next) := by
  rw [step, hdecode]
  simp only [hexec]

theorem step_eq_ok {e : Event} {m' : Machine} (h : m.step p = .ok (e, m')) :
    ∃ i next, decode (p.fetch m.pc) = some i ∧
      m.exec p.plain i = .ok (e, next) ∧ m' = m.apply e next := by
  rw [step] at h
  cases hdecode : decode (p.fetch m.pc) with
  | none =>
      simp only [hdecode] at h
      cases h
  | some i =>
      cases hexec : m.exec p.plain i with
      | error halt =>
          simp only [hdecode, hexec] at h
          cases h
      | ok r =>
          simp only [hdecode, hexec] at h
          cases h
          exact ⟨i, r.2, rfl, hexec, rfl⟩

end Steps

/-- The events of a run of `n` instructions and the machine after it, if the
machine does not halt before. -/
def run (m : Machine) : Nat → Option (List Event × Machine)
  | 0 => some ([], m)
  | n + 1 =>
      match run m n with
      | none => none
      | some (events, m') =>
          match m'.step p with
          | .error _ => none
          | .ok (e, m'') => some (events ++ [e], m'')

theorem run_succ {m m'' : Machine} {n : Nat} {events : List Event}
    (h : m.run p (n + 1) = some (events, m'')) :
    ∃ before m' e, m.run p n = some (before, m') ∧
      m'.step p = .ok (e, m'') ∧ events = before ++ [e] := by
  rw [run] at h
  cases hn : m.run p n with
  | none =>
      rw [hn] at h
      cases h
  | some r =>
      obtain ⟨before, m'⟩ := r
      cases hs : m'.step p with
      | error halt =>
          rw [hn] at h
          simp only [hs] at h
          cases h
      | ok r =>
          obtain ⟨e, m1⟩ := r
          rw [hn] at h
          simp only [hs] at h
          cases h
          exact ⟨before, m', e, rfl, hs, rfl⟩

theorem run_length {m m' : Machine} {n : Nat} {events : List Event}
    (h : m.run p n = some (events, m')) : events.length = n := by
  induction n generalizing events m' with
  | zero =>
      cases h
      rfl
  | succ n ih =>
      obtain ⟨before, m1, e, hbefore, -, rfl⟩ := run_succ p h
      rw [List.length_append, ih hbefore]
      rfl

/-- A run passes through its shorter runs. -/
theorem run_take {m m' : Machine} {n k : Nat} {events : List Event}
    (h : m.run p n = some (events, m')) (hk : k ≤ n) :
    ∃ m1, m.run p k = some (events.take k, m1) := by
  induction n generalizing events m' with
  | zero =>
      obtain rfl := Nat.le_zero.mp hk
      exact ⟨m, rfl⟩
  | succ n ih =>
      rcases Nat.eq_or_lt_of_le hk with rfl | hlt
      · refine ⟨m', ?_⟩
        rw [List.take_of_length_le (Nat.le_of_eq (run_length p h))]
        exact h
      · have hk' := Nat.le_of_lt_succ hlt
        obtain ⟨before, m1, e, hbefore, -, rfl⟩ := run_succ p h
        obtain ⟨m2, hrun⟩ := ih hbefore hk'
        refine ⟨m2, ?_⟩
        rw [List.take_append_of_le_length ((run_length p hbefore).symm ▸ hk')]
        exact hrun

/-- A run goes on by a step until its end. -/
theorem run_step {m m' : Machine} {n k : Nat} {events : List Event}
    (h : m.run p n = some (events, m')) (hk : k < n) :
    ∃ before m1 e m2, m.run p k = some (before, m1) ∧
      m1.step p = .ok (e, m2) ∧ m.run p (k + 1) = some (before ++ [e], m2) := by
  obtain ⟨m2, hrun⟩ := run_take p h hk
  obtain ⟨before, m1, e, hbefore, hstep, hevents⟩ := run_succ p hrun
  rw [hevents] at hrun
  exact ⟨before, m1, e, m2, hbefore, hstep, hrun⟩

end Machine

end Rv32
