/-
Decode, rename and the integer unit against the ISA: the completion register
of `OoOExecutionUnit` holds what the instruction computes.
-/
import OoOCore.Dispatch
import OoOCore.InstructionSet

namespace OoOCore

open Insn Rv32

theorem alu_regOpCtr (k : RegOp) (a b : Word) :
    alu (regOpCtr k) a b = k.eval a b := by
  have hshamt : (b.setWidth 5).toNat = b.toNat % 32 := by simp
  cases k <;> simp only [alu, regOpCtr, RegOp.eval, hshamt]
  · simp only [BitVec.slt_iff_toInt_lt]
  · simp only [BitVec.lt_def]

/-- The controls the integer unit reads are the decoder's for the word. -/
structure Uop.Carries (u : Uop) (d : Decoded) : Prop where
  fuClass : u.fuClass = if d.branchCtr = .none then .integer else .branch
  registerWriteEnable : u.registerWriteEnable = d.registerWriteEnable
  wbSelect : u.wbSelect = d.wbSelect
  branchCtr : u.branchCtr = d.branchCtr
  aluCtr : u.aluCtr = d.aluCtr
  aluSrcASelect : u.aluSrcASelect = d.aluSrcASelect
  aluSrcBSelect : u.aluSrcBSelect = d.aluSrcBSelect
  immediate : u.immediate = d.immediate
  decodeException : u.decodeException = d.decodeException

namespace OoOExecutionUnit

variable {p : IssuePort} {i : IntInstr}

theorem branchTaken_cond {c : Cond} (h : p.uop.branchCtr = condCtr c) :
    branchTaken p = true ↔ c.Holds p.sourceA p.sourceB := by
  unfold branchTaken
  rw [h]
  cases c with
  | eq => exact decide_eq_true_iff
  | ne => exact decide_eq_true_iff
  | lt => exact BitVec.slt_iff_toInt_lt
  | ge =>
      change (!p.sourceA.slt p.sourceB) = true ↔
        p.sourceB.toInt ≤ p.sourceA.toInt
      rw [Bool.not_eq_true', ← Bool.not_eq_true, BitVec.slt_iff_toInt_lt,
        not_lt]
  | ltu => exact decide_eq_true_iff
  | geu => exact decide_eq_true_iff

theorem branchTarget_cond {c : Cond} (h : p.uop.branchCtr = condCtr c) :
    branchTarget p = p.uop.pc + p.uop.immediate := by
  unfold branchTarget
  rw [h]
  cases c <;> rfl

/-- The target mux: taken transfers and their targets are the ISA's. -/
theorem transfer_eq (h : p.uop.Carries (decoder i.encode)) :
    (if branchTaken p then some (branchTarget p) else none) =
      i.transfer p.uop.pc p.sourceA p.sourceB := by
  have hctr := h.branchCtr
  have himm := h.immediate
  cases i with
  | op k rd rs1 rs2 =>
      rw [decoder_op] at hctr
      simp [branchTaken, hctr, IntInstr.transfer, decodeDefaults]
  | opImm k rd rs1 imm =>
      rw [decoder_opImm] at hctr
      simp [branchTaken, hctr, IntInstr.transfer, decodeDefaults]
  | shift k rd rs1 amount =>
      rw [decoder_shift] at hctr
      simp [branchTaken, hctr, IntInstr.transfer, decodeDefaults]
  | lui rd imm =>
      rw [decoder_lui] at hctr
      simp [branchTaken, hctr, IntInstr.transfer, decodeDefaults]
  | auipc rd imm =>
      rw [decoder_auipc] at hctr
      simp [branchTaken, hctr, IntInstr.transfer, decodeDefaults]
  | jal rd offset =>
      rw [decoder_jal] at hctr himm
      simp [branchTaken, branchTarget, hctr, himm, IntInstr.transfer]
  | jalr rd rs1 imm =>
      rw [decoder_jalr] at hctr himm
      simp [branchTaken, branchTarget, hctr, himm, IntInstr.transfer]
  | branch c rs1 rs2 offset =>
      rw [decoder_branch] at hctr himm
      rw [branchTarget_cond hctr, himm]
      simp only [IntInstr.transfer, branchTaken_cond hctr]

/-- The result mux: the value an instruction has for `rd`. -/
theorem selectedResult_eq (h : p.uop.Carries (decoder i.encode))
    {r : Reg} {v : Word}
    (hv : i.value p.uop.pc p.sourceA p.sourceB = some (r, v)) :
    selectedResult p = v := by
  have hsel := h.wbSelect
  have hctr := h.aluCtr
  have ha := h.aluSrcASelect
  have hb := h.aluSrcBSelect
  have himm := h.immediate
  cases i with
  | op k rd rs1 rs2 =>
      rw [decoder_op] at hsel hctr ha hb
      cases hv
      simp [selectedResult, aluResult, hsel, hctr, ha, hb, decodeDefaults,
        alu_regOpCtr]
  | opImm k rd rs1 imm =>
      rw [decoder_opImm] at hsel hctr ha hb himm
      cases hv
      simp [selectedResult, aluResult, hsel, hctr, ha, hb, himm,
        decodeDefaults, alu_regOpCtr]
  | shift k rd rs1 amount =>
      rw [decoder_shift] at hsel hctr ha hb himm
      cases hv
      simp [selectedResult, aluResult, hsel, hctr, ha, hb, himm,
        decodeDefaults, alu_regOpCtr]
  | lui rd imm =>
      rw [decoder_lui] at hsel himm
      cases hv
      simp [selectedResult, hsel, himm]
  | auipc rd imm =>
      rw [decoder_auipc] at hsel hctr ha hb himm
      cases hv
      simp [selectedResult, aluResult, hsel, hctr, ha, hb, himm,
        decodeDefaults, alu]
  | jal rd offset =>
      rw [decoder_jal] at hsel
      cases hv
      simp [selectedResult, hsel]
  | jalr rd rs1 imm =>
      rw [decoder_jalr] at hsel
      cases hv
      simp [selectedResult, hsel]
  | branch c rs1 rs2 offset => cases hv

/-- The unit's completion register and next pc are what an outcome says.  A
write goes to the physical register the reorder buffer recorded for the
architectural one. -/
def Realises (p : IssuePort) (entry : RobEntry) : Except Word Outcome → Prop
  | .error target =>
      (execute p).exception = true ∧
        (execute p).cause = excInsnAddrMisaligned ∧
        (execute p).value = target ∧ (execute p).writebackValid = false
  | .ok outcome =>
      (execute p).exception = false ∧
        branchActualNext p = outcome.nextPc ∧
        ((execute p).writebackValid = true ↔ outcome.write.isSome) ∧
        ∀ r v, outcome.write = some (r, v) →
          (execute p).writebackData = v ∧ entry.archRd = r ∧
            (execute p).writebackPhys = entry.newPhys

theorem targetMisaligned_eq (h : p.uop.Carries (decoder i.encode)) :
    targetMisaligned p =
      (i.transfer p.uop.pc p.sourceA p.sourceB).any (·.toNat % 4 ≠ 0) := by
  have hoffset : byteOffset (branchTarget p) = 0#2 ↔
      (branchTarget p).toNat % 4 = 0 := by
    rw [BitVec.toNat_eq]
    simp [byteOffset]
  have hclass : branchTaken p = true → p.uop.fuClass = .branch := by
    intro htaken
    rw [h.fuClass, if_neg]
    intro hnone
    rw [branchTaken, h.branchCtr, hnone] at htaken
    exact Bool.false_ne_true htaken
  rw [← transfer_eq h]
  cases htaken : branchTaken p with
  | false => simp [targetMisaligned, htaken]
  | true => simp [targetMisaligned, htaken, hclass htaken, hoffset]

theorem decodeException_int (h : p.uop.Carries (decoder i.encode)) :
    p.uop.decodeException = false := by
  have htrap := (decoder_follows_int i).trap
  rw [h.decodeException]
  by_contra hexc
  simp [hexc] at htrap

theorem branchActualNext_eq (h : p.uop.Carries (decoder i.encode)) :
    branchActualNext p =
      (i.transfer p.uop.pc p.sourceA p.sourceB).getD (p.uop.pc + 4) := by
  rw [← transfer_eq h, branchActualNext]
  cases branchTaken p <;> rfl

/-- The register an instruction writes is the one its value is for. -/
theorem value_filter (i : IntInstr) (pc a b : Word) :
    ((i.value pc a b).filter (·.1 ≠ 0)).map Prod.fst = (Instr.int i).dest := by
  cases i <;> simp [IntInstr.value, Option.filter] <;> split <;> simp_all

/-- What rename promises about the destination of an instruction. -/
structure Destination (u : Uop) (entry : RobEntry) (i : IntInstr) : Prop where
  written : (u.registerWriteEnable = true ∧ u.destPhys ≠ 0) ↔
    (Instr.int i).dest.isSome
  archRd : ∀ r, (Instr.int i).dest = some r → entry.archRd = r
  newPhys : u.destPhys = entry.newPhys

theorem realises_ok (h : p.uop.Carries (decoder i.encode))
    {entry : RobEntry} (hdest : Destination p.uop entry i)
    (hvalid : p.valid = true) (haligned : targetMisaligned p = false)
    {next : Word} (hnext : branchActualNext p = next) :
    Realises p entry (.ok ⟨(i.value p.uop.pc p.sourceA p.sourceB).filter
      (·.1 ≠ 0), next⟩) := by
  have hexc : executeException p = false := by
    rw [executeException, decodeException_int h, haligned]
    rfl
  have hfst := value_filter i p.uop.pc p.sourceA p.sourceB
  refine ⟨hexc, hnext, ?_, ?_⟩
  · rw [← Option.isSome_map, hfst, ← hdest.written]
    simp [execute, hvalid, hexc]
  · intro r v hwrite
    obtain ⟨hvalue, hr⟩ := Option.filter_eq_some_iff.mp hwrite
    have hdestr : (Instr.int i).dest = some r := by
      rw [← hfst]
      exact congrArg (Option.map Prod.fst) hwrite
    exact ⟨selectedResult_eq h hvalue, hdest.archRd r hdestr, hdest.newPhys⟩

/-- One accepted issue slot does what the ISA says of its instruction. -/
theorem execute_realises (h : p.uop.Carries (decoder i.encode))
    {entry : RobEntry} (hdest : Destination p.uop entry i)
    (hvalid : p.valid = true) :
    Realises p entry (i.exec p.uop.pc p.sourceA p.sourceB) := by
  have hmis := targetMisaligned_eq h
  have hnext := branchActualNext_eq h
  have htransfer := transfer_eq h
  unfold IntInstr.exec
  cases ht : i.transfer p.uop.pc p.sourceA p.sourceB with
  | none =>
      rw [ht] at hmis hnext
      exact realises_ok h hdest hvalid hmis hnext
  | some target =>
      rw [ht] at hmis hnext htransfer
      by_cases haligned : target.toNat % 4 ≠ 0
      · have htarget : branchTarget p = target := by
          by_contra hne
          cases htaken : branchTaken p <;> simp [htaken, hne] at htransfer
        have hmis' : targetMisaligned p = true := by
          rw [hmis]
          simpa using haligned
        simp only [if_pos haligned]
        simp [Realises, execute, executeException, executeCause, executeValue,
          decodeException_int h, hmis', htarget]
      · have hmis' : targetMisaligned p = false := by
          rw [hmis]
          simpa using haligned
        simp only [if_neg haligned]
        exact realises_ok h hdest hvalid hmis' hnext

end OoOExecutionUnit

namespace Backend

variable {s : Backend} {inp : Inputs} {l : Lane} {i : IntInstr}

theorem renamedUop_carries (hinsn : (inp.packet l).insn = i.encode) :
    (s.renamedUop inp l).Carries (decoder i.encode) := by
  have hfollows := decoder_follows_int i
  have hload : (decoder i.encode).wbSelect ≠ .mem := by
    intro hmem
    simpa [hmem] using hfollows.load
  have hstore : (decoder i.encode).dataWriteEnable = false := by
    by_contra hwrite
    simpa [hwrite] using hfollows.store
  have hcsr : (decoder i.encode).wbSelect ≠ .csr := by
    intro hsel
    simpa [hsel] using hfollows.csr
  have hbus : (decodeBus inp l).toDecoded = decoder i.encode :=
    congrArg decoder hinsn
  rw [← hbus] at hload hstore hcsr ⊢
  refine ⟨?_, rfl, rfl, rfl, rfl, rfl, rfl, rfl, rfl⟩
  change RenameStage.fuClassOf (decodeBus inp l) = _
  rw [RenameStage.fuClassOf, if_neg hcsr, if_neg (by simp [hstore, hload])]
  by_cases hnone : (decodeBus inp l).branchCtr = .none
  · rw [if_neg (by simp [hnone]), if_pos hnone]
  · rw [if_pos hnone, if_neg hnone]

theorem renamedUop_destination (hinsn : (inp.packet l).insn = i.encode)
    (hvalid : (s.renamedUop inp l).valid = true) :
    OoOExecutionUnit.Destination (s.renamedUop inp l)
      (s.renameRobEntry inp l) i := by
  have hbus : (decodeBus inp l).toDecoded = decoder i.encode :=
    congrArg decoder hinsn
  have hdest : (decodeBus inp l).dest = (Instr.int i).dest := by
    rw [hbus]
    exact (decoder_follows_int i).dest
  simp only [renamedUop, RenameStage.renamedUop, Bool.and_eq_true] at hvalid
  obtain ⟨⟨hbusValid, -⟩, havail⟩ := hvalid
  have hwrites : RenameStage.writesDestination (decodeBus inp l) = true ↔
      (Instr.int i).dest.isSome := by
    rw [← hdest]
    simp [RenameStage.writesDestination, hbusValid]
  refine ⟨?_, ?_, rfl⟩
  · rw [← hwrites]
    constructor
    · -- A lane without a destination register holds `p0`.
      rintro ⟨-, hphys⟩
      by_contra hno
      exact hphys (if_neg hno)
    · intro hw
      have hsome : (s.freeChoice inp l).isSome = true := by
        simpa [laneContext, destinationAvailable, hw] using havail
      obtain ⟨p, hp⟩ := Option.isSome_iff_exists.mp hsome
      have hphys : (s.renamedUop inp l).destPhys = p := by
        change s.destinationPhys inp l = p
        rw [destinationPhys, if_pos hw, hp]
        rfl
      have hrwe : (decodeBus inp l).registerWriteEnable = true := by
        simp only [RenameStage.writesDestination, Bool.and_eq_true] at hw
        exact hw.1.2
      exact ⟨hrwe, by rw [hphys]; exact (PhysicalFreeList.allocChoice_free
        s.rename.freeList hp).1⟩
  · intro r hr
    have hw := hwrites.mpr (by rw [hr]; rfl)
    change (if RenameStage.writesDestination (decodeBus inp l) = true then
      (decodeBus inp l).rd else 0) = r
    rw [if_pos hw]
    rw [← hdest, Decoded.dest] at hr
    split at hr
    · exact Option.some.inj hr
    · cases hr

/-- A renamed integer instruction in an issue slot, with any source values,
executes as the ISA says: its class sends it to this unit, its result and next
pc are the ISA's, and it traps exactly when a taken target is misaligned. -/
theorem integer_unit_exact (hinsn : (inp.packet l).insn = i.encode)
    (hvalid : (s.renamedUop inp l).valid = true) (r1 r2 : Bool)
    (a b csrReadData : Word) :
    ((s.renamedUop inp l).fuClass = .integer ∨
        (s.renamedUop inp l).fuClass = .branch) ∧
      OoOExecutionUnit.Realises
        ⟨true, (s.renamedUop inp l).withReady r1 r2, a, b, csrReadData⟩
        (s.renameRobEntry inp l) (i.exec (inp.packet l).pc a b) := by
  have hcarries : (s.renamedUop inp l).Carries (decoder i.encode) :=
    renamedUop_carries hinsn
  have hdest := renamedUop_destination hinsn hvalid
  constructor
  · rw [hcarries.fuClass]
    split
    · exact Or.inl rfl
    · exact Or.inr rfl
  · -- Waking a source changes none of the controls the unit reads.
    let p : IssuePort :=
      ⟨true, (s.renamedUop inp l).withReady r1 r2, a, b, csrReadData⟩
    have hp : p.uop.Carries (decoder i.encode) := ⟨hcarries.fuClass,
      hcarries.registerWriteEnable, hcarries.wbSelect, hcarries.branchCtr,
      hcarries.aluCtr, hcarries.aluSrcASelect, hcarries.aluSrcBSelect,
      hcarries.immediate, hcarries.decodeException⟩
    have hpdest : OoOExecutionUnit.Destination p.uop
        (s.renameRobEntry inp l) i :=
      ⟨hdest.written, hdest.archRd, hdest.newPhys⟩
    exact OoOExecutionUnit.execute_realises hp hpdest rfl

/-- The inputs of a cycle that offers `jalr x1, 2(x2)` in lane 0. -/
def jalrInputs : Inputs where
  packet := fun l =>
    if l = 0 then { insn := (IntInstr.jalr 1 2 2).encode, pc := 0x100 } else {}
  memoryRequestReady := true
  memoryIdle := true
  response := default
  csrReadData := 0
  branchTrainReady := true

theorem integer_unit_exact_jalr :
    (reset.renamedUop jalrInputs 0).valid = true ∧
      (IntInstr.jalr 1 2 2).exec 0x100 0x40 0 = .error 0x42 ∧
      OoOExecutionUnit.Realises
        ⟨true, (reset.renamedUop jalrInputs 0).withReady true true, 0x40, 0, 0⟩
        (reset.renameRobEntry jalrInputs 0)
        ((IntInstr.jalr 1 2 2).exec 0x100 0x40 0) := by
  have hvalid : (reset.renamedUop jalrInputs 0).valid = true := by decide
  refine ⟨hvalid, by rfl, ?_⟩
  exact (integer_unit_exact (i := .jalr 1 2 2) rfl hvalid true true
    0x40 0 0).2

end Backend

end OoOCore
