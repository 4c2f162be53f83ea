/-
Control transfers through the real issue path: decoder class, issue port,
operands wired to that port, and the target the execute stage resolves.
-/
import OoOCore.Core
import OoOCore.IssueSelection

namespace OoOCore

open Insn

namespace Isa

/-- The condition a `funct3` field selects. -/
def branchHolds (f3 : BitVec 3) (a b : Word) : Bool :=
  if f3 = 0b000 then decide (a = b)
  else if f3 = 0b001 then decide (a ≠ b)
  else if f3 = 0b100 then a.slt b
  else if f3 = 0b101 then !a.slt b
  else if f3 = 0b110 then decide (a < b)
  else decide (b ≤ a)

/-- Where a control-transfer instruction goes, from its encoding, its pc, its
source values and the machine's `mepc`. -/
def nextPc (insn pc a b mepc : Word) : Word :=
  if opcode insn = 0b1100011 then
    if branchHolds (funct3 insn) a b then pc + immB insn else pc + 4
  else if opcode insn = 0b1101111 then pc + immJ insn
  else if opcode insn = 0b1100111 then (a + immI insn) &&& ~~~1#32
  else mepc

theorem nextPc_jal {insn : Word} (hop : opcode insn = 0b1101111)
    (pc a b mepc : Word) : nextPc insn pc a b mepc = pc + immJ insn := by
  rw [nextPc, if_neg (by rw [hop]; decide), if_pos hop]

theorem nextPc_jalr {insn : Word} (hop : opcode insn = 0b1100111)
    (pc a b mepc : Word) :
    nextPc insn pc a b mepc = (a + immI insn) &&& ~~~1#32 := by
  rw [nextPc, if_neg (by rw [hop]; decide), if_neg (by rw [hop]; decide),
    if_pos hop]

end Isa

/-- The `MRET` encoding. -/
def mretInsn : Word := 0x30200073

/-- The decoder accepts the word as a control transfer. -/
def IsControlTransfer (insn : Word) : Prop :=
  (decoder insn).decodeException = false ∧ (decoder insn).branchCtr ≠ .none

/-- The uop is what rename makes of the packet; readiness may have changed. -/
def Uop.Renames (u : Uop) (packet : FetchPacket) : Prop :=
  ∃ ctx r1 r2,
    u = (RenameStage.renamedUop (idStage packet) ctx).withReady r1 r2

theorem decodeSystem_branchCtr {insn : Word} (hne : insn ≠ mretInsn) :
    (decodeSystem insn).branchCtr = .none := by
  unfold decodeSystem decodePrivileged
  split
  · split
    · rfl
    · split
      · rfl
      · split
        · next hmret => exact absurd hmret hne
        · rfl
  · split <;> rfl

/-- The four kinds of control transfer and the decoder arm of each. -/
theorem isControlTransfer_cases {insn : Word} (h : IsControlTransfer insn) :
    (decoder insn = decodeBranch insn ∧ opcode insn = 0b1100011 ∧
        branchKind insn ≠ none) ∨
      (decoder insn = decodeJal insn ∧ opcode insn = 0b1101111) ∨
      (decoder insn = decodeJalr insn ∧ opcode insn = 0b1100111 ∧
        funct3 insn = 0b000) ∨
      insn = mretInsn := by
  obtain ⟨-, hctr⟩ := h
  have harm := decoder_arm insn
  generalize decoder insn = d at harm hctr ⊢
  cases harm with
  | op | opImm | load | store | lui | auipc | fence | other =>
      exact absurd rfl hctr
  | branch hop =>
      refine Or.inl ⟨rfl, hop, ?_⟩
      intro hnone
      simp [decodeBranch, hnone] at hctr
  | jal hop => exact Or.inr (Or.inl ⟨rfl, hop⟩)
  | jalr hop =>
      refine Or.inr (Or.inr (Or.inl ⟨rfl, hop, ?_⟩))
      by_contra hf
      rw [decodeJalr, if_neg hf] at hctr
      exact hctr rfl
  | system hop =>
      refine Or.inr (Or.inr (Or.inr ?_))
      by_contra hne
      exact hctr (decodeSystem_branchCtr hne)

/-- What rename keeps of a decoded control transfer. -/
theorem Uop.Renames.controls {u : Uop} {packet : FetchPacket}
    (h : u.Renames packet) (hctl : IsControlTransfer packet.insn) :
    u.fuClass = .branch ∧ u.decodeException = false ∧
      u.branchCtr = (decoder packet.insn).branchCtr ∧
      u.immediate = (decoder packet.insn).immediate ∧ u.pc = packet.pc := by
  obtain ⟨ctx, r1, r2, rfl⟩ := h
  have hcons := decoder_consistent packet.insn
  refine ⟨?_, hctl.1, rfl, rfl, rfl⟩
  change RenameStage.fuClassOf (idStage packet) = .branch
  have hcsr : (decoder packet.insn).wbSelect ≠ .csr :=
    fun h => hctl.2 (hcons.csr h).2
  have hmem : ¬ ((decoder packet.insn).dataWriteEnable ∨
      (decoder packet.insn).wbSelect = .mem) := by
    rintro (h | h)
    · exact hctl.2 (hcons.store h).2.1
    · exact hctl.2 (hcons.load h).2
  simp only [RenameStage.fuClassOf, idStage, hcsr, hmem, hctl.2, if_false,
    ne_eq, not_false_eq_true, if_true]

/-- The target mux computes the architectural next pc, reading `mepc` from the
unit's own CSR port. -/
theorem branchActualNext_eq_nextPc {p : IssuePort} {insn : Word}
    (hctl : IsControlTransfer insn)
    (hctr : p.uop.branchCtr = (decoder insn).branchCtr)
    (himm : p.uop.immediate = (decoder insn).immediate) :
    OoOExecutionUnit.branchActualNext p =
      Isa.nextPc insn p.uop.pc p.sourceA p.sourceB p.csrReadData := by
  simp only [OoOExecutionUnit.branchActualNext, OoOExecutionUnit.branchTaken,
    OoOExecutionUnit.branchTarget, hctr, himm]
  rcases isControlTransfer_cases hctl with
    ⟨hdec, hop, hkind⟩ | ⟨hdec, hop⟩ | ⟨hdec, hop, hf⟩ | rfl
  · rw [hdec, Isa.nextPc, if_pos hop, Isa.branchHolds]
    simp only [decodeBranch]
    unfold branchKind at hkind ⊢
    split_ifs at hkind ⊢ <;> simp_all
  · rw [hdec, Isa.nextPc_jal hop]
    rfl
  · rw [hdec, Isa.nextPc_jalr hop, decodeJalr, if_pos hf]
    rfl
  · rfl

/-- Only `MRET` reads `mepc`. -/
theorem nextPc_mepc_irrelevant {insn : Word} (hctl : IsControlTransfer insn)
    (hne : insn ≠ mretInsn) (pc a b m m' : Word) :
    Isa.nextPc insn pc a b m = Isa.nextPc insn pc a b m' := by
  rcases isControlTransfer_cases hctl with
    ⟨-, hop, -⟩ | ⟨-, hop⟩ | ⟨-, hop, -⟩ | heq
  · simp only [Isa.nextPc, hop, if_true]
  · rw [Isa.nextPc_jal hop, Isa.nextPc_jal hop]
  · rw [Isa.nextPc_jalr hop, Isa.nextPc_jalr hop]
  · exact absurd heq hne

/-- The unit compares direction and target, so it reports every resolution that
leaves the predicted path. -/
theorem mispredicted_of_next_ne {p : IssuePort}
    (hres : OoOExecutionUnit.branchResolved p true)
    (hne : (if p.uop.predictedTaken then p.uop.predictedTarget
      else p.uop.pc + 4) ≠ OoOExecutionUnit.branchActualNext p) :
    OoOExecutionUnit.branchMispredicted p true = true := by
  rw [OoOExecutionUnit.branchMispredicted, hres, Bool.true_and]
  cases hpred : p.uop.predictedTaken <;>
    cases htaken : OoOExecutionUnit.branchTaken p <;>
    simp_all [OoOExecutionUnit.branchActualNext]

namespace Backend

variable (s : Backend) (i : Inputs)

theorem issueUop_of_choice {l : Lane} {j : IqIndex}
    (hj : s.issueChoice l = some j) :
    s.issueUop l = (s.iq.entries j).withReady
      (IssueQueue.source1ReadyNow s.prfWriteback (s.iq.entries j))
      (IssueQueue.source2ReadyNow s.prfWriteback (s.iq.entries j)) := by
  simp only [issueUop, hj, IssueQueue.issueUop]

/-- Port 0 and the integer fallback never carry a branch, so the primary unit
resolves none. -/
theorem primary_not_branch : (s.primaryPort i).uop.fuClass ≠ .branch ∨
    (s.primaryPort i).valid = false := by
  by_cases hmem : s.candidate0IsMemory
  · left
    simp [primaryPort, BackendExecuteStage.primaryPort, hmem]
  · simp only [primaryPort, BackendExecuteStage.primaryPort, hmem,
      Bool.false_eq_true, if_false, issuePort]
    cases hj : s.issueChoice 0 with
    | none => right; simp [issueValid, hj]
    | some j =>
        left
        rw [s.issueUop_of_choice hj]
        exact s.iq.select_port0_not_branch _ hj

theorem primary_not_resolved :
    OoOExecutionUnit.branchResolved (s.primaryPort i) s.exec.pReady =
      false := by
  rcases s.primary_not_branch i with h | h <;>
    simp [OoOExecutionUnit.branchResolved, h]

theorem sReady_eq_true : s.exec.sReady = true := by
  simp [BackendExecuteStage.sReady, OoOExecutionUnit.issueReady]

/-- The branch outputs always describe the secondary unit. -/
theorem branch_resolved : (s.branch i).resolved =
    OoOExecutionUnit.branchResolved (s.secondaryPort i) true := by
  have hp := s.primary_not_resolved i
  by_cases hmem : s.candidate0IsMemory <;>
    simp [branch, BackendExecuteStage.branchReport, hmem,
      OoOExecutionUnit.branchReport, hp, sReady_eq_true]

theorem branch_mispredicted : (s.branch i).mispredicted =
    OoOExecutionUnit.branchMispredicted (s.secondaryPort i) true := by
  have hp := s.primary_not_resolved i
  by_cases hmem : s.candidate0IsMemory
  · simp [branch, BackendExecuteStage.branchReport, hmem,
      OoOExecutionUnit.branchReport, sReady_eq_true]
  · simp only [branch, BackendExecuteStage.branchReport, hmem,
      Bool.false_eq_true, if_false, OoOExecutionUnit.branchReport,
      sReady_eq_true]
    split
    · rfl
    · next hs =>
      rw [Bool.not_eq_true] at hs
      simp [OoOExecutionUnit.branchMispredicted, hp, hs]

/-- While the secondary unit resolves, every branch output is its own. -/
theorem branch_eq_of_resolved
    (hres : OoOExecutionUnit.branchResolved (s.secondaryPort i) true) :
    s.branch i = OoOExecutionUnit.branchReport (s.secondaryPort i) true := by
  have hp := s.primary_not_resolved i
  by_cases hmem : s.candidate0IsMemory <;>
    simp [branch, BackendExecuteStage.branchReport, hmem,
      OoOExecutionUnit.branchReport, hp, hres, sReady_eq_true]

end Backend

namespace Core

variable (c : Core) (x : CoreInputs)

/-- The port of the execution unit that an issue lane feeds. -/
def executedPort : Lane → IssuePort
  | 0 => c.backend.primaryPort (c.inputs x)
  | 1 => c.backend.secondaryPort (c.inputs x)

/-- The address the front end followed after the uop. -/
def predictedNext (u : Uop) : Word :=
  if u.predictedTaken then u.predictedTarget else u.pc + 4

/-- The control transfer on lane `l`, unless it raises an exception, resolves
to the architectural next pc and redirects there whenever the front end went
somewhere else. -/
def ResolvesArchitecturally (l : Lane) (insn : Word) : Prop :=
  let p := c.executedPort x l
  let next := Isa.nextPc insn p.uop.pc p.sourceA p.sourceB c.csr.mepc
  OoOExecutionUnit.executeException p = false →
    (c.branch x).resolved = true ∧ (c.branch x).robTag = p.uop.robTag ∧
      (c.branch x).redirect = next ∧
      (predictedNext p.uop ≠ next → (c.branch x).mispredicted = true)

/-- A branch-class uop is only ever selected on lane 1. -/
theorem lane_of_branch {l : Lane} {j : IqIndex}
    (hissue : c.backend.issueChoice l = some j)
    (hclass : (c.backend.iq.entries j).fuClass = .branch) : l = 1 := by
  match l with
  | 0 => exact absurd hclass (c.backend.iq.select_port0_not_branch _ hissue)
  | 1 => rfl

/-- The MRET target register is not wired to the port that branches use: the
secondary unit reads zero, so MRET resolves to zero. -/
theorem secondaryPort_csrReadData :
    (c.backend.secondaryPort (c.inputs x)).csrReadData = 0 := rfl

theorem secondaryPort_renames {j : IqIndex} {packet : FetchPacket}
    (hissue : c.backend.issueChoice 1 = some j)
    (hren : (c.backend.iq.entries j).Renames packet) :
    (c.backend.secondaryPort (c.inputs x)).uop.Renames packet := by
  obtain ⟨ctx, r1, r2, heq⟩ := hren
  have huop := c.backend.issueUop_of_choice hissue
  rw [heq, Uop.withReady_withReady] at huop
  exact ⟨ctx, _, _, huop⟩

/-- For every state of the core and every control transfer the issue queue
selects, on whichever lane, the execute stage resolves it architecturally
exactly when it is not an MRET that returns to a nonzero `mepc`. -/
theorem resolvesArchitecturally_iff {l : Lane} {j : IqIndex}
    {packet : FetchPacket} (hissue : c.backend.issueChoice l = some j)
    (hren : (c.backend.iq.entries j).Renames packet)
    (hctl : IsControlTransfer packet.insn) :
    c.ResolvesArchitecturally x l packet.insn ↔
      (packet.insn = mretInsn → c.csr.mepc = 0) := by
  obtain rfl := c.lane_of_branch hissue (hren.controls hctl).1
  have hport := c.secondaryPort_renames x hissue hren
  obtain ⟨hclass, hdec, hctr, himm, hpc⟩ := hport.controls hctl
  have hnext := branchActualNext_eq_nextPc hctl hctr himm
  rw [secondaryPort_csrReadData] at hnext
  have hvalid : (c.backend.secondaryPort (c.inputs x)).valid = true := by
    change (c.backend.issueChoice 1).isSome = true
    rw [hissue]
    rfl
  have hresolved (hexc : OoOExecutionUnit.executeException
      (c.backend.secondaryPort (c.inputs x)) = false) :
      OoOExecutionUnit.branchResolved
        (c.backend.secondaryPort (c.inputs x)) true = true := by
    simp [OoOExecutionUnit.branchResolved, hvalid, hexc, hclass]
  have hredirect (hexc : OoOExecutionUnit.executeException
      (c.backend.secondaryPort (c.inputs x)) = false) :
      (c.branch x).redirect = OoOExecutionUnit.branchActualNext
        (c.backend.secondaryPort (c.inputs x)) := by
    rw [branch, c.backend.branch_eq_of_resolved _ (hresolved hexc)]
    rfl
  constructor
  · intro hclaim hmret
    have hexc : OoOExecutionUnit.executeException
        (c.backend.secondaryPort (c.inputs x)) = false := by
      have hzero : OoOExecutionUnit.branchTarget
          (c.backend.secondaryPort (c.inputs x)) = 0 := by
        rw [OoOExecutionUnit.branchTarget, hctr, hmret]
        rfl
      simp [OoOExecutionUnit.executeException, hdec,
        OoOExecutionUnit.targetMisaligned, hzero, byteOffset]
    have hgoal := (hclaim hexc).2.2.1
    rw [hredirect hexc, hnext, hmret] at hgoal
    exact hgoal.symm
  · intro hcond hexc
    have hmepc : Isa.nextPc packet.insn
        (c.backend.secondaryPort (c.inputs x)).uop.pc
        (c.backend.secondaryPort (c.inputs x)).sourceA
        (c.backend.secondaryPort (c.inputs x)).sourceB 0 =
        Isa.nextPc packet.insn
        (c.backend.secondaryPort (c.inputs x)).uop.pc
        (c.backend.secondaryPort (c.inputs x)).sourceA
        (c.backend.secondaryPort (c.inputs x)).sourceB c.csr.mepc := by
      by_cases hmret : packet.insn = mretInsn
      · rw [hcond hmret]
      · exact nextPc_mepc_irrelevant hctl hmret _ _ _ _ _
    refine ⟨?_, ?_, ?_, ?_⟩
    · rw [branch, c.backend.branch_resolved, hresolved hexc]
    · rw [branch, c.backend.branch_eq_of_resolved _ (hresolved hexc)]
      rfl
    · rw [hredirect hexc, hnext]
      exact hmepc
    · intro hne
      rw [branch, c.backend.branch_mispredicted]
      apply mispredicted_of_next_ne (hresolved hexc)
      rw [hnext, hmepc]
      exact hne

/-- A cycle that offers one instruction on lane 0 and leaves everything else
idle. -/
def offer (insn : Word) : CoreInputs where
  packet := fun l => if l = 0 then { insn := insn, pc := 0x40 } else {}
  memoryRequestReady := true
  memoryIdle := true
  response := default
  branchTrainReady := true
  fetch := ⟨false, false, 0, false, 0, 0⟩

/-- `csrrwi x0, mepc, 4` has run to retirement. -/
def afterCsr : Core :=
  ((((reset.step (offer 0x34125073)).step (offer 0)).step (offer 0)).step
    (offer 0)).step (offer 0)

/-- An `mret` has just been dispatched with `mepc = 4`. -/
def beforeMret : Core := afterCsr.step (offer mretInsn)

theorem beforeMret_reachable : Reachable beforeMret :=
  (((((Reachable.reset.step _).step _).step _).step _).step _).step _

theorem beforeMret_renames : (beforeMret.backend.iq.entries 0).Renames
    { insn := mretInsn, pc := 0x40 } := by
  refine ⟨afterCsr.backend.laneContext (afterCsr.inputs (offer mretInsn)) 0,
    true, true, ?_⟩
  decide +kernel

theorem resolvesArchitecturally_iff_beforeMret :
    beforeMret.ResolvesArchitecturally (offer 0) 1 mretInsn ↔
      (mretInsn = mretInsn → beforeMret.csr.mepc = 0) :=
  resolvesArchitecturally_iff beforeMret (offer 0) (l := 1) (j := 0)
    (by decide +kernel) beforeMret_renames
    (by unfold IsControlTransfer; decide)

/-- From reset, an `mret` with `mepc = 4` resolves to address zero. -/
theorem mret_resolves_wrong : Reachable beforeMret ∧
    beforeMret.backend.issueChoice 1 = some 0 ∧
    (beforeMret.backend.iq.entries 0).Renames
      { insn := mretInsn, pc := 0x40 } ∧
    IsControlTransfer mretInsn ∧ beforeMret.csr.mepc = 4 ∧
    (beforeMret.branch (offer 0)).redirect = 0 ∧
    ¬ beforeMret.ResolvesArchitecturally (offer 0) 1 mretInsn := by
  refine ⟨beforeMret_reachable, by decide +kernel, beforeMret_renames,
    by unfold IsControlTransfer; decide, by decide +kernel,
    by decide +kernel, ?_⟩
  intro hclaim
  have hexc : OoOExecutionUnit.executeException
      (beforeMret.executedPort (offer 0) 1) = false := by decide +kernel
  have hgoal := (hclaim hexc).2.2.1
  revert hgoal
  decide +kernel

end Core

end OoOCore
