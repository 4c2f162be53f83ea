/-
Trap reports against the ISA: a trap reports the fault that the ISA's machine
raises at the oldest live instruction, in the registers that the retired
instructions leave.
-/
import OoOCore.MachineStep
import OoOCore.Traps

namespace OoOCore

open Rv32

namespace OoOExecutionUnit

variable {p : IssuePort} {d : Decoded}

/-- What an integer unit reports of an instruction it cannot decode or of a
target it cannot go to. -/
theorem execute_fault (ha : p.uop.Accesses d) :
    (execute p).fault =
      if d.decodeException then
        some (d.decodeExceptionCause, d.exceptionValue)
      else if targetMisaligned p then
        some (excInsnAddrMisaligned, branchTarget p)
      else none := by
  simp only [execute, Completion.fault, executeException, executeCause,
    executeValue, ha.decodeException, ha.cause, ha.value]
  cases d.decodeException <;> cases targetMisaligned p <;> simp

/-- A misaligned taken target is the fault of the ISA. -/
theorem exec_fault {i : IntInstr} (h : p.uop.Carries (decoder i.encode))
    (hmisaligned : targetMisaligned p = true) :
    i.exec p.uop.pc p.sourceA p.sourceB = .error (branchTarget p) := by
  have htaken : branchTaken p = true := by
    simp only [targetMisaligned, Bool.and_eq_true] at hmisaligned
    exact hmisaligned.1.2
  have htransfer := transfer_eq h
  rw [htaken, if_pos rfl] at htransfer
  rw [targetMisaligned_eq h, ← htransfer, Option.any_some, decide_eq_true_eq]
    at hmisaligned
  rw [IntInstr.exec, ← htransfer]
  exact if_pos hmisaligned

/-- What is no branch has no target. -/
theorem targetMisaligned_none (h : p.uop.branchCtr = .none) :
    targetMisaligned p = false := by
  rw [targetMisaligned, branchTaken, h, Bool.and_false, Bool.false_and]

end OoOExecutionUnit

theorem Uop.Paired.branchCtr {u : Uop} {e : RobEntry} (h : u.Paired e) :
    u.branchCtr = (decoder e.origin.insn).branchCtr := by
  obtain ⟨packet, ctx, r1, r2, rfl, he, -⟩ := h
  have horigin := congrArg RobEntry.origin he
  change e.origin = ⟨ctx.uid, packet.insn⟩ at horigin
  rw [horigin]
  rfl

/-- The memory operations are the loads and the stores. -/
theorem RobEntry.Decodes.isMemory_of {e : RobEntry} {i : Instr}
    (h : e.Decodes (decoder i.encode)) :
    e.isMemory = ((instrLoad i).isSome || (instrStore i).isSome) := by
  rw [h.isMemory, ← (decoder_follows i).load, ← (decoder_follows i).store,
    Decoded.load, Decoded.store, Bool.or_comm]
  congr 1
  · by_cases hload : (decoder i.encode).wbSelect = .mem <;> simp [hload]
  · cases (decoder i.encode).dataWriteEnable <;> rfl

namespace Backend

section Head

variable {s : Backend} {i : Inputs} {h : History} {tag : RobTag}
  {younger : List RobTag}

/-- The oldest live instruction, once complete, has the fault that its unit
found in the architectural registers. -/
theorem Traced.head_integer (ht : s.Traced h)
    (hwindow : s.rob.window = tag :: younger)
    (hdone : (s.rob.entries tag).complete = true)
    (hinteger : s.isMemoryTag tag = false) :
    ∃ p, Fed h.result (producerAfter h.retired) (s.rob.entries tag) p ∧
      (s.rob.entries tag).fault = (OoOExecutionUnit.execute p).fault := by
  have hs := ht.reachable.inFlight
  have hlive : tag ∈ s.rob.window := by
    rw [hwindow]
    exact List.mem_cons_self
  have hsplit : s.rob.window = [] ++ tag :: younger := hwindow
  obtain ⟨p, hp⟩ := ht.dataflowLive tag hlive hinteger (hs.not_waiting hdone)
  have hfed := hp.fed
  rw [producerOf_retiring hs.rob hsplit, List.map_nil,
    List.append_nil] at hfed
  exact ⟨p, hfed, hp.fault hdone⟩

theorem Traced.head_memory (ht : s.Traced h)
    (hwindow : s.rob.window = tag :: younger)
    (hdone : (s.rob.entries tag).complete = true)
    (hmemory : s.isMemoryTag tag = true) :
    (s.rob.entries tag).fault = (s.decodedAt tag).accessFault
      (h.registers (s.decodedAt tag).rs1 + (s.decodedAt tag).immediate) := by
  have hs := ht.reachable.inFlight
  have hlive : tag ∈ s.rob.window := by
    rw [hwindow]
    exact List.mem_cons_self
  have hsplit : s.rob.window = [] ++ tag :: younger := hwindow
  obtain ⟨base, ha⟩ := ht.accessesLive tag hlive hmemory
    (hs.not_waiting hdone)
  have hsource := ha.source
  rw [producerOf_retiring hs.rob hsplit, List.map_nil,
    List.append_nil] at hsource
  rw [ha.fault hdone, faultAt, target, produced_register hsource]
  rfl

/-- What the decoder rejects has the fault of the decoder. -/
theorem Traced.head_rejected (ht : s.Traced h)
    (hwindow : s.rob.window = tag :: younger)
    (hdone : (s.rob.entries tag).complete = true)
    (hexc : (s.decodedAt tag).decodeException = true) :
    (s.rob.entries tag).fault = some ((s.decodedAt tag).decodeExceptionCause,
      (s.decodedAt tag).exceptionValue) := by
  cases hmemory : s.isMemoryTag tag with
  | false =>
      obtain ⟨p, hp, hfault⟩ := ht.head_integer hwindow hdone hmemory
      rw [hfault, OoOExecutionUnit.execute_fault hp.uop.accesses]
      exact if_pos hexc
  | true =>
      rw [ht.head_memory hwindow hdone hmemory, Decoded.accessFault]
      exact if_pos hexc

/-- What the decoder accepts has no fault of its own, unless it is a branch or
accesses memory. -/
theorem Traced.head_plain (ht : s.Traced h)
    (hwindow : s.rob.window = tag :: younger)
    (hdone : (s.rob.entries tag).complete = true)
    (hinteger : s.isMemoryTag tag = false)
    (hexc : (s.decodedAt tag).decodeException = false)
    (hbranch : (s.decodedAt tag).branchCtr = .none) :
    (s.rob.entries tag).fault = none := by
  obtain ⟨p, hp, hfault⟩ := ht.head_integer hwindow hdone hinteger
  have hnone := OoOExecutionUnit.targetMisaligned_none
    (hp.uop.branchCtr.trans hbranch)
  rw [hfault, OoOExecutionUnit.execute_fault hp.uop.accesses, hnone]
  change (if (s.decodedAt tag).decodeException then _ else _) = _
  rw [hexc]
  rfl

/-- What the decoder accepts and accesses memory has the fault of its
address. -/
theorem Traced.head_access (ht : s.Traced h)
    (hwindow : s.rob.window = tag :: younger)
    (hdone : (s.rob.entries tag).complete = true)
    (hmemory : s.isMemoryTag tag = true)
    (hexc : (s.decodedAt tag).decodeException = false) {fault : Cause × Word}
    (hfault : (s.rob.entries tag).fault = some fault) :
    LoadStoreExecutionUnit.misaligned (s.decodedAt tag).memCtr
        (h.registers (s.decodedAt tag).rs1 + (s.decodedAt tag).immediate) =
      true ∧
      (if (s.decodedAt tag).dataWriteEnable then excStoreAddrMisaligned
        else excLoadAddrMisaligned,
        h.registers (s.decodedAt tag).rs1 + (s.decodedAt tag).immediate) =
      fault := by
  rw [ht.head_memory hwindow hdone hmemory, Decoded.accessFault, hexc,
    if_neg Bool.false_ne_true] at hfault
  split at hfault
  · next hmisaligned => exact ⟨hmisaligned, Option.some.inj hfault⟩
  · cases hfault

/-- An integer instruction that the decoder accepts faults by its target, as on
the ISA's machine. -/
theorem Traced.head_target (ht : s.Traced h)
    (hwindow : s.rob.window = tag :: younger)
    (hdone : (s.rob.entries tag).complete = true)
    (hinteger : s.isMemoryTag tag = false) {insn : IntInstr}
    (hinsn : (s.rob.entries tag).origin.insn = (Instr.int insn).encode)
    {fault : Cause × Word} (hfault : (s.rob.entries tag).fault = some fault)
    (init : Word → BitVec 8) (plain : Word → Bool) :
    ∃ target, (h.machineAfter init h.retired (s.rob.entries tag).pc).exec plain
        (.int insn) = .error (.fault (.misalignedTarget target)) ∧
      ((Fault.misalignedTarget target).cause, target) = fault := by
  obtain ⟨p, hp, hunit⟩ := ht.head_integer hwindow hdone hinteger
  have hcarries := hp.uop.carries hinsn
  have hexc := OoOExecutionUnit.decodeException_int hcarries
  rw [hunit, OoOExecutionUnit.execute_fault hp.uop.accesses,
    ← hp.uop.accesses.decodeException, hexc,
    if_neg Bool.false_ne_true] at hfault
  split at hfault
  · next hmisaligned =>
    obtain ⟨ha, hb⟩ := hp.operands hinsn
    have hexec := OoOExecutionUnit.exec_fault hcarries hmisaligned
    rw [IntInstr.exec_congr ha hb, hp.uop.controls.1] at hexec
    refine ⟨OoOExecutionUnit.branchTarget p, ?_, Option.some.inj hfault⟩
    simp only [Machine.exec, History.machineAfter, hexec]
  · cases hfault

/-- The oldest live instruction faults as the ISA's machine does. -/
theorem Traced.head_fault (ht : s.Traced h)
    (hwindow : s.rob.window = tag :: younger)
    (hdone : (s.rob.entries tag).complete = true)
    (hmret : (s.rob.entries tag).origin.insn ≠ Instr.mret.encode)
    {fault : Cause × Word} (hfault : (s.rob.entries tag).fault = some fault)
    (init : Word → BitVec 8) {pl : Platform}
    (hfetch : pl.fetch (s.rob.entries tag).pc =
      (s.rob.entries tag).origin.insn) :
    ∃ f, (h.machineAfter init h.retired (s.rob.entries tag).pc).step pl =
        .error (.fault f) ∧ (f.cause, f.value) = fault := by
  have hlive : tag ∈ s.rob.window := by
    rw [hwindow]
    exact List.mem_cons_self
  have hdecodes := (ht.reachable.renamed tag hlive).decodes
  have hplace : pl.fetch (h.machineAfter init h.retired
      (s.rob.entries tag).pc).pc = (s.rob.entries tag).origin.insn := hfetch
  cases hdecode : decode (s.rob.entries tag).origin.insn with
  | none =>
      obtain ⟨hexc, hcause, hvalue⟩ := decoder_of_decode_none hdecode
      have hrejected := ht.head_rejected hwindow hdone hexc
      rw [hfault] at hrejected
      refine ⟨.illegal (s.rob.entries tag).origin.insn, ?_, ?_⟩
      · rw [Machine.step_illegal (by rw [hplace]; exact hdecode), hplace]
      · rw [Option.some.inj hrejected]
        exact Prod.ext hcause.symm hvalue.symm
  | some inst =>
      have hinsn := (decode_eq_some.mp hdecode).symm
      have hdecoded : s.decodedAt tag = decoder inst.encode := by
        rw [decodedAt, hinsn]
      have hclass : s.isMemoryTag tag =
          ((instrLoad inst).isSome || (instrStore inst).isSome) := by
        rw [hinsn] at hdecodes
        exact hdecodes.isMemory_of
      rw [← hplace] at hdecode
      have hstep : ∀ f, (h.machineAfter init h.retired
          (s.rob.entries tag).pc).exec pl.plain inst = .error (.fault f) →
          (f.cause, f.value) = fault →
          ∃ f, (h.machineAfter init h.retired
              (s.rob.entries tag).pc).step pl = .error (.fault f) ∧
            (f.cause, f.value) = fault := by
        intro f hexec heq
        exact ⟨f, Machine.step_error hdecode hexec, heq⟩
      cases inst with
      | int i =>
          obtain ⟨target, hexec, heq⟩ :=
            ht.head_target hwindow hdone hclass hinsn hfault init pl.plain
          exact hstep (.misalignedTarget target) hexec heq
      | load k rd rs1 imm =>
          have hd := hdecoded.trans (decoder_load k rd rs1 imm)
          obtain ⟨hmisaligned, heq⟩ := ht.head_access hwindow hdone hclass
            (by rw [hd]) hfault
          rw [hd] at hmisaligned heq
          rw [misaligned_iff, loadKindAccess_width] at hmisaligned
          apply hstep (.misalignedLoad (h.registers rs1 + imm.signExtend 32))
          · exact Machine.exec_load_misaligned _ _ rd hmisaligned
          · exact heq
      | store k rs1 rs2 imm =>
          have hd := hdecoded.trans (decoder_store k rs1 rs2 imm)
          obtain ⟨hmisaligned, heq⟩ := ht.head_access hwindow hdone hclass
            (by rw [hd]) hfault
          rw [hd] at hmisaligned heq
          rw [misaligned_iff, storeKindAccess_width] at hmisaligned
          apply hstep (.misalignedStore (h.registers rs1 + imm.signExtend 32))
          · exact Machine.exec_store_misaligned _ _ rs2 hmisaligned
          · exact heq
      | fence rd rs1 imm =>
          have hd := hdecoded.trans (decoder_fence rd rs1 imm)
          rw [ht.head_plain hwindow hdone hclass (by rw [hd]) (by rw [hd]; rfl)]
            at hfault
          cases hfault
      | fenceI =>
          have hd := hdecoded.trans decoder_fenceI
          rw [ht.head_plain hwindow hdone hclass (by rw [hd]) (by rw [hd]; rfl)]
            at hfault
          cases hfault
      | csr k rd rs1 addr =>
          have hd := hdecoded.trans (decoder_csr k rd rs1 addr)
          rw [ht.head_plain hwindow hdone hclass (by rw [hd]) (by rw [hd]; rfl)]
            at hfault
          cases hfault
      | csrImm k rd zimm addr =>
          have hd := hdecoded.trans (decoder_csrImm k rd zimm addr)
          rw [ht.head_plain hwindow hdone hclass (by rw [hd]) (by rw [hd]; rfl)]
            at hfault
          cases hfault
      | ecall =>
          have hd := hdecoded.trans decoder_ecall
          rw [ht.head_rejected hwindow hdone (by rw [hd]; rfl), hd] at hfault
          exact hstep .ecall rfl (Option.some.inj hfault)
      | ebreak =>
          have hd := hdecoded.trans decoder_ebreak
          rw [ht.head_rejected hwindow hdone (by rw [hd]; rfl), hd] at hfault
          exact hstep .breakpoint rfl (Option.some.inj hfault)
      | mret => exact absurd hinsn hmret

/-- The oldest live instruction traps, with its own fault. -/
theorem trap_head_fault (htrap : s.trapValid i = true) :
    ∃ tag younger, s.rob.window = tag :: younger ∧
      (s.rob.entries tag).complete = true ∧
      s.rob.commitEntry 0 = s.rob.entries tag ∧
      (s.rob.entries tag).fault = some ((s.trap i).cause, (s.trap i).value) := by
  obtain ⟨younger, hwindow, hentry, hdone, hexception⟩ := trap_head htrap
  refine ⟨_, younger, hwindow, hdone, hentry, ?_⟩
  rw [RobEntry.fault, if_pos hexception, ← hentry]
  rfl

/-- Traps are exact.  Whatever is in flight behind it, a trap reports the cause
and the value of the fault that the ISA's machine raises at the trapping pc,
with the registers and the memory that the retired instructions leave. -/
theorem Traced.trap_exact (ht : s.Traced h) (htrap : s.trapValid i = true)
    (hmret : (s.rob.commitEntry 0).origin.insn ≠ Instr.mret.encode)
    (init : Word → BitVec 8) {pl : Platform}
    (hfetch : pl.fetch (s.trap i).pc = (s.rob.commitEntry 0).origin.insn) :
    ∃ f, (h.machineAfter init h.retired (s.trap i).pc).step pl =
        .error (.fault f) ∧
      (s.trap i).cause = f.cause ∧ (s.trap i).value = f.value := by
  obtain ⟨tag, younger, hwindow, hdone, hentry, hfault⟩ := trap_head_fault htrap
  change pl.fetch (s.rob.commitEntry 0).pc = _ at hfetch
  change ∃ f, (h.machineAfter init h.retired
    (s.rob.commitEntry 0).pc).step pl = _ ∧ _
  rw [hentry] at hmret hfetch ⊢
  obtain ⟨f, hstep, heq⟩ :=
    ht.head_fault hwindow hdone hmret hfault init hfetch
  rw [Prod.mk.injEq] at heq
  exact ⟨f, hstep, heq.1.symm, heq.2.symm⟩

/-- `addi x1, x0, 5` and `lw x2, 1(x1)`, run until the load traps. -/
def misalignedPair : List Inputs :=
  offerPair 0x00500093 0x0010A103 :: List.replicate 3 (offerPair 0 0)

theorem trap_exact_misalignedPair :
    ((reset.trace {} misalignedPair).1.trap (offerPair 0 0)).cause =
        excLoadAddrMisaligned ∧
      ((reset.trace {} misalignedPair).2.machineAfter (fun _ => 0)
          (reset.trace {} misalignedPair).2.retired 0x44).step
        ⟨fun _ => 0x0010A103, fun _ => true⟩ =
          .error (.fault (.misalignedLoad 6)) := by
  have ht := Traced.reset.trace misalignedPair
  have hinsn : ((reset.trace {} misalignedPair).1.rob.commitEntry
      0).origin.insn = 0x0010A103 := by decide +kernel
  have hpc : ((reset.trace {} misalignedPair).1.trap (offerPair 0 0)).pc =
      0x44 := by decide +kernel
  have hcause : ((reset.trace {} misalignedPair).1.trap
      (offerPair 0 0)).cause = excLoadAddrMisaligned := by decide +kernel
  have hvalue : ((reset.trace {} misalignedPair).1.trap
      (offerPair 0 0)).value = 6 := by decide +kernel
  refine ⟨hcause, ?_⟩
  have hfetch : Platform.fetch ⟨fun _ => 0x0010A103, fun _ => true⟩
      ((reset.trace {} misalignedPair).1.trap (offerPair 0 0)).pc =
        ((reset.trace {} misalignedPair).1.rob.commitEntry 0).origin.insn :=
    hinsn.symm
  obtain ⟨f, hstep, hfcause, hfvalue⟩ := ht.trap_exact (i := offerPair 0 0)
    (by decide +kernel) (by rw [hinsn]; decide) (fun _ => 0) hfetch
  rw [hpc] at hstep
  rw [hcause] at hfcause
  rw [hvalue] at hfvalue
  rw [hstep]
  cases f with
  | misalignedLoad a =>
      rw [show a = 6 from hfvalue.symm]
  | misalignedTarget | illegal | breakpoint | misalignedStore | ecall =>
      simp [Fault.cause, excLoadAddrMisaligned] at hfcause

end Head

end Backend

end OoOCore
