/-
The retired instructions as steps of the ISA's machine: its registers and its
memory are what the instructions retired before leave, and it does with each
instruction what the core did.
-/
import OoOCore.RetiredLoads

namespace OoOCore

open Rv32

section Accesses

variable (a : Word)

/-- An access is misaligned when its address is no multiple of its size. -/
theorem misaligned_iff (access : MemAccess) :
    LoadStoreExecutionUnit.misaligned access a = true ↔
      a.toNat % access.width ≠ 0 := by
  cases access with
  | byte | byteU => simp [LoadStoreExecutionUnit.misaligned, MemAccess.width,
      Nat.mod_one]
  | half | halfU => simp [LoadStoreExecutionUnit.misaligned, MemAccess.width,
      BitVec.getLsbD]
  | word =>
      rw [LoadStoreExecutionUnit.misaligned, decide_eq_true_eq,
        MemAccess.width, ← byteOffset_toNat, ne_eq, ← BitVec.toNat_inj]
      rfl

theorem aligned_iff (access : MemAccess) :
    LoadStoreExecutionUnit.misaligned access a = false ↔
      a.toNat % access.width = 0 := by
  rw [← Bool.not_eq_true, misaligned_iff, not_not]

theorem loadKindAccess_width (k : LoadKind) :
    (loadKindAccess k).width = k.width := by
  cases k <;> rfl

theorem storeKindAccess_width (k : StoreKind) :
    (storeKindAccess k).width = k.width := by
  cases k <;> rfl

theorem loadValue_read (m : Word → BitVec 8) (k : LoadKind) :
    loadValue m a (loadKindAccess k) = k.read m a := by
  cases k <;> rfl

/-- The store of an access size. -/
def storeKindOf : MemAccess → StoreKind
  | .byte => .sb
  | .half => .sh
  | _ => .sw

theorem storeKindOf_access (k : StoreKind) :
    storeKindOf (storeKindAccess k) = k := by
  cases k <;> rfl

end Accesses

/-- A store request as the ISA's machine performs it. -/
def StoreRequest.event (r : StoreRequest) : StoreEvent :=
  ⟨storeKindOf r.access, r.address, r.data⟩

theorem StoreRequest.after_event (r : StoreRequest) (m : Word → BitVec 8) :
    Overwrite.after m [r.byte] =
      r.event.kind.write m r.event.address r.event.value := by
  have hwidth : (storeKindOf r.access).width = r.access.storeWidth := by
    cases r.access <;> rfl
  funext x
  rw [← List.nil_append [r.byte], Overwrite.after_snoc, Overwrite.after_nil]
  simp only [StoreRequest.byte, StoreRequest.event, StoreKind.write, hwidth]
  split <;> rfl

/-- What a retired instruction did to the registers and the memory. -/
def Retired.event (result : Nat → Option Word) (r : Retired) : Event where
  pc := r.entry.pc
  write := r.wrote result
  store := r.store.map StoreRequest.event

/-- The machine at the instruction behind some retired ones. -/
def History.machineAfter (h : History) (init : Word → BitVec 8)
    (older : List Retired) (pc : Word) : Machine where
  pc := pc
  regs := h.registersAfter older
  mem := Backend.memoryAfter init older

/-- The event of a retired instruction leads to the machine behind it. -/
theorem History.machineAfter_snoc (h : History) (init : Word → BitVec 8)
    (older : List Retired) (r : Retired) (pc next : Word) :
    h.machineAfter init (older ++ [r]) next =
      (h.machineAfter init older pc).apply (r.event h.result) next := by
  have hregs : h.registersAfter (older ++ [r]) =
      ((h.machineAfter init older pc).apply (r.event h.result) next).regs := by
    rw [registersAfter, List.foldl_append]
    change Retired.write h.result (h.registersAfter older) r = _
    simp only [Machine.apply, Retired.event, Retired.write, Retired.wrote,
      machineAfter]
    cases r.entry.writesRd <;> rfl
  have hmem : Backend.memoryAfter init (older ++ [r]) =
      ((h.machineAfter init older pc).apply (r.event h.result) next).mem := by
    rw [Backend.memoryAfter, List.filterMap_append, List.map_append]
    simp only [Machine.apply, Retired.event, machineAfter]
    cases hstore : r.store with
    | none =>
        rw [List.filterMap_cons, hstore, List.filterMap_nil, List.map_nil,
          List.append_nil]
        rfl
    | some req =>
        rw [List.filterMap_cons, hstore]
        funext x
        rw [Overwrite.after_append]
        exact congrFun (req.after_event _) x
  rw [machineAfter, hregs, hmem]
  rfl

/-- A word that encodes nothing is an illegal instruction. -/
theorem decoder_of_decode_none {insn : Word} (h : decode insn = none) :
    (decoder insn).decodeException = true ∧
      (decoder insn).decodeExceptionCause = excIllegalInsn ∧
      (decoder insn).exceptionValue = insn := by
  have hillegal : (decoder insn).Illegal := by
    rw [illegal_iff]
    intro i hi
    rw [decode_eq_some.mpr hi] at h
    cases h
  have htrap : (if (decoder insn).decodeException then
      some (decoder insn).decodeExceptionCause else none) =
      some excIllegalInsn := hillegal
  split at htrap
  · next hexc =>
    have hcause := Option.some.inj htrap
    refine ⟨hexc, hcause, ?_⟩
    have harm := decoder_arm insn
    generalize decoder insn = d at harm hcause hexc ⊢
    cases harm with
    | op | opImm | load | store | branch | jal | lui | auipc | fence | other =>
        rfl
    | jalr =>
        unfold decodeJalr
        split <;> rfl
    | system =>
        unfold decodeSystem decodePrivileged at hcause ⊢
        repeat' split
        all_goals try rfl
        all_goals simp_all [excIllegalInsn, excEcallMmode, excBreakpoint]
  · cases htrap

namespace Backend

section Retired

variable {s : Backend} {h : History} {older younger : List Retired}
  {r : Retired}

/-- The decoder accepted what has retired. -/
theorem Traced.retired_legal (ht : s.Traced h)
    (hsplit : h.retired = older ++ r :: younger) :
    (decoder r.entry.origin.insn).decodeException = false := by
  cases hmemory : r.entry.isMemory with
  | false =>
      obtain ⟨p, hp⟩ := ht.ranFrom hsplit hmemory
      have hclean := hp.clean
      rw [OoOExecutionUnit.executeException, Bool.or_eq_false_iff] at hclean
      rw [← hp.fed.uop.controls.2.2.2]
      exact hclean.1
  | true =>
      obtain ⟨base, ha⟩ := ht.accessedFrom hsplit hmemory
      exact (Decoded.accessFault_eq_none.mp ha.clean).1

/-- Every retired word is an instruction. -/
theorem Traced.retired_decode (ht : s.Traced h)
    (hsplit : h.retired = older ++ r :: younger) :
    ∃ i, decode r.entry.origin.insn = some i := by
  cases hi : decode r.entry.origin.insn with
  | some i => exact ⟨i, rfl⟩
  | none =>
      have hexc := (decoder_of_decode_none hi).1
      rw [ht.retired_legal hsplit] at hexc
      cases hexc

/-- What is no store leaves no request. -/
theorem Traced.store_none (ht : s.Traced h)
    (hsplit : h.retired = older ++ r :: younger)
    (hkind : (decoder r.entry.origin.insn).dataWriteEnable = false) :
    r.store = none := by
  have hnone := ht.retired_store_isSome hsplit
  rwa [(ht.renamed hsplit).decodes.isStore, hkind, Bool.and_false,
    Option.isSome_eq_false_iff, Option.isNone_iff_eq_none] at hnone

/-- What leaves no request performs no store. -/
theorem Traced.event_of_load (ht : s.Traced h)
    (hsplit : h.retired = older ++ r :: younger)
    (hkind : (decoder r.entry.origin.insn).dataWriteEnable = false) :
    r.event h.result = ⟨r.entry.pc, r.wrote h.result, none⟩ := by
  rw [Retired.event, ht.store_none hsplit hkind]
  rfl

/-- A retired instruction without a result and without a branch. -/
theorem Traced.event_of_plain (ht : s.Traced h)
    (hsplit : h.retired = older ++ r :: younger)
    (hwrite : (decoder r.entry.origin.insn).registerWriteEnable = false)
    (hbranch : (decoder r.entry.origin.insn).branchCtr = .none) :
    r.wrote h.result = none ∧ r.entry.nextPc = r.entry.pc + 4 := by
  refine ⟨?_, ht.nextPc_none hsplit hbranch⟩
  have hdest := (ht.renamed hsplit).decodes.dest
  have hnone : (decoder r.entry.origin.insn).dest = none := by
    rw [Decoded.dest, hwrite]
    exact if_neg fun h => Bool.false_ne_true h.1
  rw [hnone] at hdest
  rw [Retired.wrote]
  cases hwrites : r.entry.writesRd with
  | false => rfl
  | true =>
      rw [hwrites, if_pos rfl] at hdest
      cases hdest

/-- A retired instruction that only goes on. -/
theorem Traced.retired_fence (ht : s.Traced h)
    (hsplit : h.retired = older ++ r :: younger)
    (hwrite : (decoder r.entry.origin.insn).registerWriteEnable = false)
    (hstore : (decoder r.entry.origin.insn).dataWriteEnable = false)
    (hbranch : (decoder r.entry.origin.insn).branchCtr = .none) :
    (Except.ok (⟨r.entry.pc, none, none⟩, r.entry.pc + 4) :
        Except Halt (Event × Word)) =
      .ok (r.event h.result, r.entry.nextPc) := by
  obtain ⟨hwrote, hnext⟩ := ht.event_of_plain hsplit hwrite hbranch
  rw [ht.event_of_load hsplit hstore, hwrote, hnext]

end Retired

section Memory

variable {covered : Word → Bool} {init : Word → BitVec 8} {s : Backend}
  {h : History} {p : Promises} {older younger : List Retired} {r : Retired}
  {rd rs1 rs2 : ArchReg} {imm : BitVec 12}

/-- The machine performs a retired store as the core did, if its address is
covered. -/
theorem Traced.retired_store (ht : s.Traced h)
    (hsplit : h.retired = older ++ r :: younger) {k : StoreKind}
    (hinsn : r.entry.origin.insn = (Instr.store k rs1 rs2 imm).encode) :
    (h.machineAfter init older r.entry.pc).exec covered
        (.store k rs1 rs2 imm) =
      if covered (h.registersAfter older rs1 + imm.signExtend 32) then
        .ok (r.event h.result, r.entry.nextPc)
      else .error .outside := by
  have hd := decoder_store k rs1 rs2 imm
  rw [← hinsn] at hd
  have hdecodes := (ht.renamed hsplit).decodes
  have hmemory : r.entry.isMemory = true := by
    rw [hdecodes.isMemory, hd]
    rfl
  have hkind : r.entry.isStore = true := by
    rw [hdecodes.isStore, hd]
  obtain ⟨base, ha⟩ := ht.accessedFrom hsplit hmemory
  obtain ⟨value, hvalue, hstore⟩ := ha.store hkind
  have hclean := (Decoded.accessFault_eq_none.mp ha.clean).2
  have hsource := ha.source
  rw [hd] at hsource hvalue hstore hclean
  have hbase := produced_register hsource
  have hdata := produced_register hvalue
  change base = h.registersAfter older rs1 at hbase
  change value = h.registersAfter older rs2 at hdata
  subst hbase hdata
  obtain ⟨hwrote, hnext⟩ := ht.event_of_plain hsplit (by rw [hd]; rfl)
    (by rw [hd]; rfl)
  have hevent : r.event h.result = ⟨r.entry.pc, none, some ⟨k,
      h.registersAfter older rs1 + imm.signExtend 32,
      h.registersAfter older rs2⟩⟩ := by
    rw [Retired.event, hwrote, hstore, Option.map_some, StoreRequest.event,
      storeKindOf_access]
  have haligned : (h.registersAfter older rs1 +
      imm.signExtend 32).toNat % k.width = 0 := by
    rw [← storeKindAccess_width, ← aligned_iff]
    exact hclean
  rw [hevent, hnext]
  exact (h.machineAfter init older r.entry.pc).exec_store covered rs2 haligned

/-- The machine performs a retired load as the core did, if its address is
covered. -/
theorem PortRun.retired_load (hr : PortRun covered init s h p)
    (hsplit : h.retired = older ++ r :: younger) {k : LoadKind}
    (hinsn : r.entry.origin.insn = (Instr.load k rd rs1 imm).encode) :
    (h.machineAfter init older r.entry.pc).exec covered
        (.load k rd rs1 imm) =
      if covered (h.registersAfter older rs1 + imm.signExtend 32) then
        .ok (r.event h.result, r.entry.nextPc)
      else .error .outside := by
  have ht := hr.traced
  have hd := decoder_load k rd rs1 imm
  rw [← hinsn] at hd
  have hdecodes := (ht.renamed hsplit).decodes
  have hmemory : r.entry.isMemory = true := by
    rw [hdecodes.isMemory, hd]
    rfl
  have hkind : r.entry.isStore = false := by
    rw [hdecodes.isStore, hd]
    rfl
  obtain ⟨base, hl⟩ := hr.loadedFrom hsplit hmemory
  have hclean := (Decoded.accessFault_eq_none.mp hl.accessed.clean).2
  have hsource := hl.accessed.source
  have hvalue := hl.value hkind
  rw [hd] at hsource hvalue hclean
  have hbase := produced_register hsource
  change base = h.registersAfter older rs1 at hbase
  subst hbase
  have hdest : (decoder r.entry.origin.insn).dest =
      (Instr.load k rd rs1 imm).dest := by
    rw [hinsn]
    exact (decoder_follows _).dest
  have haligned : (h.registersAfter older rs1 +
      imm.signExtend 32).toNat % k.width = 0 := by
    rw [← loadKindAccess_width, ← aligned_iff]
    exact hclean
  rw [(h.machineAfter init older r.entry.pc).exec_load covered rd haligned]
  change (if covered (h.registersAfter older rs1 + imm.signExtend 32) then _
    else _) = _
  split
  · next hcovered =>
    have hwrote := ht.wrote_eq hsplit (hvalue hcovered)
    rw [ht.event_of_load hsplit (by rw [hd]; rfl), hwrote, hdest,
      ht.nextPc_none hsplit (by rw [hd]; rfl), loadValue_read]
    rfl
  · rfl

/-- Every retired instruction is a step of the ISA's machine, unless the ISA's
platform leaves it open. -/
theorem PortRun.retired_step (hr : PortRun covered init s h p)
    (hsplit : h.retired = older ++ r :: younger) {i : Instr}
    (hinsn : r.entry.origin.insn = i.encode) :
    (h.machineAfter init older r.entry.pc).exec covered i =
        .ok (r.event h.result, r.entry.nextPc) ∨
      (h.machineAfter init older r.entry.pc).exec covered i =
        .error .outside := by
  have ht := hr.traced
  have hlegal := ht.retired_legal hsplit
  have hfollows := decoder_follows i
  rw [← hinsn] at hfollows
  cases i with
  | int i =>
      left
      obtain ⟨hload, hstore, -⟩ := decoder_int_class i
      rw [show i.encode = r.entry.origin.insn from hinsn.symm]
        at hload hstore
      have hinteger : r.entry.isMemory = false := by
        rw [(ht.renamed hsplit).decodes.isMemory, hstore, Bool.false_or]
        exact beq_eq_false_iff_ne.mpr hload
      obtain ⟨q, hq⟩ := ht.ranFrom hsplit hinteger
      have hexec := hq.exec_int ht hsplit hinsn
      rw [ht.event_of_load hsplit hstore]
      simp only [Machine.exec, History.machineAfter, hexec]
  | load k rd rs1 imm =>
      rw [hr.retired_load hsplit hinsn]
      split
      · exact Or.inl rfl
      · exact Or.inr rfl
  | store k rs1 rs2 imm =>
      rw [ht.retired_store hsplit hinsn]
      split
      · exact Or.inl rfl
      · exact Or.inr rfl
  | fence rd rs1 imm =>
      left
      have hd := decoder_fence rd rs1 imm
      rw [← hinsn] at hd
      exact ht.retired_fence hsplit (by rw [hd]; rfl) (by rw [hd]; rfl)
        (by rw [hd]; rfl)
  | fenceI =>
      left
      have hd := decoder_fenceI
      rw [← hinsn] at hd
      exact ht.retired_fence hsplit (by rw [hd]; rfl) (by rw [hd]; rfl)
        (by rw [hd]; rfl)
  | csr | csrImm | mret => exact Or.inr rfl
  | ecall =>
      rw [hinsn, decoder_ecall] at hlegal
      cases hlegal
  | ebreak =>
      rw [hinsn, decoder_ebreak] at hlegal
      cases hlegal

/-- Retirement follows the ISA.  In every run against a port that behaves as a
memory on the covered addresses, a retired word is an instruction, and the
ISA's machine, with the registers and the memory that the instructions retired
before it leave, performs it with the same effects and the same next pc, which
leads to the machine behind it; or the platform leaves the instruction open. -/
theorem PortRun.retired_exact (hr : PortRun covered init s h p)
    (hsplit : h.retired = older ++ r :: younger) :
    ∃ i, decode r.entry.origin.insn = some i ∧
      (((h.machineAfter init older r.entry.pc).exec covered i =
            .ok (r.event h.result, r.entry.nextPc) ∧
          h.machineAfter init (older ++ [r]) r.entry.nextPc =
            (h.machineAfter init older r.entry.pc).apply (r.event h.result)
              r.entry.nextPc) ∨
        (h.machineAfter init older r.entry.pc).exec covered i =
          .error .outside) := by
  obtain ⟨i, hi⟩ := hr.traced.retired_decode hsplit
  refine ⟨i, hi, ?_⟩
  rcases hr.retired_step hsplit (decode_eq_some.mp hi).symm with hok | hout
  · exact Or.inl ⟨hok, h.machineAfter_snoc init older r _ _⟩
  · exact Or.inr hout

/-- A run in which the port does not respond. -/
theorem PortRun.quiet (hr : PortRun covered init s h p)
    {inputs : List Inputs}
    (hquiet : ∀ i ∈ inputs, i.response.valid = false) :
    ∃ p', PortRun covered init (s.trace h inputs).1 (s.trace h inputs).2 p' := by
  induction inputs generalizing s h p with
  | nil => exact ⟨p, hr⟩
  | cons i rest ih =>
      have ha : s.Answered i p := by
        intro hvalid
        rw [hquiet i List.mem_cons_self] at hvalid
        cases hvalid
      apply ih (hr.step i ha)
      intro i' hi'
      exact hquiet i' (List.mem_cons_of_mem _ hi')

/-- `addi x1, x0, 5`, `sw x1, 0(x0)` and `lw x2, 0(x0)`, run until all have
retired. -/
def storedLoad : List Inputs :=
  [offerPair 0x00500093 0x00102023, offerPair 0x00002103 0] ++
    List.replicate 4 (offerPair 0 0)

theorem retired_exact_storedLoad :
    ((reset.trace {} storedLoad).2.machineAfter (fun _ => 0xff)
        ((reset.trace {} storedLoad).2.retired.take 2) 0x40).exec
          (fun _ => true) (.load .lw 2 0 0) =
      .ok (⟨0x40, some (2, 5), none⟩, 0x44) := by
  have hquiet : ∀ i ∈ storedLoad, i.response.valid = false := by decide
  have hstart : PortRun (fun _ => true) (fun _ => 0xff) reset {}
      fun _ => none := PortRun.reset
  obtain ⟨p, hr⟩ := hstart.quiet hquiet
  have hfacts : ((reset.trace {} storedLoad).2.retired[2]?).map (fun r =>
      (r.entry.origin.insn, r.entry.pc, r.event
        (reset.trace {} storedLoad).2.result, r.entry.nextPc)) =
      some (0x00002103, 0x40, ⟨0x40, some (2, 5), none⟩, 0x44) := by
    decide +kernel
  obtain ⟨r, hr2, heq⟩ := Option.map_eq_some_iff.mp hfacts
  obtain ⟨hinsn, hrest⟩ := Prod.mk.inj heq
  obtain ⟨hpc, hrest⟩ := Prod.mk.inj hrest
  obtain ⟨hevent, hnext⟩ := Prod.mk.inj hrest
  obtain ⟨i, hi, hstep⟩ := hr.retired_exact (split_at hr2)
  rw [hinsn, show (0x00002103 : Word) = (Instr.load .lw 2 0 0).encode by rfl,
    decode_encode] at hi
  cases hi
  rw [hpc, hevent, hnext] at hstep
  rcases hstep with ⟨hok, -⟩ | hout
  · exact hok
  · rw [Machine.exec_load _ _ 2 (by decide +kernel), if_pos rfl] at hout
    cases hout

end Memory

end Backend

end OoOCore
