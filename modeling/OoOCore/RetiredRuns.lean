/-
The retired instructions as labels of the ISA's machine on the platform of the
core: the program in the instruction memory, the RAM, and the window of the
registers in the data memory.
-/
import OoOCore.CacheTwin
import OoOCore.FaultReports
import OoOCore.Lib.Rv32System
import OoOCore.ProgramPath

namespace OoOCore

open Rv32

/-- The platform of the core.  A zero word is no instruction: the fetch stage
skips it.  Above the window the RAM has other names for its words. -/
def platform (mem : BitVec 14 → Word) : System where
  fetch := InsnMem.wordAt mem
  plain := inRam
  device := addressIsMmio
  holds := fun pc => decide (InsnMem.wordAt mem pc ≠ 0)

section Platform

variable {mem : BitVec 14 → Word} {a : Word}

theorem platform_data_low (h : (platform mem).data a = true) :
    a.toNat < 0x10000 := by
  rw [System.data, Bool.or_eq_true] at h
  rcases h with hram | hmmio
  · change inRam a = true at hram
    rw [inRam, decide_eq_true_eq] at hram
    exact hram.trans (by decide)
  · exact Nat.lt_succ_of_le ((DataCache.addressIsMmio_iff a).mp hmmio).2

theorem platform_data_ram (h : inRam a = false) :
    (platform mem).data a = addressIsMmio a := by
  change (inRam a || addressIsMmio a) = _
  rw [h, Bool.false_or]

theorem leaves_of_blank {m : Machine} (h : InsnMem.Blank mem m.pc) :
    m.Leaves (platform mem) := by
  left
  change decide (InsnMem.wordAt mem m.pc ≠ 0) = false
  rw [decide_eq_false_iff_not, not_not]
  exact h

/-- The RAM ends below the registers, and a zero word does not decode. -/
theorem platform_regular (mem : BitVec 14 → Word) :
    (platform mem).Regular where
  apart := by
    intro a hram
    change inRam a = true at hram
    rw [inRam, decide_eq_true_eq] at hram
    change addressIsMmio a = false
    rw [Bool.eq_false_iff, ne_eq, DataCache.addressIsMmio_iff]
    omega
  held := by
    intro a i hdecode
    change decode (InsnMem.wordAt mem a) = some i at hdecode
    refine decide_eq_true ?_
    intro hzero
    rw [hzero] at hdecode
    cases hdecode

end Platform

/-- A retired instruction as a label: an MRET by where it returned to. -/
def Retired.label (result : Nat → Option Word) (r : Retired) : Label :=
  if r.entry.mret then .returns r.entry.pc r.entry.nextPc
  else .performs (r.event result)

namespace Backend

variable {mem : BitVec 14 → Word} {init : Word → BitVec 8} {s : Backend}
  {h : History} {p : Promises} {older younger : List Retired} {r : Retired}

/-- The machine takes the label of the retired instruction, and what it stores
goes below 0x10000. -/
structure Takes (mem : BitVec 14 → Word) (init : Word → BitVec 8)
    (h : History) (older : List Retired) (r : Retired) : Prop where
  takes : (h.machineAfter init older r.entry.pc).Takes (platform mem)
    (r.label h.result)
    (h.machineAfter init (older ++ [r]) r.entry.nextPc)
  low : ∀ st, r.store = some st → st.address.toNat < 0x10000

/-- An MRET writes nothing. -/
theorem Traced.event_mret (ht : s.Traced h)
    (hsplit : h.retired = older ++ r :: younger)
    (hinsn : r.entry.origin.insn = Instr.mret.encode) :
    r.event h.result = ⟨r.entry.pc, none, none⟩ := by
  have hd := decoder_mret
  rw [← hinsn] at hd
  have hdest : (decoder r.entry.origin.insn).dest = none := by
    rw [hinsn]
    exact (decoder_follows .mret).dest
  have hwrote : r.wrote h.result = none := by
    rw [← (ht.renamed hsplit).decodes.dest] at hdest
    rw [Retired.wrote]
    split
    · next hwrites =>
      rw [if_pos hwrites] at hdest
      cases hdest
    · rfl
  rw [ht.event_of_load hsplit (by rw [hd]; rfl), hwrote]

/-- Only an MRET has the label of one. -/
theorem Traced.label_eq (ht : s.Traced h)
    (hsplit : h.retired = older ++ r :: younger) {i : Instr}
    (hinsn : r.entry.origin.insn = i.encode) : r.label h.result =
      if i = .mret then .returns r.entry.pc r.entry.nextPc
      else .performs (r.event h.result) := by
  rw [Retired.label, (ht.renamed hsplit).decodes.mret, hinsn,
    (decoder_follows i).mret]
  simp only [decide_eq_true_eq]

/-- The label says what the instruction did. -/
theorem Traced.label_event? (ht : s.Traced h)
    (hsplit : h.retired = older ++ r :: younger) :
    (r.label h.result).event? = some (r.event h.result) := by
  obtain ⟨i, hi⟩ := ht.retired_decode hsplit
  have hinsn := (decode_eq_some.mp hi).symm
  rw [ht.label_eq hsplit hinsn]
  split
  · next hmret =>
    subst hmret
    rw [ht.event_mret hsplit hinsn]
    rfl
  · rfl

section Kinds

variable (hsplit : h.retired = older ++ r :: younger)
  (hword : InsnMem.wordAt mem r.entry.pc = r.entry.origin.insn) {i : Instr}
  (hinsn : r.entry.origin.insn = i.encode)

include hsplit hword hinsn

omit hsplit in
theorem decode_platform :
    decode ((platform mem).fetch (h.machineAfter init older r.entry.pc).pc) =
      some i := by
  change decode (InsnMem.wordAt mem r.entry.pc) = some i
  rw [hword]
  exact decode_eq_some.mpr hinsn.symm

/-- An instruction that the machine performs in its plain memory. -/
theorem Traced.takes_plain (ht : s.Traced h)
    (hexec : (h.machineAfter init older r.entry.pc).exec inRam i =
      .ok (r.event h.result, r.entry.nextPc))
    (hstore : (decoder r.entry.origin.insn).dataWriteEnable = false) :
    Takes mem init h older r where
  takes := by
    have hi : i ≠ .mret := by
      rintro rfl
      cases hexec
    rw [h.machineAfter_snoc init older r r.entry.pc,
      ht.label_eq hsplit hinsn, if_neg hi]
    exact .step (Machine.step_ok (decode_platform hword hinsn) hexec)
  low := by
    intro st hst
    rw [ht.store_none hsplit hstore] at hst
    cases hst

/-- An instruction whose result the platform leaves open. -/
theorem Traced.takes_read (ht : s.Traced h)
    (hreads : (h.machineAfter init older r.entry.pc).Reads (platform mem) i)
    (hstore : (decoder r.entry.origin.insn).dataWriteEnable = false)
    (hbranch : (decoder r.entry.origin.insn).branchCtr = .none) :
    Takes mem init h older r where
  takes := by
    have hdest : (decoder r.entry.origin.insn).dest = i.dest := by
      rw [hinsn]
      exact (decoder_follows i).dest
    have hwrote : r.wrote h.result = i.dest.map fun rd =>
        (rd, (h.result r.entry.origin.uid).getD 0) := by
      rw [← hdest, ← (ht.renamed hsplit).decodes.dest, Retired.wrote]
      split <;> rfl
    have hi : i ≠ .mret := by
      rintro rfl
      exact hreads
    rw [h.machineAfter_snoc init older r r.entry.pc,
      ht.label_eq hsplit hinsn, if_neg hi, ht.event_of_load hsplit hstore,
      hwrote, ht.nextPc_none hsplit hbranch]
    exact .read _ (decode_platform hword hinsn) hreads
  low := by
    intro st hst
    rw [ht.store_none hsplit hstore] at hst
    cases hst

/-- MRET goes on where it says. -/
theorem Traced.takes_mret (ht : s.Traced h) (hmret : i = .mret) :
    Takes mem init h older r where
  takes := by
    subst hmret
    rw [h.machineAfter_snoc init older r r.entry.pc,
      ht.label_eq hsplit hinsn, if_pos rfl, ht.event_mret hsplit hinsn]
    exact .mret _ (decode_platform hword hinsn)
  low := by
    subst hmret
    intro st hst
    rw [ht.store_none hsplit (by rw [hinsn, decoder_mret]; rfl)] at hst
    cases hst

end Kinds

section Accesses

variable {rd rs1 rs2 : ArchReg} {imm : BitVec 12}
  (hsplit : h.retired = older ++ r :: younger)
  (hword : InsnMem.wordAt mem r.entry.pc = r.entry.origin.insn)

include hsplit hword

/-- A retired store is performed where something answers it. -/
theorem Traced.takes_store (ht : s.Traced h) {k : StoreKind}
    (hinsn : r.entry.origin.insn = (Instr.store k rs1 rs2 imm).encode) :
    Takes mem init h older r ∨
      (h.machineAfter init older r.entry.pc).Leaves (platform mem) := by
  have hexec : (h.machineAfter init older r.entry.pc).exec (platform mem).data
      (.store k rs1 rs2 imm) = _ := ht.retired_store hsplit hinsn
  have haligned : (h.registersAfter older rs1 +
      imm.signExtend 32).toNat % k.width = 0 := by
    by_contra hmisaligned
    have hfault := (h.machineAfter init older r.entry.pc).exec_store_misaligned
      (platform mem).data rs2 hmisaligned
    rw [hexec] at hfault
    split at hfault <;> cases hfault
  change _ = if (platform mem).data (h.registersAfter older rs1 +
    imm.signExtend 32) then _ else _ at hexec
  cases hdata : (platform mem).data
      (h.registersAfter older rs1 + imm.signExtend 32) with
  | true =>
      rw [hdata, if_pos rfl] at hexec
      have hevent := (h.machineAfter init older r.entry.pc).exec_store
        (platform mem).data rs2 haligned
      rw [hexec] at hevent
      change _ = if (platform mem).data (h.registersAfter older rs1 +
        imm.signExtend 32) then _ else _ at hevent
      rw [hdata, if_pos rfl, Except.ok.injEq, Prod.mk.injEq] at hevent
      left
      refine ⟨?_, ?_⟩
      · rw [h.machineAfter_snoc init older r r.entry.pc,
          ht.label_eq hsplit hinsn, if_neg nofun]
        refine .store (decode_platform hword hinsn) hexec ?_
        rw [hevent.1]
        rfl
      · intro st hst
        have hstore := congrArg Event.store hevent.1
        rw [Retired.event, hst, Option.map_some, Option.some.injEq] at hstore
        have haddress : st.address = h.registersAfter older rs1 +
          imm.signExtend 32 := congrArg StoreEvent.address hstore
        rw [haddress]
        exact platform_data_low hdata
  | false =>
      right
      exact Or.inr ⟨_, decode_platform hword hinsn, haligned, hdata⟩

/-- A retired load is performed in the RAM, read from a register of the window,
or goes astray. -/
theorem PortRun.takes_load (hr : PortRun inRam init s h p) {k : LoadKind}
    (hinsn : r.entry.origin.insn = (Instr.load k rd rs1 imm).encode) :
    Takes mem init h older r ∨
      (h.machineAfter init older r.entry.pc).Leaves (platform mem) := by
  have hd := decoder_load k rd rs1 imm
  rw [← hinsn] at hd
  have hexec := hr.retired_load hsplit hinsn
  have haligned : (h.registersAfter older rs1 +
      imm.signExtend 32).toNat % k.width = 0 := by
    by_contra hmisaligned
    have hfault := (h.machineAfter init older r.entry.pc).exec_load_misaligned
      inRam rd hmisaligned
    rw [hexec] at hfault
    split at hfault <;> cases hfault
  cases hram : inRam (h.registersAfter older rs1 + imm.signExtend 32) with
  | true =>
      rw [hram, if_pos rfl] at hexec
      left
      exact hr.traced.takes_plain hsplit hword hinsn hexec (by rw [hd]; rfl)
  | false =>
      cases hmmio : addressIsMmio (h.registersAfter older rs1 +
          imm.signExtend 32) with
      | true =>
          left
          exact hr.traced.takes_read hsplit hword hinsn ⟨haligned, hmmio⟩
            (by rw [hd]; rfl) (by rw [hd]; rfl)
      | false =>
          right
          refine Or.inr ⟨_, decode_platform hword hinsn, haligned, ?_⟩
          exact (platform_data_ram hram).trans hmmio

/-- Every retired instruction is a label of the machine, unless the machine
leaves the platform there. -/
theorem PortRun.retired_takes (hr : PortRun inRam init s h p) :
    Takes mem init h older r ∨
      (h.machineAfter init older r.entry.pc).Leaves (platform mem) := by
  have ht := hr.traced
  obtain ⟨i, hi⟩ := ht.retired_decode hsplit
  have hinsn := (decode_eq_some.mp hi).symm
  have hplain (hexec : (h.machineAfter init older r.entry.pc).exec inRam i ≠
      .error .outside)
      (hstore : (decoder r.entry.origin.insn).dataWriteEnable = false) :
      Takes mem init h older r := by
    rcases hr.retired_step hsplit hinsn with hok | hout
    · exact ht.takes_plain hsplit hword hinsn hok hstore
    · exact absurd hout hexec
  cases i with
  | int i =>
      left
      apply hplain
      · rw [Machine.exec]
        split <;> simp
      · rw [hinsn]
        exact (decoder_int_class i).2.1
  | load k rd rs1 imm => exact hr.takes_load hsplit hword hinsn
  | store k rs1 rs2 imm => exact ht.takes_store hsplit hword hinsn
  | fence rd rs1 imm =>
      left
      apply hplain
      · simp [Machine.exec]
      · rw [hinsn, decoder_fence]
        rfl
  | fenceI =>
      left
      apply hplain
      · simp [Machine.exec]
      · rw [hinsn, decoder_fenceI]
        rfl
  | csr k rd rs1 addr =>
      left
      exact ht.takes_read hsplit hword hinsn trivial
        (by rw [hinsn, decoder_csr]; rfl) (by rw [hinsn, decoder_csr]; rfl)
  | csrImm k rd zimm addr =>
      left
      exact ht.takes_read hsplit hword hinsn trivial
        (by rw [hinsn, decoder_csrImm]; rfl)
        (by rw [hinsn, decoder_csrImm]; rfl)
  | ecall =>
      left
      apply hplain
      · simp [Machine.exec]
      · rw [hinsn, decoder_ecall]
        rfl
  | ebreak =>
      left
      apply hplain
      · simp [Machine.exec]
      · rw [hinsn, decoder_ebreak]
        rfl
  | mret =>
      left
      exact ht.takes_mret hsplit hword hinsn rfl

end Accesses

/-- The labels of some retired instructions. -/
def labelsOf (result : Nat → Option Word) (retired : List Retired) :
    List Label :=
  retired.map (Retired.label result)

/-- A run of the machine goes on along the retired instructions, unless it
leaves the platform on the way. -/
theorem PortRun.retired_runs (hr : PortRun inRam init s h p) {start : Machine}
    {labels : List Label} {pc : Word} {more : List Retired}
    (hsplit : h.retired = older ++ (more ++ younger))
    (hrun : start.Runs (platform mem) labels (h.machineAfter init older pc))
    (hpath : Link.Follows (InsnMem.Blank mem) pc (more.map Retired.link))
    (hfetched : ∀ r ∈ more, r.entry.Fetched mem) :
    (start.Runs (platform mem) (labels ++ labelsOf h.result more)
        (h.machineAfter init (older ++ more)
          (Link.endOf pc (more.map Retired.link))) ∧
      ∀ r ∈ more, ∀ st, r.store = some st → st.address.toNat < 0x10000) ∨
    start.Departs (platform mem) (labels ++ labelsOf h.result more) := by
  induction more generalizing older labels pc with
  | nil =>
      left
      rw [labelsOf, List.map_nil, List.append_nil, List.append_nil]
      exact ⟨hrun, fun _ hmem => absurd hmem List.not_mem_nil⟩
  | cons r rest ih =>
      obtain ⟨hplace, hrest⟩ := hpath
      by_cases hblank : InsnMem.Blank mem pc
      · right
        exact (hrun.departs (leaves_of_blank hblank)).append _
      have hpc : r.entry.pc = pc := hplace.resolve_right hblank
      subst hpc
      have hfetch := hfetched r List.mem_cons_self
      rcases hr.retired_takes hsplit hfetch.word.symm with htakes | hleaves
      · have hnext := hrun.snoc (decide_eq_true hblank) htakes.takes
        have hsplit' : h.retired = (older ++ [r]) ++ (rest ++ younger) := by
          rw [hsplit, List.append_assoc]
          rfl
        have hlabels : labels ++ labelsOf h.result (r :: rest) =
            labels ++ [r.label h.result] ++
              labelsOf h.result rest := by
          rw [List.append_assoc]
          rfl
        have hmore : older ++ r :: rest = older ++ [r] ++ rest := by
          rw [List.append_assoc]
          rfl
        rw [hlabels, hmore]
        rcases ih hsplit' hnext hrest
          (fun x hx => hfetched x (List.mem_cons_of_mem r hx)) with
          ⟨hend, hlow⟩ | hdeparts
        · left
          refine ⟨hend, ?_⟩
          intro x hx
          rcases List.mem_cons.mp hx with rfl | hx
          · exact htakes.low
          · exact hlow x hx
        · right
          exact hdeparts
      · right
        exact (hrun.departs hleaves).append _

section Traps

variable {i : Inputs} {tag : RobTag} {younger : List RobTag}

/-- An MRET at the head has no fault but a misaligned return. -/
theorem Traced.head_mret (ht : s.Traced h)
    (hwindow : s.rob.window = tag :: younger)
    (hdone : (s.rob.entries tag).complete = true)
    (hmret : (s.rob.entries tag).origin.insn = Instr.mret.encode)
    {fault : Cause × Word} (hfault : (s.rob.entries tag).fault = some fault) :
    ∃ target, fault = ((Fault.misalignedTarget target).cause, target) := by
  have hlive : tag ∈ s.rob.window := by
    rw [hwindow]
    exact List.mem_cons_self
  have hdecodes := (ht.reachable.renamed tag hlive).decodes
  rw [hmret] at hdecodes
  obtain ⟨q, hq, hunit⟩ :=
    ht.head_integer hwindow hdone hdecodes.isMemory_of
  have hexc : q.uop.decodeException = false := by
    rw [hq.uop.controls.2.2.2, hmret, decoder_mret]
  rw [hunit, OoOExecutionUnit.execute_fault hq.uop.accesses,
    ← hq.uop.accesses.decodeException, hexc, if_neg Bool.false_ne_true]
    at hfault
  split at hfault
  · exact ⟨_, (Option.some.inj hfault).symm⟩
  · cases hfault

/-- A trap is a label of the machine. -/
theorem Traced.trap_takes (ht : s.Traced h) (htrap : s.trapValid i = true)
    (init : Word → BitVec 8) (vector : Word)
    (hword : InsnMem.wordAt mem (s.trap i).pc =
      (s.rob.commitEntry 0).origin.insn) :
    (h.machineAfter init h.retired (s.trap i).pc).Takes (platform mem)
      (.traps (s.trap i).pc (s.trap i).cause (s.trap i).value vector)
      (h.machineAfter init h.retired vector) := by
  obtain ⟨tag, younger, hwindow, hdone, hentry, hfault⟩ := trap_head_fault htrap
  have hpc : (s.trap i).pc = (s.rob.entries tag).pc := by
    rw [← hentry]
    rfl
  rw [hentry, hpc] at hword
  rw [hpc]
  by_cases hmret : (s.rob.entries tag).origin.insn = Instr.mret.encode
  · obtain ⟨target, htarget⟩ := ht.head_mret hwindow hdone hmret hfault
    rw [Prod.mk.injEq] at htarget
    rw [htarget.1, htarget.2]
    exact .mretTrap target vector (decode_eq_some.mpr (hmret.symm.trans
      hword.symm))
  · have hfetch : (platform mem).toPlatform.fetch (s.rob.entries tag).pc =
        (s.rob.entries tag).origin.insn := hword
    obtain ⟨f, hstep, heq⟩ :=
      ht.head_fault hwindow hdone hmret hfault init hfetch
    rw [Prod.mk.injEq] at heq
    rw [← heq.1, ← heq.2]
    exact .trap vector hstep

end Traps

end Backend

end OoOCore
