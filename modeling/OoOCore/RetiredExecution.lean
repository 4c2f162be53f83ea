/-
Retired integer instructions against the ISA: each one was run on the
architectural registers that the instructions retired before it leave, and its
result, its next pc and its fault are the ISA's.
-/
import OoOCore.Dataflow
import OoOCore.Lib.Rv32Machine

namespace OoOCore

open Rv32

/-- An element of two lists in a row is in the first or in the second. -/
theorem append_eq_split {α : Type*} {l m older younger : List α} {a : α}
    (h : l ++ m = older ++ a :: younger) :
    (∃ rest, l = older ++ a :: rest) ∨
      ∃ rest, older = l ++ rest ∧ m = rest ++ a :: younger := by
  rcases List.append_eq_append_iff.mp h with
    ⟨rest, hl, hm⟩ | ⟨rest, hl, hm⟩
  · exact Or.inr ⟨rest, hl, hm⟩
  · cases rest with
    | nil =>
        right
        refine ⟨[], ?_, ?_⟩
        · rw [hl, List.append_nil, List.append_nil]
        · exact hm.symm
    | cons b rest =>
        injection hm with hb hm
        subst hb
        exact Or.inl ⟨rest, hl⟩

/-- The entry is the one rename made of an instruction word. -/
def RobEntry.Renamed (e : RobEntry) : Prop :=
  ∃ packet ctx, packet.insn ≠ 0 ∧
    e.atDispatch = (RenameStage.robEntry (idStage packet) ctx).atDispatch

namespace RobEntry

variable {e e' : RobEntry}

theorem Renamed.of_atDispatch (h : e.Renamed)
    (heq : e'.atDispatch = e.atDispatch) : e'.Renamed := by
  obtain ⟨packet, ctx, hinsn, he⟩ := h
  exact ⟨packet, ctx, hinsn, heq.trans he⟩

/-- The fields of an entry that its instruction word decides. -/
structure Decodes (e : RobEntry) (d : Decoded) : Prop where
  isMemory : e.isMemory = (d.dataWriteEnable || d.wbSelect == .mem)
  isStore : e.isStore = d.dataWriteEnable
  isBranch : e.isBranch = (d.branchCtr != .none)
  mret : e.mret = d.mret
  dest : (if e.writesRd then some e.archRd else none) = d.dest

theorem Renamed.decodes (h : e.Renamed) :
    e.Decodes (decoder e.origin.insn) := by
  obtain ⟨packet, ctx, hinsn, he⟩ := h
  have horigin := congrArg RobEntry.origin he
  change e.origin = ⟨ctx.uid, packet.insn⟩ at horigin
  have hmem := congrArg RobEntry.isMemory he
  change e.isMemory = (RenameStage.fuClassOf (idStage packet) == .memory)
    at hmem
  have hstore := congrArg RobEntry.isStore he
  have hbranch := congrArg RobEntry.isBranch he
  have hmret := congrArg RobEntry.mret he
  have hwrites := congrArg RobEntry.writesRd he
  change e.writesRd = RenameStage.writesDestination (idStage packet)
    at hwrites
  have hrd := congrArg RobEntry.archRd he
  change e.archRd = if RenameStage.writesDestination (idStage packet) then
    (decoder packet.insn).rd else 0 at hrd
  rw [horigin]
  constructor
  · rw [hmem]
    exact fuClassOf_memory packet
  · exact hstore
  · exact hbranch
  · exact hmret
  · have hdest : RenameStage.writesDestination (idStage packet) =
        ((decoder packet.insn).registerWriteEnable &&
          decide ((decoder packet.insn).rd ≠ 0)) := by
      rw [RenameStage.writesDestination,
        show (idStage packet).valid = true from decide_eq_true hinsn,
        Bool.true_and]
      rfl
    rw [hrd, hwrites, hdest, Decoded.dest]
    by_cases hwrite : (decoder packet.insn).registerWriteEnable = true ∧
        (decoder packet.insn).rd ≠ 0
    · simp [hwrite]
    · simp only [Bool.and_eq_true, decide_eq_true_eq, hwrite, if_false]

end RobEntry

namespace Backend

/-- A retired instruction after a cycle was retired before, or it retires now
behind the live instructions in front of it. -/
theorem retired_split {s : Backend} {i : Inputs} {h : History}
    {older younger : List Retired} {r : Retired}
    (hsplit : (s.observe i h).retired = older ++ r :: younger) :
    (∃ rest, h.retired = older ++ r :: rest) ∨
      ∃ before tag behind, s.rob.window = before ++ tag :: behind ∧
        tag ∈ s.rob.window.take (s.retireCount i) ∧
        older = h.retired ++ before.map (fun t =>
          s.retire (s.rob.entries t)) ∧
        r = s.retire (s.rob.entries tag) := by
  rcases append_eq_split hsplit with ⟨rest, hold⟩ | ⟨rest, rfl, hnew⟩
  · exact Or.inl ⟨rest, hold⟩
  · right
    rw [retiredNow_eq, List.map_eq_append_iff] at hnew
    obtain ⟨tags, tail, htake, rfl, htail⟩ := hnew
    obtain ⟨tag, tags', rfl, rfl, -⟩ := List.map_eq_cons_iff.mp htail
    refine ⟨tags, tag, tags' ++ s.rob.window.drop (s.retireCount i), ?_, ?_,
      rfl, rfl⟩
    · rw [← List.cons_append, ← List.append_assoc, ← htake,
        List.take_append_drop]
    · rw [htake]
      exact List.mem_append_right _ List.mem_cons_self

/-- What holds of every retired instruction and those before it: it stays as
the run goes on, and it holds of the instructions a cycle retires. -/
theorem Traced.retired_induction
    {P : History → List Retired → Retired → Prop}
    (keep : ∀ (s : Backend) (h : History) (i : Inputs) older r,
      s.Traced h → (∀ r' ∈ older, r' ∈ h.retired) → r ∈ h.retired →
        P h older r → P (s.observe i h) older r)
    (retire : ∀ (s : Backend) (h : History) (i : Inputs) older tag younger,
      s.Traced h → s.rob.window = older ++ tag :: younger →
        tag ∈ s.rob.window.take (s.retireCount i) →
          P (s.observe i h)
            (h.retired ++ older.map fun t => s.retire (s.rob.entries t))
            (s.retire (s.rob.entries tag)))
    {s : Backend} {h : History} (ht : s.Traced h) :
    ∀ older r younger, h.retired = older ++ r :: younger → P h older r := by
  induction ht with
  | reset =>
      intro older r younger hsplit
      exact absurd hsplit (by simp)
  | @step s h ht i ih =>
      intro older r younger hsplit
      rcases retired_split hsplit with
        ⟨rest, hold⟩ | ⟨before, tag, behind, hwindow, htag, rfl, rfl⟩
      · refine keep s h i older r ht ?_ ?_ (ih older r rest hold)
        · intro r' hr'
          rw [hold]
          exact List.mem_append_left _ hr'
        · rw [hold]
          exact List.mem_append_right _ List.mem_cons_self
      · exact retire s h i before tag behind ht hwindow htag

/-- The producer of a register for a retired instruction. -/
def producerAfter (older : List Retired) (r : ArchReg) : Option Nat :=
  lastWrite (older.filterMap fun x => x.entry.write) r

/-- A retired integer instruction is what its unit computed from the port. -/
structure RanFrom (h : History) (older : List Retired) (r : Retired)
    (p : IssuePort) : Prop where
  fed : Fed h.result (producerAfter older) r.entry p
  clean : OoOExecutionUnit.executeException p = false
  result : ∀ value, h.result r.entry.origin.uid = some value →
    value = OoOExecutionUnit.selectedResult p
  outcome : r.entry.isBranch = true → r.entry.outcome =
    ⟨OoOExecutionUnit.branchTaken p, OoOExecutionUnit.branchTarget p⟩

section Retired

variable {s : Backend} {i : Inputs} {h : History}

theorem Reachable.renamed {s : Backend} (hreach : s.Reachable) :
    ∀ tag ∈ s.rob.window, (s.rob.entries tag).Renamed := by
  induction hreach with
  | reset =>
      intro tag hlive
      cases hlive
  | @step s hreach i ih =>
      intro tag hnew
      have htrap := not_trap_of_live hnew
      have hc := hreach.countable
      have hs : s.RobReady i := hreach.inFlight.robReady
      by_cases hold : tag ∈ s.rob.window
      · exact (ih tag hold).of_atDispatch
          (hs.step_survivor hc htrap hold hnew).1
      · obtain ⟨hrec, l, hl, rfl⟩ := hs.step_new hc hold hnew
        rw [(hs.step_dispatched hc htrap hrec hl).2.2]
        refine ⟨i.packet l, s.laneContext i l, ?_, rfl⟩
        rw [robAllocValid, Bool.and_eq_true] at hl
        exact of_decide_eq_true hl.2

theorem Traced.renamed (ht : s.Traced h) {older younger : List Retired}
    {r : Retired} (hsplit : h.retired = older ++ r :: younger) :
    r.entry.Renamed := by
  refine ht.retired_induction (P := fun _ _ r => r.entry.Renamed) ?_ ?_ older
    r younger hsplit
  · intro s h i older r _ _ _ hbefore
    exact hbefore
  · intro s h i older tag younger ht _ htag
    exact ht.reachable.renamed tag (List.mem_of_mem_take htag)

/-- The producers of a retiring instruction are the retired ones before it. -/
theorem producerOf_retiring (hwf : s.rob.Wf) {older younger : List RobTag}
    {tag : RobTag} (hwindow : s.rob.window = older ++ tag :: younger) :
    s.producerOf h tag = producerAfter
      (h.retired ++ older.map fun t => s.retire (s.rob.entries t)) := by
  funext r
  rw [producerOf, writesBefore, olderThan_eq hwf hwindow, producerAfter,
    List.filterMap_append, List.filterMap_map]
  rfl

/-- What is live and complete has left the issue queue. -/
theorem InFlight.not_waiting (hs : s.InFlight) {tag : RobTag}
    (hdone : (s.rob.entries tag).complete = true) : ¬ s.Waiting tag := by
  rintro ⟨j, hvalid, rfl⟩
  obtain ⟨hplace, -⟩ := hs.incomplete _ _ (s.heldAt_iq hvalid) hdone
  cases hplace

theorem Traced.ranFrom_retiring (ht : s.Traced h)
    {older younger : List RobTag} {tag : RobTag}
    (hwindow : s.rob.window = older ++ tag :: younger)
    (htag : tag ∈ s.rob.window.take (s.retireCount i))
    (hinteger : s.isMemoryTag tag = false) :
    ∃ p, RanFrom (s.observe i h)
      (h.retired ++ older.map fun t => s.retire (s.rob.entries t))
      (s.retire (s.rob.entries tag)) p := by
  have hs := ht.reachable.inFlight
  have hlive := List.mem_of_mem_take htag
  obtain ⟨hdone, hclean⟩ := retired_complete htag
  obtain ⟨p, hp⟩ := ht.dataflowLive tag hlive hinteger (hs.not_waiting hdone)
  have hexc : OoOExecutionUnit.executeException p = false := by
    have hfault := hp.fault hdone
    rw [RobEntry.fault_eq_none.mpr hclean] at hfault
    exact Completion.fault_eq_none.mp hfault.symm
  refine ⟨p, ?_, hexc, ?_, ?_⟩
  · have hfed := hp.fed.observe (i := i) ht
    rw [producerOf_retiring hs.rob hwindow] at hfed
    exact hfed
  · intro value hresult
    exact hp.written ht hlive hresult
  · intro hbranch
    exact hp.outcome hbranch hexc

/-- Every retired integer instruction was run on the values that the last
retired writers of its sources produced. -/
theorem Traced.ranFrom (ht : s.Traced h) {older younger : List Retired}
    {r : Retired} (hsplit : h.retired = older ++ r :: younger)
    (hinteger : r.entry.isMemory = false) : ∃ p, RanFrom h older r p := by
  refine ht.retired_induction
    (P := fun h older r => r.entry.isMemory = false → ∃ p, RanFrom h older r p)
    ?_ ?_ older r younger hsplit hinteger
  · intro s h i older r ht _ hr hbefore hclass
    obtain ⟨p, hp⟩ := hbefore hclass
    refine ⟨p, hp.fed.observe ht, hp.clean, ?_, hp.outcome⟩
    intro value hresult
    rw [ht.result_final hr] at hresult
    exact hp.result value hresult
  · intro s h i older tag younger ht hwindow htag hclass
    exact ht.ranFrom_retiring hwindow htag hclass

end Retired

end Backend

section Architecture

/-- The registers that some retired instructions leave. -/
def History.registersAfter (h : History) (retired : List Retired) :
    ArchReg → Word :=
  retired.foldl (Retired.write h.result) fun _ => 0

/-- The register a retired instruction writes, with its value. -/
def Retired.wrote (result : Nat → Option Word) (r : Retired) :
    Option (ArchReg × Word) :=
  if r.entry.writesRd then
    some (r.entry.archRd, (result r.entry.origin.uid).getD 0)
  else none

/-- Where an instruction goes on: to the target its branch resolved to, or
behind it. -/
def RobEntry.nextPc (e : RobEntry) : Word :=
  if e.isBranch && e.branchTaken then e.branchTarget else e.pc + 4

theorem Backend.produced_register {h : History} {older : List Retired}
    {r : ArchReg} {value : Word}
    (hp : Produced h.result value (Backend.producerAfter older r)) :
    value = h.registersAfter older r := by
  rw [History.registersAfter, foldl_write_last]
  rw [Backend.producerAfter] at hp
  cases hlast : lastWrite (older.filterMap fun x => x.entry.write) r with
  | none =>
      rw [hlast] at hp
      exact hp
  | some uid =>
      rw [hlast] at hp
      change h.result uid = some value at hp
      simp only [hp, Option.getD_some]

/-- An integer instruction accesses neither memory nor a CSR. -/
theorem decoder_int_class (i : IntInstr) :
    (decoder i.encode).wbSelect ≠ .mem ∧
      (decoder i.encode).dataWriteEnable = false ∧
      (decoder i.encode).wbSelect ≠ .csr := by
  have hfollows := decoder_follows_int i
  refine ⟨?_, ?_, ?_⟩
  · intro hmem
    simpa [hmem] using hfollows.load
  · by_contra hwrite
    simpa [hwrite] using hfollows.store
  · intro hsel
    simpa [hsel] using hfollows.csr

namespace Uop

variable {u : Uop} {e : RobEntry}

/-- The uop of an entry carries the controls of its instruction word. -/
theorem Paired.controls (h : u.Paired e) :
    u.pc = e.pc ∧ u.useRs1 = (decoder e.origin.insn).useRs1 ∧
      u.useRs2 = (decoder e.origin.insn).useRs2 ∧
      u.decodeException = (decoder e.origin.insn).decodeException := by
  obtain ⟨packet, ctx, r1, r2, rfl, he, -⟩ := h
  have horigin := congrArg RobEntry.origin he
  change e.origin = ⟨ctx.uid, packet.insn⟩ at horigin
  have hpc := congrArg RobEntry.pc he
  change e.pc = packet.pc at hpc
  rw [horigin, hpc]
  exact ⟨rfl, rfl, rfl, rfl⟩

theorem Paired.carries {i : IntInstr} (h : u.Paired e)
    (hinsn : e.origin.insn = i.encode) : u.Carries (decoder i.encode) := by
  obtain ⟨packet, ctx, r1, r2, rfl, he, -⟩ := h
  have horigin := congrArg RobEntry.origin he
  change e.origin = ⟨ctx.uid, packet.insn⟩ at horigin
  rw [horigin] at hinsn
  change packet.insn = i.encode at hinsn
  obtain ⟨hload, hstore, hcsr⟩ := decoder_int_class i
  rw [← hinsn] at hload hstore hcsr ⊢
  change (idStage packet).wbSelect ≠ .mem at hload
  change (idStage packet).dataWriteEnable = false at hstore
  change (idStage packet).wbSelect ≠ .csr at hcsr
  refine ⟨?_, rfl, rfl, rfl, rfl, rfl, rfl, rfl, rfl⟩
  change RenameStage.fuClassOf (idStage packet) =
    if (idStage packet).branchCtr = .none then .integer else .branch
  rw [RenameStage.fuClassOf, if_neg hcsr, if_neg (by simp [hstore, hload])]
  by_cases hnone : (idStage packet).branchCtr = .none
  · rw [if_neg (not_not_intro hnone), if_pos hnone]
  · rw [if_pos hnone, if_neg hnone]

end Uop

/-- An unfaulting integer uop leaves its result and its next pc. -/
theorem OoOExecutionUnit.exec_eq {p : IssuePort} {i : IntInstr}
    (h : p.uop.Carries (decoder i.encode))
    (hclean : executeException p = false) :
    i.exec p.uop.pc p.sourceA p.sourceB =
      .ok ⟨(Instr.int i).dest.map fun rd => (rd, selectedResult p),
        branchActualNext p⟩ := by
  have hvalue : (i.value p.uop.pc p.sourceA p.sourceB).filter (·.1 ≠ 0) =
      (Instr.int i).dest.map fun rd => (rd, selectedResult p) := by
    rw [← value_filter i p.uop.pc p.sourceA p.sourceB]
    cases hwrite :
        (i.value p.uop.pc p.sourceA p.sourceB).filter (·.1 ≠ 0) with
    | none => rfl
    | some w =>
        rw [Option.map_some, Option.map_some,
          selectedResult_eq h (Option.filter_eq_some_iff.mp hwrite).1]
  have haligned : targetMisaligned p = false := by
    rw [executeException, Bool.or_eq_false_iff] at hclean
    exact hclean.2
  rw [targetMisaligned_eq h] at haligned
  rw [IntInstr.exec, hvalue, branchActualNext_eq h]
  cases ht : i.transfer p.uop.pc p.sourceA p.sourceB with
  | none => rfl
  | some target =>
      rw [ht, Option.any_some, decide_eq_false_iff_not] at haligned
      simp only [if_neg haligned]
      rfl

/-- An integer uop that is no branch goes on behind itself. -/
theorem OoOExecutionUnit.branchActualNext_none {p : IssuePort}
    (h : p.uop.branchCtr = .none) : branchActualNext p = p.uop.pc + 4 := by
  rw [branchActualNext, branchTaken, h]
  rfl

namespace Backend

variable {s : Backend} {h : History} {older younger : List Retired}
  {r : Retired} {i : IntInstr}

/-- The port holds the architectural registers before the instruction. -/
theorem Fed.operands {e : RobEntry} {p : IssuePort}
    (hf : Fed h.result (producerAfter older) e p)
    (hinsn : e.origin.insn = i.encode) :
    ((Instr.int i).source1.isSome → p.sourceA =
        operand (h.registersAfter older) (Instr.int i).source1) ∧
      ((Instr.int i).source2.isSome → p.sourceB =
        operand (h.registersAfter older) (Instr.int i).source2) := by
  obtain ⟨-, huse1, huse2, -⟩ := hf.uop.controls
  have hfollows := decoder_follows_int i
  rw [← hinsn] at hfollows
  constructor
  · intro hsome
    rw [← hfollows.source1, Decoded.source1] at hsome ⊢
    split at hsome
    · next huse =>
      rw [if_pos huse]
      exact produced_register (hf.source1 (huse1.trans huse))
    · cases hsome
  · intro hsome
    rw [← hfollows.source2, Decoded.source2] at hsome ⊢
    split at hsome
    · next huse =>
      rw [if_pos huse]
      exact produced_register (hf.source2 (huse2.trans huse))
    · cases hsome

/-- A retired instruction wrote its result to the destination it decodes to. -/
theorem Traced.wrote_eq (ht : s.Traced h)
    (hsplit : h.retired = older ++ r :: younger) {value : Word}
    (hvalue : ∀ v, h.result r.entry.origin.uid = some v → v = value) :
    r.wrote h.result =
      (decoder r.entry.origin.insn).dest.map fun rd => (rd, value) := by
  rw [← (ht.renamed hsplit).decodes.dest, Retired.wrote]
  cases hwrites : r.entry.writesRd with
  | false => rfl
  | true =>
      have hr : r ∈ h.retired := by
        rw [hsplit]
        exact List.mem_append_right _ List.mem_cons_self
      obtain ⟨v, hresult⟩ := Option.isSome_iff_exists.mp
        (ht.valued.known r hr hwrites)
      rw [if_pos rfl, if_pos rfl, hresult, Option.getD_some, Option.map_some,
        hvalue v hresult]

/-- What is no branch goes on behind itself. -/
theorem Traced.nextPc_none (ht : s.Traced h)
    (hsplit : h.retired = older ++ r :: younger)
    (hnone : (decoder r.entry.origin.insn).branchCtr = .none) :
    r.entry.nextPc = r.entry.pc + 4 := by
  have hbranch : r.entry.isBranch = false := by
    rw [(ht.renamed hsplit).decodes.isBranch, hnone]
    rfl
  rw [RobEntry.nextPc, hbranch, Bool.false_and, if_neg Bool.false_ne_true]

/-- An instruction in the middle of the retired ones did what its port says: it
wrote the result, and it went on where the port's branch goes. -/
theorem RanFrom.effects {p : IssuePort} (hp : RanFrom h older r p)
    (ht : s.Traced h) (hsplit : h.retired = older ++ r :: younger) :
    r.wrote h.result = (decoder r.entry.origin.insn).dest.map
        (fun rd => (rd, OoOExecutionUnit.selectedResult p)) ∧
      r.entry.nextPc =
        if (decoder r.entry.origin.insn).branchCtr = .none then
          r.entry.pc + 4
        else OoOExecutionUnit.branchActualNext p := by
  refine ⟨ht.wrote_eq hsplit hp.result, ?_⟩
  by_cases hnone : (decoder r.entry.origin.insn).branchCtr = .none
  · rw [ht.nextPc_none hsplit hnone, if_pos hnone]
  · have hbranch : r.entry.isBranch = true := by
      rw [(ht.renamed hsplit).decodes.isBranch]
      exact bne_iff_ne.mpr hnone
    have houtcome := hp.outcome hbranch
    have htaken := congrArg BranchOutcome.taken houtcome
    have htarget := congrArg BranchOutcome.target houtcome
    change r.entry.branchTaken = _ at htaken
    change r.entry.branchTarget = _ at htarget
    rw [RobEntry.nextPc, hbranch, Bool.true_and, htaken, htarget,
      if_neg hnone, OoOExecutionUnit.branchActualNext, hp.fed.uop.controls.1]

/-- A retired instruction that ran as an integer instruction follows the
ISA. -/
theorem RanFrom.exec_int {p : IssuePort} (hp : RanFrom h older r p)
    (ht : s.Traced h) (hsplit : h.retired = older ++ r :: younger)
    (hinsn : r.entry.origin.insn = i.encode) :
    i.exec r.entry.pc
        (operand (h.registersAfter older) (Instr.int i).source1)
        (operand (h.registersAfter older) (Instr.int i).source2) =
      .ok ⟨r.wrote h.result, r.entry.nextPc⟩ := by
  have hcarries := hp.fed.uop.carries hinsn
  obtain ⟨ha, hb⟩ := hp.fed.operands hinsn
  obtain ⟨hwrote, hnext⟩ := hp.effects ht hsplit
  have hbranch : r.entry.nextPc = OoOExecutionUnit.branchActualNext p := by
    rw [hnext]
    split
    · next hnone =>
      rw [OoOExecutionUnit.branchActualNext_none, hp.fed.uop.controls.1]
      rw [hcarries.branchCtr, ← hinsn]
      exact hnone
    · rfl
  rw [← IntInstr.exec_congr ha hb, ← hp.fed.uop.controls.1,
    OoOExecutionUnit.exec_eq hcarries hp.clean, hwrote, hbranch, hinsn,
    (decoder_follows_int i).dest]

/-- Retired integer instructions follow the ISA.  Whatever the issue order, the
predictions and the squashed work around it, a retired integer instruction wrote
what the ISA computes from its pc and the registers that the instructions
retired before it leave, and went on where the ISA does; none of them faults. -/
theorem Traced.retired_integer (ht : s.Traced h)
    (hsplit : h.retired = older ++ r :: younger)
    (hinsn : r.entry.origin.insn = i.encode) :
    i.exec r.entry.pc
        (operand (h.registersAfter older) (Instr.int i).source1)
        (operand (h.registersAfter older) (Instr.int i).source2) =
      .ok ⟨r.wrote h.result, r.entry.nextPc⟩ := by
  obtain ⟨hload, hstore, -⟩ := decoder_int_class i
  have hinteger : r.entry.isMemory = false := by
    rw [(ht.renamed hsplit).decodes.isMemory, hinsn, hstore, Bool.false_or]
    exact beq_eq_false_iff_ne.mpr hload
  obtain ⟨p, hp⟩ := ht.ranFrom hsplit hinteger
  exact hp.exec_int ht hsplit hinsn

/-- An element of a list between those before and those behind it. -/
theorem split_at {α : Type*} {l : List α} {k : Nat} {a : α}
    (hk : l[k]? = some a) : l = l.take k ++ a :: l.drop (k + 1) := by
  obtain ⟨hlt, rfl⟩ := List.getElem?_eq_some_iff.mp hk
  rw [← List.drop_eq_getElem_cons hlt, List.take_append_drop]

/-- The dependent pair, run until both have retired. -/
def retiredPair : List Inputs := dependentPair ++ List.replicate 3 (offerPair 0 0)

theorem retired_integer_retiredPair :
    (reset.trace {} retiredPair).2.registersAfter
        ((reset.trace {} retiredPair).2.retired.take 1) 1 = 1 ∧
      (IntInstr.opImm .addi 2 1 2).exec 0x44
          (operand ((reset.trace {} retiredPair).2.registersAfter
            ((reset.trace {} retiredPair).2.retired.take 1)) (some 1))
          (operand ((reset.trace {} retiredPair).2.registersAfter
            ((reset.trace {} retiredPair).2.retired.take 1)) none) =
        .ok ⟨some (2, 3), 0x48⟩ := by
  refine ⟨by decide +kernel, ?_⟩
  have hfacts : ((reset.trace {} retiredPair).2.retired[1]?).map (fun r =>
      (r.entry.origin.insn, r.entry.pc,
        r.wrote (reset.trace {} retiredPair).2.result, r.entry.nextPc)) =
      some ((IntInstr.opImm .addi 2 1 2).encode, 0x44, some (2, 3), 0x48) := by
    decide +kernel
  obtain ⟨r, hr, heq⟩ := Option.map_eq_some_iff.mp hfacts
  obtain ⟨hinsn, hrest⟩ := Prod.mk.inj heq
  obtain ⟨hpc, hrest⟩ := Prod.mk.inj hrest
  obtain ⟨hwrote, hnext⟩ := Prod.mk.inj hrest
  have hexec := (Traced.reset.trace retiredPair).retired_integer (split_at hr)
    hinsn
  rw [hpc, hwrote, hnext] at hexec
  exact hexec

end Backend

end Architecture

end OoOCore
