/-
Precise traps: on the edge that takes a trap the architectural state is the one
the instructions older than the trapping one left, and nothing speculative
survives the edge.
-/
import OoOCore.Values
import OoOCore.ControlFlow

namespace OoOCore

namespace Backend

section Pending

variable {s : Backend} {i : Inputs}

/-- Every outstanding load belongs to a dispatch that was numbered. -/
theorem Reachable.pending_uid {s : Backend} (h : s.Reachable) :
    ∀ tag, s.exec.memory.pendingValid tag = true →
      (s.exec.memory.pendingOrigin tag).uid < s.nextUid := by
  induction h with
  | reset =>
      intro tag htag
      cases htag
  | @step s hreach i ih =>
      intro tag htag
      by_cases hstart : s.exec.memory.startsLoad (s.lsuInputs i) = true ∧
          tag = (s.issueUop 0).robTag
      · obtain ⟨hstart, rfl⟩ := hstart
        obtain ⟨j, hj, -⟩ :=
          s.lsu_issueFire_source i (startsLoad_pending hstart).1
        have hnew := congrArg Held.origin
          (s.exec.memory.step_pending_started _ hstart).2.2.1
        change ((s.step i).exec.memory.pendingOrigin
          (s.issueUop 0).robTag) = (s.issueUop 0).origin at hnew
        obtain ⟨tag, hlive, huid⟩ := hreach.inFlight.held_liveUid
          (s.heldAt_iq (s.issueChoice_valid hj))
        have hlt := hreach.uidOrder.lt_next tag hlive
        rw [huid] at hlt
        rw [hnew, s.issueUop_of_choice hj]
        exact Nat.lt_of_lt_of_le hlt nextUid_le
      · obtain ⟨hsame, -, hvalid, -⟩ :=
          s.exec.memory.step_pending_other (s.lsuInputs i)
            (show _ → tag ≠ _ from fun h' heq => hstart ⟨h', heq⟩)
        change (s.step i).exec.memory.pendingValid tag = _ at hvalid
        rw [hvalid, Bool.and_eq_true] at htag
        have horigin := congrArg Held.origin hsame
        change (s.step i).exec.memory.pendingOrigin tag = _ at horigin
        rw [horigin]
        exact Nat.lt_of_lt_of_le (ih tag htag.1) nextUid_le

/-- After a flush no outstanding load does anything any more. -/
theorem Reachable.flushed_silent (hreach : s.Reachable)
    (htrap : s.trapValid i = true) {tag : RobTag}
    (hpending : (s.step i).exec.memory.pendingValid tag = true)
    (inputs : List Inputs) (i' : Inputs) :
    ¬ ((s.step i).run inputs).Acts i'
      ((s.step i).exec.memory.pendingOrigin tag).uid := by
  intro hacts
  have hnext := hreach.step i
  have hgone : (s.step i).Gone
      ((s.step i).exec.memory.pendingOrigin tag).uid := by
    refine ⟨?_, hnext.pending_uid tag hpending⟩
    rintro ⟨tag', hlive, -⟩
    rw [step_window_flush htrap] at hlive
    cases hlive
  have hlater := hnext.run inputs
  exact (hgone.run hnext inputs).1
    (hacts.live hlater.inFlight hlater.writebackValid)

theorem flush_killed (htrap : s.trapValid i = true) {tag : RobTag}
    (hpending : (s.step i).exec.memory.pendingValid tag = true) :
    (s.step i).exec.memory.pendingKilled tag = true := by
  have hnone := flush_heldAt (s := s) (i := i) htrap (.pending tag)
  by_contra hkilled
  rw [Bool.not_eq_true] at hkilled
  simp [heldAt, hpending, hkilled] at hnone

end Pending

section Trap

variable {s : Backend} {i : Inputs}

/-- The trapping instruction is the oldest live one. -/
theorem trap_head (htrap : s.trapValid i = true) :
    ∃ younger, s.rob.window = s.commitSlot 0 :: younger ∧
      s.rob.commitEntry 0 = s.rob.entries (s.commitSlot 0) ∧
      (s.rob.entries (s.commitSlot 0)).complete = true ∧
      (s.rob.entries (s.commitSlot 0)).exception = true := by
  rw [trapValid, BackendCommitStage.trapValid, Bool.and_eq_true] at htrap
  obtain ⟨hvalid, hexc⟩ := htrap
  change s.rob.commitValid 0 = true at hvalid
  change (s.rob.commitEntry 0).exception = true at hexc
  obtain ⟨hlt, hcomplete, hentry⟩ := s.commitValid_entry hvalid
  rw [hentry] at hexc
  obtain ⟨count, hcount⟩ := Nat.exists_eq_succ_of_ne_zero
    (Nat.pos_iff_ne_zero.mp (Nat.lt_of_le_of_lt (Nat.zero_le _) hlt))
  refine ⟨Ring.slots (Ring.slot s.rob.headPtr 1) count, ?_, hentry, hcomplete,
    hexc⟩
  rw [ReorderBuffer.window, hcount, Ring.slots_cons, commitSlot]
  congr 1
  exact (Ring.slot_zero _).symm

/-- A flush frees everything outside the committed map. -/
theorem flush_freeMask (hwf : s.RenamingWf) (htrap : s.trapValid i = true)
    (p : PhysReg) : (s.step i).rename.freeList.freeMask p = true ↔
      p ∉ Set.range (s.step i).rename.mapTable.committedMap := by
  have hstate := hwf.step_flush htrap
  have hfree : {p | (s.step i).rename.freeList.freeMask p = true} =
      Renaming.unused s.rename.mapTable.committedMap [] :=
    congrArg Renaming.State.free hstate
  have hmap : (s.step i).rename.mapTable.committedMap =
      s.rename.mapTable.committedMap :=
    congrArg Renaming.State.committed hstate
  have hp : (s.step i).rename.freeList.freeMask p = true ↔
      p ∈ Renaming.unused s.rename.mapTable.committedMap [] := by
    rw [← hfree]
    rfl
  rw [hp, hmap]
  simp [Renaming.unused]

/-- The trap edge of the backend, with `t` the oldest live instruction: nothing
retires, the architectural state is that of the retired instructions, and no
speculative state is left. -/
structure PreciseFlush (s : Backend) (i : Inputs) (h : History)
    (t : RobTag) : Prop where
  oldest : ∃ younger, s.rob.window = t :: younger
  complete : (s.rob.entries t).complete = true
  faults : (s.rob.entries t).exception = true
  older : ∀ uid ∈ h.uids, uid < s.uidAt t
  younger : ∀ tag ∈ s.rob.window, tag ≠ t → s.uidAt t < s.uidAt tag
  retires_none : ∀ l, s.robRetireValid i l = false
  retired : (s.observe i h).retired = h.retired
  names : (s.step i).rename.mapTable.committedMap = h.names
  registers : ∀ r, (s.step i).prf.registers
    ((s.step i).rename.mapTable.committedMap r) = h.registers r
  results : ∀ r ∈ h.retired, r.entry.writesRd = true →
    (h.result r.entry.origin.uid).isSome
  stores : h.accepted ++ s.storeBuffer.contents = h.stores
  pending : s.acceptedStores i ++ (s.step i).storeBuffer.contents =
    s.storeBuffer.contents
  rob_empty : ∀ tag, ((s.step i).rob.entries tag).valid = false
  iq_empty : ∀ j, ((s.step i).iq.entries j).valid = false
  lsq_empty : ∀ tag, ((s.step i).lsq.entries tag).valid = false
  speculative : (s.step i).rename.mapTable.speculativeMap =
    (s.step i).rename.mapTable.committedMap
  free : ∀ p, (s.step i).rename.freeList.freeMask p = true ↔
    p ∉ Set.range (s.step i).rename.mapTable.committedMap
  killed : ∀ tag, (s.step i).exec.memory.pendingValid tag = true →
    (s.step i).exec.memory.pendingKilled tag = true ∧
      ∀ inputs i', ¬ ((s.step i).run inputs).Acts i'
        ((s.step i).exec.memory.pendingOrigin tag).uid

theorem Traced.preciseFlush {h : History} (ht : s.Traced h)
    (htrap : s.trapValid i = true) :
    s.PreciseFlush i h (s.commitSlot 0) := by
  have hreach := ht.reachable
  have hnone := s.robRetireValid_of_trap i htrap
  obtain ⟨younger, hwindow, -, hcomplete, hexc⟩ := trap_head htrap
  have hretired : (s.observe i h).retired = h.retired := by
    change h.retired ++ s.retiredNow i = _
    rw [retiredNow_of_squash (Or.inl htrap), List.append_nil]
  have hvalued := ht.valued
  have hnext := (ht.step i).valued
  have horder := ht.programOrder.1
  rw [dispatchOrder, hwindow, List.map_cons, List.pairwise_append,
    List.pairwise_cons] at horder
  obtain ⟨-, ⟨hyounger, -⟩, holder⟩ := horder
  have hspec := s.step_speculativeMap_flush i htrap
  have hcommitted := s.step_committedMap_of_none i hnone
  refine ⟨⟨younger, hwindow⟩, hcomplete, hexc, ?_, ?_, hnone, hretired, ?_,
    ?_, hvalued.known, ht.accepted_append, ?_, ?_, ?_, ?_, ?_, ?_, ?_⟩
  · intro uid huid
    exact holder uid huid _ List.mem_cons_self
  · intro tag htag hne
    rw [hwindow, List.mem_cons] at htag
    exact hyounger _ (List.mem_map.mpr ⟨tag, htag.resolve_left hne, rfl⟩)
  · rw [hcommitted]
    exact hvalued.names
  · intro r
    rw [hnext.committed r, History.registers, hretired,
      foldl_write_congr fun r' hr' => ht.result_final hr']
    rfl
  · have hstep := accepted_step (i := i) hreach.storeBufferWf.wf
    rw [retiredStores, retiredNow_of_squash (Or.inl htrap)] at hstep
    rw [hstep]
    exact List.append_nil _
  · intro tag
    rw [s.step_rob_flush i htrap]
    rfl
  · intro j
    by_contra hvalid
    rw [Bool.not_eq_false] at hvalid
    have hheld := (s.step i).heldAt_iq hvalid
    rw [flush_heldAt htrap] at hheld
    cases hheld
  · intro tag
    rw [step_lsq_flush htrap]
    rfl
  · rw [hspec, hcommitted]
  · exact flush_freeMask hreach.renamingWf htrap
  · intro tag hpending
    exact ⟨flush_killed htrap hpending,
      hreach.flushed_silent htrap hpending⟩

end Trap

end Backend

namespace CSRFile

/-- What a trap does to `mstatus`, bit by bit: `MIE` moves to `MPIE`, `MPP`
becomes machine mode, and the other bits stay. -/
theorem trapStatus_getLsbD (mstatus : Word) {k : Nat} (hk : k < 32) :
    (trapStatus mstatus).getLsbD k =
      if k = 3 then false
      else if k = 7 then mstatus.getLsbD 3
      else if k = 11 ∨ k = 12 then true
      else mstatus.getLsbD k := by
  have hcleared : ∀ k : Fin 32, (~~~0x1888#32).getLsbD k =
      !decide (k = 3 ∨ k = 7 ∨ k = 11 ∨ k = 12) := by decide
  have hmachine : ∀ k : Fin 32, (0x1800#32).getLsbD k =
      decide (k = 11 ∨ k = 12) := by decide
  have hprevious : ∀ k : Fin 32, (0x80#32).getLsbD k = decide (k = 7) := by
    decide
  have hbits := hcleared ⟨k, hk⟩
  have hbits' := hmachine ⟨k, hk⟩
  have hbits'' := hprevious ⟨k, hk⟩
  simp only [Fin.ext_iff] at hbits hbits' hbits''
  rw [trapStatus, BitVec.getLsbD_or, BitVec.getLsbD_or, BitVec.getLsbD_and,
    hbits, hbits']
  cases hmie : mstatus.getLsbD 3 with
  | false =>
      simp only [Bool.false_eq_true, if_false]
      grind
  | true =>
      simp only [if_true, hbits'']
      grind

end CSRFile

namespace Core

/-- The states reached from reset, with the history of the run. -/
inductive Traced : Core → History → Prop
  | reset : Traced reset {}
  | step {c : Core} {h : History} (ht : Traced c h) (x : CoreInputs) :
      Traced (c.step x) (c.backend.observe (c.inputs x) h)

theorem Traced.backend {c : Core} {h : History} (ht : c.Traced h) :
    c.backend.Traced h := by
  induction ht with
  | reset => exact Backend.Traced.reset
  | step _ x ih => exact ih.step _

/-- What a trap on the ROB entry `t` leaves in the CSR file and where fetch
continues. -/
structure TrapEntry (c : Core) (x : CoreInputs) (t : RobEntry) : Prop where
  mepc : (c.step x).csr.mepc = t.pc &&& ~~~3#32
  mcause : (c.step x).csr.mcause = t.exceptionCause.setWidth 32
  mtval : (c.step x).csr.mtval = t.exceptionValue
  mstatus : ∀ k < 32, (c.step x).csr.mstatus.getLsbD k =
    if k = 3 then false
    else if k = 7 then c.csr.mstatus.getLsbD 3
    else if k = 11 ∨ k = 12 then true
    else c.csr.mstatus.getLsbD k
  fetch : (c.step x).pc = c.csr.mtvec &&& ~~~3#32

theorem trapEntry {c : Core} {x : CoreInputs} (htrap : c.trapValid x = true) :
    c.TrapEntry x (c.backend.rob.commitEntry 0) := by
  have hvalid : (c.backend.trap (c.inputs x)).valid = true := htrap
  have hcsr : (c.step x).csr = CSRFile.step c.csr _ _
      (c.backend.trap (c.inputs x)) _ := rfl
  rw [CSRFile.step, if_pos hvalid] at hcsr
  refine ⟨?_, ?_, ?_, ?_, ?_⟩
  · rw [hcsr]
    rfl
  · rw [hcsr]
    rfl
  · rw [hcsr]
    rfl
  · intro k hk
    rw [hcsr]
    exact CSRFile.trapStatus_getLsbD _ hk
  · change c.nextRequestPc x = _
    rw [nextRequestPc, jumpEnable, htrap, Bool.true_or, if_pos rfl,
      jumpAddress, htrap, if_pos rfl]
    rfl

/-- Traps are precise: with `t` the oldest live instruction, the edge leaves
the architectural state of the instructions older than `t`, enters the handler
from `t`, and drops everything younger. -/
theorem Traced.precise_trap {c : Core} {h : History} (ht : c.Traced h)
    {x : CoreInputs} (htrap : c.trapValid x = true) :
    ∃ t, c.backend.PreciseFlush (c.inputs x) h t ∧
      c.TrapEntry x (c.backend.rob.entries t) := by
  refine ⟨c.backend.commitSlot 0, ht.backend.preciseFlush htrap, ?_⟩
  obtain ⟨-, -, hentry, -⟩ := Backend.trap_head htrap
  rw [← hentry]
  exact trapEntry htrap

/-- An illegal word behind an `addi`, about to trap. -/
def beforeTrap : Core :=
  (((reset.step (offer 0x00500093)).step (offer 0xFFFFFFFF)).step
    (offer 0)).step (offer 0)

theorem precise_trap_beforeTrap :
    beforeTrap.trapValid (offer 0) = true ∧
      ∃ h, beforeTrap.Traced h ∧ h.uids = [0] ∧
        ∃ t, beforeTrap.backend.PreciseFlush (beforeTrap.inputs (offer 0)) h t ∧
          beforeTrap.TrapEntry (offer 0) (beforeTrap.backend.rob.entries t) := by
  have htrap : beforeTrap.trapValid (offer 0) = true := by decide +kernel
  have ht := (((Traced.reset.step (offer 0x00500093)).step
    (offer 0xFFFFFFFF)).step (offer 0)).step (offer 0)
  exact ⟨htrap, _, ht, by decide +kernel, ht.precise_trap htrap⟩

end Core

end OoOCore
