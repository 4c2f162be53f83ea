/-
No uop is lost or duplicated: in every reachable state the incomplete ROB
entries and the uops held in the issue queue, the completion registers and the
LSU pending slots correspond one to one.
-/
import OoOCore.Places
import OoOCore.RobStep

namespace OoOCore

/-- The uop and the ROB entry were made by one rename; readiness, completion
and branch resolution may have changed since. -/
def Uop.Paired (u : Uop) (e : RobEntry) : Prop :=
  ∃ packet ctx r1 r2,
    u = (RenameStage.renamedUop (idStage packet) ctx).withReady r1 r2 ∧
      e.atDispatch = (RenameStage.robEntry (idStage packet) ctx).atDispatch ∧
      (RenameStage.writesDestination (idStage packet) = false →
        ctx.destinationPhys = 0)

/-- The entry is the one the held uop was dispatched with. -/
structure Held.Matches (h : Held) (e : RobEntry) : Prop where
  origin : e.origin = h.origin
  writes : h.writes = true → e.writesRd = true ∧ e.newPhys = h.dest

section Pairing

variable {u : Uop} {e e' : RobEntry}

theorem Uop.Paired.withReady (h : u.Paired e) (r1 r2 : Bool) :
    (u.withReady r1 r2).Paired e := by
  obtain ⟨packet, ctx, s1, s2, rfl, he, hdest⟩ := h
  exact ⟨packet, ctx, r1, r2, rfl, he, hdest⟩

theorem Uop.Paired.of_atDispatch (h : u.Paired e)
    (heq : e'.atDispatch = e.atDispatch) : u.Paired e' := by
  obtain ⟨packet, ctx, r1, r2, hu, he, hdest⟩ := h
  exact ⟨packet, ctx, r1, r2, hu, heq.trans he, hdest⟩

theorem Uop.Paired.isBranch (h : u.Paired e) (hclass : u.fuClass = .branch) :
    e.isBranch = true := by
  obtain ⟨packet, ctx, r1, r2, rfl, he, -⟩ := h
  have hbranch : e.isBranch = ((idStage packet).branchCtr != .none) :=
    congrArg RobEntry.isBranch he
  rw [hbranch]
  change RenameStage.fuClassOf (idStage packet) = .branch at hclass
  unfold RenameStage.fuClassOf at hclass
  split at hclass
  · cases hclass
  · split at hclass
    · cases hclass
    · split at hclass
      · next hne => simpa using hne
      · cases hclass

/-- A control transfer is no memory operation and no CSR access. -/
theorem Uop.Paired.fuClass (h : u.Paired e)
    (hbranch : e.isBranch = true) : u.fuClass = .branch := by
  obtain ⟨packet, ctx, r1, r2, rfl, he, -⟩ := h
  have hctr : e.isBranch = ((idStage packet).branchCtr != .none) :=
    congrArg RobEntry.isBranch he
  rw [hbranch] at hctr
  have hne : (decoder packet.insn).branchCtr ≠ .none := by
    simpa [idStage] using hctr.symm
  have hcons := decoder_consistent packet.insn
  have hcsr : (decoder packet.insn).wbSelect ≠ .csr :=
    fun h => hne (hcons.csr h).2
  have hmem : ¬ ((decoder packet.insn).dataWriteEnable ∨
      (decoder packet.insn).wbSelect = .mem) := by
    rintro (h | h)
    · exact hne (hcons.store h).2.1
    · exact hne (hcons.load h).2
  change RenameStage.fuClassOf (idStage packet) = .branch
  simp only [RenameStage.fuClassOf, idStage, hcsr, hmem, hne, if_false,
    ne_eq, not_false_eq_true, if_true]

theorem Uop.Paired.memory (h : u.Paired e) :
    e.isMemory = (u.fuClass == .memory) ∧ e.lsqTag = u.lsqTag ∧
      e.isStore = u.dataWriteEnable := by
  obtain ⟨packet, ctx, r1, r2, rfl, he, -⟩ := h
  exact ⟨congrArg RobEntry.isMemory he, congrArg RobEntry.lsqTag he,
    congrArg RobEntry.isStore he⟩

/-- The access of a uop is the one its instruction word names. -/
theorem Uop.Paired.memCtr (h : u.Paired e) :
    u.memCtr = (decoder e.origin.insn).memCtr := by
  obtain ⟨packet, ctx, r1, r2, rfl, he, -⟩ := h
  have horigin : e.origin = ⟨ctx.uid, packet.insn⟩ :=
    congrArg RobEntry.origin he
  rw [horigin]
  rfl

theorem Uop.Paired.matches_held (h : u.Paired e) : u.held.Matches e := by
  obtain ⟨packet, ctx, r1, r2, rfl, he, hdest⟩ := h
  refine ⟨congrArg RobEntry.origin he, fun hw => ?_⟩
  have hwrites : e.writesRd = RenameStage.writesDestination (idStage packet) :=
    congrArg RobEntry.writesRd he
  have hnew : e.newPhys = ctx.destinationPhys := congrArg RobEntry.newPhys he
  refine ⟨?_, hnew⟩
  rw [hwrites]
  by_contra hnot
  rw [Bool.not_eq_true] at hnot
  simp [Uop.held, RenameStage.renamedUop, Uop.withReady, hdest hnot] at hw

theorem Held.Matches.of_atDispatch {h : Held} (hm : h.Matches e)
    (heq : e'.atDispatch = e.atDispatch) : h.Matches e' where
  origin := (congrArg RobEntry.origin heq).trans hm.origin
  writes := fun hw =>
    ⟨(congrArg RobEntry.writesRd heq).trans (hm.writes hw).1,
      (congrArg RobEntry.newPhys heq).trans (hm.writes hw).2⟩

theorem Held.Matches.follows {h h' : Held} (hm : h.Matches e)
    (hf : h'.Follows h) : h'.Matches e where
  origin := hm.origin.trans hf.origin.symm
  writes := fun hw =>
    ⟨(hm.writes (hf.writes hw).1).1,
      (hm.writes (hf.writes hw).1).2.trans (hf.writes hw).2.symm⟩

end Pairing

namespace Backend

/-- The preceding cycle recovered on the branch with this tag. -/
def JustRecovered (s : Backend) (tag : RobTag) : Prop :=
  ∃ (s0 : Backend) (i : Inputs), s0.Reachable ∧ s = s0.step i ∧
    s0.trapValid i = false ∧ s0.recoveryValid i = true ∧
    tag = s0.recoveryTag i

/-- The held uops and the incomplete ROB entries name each other. -/
structure InFlight (s : Backend) : Prop where
  rob : s.rob.Wf
  paired : ∀ j, (s.iq.entries j).valid = true →
    (s.iq.entries j).Paired (s.rob.entries (s.iq.entries j).robTag)
  live : ∀ p h, s.heldAt p = some h → h.robTag ∈ s.rob.window
  matched : ∀ p h, s.heldAt p = some h → h.Matches (s.rob.entries h.robTag)
  distinct : ∀ p q h h', s.heldAt p = some h → s.heldAt q = some h' →
    h.robTag = h'.robTag → p = q
  incomplete : ∀ p h, s.heldAt p = some h →
    (s.rob.entries h.robTag).complete = true →
      p = .secondary ∧ s.JustRecovered h.robTag
  held : ∀ tag ∈ s.rob.window, (s.rob.entries tag).complete = false →
    ∃ p h, s.heldAt p = some h ∧ h.robTag = tag

section Recovery

variable (s : Backend) (i : Inputs)

/-- A resolution comes from a branch that leaves the issue queue on port 1. -/
theorem resolved_held (hres : (s.branch i).resolved = true) :
    ∃ j, (s.iq.entries j).valid = true ∧
      s.moves i (.iq j) = some .secondary ∧
      (s.iq.entries j).robTag = (s.branch i).robTag ∧
      (s.iq.entries j).origin = (s.branch i).origin ∧
      (s.iq.entries j).fuClass = .branch := by
  rw [branch_resolved] at hres
  have hreport := s.branch_eq_of_resolved i hres
  simp only [OoOExecutionUnit.branchResolved, Bool.and_eq_true,
    beq_iff_eq] at hres
  obtain ⟨j, hj, hvalid, hmoves, huop⟩ := s.secondaryPort_source i hres.1.1.1
  rw [hreport]
  refine ⟨j, hvalid, hmoves, (congrArg Held.robTag huop).symm,
    (congrArg Held.origin huop).symm, ?_⟩
  have hclass := hres.2
  change (s.issueUop 1).fuClass = .branch at hclass
  rw [s.issueUop_of_choice hj] at hclass
  exact hclass

theorem recovery_resolved (h : s.recoveryValid i = true) :
    (s.branch i).resolved = true := by
  rw [recoveryValid, branch_mispredicted,
    OoOExecutionUnit.branchMispredicted, Bool.and_eq_true] at h
  rw [branch_resolved]
  exact h.1

/-- The branch of a recovery resolves in the same cycle. -/
theorem recovery_source (hrec : s.recoveryValid i = true) :
    ∃ j, (s.iq.entries j).valid = true ∧
      s.moves i (.iq j) = some .secondary ∧
      (s.iq.entries j).robTag = s.recoveryTag i ∧
      (s.iq.entries j).fuClass = .branch := by
  obtain ⟨j, hvalid, hmoves, htag, -, hclass⟩ :=
    s.resolved_held i (s.recovery_resolved i hrec)
  exact ⟨j, hvalid, hmoves, htag, hclass⟩

theorem heldAt_iq {j : IqIndex} (hvalid : (s.iq.entries j).valid = true) :
    s.heldAt (.iq j) = some (s.iq.entries j).held := by
  rw [heldAt, if_pos hvalid]

variable {s i}

theorem InFlight.recover_live (hs : s.InFlight)
    (hrec : s.recoveryValid i = true) : s.recoveryTag i ∈ s.rob.window := by
  obtain ⟨j, hvalid, -, htag, -⟩ := s.recovery_source i hrec
  rw [← htag]
  exact hs.live _ _ (s.heldAt_iq hvalid)

/-- The entry a recovery names is a branch. -/
theorem InFlight.recover_isBranch (hs : s.InFlight)
    (hrec : s.recoveryValid i = true) :
    (s.rob.entries (s.recoveryTag i)).isBranch = true := by
  obtain ⟨j, hvalid, -, htag, hclass⟩ := s.recovery_source i hrec
  rw [← htag]
  exact (hs.paired j hvalid).isBranch hclass

theorem InFlight.robReady (hs : s.InFlight) : s.RobReady i where
  wf := hs.rob
  recover_live := hs.recover_live

end Recovery

section Flush

variable {s : Backend} {i : Inputs}

/-- A flush leaves no place occupied. -/
theorem flush_heldAt (htrap : s.trapValid i = true) (p : Place) :
    (s.step i).heldAt p = none := by
  have hflush : (s.lsuInputs i).flush = true := htrap
  cases p with
  | iq j =>
      have hiq : (s.step i).iq = IssueQueue.reset := by
        change IssueQueue.step _ (s.trapValid i) _ _ _ _ _ _ = _
        rw [htrap]
        rfl
      rw [heldAt, hiq]
      rfl
  | primary =>
      have hprimary : (s.step i).exec.primary =
          OoOExecutionUnit.cleared s.exec.primary := by
        change OoOExecutionUnit.step _ (s.trapValid i) _ _ = _
        rw [OoOExecutionUnit.step, htrap]
        rfl
      rw [heldAt, hprimary]
      rfl
  | secondary =>
      have hsecondary : (s.step i).exec.secondary =
          OoOExecutionUnit.cleared s.exec.secondary := by
        change OoOExecutionUnit.step _ (s.trapValid i) _ _ = _
        rw [OoOExecutionUnit.step, htrap]
        rfl
      rw [heldAt, hsecondary]
      rfl
  | lsu =>
      have hmemory : (s.step i).exec.memory.completion =
          OoOExecutionUnit.cleared s.exec.memory.completion := by
        rw [step_memory]
        simp [LoadStoreExecutionUnit.step,
          LoadStoreExecutionUnit.completesLocally,
          LoadStoreExecutionUnit.responseKilled, hflush]
      rw [heldAt, hmemory]
      rfl
  | pending tag =>
      have hstart : s.exec.memory.startsLoad (s.lsuInputs i) = false := by
        simp [LoadStoreExecutionUnit.startsLoad, hflush]
      have hother : s.exec.memory.startsLoad (s.lsuInputs i) = true →
          tag ≠ (s.lsuInputs i).uop.robTag := by simp [hstart]
      obtain ⟨-, -, hvalid, hkilled⟩ :=
        s.exec.memory.step_pending_other (s.lsuInputs i) hother
      rw [heldAt, step_memory, hvalid, hkilled, if_neg]
      cases hp : s.exec.memory.pendingValid tag with
      | false => simp
      | true =>
          cases hr : (s.exec.memory.responseFire (s.lsuInputs i) &&
              decide ((s.lsuInputs i).response.id = tag)) with
          | true => simp
          | false => simp [hflush]

/-- A flush leaves nothing in flight. -/
theorem not_trap_of_held {p : Place} {h : Held}
    (hheld : (s.step i).heldAt p = some h) : s.trapValid i = false := by
  by_contra htrap
  rw [Bool.not_eq_false] at htrap
  rw [flush_heldAt htrap] at hheld
  cases hheld

/-- Nothing is in flight when every place and the ROB are empty. -/
theorem inFlight_of_empty (hrob : s.rob.Wf) (hwindow : s.rob.window = [])
    (hnone : ∀ p, s.heldAt p = none) : s.InFlight where
  rob := hrob
  paired := by
    intro j hvalid
    have hheld := s.heldAt_iq hvalid
    rw [hnone] at hheld
    cases hheld
  live := by
    intro p h hheld
    rw [hnone] at hheld
    cases hheld
  matched := by
    intro p h hheld
    rw [hnone] at hheld
    cases hheld
  distinct := by
    intro p q h h' hheld
    rw [hnone] at hheld
    cases hheld
  incomplete := by
    intro p h hheld
    rw [hnone] at hheld
    cases hheld
  held := by
    intro tag hlive
    rw [hwindow] at hlive
    cases hlive

theorem flush_inFlight (htrap : s.trapValid i = true) :
    (s.step i).InFlight := by
  refine inFlight_of_empty ?_ (step_window_flush htrap) (flush_heldAt htrap)
  rw [s.step_rob_flush i htrap]
  exact ReorderBuffer.reset_wf

end Flush

section Step

variable {s : Backend} {i : Inputs}

/-- A uop that moves on has not completed. -/
theorem InFlight.incomplete_of_moves (hs : s.InFlight) {p q : Place} {h : Held}
    (hheld : s.heldAt p = some h) (hmoves : s.moves i p = some q) :
    (s.rob.entries h.robTag).complete = false := by
  by_contra hcomplete
  rw [Bool.not_eq_false] at hcomplete
  obtain ⟨rfl, -⟩ := hs.incomplete p h hheld hcomplete
  cases hmoves

/-- No completion lane carries the tag of a uop that moves on. -/
theorem InFlight.not_completed (hs : s.InFlight) {p q : Place} {h : Held}
    (hheld : s.heldAt p = some h) (hmoves : s.moves i p = some q) :
    ¬ ∃ l, (s.robComplete l).valid = true ∧
      (s.robComplete l).robTag = h.robTag := by
  rintro ⟨l, hvalid, htag⟩
  obtain ⟨p', hp', hnone⟩ := source_of_complete i hvalid
  have heq := hs.distinct p p' h _ hheld hp' htag.symm
  rw [← heq, hmoves] at hnone
  cases hnone

/-- What the ROB says after the edge about a uop that moved. -/
theorem InFlight.moved (hs : s.InFlight) (hc : s.Countable)
    (htrap : s.trapValid i = false) {q : Place} {h' : Held}
    (hmoved : s.MovedTo i q h') :
    h'.robTag ∈ s.rob.window ∧ h'.robTag ∈ (s.step i).rob.window ∧
      h'.Matches ((s.step i).rob.entries h'.robTag) ∧
      (((s.step i).rob.entries h'.robTag).complete = true →
        s.recoveryValid i = true ∧ h'.robTag = s.recoveryTag i) := by
  obtain ⟨p, h, hheld, hmoves, hfollows, hmask⟩ := hmoved
  have hlive := hs.live p h hheld
  have hopen := hs.incomplete_of_moves hheld hmoves
  have hstays := hs.robReady.stays_live hc htrap hlive hopen hmask
  obtain ⟨hframe, hcomplete⟩ :=
    hs.robReady.step_survivor hc htrap hlive hstays
  rw [hfollows.robTag]
  refine ⟨hlive, hstays, ?_, ?_⟩
  · exact ((hs.matched p h hheld).of_atDispatch hframe).follows hfollows
  · intro hdone
    rcases hcomplete.mp hdone with hold | hlane | hbranch
    · rw [hopen] at hold
      exact absurd hold (by decide)
    · exact absurd hlane (hs.not_completed hheld hmoves)
    · exact hbranch

theorem Countable.dispatchedTo_accepted (hc : s.Countable) {l : Lane}
    {j : IqIndex} (h : s.DispatchedTo i l j) :
    s.robAllocValid i l = true := by
  rw [← hc.iqDispatchFire]
  by_contra hfire
  have hslot := h.2
  rw [IssueQueue.dispatchSlot, if_neg hfire] at hslot
  cases hslot

theorem renamedUop_paired (l : Lane) :
    (s.renamedUop i l).Paired
      (ReorderBuffer.allocWrite (s.renameRobEntry i l)) := by
  refine ⟨i.packet l, s.laneContext i l, (s.renamedUop i l).src1Ready,
    (s.renamedUop i l).src2Ready, rfl, rfl, ?_⟩
  intro hnot
  change s.destinationPhys i l = 0
  rw [destinationPhys, decodeBus, hnot, if_neg (by decide)]

/-- What the ROB says after the edge about a dispatched uop. -/
theorem InFlight.dispatched (hs : s.InFlight) (hc : s.Countable)
    (htrap : s.trapValid i = false) {l : Lane} {j : IqIndex}
    (hd : s.DispatchedTo i l j) :
    s.robAllocTag i l ∉ s.rob.window ∧
      s.robAllocTag i l ∈ (s.step i).rob.window ∧
      (s.renamedUop i l).Paired
        ((s.step i).rob.entries (s.robAllocTag i l)) ∧
      ((s.step i).rob.entries (s.robAllocTag i l)).complete = false := by
  have hl := hc.dispatchedTo_accepted hd
  obtain ⟨hfresh, hlive, hentry⟩ :=
    hs.robReady.step_dispatched hc htrap hd.1 hl
  refine ⟨hfresh, hlive, ?_, ?_⟩
  · rw [hentry]
    exact renamedUop_paired l
  · rw [hentry]
    rfl

/-- An issue-queue entry after the edge: dispatched now, or resident before. -/
theorem iq_step (htrap : s.trapValid i = false) {j : IqIndex}
    (hvalid : ((s.step i).iq.entries j).valid = true) :
    (∃ l, s.DispatchedTo i l j ∧ (s.step i).iq.entries j =
        IssueQueue.dispatchEntry s.prfWriteback (s.renamedUop i l)) ∨
      ((s.iq.entries j).valid = true ∧ s.moves i (.iq j) = some (.iq j) ∧
        s.recoveryYoungerMask i (s.iq.entries j).robTag = false ∧
        (s.step i).iq.entries j =
          IssueQueue.wakeEntry s.prfWriteback (s.iq.entries j)) := by
  cases hrec : s.recoveryValid i with
  | true =>
      right
      rw [step_iq_recover htrap hrec] at hvalid ⊢
      obtain ⟨hold, hstays, hmask⟩ := s.iq.stepRecover_valid _ _ _ _ hvalid
      exact ⟨hold, s.moves_iq_of_stays i hstays, hmask,
        s.iq.stepRecover_resident _ _ _ _ hold hstays hmask⟩
  | false =>
      rw [step_iq_normal htrap hrec] at hvalid ⊢
      rcases s.iq.stepNormal_valid _ _ _ _ hvalid with
        ⟨l, hslot⟩ | ⟨hold, hstays⟩
      · left
        exact ⟨l, ⟨hrec, hslot⟩, s.iq.stepNormal_dispatched _ _ _ _ hslot⟩
      · right
        exact ⟨hold, s.moves_iq_of_stays i hstays,
          recoveryYoungerMask_of_normal hrec _,
          s.iq.stepNormal_resident _ _ _ _ hold hstays⟩

theorem InFlight.step_paired (hs : s.InFlight) (hc : s.Countable)
    (htrap : s.trapValid i = false) (j : IqIndex)
    (hvalid : ((s.step i).iq.entries j).valid = true) :
    ((s.step i).iq.entries j).Paired
      ((s.step i).rob.entries ((s.step i).iq.entries j).robTag) := by
  rcases iq_step htrap hvalid with ⟨l, hd, heq⟩ | ⟨hold, hmoves, hmask, heq⟩
  · rw [heq]
    exact (hs.dispatched hc htrap hd).2.2.1.withReady _ _
  · rw [heq]
    have hheld := s.heldAt_iq hold
    have hlive := hs.live _ _ hheld
    have hopen := hs.incomplete_of_moves hheld hmoves
    have hstays := hs.robReady.stays_live hc htrap hlive hopen hmask
    have hframe := (hs.robReady.step_survivor hc htrap hlive hstays).1
    exact ((hs.paired j hold).of_atDispatch hframe).withReady _ _

/-- Two places never hold the same tag after the edge. -/
theorem InFlight.step_distinct (hs : s.InFlight) (hc : s.Countable)
    (htrap : s.trapValid i = false) {p q : Place} {h h' : Held}
    (hp : (s.step i).heldAt p = some h) (hq : (s.step i).heldAt q = some h')
    (htag : h.robTag = h'.robTag) : p = q := by
  rcases heldAt_step htrap hp with hmp | ⟨l, j, rfl, hd, rfl⟩
  · rcases heldAt_step htrap hq with hmq | ⟨l', j', rfl, hd', rfl⟩
    · obtain ⟨p0, h0, hp0, hm0, hf0, -⟩ := hmp
      obtain ⟨q0, g0, hq0, hn0, hg0, -⟩ := hmq
      have hsame : h0.robTag = g0.robTag := by
        rw [← hf0.robTag, ← hg0.robTag]
        exact htag
      have heq := hs.distinct p0 q0 h0 g0 hp0 hq0 hsame
      rw [heq, hn0] at hm0
      exact (Option.some.inj hm0).symm
    · have hlive := (hs.moved hc htrap hmp).1
      rw [htag] at hlive
      exact absurd hlive (hs.dispatched hc htrap hd').1
  · rcases heldAt_step htrap hq with hmq | ⟨l', j', rfl, hd', rfl⟩
    · have hlive := (hs.moved hc htrap hmq).1
      rw [← htag] at hlive
      exact absurd hlive (hs.dispatched hc htrap hd).1
    · have hl := hc.dispatchedTo_accepted hd
      have hl' := hc.dispatchedTo_accepted hd'
      have heq : l = l' := by
        have hne (h0 : s.robAllocValid i 0 = true) :
            s.robAllocTag i 0 ≠ s.robAllocTag i 1 :=
          hc.robAllocTag_ne h0
        match l, l' with
        | 0, 0 => rfl
        | 1, 1 => rfl
        | 0, 1 => exact absurd htag (hne hl)
        | 1, 0 => exact absurd htag.symm (hne hl')
      subst heq
      have hslot := hd.2
      rw [hd'.2] at hslot
      rw [Option.some.inj hslot]

/-- Every incomplete entry is held after the edge. -/
theorem InFlight.step_held (hs : s.InFlight) (hc : s.Countable)
    (htrap : s.trapValid i = false) {tag : RobTag}
    (hlive : tag ∈ (s.step i).rob.window)
    (hopen : ((s.step i).rob.entries tag).complete = false) :
    ∃ p h, (s.step i).heldAt p = some h ∧ h.robTag = tag := by
  by_cases hold : tag ∈ s.rob.window
  · have hcomplete := (hs.robReady.step_survivor hc htrap hold hlive).2
    rw [← Bool.not_eq_true, hcomplete] at hopen
    push Not at hopen
    obtain ⟨hbefore, hlanes, -⟩ := hopen
    rw [ne_eq, Bool.not_eq_true] at hbefore
    obtain ⟨p, h, hheld, rfl⟩ := hs.held tag hold hbefore
    have hmask : s.recoveryYoungerMask i h.robTag = false := by
      cases hrec : s.recoveryValid i with
      | true =>
          exact ((hs.robReady.mem_step_window_recover htrap hrec _).mp hlive).2
      | false => exact recoveryYoungerMask_of_normal hrec _
    cases hmoves : s.moves i p with
    | some q =>
        obtain ⟨h', hheld', htag'⟩ := heldAt_forward htrap hheld hmoves hmask
        exact ⟨q, h', hheld', htag'⟩
    | none =>
        obtain ⟨l, hvalid, hsame⟩ := completes_of_moves_none hheld hmoves
        exact absurd (congrArg Held.robTag hsame) (hlanes l hvalid)
  · obtain ⟨hrec, l, hl, rfl⟩ := hs.robReady.step_new hc hold hlive
    have hfire := hl
    rw [← hc.iqDispatchFire] at hfire
    obtain ⟨j, hslot⟩ := s.iq.dispatchSlot_some _ hfire
    have hentry : (s.step i).iq.entries j =
        IssueQueue.dispatchEntry s.prfWriteback (s.renamedUop i l) := by
      rw [step_iq_normal htrap hrec]
      exact s.iq.stepNormal_dispatched _ _ _ _ hslot
    have hvalid : ((s.step i).iq.entries j).valid = true := by
      rw [hentry]
      exact (hc.renamedUop_valid i l).trans hl
    refine ⟨.iq j, _, heldAt_iq _ hvalid, ?_⟩
    rw [hentry]
    rfl

theorem InFlight.step (hs : s.InFlight) (hreach : s.Reachable)
    (hc : s.Countable) : (s.step i).InFlight := by
  cases htrap : s.trapValid i with
  | true => exact flush_inFlight htrap
  | false =>
      exact
        { rob := hs.robReady.step_wf
          paired := hs.step_paired hc htrap
          live := by
            intro p h hheld
            rcases heldAt_step htrap hheld with hm | ⟨l, j, -, hd, rfl⟩
            · exact (hs.moved hc htrap hm).2.1
            · exact (hs.dispatched hc htrap hd).2.1
          matched := by
            intro p h hheld
            rcases heldAt_step htrap hheld with hm | ⟨l, j, -, hd, rfl⟩
            · exact (hs.moved hc htrap hm).2.2.1
            · exact (hs.dispatched hc htrap hd).2.2.1.matches_held
          distinct := fun p q h h' hp hq htag =>
            hs.step_distinct hc htrap hp hq htag
          incomplete := by
            intro p h hheld hcomplete
            rcases heldAt_step htrap hheld with hm | ⟨l, j, -, hd, rfl⟩
            · obtain ⟨hrec, htag⟩ := (hs.moved hc htrap hm).2.2.2 hcomplete
              refine ⟨?_, s, i, hreach, rfl, htrap, hrec, htag⟩
              -- The branch itself sits in the secondary register.
              obtain ⟨j, hvalid, hmoves, hbranch, -⟩ := s.recovery_source i hrec
              obtain ⟨p0, h0, hp0, hm0, hf0, -⟩ := hm
              have hsame : h0.robTag = (s.iq.entries j).held.robTag := by
                rw [← hf0.robTag, htag]
                exact hbranch.symm
              have heq := hs.distinct p0 (.iq j) h0 _ hp0
                (s.heldAt_iq hvalid) hsame
              rw [heq, hmoves] at hm0
              exact (Option.some.inj hm0).symm
            · have hopen := (hs.dispatched hc htrap hd).2.2.2
              change ((s.step i).rob.entries (s.robAllocTag i l)).complete =
                true at hcomplete
              rw [hopen] at hcomplete
              exact absurd hcomplete (by decide)
          held := fun tag hlive hopen => hs.step_held hc htrap hlive hopen }

end Step

theorem reset_heldAt (p : Place) : reset.heldAt p = none := by
  cases p <;> rfl

theorem reset_inFlight : reset.InFlight :=
  inFlight_of_empty ReorderBuffer.reset_wf rfl reset_heldAt

theorem Reachable.inFlight {s : Backend} (h : s.Reachable) : s.InFlight := by
  induction h with
  | reset => exact reset_inFlight
  | step hreach i ih => exact ih.step hreach hreach.countable

/-- The tag a place holds. -/
def tagAt (s : Backend) (p : Place) : Option RobTag :=
  (s.heldAt p).map Held.robTag

theorem tagAt_eq_some {s : Backend} {p : Place} {tag : RobTag} :
    s.tagAt p = some tag ↔ ∃ h, s.heldAt p = some h ∧ h.robTag = tag := by
  rw [tagAt, Option.map_eq_some_iff]

/-- In every reachable state each live incomplete entry is held in exactly one
place, and each place holds the tag of a live entry of its own, incomplete but
for the branch of the recovery just before. -/
theorem Reachable.uops_conserved {s : Backend} (hreach : s.Reachable) :
    (∀ tag, (s.rob.entries tag).valid = true ↔ tag ∈ s.rob.window) ∧
      (∀ tag ∈ s.rob.window, (s.rob.entries tag).complete = false →
        ∃! p, s.tagAt p = some tag) ∧
      (∀ p h, s.heldAt p = some h →
        h.robTag ∈ s.rob.window ∧ h.Matches (s.rob.entries h.robTag) ∧
          (∀ q, s.tagAt q = some h.robTag → q = p) ∧
          ((s.rob.entries h.robTag).complete = true →
            s.JustRecovered h.robTag)) := by
  have hs := hreach.inFlight
  refine ⟨hs.rob.valid_iff, ?_, ?_⟩
  · intro tag hlive hopen
    obtain ⟨p, h, hheld, htag⟩ := hs.held tag hlive hopen
    refine ⟨p, tagAt_eq_some.mpr ⟨h, hheld, htag⟩, ?_⟩
    intro q hq
    obtain ⟨h', hheld', htag'⟩ := tagAt_eq_some.mp hq
    exact hs.distinct q p h' h hheld' hheld (htag'.trans htag.symm)
  · intro p h hheld
    refine ⟨hs.live p h hheld, hs.matched p h hheld, ?_, ?_⟩
    · intro q hq
      obtain ⟨h', hheld', htag'⟩ := tagAt_eq_some.mp hq
      exact hs.distinct q p h' h hheld' hheld htag'
    · intro hcomplete
      exact (hs.incomplete p h hheld hcomplete).2

/-- A cycle that offers two instructions to a ready memory port. -/
def offerPair (first second : Word) : Inputs where
  packet := fun l => if l = 0 then { insn := first, pc := 0x40 }
    else { insn := second, pc := 0x44 }
  memoryRequestReady := true
  memoryIdle := true
  response := default
  csrReadData := 0
  branchTrainReady := true

/-- After `addi x1, x0, 1` was dispatched it is in one place only. -/
theorem uops_conserved_addi :
    ((reset.step (offerPair 0x00100093 0)).rob.entries 0).valid = true ∧
      ∃! p, (reset.step (offerPair 0x00100093 0)).tagAt p = some 0 := by
  have hreach := Reachable.reset.step (offerPair 0x00100093 0)
  refine ⟨by decide +kernel, ?_⟩
  exact hreach.uops_conserved.2.1 0 (by decide +kernel) (by decide +kernel)

end Backend

end OoOCore
