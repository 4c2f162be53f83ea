/-
Values: a faultless writer drives its result onto the write-back bus when it
completes, so the registers of the committed map hold the results of the last
retired writers.
-/
import OoOCore.StoreOrder

namespace OoOCore

namespace Backend

section WritesBack

/-- The completion register at a place, when its result is visible. -/
def completionAt (s : Backend) : Place → Option Completion
  | .primary => if s.exec.visible s.exec.primary then some s.exec.primary
      else none
  | .secondary => if s.exec.visible s.exec.secondary then
      some s.exec.secondary else none
  | .lsu => if s.exec.visible s.exec.memory.completion then
      some s.exec.memory.completion else none
  | _ => none

/-- The ROB entry at the tag writes a register. -/
def writesTag (s : Backend) (tag : RobTag) : Bool :=
  (s.rob.entries tag).writesRd

/-- A visible completion of a writer faults or carries its write-back. -/
structure WritesBack (s : Backend) : Prop where
  completion : ∀ p c, s.completionAt p = some c → c.exception = false →
    s.writesTag c.robTag = true → c.writebackValid = true
  pending : ∀ tag, s.heldAt (.pending tag) =
      some (s.exec.memory.pendingHeld tag) →
    s.writesTag tag = true → (s.exec.memory.pendingHeld tag).writes = true

variable {s : Backend} {i : Inputs}

theorem completionAt_held {p : Place} {c : Completion}
    (h : s.completionAt p = some c) : s.heldAt p = some c.held := by
  match p with
  | .primary | .secondary | .lsu =>
      simp only [completionAt] at h
      split at h
      · next hvis =>
        cases h
        simp [heldAt, hvis]
      · cases h

theorem RenamingWf.newPhys_ne_zero (hwf : s.RenamingWf) {tag : RobTag}
    (hlive : tag ∈ s.rob.window) (hwrites : s.writesTag tag = true) :
    (s.rob.entries tag).newPhys ≠ 0 := by
  intro hzero
  have htaken : (s.rob.entries tag).newPhys ∈
      Renaming.taken (s.rob.window.map s.renamingItem) := by
    rw [← destinations_eq]
    exact List.mem_map.mpr ⟨tag, List.mem_filter.mpr ⟨hlive, hwrites⟩, rfl⟩
  exact hwf.taken_fresh _ htaken 0 (hwf.pinned.trans hzero.symm)

/-- A queued uop of a writer is going to write, and is no store. -/
theorem InFlight.iq_writes (hs : s.InFlight) (hwf : s.RenamingWf)
    {j : IqIndex} (hvalid : (s.iq.entries j).valid = true)
    (hwrites : s.writesTag (s.iq.entries j).robTag = true) :
    (s.iq.entries j).held.writes = true ∧
      (s.iq.entries j).dataWriteEnable = false := by
  have hlive : (s.iq.entries j).robTag ∈ s.rob.window :=
    hs.live _ _ (s.heldAt_iq hvalid)
  have hnew := hwf.newPhys_ne_zero hlive hwrites
  obtain ⟨packet, ctx, r1, r2, hu, he, -⟩ := hs.paired j hvalid
  have hdest : (s.rob.entries (s.iq.entries j).robTag).newPhys =
      ctx.destinationPhys := congrArg RobEntry.newPhys he
  have hwrites' : RenameStage.writesDestination (idStage packet) = true :=
    (congrArg RobEntry.writesRd he).symm.trans hwrites
  simp only [RenameStage.writesDestination, Bool.and_eq_true] at hwrites'
  have henable : (decoder packet.insn).registerWriteEnable = true :=
    hwrites'.1.2
  rw [hu]
  constructor
  · change ((decoder packet.insn).registerWriteEnable &&
      decide (ctx.destinationPhys ≠ 0)) = true
    rw [henable, ← hdest]
    simpa using hnew
  · change (decoder packet.insn).dataWriteEnable = false
    by_contra hstore
    rw [Bool.not_eq_false] at hstore
    rw [((decoder_consistent packet.insn).store hstore).1] at henable
    cases henable

/-- A uop that moved keeps its register-writing flag. -/
theorem InFlight.moved_writesTag (hs : s.InFlight) (hc : s.Countable)
    (htrap : s.trapValid i = false) {q : Place} {h' : Held}
    (hmoved : s.MovedTo i q h') :
    (s.step i).writesTag h'.robTag = s.writesTag h'.robTag := by
  obtain ⟨hold, hnew, -⟩ := hs.moved hc htrap hmoved
  exact (RobEntry.atDispatch_renaming
    (hs.robReady.step_survivor hc htrap hold hnew).1).1

theorem execute_writebackValid_of {p : IssuePort} (hvalid : p.valid = true)
    (hclean : (OoOExecutionUnit.execute p).exception = false)
    (hwrites : p.uop.held.writes = true) :
    (OoOExecutionUnit.execute p).writebackValid = true := by
  change OoOExecutionUnit.executeException p = false at hclean
  simp only [Uop.held, Bool.and_eq_true] at hwrites
  change (p.valid && !OoOExecutionUnit.executeException p &&
    p.uop.registerWriteEnable && decide (p.uop.destPhys ≠ 0)) = true
  rw [hvalid, hclean, hwrites.1, hwrites.2]
  rfl

/-- A local completion of a load that does not fault is forwarded data. -/
theorem localCompletion_writebackValid {x : LsuInputs}
    (hclass : x.uop.fuClass = .memory)
    (hload : x.uop.dataWriteEnable = false)
    (hlocal : LoadStoreExecutionUnit.normalCacheLoad x = false)
    (hclean : (LoadStoreExecutionUnit.localCompletion x).exception = false)
    (hwrites : x.uop.held.writes = true) :
    (LoadStoreExecutionUnit.localCompletion x).writebackValid = true ∧
      x.forwardValid = true := by
  change (x.uop.decodeException ||
    LoadStoreExecutionUnit.addressMisaligned x) = false at hclean
  rw [Bool.or_eq_false_iff] at hclean
  have hselected : LoadStoreExecutionUnit.selectedIsLoad x.uop = true := by
    simp [LoadStoreExecutionUnit.selectedIsLoad, hclass, hload]
  have hforward : x.forwardValid = true := by
    simpa [LoadStoreExecutionUnit.normalCacheLoad, hselected, hclean.1,
      hclean.2] using hlocal
  simp only [Uop.held, Bool.and_eq_true] at hwrites
  refine ⟨?_, hforward⟩
  change (LoadStoreExecutionUnit.selectedIsLoad x.uop && x.forwardValid &&
    !LoadStoreExecutionUnit.addressMisaligned x && !x.uop.decodeException &&
    x.uop.registerWriteEnable && decide (x.uop.destPhys ≠ 0)) = true
  rw [hselected, hforward, hclean.1, hclean.2, hwrites.1, hwrites.2]
  rfl

/-- A port that takes a queued writer executes it with its register driven,
unless the execution faults. -/
theorem InFlight.port_writebackValid (hs : s.InFlight) (hwf : s.RenamingWf)
    {p : IssuePort} {j : IqIndex} (hp : p.valid = true)
    (hvalid : (s.iq.entries j).valid = true)
    (huop : p.uop.held = (s.iq.entries j).held)
    (hclean : (OoOExecutionUnit.execute p).exception = false)
    (hwrites : s.writesTag p.uop.robTag = true) :
    (OoOExecutionUnit.execute p).writebackValid = true := by
  have htag : p.uop.robTag = (s.iq.entries j).robTag :=
    congrArg Held.robTag huop
  rw [htag] at hwrites
  apply execute_writebackValid_of hp hclean
  rw [huop]
  exact (hs.iq_writes hwf hvalid hwrites).1

theorem WritesBack.step_primary (h : s.WritesBack) (hs : s.InFlight)
    (hc : s.Countable) (hwf : s.RenamingWf) (htrap : s.trapValid i = false)
    {c : Completion} (hc' : (s.step i).completionAt .primary = some c)
    (hclean : c.exception = false)
    (hwrites : (s.step i).writesTag c.robTag = true) :
    c.writebackValid = true := by
  have hmoved := movedTo_primary htrap (completionAt_held hc')
  have hflag : (s.step i).writesTag c.robTag = s.writesTag c.robTag :=
    hs.moved_writesTag hc htrap hmoved
  rw [hflag] at hwrites
  simp only [completionAt] at hc'
  split at hc'
  · next hvis =>
    have heq : (s.step i).exec.primary = c := Option.some.inj hc'
    rw [s.step_visible i htrap, Bool.and_eq_true] at hvis
    rw [Backend.step_primary s i htrap] at heq hvis
    cases hready : s.exec.pReady with
    | true =>
        rw [hready, if_pos rfl] at heq hvis
        subst heq
        obtain ⟨j, hvalid, -, huop⟩ := s.primaryPort_source i hready hvis.1
        exact hs.port_writebackValid hwf hvis.1 hvalid huop hclean hwrites
    | false =>
        rw [hready, if_neg (by decide)] at heq
        have hold : s.completionAt .primary = some c := by
          rw [completionAt, if_pos (s.primary_of_not_ready hready).1, heq]
        exact h.completion .primary c hold hclean hwrites
  · cases hc'

theorem step_secondary_writesBack (hs : s.InFlight) (hc : s.Countable)
    (hwf : s.RenamingWf) (htrap : s.trapValid i = false)
    {c : Completion} (hc' : (s.step i).completionAt .secondary = some c)
    (hclean : c.exception = false)
    (hwrites : (s.step i).writesTag c.robTag = true) :
    c.writebackValid = true := by
  have hmoved := movedTo_secondary htrap (completionAt_held hc')
  have hflag : (s.step i).writesTag c.robTag = s.writesTag c.robTag :=
    hs.moved_writesTag hc htrap hmoved
  rw [hflag] at hwrites
  simp only [completionAt] at hc'
  split at hc'
  · next hvis =>
    have heq : (s.step i).exec.secondary = c := Option.some.inj hc'
    rw [s.step_visible i htrap, Bool.and_eq_true] at hvis
    rw [s.step_secondary i htrap] at heq hvis
    subst heq
    obtain ⟨j, -, hvalid, -, huop⟩ := s.secondaryPort_source i hvis.1
    exact hs.port_writebackValid hwf hvis.1 hvalid huop hclean hwrites
  · cases hc'

theorem completionAt_lsu {c : Completion}
    (h : s.completionAt .lsu = some c) :
    s.exec.visible s.exec.memory.completion = true ∧
      s.exec.memory.completion = c := by
  rw [completionAt] at h
  split at h
  · next hvis => exact ⟨hvis, Option.some.inj h⟩
  · cases h

theorem WritesBack.step_lsu (h : s.WritesBack) (hs : s.InFlight)
    (hc : s.Countable) (hwf : s.RenamingWf) (htrap : s.trapValid i = false)
    {c : Completion} (hc' : (s.step i).completionAt .lsu = some c)
    (hclean : c.exception = false)
    (hwrites : (s.step i).writesTag c.robTag = true) :
    c.writebackValid = true := by
  have hmoved := movedTo_lsu htrap (completionAt_held hc')
  have hflag : (s.step i).writesTag c.robTag = s.writesTag c.robTag :=
    hs.moved_writesTag hc htrap hmoved
  rw [hflag] at hwrites
  obtain ⟨hvis, rfl⟩ := completionAt_lsu hc'
  rcases lsu_cases htrap hvis with ⟨hlocal, heq⟩ | ⟨-, hpending, heq⟩
  · rw [heq] at hclean hwrites ⊢
    simp only [LoadStoreExecutionUnit.completesLocally, Bool.and_eq_true,
      Bool.not_eq_true'] at hlocal
    obtain ⟨j, hj, hclass, -⟩ := s.lsu_issueFire_source i hlocal.1.1
    have hvalid := s.issueChoice_valid hj
    have huop := s.issueUop_of_choice hj
    change s.writesTag (s.issueUop 0).robTag = true at hwrites
    rw [huop] at hwrites
    obtain ⟨hheld, hload⟩ := hs.iq_writes hwf hvalid hwrites
    have hmem : (s.issueUop 0).fuClass = .memory := by
      rw [huop]
      exact hclass
    have hnostore : (s.issueUop 0).dataWriteEnable = false := by
      rw [huop]
      exact hload
    have hwill : (s.issueUop 0).held.writes = true := by
      rw [s.issueUop_held hj]
      exact hheld
    exact (localCompletion_writebackValid hmem hnostore hlocal.2 hclean
      hwill).1
  · rw [heq] at hwrites ⊢
    exact h.pending i.response.id hpending hwrites

theorem WritesBack.step_pending (h : s.WritesBack) (hs : s.InFlight)
    (hc : s.Countable) (hwf : s.RenamingWf) (htrap : s.trapValid i = false)
    {tag : RobTag} (hheld : (s.step i).heldAt (.pending tag) =
      some ((s.step i).exec.memory.pendingHeld tag))
    (hwrites : (s.step i).writesTag tag = true) :
    ((s.step i).exec.memory.pendingHeld tag).writes = true := by
  have hflag := hs.moved_writesTag hc htrap (movedTo_pending hheld)
  change (s.step i).writesTag tag = s.writesTag tag at hflag
  rw [hflag] at hwrites
  rcases pending_cases hheld with ⟨hstart, rfl, hnew⟩ | ⟨hold, -, -⟩
  · obtain ⟨j, hj, -⟩ :=
      s.lsu_issueFire_source i (startsLoad_pending hstart).1
    rw [hnew, s.issueUop_held hj]
    rw [s.issueUop_robTag hj] at hwrites
    exact (hs.iq_writes hwf (s.issueChoice_valid hj) hwrites).1
  · have hsame : s.exec.memory.pendingHeld tag =
        (s.step i).exec.memory.pendingHeld tag := by
      have hslot := hold
      rw [heldAt] at hslot
      split at hslot
      · exact Option.some.inj hslot
      · cases hslot
    rw [← hsame] at hold ⊢
    exact h.pending tag hold hwrites

theorem WritesBack.step (h : s.WritesBack) (hs : s.InFlight)
    (hc : s.Countable) (hwf : s.RenamingWf) : (s.step i).WritesBack := by
  constructor
  · intro p c hp hclean hwrites
    have htrap := not_trap_of_held (completionAt_held hp)
    match p with
    | .primary => exact h.step_primary hs hc hwf htrap hp hclean hwrites
    | .secondary =>
        exact step_secondary_writesBack hs hc hwf htrap hp hclean hwrites
    | .lsu => exact h.step_lsu hs hc hwf htrap hp hclean hwrites
  · intro tag hheld hwrites
    exact h.step_pending hs hc hwf (not_trap_of_held hheld) hheld hwrites

theorem Reachable.writesBack {s : Backend} (h : s.Reachable) :
    s.WritesBack := by
  induction h with
  | reset =>
      constructor
      · intro p c hp
        have hheld := completionAt_held hp
        rw [reset_heldAt] at hheld
        cases hheld
      · intro tag hheld
        rw [reset_heldAt] at hheld
        cases hheld
  | step hreach i ih =>
      exact ih.step hreach.inFlight hreach.countable hreach.renamingWf

end WritesBack

section Results

variable {s : Backend} {i : Inputs}

theorem RenamingWf.newPhys_injective (hwf : s.RenamingWf) {tag tag' : RobTag}
    (hlive : tag ∈ s.rob.window) (hwrites : s.writesTag tag = true)
    (hlive' : tag' ∈ s.rob.window) (hwrites' : s.writesTag tag' = true)
    (heq : (s.rob.entries tag).newPhys = (s.rob.entries tag').newPhys) :
    tag = tag' := by
  have hnodup := hwf.taken_nodup
  change (Renaming.taken (s.rob.window.map s.renamingItem)).Nodup at hnodup
  rw [← destinations_eq] at hnodup
  exact List.inj_on_of_nodup_map hnodup
    (List.mem_filter.mpr ⟨hlive, hwrites⟩)
    (List.mem_filter.mpr ⟨hlive', hwrites'⟩) heq

/-- A lane that completes a faultless writer drives its register. -/
theorem WritesBack.hits_of_complete (hb : s.WritesBack) (hs : s.InFlight)
    (hw : s.WritebackValid) {l : Lane} {tag : RobTag}
    (hvalid : (s.robComplete l).valid = true)
    (htag : (s.robComplete l).robTag = tag)
    (hclean : (s.robComplete l).exception = false)
    (hwrites : s.writesTag tag = true) :
    PhysicalRegisterFile.hits s.prfWriteback l
      (s.rob.entries tag).newPhys = true := by
  subst htag
  have hplace : ∃ p, s.completionAt p = some (s.exec.laneSource l) := by
    change s.exec.visible (s.exec.laneSource l) = true at hvalid
    match l with
    | 0 =>
        by_cases hmem : s.exec.visible s.exec.memory.completion = true
        · refine ⟨.lsu, ?_⟩
          simp only [completionAt, BackendExecuteStage.laneSource, hmem,
            if_true]
        · refine ⟨.primary, ?_⟩
          simp only [BackendExecuteStage.laneSource, if_neg hmem] at hvalid ⊢
          simp only [completionAt, hvalid, if_true]
    | 1 =>
        refine ⟨.secondary, ?_⟩
        simp only [BackendExecuteStage.laneSource] at hvalid ⊢
        simp only [completionAt, hvalid, if_true]
  obtain ⟨p, hp⟩ := hplace
  have hback := hb.completion p _ hp hclean hwrites
  have hwb : (s.prfWriteback l).valid = true := by
    change ((s.exec.laneSource l).valid &&
      s.exec.allowed (s.exec.laneSource l).robTag) = true at hvalid
    rw [Bool.and_eq_true] at hvalid
    change ((s.exec.laneSource l).writebackValid &&
      s.exec.allowed (s.exec.laneSource l).robTag) = true
    rw [hback, hvalid.2]
    rfl
  have hphys := (hs.writeback_owner hw hwb).2.2.1
  rw [PhysicalRegisterFile.hits, hwb]
  change (true && decide ((s.prfWriteback l).phys =
    (s.rob.entries (s.exec.laneSource l).robTag).newPhys)) = true
  rw [hphys]
  simp

/-- A lane reports the result of a live writer exactly when it drives its
register. -/
theorem laneResult_eq (hs : s.InFlight) (hw : s.WritebackValid)
    (hwf : s.RenamingWf) (hu : s.UidOrder) {tag : RobTag}
    (hlive : tag ∈ s.rob.window) (hwrites : s.writesTag tag = true)
    (l : Lane) : s.laneResult l (s.uidAt tag) =
      if PhysicalRegisterFile.hits s.prfWriteback l
        (s.rob.entries tag).newPhys then some (s.prfWriteback l).data
      else none := by
  unfold laneResult PhysicalRegisterFile.hits
  cases hvalid : (s.prfWriteback l).valid with
  | false => rfl
  | true =>
      obtain ⟨howner, hownerWrites, hphys, horigin⟩ :=
        hs.writeback_owner hw hvalid
      have hiff : (s.exec.laneSource l).origin.uid = s.uidAt tag ↔
          (s.prfWriteback l).phys = (s.rob.entries tag).newPhys := by
        rw [← hphys, ← horigin]
        constructor
        · intro huid
          rw [hu.injective _ howner _ hlive huid]
        · intro hnew
          rw [hwf.newPhys_injective howner hownerWrites hlive hwrites hnew]
          rfl
      simp only [Bool.true_and, hiff]

/-- The result of a live writer is in its register once it was driven. -/
theorem observe_result (hs : s.InFlight) (hw : s.WritebackValid)
    (hwf : s.RenamingWf) (hu : s.UidOrder) {tag : RobTag}
    (hlive : tag ∈ s.rob.window) (hwrites : s.writesTag tag = true)
    {h : History}
    (hdriven : (∃ l, PhysicalRegisterFile.hits s.prfWriteback l
        (s.rob.entries tag).newPhys = true) ∨
      h.result (s.uidAt tag) =
        some (s.prf.registers (s.rob.entries tag).newPhys)) :
    (s.observe i h).result (s.uidAt tag) =
      some (s.prfReadData (s.rob.entries tag).newPhys) := by
  change ((s.laneResult 1 _).or (s.laneResult 0 _)).or (h.result _) = _
  rw [laneResult_eq hs hw hwf hu hlive hwrites,
    laneResult_eq hs hw hwf hu hlive hwrites, prfReadData,
    PhysicalRegisterFile.readData,
    if_neg (hwf.newPhys_ne_zero hlive hwrites)]
  cases h1 : PhysicalRegisterFile.hits s.prfWriteback 1
      (s.rob.entries tag).newPhys with
  | true => rfl
  | false =>
      cases h0 : PhysicalRegisterFile.hits s.prfWriteback 0
          (s.rob.entries tag).newPhys with
      | true => rfl
      | false =>
          rcases hdriven with ⟨l, hl⟩ | hresult
          · rcases lane_cases l with rfl | rfl
            · rw [h0] at hl
              cases hl
            · rw [h1] at hl
              cases hl
          · rw [hresult]
            rfl

/-- A dispatch with no live entry writes nothing back. -/
theorem written_none (hs : s.InFlight) (hw : s.WritebackValid) {uid : Nat}
    (hdead : ¬ s.LiveUid uid) : s.written uid = none := by
  have hlane : ∀ l, s.laneResult l uid = none := by
    intro l
    rw [laneResult, if_neg]
    rintro hcond
    rw [Bool.and_eq_true, decide_eq_true_eq] at hcond
    obtain ⟨howner, -, -, horigin⟩ :=
      hs.writeback_owner hw hcond.1
    apply hdead
    exact ⟨_, howner, by rw [horigin, hcond.2]⟩
  rw [written, hlane, hlane]
  rfl

/-- No lane drives a committed register. -/
theorem committed_not_hit (hs : s.InFlight) (hw : s.WritebackValid)
    (hwf : s.RenamingWf) (r : ArchReg) (l : Lane) :
    PhysicalRegisterFile.hits s.prfWriteback l
      (s.rename.mapTable.committedMap r) = false := by
  by_contra h
  rw [Bool.not_eq_false, PhysicalRegisterFile.hits, Bool.and_eq_true,
    decide_eq_true_eq] at h
  obtain ⟨howner, hwrites, hphys, -⟩ :=
    hs.writeback_owner hw h.1
  have htaken : (s.rob.entries (s.exec.laneSource l).robTag).newPhys ∈
      Renaming.taken (s.rob.window.map s.renamingItem) := by
    rw [← destinations_eq]
    exact List.mem_map.mpr ⟨_, List.mem_filter.mpr ⟨howner, hwrites⟩, rfl⟩
  exact hwf.taken_fresh _ htaken r (h.2.symm.trans hphys.symm)

end Results

end Backend

/-- Let a retired writer rename its register. -/
def Retired.rename (m : ArchReg → PhysReg) (r : Retired) : ArchReg → PhysReg :=
  if r.entry.writesRd then Function.update m r.entry.archRd r.entry.newPhys
  else m

/-- Let a retired writer leave its result in its register. -/
def Retired.write (result : Nat → Option Word) (m : ArchReg → Word)
    (r : Retired) : ArchReg → Word :=
  if r.entry.writesRd then
    Function.update m r.entry.archRd
      ((result r.entry.origin.uid).getD 0)
  else m

/-- The architectural map the retired instructions leave. -/
def History.names (h : History) : ArchReg → PhysReg :=
  h.retired.foldl Retired.rename RenameMapTable.identityMap

/-- The architectural registers the retired instructions leave. -/
def History.registers (h : History) : ArchReg → Word :=
  h.retired.foldl (Retired.write h.result) fun _ => 0

namespace Backend

/-- The committed map and its registers are what the retired instructions left,
and a complete faultless writer has its result in its register or on the bus. -/
structure Valued (s : Backend) (h : History) : Prop where
  names : s.rename.mapTable.committedMap = h.names
  committed : ∀ r, s.prf.registers (s.rename.mapTable.committedMap r) =
    h.registers r
  known : ∀ r ∈ h.retired, r.entry.writesRd = true →
    (h.result r.entry.origin.uid).isSome
  live : ∀ tag ∈ s.rob.window, (s.rob.entries tag).complete = true →
    (s.rob.entries tag).exception = false → s.writesTag tag = true →
      (∃ l, PhysicalRegisterFile.hits s.prfWriteback l
        (s.rob.entries tag).newPhys = true) ∨
      h.result (s.uidAt tag) =
        some (s.prf.registers (s.rob.entries tag).newPhys)

section Valued

variable {s : Backend} {i : Inputs} {h : History}

/-- Retiring writers whose results are in their registers moves the committed
map and the architectural registers together. -/
theorem foldl_write (read : PhysReg → Word) (result : Nat → Option Word)
    {tags : List RobTag}
    (hresult : ∀ tag ∈ tags, s.writesTag tag = true →
      result (s.uidAt tag) = some (read (s.rob.entries tag).newPhys))
    {names : ArchReg → PhysReg} {registers : ArchReg → Word}
    (hread : ∀ r, read (names r) = registers r) (r : ArchReg) :
    read (tags.foldl s.installSlot names r) =
      (tags.map fun tag => s.retire (s.rob.entries tag)).foldl
        (Retired.write result) registers r := by
  induction tags generalizing names registers with
  | nil => exact hread r
  | cons tag rest ih =>
      rw [List.foldl_cons, List.map_cons, List.foldl_cons]
      apply ih
      · intro tag' htag'
        exact hresult tag' (List.mem_cons_of_mem _ htag')
      · intro r'
        have hself := hresult tag List.mem_cons_self
        unfold writesTag uidAt at hself
        unfold installSlot Retired.write retire
        cases hwrites : (s.rob.entries tag).writesRd with
        | false => exact hread r'
        | true =>
            simp only [if_true]
            by_cases hr : r' = (s.rob.entries tag).archRd
            · subst hr
              rw [Function.update_self, Function.update_self,
                hself hwrites]
              rfl
            · rw [Function.update_of_ne hr, Function.update_of_ne hr]
              exact hread r'

theorem foldl_rename {tags : List RobTag} (names : ArchReg → PhysReg) :
    (tags.map fun tag => s.retire (s.rob.entries tag)).foldl Retired.rename
      names = tags.foldl s.installSlot names := by
  rw [List.foldl_map]
  rfl

/-- Results of retired instructions are final. -/
theorem Traced.result_final (ht : s.Traced h) {r : Retired}
    (hr : r ∈ h.retired) :
    (s.observe i h).result r.entry.origin.uid =
      h.result r.entry.origin.uid := by
  have hdead : ¬ s.LiveUid r.entry.origin.uid := by
    rintro ⟨tag, hlive, huid⟩
    have hpair := (List.pairwise_append.mp ht.programOrder.1).2.2
      r.entry.origin.uid (List.mem_map.mpr ⟨r, hr, rfl⟩)
      (s.uidAt tag) (List.mem_map.mpr ⟨tag, hlive, rfl⟩)
    rw [uidAt, huid] at hpair
    exact Nat.lt_irrefl _ hpair
  change (s.written _).or _ = _
  rw [written_none ht.reachable.inFlight ht.reachable.writebackValid hdead]
  rfl

/-- A write changes the registers only through the results it reads. -/
theorem foldl_write_congr {retired : List Retired}
    {result result' : Nat → Option Word}
    (hsame : ∀ r ∈ retired, result' r.entry.origin.uid =
      result r.entry.origin.uid) (m : ArchReg → Word) :
    retired.foldl (Retired.write result') m =
      retired.foldl (Retired.write result) m := by
  induction retired generalizing m with
  | nil => rfl
  | cons r rest ih =>
      have hhead : Retired.write result' m r = Retired.write result m r := by
        rw [Retired.write, Retired.write, hsame r List.mem_cons_self]
      rw [List.foldl_cons, List.foldl_cons, hhead]
      exact ih (fun r' hr' => hsame r' (List.mem_cons_of_mem _ hr')) _

theorem registers_zero (hreach : s.Reachable) : s.prf.registers 0 = 0 := by
  cases hreach with
  | reset => rfl
  | step _ i =>
      change (PhysicalRegisterFile.step _ _ _ _).registers 0 = 0
      rw [step_registers]
      rfl

theorem committed_readData (hreach : s.Reachable) (r : ArchReg) :
    s.prfReadData (s.rename.mapTable.committedMap r) =
      s.prf.registers (s.rename.mapTable.committedMap r) := by
  rw [prfReadData, PhysicalRegisterFile.readData,
    committed_not_hit hreach.inFlight hreach.writebackValid hreach.renamingWf,
    committed_not_hit hreach.inFlight hreach.writebackValid hreach.renamingWf]
  split
  · next hzero => rw [hzero, registers_zero hreach]
  · rfl

/-- A retiring writer has its result in its register after the edge. -/
theorem Valued.retiring (hv : s.Valued h) (hreach : s.Reachable)
    {tag : RobTag} (htag : tag ∈ s.rob.window.take (s.retireCount i))
    (hwrites : s.writesTag tag = true) :
    (s.observe i h).result (s.uidAt tag) =
      some (s.prfReadData (s.rob.entries tag).newPhys) := by
  have hlive := List.mem_of_mem_take htag
  obtain ⟨hcomplete, hclean⟩ := retired_complete htag
  exact observe_result hreach.inFlight hreach.writebackValid
    hreach.renamingWf hreach.uidOrder hlive hwrites
    (hv.live tag hlive hcomplete hclean hwrites)

theorem Valued.step_committed (hv : s.Valued h) (ht : s.Traced h)
    (r : ArchReg) :
    (s.step i).prf.registers ((s.step i).rename.mapTable.committedMap r) =
      (s.observe i h).registers r := by
  have hreach := ht.reachable
  have hold : ∀ r, s.prfReadData (s.rename.mapTable.committedMap r) =
      h.retired.foldl (Retired.write (s.observe i h).result) (fun _ => 0) r := by
    intro r
    rw [committed_readData hreach, hv.committed,
      foldl_write_congr fun r' hr' => ht.result_final hr']
    rfl
  rw [hreach.renamingWf.step_committedMap_eq]
  change (PhysicalRegisterFile.step _ _ _ _).registers _ =
    (h.retired ++ s.retiredNow i).foldl
      (Retired.write (s.observe i h).result) (fun _ => 0) r
  rw [step_registers, List.foldl_append, retiredNow_eq, overlaid_foldl]
  exact foldl_write s.prfReadData _ (fun tag htag => hv.retiring hreach htag)
    hold r

theorem Valued.step_names (hv : s.Valued h) (hreach : s.Reachable) :
    (s.step i).rename.mapTable.committedMap = (s.observe i h).names := by
  rw [hreach.renamingWf.step_committedMap_eq]
  change _ = (h.retired ++ s.retiredNow i).foldl _ _
  rw [List.foldl_append, retiredNow_eq, foldl_rename, overlaid_foldl,
    hv.names]
  rfl

theorem Valued.step_known (hv : s.Valued h) (ht : s.Traced h) :
    ∀ r ∈ (s.observe i h).retired, r.entry.writesRd = true →
      ((s.observe i h).result r.entry.origin.uid).isSome := by
  intro r hr hwrites
  rcases List.mem_append.mp hr with hr | hr
  · rw [ht.result_final hr]
    exact hv.known r hr hwrites
  · rw [retiredNow_eq] at hr
    obtain ⟨tag, htag, rfl⟩ := List.mem_map.mp hr
    change ((s.observe i h).result (s.uidAt tag)).isSome
    rw [hv.retiring ht.reachable htag hwrites]
    rfl

/-- The branch of a recovery drives its link register in the next cycle. -/
theorem recovery_hits (hreach : s.Reachable) (htrap : s.trapValid i = false)
    (hrec : s.recoveryValid i = true)
    (hwrites : (s.step i).writesTag (s.recoveryTag i) = true) :
    PhysicalRegisterFile.hits (s.step i).prfWriteback 1
      ((s.step i).rob.entries (s.recoveryTag i)).newPhys = true := by
  have hnext := hreach.step i
  obtain ⟨j, hvalid, hmoves, htag, -⟩ := s.recovery_source i hrec
  have hkeep : s.recoveryYoungerMask i (s.iq.entries j).robTag = false := by
    rw [htag]
    by_contra hmask
    rw [Bool.not_eq_false,
      hreach.inFlight.robReady.recoveryYoungerMask_eq hrec] at hmask
    exact Nat.lt_irrefl _ hmask.2
  obtain ⟨h', hheld, htag'⟩ := heldAt_forward htrap (s.heldAt_iq hvalid)
    hmoves hkeep
  simp only [heldAt] at hheld
  split at hheld
  · next hvis =>
    have hrob : (s.step i).exec.secondary.robTag = s.recoveryTag i := by
      have heq : (s.step i).exec.secondary.held = h' := Option.some.inj hheld
      rw [← htag, ← show h'.robTag = (s.iq.entries j).robTag from htag', ← heq]
      rfl
    have hclean : (s.step i).exec.secondary.exception = false := by
      rw [s.step_secondary i htrap]
      rw [recoveryValid, branch_mispredicted,
        OoOExecutionUnit.branchMispredicted, Bool.and_eq_true,
        OoOExecutionUnit.branchResolved] at hrec
      simp only [Bool.and_eq_true, Bool.not_eq_true'] at hrec
      exact hrec.1.1.2
    exact hnext.writesBack.hits_of_complete hnext.inFlight
      hnext.writebackValid (l := 1) hvis hrob hclean hwrites
  · cases hheld

/-- A faultless writer that is complete after a step was live before it. Its
register is driven in this cycle, or it was complete already, or it is the
branch of a recovery. -/
theorem Reachable.step_finished (hreach : s.Reachable)
    {tag : RobTag} (hnew : tag ∈ (s.step i).rob.window)
    (hcomplete : ((s.step i).rob.entries tag).complete = true)
    (hclean : ((s.step i).rob.entries tag).exception = false)
    (hwrites : (s.step i).writesTag tag = true) :
    tag ∈ s.rob.window ∧ s.writesTag tag = true ∧
      ((s.step i).rob.entries tag).newPhys = (s.rob.entries tag).newPhys ∧
      ((∃ l, PhysicalRegisterFile.hits s.prfWriteback l
          (s.rob.entries tag).newPhys = true) ∨
        ((s.rob.entries tag).complete = true ∧
          (s.rob.entries tag).exception = false) ∨
        ∃ l, PhysicalRegisterFile.hits (s.step i).prfWriteback l
          ((s.step i).rob.entries tag).newPhys = true) := by
  have hc := hreach.countable
  have hr : s.RobReady i := hreach.inFlight.robReady
  have htrap := not_trap_of_live hnew
  by_cases hold : tag ∈ s.rob.window
  · obtain ⟨hframe, hdone⟩ := hr.step_survivor hc htrap hold hnew
    obtain ⟨hwritesEq, -, hphys, -, -⟩ :=
      RobEntry.atDispatch_renaming hframe
    have hwrites' : s.writesTag tag = true := hwritesEq.symm.trans hwrites
    refine ⟨hold, hwrites', hphys, ?_⟩
    rcases hr.step_faultless hc htrap hold hnew hclean with
      ⟨l, hvalid, htag, hlane⟩ | ⟨hnone, hentry⟩
    · exact Or.inl ⟨l, hreach.writesBack.hits_of_complete hreach.inFlight
        hreach.writebackValid hvalid htag hlane hwrites'⟩
    · rcases hdone.mp hcomplete with hbefore | ⟨l, hl⟩ | ⟨hrec, htag⟩
      · exact Or.inr (Or.inl ⟨hbefore, hentry⟩)
      · exact absurd hl (hnone l)
      · subst htag
        exact Or.inr (Or.inr ⟨1, recovery_hits hreach htrap hrec hwrites⟩)
  · obtain ⟨hrec, l, hl, rfl⟩ := hr.step_new hc hold hnew
    rw [(hr.step_dispatched hc htrap hrec hl).2.2] at hcomplete
    cases hcomplete

theorem Valued.step_live (hv : s.Valued h) (hreach : s.Reachable)
    {tag : RobTag} (hnew : tag ∈ (s.step i).rob.window)
    (hcomplete : ((s.step i).rob.entries tag).complete = true)
    (hclean : ((s.step i).rob.entries tag).exception = false)
    (hwrites : (s.step i).writesTag tag = true) :
    (∃ l, PhysicalRegisterFile.hits (s.step i).prfWriteback l
        ((s.step i).rob.entries tag).newPhys = true) ∨
      (s.observe i h).result ((s.step i).uidAt tag) =
        some ((s.step i).prf.registers
          ((s.step i).rob.entries tag).newPhys) := by
  obtain ⟨hold, hwrites', hphys, hcases⟩ :=
    hreach.step_finished hnew hcomplete hclean hwrites
  have huid : (s.step i).uidAt tag = s.uidAt tag := by
    rw [uidAt, hreach.inFlight.robReady.step_uid hreach.countable
      (not_trap_of_live hnew) hold hnew, uidAt]
  have hdriven : ((∃ l, PhysicalRegisterFile.hits s.prfWriteback l
      (s.rob.entries tag).newPhys = true) ∨
      h.result (s.uidAt tag) =
        some (s.prf.registers (s.rob.entries tag).newPhys)) →
      (s.observe i h).result ((s.step i).uidAt tag) =
        some ((s.step i).prf.registers
          ((s.step i).rob.entries tag).newPhys) := by
    intro hbus
    rw [huid, hphys, observe_result hreach.inFlight hreach.writebackValid
      hreach.renamingWf hreach.uidOrder hold hwrites' hbus]
    change _ = some ((PhysicalRegisterFile.step _ _ _ _).registers _)
    rw [step_registers]
    rfl
  rcases hcases with hbus | ⟨hbefore, hentry⟩ | hnext
  · exact Or.inr (hdriven (Or.inl hbus))
  · exact Or.inr (hdriven (hv.live tag hold hbefore hentry hwrites'))
  · exact Or.inl hnext

theorem Traced.valued (ht : s.Traced h) : s.Valued h := by
  induction ht with
  | reset =>
      refine ⟨rfl, fun _ => rfl, ?_, ?_⟩
      · intro r hr
        cases hr
      · intro tag htag
        cases htag
  | step ht i ih =>
      exact ⟨ih.step_names ht.reachable, ih.step_committed ht,
        ih.step_known ht, fun _ hnew hcomplete hclean hwrites =>
          ih.step_live ht.reachable hnew hcomplete hclean hwrites⟩

end Valued

end Backend

end OoOCore
