/-
Wrong-path isolation: once a uop was squashed it never acts again, whoever
holds its tags and registers by then; and in the cycle that squashes it, what
it still does leaves every survivor as it would be without it.
-/
import OoOCore.Sources

namespace OoOCore

namespace Backend

section Uids

variable {s : Backend} {i : Inputs}

/-- Some live ROB entry belongs to the dispatch numbered `uid`. -/
def LiveUid (s : Backend) (uid : Nat) : Prop :=
  ∃ tag ∈ s.rob.window, (s.rob.entries tag).origin.uid = uid

/-- Live entries carry different numbers, all of them already given out. -/
structure UidOrder (s : Backend) : Prop where
  lt_next : ∀ tag ∈ s.rob.window, (s.rob.entries tag).origin.uid < s.nextUid
  injective : ∀ tag ∈ s.rob.window, ∀ tag' ∈ s.rob.window,
    (s.rob.entries tag).origin.uid = (s.rob.entries tag').origin.uid →
      tag = tag'

theorem step_nextUid : (s.step i).nextUid = s.nextUid +
    (s.robAllocValid i 0).toNat + (s.robAllocValid i 1).toNat := rfl

theorem nextUid_le : s.nextUid ≤ (s.step i).nextUid := by
  rw [step_nextUid]
  omega

theorem RobReady.step_uid (hs : s.RobReady i) (hc : s.Countable)
    (htrap : s.trapValid i = false) {tag : RobTag}
    (hold : tag ∈ s.rob.window) (hnew : tag ∈ (s.step i).rob.window) :
    ((s.step i).rob.entries tag).origin = (s.rob.entries tag).origin := by
  have hframe := (hs.step_survivor hc htrap hold hnew).1
  have horigin := congrArg RobEntry.origin hframe
  exact horigin

theorem laneUid_bounds {l : Lane} (hl : s.robAllocValid i l = true) :
    s.nextUid ≤ s.laneUid i l ∧ s.laneUid i l < (s.step i).nextUid := by
  rw [step_nextUid]
  match l, hl with
  | 0, hl =>
      rw [hl, laneUid]
      simp only [Bool.toNat_true]
      omega
  | 1, hl =>
      rw [hl, laneUid]
      simp only [Bool.toNat_true]
      omega

/-- A new entry carries a number that was not given out before. -/
theorem RobReady.new_uid (hs : s.RobReady i) (hc : s.Countable)
    (htrap : s.trapValid i = false) (hrec : s.recoveryValid i = false)
    {l : Lane} (hl : s.robAllocValid i l = true) :
    ((s.step i).rob.entries (s.robAllocTag i l)).origin.uid = s.laneUid i l ∧
      s.nextUid ≤ s.laneUid i l ∧ s.laneUid i l < (s.step i).nextUid := by
  have hentry := (hs.step_dispatched hc htrap hrec hl).2.2
  refine ⟨?_, laneUid_bounds hl⟩
  rw [hentry]
  rfl

/-- A live entry after the edge is a survivor or carries a new number. -/
theorem RobReady.live_cases (hs : s.RobReady i) (hc : s.Countable)
    {tag : RobTag} (hnew : tag ∈ (s.step i).rob.window) :
    (tag ∈ s.rob.window ∧
        ((s.step i).rob.entries tag).origin = (s.rob.entries tag).origin) ∨
      (∃ l, s.robAllocValid i l = true ∧ tag = s.robAllocTag i l ∧
        ((s.step i).rob.entries tag).origin.uid = s.laneUid i l ∧
        s.nextUid ≤ s.laneUid i l ∧ s.laneUid i l < (s.step i).nextUid) := by
  have htrap := not_trap_of_live hnew
  by_cases hold : tag ∈ s.rob.window
  · exact Or.inl ⟨hold, hs.step_uid hc htrap hold hnew⟩
  · obtain ⟨hrec, l, hl, rfl⟩ := hs.step_new hc hold hnew
    exact Or.inr ⟨l, hl, rfl, hs.new_uid hc htrap hrec hl⟩

theorem UidOrder.step (h : s.UidOrder) (hs : s.RobReady i)
    (hc : s.Countable) : (s.step i).UidOrder where
  lt_next := by
    intro tag htag
    rcases hs.live_cases hc htag with ⟨hold, heq⟩ | ⟨l, -, -, heq, -, hlt⟩
    · rw [heq]
      exact Nat.lt_of_lt_of_le (h.lt_next tag hold) nextUid_le
    · rw [heq]
      exact hlt
  injective := by
    intro tag htag tag' htag' huid
    rcases hs.live_cases hc htag with ⟨hold, heq⟩ | ⟨l, hl, rfl, heq, hge, -⟩
    · rcases hs.live_cases hc htag' with
        ⟨hold', heq'⟩ | ⟨l', -, -, heq', hge', -⟩
      · rw [heq, heq'] at huid
        exact h.injective tag hold tag' hold' huid
      · have hlt := h.lt_next tag hold
        rw [heq, heq'] at huid
        omega
    · rcases hs.live_cases hc htag' with
        ⟨hold', heq'⟩ | ⟨l', hl', rfl, heq', -, -⟩
      · have hlt := h.lt_next tag' hold'
        rw [heq, heq'] at huid
        omega
      · rw [heq, heq'] at huid
        match l, l' with
        | 0, 0 => rfl
        | 1, 1 => rfl
        | 0, 1 =>
            simp only [laneUid, hl, Bool.toNat_true] at huid
            omega
        | 1, 0 =>
            simp only [laneUid, hl', Bool.toNat_true] at huid
            omega

theorem Reachable.uidOrder {s : Backend} (h : s.Reachable) : s.UidOrder := by
  induction h with
  | reset =>
      constructor
      · intro tag htag
        cases htag
      · intro tag htag
        cases htag
  | step hreach i ih =>
      exact ih.step hreach.inFlight.robReady hreach.countable

end Uids

section Acts

/-- The write-back of a completion register belongs to its completion. -/
structure WritebackValid (s : Backend) : Prop where
  primary : s.exec.primary.writebackValid = true →
    s.exec.primary.valid = true
  secondary : s.exec.secondary.writebackValid = true →
    s.exec.secondary.valid = true
  lsu : s.exec.memory.completion.writebackValid = true →
    s.exec.memory.completion.valid = true

theorem execute_writebackValid (p : IssuePort)
    (h : (OoOExecutionUnit.execute p).writebackValid = true) :
    (OoOExecutionUnit.execute p).valid = true := by
  simp only [OoOExecutionUnit.execute, Bool.and_eq_true] at h
  exact h.1.1.1

theorem unit_writebackValid {c : OoOExecutionUnit} {flush ready : Bool}
    {p : IssuePort} (hc : c.writebackValid = true → c.valid = true)
    (h : (OoOExecutionUnit.step c flush ready p).writebackValid = true) :
    (OoOExecutionUnit.step c flush ready p).valid = true := by
  unfold OoOExecutionUnit.step at h ⊢
  cases flush with
  | true => exact absurd h (by simp [OoOExecutionUnit.cleared])
  | false =>
      simp only [Bool.false_eq_true, if_false] at h ⊢
      split
      · next hready =>
        rw [if_pos hready] at h
        exact execute_writebackValid p h
      · next hready =>
        rw [if_neg hready] at h
        exact hc h

theorem lsu_writebackValid {u : LoadStoreExecutionUnit} {x : LsuInputs}
    (h : (u.step x).completion.writebackValid = true) :
    (u.step x).completion.valid = true := by
  simp only [LoadStoreExecutionUnit.step] at h ⊢
  split
  · next hlocal =>
    rw [if_pos hlocal] at h
    simp only [LoadStoreExecutionUnit.localCompletion, Bool.and_eq_true] at h ⊢
    simp [h.1.1.1.1.1]
  · next hlocal =>
    rw [if_neg hlocal] at h
    split
    · rfl
    · next hresp =>
      rw [if_neg hresp] at h
      exact absurd h (by simp [OoOExecutionUnit.cleared])

theorem Reachable.writebackValid {s : Backend} (h : s.Reachable) :
    s.WritebackValid := by
  induction h with
  | reset =>
      constructor <;> intro hw <;> cases hw
  | step _ i ih =>
      exact ⟨unit_writebackValid ih.primary, unit_writebackValid ih.secondary,
        lsu_writebackValid⟩

/-- What a uop can do to the rest of the machine in one cycle: complete or
fault its ROB entry, resolve or redirect, drive the write-back bus (which
writes the register file, wakes the issue queue and feeds waiting stores), or
update its LSQ entry. -/
inductive Acts (s : Backend) (i : Inputs) (uid : Nat) : Prop
  | completes (l : Lane) (h : (s.robComplete l).valid = true)
      (huid : (s.robComplete l).origin.uid = uid)
  | resolves (h : (s.branch i).resolved = true)
      (huid : (s.branch i).origin.uid = uid)
  | redirects (h : s.recoveryValid i = true)
      (huid : (s.branch i).origin.uid = uid)
  | writes (l : Lane) (h : (s.prfWriteback l).valid = true)
      (huid : (s.exec.laneSource l).origin.uid = uid)
  | updates (h : (s.lsqUpdate i).addressValid = true ∨
        (s.lsqUpdate i).storeDataValid = true)
      (huid : (s.issueUop 0).origin.uid = uid)

variable {s : Backend} {i : Inputs}

theorem InFlight.held_liveUid (hs : s.InFlight) {p : Place} {h : Held}
    (hheld : s.heldAt p = some h) : s.LiveUid h.origin.uid :=
  ⟨h.robTag, hs.live p h hheld,
    congrArg Origin.uid (hs.matched p h hheld).origin⟩

theorem WritebackValid.laneSource (hw : s.WritebackValid) (l : Lane)
    (h : (s.exec.laneSource l).writebackValid = true) :
    (s.exec.laneSource l).valid = true := by
  match l with
  | 0 =>
      simp only [BackendExecuteStage.laneSource] at h ⊢
      split
      · next hmem =>
        rw [if_pos hmem] at h
        exact hw.lsu h
      · next hmem =>
        rw [if_neg hmem] at h
        exact hw.primary h
  | 1 => exact hw.secondary h

/-- A write-back lane comes with its completion. -/
theorem WritebackValid.completes (hw : s.WritebackValid) {l : Lane}
    (h : (s.prfWriteback l).valid = true) :
    (s.robComplete l).valid = true ∧
      (s.exec.laneSource l).writebackValid = true := by
  change ((s.exec.laneSource l).writebackValid &&
    s.exec.allowed (s.exec.laneSource l).robTag) = true at h
  rw [Bool.and_eq_true] at h
  refine ⟨?_, h.1⟩
  change ((s.exec.laneSource l).valid &&
    s.exec.allowed (s.exec.laneSource l).robTag) = true
  rw [hw.laneSource l h.1, h.2]
  rfl

/-- The LSQ update port is driven by the memory uop that issues. -/
theorem lsqUpdate_fire (h : (s.lsqUpdate i).addressValid = true ∨
      (s.lsqUpdate i).storeDataValid = true) :
    s.exec.memory.issueFire (s.lsuInputs i) = true := by
  have haddress : s.exec.memory.executeValid (s.lsuInputs i) = true := by
    rcases h with h | h
    · exact h
    · change s.exec.memory.storeDataValid (s.lsuInputs i) = true at h
      simp only [LoadStoreExecutionUnit.storeDataValid,
        Bool.and_eq_true] at h
      exact h.1.1
  simp only [LoadStoreExecutionUnit.executeValid, Bool.and_eq_true] at haddress
  exact haddress.1.1.1

/-- Only uops with a live ROB entry act. -/
theorem Acts.live {uid : Nat} (h : s.Acts i uid) (hs : s.InFlight)
    (hw : s.WritebackValid) : s.LiveUid uid := by
  cases h with
  | completes l h huid =>
      obtain ⟨p, hheld, -⟩ := source_of_complete i h
      rw [← huid]
      exact hs.held_liveUid hheld
  | resolves h huid =>
      obtain ⟨j, hvalid, -, -, horigin, -⟩ := s.resolved_held i h
      rw [← huid, ← horigin]
      exact hs.held_liveUid (s.heldAt_iq hvalid)
  | redirects h huid =>
      obtain ⟨j, hvalid, -, -, horigin, -⟩ :=
        s.resolved_held i (s.recovery_resolved i h)
      rw [← huid, ← horigin]
      exact hs.held_liveUid (s.heldAt_iq hvalid)
  | writes l h huid =>
      obtain ⟨p, hheld, -⟩ := source_of_complete i (hw.completes h).1
      rw [← huid]
      exact hs.held_liveUid hheld
  | updates h huid =>
      obtain ⟨j, hj, -⟩ := s.lsu_issueFire_source i (lsqUpdate_fire h)
      rw [← huid, s.issueUop_of_choice hj]
      exact hs.held_liveUid (s.heldAt_iq (s.issueChoice_valid hj))

end Acts

section Squash

variable {s : Backend} {i : Inputs}

/-- This cycle's trap flush or branch recovery removes the tag. -/
def squashes (s : Backend) (i : Inputs) (tag : RobTag) : Bool :=
  s.trapValid i || s.recoveryYoungerMask i tag

/-- The uop numbered `uid` is squashed in this cycle: its ROB entry is removed,
or it was accepted by dispatch on an edge that allocates nothing. -/
def SquashesUid (s : Backend) (i : Inputs) (uid : Nat) : Prop :=
  (∃ tag ∈ s.rob.window, (s.rob.entries tag).origin.uid = uid ∧
    s.squashes i tag = true) ∨
  ((s.trapValid i = true ∨ s.recoveryValid i = true) ∧
    ∃ l, s.robAllocValid i l = true ∧ s.laneUid i l = uid)

/-- A number that was given out and has no live entry. -/
def Gone (s : Backend) (uid : Nat) : Prop :=
  ¬ s.LiveUid uid ∧ uid < s.nextUid

theorem RobReady.squashed_not_live (hs : s.RobReady i) {tag : RobTag}
    (hsq : s.squashes i tag = true) : tag ∉ (s.step i).rob.window := by
  intro hnew
  rw [squashes, Bool.or_eq_true] at hsq
  have htrap := not_trap_of_live hnew
  rw [htrap] at hsq
  have hmask : s.recoveryYoungerMask i tag = true := by simpa using hsq
  cases hrec : s.recoveryValid i with
  | true =>
      have hkeep := ((hs.mem_step_window_recover htrap hrec tag).mp hnew).2
      rw [hkeep] at hmask
      exact absurd hmask (by decide)
  | false =>
      rw [recoveryYoungerMask_of_normal hrec] at hmask
      exact absurd hmask (by decide)

theorem UidOrder.removed_gone (h : s.UidOrder) (hs : s.RobReady i)
    (hc : s.Countable) {tag : RobTag} (hlive : tag ∈ s.rob.window)
    (hsquash : s.squashes i tag = true) :
    (s.step i).Gone (s.rob.entries tag).origin.uid := by
  have hlt := h.lt_next tag hlive
  refine ⟨?_, Nat.lt_of_lt_of_le hlt nextUid_le⟩
  rintro ⟨tag', hlive', huid⟩
  rcases hs.live_cases hc hlive' with ⟨hold, heq⟩ | ⟨l, -, -, heq, hge, -⟩
  · rw [heq] at huid
    have hsame := h.injective tag' hold tag hlive huid
    subst hsame
    exact hs.squashed_not_live hsquash hlive'
  · rw [heq] at huid
    omega

/-- On a squashing edge every live entry is an old one. -/
theorem RobReady.squashing_old (hs : s.RobReady i)
    (hedge : s.trapValid i = true ∨ s.recoveryValid i = true) {tag : RobTag}
    (hlive : tag ∈ (s.step i).rob.window) :
    s.trapValid i = false ∧ tag ∈ s.rob.window := by
  have htrap := not_trap_of_live hlive
  have hrec : s.recoveryValid i = true := by simpa [htrap] using hedge
  exact ⟨htrap, ((hs.mem_step_window_recover htrap hrec tag).mp hlive).1⟩

theorem UidOrder.squash_gone (h : s.UidOrder) (hs : s.RobReady i)
    (hc : s.Countable) {uid : Nat} (hsq : s.SquashesUid i uid) :
    (s.step i).Gone uid := by
  rcases hsq with ⟨tag, hlive, rfl, hsquash⟩ | ⟨hedge, l, hl, rfl⟩
  · exact h.removed_gone hs hc hlive hsquash
  · obtain ⟨hge, hlt⟩ := laneUid_bounds hl
    refine ⟨?_, hlt⟩
    rintro ⟨tag, hlive, huid⟩
    obtain ⟨htrap, hold⟩ := hs.squashing_old hedge hlive
    have hbound := h.lt_next tag hold
    rw [hs.step_uid hc htrap hold hlive] at huid
    omega

theorem Gone.step {uid : Nat} (h : s.Gone uid) (hs : s.RobReady i)
    (hc : s.Countable) : (s.step i).Gone uid := by
  obtain ⟨hdead, hlt⟩ := h
  refine ⟨?_, Nat.lt_of_lt_of_le hlt nextUid_le⟩
  rintro ⟨tag, hlive, huid⟩
  rcases hs.live_cases hc hlive with ⟨hold, heq⟩ | ⟨l, -, -, heq, hge, -⟩
  · rw [heq] at huid
    exact hdead ⟨tag, hold, huid⟩
  · rw [heq] at huid
    omega

theorem Reachable.run {s : Backend} (h : s.Reachable) (inputs : List Inputs) :
    (s.run inputs).Reachable := by
  induction inputs generalizing s with
  | nil => exact h
  | cons i rest ih => exact ih (h.step i)

theorem Gone.run {uid : Nat} (h : s.Gone uid) (hreach : s.Reachable)
    (inputs : List Inputs) : (s.run inputs).Gone uid := by
  induction inputs generalizing s with
  | nil => exact h
  | cons i rest ih =>
      exact ih (h.step hreach.inFlight.robReady hreach.countable)
        (hreach.step i)

/-- A squashed uop does nothing in any later cycle. -/
theorem Reachable.squashed_silent (hreach : s.Reachable) {uid : Nat}
    (hsq : s.SquashesUid i uid) (inputs : List Inputs) (i' : Inputs) :
    ¬ ((s.step i).run inputs).Acts i' uid := by
  intro hacts
  have hgone := (hreach.uidOrder.squash_gone hreach.inFlight.robReady
    hreach.countable hsq).run (hreach.step i) inputs
  have hlater := (hreach.step i).run inputs
  exact hgone.1 (hacts.live hlater.inFlight hlater.writebackValid)

end Squash

section RegisterFile

/-- The value a register holds after the edge is the one read in front of it. -/
theorem step_registers (f : PhysicalRegisterFile) (allocValid : Lane → Bool)
    (allocPhys : Lane → PhysReg) (wb : Lane → Writeback) (p : PhysReg) :
    (f.step allocValid allocPhys wb).registers p = f.readData wb p := by
  by_cases hzero : p = 0
  · subst hzero
    simp [PhysicalRegisterFile.step, PhysicalRegisterFile.readData]
  · have hwrite : ∀ (m : PhysReg → Word) (w : Writeback),
        PhysicalRegisterFile.writeData m w p =
          if (w.valid && decide (w.phys = p)) = true then w.data else m p := by
      intro m w
      unfold PhysicalRegisterFile.writeData
      by_cases hphys : w.phys = p
      · subst hphys
        by_cases hvalid : w.valid = true
        · simp [hvalid, hzero]
        · simp [hvalid]
      · simp only [hphys, decide_false, Bool.and_false, Bool.false_eq_true,
          if_false]
        split
        · exact Function.update_of_ne (Ne.symm hphys) _ _
        · rfl
    change Function.update _ 0 0 p = _
    rw [Function.update_of_ne hzero, hwrite, hwrite,
      PhysicalRegisterFile.readData, if_neg hzero]
    rfl

/-- Readiness after the edge: a write-back sets it, an allocation clears it. -/
theorem step_readyTable (f : PhysicalRegisterFile) (allocValid : Lane → Bool)
    (allocPhys : Lane → PhysReg) (wb : Lane → Writeback) (p : PhysReg) :
    (f.step allocValid allocPhys wb).readyTable p =
      (decide (p = 0) || PhysicalRegisterFile.hits wb 1 p ||
        PhysicalRegisterFile.hits wb 0 p ||
        (f.readyTable p && !(allocValid 0 && decide (allocPhys 0 = p)) &&
          !(allocValid 1 && decide (allocPhys 1 = p)))) := by
  by_cases hzero : p = 0
  · subst hzero
    simp [PhysicalRegisterFile.step]
  · have hset : ∀ (m : PhysReg → Bool) (w : Writeback),
        PhysicalRegisterFile.setReady m w p =
          ((w.valid && decide (w.phys = p)) || m p) := by
      intro m w
      unfold PhysicalRegisterFile.setReady
      by_cases hphys : w.phys = p
      · subst hphys
        by_cases hvalid : w.valid = true
        · simp [hvalid, hzero]
        · simp [hvalid]
      · simp only [hphys, decide_false, Bool.and_false, Bool.false_or]
        split
        · exact Function.update_of_ne (Ne.symm hphys) _ _
        · rfl
    have hclear : ∀ (m : PhysReg → Bool) (valid : Bool) (q : PhysReg),
        PhysicalRegisterFile.clearReady m valid q p =
          (m p && !(valid && decide (q = p))) := by
      intro m valid q
      unfold PhysicalRegisterFile.clearReady
      by_cases hphys : q = p
      · subst hphys
        cases valid
        · simp
        · simp [hzero]
      · simp only [hphys, decide_false, Bool.and_false, Bool.not_false,
          Bool.and_true]
        split
        · exact Function.update_of_ne (Ne.symm hphys) _ _
        · rfl
    change (Function.update _ 0 true : PhysReg → Bool) p = _
    rw [Function.update_of_ne hzero, hset, hset, hclear, hclear]
    simp only [hzero, decide_false, Bool.false_or, Bool.or_assoc]
    rfl

end RegisterFile

section Survivors

variable (s : Backend) (i : Inputs)

/-- The completion lanes without those of squashed uops. -/
def survivingComplete (l : Lane) : Completion :=
  { s.robComplete l with
    valid := (s.robComplete l).valid && !s.squashes i (s.robComplete l).robTag }

/-- The write-back lanes without those of squashed uops. -/
def survivingWriteback (l : Lane) : Writeback :=
  { s.prfWriteback l with
    valid := (s.prfWriteback l).valid &&
      !s.squashes i (s.exec.laneSource l).robTag }

/-- The LSQ update port without a squashed uop. -/
def survivingUpdate : LsqUpdate :=
  { s.lsqUpdate i with
    addressValid := (s.lsqUpdate i).addressValid &&
      !s.squashes i (s.issueUop 0).robTag
    storeDataValid := (s.lsqUpdate i).storeDataValid &&
      !s.squashes i (s.issueUop 0).robTag }

/-- No squashed uop owns the register. -/
def Spared (p : PhysReg) : Prop :=
  ∀ tag ∈ s.rob.window, s.squashes i tag = true →
    (s.rob.entries tag).writesRd = true → (s.rob.entries tag).newPhys ≠ p

variable {s i}

/-- The survivors are the older part of the window. -/
theorem RobReady.window_survivors (hs : s.RobReady i)
    (hedge : s.trapValid i = true ∨ s.recoveryValid i = true) :
    ∃ cut, s.rob.window = (s.step i).rob.window ++ cut ∧
      ∀ tag ∈ s.rob.window, s.squashes i tag = true → tag ∈ cut := by
  have hsplit : ∃ cut, s.rob.window = (s.step i).rob.window ++ cut := by
    cases htrap : s.trapValid i with
    | true =>
        rw [step_window_flush htrap]
        exact ⟨s.rob.window, rfl⟩
    | false =>
        have hrec : s.recoveryValid i = true := by simpa [htrap] using hedge
        obtain ⟨older, younger, hwindow, hwindow'⟩ :=
          hs.window_split htrap hrec
        rw [hwindow', hwindow]
        exact ⟨younger, by simp⟩
  obtain ⟨cut, hcut⟩ := hsplit
  refine ⟨cut, hcut, ?_⟩
  intro tag hlive hsq
  have hdead := hs.squashed_not_live hsq
  rw [hcut, List.mem_append] at hlive
  exact hlive.resolve_left hdead

/-- A name the survivors overlay is spared. -/
theorem RenamingWf.overlaid_spared (hwf : s.RenamingWf) (hs : s.RobReady i)
    (hedge : s.trapValid i = true ∨ s.recoveryValid i = true)
    {older younger : List RobTag}
    (hwindow : (s.step i).rob.window = older ++ younger) (r : ArchReg) :
    s.Spared i (s.overlaid older r) := by
  intro tag hlive hsq hwrites heq
  obtain ⟨cut, hcut, hmem⟩ := hs.window_survivors hedge
  have hqueue : s.renamingState.queue = older.map s.renamingItem ++
      (younger ++ cut).map s.renamingItem := by
    change s.rob.window.map s.renamingItem = _
    rw [hcut, hwindow, List.append_assoc, List.map_append]
  have htaken : (s.rob.entries tag).newPhys ∈
      Renaming.taken ((younger ++ cut).map s.renamingItem) := by
    rw [← destinations_eq, destinations]
    apply List.mem_map.mpr
    refine ⟨tag, List.mem_filter.mpr ⟨?_, hwrites⟩, rfl⟩
    exact List.mem_append_right _ (hmem tag hlive hsq)
  rw [overlaid_eq] at heq
  exact hwf.overlay_ne_taken hqueue htaken r heq.symm

/-- The destination of a survivor is spared. -/
theorem RenamingWf.destination_spared (hwf : s.RenamingWf)
    (hs : s.RobReady i)
    (hedge : s.trapValid i = true ∨ s.recoveryValid i = true) {p : PhysReg}
    (hp : p ∈ s.destinations (s.step i).rob.window) : s.Spared i p := by
  intro tag hlive hsq hwrites heq
  obtain ⟨cut, hcut, hmem⟩ := hs.window_survivors hedge
  have hnodup := hwf.taken_nodup
  change (Renaming.taken (s.rob.window.map s.renamingItem)).Nodup at hnodup
  rw [hcut, List.map_append, Renaming.taken_append, ← destinations_eq,
    ← destinations_eq] at hnodup
  have hcutmem : (s.rob.entries tag).newPhys ∈ s.destinations cut := by
    apply List.mem_map.mpr
    exact ⟨tag, List.mem_filter.mpr ⟨hmem tag hlive hsq, hwrites⟩, rfl⟩
  exact (List.nodup_append.mp hnodup).2.2 p hp _ hcutmem heq.symm

/-- A write-back lane carries the new name of its live ROB entry. -/
theorem InFlight.writeback_owner (hs : s.InFlight) (hw : s.WritebackValid)
    {l : Lane} (h : (s.prfWriteback l).valid = true) :
    (s.exec.laneSource l).robTag ∈ s.rob.window ∧
      (s.rob.entries (s.exec.laneSource l).robTag).writesRd = true ∧
      (s.rob.entries (s.exec.laneSource l).robTag).newPhys =
        (s.prfWriteback l).phys ∧
      (s.rob.entries (s.exec.laneSource l).robTag).origin =
        (s.exec.laneSource l).origin := by
  obtain ⟨hvalid, hwrites⟩ := hw.completes h
  obtain ⟨p, hheld, -⟩ := source_of_complete (offerPair 0 0) hvalid
  have hmatched := hs.matched p _ hheld
  obtain ⟨hwritesRd, hnew⟩ := hmatched.writes hwrites
  exact ⟨hs.live p _ hheld, hwritesRd, hnew, hmatched.origin⟩

/-- A spared register sees the same write-backs without the squashed uops. -/
theorem InFlight.survivingWriteback_hits (hs : s.InFlight)
    (hw : s.WritebackValid) {p : PhysReg} (hp : s.Spared i p) (l : Lane) :
    PhysicalRegisterFile.hits (s.survivingWriteback i) l p =
      PhysicalRegisterFile.hits s.prfWriteback l p := by
  cases hvalid : (s.prfWriteback l).valid with
  | false =>
      simp [PhysicalRegisterFile.hits, survivingWriteback, hvalid]
  | true =>
      cases hsq : s.squashes i (s.exec.laneSource l).robTag with
      | false =>
          simp [PhysicalRegisterFile.hits, survivingWriteback, hvalid, hsq]
      | true =>
          obtain ⟨hlive, hwrites, hphys, -⟩ := hs.writeback_owner hw hvalid
          have hne : (s.prfWriteback l).phys ≠ p := by
            rw [← hphys]
            exact hp _ hlive hsq hwrites
          simp [PhysicalRegisterFile.hits, survivingWriteback, hne]

/-- What a surviving entry could read is spared. -/
theorem RenamingWf.older_spared (hwf : s.RenamingWf) (hs : s.RobReady i)
    (hedge : s.trapValid i = true ∨ s.recoveryValid i = true) {tag : RobTag}
    (hlive : tag ∈ (s.step i).rob.window) :
    ∃ older younger, s.rob.window = older ++ tag :: younger ∧
      ∀ r, s.Spared i (s.overlaid older r) := by
  obtain ⟨older, younger, hwindow⟩ := live_split hlive
  obtain ⟨cut, hcut, -⟩ := hs.window_survivors hedge
  refine ⟨older, younger ++ cut, ?_, hwf.overlaid_spared hs hedge hwindow⟩
  rw [hcut, hwindow, List.append_assoc, List.cons_append]

/-- The LSU accepts no squashed uop. -/
theorem survivingUpdate_eq : s.survivingUpdate i = s.lsqUpdate i := by
  by_cases hfire : s.exec.memory.issueFire (s.lsuInputs i) = true
  · have hsq : s.squashes i (s.issueUop 0).robTag = false := by
      simp only [LoadStoreExecutionUnit.issueFire,
        LoadStoreExecutionUnit.issueReady,
        LoadStoreExecutionUnit.baseIssueReady,
        LoadStoreExecutionUnit.issueAllowed, Bool.and_eq_true,
        Bool.not_eq_true'] at hfire
      obtain ⟨-, ⟨⟨-, hremoves⟩, hflush⟩, -⟩ := hfire
      rw [removes_eq] at hremoves
      change s.trapValid i = false at hflush
      rw [squashes, hflush]
      exact hremoves
    simp [survivingUpdate, hsq]
  · have haddress : (s.lsqUpdate i).addressValid = false := by
      by_contra h
      exact hfire (lsqUpdate_fire (Or.inl (by simpa using h)))
    have hdata : (s.lsqUpdate i).storeDataValid = false := by
      by_contra h
      exact hfire (lsqUpdate_fire (Or.inr (by simpa using h)))
    rw [survivingUpdate, haddress, hdata, Bool.false_and]
    cases hupdate : s.lsqUpdate i with
    | mk addressValid storeDataValid tag address storeData =>
        rw [hupdate] at haddress hdata
        simp only at haddress hdata
        rw [haddress, hdata]

/-- The ROB ignores the completions of squashed uops. -/
theorem step_rob_survivors
    (hedge : s.trapValid i = true ∨ s.recoveryValid i = true) :
    (s.step i).rob = s.rob.step (s.trapValid i) (s.recoveryValid i)
      (s.robAllocValid i) (s.renameRobEntry i) (s.survivingComplete i)
      (s.branchResolve i) (s.robRetireValid i) := by
  cases htrap : s.trapValid i with
  | true =>
      rw [step_rob_flush s i htrap]
      rfl
  | false =>
      have hrec : s.recoveryValid i = true := by simpa [htrap] using hedge
      have hmask : s.rob.recoverYoungerMask true (s.branchResolve i).tag =
          s.squashes i := by
        funext tag
        rw [squashes, htrap, Bool.false_or, recoveryYoungerMask, hrec]
        rfl
      have hlane : ∀ l next,
          s.rob.completeLane (s.squashes i) (s.survivingComplete i l) next =
            s.rob.completeLane (s.squashes i) (s.robComplete l) next := by
        intro l next
        funext tag
        rw [ReorderBuffer.completeLane_apply, ReorderBuffer.completeLane_apply]
        have heq : s.rob.completes (s.squashes i) (s.survivingComplete i l)
            tag = s.rob.completes (s.squashes i) (s.robComplete l) tag := by
          change ((s.robComplete l).valid &&
            !s.squashes i (s.robComplete l).robTag &&
              decide ((s.robComplete l).robTag = tag) && _ && _) = _
          by_cases htag : (s.robComplete l).robTag = tag
          · rw [htag, ReorderBuffer.completes, htag]
            cases s.squashes i tag <;> simp
          · simp [ReorderBuffer.completes, htag]
        rw [heq]
        rfl
      rw [step_rob_recover s i htrap hrec, hrec]
      change _ = s.rob.stepRecover (s.branchResolve i) (s.survivingComplete i)
      unfold ReorderBuffer.stepRecover
      simp only [hmask, hlane]

/-- A surviving queue entry is woken by surviving uops only. -/
theorem step_iq_survivors (hs : s.InFlight) (hw : s.WritebackValid)
    (hwf : s.RenamingWf) (hsrc : s.Sources)
    (hedge : s.trapValid i = true ∨ s.recoveryValid i = true) {j : IqIndex}
    (hvalid : ((s.step i).iq.entries j).valid = true) :
    (s.iq.entries j).valid = true ∧ (s.step i).iq.entries j =
      IssueQueue.wakeEntry (s.survivingWriteback i) (s.iq.entries j) := by
  cases htrap : s.trapValid i with
  | true =>
      have hnone := flush_heldAt (s := s) (i := i) htrap (.iq j)
      rw [heldAt_iq _ hvalid] at hnone
      cases hnone
  | false =>
      have hrec : s.recoveryValid i = true := by simpa [htrap] using hedge
      rcases iq_step htrap hvalid with
        ⟨l, ⟨hnormal, -⟩, -⟩ | ⟨hold, -, hmask, hentry⟩
      · rw [hrec] at hnormal
        cases hnormal
      · have hlive := hs.live _ _ (s.heldAt_iq hold)
        have hkept : (s.iq.entries j).robTag ∈ (s.step i).rob.window :=
          (hs.robReady.mem_step_window_recover htrap hrec _).mpr
            ⟨hlive, hmask⟩
        obtain ⟨older, younger, hwindow, hspared⟩ :=
          hwf.older_spared hs.robReady hedge hkept
        obtain ⟨hsrc1, hsrc2⟩ := hsrc.iq j older younger hold hwindow
        refine ⟨hold, ?_⟩
        rw [hentry, IssueQueue.wakeEntry, IssueQueue.wakeEntry,
          IssueQueue.wakes, IssueQueue.wakes, IssueQueue.wakes,
          IssueQueue.wakes, hsrc1, hsrc2,
          hs.survivingWriteback_hits hw (hspared _),
          hs.survivingWriteback_hits hw (hspared _),
          hs.survivingWriteback_hits hw (hspared _),
          hs.survivingWriteback_hits hw (hspared _)]

/-- A surviving store captures data of surviving uops only. -/
theorem snoops_survivors (hs : s.InFlight) (hw : s.WritebackValid)
    (hwf : s.RenamingWf) (hsrc : s.Sources) (hm : s.MemoryOrder)
    (htrap : s.trapValid i = false) (hrec : s.recoveryValid i = true)
    (l : Lane) (t : LsqTag) :
    s.lsq.snoops (s.recoveryYoungerMask i) (s.survivingWriteback i l) t =
      s.lsq.snoops (s.recoveryYoungerMask i) (s.prfWriteback l) t := by
  have hhits : ∀ wb : Lane → Writeback,
      s.lsq.snoops (s.recoveryYoungerMask i) (wb l) t =
        ((s.lsq.entries t).valid && (s.lsq.entries t).isStore &&
          !(s.lsq.entries t).dataReady &&
          !s.recoveryYoungerMask i (s.lsq.entries t).robTag &&
          PhysicalRegisterFile.hits wb l (s.lsq.entries t).storeDataPhys) := by
    intro wb
    rw [LoadStoreQueue.snoops, PhysicalRegisterFile.hits, Bool.and_assoc]
  rw [hhits, hhits]
  cases hvalid : (s.lsq.entries t).valid with
  | false => rfl
  | true =>
      cases hmask : s.recoveryYoungerMask i (s.lsq.entries t).robTag with
      | true => simp
      | false =>
          have ht : t ∈ s.lsq.window := (hm.wf.valid_iff t).mp hvalid
          have hkept : s.lsqOwner t ∈ (s.step i).rob.window :=
            (hs.robReady.mem_step_window_recover htrap hrec _).mpr
              ⟨(hm.owner_live ht).1, hmask⟩
          obtain ⟨older, younger, hwindow, hspared⟩ :=
            hwf.older_spared hs.robReady (Or.inr hrec) hkept
          rw [hsrc.lsq t older younger ht hwindow,
            hs.survivingWriteback_hits hw (hspared _)]

/-- The LSQ ignores what squashed uops drive. -/
theorem step_lsq_survivors (hs : s.InFlight) (hw : s.WritebackValid)
    (hwf : s.RenamingWf) (hsrc : s.Sources) (hm : s.MemoryOrder)
    (hedge : s.trapValid i = true ∨ s.recoveryValid i = true) :
    (s.step i).lsq = s.lsq.step (s.trapValid i) (s.recoveryValid i)
      (s.recoveryYoungerMask i) (s.lsqAllocValid i) (s.renameLsqEntry i)
      (s.survivingUpdate i) (s.survivingWriteback i) (s.lsqRetireCount i) := by
  cases htrap : s.trapValid i with
  | true =>
      rw [step_lsq_flush htrap]
      rfl
  | false =>
      have hrec : s.recoveryValid i = true := by simpa [htrap] using hedge
      rw [step_lsq_recover htrap hrec, hrec, survivingUpdate_eq]
      change _ = s.lsq.stepRecover _ _ _
      have hentries : (s.lsq.stepRecover (s.recoveryYoungerMask i)
            (s.lsqUpdate i) s.prfWriteback).entries =
          (s.lsq.stepRecover (s.recoveryYoungerMask i) (s.lsqUpdate i)
            (s.survivingWriteback i)).entries := by
        funext t
        rw [LoadStoreQueue.stepRecover_entries,
          LoadStoreQueue.stepRecover_entries]
        unfold LoadStoreQueue.captured
        rw [snoops_survivors hs hw hwf hsrc hm htrap hrec,
          snoops_survivors hs hw hwf hsrc hm htrap hrec]
        rfl
      unfold LoadStoreQueue.stepRecover at hentries ⊢
      simp only at hentries ⊢
      rw [hentries]

/-- A register that survivors or retired instructions own is spared, and no
lane of dispatch takes it. -/
theorem owned_spared (hs : s.InFlight) (hwf : s.RenamingWf)
    (hc : s.Countable)
    (hedge : s.trapValid i = true ∨ s.recoveryValid i = true) {p : PhysReg}
    (hp : p ∈ Set.range (s.step i).rename.mapTable.committedMap ∨
      p ∈ (s.step i).destinations (s.step i).rob.window) :
    s.Spared i p ∧ ∀ l, (s.destinationAllocValid i l &&
      decide (s.destinationPhys i l = p)) = false := by
  have hnone := s.robRetireValid_of_squash i hedge
  have hold : p ∈ Set.range s.rename.mapTable.committedMap ∨
      p ∈ s.destinations (s.step i).rob.window := by
    rcases hp with hp | hp
    · rw [s.step_committedMap_of_none i hnone] at hp
      exact Or.inl hp
    · right
      obtain ⟨tag, htag, rfl⟩ := List.mem_map.mp hp
      obtain ⟨hlive, hwrites⟩ := List.mem_filter.mp htag
      obtain ⟨htrap, holdlive⟩ := hs.robReady.squashing_old hedge hlive
      obtain ⟨hwrites', -, hnew, -, -⟩ := RobEntry.atDispatch_renaming
        (hs.robReady.step_survivor hc htrap holdlive hlive).1
      rw [hwrites'] at hwrites
      rw [hnew]
      exact List.mem_map.mpr ⟨tag, List.mem_filter.mpr ⟨hlive, hwrites⟩, rfl⟩
  constructor
  · rcases hold with ⟨r, rfl⟩ | hold
    · exact hwf.overlaid_spared hs.robReady hedge (List.nil_append _).symm r
    · exact hwf.destination_spared hs.robReady hedge hold
  · intro l
    by_contra halloc
    rw [Bool.not_eq_false, Bool.and_eq_true, decide_eq_true_eq] at halloc
    obtain ⟨hvalid, rfl⟩ := halloc
    rw [hc.destinationAllocValid_eq] at hvalid
    have hfree := (hc.destination_free i hvalid).2
    have hunused : s.destinationPhys i l ∈ s.renamingState.free := hfree
    rw [hwf.free_eq] at hunused
    rcases hold with ⟨r, hr⟩ | hold
    · exact hunused.1 r hr
    · obtain ⟨cut, hcut, -⟩ := hs.robReady.window_survivors hedge
      apply hunused.2
      change _ ∈ Renaming.taken (s.rob.window.map s.renamingItem)
      rw [hcut, List.map_append, Renaming.taken_append, ← destinations_eq]
      exact List.mem_append_left _ hold

/-- What is left of a squashing edge without the squashed uops: the ROB, the
LSQ, the surviving queue entries and the owned registers are the same. -/
structure SurvivorsUntouched (s : Backend) (i : Inputs) : Prop where
  rob : (s.step i).rob = s.rob.step (s.trapValid i) (s.recoveryValid i)
    (s.robAllocValid i) (s.renameRobEntry i) (s.survivingComplete i)
    (s.branchResolve i) (s.robRetireValid i)
  iq : ∀ j, ((s.step i).iq.entries j).valid = true →
    (s.iq.entries j).valid = true ∧ (s.step i).iq.entries j =
      IssueQueue.wakeEntry (s.survivingWriteback i) (s.iq.entries j)
  lsq : (s.step i).lsq = s.lsq.step (s.trapValid i) (s.recoveryValid i)
    (s.recoveryYoungerMask i) (s.lsqAllocValid i) (s.renameLsqEntry i)
    (s.survivingUpdate i) (s.survivingWriteback i) (s.lsqRetireCount i)
  prf : ∀ p, p ∈ Set.range (s.step i).rename.mapTable.committedMap ∨
      p ∈ (s.step i).destinations (s.step i).rob.window →
    (s.step i).prf.registers p =
        s.prf.readData (s.survivingWriteback i) p ∧
      (s.step i).prf.readyTable p =
        s.prf.readReady (s.survivingWriteback i) p

theorem Reachable.survivorsUntouched (h : s.Reachable)
    (hedge : s.trapValid i = true ∨ s.recoveryValid i = true) :
    s.SurvivorsUntouched i where
  rob := step_rob_survivors hedge
  iq := fun _ hvalid => step_iq_survivors h.inFlight h.writebackValid
    h.renamingWf h.sources hedge hvalid
  lsq := step_lsq_survivors h.inFlight h.writebackValid h.renamingWf h.sources
    h.memoryOrder hedge
  prf := by
    intro p hp
    obtain ⟨hspared, halloc⟩ :=
      owned_spared h.inFlight h.renamingWf h.countable hedge hp
    have hhits := h.inFlight.survivingWriteback_hits h.writebackValid hspared
    constructor
    · change (s.prf.step _ _ _).registers p = _
      rw [step_registers, PhysicalRegisterFile.readData,
        PhysicalRegisterFile.readData, hhits, hhits]
      rfl
    · change (s.prf.step _ _ _).readyTable p = _
      rw [step_readyTable, halloc, halloc, PhysicalRegisterFile.readReady,
        hhits, hhits]
      simp

/-- A squashed uop does nothing in any later cycle, and in the squashing cycle
itself the survivors are as they would be without the squashed uops. -/
theorem Reachable.wrongPath_isolated (h : s.Reachable) (i : Inputs) :
    (∀ uid, s.SquashesUid i uid → ∀ inputs i',
      ¬ ((s.step i).run inputs).Acts i' uid) ∧
      (s.trapValid i = true ∨ s.recoveryValid i = true →
        s.SurvivorsUntouched i) := by
  constructor
  · intro uid hsq inputs i'
    exact h.squashed_silent hsq inputs i'
  · intro hedge
    exact h.survivorsUntouched hedge

/-- A taken branch predicted not taken, with its wrong-path successor. -/
def behindBranch : Backend := reset.step (offerPair 0x00000463 0x00100093)

theorem wrongPath_isolated_behindBranch :
    behindBranch.recoveryValid (offerPair 0 0) = true ∧
      behindBranch.SquashesUid (offerPair 0 0) 1 ∧
      (∀ inputs i', ¬ ((behindBranch.step (offerPair 0 0)).run inputs).Acts
        i' 1) ∧
      behindBranch.SurvivorsUntouched (offerPair 0 0) := by
  have hrec : behindBranch.recoveryValid (offerPair 0 0) = true := by
    decide +kernel
  have hsq : behindBranch.SquashesUid (offerPair 0 0) 1 :=
    Or.inl ⟨1, by decide +kernel, by decide +kernel, by decide +kernel⟩
  have hiso := (Reachable.reset.step (offerPair 0x00000463
    0x00100093)).wrongPath_isolated (offerPair 0 0)
  exact ⟨hrec, hsq, hiso.1 1 hsq, hiso.2 (Or.inr hrec)⟩

end Survivors

end Backend

end OoOCore
