/-
Operands: a register marked ready holds the result of its current owner, so an
accepted uop reads what the youngest older writer of each source completed.
-/
import OoOCore.LoadOrder
import OoOCore.Values

namespace OoOCore

namespace Backend

section Owners

variable {s : Backend} {i : Inputs}

/-- The youngest of the instructions that writes the register. -/
def writerOf (s : Backend) (tags : List RobTag) (r : ArchReg) :
    Option RobTag :=
  tags.reverse.find? fun tag =>
    s.writesTag tag && decide ((s.rob.entries tag).archRd = r)

/-- The overlaid map names the youngest writer's register. -/
theorem overlaid_writer (tags : List RobTag) (r : ArchReg) :
    s.overlaid tags r = match s.writerOf tags r with
      | some tag => (s.rob.entries tag).newPhys
      | none => s.rename.mapTable.committedMap r := by
  induction tags using List.reverseRecOn with
  | nil => rfl
  | append_singleton tags tag ih =>
      rw [overlaid_append, List.foldl_cons, List.foldl_nil, installSlot,
        writerOf, List.reverse_append, List.reverse_singleton,
        List.singleton_append, List.find?_cons]
      cases hwrites : (s.rob.entries tag).writesRd with
      | false =>
          simp only [writesTag, hwrites, Bool.false_and]
          exact ih
      | true =>
          by_cases hr : (s.rob.entries tag).archRd = r
          · simp [writesTag, hwrites, hr]
          · simp only [writesTag, hwrites, hr, decide_false, Bool.and_false,
              if_true]
            rw [Function.update_of_ne (Ne.symm hr)]
            exact ih

theorem writerOf_some {tags : List RobTag} {r : ArchReg} {tag : RobTag}
    (h : s.writerOf tags r = some tag) :
    tag ∈ tags ∧ s.writesTag tag = true := by
  have hfound := List.find?_some h
  rw [Bool.and_eq_true] at hfound
  exact ⟨List.mem_reverse.mp (List.mem_of_find?_eq_some h), hfound.1⟩

theorem mem_destinations {tag : RobTag} (hlive : tag ∈ s.rob.window)
    (hwrites : s.writesTag tag = true) :
    (s.rob.entries tag).newPhys ∈ s.destinations s.rob.window :=
  List.mem_map.mpr ⟨tag, List.mem_filter.mpr ⟨hlive, hwrites⟩, rfl⟩

/-- A free register is neither committed nor a live destination. -/
theorem RenamingWf.free_unused (hwf : s.RenamingWf) {p : PhysReg}
    (hfree : s.rename.freeList.freeMask p = true) :
    (∀ r, s.rename.mapTable.committedMap r ≠ p) ∧
      p ∉ s.destinations s.rob.window := by
  have hunused := (Set.ext_iff.mp hwf.free_eq p).mp hfree
  rw [destinations_eq]
  exact hunused

/-- The register of a live writer is not free. -/
theorem RenamingWf.owned_not_free (hwf : s.RenamingWf) {tag : RobTag}
    (hlive : tag ∈ s.rob.window) (hwrites : s.writesTag tag = true) :
    s.rename.freeList.freeMask (s.rob.entries tag).newPhys = false := by
  by_contra hfree
  rw [Bool.not_eq_false] at hfree
  exact (hwf.free_unused hfree).2 (mem_destinations hlive hwrites)

/-- No name an instruction of the window looks up is free. -/
theorem RenamingWf.overlaid_not_free (hwf : s.RenamingWf)
    {tags : List RobTag} (hlive : ∀ tag ∈ tags, tag ∈ s.rob.window)
    (r : ArchReg) :
    s.rename.freeList.freeMask (s.overlaid tags r) = false := by
  rw [overlaid_writer]
  split
  · next tag hwriter =>
    obtain ⟨hmem, hwrites⟩ := writerOf_some hwriter
    exact hwf.owned_not_free (hlive tag hmem) hwrites
  · by_contra hfree
    rw [Bool.not_eq_false] at hfree
    exact (hwf.free_unused hfree).1 r rfl

/-- A lane that drives the register of a live writer completes that writer. -/
theorem Reachable.hits_completes (h : s.Reachable) {l : Lane} {tag : RobTag}
    (hlive : tag ∈ s.rob.window) (hwrites : s.writesTag tag = true)
    (hhit : PhysicalRegisterFile.hits s.prfWriteback l
      (s.rob.entries tag).newPhys = true) :
    (s.robComplete l).valid = true ∧ (s.robComplete l).robTag = tag := by
  rw [PhysicalRegisterFile.hits, Bool.and_eq_true, decide_eq_true_eq] at hhit
  obtain ⟨howner, hownerWrites, hphys, -⟩ :=
    h.inFlight.writeback_owner h.writebackValid hhit.1
  refine ⟨(h.writebackValid.completes hhit.1).1, ?_⟩
  exact h.renamingWf.newPhys_injective howner hownerWrites hlive hwrites
    (hphys.trans hhit.2)

/-- No lane drives a free register. -/
theorem Reachable.free_not_hit (h : s.Reachable) {p : PhysReg}
    (hfree : s.rename.freeList.freeMask p = true) (l : Lane) :
    PhysicalRegisterFile.hits s.prfWriteback l p = false := by
  by_contra hhit
  rw [Bool.not_eq_false, PhysicalRegisterFile.hits, Bool.and_eq_true,
    decide_eq_true_eq] at hhit
  obtain ⟨howner, hwrites, hphys, -⟩ :=
    h.inFlight.writeback_owner h.writebackValid hhit.1
  apply (h.renamingWf.free_unused hfree).2
  rw [← hhit.2, ← hphys]
  exact mem_destinations howner hwrites

end Owners

section ReadyTable

variable {s : Backend} {i : Inputs}

/-- The register can be read in this cycle: it is `p0`, some lane drives it, or
it is marked ready. -/
def Readable (s : Backend) (p : PhysReg) : Prop :=
  p = 0 ∨ (∃ l, PhysicalRegisterFile.hits s.prfWriteback l p = true) ∨
    s.prf.readyTable p = true

theorem readable_iff {p : PhysReg} :
    s.prf.readReady s.prfWriteback p = true ↔ s.Readable p := by
  simp only [PhysicalRegisterFile.readReady, Readable, Bool.or_eq_true,
    decide_eq_true_eq]
  constructor
  · rintro (((hzero | h1) | h0) | hready)
    · exact Or.inl hzero
    · exact Or.inr (Or.inl ⟨1, h1⟩)
    · exact Or.inr (Or.inl ⟨0, h0⟩)
    · exact Or.inr (Or.inr hready)
  · rintro (hzero | ⟨l, hl⟩ | hready)
    · exact Or.inl (Or.inl (Or.inl hzero))
    · rcases lane_cases l with rfl | rfl
      · exact Or.inl (Or.inr hl)
      · exact Or.inl (Or.inl (Or.inr hl))
    · exact Or.inr hready

theorem wakes_readable {p : PhysReg}
    (h : IssueQueue.wakes s.prfWriteback p = true) : s.Readable p := by
  rw [IssueQueue.wakes, Bool.or_eq_true] at h
  rcases h with h | h
  · exact Or.inr (Or.inl ⟨0, h⟩)
  · exact Or.inr (Or.inl ⟨1, h⟩)

/-- A register marked ready after the edge could be read before it. -/
theorem readable_of_ready {p : PhysReg}
    (h : (s.step i).prf.readyTable p = true) : s.Readable p := by
  change (PhysicalRegisterFile.step _ _ _ _).readyTable p = true at h
  rw [step_readyTable] at h
  rw [← readable_iff, PhysicalRegisterFile.readReady]
  simp only [Bool.or_eq_true, Bool.and_eq_true] at h ⊢
  rcases h with hdriven | hready
  · exact Or.inl hdriven
  · exact Or.inr hready.1.1

/-- A readable register that the edge does not hand out is marked ready. -/
theorem Readable.step_ready {p : PhysReg} (h : s.Readable p)
    (halloc : ∀ l, (s.destinationAllocValid i l &&
      decide (s.destinationPhys i l = p)) = false) :
    (s.step i).prf.readyTable p = true := by
  change (PhysicalRegisterFile.step _ _ _ _).readyTable p = true
  rw [step_readyTable, halloc, halloc]
  simpa [PhysicalRegisterFile.readReady] using readable_iff.mpr h

theorem Countable.not_allocated (hc : s.Countable) {p : PhysReg}
    (hfree : s.rename.freeList.freeMask p = false) (l : Lane) :
    (s.destinationAllocValid i l &&
      decide (s.destinationPhys i l = p)) = false := by
  by_contra h
  rw [Bool.not_eq_false, Bool.and_eq_true, decide_eq_true_eq,
    hc.destinationAllocValid_eq] at h
  have htaken := (hc.destination_free i h.1).2
  rw [h.2, hfree] at htaken
  cases htaken

/-- A register handed out by the edge is not marked ready after it. -/
theorem Reachable.allocated_not_ready (h : s.Reachable) {l : Lane}
    (halloc : s.freeRequest i l = true) :
    (s.step i).prf.readyTable (s.destinationPhys i l) = false := by
  obtain ⟨hzero, hfree⟩ := h.countable.destination_free i halloc
  change (PhysicalRegisterFile.step _ _ _ _).readyTable _ = false
  rw [step_readyTable, h.free_not_hit hfree, h.free_not_hit hfree,
    decide_eq_false hzero, h.countable.destinationAllocValid_eq,
    h.countable.destinationAllocValid_eq]
  match l with
  | 0 => simp [halloc]
  | 1 => simp [halloc]

end ReadyTable

/-- A register is marked ready exactly while it holds the result of its owner,
and a queued uop counts as ready only sources that are. -/
structure Readiness (s : Backend) (h : History) : Prop where
  committed : ∀ r, s.prf.readyTable (s.rename.mapTable.committedMap r) = true
  owner : ∀ tag ∈ s.rob.window, s.writesTag tag = true →
    s.prf.readyTable (s.rob.entries tag).newPhys = true →
      (s.rob.entries tag).complete = true ∧ h.result (s.uidAt tag) =
        some (s.prf.registers (s.rob.entries tag).newPhys)
  driven : ∀ tag ∈ s.rob.window, (s.rob.entries tag).complete = true →
    (s.rob.entries tag).exception = false → s.writesTag tag = true →
      s.Readable (s.rob.entries tag).newPhys
  source1 : ∀ j, (s.iq.entries j).valid = true →
    (s.iq.entries j).useRs1 = true → (s.iq.entries j).src1Ready = true →
      s.prf.readyTable (s.iq.entries j).src1Phys = true
  source2 : ∀ j, (s.iq.entries j).valid = true →
    (s.iq.entries j).useRs2 = true → (s.iq.entries j).src2Ready = true →
      s.prf.readyTable (s.iq.entries j).src2Phys = true

section Step

variable {s : Backend} {i : Inputs} {h : History}

/-- A readable register of a live writer carries its result. -/
theorem Readiness.delivered (hr : s.Readiness h) (hreach : s.Reachable)
    {tag : RobTag} (hlive : tag ∈ s.rob.window)
    (hwrites : s.writesTag tag = true)
    (hread : s.Readable (s.rob.entries tag).newPhys) :
    (s.observe i h).result (s.uidAt tag) =
      some (s.prfReadData (s.rob.entries tag).newPhys) := by
  have hdriven : (∃ l, PhysicalRegisterFile.hits s.prfWriteback l
        (s.rob.entries tag).newPhys = true) ∨
      h.result (s.uidAt tag) =
        some (s.prf.registers (s.rob.entries tag).newPhys) := by
    rcases hread with hzero | hhit | hready
    · exact absurd hzero (hreach.renamingWf.newPhys_ne_zero hlive hwrites)
    · exact Or.inl hhit
    · exact Or.inr (hr.owner tag hlive hwrites hready).2
  exact observe_result hreach.inFlight hreach.writebackValid
    hreach.renamingWf hreach.uidOrder hlive hwrites hdriven

theorem Readiness.step_committed (hr : s.Readiness h) (hreach : s.Reachable)
    (r : ArchReg) : (s.step i).prf.readyTable
      ((s.step i).rename.mapTable.committedMap r) = true := by
  have hlive : ∀ tag ∈ s.rob.window.take (s.retireCount i),
      tag ∈ s.rob.window := fun _ => List.mem_of_mem_take
  rw [hreach.renamingWf.step_committedMap_eq]
  have hfree := hreach.renamingWf.overlaid_not_free hlive r
  refine Readable.step_ready ?_ (hreach.countable.not_allocated hfree)
  rw [overlaid_writer]
  split
  · next tag hwriter =>
    obtain ⟨hmem, hwrites⟩ := writerOf_some hwriter
    obtain ⟨hcomplete, hclean⟩ := retired_complete hmem
    exact hr.driven tag (hlive tag hmem) hcomplete hclean hwrites
  · exact Or.inr (Or.inr (hr.committed r))

theorem Readiness.step_owner (hr : s.Readiness h) (hreach : s.Reachable)
    {tag : RobTag} (hnew : tag ∈ (s.step i).rob.window)
    (hwrites : (s.step i).writesTag tag = true)
    (hready : (s.step i).prf.readyTable
      ((s.step i).rob.entries tag).newPhys = true) :
    ((s.step i).rob.entries tag).complete = true ∧
      (s.observe i h).result ((s.step i).uidAt tag) =
        some ((s.step i).prf.registers
          ((s.step i).rob.entries tag).newPhys) := by
  have hc := hreach.countable
  have hrob : s.RobReady i := hreach.inFlight.robReady
  have htrap := not_trap_of_live hnew
  by_cases hold : tag ∈ s.rob.window
  · obtain ⟨hframe, hdone⟩ := hrob.step_survivor hc htrap hold hnew
    obtain ⟨hwritesEq, -, hphys, -, -⟩ :=
      RobEntry.atDispatch_renaming hframe
    have hwrites' : s.writesTag tag = true := hwritesEq.symm.trans hwrites
    rw [hphys] at hready ⊢
    have hread := readable_of_ready hready
    constructor
    · rw [hdone]
      rcases hread with hzero | ⟨l, hhit⟩ | hbefore
      · exact absurd hzero
          (hreach.renamingWf.newPhys_ne_zero hold hwrites')
      · exact Or.inr (Or.inl
          ⟨l, hreach.hits_completes hold hwrites' hhit⟩)
      · exact Or.inl (hr.owner tag hold hwrites' hbefore).1
    · rw [uidAt, hrob.step_uid hc htrap hold hnew]
      change (s.observe i h).result (s.uidAt tag) =
        some ((PhysicalRegisterFile.step _ _ _ _).registers _)
      rw [hr.delivered hreach hold hwrites' hread, step_registers]
      rfl
  · obtain ⟨hrec, l, hl, rfl⟩ := hrob.step_new hc hold hnew
    have hentry := (hrob.step_dispatched hc htrap hrec hl).2.2
    rw [writesTag, hentry] at hwrites
    change RenameStage.writesDestination (decodeBus i l) = true at hwrites
    have halloc : s.freeRequest i l = true := by
      rw [freeRequest, ← robAllocValid_eq, hl, hwrites]
      rfl
    rw [hentry] at hready
    change (s.step i).prf.readyTable (s.destinationPhys i l) = true
      at hready
    rw [hreach.allocated_not_ready halloc] at hready
    cases hready

theorem Readiness.step_driven (hr : s.Readiness h) (hreach : s.Reachable)
    {tag : RobTag} (hnew : tag ∈ (s.step i).rob.window)
    (hcomplete : ((s.step i).rob.entries tag).complete = true)
    (hclean : ((s.step i).rob.entries tag).exception = false)
    (hwrites : (s.step i).writesTag tag = true) :
    (s.step i).Readable ((s.step i).rob.entries tag).newPhys := by
  obtain ⟨hold, hwrites', hphys, hcases⟩ :=
    hreach.step_finished hnew hcomplete hclean hwrites
  have hkept : s.Readable (s.rob.entries tag).newPhys →
      (s.step i).Readable ((s.step i).rob.entries tag).newPhys := by
    intro hread
    rw [hphys]
    exact Or.inr (Or.inr (hread.step_ready (hreach.countable.not_allocated
      (hreach.renamingWf.owned_not_free hold hwrites'))))
  rcases hcases with hbus | ⟨hbefore, hentry⟩ | hnext
  · exact hkept (Or.inr (Or.inl hbus))
  · exact hkept (hr.driven tag hold hbefore hentry hwrites')
  · exact Or.inr (Or.inl hnext)

/-- The ready bit of a resident source, after the wakeups of the cycle. -/
theorem resident_ready (hreach : s.Reachable) {p : PhysReg} {bit : Bool}
    (hfree : s.rename.freeList.freeMask p = false)
    (hbit : bit = true → s.prf.readyTable p = true)
    (hready : (bit || IssueQueue.wakes s.prfWriteback p) = true) :
    (s.step i).prf.readyTable p = true := by
  refine Readable.step_ready ?_ (hreach.countable.not_allocated hfree)
  rw [Bool.or_eq_true] at hready
  rcases hready with h | h
  · exact Or.inr (Or.inr (hbit h))
  · exact wakes_readable h

/-- What a lane looks up is not free, or is the register lane 0 takes. -/
theorem Reachable.renameLookup_cases (hreach : s.Reachable) (i : Inputs)
    (l : Lane) (r : ArchReg) :
    s.rename.freeList.freeMask (s.renameLookup i l r) = false ∨
      (l = 1 ∧ s.freeRequest i 0 = true ∧
        s.renameLookup i l r = s.destinationPhys i 0) := by
  have hmap : s.rename.freeList.freeMask
      (s.rename.mapTable.speculativeMap r) = false := by
    rw [hreach.speculativeMap_eq]
    exact hreach.renamingWf.overlaid_not_free (fun _ h => h) r
  match l with
  | 0 =>
      left
      change s.rename.freeList.freeMask (s.rename.mapTable.lookup0 r) = false
      unfold RenameMapTable.lookup0
      split
      · exact hreach.countable.zero
      · exact hmap
  | 1 =>
      change s.rename.freeList.freeMask
        (s.rename.mapTable.lookup1 (s.renameLane i 0) r) = false ∨ _
      rw [show s.renameLookup i 1 r =
        s.rename.mapTable.lookup1 (s.renameLane i 0) r from rfl]
      unfold RenameMapTable.lookup1
      split
      · exact Or.inl hreach.countable.zero
      · split
        · next hlane =>
          have hvalid : s.destinationAllocValid i 0 = true := hlane.1
          rw [hreach.countable.destinationAllocValid_eq] at hvalid
          exact Or.inr ⟨rfl, hvalid, rfl⟩
        · exact Or.inl hmap

/-- The ready bit of a source at dispatch.  The register lane 0 takes is not
ready for lane 1, whatever the register file still says of it. -/
theorem dispatched_ready (hreach : s.Reachable) {l : Lane} {r : ArchReg}
    (hready : (s.renameSourceReady i l (s.renameLookup i l r) || !true ||
      decide (s.renameLookup i l r = 0) ||
      IssueQueue.wakes s.prfWriteback (s.renameLookup i l r)) = true) :
    (s.step i).prf.readyTable (s.renameLookup i l r) = true := by
  have hc := hreach.countable
  simp only [Bool.not_true, Bool.or_false, Bool.or_eq_true,
    decide_eq_true_eq] at hready
  rcases hreach.renameLookup_cases i l r with hfree | ⟨rfl, halloc, heq⟩
  · refine Readable.step_ready ?_ (hc.not_allocated hfree)
    rcases hready with (hsource | hzero) | hwake
    · match l with
      | 0 => exact readable_iff.mp hsource
      | 1 =>
          rw [renameSourceReady, Bool.and_eq_true] at hsource
          exact readable_iff.mp hsource.1
    · exact Or.inl hzero
    · exact wakes_readable hwake
  · exfalso
    obtain ⟨hne, hfree⟩ := hc.destination_free i halloc
    rw [heq] at hready
    rcases hready with (hsource | hzero) | hwake
    · rw [renameSourceReady, hc.destinationAllocValid_eq, halloc] at hsource
      simp at hsource
    · exact hne hzero
    · rw [IssueQueue.wakes, hreach.free_not_hit hfree,
        hreach.free_not_hit hfree] at hwake
      cases hwake

theorem Readiness.step_sources (hr : s.Readiness h) (hreach : s.Reachable)
    {j : IqIndex} (hvalid : ((s.step i).iq.entries j).valid = true) :
    (((s.step i).iq.entries j).useRs1 = true →
        ((s.step i).iq.entries j).src1Ready = true →
        (s.step i).prf.readyTable
          ((s.step i).iq.entries j).src1Phys = true) ∧
      (((s.step i).iq.entries j).useRs2 = true →
        ((s.step i).iq.entries j).src2Ready = true →
        (s.step i).prf.readyTable
          ((s.step i).iq.entries j).src2Phys = true) := by
  have htrap := not_trap_of_held ((s.step i).heldAt_iq hvalid)
  rcases iq_step htrap hvalid with ⟨l, -, heq⟩ | ⟨hold, -, -, heq⟩
  · rw [heq]
    constructor
    · intro huse hready
      change (decodeBus i l).useRs1 = true at huse
      change (s.renameSourceReady i l _ || !(decodeBus i l).useRs1 ||
        _ || _) = true at hready
      rw [huse] at hready
      exact dispatched_ready hreach hready
    · intro huse hready
      change (decodeBus i l).useRs2 = true at huse
      change (s.renameSourceReady i l _ || !(decodeBus i l).useRs2 ||
        _ || _) = true at hready
      rw [huse] at hready
      exact dispatched_ready hreach hready
  · obtain ⟨older, younger, hwindow⟩ :=
      live_split (hreach.inFlight.live _ _ (s.heldAt_iq hold))
    obtain ⟨hsrc1, hsrc2⟩ := hreach.sources.iq j older younger hold hwindow
    have hlive : ∀ tag ∈ older, tag ∈ s.rob.window := by
      intro tag htag
      rw [hwindow]
      exact List.mem_append_left _ htag
    rw [heq]
    constructor
    · intro huse hready
      refine resident_ready hreach ?_ (hr.source1 j hold huse) hready
      change s.rename.freeList.freeMask (s.iq.entries j).src1Phys = false
      rw [hsrc1]
      exact hreach.renamingWf.overlaid_not_free hlive _
    · intro huse hready
      refine resident_ready hreach ?_ (hr.source2 j hold huse) hready
      change s.rename.freeList.freeMask (s.iq.entries j).src2Phys = false
      rw [hsrc2]
      exact hreach.renamingWf.overlaid_not_free hlive _

theorem Traced.readiness (ht : s.Traced h) : s.Readiness h := by
  induction ht with
  | reset =>
      constructor
      · decide
      · intro tag htag
        cases htag
      · intro tag htag
        cases htag
      · intro j hvalid
        cases hvalid
      · intro j hvalid
        cases hvalid
  | step ht i ih =>
      have hreach := ht.reachable
      exact ⟨ih.step_committed hreach,
        fun _ hnew hwrites hready => ih.step_owner hreach hnew hwrites hready,
        fun _ hnew hcomplete hclean hwrites =>
          ih.step_driven hreach hnew hcomplete hclean hwrites,
        fun _ hvalid => (ih.step_sources hreach hvalid).1,
        fun _ hvalid => (ih.step_sources hreach hvalid).2⟩

end Step

section Delivery

variable {s : Backend} {i : Inputs} {h : History}

/-- The queue entry and the port of a uop the execute stage takes this
cycle. -/
inductive Accepts (s : Backend) (i : Inputs) : IqIndex → IssuePort → Prop
  | port (l : Lane) (j : IqIndex) (hchoice : s.issueChoice l = some j)
      (hready : s.issueReady i l = true) : Accepts s i j (s.issuePort i l)
  | fallback (j : IqIndex) (hchoice : s.issueSelection.fallback = some j)
      (hready : s.issueFallbackReady = true) : Accepts s i j (s.fallbackPort i)

/-- The value is that of the register after the older instructions: what the
youngest live writer has completed, or the architectural value. -/
def Delivers (s : Backend) (i : Inputs) (h : History) (older : List RobTag)
    (r : ArchReg) (value : Word) : Prop :=
  (r = 0 → value = 0) ∧
    match s.writerOf older r with
    | some tag => (s.observe i h).result (s.uidAt tag) = some value
    | none => value = h.registers r

/-- A readable name of a register delivers its value. -/
theorem Traced.delivers (ht : s.Traced h) {older : List RobTag}
    (hlive : ∀ tag ∈ older, tag ∈ s.rob.window) {r : ArchReg}
    (hread : s.Readable (s.overlaid older r)) :
    s.Delivers i h older r (s.prfReadData (s.overlaid older r)) := by
  have hreach := ht.reachable
  constructor
  · rintro rfl
    rw [hreach.renamingWf.overlaid_zero hlive]
    rfl
  · rw [overlaid_writer] at hread ⊢
    cases hwriter : s.writerOf older r with
    | some tag =>
        rw [hwriter] at hread
        obtain ⟨hmem, hwrites⟩ := writerOf_some hwriter
        exact ht.readiness.delivered hreach (hlive tag hmem) hwrites hread
    | none =>
        change s.prfReadData (s.rename.mapTable.committedMap r) = _
        rw [committed_readData hreach]
        exact ht.valued.committed r

/-- A used source that counts as ready in this cycle can be read. -/
theorem sourceReady_readable {p : PhysReg} {stored used : Bool}
    (hstored : used = true → stored = true → s.prf.readyTable p = true)
    (hready : IssueQueue.sourceReadyNow s.prfWriteback p stored used = true)
    (hused : used = true) : s.Readable p := by
  subst hused
  simp only [IssueQueue.sourceReadyNow, Bool.not_true, Bool.or_false,
    Bool.or_eq_true, decide_eq_true_eq] at hready
  rcases hready with (hbit | hzero) | hwake
  · exact Or.inr (Or.inr (hstored rfl hbit))
  · exact Or.inl hzero
  · exact wakes_readable hwake

/-- What the register file puts on an accepted uop's port. -/
structure PortOf (s : Backend) (j : IqIndex) (p : IssuePort) : Prop where
  entry : ∃ r1 r2, p.uop = (s.iq.entries j).withReady r1 r2
  ready : IssueQueue.readyEntry s.prfWriteback (s.iq.entries j) = true
  source2 : p.uop.src2Ready = true →
    IssueQueue.source2ReadyNow s.prfWriteback (s.iq.entries j) = true
  pending : p.uop.src2Ready = false → p.uop.fuClass = .memory ∧
    p.uop.dataWriteEnable = true
  sourceA : p.sourceA = s.prfReadData (s.iq.entries j).src1Phys
  sourceB : p.sourceB = s.prfReadData (s.iq.entries j).src2Phys

theorem readyEntry_source2 {wb : Lane → Writeback} {u : Uop}
    (h : IssueQueue.readyEntry wb u = true) :
    IssueQueue.source2ReadyNow wb u = true ∨
      (u.fuClass = .memory ∧ u.dataWriteEnable = true) := by
  rw [IssueQueue.readyEntry, Bool.and_eq_true, Bool.or_eq_true,
    Bool.and_eq_true] at h
  rcases h.2 with hstore | hready
  · rw [Bool.and_eq_true, beq_iff_eq] at hstore
    exact Or.inr hstore
  · exact Or.inl hready

theorem Accepts.portOf {j : IqIndex} {p : IssuePort}
    (ha : s.Accepts i j p) : s.PortOf j p := by
  cases ha with
  | port l j hchoice hready =>
      have hentry := s.issueChoice_ready hchoice
      have huop := s.issueUop_of_choice hchoice
      constructor
      · exact ⟨_, _, huop⟩
      · exact hentry
      · intro hbit
        change (s.issueUop l).src2Ready = true at hbit
        rw [huop] at hbit
        exact hbit
      · intro hbit
        change (s.issueUop l).src2Ready = false at hbit
        change (s.issueUop l).fuClass = _ ∧ (s.issueUop l).dataWriteEnable = _
        rw [huop] at hbit ⊢
        change IssueQueue.source2ReadyNow _ _ = false at hbit
        rcases readyEntry_source2 hentry with hready2 | hstore
        · rw [hbit] at hready2
          cases hready2
        · exact hstore
      · change s.prfReadData (s.issueUop l).src1Phys = _
        rw [huop]
        rfl
      · change s.prfReadData (s.issueUop l).src2Phys = _
        rw [huop]
        rfl
  | fallback j hchoice hready =>
      obtain ⟨hentry, hclass⟩ := s.iq.select_fallback_candidate _ hchoice
      have huop : s.issueFallbackUop = (s.iq.entries j).withReady true true := by
        rw [issueFallbackUop, hchoice]
        rfl
      constructor
      · exact ⟨_, _, huop⟩
      · exact hentry
      · intro _
        rcases readyEntry_source2 hentry with hready2 | hstore
        · exact hready2
        · rw [hclass] at hstore
          cases hstore.1
      · intro hbit
        change s.issueFallbackUop.src2Ready = false at hbit
        rw [huop] at hbit
        cases hbit
      · change s.prfReadData s.issueFallbackUop.src1Phys = _
        rw [huop]
        rfl
      · change s.prfReadData s.issueFallbackUop.src2Phys = _
        rw [huop]
        rfl

/-- An accepted uop reads the values its instruction has to see. -/
structure OperandsDelivered (s : Backend) (i : Inputs) (h : History)
    (p : IssuePort) : Prop where
  source1 : p.uop.useRs1 = true → s.Delivers i h
    (s.olderThan p.uop.robTag) (decoder p.uop.origin.insn).rs1 p.sourceA
  source2 : p.uop.useRs2 = true → p.uop.src2Ready = true → s.Delivers i h
    (s.olderThan p.uop.robTag) (decoder p.uop.origin.insn).rs2 p.sourceB
  pending : p.uop.src2Ready = false →
    p.uop.fuClass = .memory ∧ p.uop.dataWriteEnable = true

theorem Traced.operandsDelivered (ht : s.Traced h) {j : IqIndex}
    {p : IssuePort} (ha : s.Accepts i j p) :
    s.OperandsDelivered i h p := by
  have hreach := ht.reachable
  have hport := ha.portOf
  obtain ⟨r1, r2, huop⟩ := hport.entry
  have hvalid := IssueQueue.readyEntry_valid _ hport.ready
  obtain ⟨older, younger, hwindow⟩ :=
    live_split (hreach.inFlight.live _ _ (s.heldAt_iq hvalid))
  obtain ⟨hsrc1, hsrc2⟩ := hreach.sources.iq j older younger hvalid hwindow
  have holder : s.olderThan (s.iq.entries j).robTag = older :=
    olderThan_eq hreach.inFlight.rob hwindow
  have hlive : ∀ tag ∈ older, tag ∈ s.rob.window := by
    intro tag htag
    rw [hwindow]
    exact List.mem_append_left _ htag
  have hready1 : IssueQueue.source1ReadyNow s.prfWriteback
      (s.iq.entries j) = true := by
    have hentry := hport.ready
    rw [IssueQueue.readyEntry, Bool.and_eq_true, Bool.and_eq_true] at hentry
    exact hentry.1.2
  constructor
  · intro huse
    rw [huop] at huse ⊢
    have hread := sourceReady_readable (ht.readiness.source1 j hvalid) hready1
      huse
    rw [hport.sourceA]
    change s.Delivers i h (s.olderThan (s.iq.entries j).robTag) _ _
    rw [holder, hsrc1]
    rw [hsrc1] at hread
    exact ht.delivers hlive hread
  · intro huse hbit
    have hready2 := hport.source2 hbit
    rw [huop] at huse ⊢
    have hread := sourceReady_readable (ht.readiness.source2 j hvalid) hready2
      huse
    rw [hport.sourceB]
    change s.Delivers i h (s.olderThan (s.iq.entries j).robTag) _ _
    rw [holder, hsrc2]
    rw [hsrc2] at hread
    exact ht.delivers hlive hread
  · exact hport.pending

/-- A used source of a queued uop that is marked ready. -/
def MarkedReady (s : Backend) (j : IqIndex) (p : PhysReg) : Prop :=
  (s.iq.entries j).valid = true ∧
    (((s.iq.entries j).useRs1 = true ∧ (s.iq.entries j).src1Ready = true ∧
        (s.iq.entries j).src1Phys = p) ∨
      ((s.iq.entries j).useRs2 = true ∧ (s.iq.entries j).src2Ready = true ∧
        (s.iq.entries j).src2Phys = p))

/-- Operand correctness.  The execute stage gets from the register file what
the youngest older writer of a source completed; the ready bits of the queue
name only completed owners, and the committed registers are ready. -/
theorem Traced.operands_correct (ht : s.Traced h) :
    (∀ i j p, s.Accepts i j p → s.OperandsDelivered i h p) ∧
      (∀ j p, s.MarkedReady j p → ∀ tag ∈ s.rob.window,
        s.writesTag tag = true → (s.rob.entries tag).newPhys = p →
          (s.rob.entries tag).complete = true) ∧
      ∀ r, s.prf.readyTable (s.rename.mapTable.committedMap r) = true := by
  have hr := ht.readiness
  refine ⟨fun i j p ha => ht.operandsDelivered ha, ?_, hr.committed⟩
  rintro j p ⟨hvalid, hsource⟩ tag hlive hwrites rfl
  apply (hr.owner tag hlive hwrites _).1
  rcases hsource with ⟨huse, hbit, hphys⟩ | ⟨huse, hbit, hphys⟩
  · rw [← hphys]
    exact hr.source1 j hvalid huse hbit
  · rw [← hphys]
    exact hr.source2 j hvalid huse hbit

/-- `addi x1, x0, 1` and the `addi x2, x1, 2` behind it: the second is accepted
in the cycle the first writes back. -/
def dependentPair : List Inputs :=
  [offerPair 0x00100093 0x00208113, offerPair 0 0]

theorem operands_correct_dependentPair :
    (reset.trace {} dependentPair).1.writerOf [0] 1 = some 0 ∧
      (reset.trace {} dependentPair).1.Accepts (offerPair 0 0) 1
        ((reset.trace {} dependentPair).1.issuePort (offerPair 0 0) 1) ∧
      (reset.trace {} dependentPair).1.OperandsDelivered (offerPair 0 0)
        (reset.trace {} dependentPair).2
        ((reset.trace {} dependentPair).1.issuePort (offerPair 0 0) 1) := by
  have ht := Traced.reset.trace dependentPair
  have ha : (reset.trace {} dependentPair).1.Accepts (offerPair 0 0) 1
      ((reset.trace {} dependentPair).1.issuePort (offerPair 0 0) 1) :=
    Accepts.port 1 1 (by decide +kernel) (by decide +kernel)
  exact ⟨by decide +kernel, ha, ht.operands_correct.1 _ _ _ ha⟩

end Delivery

end Backend

end OoOCore
