/-
The path through the backend.  From the instruction behind the last retired one
on, the live instructions follow each other: along the prediction until a branch
resolves, along its outcome from then on.
-/
import OoOCore.FetchPath
import OoOCore.MachineStep
import OoOCore.Resolution

namespace OoOCore

/-- Where a branch at `pc` goes on. -/
def BranchOutcome.next (r : BranchOutcome) (pc : Word) : Word :=
  if r.taken then r.target else pc + 4

/-- Opcodes of branches and jumps that the decoder accepts are control
transfers. -/
theorem decoder_transfers {insn : Word}
    (h : BranchPredictionUnit.transfers insn = true)
    (hlegal : (decoder insn).decodeException = false) :
    (decoder insn).branchCtr ≠ .none := by
  have hop : Insn.opcode insn = 0b1100011 ∨ Insn.opcode insn = 0b1101111 ∨
      Insn.opcode insn = 0b1100111 := by
    have hfield : BranchPredictionUnit.opcode insn = Insn.opcode insn := by
      rw [BranchPredictionUnit.opcode, Insn.opcode,
        BitVec.setWidth_eq_extractLsb' (by decide)]
    simpa only [BranchPredictionUnit.transfers,
      BranchPredictionUnit.isUnconditional,
      BranchPredictionUnit.isConditional, BranchPredictionUnit.isJal,
      BranchPredictionUnit.isJalr, Bool.or_eq_true, decide_eq_true_eq,
      hfield] using h
  have harm := decoder_arm insn
  generalize decoder insn = d at harm hlegal ⊢
  cases harm with
  | op hclass | opImm hclass | load hclass | store hclass | lui hclass
  | auipc hclass | fence hclass | system hclass =>
      rw [hclass] at hop
      exact absurd hop (by decide)
  | other => cases hlegal
  | jal => exact fun h => by cases h
  | jalr =>
      unfold decodeJalr at hlegal ⊢
      split at hlegal
      · next hf =>
        rw [if_pos hf]
        exact fun h => by cases h
      · cases hlegal
  | branch =>
      unfold decodeBranch branchKind at hlegal ⊢
      repeat' split at hlegal
      all_goals simp_all

namespace RobEntry

/-- Where the instruction after an entry was predicted to be. -/
def predictedNext (e : RobEntry) : Word :=
  if e.predictedTaken then e.predictedTarget else e.pc + 4

/-- Where an entry is followed: a branch that has resolved along its outcome,
anything else along its prediction. -/
def follow (o : Outcomes) (e : RobEntry) : Word :=
  if e.isBranch then
    ((o e.origin.uid).map fun r => r.next e.pc).getD e.predictedNext
  else e.predictedNext

def link (o : Outcomes) (e : RobEntry) : Link Word where
  place := e.pc
  next := e.follow o

/-- The entry holds an instruction of the memory, and only a branch or a jump
was predicted taken. -/
structure Fetched (mem : BitVec 14 → Word) (e : RobEntry) : Prop where
  word : e.origin.insn = InsnMem.wordAt mem e.pc
  taken : e.predictedTaken = true →
    BranchPredictionUnit.transfers e.origin.insn = true

variable {mem : BitVec 14 → Word} {e e' : RobEntry} {o : Outcomes}

theorem Fetched.of_atDispatch (h : e.Fetched mem)
    (heq : e'.atDispatch = e.atDispatch) : e'.Fetched mem := by
  have horigin := congrArg RobEntry.origin heq
  have hpc := congrArg RobEntry.pc heq
  have htaken := congrArg RobEntry.predictedTaken heq
  change e'.origin = e.origin at horigin
  change e'.pc = e.pc at hpc
  change e'.predictedTaken = e.predictedTaken at htaken
  refine ⟨?_, ?_⟩
  · rw [horigin, hpc]
    exact h.word
  · rw [horigin, htaken]
    exact h.taken

/-- What `follow` and `link` read is fixed at dispatch, apart from the
outcomes. -/
theorem link_of_atDispatch (heq : e'.atDispatch = e.atDispatch)
    {o' : Outcomes} (ho : e.isBranch = true →
      o' e.origin.uid = o e.origin.uid) : e'.link o' = e.link o := by
  have horigin := congrArg RobEntry.origin heq
  have hpc := congrArg RobEntry.pc heq
  have htaken := congrArg RobEntry.predictedTaken heq
  have htarget := congrArg RobEntry.predictedTarget heq
  have hbranch := congrArg RobEntry.isBranch heq
  change e'.origin = e.origin at horigin
  change e'.pc = e.pc at hpc
  change e'.predictedTaken = e.predictedTaken at htaken
  change e'.predictedTarget = e.predictedTarget at htarget
  change e'.isBranch = e.isBranch at hbranch
  rw [link, link, follow, follow, predictedNext, predictedNext, horigin, hpc,
    htaken, htarget, hbranch]
  cases hb : e.isBranch with
  | true => rw [ho hb]
  | false => rfl

/-- An instruction that is no branch was predicted to go on behind itself. -/
theorem Fetched.predictedNext_plain (h : e.Fetched mem)
    (hd : e.Decodes (decoder e.origin.insn))
    (hlegal : (decoder e.origin.insn).decodeException = false)
    (hplain : e.isBranch = false) : e.predictedNext = e.pc + 4 := by
  rw [predictedNext]
  cases htaken : e.predictedTaken with
  | false => rfl
  | true =>
      have hctr := decoder_transfers (h.taken htaken) hlegal
      rw [hd.isBranch, bne_eq_false_iff_eq] at hplain
      exact absurd hplain hctr

/-- A resolved entry is followed to where it goes on. -/
theorem follow_resolved (h : e.Fetched mem)
    (hd : e.Decodes (decoder e.origin.insn))
    (hlegal : (decoder e.origin.insn).decodeException = false)
    (hres : e.isBranch = true → e.Resolved o) : e.follow o = e.nextPc := by
  rw [follow, nextPc]
  cases hbranch : e.isBranch with
  | false => exact h.predictedNext_plain hd hlegal hbranch
  | true =>
      rw [hres hbranch, if_pos rfl, Bool.true_and]
      rfl

end RobEntry

/-- A retired instruction as a link of the path. -/
def Retired.link (r : Retired) : Link Word where
  place := r.entry.pc
  next := r.entry.nextPc

theorem Uop.Paired.predicted {u : Uop} {e : RobEntry} (h : u.Paired e) :
    u.pc = e.pc ∧ (if u.predictedTaken then u.predictedTarget
      else u.pc + 4) = e.predictedNext := by
  obtain ⟨packet, ctx, r1, r2, rfl, he, -⟩ := h
  have hpc := congrArg RobEntry.pc he
  have htaken := congrArg RobEntry.predictedTaken he
  have htarget := congrArg RobEntry.predictedTarget he
  change e.pc = packet.pc at hpc
  change e.predictedTaken = packet.predictedTaken at htaken
  change e.predictedTarget = packet.predictedTarget at htarget
  rw [RobEntry.predictedNext, hpc, htaken, htarget]
  exact ⟨rfl, rfl⟩

namespace Backend

variable {s : Backend} {i : Inputs} {o : Outcomes} {hist : History}

section Resolution

/-- What a resolving branch says of where it goes on: the redirect goes there,
and there is none exactly when it was predicted. -/
theorem InFlight.resolved_next (hs : s.InFlight)
    (hres : (s.branch i).resolved = true) :
    (s.rob.entries (s.branch i).robTag).isBranch = true ∧
      (s.branch i).redirect = (s.branch i).outcome.next
        (s.rob.entries (s.branch i).robTag).pc ∧
      (s.recoveryValid i = false → (s.branch i).redirect =
        (s.rob.entries (s.branch i).robTag).predictedNext) := by
  have hunit := hres
  rw [branch_resolved] at hunit
  have hreport := s.branch_eq_of_resolved i hunit
  have hvalid : (s.secondaryPort i).valid = true := by
    simp only [OoOExecutionUnit.branchResolved, Bool.and_eq_true] at hunit
    exact hunit.1.1.1
  have hclass : (s.secondaryPort i).uop.fuClass = .branch := by
    simp only [OoOExecutionUnit.branchResolved, Bool.and_eq_true,
      beq_iff_eq] at hunit
    exact hunit.2
  obtain ⟨j, hj, hlive, -, huop⟩ := s.secondaryPort_source i hvalid
  have htag : (s.branch i).robTag = (s.iq.entries j).robTag := by
    rw [hreport]
    exact congrArg Held.robTag huop
  have hport : (s.secondaryPort i).uop = (s.iq.entries j).withReady
      (IssueQueue.source1ReadyNow s.prfWriteback (s.iq.entries j))
      (IssueQueue.source2ReadyNow s.prfWriteback (s.iq.entries j)) :=
    s.issueUop_of_choice hj
  have hpaired : (s.secondaryPort i).uop.Paired
      (s.rob.entries (s.branch i).robTag) := by
    rw [hport, htag]
    exact (hs.paired j hlive).withReady _ _
  obtain ⟨hpc, hpredicted⟩ := hpaired.predicted
  refine ⟨hpaired.isBranch hclass, ?_, ?_⟩
  · rw [← hpc, hreport]
    rfl
  · intro hnone
    rw [← hpredicted]
    by_contra hne
    have hmiss := mispredicted_of_next_ne (p := s.secondaryPort i) hunit (by
      intro heq
      apply hne
      rw [heq, hreport]
      rfl)
    rw [recoveryValid, branch_mispredicted, hmiss] at hnone
    cases hnone

/-- A branch has no outcome before it resolves. -/
theorem Recorded.unresolved (h : s.Recorded o)
    (hs : s.InFlight) (hres : (s.branch i).resolved = true) :
    o (s.rob.entries (s.branch i).robTag).origin.uid = none := by
  obtain ⟨j, hvalid, -, -, horigin, -⟩ := s.resolved_held i hres
  rw [(hs.resolved_entry hres).2.2, ← horigin]
  exact h.queued j hvalid

end Resolution

section Path

variable {mem : BitVec 14 → Word} {pc next : Word}

/-- The live instructions as links. -/
def links (s : Backend) (o : Outcomes) : List (Link Word) :=
  s.rob.window.map fun tag => (s.rob.entries tag).link o

/-- The live instructions follow each other from `pc` on, and lead to
`next`. -/
structure OnPath (mem : BitVec 14 → Word) (s : Backend) (o : Outcomes)
    (pc next : Word) : Prop where
  recorded : s.Recorded o
  fetched : ∀ tag ∈ s.rob.window, (s.rob.entries tag).Fetched mem
  path : Link.Follows (InsnMem.Blank mem) pc (s.links o)
  ends : Link.endOf pc (s.links o) = next

theorem OnPath.reset (mem : BitVec 14 → Word) (pc : Word) :
    OnPath mem reset (fun _ => none) pc pc where
  recorded := Recorded.reset
  fetched := fun _ h => absurd h List.not_mem_nil
  path := trivial
  ends := rfl

theorem InFlight.resolve_now (hs : s.InFlight)
    (hres : (s.branch i).resolved = true) :
    s.resolve i o (s.rob.entries (s.branch i).robTag).origin.uid =
      some (s.branch i).outcome := by
  rw [(hs.resolved_entry hres).2.2, resolve, if_pos hres, Function.update_self]

/-- A survivor leads where it led, unless its branch is recovered. -/
theorem Recorded.step_link (h : s.Recorded o) (hreach : s.Reachable)
    (htrap : s.trapValid i = false) {tag : RobTag}
    (hold : tag ∈ s.rob.window) (hnew : tag ∈ (s.step i).rob.window)
    (hkept : ¬ (s.recoveryValid i = true ∧ tag = s.recoveryTag i)) :
    ((s.step i).rob.entries tag).link (s.resolve i o) =
      (s.rob.entries tag).link o := by
  have hs := hreach.inFlight
  have hframe :=
    (hs.robReady.step_survivor hreach.countable htrap hold hnew).1
  by_cases hnow : (s.branch i).resolved = true ∧ tag = (s.branch i).robTag
  · obtain ⟨hres, rfl⟩ := hnow
    have hrec : s.recoveryValid i = false := by
      by_contra hrec
      rw [Bool.not_eq_false] at hrec
      exact hkept ⟨hrec, rfl⟩
    obtain ⟨hbranch, hredirect, hpredicted⟩ := hs.resolved_next hres
    refine (RobEntry.link_of_atDispatch hframe fun _ => rfl).trans ?_
    rw [RobEntry.link, RobEntry.link, RobEntry.follow, RobEntry.follow,
      hbranch, if_pos rfl, if_pos rfl, hs.resolve_now hres,
      h.unresolved hs hres, Option.map_some, Option.getD_some, ← hredirect,
      hpredicted hrec]
    rfl
  · apply RobEntry.link_of_atDispatch hframe
    intro _
    apply resolve_of_ne
    intro hres huid
    obtain ⟨hlive, -, horigin⟩ := hs.resolved_entry hres
    rw [← horigin] at huid
    exact hnow ⟨hres, (hreach.uidOrder.injective _ hlive _ hold huid).symm⟩

/-- A dispatched instruction leads where its packet does. -/
theorem Recorded.step_link_new (h : s.Recorded o) (hreach : s.Reachable)
    (htrap : s.trapValid i = false) (hrec : s.recoveryValid i = false)
    {l : Lane} (hl : s.robAllocValid i l = true) :
    ((s.step i).rob.entries (s.robAllocTag i l)).link (s.resolve i o) =
      (i.packet l).link := by
  have hfresh : s.resolve i o (s.laneUid i l) = none :=
    h.step_fresh hreach (laneUid_bounds hl).1
  have hready : s.RobReady i := hreach.inFlight.robReady
  rw [(hready.step_dispatched hreach.countable htrap hrec hl).2.2,
    RobEntry.link, RobEntry.follow]
  change Link.mk (i.packet l).pc (if _ then
    ((s.resolve i o (s.laneUid i l)).map _).getD _ else _) = _
  rw [hfresh]
  exact congrArg (Link.mk _) (ite_self _)

theorem OnPath.step_fetched (h : OnPath mem s o pc next)
    (hreach : s.Reachable)
    (hnew : ∀ l, s.robAllocValid i l = true →
      FrontEnd.Fetched mem (i.packet l)) :
    ∀ tag ∈ (s.step i).rob.window,
      ((s.step i).rob.entries tag).Fetched mem := by
  intro tag hlive
  have htrap := not_trap_of_live hlive
  have hc := hreach.countable
  have hs : s.RobReady i := hreach.inFlight.robReady
  by_cases hold : tag ∈ s.rob.window
  · exact (h.fetched tag hold).of_atDispatch
      (hs.step_survivor hc htrap hold hlive).1
  · obtain ⟨hrec, l, hl, rfl⟩ := hs.step_new hc hold hlive
    rw [(hs.step_dispatched hc htrap hrec hl).2.2]
    exact ⟨(hnew l hl).word, (hnew l hl).taken⟩

/-- A retiring instruction leads to its next pc. -/
theorem OnPath.retiring_link (h : OnPath mem s o pc next) (ht : s.Traced hist)
    {tag : RobTag} (htag : tag ∈ s.rob.window.take (s.retireCount i)) :
    (s.rob.entries tag).link o =
      (s.retire (s.rob.entries tag)).link := by
  have hlive := List.mem_of_mem_take htag
  obtain ⟨hdone, hclean⟩ := retired_complete htag
  have hretired : s.retire (s.rob.entries tag) ∈
      (s.observe i hist).retired := by
    apply List.mem_append_right
    rw [retiredNow_eq]
    exact List.mem_map_of_mem htag
  obtain ⟨older, younger, hsplit⟩ := List.append_of_mem hretired
  have hfollow := RobEntry.follow_resolved (h.fetched tag hlive)
    (ht.reachable.renamed tag hlive).decodes
    ((ht.step i).retired_legal hsplit)
    fun hbranch => h.recorded.completed tag hlive hbranch hdone hclean
  exact congrArg (Link.mk _) hfollow

/-- In an ordinary cycle the oldest instructions retire along the path, and
what is dispatched goes on at its end. -/
theorem OnPath.step_normal (h : OnPath mem s o pc next) (ht : s.Traced hist)
    (htrap : s.trapValid i = false) (hrec : s.recoveryValid i = false)
    (hpath : Link.Follows (InsnMem.Blank mem) next
      ((s.newLanes i).map fun l => (i.packet l).link))
    (hnew : ∀ l, s.robAllocValid i l = true →
      FrontEnd.Fetched mem (i.packet l)) :
    Link.Follows (InsnMem.Blank mem) pc ((s.retiredNow i).map Retired.link) ∧
      OnPath mem (s.step i) (s.resolve i o)
        (Link.endOf pc ((s.retiredNow i).map Retired.link))
        (Link.endOf next ((s.newLanes i).map fun l => (i.packet l).link)) := by
  have hreach := ht.reachable
  have hs : s.RobReady i := hreach.inFlight.robReady
  have hwindow := hs.step_window_normal hreach.countable htrap hrec
  have hretired : (s.retiredNow i).map Retired.link =
      (s.rob.window.take (s.retireCount i)).map fun tag =>
        (s.rob.entries tag).link o := by
    rw [retiredNow_eq, List.map_map]
    apply List.map_congr_left
    intro tag htag
    exact (h.retiring_link ht htag).symm
  have hkept : ((s.rob.window.drop (s.retireCount i)).map fun tag =>
      ((s.step i).rob.entries tag).link (s.resolve i o)) =
      (s.rob.window.drop (s.retireCount i)).map fun tag =>
        (s.rob.entries tag).link o := by
    apply List.map_congr_left
    intro tag htag
    apply h.recorded.step_link hreach htrap (List.mem_of_mem_drop htag)
    · rw [hwindow]
      exact List.mem_append_left _ htag
    · rw [hrec]
      exact fun h => Bool.false_ne_true h.1
  have hadded : (((s.newLanes i).map (s.robAllocTag i)).map fun tag =>
      ((s.step i).rob.entries tag).link (s.resolve i o)) =
      (s.newLanes i).map fun l => (i.packet l).link := by
    rw [List.map_map]
    apply List.map_congr_left
    intro l hl
    exact h.recorded.step_link_new hreach htrap hrec
      ((s.mem_newLanes i).mp hl)
  have hlinks : s.links o = (s.retiredNow i).map Retired.link ++
      (s.rob.window.drop (s.retireCount i)).map fun tag =>
        (s.rob.entries tag).link o := by
    rw [hretired, ← List.map_append, List.take_append_drop]
    rfl
  have hold := h.path
  have hend := h.ends
  rw [hlinks, Link.follows_append] at hold
  rw [hlinks, Link.endOf_append] at hend
  refine ⟨hold.1, h.recorded.step hreach, h.step_fetched hreach hnew, ?_, ?_⟩
  · rw [links, hwindow, List.map_append, hkept, hadded, Link.follows_append,
      hend]
    exact ⟨hold.2, hpath⟩
  · rw [links, hwindow, List.map_append, hkept, hadded, Link.endOf_append,
      hend]

/-- A recovery cuts the path behind its branch, which leads to the redirect. -/
theorem OnPath.step_recover (h : OnPath mem s o pc next)
    (hreach : s.Reachable) (htrap : s.trapValid i = false)
    (hrec : s.recoveryValid i = true) :
    OnPath mem (s.step i) (s.resolve i o) pc (s.branch i).redirect := by
  have hs := hreach.inFlight
  have hready : s.RobReady i := hs.robReady
  obtain ⟨older, younger, hsplit, hwindow⟩ := hready.window_split htrap hrec
  have hold (tag : RobTag) (htag : tag ∈ older) : tag ∈ s.rob.window := by
    rw [hsplit]
    exact List.mem_append_left _ htag
  have hnodup := hready.wf.window_nodup
  rw [hsplit] at hnodup
  have hkept : (older.map fun tag =>
      ((s.step i).rob.entries tag).link (s.resolve i o)) =
      older.map fun tag => (s.rob.entries tag).link o := by
    apply List.map_congr_left
    intro tag htag
    apply h.recorded.step_link hreach htrap (hold tag htag)
    · rw [hwindow]
      exact List.mem_append_left _ htag
    · rintro ⟨-, rfl⟩
      exact List.disjoint_of_nodup_append hnodup htag List.mem_cons_self
  have hres := s.recovery_resolved i hrec
  have hlive := hready.recover_live hrec
  have hlast : ((s.step i).rob.entries (s.recoveryTag i)).link
      (s.resolve i o) =
      ⟨(s.rob.entries (s.recoveryTag i)).pc, (s.branch i).redirect⟩ := by
    have hnew : s.recoveryTag i ∈ (s.step i).rob.window := by
      rw [hwindow]
      exact List.mem_append_right _ (List.mem_singleton_self _)
    obtain ⟨hbranch, hredirect, -⟩ := hs.resolved_next hres
    refine (RobEntry.link_of_atDispatch (hready.step_survivor
      hreach.countable htrap hlive hnew).1 fun _ => rfl).trans ?_
    change RobEntry.link _ (s.rob.entries (s.branch i).robTag) = _
    rw [RobEntry.link, RobEntry.follow, hbranch, if_pos rfl,
      hs.resolve_now hres, Option.map_some, Option.getD_some, hredirect]
    rfl
  have hpath := h.path
  rw [links, hsplit, List.map_append, Link.follows_append, List.map_cons]
    at hpath
  refine ⟨h.recorded.step hreach, ?_, ?_, ?_⟩
  · intro tag hnew
    have hlive : tag ∈ s.rob.window :=
      ((hready.mem_step_window_recover htrap hrec tag).mp hnew).1
    exact (h.fetched tag hlive).of_atDispatch
      (hready.step_survivor hreach.countable htrap hlive hnew).1
  · rw [links, hwindow, List.map_append, hkept, List.map_singleton, hlast,
      Link.follows_snoc]
    exact ⟨hpath.1, hpath.2.1⟩
  · rw [links, hwindow, List.map_append, hkept, List.map_singleton, hlast,
      Link.endOf_snoc]

/-- A trap empties the path, which goes on anywhere. -/
theorem OnPath.step_trap (h : OnPath mem s o pc next) (hreach : s.Reachable)
    (htrap : s.trapValid i = true) (vector : Word) :
    OnPath mem (s.step i) (s.resolve i o) vector vector := by
  have hwindow : (s.step i).rob.window = [] := step_window_flush htrap
  refine ⟨h.recorded.step hreach, ?_, ?_, ?_⟩
  · rw [hwindow]
    exact fun _ hlive => absurd hlive List.not_mem_nil
  · rw [links, hwindow]
    trivial
  · rw [links, hwindow]
    rfl

end Path

end Backend

end OoOCore
