/-
The retired-instruction counter.  A CSR instruction enters an empty ROB, so it
is the oldest live instruction until it retires.  When it executes, everything
older was counted on an earlier edge and nothing younger has retired.
-/
import OoOCore.CsrFrame
import OoOCore.Drain
import OoOCore.IssueSteering
import OoOCore.Lib.Run
import OoOCore.Traps

namespace OoOCore

namespace CSRFile

/-- `CSR_INSTRET` and `CSR_MINSTRET`. -/
def instretLow : List CsrAddr := [0xC02, 0xB02]

/-- `CSR_INSTRETH` and `CSR_MINSTRETH`. -/
def instretHigh : List CsrAddr := [0xC82, 0xB82]

section Counter

variable {f : CSRFile} {addr : CsrAddr} {value : Word} {n : Nat}
  {r : CsrRequest} {trap : TrapReport} {mret : Bool}

theorem read_instretLow (h : addr ∈ instretLow) :
    f.read addr = f.minstret.extractLsb' 0 32 := by
  simp only [instretLow, List.mem_cons, List.not_mem_nil, or_false] at h
  rcases h with rfl | rfl <;> rfl

theorem read_instretHigh (h : addr ∈ instretHigh) :
    f.read addr = f.minstret.extractLsb' 32 32 := by
  simp only [instretHigh, List.mem_cons, List.not_mem_nil, or_false] at h
  rcases h with rfl | rfl <;> rfl

/-- The registers and the read-only addresses off the counter leave it alone. -/
theorem write_minstret (hlow : addr ∉ instretLow) (hhigh : addr ∉ instretHigh) :
    (f.write addr value).minstret = f.minstret := by
  cases hat : CsrReg.at? addr with
  | some reg =>
      rw [← CsrReg.address_of_at? hat] at hlow hhigh ⊢
      rw [write_address]
      cases reg with
      | minstret => exact absurd (by decide) hlow
      | minstreth => exact absurd (by decide) hhigh
      | _ => rfl
  | none =>
      by_cases hview : ∃ view ∈ CsrReg.views, view.1 = addr
      · obtain ⟨view, hmem, rfl⟩ := hview
        rw [write_view hmem]
        simp only [CsrReg.views, List.mem_cons, List.not_mem_nil,
          or_false] at hmem
        rcases hmem with rfl | rfl | rfl | rfl | rfl | rfl
        · rfl
        · rfl
        · rfl
        · rfl
        · exact absurd (by decide) hlow
        · exact absurd (by decide) hhigh
      · rw [write_other f hat fun view hmem haddr => hview ⟨view, hmem, haddr⟩]

/-- An edge that writes no half of the counter adds the retired instructions. -/
theorem step_minstret (hspared : writes r trap mret = true →
      r.addr ∉ instretLow ∧ r.addr ∉ instretHigh) :
    (f.step n r trap mret).minstret = f.minstret + BitVec.ofNat 64 n := by
  cases hwrites : writes r trap mret with
  | true =>
      obtain ⟨hlow, hhigh⟩ := hspared hwrites
      rw [step_writes hwrites, write_minstret hlow hhigh]
      rfl
  | false =>
      by_cases htrap : trap.valid = true
      · rw [step, if_pos htrap]
      · rw [Bool.not_eq_true] at htrap
        cases mret with
        | true =>
            rw [step, htrap]
            rfl
        | false =>
            rw [step_counted hwrites htrap rfl]
            rfl

end Counter

end CSRFile

theorem Uop.Paired.csr {u : Uop} {e : RobEntry} (h : u.Paired e)
    (hcsr : u.wbSelect = .csr) : u.fuClass = .csr ∧ e.isCsr = true := by
  obtain ⟨packet, ctx, r1, r2, rfl, he, -⟩ := h
  have hentry : e.isCsr = ((idStage packet).wbSelect == .csr) :=
    congrArg RobEntry.isCsr he
  change (idStage packet).wbSelect = .csr at hcsr
  rw [hentry, hcsr]
  refine ⟨?_, rfl⟩
  change RenameStage.fuClassOf (idStage packet) = .csr
  rw [RenameStage.fuClassOf, if_pos hcsr]

namespace Backend

section Oldest

variable {s : Backend} {i : Inputs}

/-- A live CSR instruction is the oldest live one. -/
def CsrOldest (s : Backend) : Prop :=
  ∀ tag ∈ s.rob.window, (s.rob.entries tag).isCsr = true →
    s.rob.window.head? = some tag

/-- The oldest entry stays in front while it is live. -/
theorem RobReady.step_head (hs : s.RobReady i) (hc : s.Countable)
    {tag : RobTag} (hhead : s.rob.window.head? = some tag)
    (hlive : tag ∈ (s.step i).rob.window) :
    (s.step i).rob.window.head? = some tag := by
  have htrap := not_trap_of_live hlive
  obtain ⟨younger, hwindow⟩ := List.head?_eq_some_iff.mp hhead
  cases hrec : s.recoveryValid i with
  | true =>
      rw [hs.step_window_recover htrap hrec, hwindow]
      rfl
  | false =>
      have hnext := hs.step_window_normal hc htrap hrec
      cases hcount : s.retireCount i with
      | zero =>
          rw [hnext, hcount, List.drop_zero, hwindow]
          rfl
      | succ k =>
          -- It retired, and its slot is not taken again on the same edge.
          rw [hnext, hcount, hwindow, List.drop_succ_cons,
            List.mem_append] at hlive
          have hnodup := hs.wf.window_nodup
          rw [hwindow, List.nodup_cons] at hnodup
          rcases hlive with hlive | hlive
          · exact absurd (List.mem_of_mem_drop hlive) hnodup.1
          · obtain ⟨l, hl, rfl⟩ := List.mem_map.mp hlive
            have hfresh := (hs.step_dispatched hc htrap hrec
              ((s.mem_newLanes i).mp hl)).1
            rw [hwindow] at hfresh
            exact absurd List.mem_cons_self hfresh

theorem CsrOldest.step (h : s.CsrOldest) (hs : s.RobReady i)
    (hc : s.Countable) : (s.step i).CsrOldest := by
  intro tag hlive hcsr
  have htrap := not_trap_of_live hlive
  by_cases hold : tag ∈ s.rob.window
  · have hframe := (hs.step_survivor hc htrap hold hlive).1
    have hsame := congrArg RobEntry.isCsr hframe
    change ((s.step i).rob.entries tag).isCsr =
      (s.rob.entries tag).isCsr at hsame
    rw [hsame] at hcsr
    exact hs.step_head hc (h tag hold hcsr) hlive
  · obtain ⟨hrec, l, hl, rfl⟩ := hs.step_new hc hold hlive
    rw [(hs.step_dispatched hc htrap hrec hl).2.2] at hcsr
    change ((decodeBus i l).wbSelect == .csr) = true at hcsr
    have hstarts : laneStartsSerialization i l = true := by
      rw [laneStartsSerialization, hcsr, Bool.or_true]
    obtain ⟨rfl, hdrained⟩ := starting_accepted hl hstarts
    rw [hs.step_window_normal hc htrap hrec, backendDrained_window hdrained]
    simp [newLanes, hl]

theorem Reachable.csrOldest {s : Backend} (h : s.Reachable) : s.CsrOldest := by
  induction h with
  | reset =>
      intro tag hlive
      cases hlive
  | step hreach i ih =>
      exact ih.step hreach.inFlight.robReady hreach.countable

end Oldest

section Execution

variable {s : Backend} {i : Inputs} {j : IqIndex} {unit : ExecUnit}

theorem valid_of_latches (hlatch : s.Latches i j unit) :
    (s.iq.entries j).valid = true :=
  ((IssueQueue.readyEntry_iff s.prfWriteback).mp
    (s.iq.candidate_ready s.prfWriteback (latches_candidate hlatch).1)).1

/-- The primary unit executes the CSR instructions, from issue port 0. -/
theorem csr_port (hlatch : s.Latches i j unit)
    (hclass : (s.iq.entries j).fuClass = .csr) :
    unit = .primary ∧ s.exec.pReady = true ∧
      s.candidate0IsMemory = false ∧ s.issueChoice 0 = some j := by
  have hposition := latches_candidate hlatch
  have hzero := (s.iq.candidate_class s.prfWriteback hposition.1).1
    (Or.inr hclass)
  cases unit with
  | secondary => cases hzero
  | memory =>
      obtain ⟨k, hk, hmemory⟩ := s.candidate0_choice hlatch.1
      have hsame : k = j := Option.some.inj (hk.symm.trans hlatch.2.1)
      rw [hsame, hclass] at hmemory
      cases hmemory
  | primary =>
      cases hmem : s.candidate0IsMemory with
      | true =>
          rw [hmem] at hzero
          cases hzero
      | false =>
          have hport := hposition.1
          rw [hmem] at hport
          exact ⟨rfl, hlatch.1, rfl, hport⟩

/-- What the primary unit makes of a CSR instruction: the value of its CSR. -/
theorem csr_execute (hlatch : s.Latches i j unit)
    (hclass : (s.iq.entries j).fuClass = .csr)
    (hcsr : (s.iq.entries j).wbSelect = .csr) :
    s.csrAddr = (s.iq.entries j).csrAddr ∧
      (OoOExecutionUnit.execute (s.primaryPort i)).origin =
        (s.iq.entries j).origin ∧
      (OoOExecutionUnit.execute (s.primaryPort i)).writebackData =
        i.csrReadData := by
  obtain ⟨-, -, hmem, hj⟩ := csr_port hlatch hclass
  have hport : s.primaryPort i = s.issuePort i 0 := by
    simp [primaryPort, BackendExecuteStage.primaryPort, hmem]
  have huop := s.issueUop_of_choice hj
  refine ⟨?_, ?_, ?_⟩
  · rw [csrAddr, hmem, if_neg Bool.false_ne_true, huop]
    rfl
  · rw [hport]
    exact issueUop_origin hj
  · have hselect : (s.issueUop 0).wbSelect = .csr := by
      rw [huop]
      exact hcsr
    rw [hport]
    change OoOExecutionUnit.selectedResult (s.issuePort i 0) = _
    simp [OoOExecutionUnit.selectedResult, issuePort, hselect]

/-- A CSR instruction in the issue queue is the oldest live one, and no trap is
taken while it is there. -/
theorem CsrOldest.queued (h : s.CsrOldest) (hs : s.InFlight)
    (hvalid : (s.iq.entries j).valid = true)
    (hcsr : (s.iq.entries j).wbSelect = .csr) :
    s.rob.window.head? = some (s.iq.entries j).robTag ∧
      s.uidAt (s.iq.entries j).robTag = (s.iq.entries j).origin.uid ∧
      s.trapValid i = false := by
  have hheld := s.heldAt_iq hvalid
  have hhead := h _ (hs.live _ _ hheld) ((hs.paired j hvalid).csr hcsr).2
  refine ⟨hhead, congrArg Origin.uid (hs.matched _ _ hheld).origin, ?_⟩
  by_contra htrap
  rw [Bool.not_eq_false] at htrap
  obtain ⟨younger, hwindow, -, hcomplete, -⟩ := trap_head htrap
  rw [hwindow, List.head?_cons, Option.some.injEq] at hhead
  rw [hhead] at hcomplete
  have hplace := (hs.incomplete _ _ hheld hcomplete).1
  cases hplace

end Execution

section Accounting

variable (s : Backend) (i : Inputs)

/-- The dispatch numbers a flush or a recovery throws away: those of the entries
it removes, among them a trapping one, and of what dispatch accepts on its
edge. -/
def squashedNow : List Nat :=
  (s.rob.window.filter (s.squashes i)).map s.uidAt ++
    if s.trapValid i || s.recoveryValid i then (s.newLanes i).map (s.laneUid i)
    else []

variable {s i}

theorem squashedNow_normal (htrap : s.trapValid i = false)
    (hrec : s.recoveryValid i = false) : s.squashedNow i = [] := by
  have hnone : s.rob.window.filter (s.squashes i) = [] := by
    rw [List.filter_eq_nil_iff]
    intro tag _
    rw [squashes, htrap, recoveryYoungerMask_of_normal hrec]
    exact Bool.false_ne_true
  rw [squashedNow, hnone, htrap, hrec]
  rfl

/-- A squashing edge cuts the squashed entries from the end of the window. -/
theorem RobReady.window_squash (hs : s.RobReady i)
    (hedge : s.trapValid i = true ∨ s.recoveryValid i = true) :
    s.rob.window =
      (s.step i).rob.window ++ s.rob.window.filter (s.squashes i) := by
  obtain ⟨cut, hcut, -⟩ := hs.window_survivors hedge
  have hnodup := hs.wf.window_nodup
  rw [hcut, List.nodup_append] at hnodup
  have hkept : (s.step i).rob.window.filter (s.squashes i) = [] := by
    rw [List.filter_eq_nil_iff]
    intro tag hlive hsq
    exact hs.squashed_not_live hsq hlive
  have hremoved : cut.filter (s.squashes i) = cut := by
    rw [List.filter_eq_self]
    intro tag htag
    have hdead : tag ∉ (s.step i).rob.window :=
      fun hlive => hnodup.2.2 tag hlive tag htag rfl
    rw [squashes, Bool.or_eq_true]
    by_contra hspared
    rw [not_or, Bool.not_eq_true, Bool.not_eq_true] at hspared
    have hrec : s.recoveryValid i = true := by simpa [hspared.1] using hedge
    have hold : tag ∈ s.rob.window := by
      rw [hcut]
      exact List.mem_append_right _ htag
    exact hdead ((hs.mem_step_window_recover hspared.1 hrec tag).mpr
      ⟨hold, hspared.2⟩)
  have hfilter : s.rob.window.filter (s.squashes i) = cut := by
    rw [hcut, List.filter_append, hkept, hremoved, List.nil_append]
  rw [hfilter]
  exact hcut

/-- What an edge takes from the order it squashes, and what it adds is new. -/
theorem RobReady.dispatchOrder_step (hs : s.RobReady i) (hc : s.Countable)
    (h : History) :
    (s.step i).dispatchOrder (s.observe i h) ++ s.squashedNow i =
      s.dispatchOrder h ++ (s.newLanes i).map (s.laneUid i) := by
  by_cases hedge : s.trapValid i = true ∨ s.recoveryValid i = true
  · rw [hs.dispatchOrder_kept hc hedge, dispatchOrder, squashedNow,
      if_pos (by rwa [Bool.or_eq_true])]
    conv_rhs => rw [hs.window_squash hedge]
    rw [List.map_append, List.append_assoc, List.append_assoc,
      List.append_assoc]
  · rw [not_or, Bool.not_eq_true, Bool.not_eq_true] at hedge
    rw [hs.dispatchOrder_normal hc hedge.1 hedge.2 h, newLanes_uids,
      squashedNow_normal hedge.1 hedge.2, List.append_nil]

/-- Every dispatch is accounted for once: retired or live, or squashed. -/
theorem RobReady.step_once (hs : s.RobReady i) (hc : s.Countable) {h : History}
    {squashed : List Nat}
    (honce : (s.dispatchOrder h ++ squashed).Perm (List.range s.nextUid)) :
    ((s.step i).dispatchOrder (s.observe i h) ++
        (squashed ++ s.squashedNow i)).Perm
      (List.range (s.step i).nextUid) := by
  have hnext : s.nextUid + ((s.step i).nextUid - s.nextUid) =
      (s.step i).nextUid := Nat.add_sub_cancel' nextUid_le
  have hrange : List.range s.nextUid ++
      (s.newLanes i).map (s.laneUid i) = List.range (s.step i).nextUid := by
    have happend := @List.range'_append_1 0 s.nextUid
      ((s.step i).nextUid - s.nextUid)
    rwa [Nat.zero_add, hnext, ← List.range_eq_range',
      ← List.range_eq_range', ← newLanes_uids] at happend
  rw [← hrange]
  refine (List.perm_append_comm.append_left _).trans ?_
  rw [← List.append_assoc, hs.dispatchOrder_step hc, List.append_assoc]
  refine (List.perm_append_comm.append_left _).trans ?_
  rw [← List.append_assoc]
  exact honce.append_right _

theorem retiredNow_length : (s.retiredNow i).length = s.retireCount i := by
  rw [retiredNow, List.length_map, retiredLanes, retireCount]
  cases h0 : s.robRetireValid i 0 <;> cases h1 : s.robRetireValid i 1 <;>
    simp [h0, h1]

end Accounting

section Before

variable {s : Backend} {i : Inputs} {h : History} {uid : Nat}
  {older : List Nat}

/-- `older` is what will ever have retired in front of the dispatch `uid`:
nothing live is older. -/
structure RetiredBefore (s : Backend) (h : History) (uid : Nat)
    (older : List Nat) : Prop where
  retired : h.uids.filter (fun n => decide (n < uid)) = older
  live : ∀ tag ∈ s.rob.window, uid ≤ s.uidAt tag
  given : uid < s.nextUid

theorem RetiredBefore.step (hbefore : s.RetiredBefore h uid older)
    (hs : s.RobReady i) (hc : s.Countable) :
    (s.step i).RetiredBefore (s.observe i h) uid older where
  retired := by
    have hnone : ((s.retiredNow i).map fun r => r.entry.origin.uid).filter
        (fun n => decide (n < uid)) = [] := by
      rw [List.filter_eq_nil_iff]
      intro n hn
      rw [retiredNow_eq, List.map_map, List.mem_map] at hn
      obtain ⟨tag, htag, rfl⟩ := hn
      have hle := hbefore.live tag (List.mem_of_mem_take htag)
      rw [decide_eq_true_eq]
      exact Nat.not_lt.mpr hle
    change ((h.retired ++ s.retiredNow i).map _).filter _ = older
    rw [List.map_append, List.filter_append, hnone, List.append_nil]
    exact hbefore.retired
  live := by
    intro tag htag
    have hgiven := hbefore.given
    rcases hs.live_cases hc htag with ⟨hold, heq⟩ | ⟨l, -, -, heq, hge, -⟩
    · rw [uidAt, heq]
      exact hbefore.live tag hold
    · rw [uidAt, heq]
      omega
  given := Nat.lt_of_lt_of_le hbefore.given nextUid_le

end Before

end Backend

/-- The core with its history and the dispatch numbers squashed so far. -/
structure Tally where
  core : TopCpu
  history : History := {}
  squashed : List Nat := []

namespace Tally

def step (t : Tally) (fromHost : Word) : Tally where
  core := t.core.step fromHost
  history := t.core.backend.observe (t.core.inputs fromHost) t.history
  squashed := t.squashed ++
    t.core.backend.squashedNow (t.core.inputs fromHost)

def boot (b : TopCpu.Boot) : Tally where
  core := TopCpu.boot b

/-- The run that gets these words from the host. -/
def run (b : TopCpu.Boot) (words : List Word) : Tally :=
  words.foldl step (boot b)

/-- No CSR instruction writes `minstret[h]` or `instret[h]` in this cycle. -/
def SparesInstret (t : Tally) (fromHost : Word) : Prop :=
  CSRFile.writes (t.core.backend.csrRequest (t.core.inputs fromHost))
      (t.core.backend.trap (t.core.inputs fromHost))
      (t.core.backend.mretCommit (t.core.inputs fromHost)) = true →
    (t.core.backend.csrRequest (t.core.inputs fromHost)).addr ∉
        CSRFile.instretLow ∧
      (t.core.backend.csrRequest (t.core.inputs fromHost)).addr ∉
        CSRFile.instretHigh

instance (t : Tally) (fromHost : Word) : Decidable (t.SparesInstret fromHost) :=
  inferInstanceAs (Decidable (_ → _ ∧ _))

/-- No instruction of the run writes `minstret[h]` or `instret[h]`. -/
def NeverWritten (b : TopCpu.Boot) (words : List Word) : Prop :=
  Run.Legal step (boot b) SparesInstret words

instance (b : TopCpu.Boot) (words : List Word) :
    Decidable (NeverWritten b words) :=
  inferInstanceAs (Decidable (Run.Legal _ _ _ _))

/-- Every dispatch so far has retired or is live, or was squashed, and only once
and only one of these. -/
def EachOnce (t : Tally) : Prop :=
  (t.core.backend.dispatchOrder t.history ++ t.squashed).Perm
    (List.range t.core.backend.nextUid)

/-- The number of retired instructions in front of a dispatch in program
order. -/
def retiredBefore (t : Tally) (uid : Nat) : Nat :=
  (t.history.uids.filter fun n => decide (n < uid)).length

section Invariants

variable {b : TopCpu.Boot} {words : List Word} {t : Tally} {fromHost : Word}

/-- What holds in every state of every run. -/
structure Sound (t : Tally) : Prop where
  traced : t.core.backend.Traced t.history
  once : t.EachOnce

theorem Sound.boot : (boot b).Sound where
  traced := Backend.Traced.reset
  once := List.Perm.refl _

theorem Sound.step (h : t.Sound) : (t.step fromHost).Sound where
  traced := h.traced.step _
  once := h.traced.reachable.inFlight.robReady.step_once
    h.traced.reachable.countable h.once

theorem sound (b : TopCpu.Boot) (words : List Word) : (run b words).Sound := by
  induction words using List.reverseRecOn with
  | nil => exact Sound.boot
  | append_singleton before fromHost ih =>
      rw [run, List.foldl_append]
      exact ih.step

/-- The counter is the number of instructions retired so far. -/
def Counted (t : Tally) : Prop :=
  t.core.csrFile.minstret = BitVec.ofNat 64 t.history.retired.length

theorem Counted.step (h : t.Counted) (hspares : t.SparesInstret fromHost) :
    (t.step fromHost).Counted := by
  change (t.core.csrFile.step _ _ _ _).minstret =
    BitVec.ofNat 64 (t.history.retired ++ t.core.backend.retiredNow _).length
  rw [CSRFile.step_minstret hspares, h, List.length_append,
    Backend.retiredNow_length, BitVec.ofNat_add]

theorem NeverWritten.counted (h : NeverWritten b words) :
    (run b words).Counted :=
  Run.Legal.invariant (by rfl) (fun _ _ hcounted => hcounted.step) h

/-- What retired in front of a dispatch stays what it is in every later
state. -/
theorem Sound.before_later (h : t.Sound) {uid : Nat} {older : List Nat}
    (hbefore : t.core.backend.RetiredBefore t.history uid older)
    (later : List Word) :
    (later.foldl Tally.step t).core.backend.RetiredBefore
      (later.foldl Tally.step t).history uid older := by
  induction later generalizing t with
  | nil => exact hbefore
  | cons fromHost rest ih =>
      exact ih h.step (hbefore.step h.traced.reachable.inFlight.robReady
        h.traced.reachable.countable)

/-- Everything retired so far is in front of the oldest live instruction. -/
theorem Sound.before_oldest (h : t.Sound) {tag : RobTag}
    (hhead : t.core.backend.rob.window.head? = some tag) :
    t.core.backend.RetiredBefore t.history (t.core.backend.uidAt tag)
      t.history.uids := by
  obtain ⟨younger, hwindow⟩ := List.head?_eq_some_iff.mp hhead
  obtain ⟨horder, hgiven⟩ := h.traced.programOrder
  rw [Backend.dispatchOrder, hwindow, List.map_cons] at horder hgiven
  obtain ⟨-, hlive, hcross⟩ := List.pairwise_append.mp horder
  constructor
  case retired =>
    rw [List.filter_eq_self]
    intro n hn
    exact decide_eq_true (hcross n hn _ List.mem_cons_self)
  case live =>
    intro tag' htag'
    rw [hwindow] at htag'
    rcases List.mem_cons.mp htag' with rfl | hyounger
    · exact Nat.le_refl _
    · exact Nat.le_of_lt
        ((List.pairwise_cons.mp hlive).1 _ (List.mem_map_of_mem hyounger))
  case given =>
    exact hgiven _ (List.mem_append_right _ List.mem_cons_self)

end Invariants

section Reads

variable {b : TopCpu.Boot} {words : List Word} {fromHost : Word} {j : IqIndex}
  {unit : ExecUnit}

/-- The CSR instruction in slot `j` goes to the primary unit and, if it reads
`minstret[h]` or `instret[h]`, brings back that half of the number of
instructions in front of it that `t` counts as retired, modulo `2 ^ 64`. -/
structure ReadsRetired (c : TopCpu) (fromHost : Word) (j : IqIndex)
    (t : Tally) : Prop where
  taken : (c.step fromHost).backend.exec.primary.origin =
    (c.backend.iq.entries j).origin
  low : (c.backend.iq.entries j).csrAddr ∈ CSRFile.instretLow →
    (c.step fromHost).backend.exec.primary.writebackData =
      (BitVec.ofNat 64
        (t.retiredBefore (c.backend.iq.entries j).origin.uid)).extractLsb' 0 32
  high : (c.backend.iq.entries j).csrAddr ∈ CSRFile.instretHigh →
    (c.step fromHost).backend.exec.primary.writebackData =
      (BitVec.ofNat 64
        (t.retiredBefore (c.backend.iq.entries j).origin.uid)).extractLsb' 32 32

/-- In every run that never writes the counter, a CSR instruction that a unit
takes reads from it the number of instructions that have retired in front of it
then or at any later time, each of them once and none that was squashed or
trapped. -/
theorem csr_reads_retired (hspares : NeverWritten b words)
    (hlatch : (run b words).core.backend.Latches
      ((run b words).core.inputs fromHost) j unit)
    (hcsr : ((run b words).core.backend.iq.entries j).wbSelect = .csr)
    (later : List Word) :
    unit = .primary ∧
      ReadsRetired (run b words).core fromHost j (run b (words ++ later)) ∧
      (run b (words ++ later)).EachOnce := by
  have hsound := sound b words
  have hcounted := hspares.counted
  have hlater : run b (words ++ later) = later.foldl step (run b words) :=
    List.foldl_append
  have hall := (sound b (words ++ later)).once
  generalize run b words = t at *
  have hs := hsound.traced.reachable.inFlight
  have hvalid := Backend.valid_of_latches hlatch
  have hclass := ((hs.paired j hvalid).csr hcsr).1
  obtain ⟨hunit, hready, -, -⟩ := Backend.csr_port hlatch hclass
  obtain ⟨haddr, horigin, hdata⟩ := Backend.csr_execute hlatch hclass hcsr
  obtain ⟨hhead, huid, htrap⟩ :=
    hsound.traced.reachable.csrOldest.queued (i := t.core.inputs fromHost) hs
      hvalid hcsr
  have hprimary : (t.core.step fromHost).backend.exec.primary =
      OoOExecutionUnit.execute
        (t.core.backend.primaryPort (t.core.inputs fromHost)) := by
    change (t.core.backend.step _).exec.primary = _
    rw [t.core.backend.step_primary _ htrap, if_pos hready]
  have hvalue : (t.core.step fromHost).backend.exec.primary.writebackData =
      t.core.csrFile.read (t.core.backend.iq.entries j).csrAddr := by
    rw [hprimary, hdata, ← haddr]
    rfl
  have hcount : (run b (words ++ later)).retiredBefore
      (t.core.backend.iq.entries j).origin.uid = t.history.retired.length := by
    have hbefore := hsound.before_later (hsound.before_oldest hhead) later
    rw [← hlater, huid] at hbefore
    rw [retiredBefore, hbefore.retired, History.uids, List.length_map]
  refine ⟨hunit, ⟨?_, ?_, ?_⟩, hall⟩
  · rw [hprimary]
    exact horigin
  · intro hlow
    rw [hvalue, hcount, ← hcounted, CSRFile.read_instretLow hlow]
  · intro hhigh
    rw [hvalue, hcount, ← hcounted, CSRFile.read_instretHigh hhigh]

end Reads

/-- `addi x1, x0, 1` and then `csrrs x2, instret, x0`. -/
def countOne : TopCpu.Boot :=
  TopCpu.coldBoot fun a =>
    if a = 0 then 0x00100093 else if a = 1 then 0xC0202173 else 0

theorem csr_reads_retired_countOne :
    (run countOne (List.replicate 14 0)).history.uids = [0] ∧
      ReadsRetired (run countOne (List.replicate 14 0)).core 0 0
        (run countOne (List.replicate 14 0 ++ [0])) := by
  have hstate : (run countOne (List.replicate 14 0)).history.uids = [0] ∧
      (run countOne (List.replicate 14 0)).core.backend.exec.pReady = true ∧
      (run countOne (List.replicate 14 0)).core.backend.primaryChoice =
        some 0 ∧
      ((run countOne (List.replicate 14 0)).core.backend.iq.entries 0).wbSelect =
        .csr := by
    decide +kernel
  obtain ⟨huids, hready, hchoice, hcsr⟩ := hstate
  have hlatch : (run countOne (List.replicate 14 0)).core.backend.Latches
      ((run countOne (List.replicate 14 0)).core.inputs 0) 0 .primary :=
    And.intro hready hchoice
  exact ⟨huids, (csr_reads_retired (by decide +kernel) hlatch hcsr [0]).2.1⟩

end Tally

end OoOCore
