/-
The speculative histories.  Every control-flow instruction between fetch and
retirement has its event in the direction history, the path history and the
IMLI counter, and a misprediction goes back to the histories it was predicted
with.  Both rest on what the branch target buffer knows of an instruction
before it is fetched.
-/
import OoOCore.Decode
import OoOCore.TageKeys

namespace OoOCore

namespace Histories

/-- The histories after a sequence of events. -/
def replay (h : Histories) (events : List HistoryEvent) : Histories :=
  events.foldl push h

variable {h : Histories} {e e' : HistoryEvent}

theorem replay_append (h : Histories) (a b : List HistoryEvent) :
    h.replay (a ++ b) = (h.replay a).replay b := List.foldl_append

theorem replay_snoc (h : Histories) (a : List HistoryEvent) (e : HistoryEvent) :
    h.replay (a ++ [e]) = (h.replay a).push e := replay_append h a [e]

/-- What the histories see of an event. -/
theorem push_congr (hcontrol : e.control = e'.control)
    (hconditional : e.conditional = e'.conditional)
    (hpath : e.control = true → e.pc = e'.pc ∧ e.taken = e'.taken)
    (hdirection : e.conditional = true →
      e.taken = e'.taken ∧ e.backward = e'.backward) :
    h.push e = h.push e' := by
  unfold push
  rw [← hcontrol, ← hconditional]
  cases hc : e.control with
  | true =>
      obtain ⟨hpc, htaken⟩ := hpath hc
      cases hd : e.conditional with
      | true => rw [hpc, htaken, (hdirection hd).2]
      | false => rw [hpc, htaken]; rfl
  | false =>
      cases hd : e.conditional with
      | true => rw [(hdirection hd).1, (hdirection hd).2]; rfl
      | false => rfl

/-- An instruction that is no control flow leaves no trace. -/
theorem push_of_plain (hcontrol : e.control = false)
    (hconditional : e.conditional = false) : h.push e = h := by
  unfold push
  rw [hcontrol, hconditional]
  rfl

end Histories

namespace BranchPredictionUnit

/-- A control-flow instruction between fetch and retirement.  `taken` is its
prediction until it resolves otherwise; `entered` says that the predictor knows
it for control flow. -/
structure Flight where
  pc : Word
  insn : Word
  taken : Bool
  entered : Bool
  checkpoint : Histories
  tag : Option RobTag := none
  deriving DecidableEq

/-- Its event in program order, from the instruction itself. -/
def Flight.event (e : Flight) : HistoryEvent :=
  if e.entered then
    { control := true
      conditional := isConditional e.insn
      pc := e.pc
      taken := e.taken
      backward := decide (e.pc + Insn.immB e.insn < e.pc) }
  else {}

/-- The backend takes it for a branch, as it does `mret`, and has not tagged
it yet. -/
def Flight.waits (e : Flight) : Bool :=
  e.tag.isNone && decide ((decoder e.insn).branchCtr ≠ .none)

section Fetch

variable (u : BranchPredictionUnit) (i : Inputs)

/-- The predictor takes the instruction of a lane for control flow. -/
def controls (lane : Lane) : Bool :=
  u.queryIsConditional i lane || u.queryIsUnconditional i lane

/-- The backend takes it for a branch. -/
def branches (lane : Lane) : Bool :=
  decide ((decoder (u.responseInsn i lane)).branchCtr ≠ .none)

/-- The target of a conditional branch lies before it. -/
def isBackward (lane : Lane) : Bool :=
  decide (u.responsePc lane + Insn.immB (u.responseInsn i lane) < u.responsePc lane)

/-- What a lane of a consumed response sends into flight. -/
def fetched (lane : Lane) : List Flight :=
  if i.queryAdvance lane && (u.controls i lane || u.branches i lane) then
    [{ pc := u.responsePc lane
       insn := u.responseInsn i lane
       taken := u.predictTaken i lane
       entered := u.controls i lane
       checkpoint :=
        { history := (u.tageMeta i lane).history
          path := (u.tageMeta i lane).pathHistory
          imli := (u.tageMeta i lane).scImli } }]
  else []

end Fetch

/-- The checkpoints of the branches dispatched in a cycle, in order. -/
def allocations (i : Inputs) : List TagePredictor.Checkpoint :=
  [i.checkpointAlloc 0, i.checkpointAlloc 1].filter fun c => c.valid

/-- Dispatch tags the oldest waiting branches. -/
def dispatch : List RobTag → List Flight → List Flight
  | [], flight => flight
  | _ :: _, [] => []
  | tag :: tags, e :: rest =>
      if e.waits then { e with tag := some tag } :: dispatch tags rest
      else e :: dispatch (tag :: tags) rest

/-- A misprediction drops what is younger than the branch. -/
def squash (tag : RobTag) (taken : Bool) : List Flight → List Flight
  | [] => []
  | e :: rest =>
      if e.tag = some tag then [{ e with taken := taken, entered := true }]
      else e :: squash tag taken rest

/-- What a run has done so far: the hint its present response was looked up
with, the events of the retired instructions, and the instructions in
flight. -/
structure Course where
  hint : HistoryEvent := {}
  committed : List HistoryEvent := []
  flight : List Flight := []

namespace Course

variable (g : Course) (u : BranchPredictionUnit) (i : Inputs)

/-- The instructions left after retirement. -/
def remaining : List Flight :=
  if i.update.valid then g.flight.tail else g.flight

def nextCommitted : List HistoryEvent :=
  if i.update.valid then g.committed ++ [i.update.event] else g.committed

/-- The misprediction reported in a cycle. -/
def recovers : Bool := i.resolve.valid && i.resolve.mispredicted

def step : Course where
  hint := TagePredictor.queryEvent (u.tageInputs i)
  committed := g.nextCommitted i
  flight := if i.flush then []
    else if recovers i then
      squash i.resolve.robTag i.resolve.taken (g.remaining i)
    else dispatch ((allocations i).map fun c => c.tag) (g.remaining i) ++
      (u.fetched i 0 ++ u.fetched i 1)

/-- The surroundings of the predictor.  The fetch stage consumes no response
in a redirect and slot 1 only behind a slot 0 that is not taken; the backend
saves what a branch was predicted with under a free tag, retires in order what
has resolved, and reports a misprediction of an instruction in flight. -/
structure Legal : Prop where
  accept : i.queryValid = true → u.queryReady i = true
  advance : ∀ lane, i.queryAdvance lane = true →
    i.flush = false ∧ recovers i = false
  advance1 : i.queryAdvance 1 = true →
    i.queryAdvance 0 = true ∧ u.predictTaken i 0 = false
  update : i.update.valid = true → ∃ e rest, g.flight = e :: rest ∧
    e.entered = true ∧ i.update.pc = e.pc ∧
    i.update.isConditional = isConditional e.insn ∧ i.update.taken = e.taken ∧
    (isConditional e.insn = true → i.update.target = e.pc + Insn.immB e.insn)
  resolve : recovers i = true → i.flush = false → ∃ e,
    (g.remaining i).find? (fun e => decide (e.tag = some i.resolve.robTag)) =
      some e ∧
    i.resolve.pc = e.pc ∧ i.resolve.isConditional = isConditional e.insn ∧
    (isConditional e.insn = true → i.resolve.target = e.pc + Insn.immB e.insn)
  saved : (allocations i).map (fun c => c.histories) =
    (((g.remaining i).filter Flight.waits).take (allocations i).length).map
      Flight.checkpoint
  free : ((allocations i).map fun c => c.tag).Nodup ∧
    ∀ c ∈ allocations i, ∀ e ∈ g.remaining i, e.tag ≠ some c.tag

/-- What the branch target buffer suggests is what the instructions are: the
direction of every conditional branch that is consumed, and slot 0 as slot 1 was
looked up behind it. -/
structure Exact : Prop where
  backward : ∀ lane, i.queryAdvance lane = true →
    u.queryIsConditional i lane = true →
    (u.speculate i lane).backward = u.isBackward i lane
  hint : i.queryAdvance 1 = true →
    (u.controls i 1 || u.branches i 1) = true →
    g.hint.control = u.controls i 0 ∧
    g.hint.conditional = u.queryIsConditional i 0 ∧
    (u.queryIsConditional i 0 = true → g.hint.backward = u.isBackward i 0)

/-- The runs whose cycles all meet a condition. -/
inductive Run (cond : Course → BranchPredictionUnit → Inputs → Prop) :
    BranchPredictionUnit → Course → Prop
  | reset (tables : (t : TageTableId) → TageTable (tageTagWidth t)) :
      Run cond (reset tables) {}
  | step {u : BranchPredictionUnit} {g : Course} (h : Run cond u g)
      (i : Inputs) (hcond : cond g u i) : Run cond (u.step i) (g.step u i)

end Course

section Chain

variable {h : Histories}

/-- Every instruction in flight carries the histories of those before it. -/
def Checkpointed (h : Histories) : List Flight → Prop
  | [] => True
  | e :: rest => e.checkpoint = h ∧ Checkpointed (h.push e.event) rest

/-- The histories after the instructions in flight. -/
def throughFlight (h : Histories) (flight : List Flight) : Histories :=
  h.replay (flight.map Flight.event)

theorem throughFlight_append (h : Histories) (a b : List Flight) :
    throughFlight h (a ++ b) = throughFlight (throughFlight h a) b := by
  rw [throughFlight, List.map_append, Histories.replay_append]
  rfl

theorem checkpointed_append (h : Histories) (a b : List Flight) :
    Checkpointed h (a ++ b) ↔
      Checkpointed h a ∧ Checkpointed (throughFlight h a) b := by
  induction a generalizing h with
  | nil => simp [Checkpointed, throughFlight, Histories.replay]
  | cons e rest ih =>
      simp only [List.cons_append, Checkpointed, ih, and_assoc]
      rfl

/-- The event of a control-flow instruction, as retirement or the execution
unit reports it. -/
theorem push_flight {e : Flight} {reported : HistoryEvent}
    (hentered : e.entered = true) (hcontrol : reported.control = true)
    (hconditional : reported.conditional = isConditional e.insn)
    (hpc : reported.pc = e.pc) (htaken : reported.taken = e.taken)
    (hbackward : isConditional e.insn = true →
      reported.backward = decide (e.pc + Insn.immB e.insn < e.pc)) :
    h.push reported = h.push e.event := by
  rw [Flight.event, hentered, if_pos rfl]
  apply Histories.push_congr
  · exact hcontrol
  · exact hconditional
  · exact fun _ => ⟨hpc, htaken⟩
  · exact fun hbranch => ⟨htaken, hbackward (hconditional ▸ hbranch)⟩

/-- Dispatch changes neither the events nor the checkpoints. -/
theorem dispatch_events (tags : List RobTag) (flight : List Flight) :
    (dispatch tags flight).map Flight.event = flight.map Flight.event := by
  induction flight generalizing tags with
  | nil =>
      cases tags with
      | nil => rfl
      | cons tag tags => rfl
  | cons e rest ih =>
      cases tags with
      | nil => rfl
      | cons tag tags =>
          rw [dispatch]
          split
          · rw [List.map_cons, List.map_cons, ih]
            rfl
          · rw [List.map_cons, List.map_cons, ih]

theorem checkpointed_dispatch (tags : List RobTag) {flight : List Flight}
    (hchain : Checkpointed h flight) : Checkpointed h (dispatch tags flight) := by
  induction flight generalizing tags h with
  | nil =>
      cases tags with
      | nil => exact trivial
      | cons tag tags => exact trivial
  | cons e rest ih =>
      cases tags with
      | nil => exact hchain
      | cons tag tags =>
          rw [dispatch]
          split
          · exact ⟨hchain.1, ih tags hchain.2⟩
          · exact ⟨hchain.1, ih (tag :: tags) hchain.2⟩

/-- A tag in the dispatched flight was there before, or is that of a branch
whose checkpoint is saved in this cycle. -/
theorem mem_dispatch {allocs : List TagePredictor.Checkpoint}
    {flight : List Flight}
    (hsaved : allocs.map (fun c => c.histories) =
      ((flight.filter Flight.waits).take allocs.length).map Flight.checkpoint)
    {e : Flight} (he : e ∈ dispatch (allocs.map fun c => c.tag) flight)
    {tag : RobTag} (htag : e.tag = some tag) :
    (∃ e' ∈ flight, e'.tag = some tag ∧ e'.checkpoint = e.checkpoint) ∨
      ∃ c ∈ allocs, c.tag = tag ∧ c.histories = e.checkpoint := by
  induction flight generalizing allocs with
  | nil =>
      cases allocs with
      | nil => exact absurd he List.not_mem_nil
      | cons c allocs => exact absurd he List.not_mem_nil
  | cons first rest ih =>
      cases allocs with
      | nil => exact Or.inl ⟨e, he, htag, rfl⟩
      | cons c allocs =>
          rw [List.map_cons, dispatch] at he
          cases hwaits : first.waits with
          | true =>
              rw [hwaits, if_pos rfl] at he
              rw [List.filter_cons_of_pos hwaits, List.length_cons,
                List.take_succ_cons, List.map_cons, List.map_cons,
                List.cons.injEq] at hsaved
              rcases List.mem_cons.mp he with rfl | hrest
              · exact Or.inr ⟨c, List.mem_cons_self,
                  Option.some.inj htag, hsaved.1⟩
              · rcases ih hsaved.2 hrest with ⟨e', hmem, hsame⟩ |
                  ⟨c', hmem, hsame⟩
                · exact Or.inl ⟨e', List.mem_cons_of_mem _ hmem, hsame⟩
                · exact Or.inr ⟨c', List.mem_cons_of_mem _ hmem, hsame⟩
          | false =>
              rw [hwaits, if_neg Bool.false_ne_true] at he
              rw [List.filter_cons_of_neg (by simp [hwaits])] at hsaved
              rcases List.mem_cons.mp he with rfl | hrest
              · exact Or.inl ⟨e, List.mem_cons_self, htag, rfl⟩
              · rcases ih hsaved hrest with ⟨e', hmem, hsame⟩ | hnew
                · exact Or.inl ⟨e', List.mem_cons_of_mem _ hmem, hsame⟩
                · exact Or.inr hnew

/-- A misprediction cuts the flight behind its branch. -/
theorem squash_split {tag : RobTag} (taken : Bool) {older younger : List Flight}
    {e : Flight} (htag : e.tag = some tag)
    (hbefore : ∀ e' ∈ older, e'.tag ≠ some tag) :
    squash tag taken (older ++ e :: younger) =
      older ++ [{ e with taken := taken, entered := true }] := by
  induction older with
  | nil => rw [List.nil_append, squash, if_pos htag, List.nil_append]
  | cons first rest ih =>
      have hfirst : first.tag ≠ some tag := hbefore first List.mem_cons_self
      have hrest : ∀ e' ∈ rest, e'.tag ≠ some tag := fun e' he' =>
        hbefore e' (List.mem_cons_of_mem _ he')
      rw [List.cons_append, squash, if_neg hfirst, ih hrest, List.cons_append]

end Chain

namespace Course

/-- The histories of the predictor match the course of the run. -/
structure Matched (u : BranchPredictionUnit) (g : Course) : Prop where
  committed : u.tage.committedHistories = ({} : Histories).replay g.committed
  global : u.tage.globalHistories =
    throughFlight u.tage.committedHistories g.flight
  chain : Checkpointed u.tage.committedHistories g.flight
  saved : ∀ e ∈ g.flight, ∀ tag, e.tag = some tag →
    u.tage.robCheckpoint tag = e.checkpoint
  request : (u.tage.prediction 0).histories = u.tage.globalHistories
  request1 : (u.tage.prediction 1).histories =
    u.tage.globalHistories.push g.hint
  pc : ∀ lane, (u.tage.prediction lane).pc = u.responsePc lane
  hint : g.hint.pc = u.responsePc 0 ∧ g.hint.taken = false

variable {u : BranchPredictionUnit} {g : Course} {i : Inputs}

theorem Matched.reset
    (tables : (t : TageTableId) → TageTable (tageTagWidth t)) :
    Matched (reset tables) {} where
  committed := rfl
  global := rfl
  chain := trivial
  saved := fun _ h => absurd h List.not_mem_nil
  request := rfl
  request1 := rfl
  pc := fun _ => rfl
  hint := ⟨rfl, rfl⟩

/-- The committed histories, the chain and the saved checkpoints once the
retiring instruction is out of the flight. -/
structure Retired (u : BranchPredictionUnit) (g : Course) (i : Inputs)
    (histories : Histories) : Prop where
  committed : u.tage.committedNext (u.tageInputs i) = histories
  replayed : histories = ({} : Histories).replay (g.nextCommitted i)
  global : u.tage.globalHistories = throughFlight histories (g.remaining i)
  chain : Checkpointed histories (g.remaining i)
  saved : ∀ e ∈ g.remaining i, ∀ tag, e.tag = some tag →
    u.tage.robCheckpoint tag = e.checkpoint

theorem Matched.retired (h : Matched u g) (hlegal : Legal g u i) :
    ∃ histories, Retired u g i histories := by
  have haccepted : u.tage.updateAccepted (u.tageInputs i) = i.update.valid := by
    change (i.update.valid && u.tage.updateQueue.enqReady true) = _
    rw [TageUpdateQueue.enqReady_true, Bool.and_true]
  cases hvalid : i.update.valid with
  | false =>
      have hremaining : g.remaining i = g.flight := by
        simp [remaining, hvalid]
      refine ⟨u.tage.committedHistories, ?_, ?_, ?_, ?_, ?_⟩
      · rw [TagePredictor.committedNext, haccepted, hvalid]
        rfl
      · rw [nextCommitted, hvalid]
        exact h.committed
      · rw [hremaining]
        exact h.global
      · rw [hremaining]
        exact h.chain
      · rw [hremaining]
        exact h.saved
  | true =>
      obtain ⟨e, rest, hflight, hentered, hpc, hconditional, htaken, htarget⟩ :=
        hlegal.update hvalid
      have hremaining : g.remaining i = rest := by
        simp [remaining, hvalid, hflight]
      have hpush : u.tage.committedHistories.push i.update.event =
          u.tage.committedHistories.push e.event := by
        apply push_flight hentered rfl hconditional hpc htaken
        intro hbranch
        change decide (i.update.target < i.update.pc) = _
        rw [htarget hbranch, hpc]
      have hchain := h.chain
      have hglobal := h.global
      rw [hflight] at hchain hglobal
      refine ⟨u.tage.committedHistories.push i.update.event, ?_, ?_, ?_, ?_, ?_⟩
      · rw [TagePredictor.committedNext, haccepted, hvalid]
        rfl
      · rw [nextCommitted, hvalid, if_pos rfl, Histories.replay_snoc,
          ← h.committed]
      · rw [hremaining, hpush]
        exact hglobal
      · rw [hremaining, hpush]
        exact hchain.2
      · rw [hremaining]
        intro e' he'
        apply h.saved
        rw [hflight]
        exact List.mem_cons_of_mem _ he'

/-- What a lane sends into flight moves the histories as the predictor moves
them. -/
theorem Matched.fetched_push (h : Matched u g) (hexact : Exact g u i)
    (histories : Histories) (lane : Lane) :
    throughFlight histories (u.fetched i lane) = histories.push
      ((u.speculate i lane).event (u.tage.prediction lane).pc) := by
  have hcontrol : ((u.speculate i lane).event
      (u.tage.prediction lane).pc).control =
      (i.queryAdvance lane && u.controls i lane) := rfl
  have hconditional : ((u.speculate i lane).event
      (u.tage.prediction lane).pc).conditional =
      (i.queryAdvance lane && u.queryIsConditional i lane) := rfl
  unfold fetched
  cases hadvance : i.queryAdvance lane with
  | false =>
      rw [hadvance, Bool.false_and] at hcontrol hconditional
      rw [Histories.push_of_plain hcontrol hconditional]
      rfl
  | true =>
      rw [hadvance, Bool.true_and] at hcontrol hconditional
      cases hcontrols : u.controls i lane with
      | false =>
          have hplain : u.queryIsConditional i lane = false := by
            rw [controls, Bool.or_eq_false_iff] at hcontrols
            exact hcontrols.1
          rw [hcontrols] at hcontrol
          rw [hplain] at hconditional
          rw [Histories.push_of_plain hcontrol hconditional]
          cases u.branches i lane with
          | true => exact Histories.push_of_plain rfl rfl
          | false => rfl
      | true =>
          rw [hcontrols] at hcontrol
          change histories.push _ = _
          apply Histories.push_congr
          · exact hcontrol.symm
          · exact hconditional.symm
          · exact fun _ => ⟨(h.pc lane).symm, rfl⟩
          · intro hbranch
            exact ⟨rfl, (hexact.backward lane hadvance hbranch).symm⟩

/-- The checkpoint of a lane. -/
theorem checkpoint_eq (u : BranchPredictionUnit) (i : Inputs) (lane : Lane) :
    ({ history := (u.tageMeta i lane).history
       path := (u.tageMeta i lane).pathHistory
       imli := (u.tageMeta i lane).scImli } : Histories) =
      (u.tage.prediction lane).histories := by
  change ({ history := (u.tage.tageBaseMeta u.baseTaken lane).history
            path := (u.tage.tageBaseMeta u.baseTaken lane).pathHistory
            imli := (u.tage.tageBaseMeta u.baseTaken lane).scImli } :
    Histories) = _
  unfold TagePredictor.tageBaseMeta
  cases u.tage.hits lane with
  | nil => rfl
  | cons t rest => rfl

/-- Both lanes go into flight with the histories of everything before them. -/
theorem Matched.fetched_chain (h : Matched u g) (hlegal : Legal g u i)
    (hexact : Exact g u i) :
    Checkpointed u.tage.globalHistories (u.fetched i 0 ++ u.fetched i 1) := by
  rw [checkpointed_append, h.fetched_push hexact]
  constructor
  · unfold fetched
    split
    · exact ⟨(checkpoint_eq u i 0).trans h.request, trivial⟩
    · exact trivial
  · by_cases hfetch : (i.queryAdvance 1 &&
        (u.controls i 1 || u.branches i 1)) = true
    · have hboth := hfetch
      rw [Bool.and_eq_true] at hboth
      obtain ⟨hadvance0, htaken⟩ := hlegal.advance1 hboth.1
      obtain ⟨hcontrol, hconditional, hbackward⟩ := hexact.hint hboth.1 hboth.2
      have hpush : u.tage.globalHistories.push g.hint =
          u.tage.globalHistories.push
            ((u.speculate i 0).event (u.tage.prediction 0).pc) := by
        apply Histories.push_congr
        · rw [hcontrol]
          change _ = (i.queryAdvance 0 && u.controls i 0)
          rw [hadvance0, Bool.true_and]
        · rw [hconditional]
          change _ = (i.queryAdvance 0 && u.queryIsConditional i 0)
          rw [hadvance0, Bool.true_and]
        · intro _
          refine ⟨h.hint.1.trans (h.pc 0).symm, ?_⟩
          exact h.hint.2.trans htaken.symm
        · intro hbranch
          rw [hconditional] at hbranch
          refine ⟨h.hint.2.trans htaken.symm, ?_⟩
          rw [hbackward hbranch]
          exact (hexact.backward 0 hadvance0 hbranch).symm
      unfold fetched
      rw [if_pos hfetch]
      refine ⟨?_, trivial⟩
      rw [← hpush]
      exact (checkpoint_eq u i 1).trans h.request1
    · unfold fetched
      rw [if_neg hfetch]
      exact trivial

section Checkpoints

variable (hflush : i.flush = false) (hrecover : recovers i = false)

include hflush hrecover

theorem nextRobCheckpoint_eq (tag : RobTag) :
    (u.step i).tage.robCheckpoint tag =
      if (i.checkpointAlloc 1).valid && decide ((i.checkpointAlloc 1).tag = tag)
      then (i.checkpointAlloc 1).histories
      else if (i.checkpointAlloc 0).valid &&
          decide ((i.checkpointAlloc 0).tag = tag)
      then (i.checkpointAlloc 0).histories
      else u.tage.robCheckpoint tag := by
  change u.tage.nextRobCheckpoint (u.tageInputs i) tag = _
  unfold TagePredictor.nextRobCheckpoint
  change (if i.flush || recovers i then u.tage.robCheckpoint else _) tag = _
  rw [hflush, hrecover]
  rfl

/-- A dispatched branch finds its checkpoint under its tag. -/
theorem robCheckpoint_saved
    (hnodup : ((allocations i).map fun c => c.tag).Nodup)
    {c : TagePredictor.Checkpoint} (hc : c ∈ allocations i) :
    (u.step i).tage.robCheckpoint c.tag = c.histories := by
  rw [nextRobCheckpoint_eq hflush hrecover]
  unfold allocations at hc hnodup
  rw [List.mem_filter, List.mem_cons, List.mem_singleton] at hc
  obtain ⟨hmem, hvalid⟩ := hc
  rcases hmem with rfl | rfl
  · cases hvalid1 : (i.checkpointAlloc 1).valid with
    | false => simp [hvalid]
    | true =>
        simp only [List.filter_cons, hvalid, hvalid1, if_true, List.filter_nil,
          List.map_cons, List.map_nil, List.nodup_cons, List.mem_singleton] at hnodup
        have hne : (i.checkpointAlloc 1).tag ≠ (i.checkpointAlloc 0).tag :=
          fun heq => hnodup.1 heq.symm
        simp [hvalid, hne]
  · simp [hvalid]

/-- The other checkpoints stay. -/
theorem robCheckpoint_kept {tag : RobTag}
    (htag : ∀ c ∈ allocations i, c.tag ≠ tag) :
    (u.step i).tage.robCheckpoint tag = u.tage.robCheckpoint tag := by
  have hnot (lane : Lane) : ((i.checkpointAlloc lane).valid &&
      decide ((i.checkpointAlloc lane).tag = tag)) = false := by
    cases hvalid : (i.checkpointAlloc lane).valid with
    | false => rfl
    | true =>
        apply decide_eq_false
        apply htag
        rw [allocations, List.mem_filter]
        refine ⟨?_, hvalid⟩
        match lane with
        | 0 => exact List.mem_cons_self
        | 1 => exact List.mem_cons_of_mem _ List.mem_cons_self
  rw [nextRobCheckpoint_eq hflush hrecover, hnot, hnot]
  rfl

end Checkpoints

/-- What an edge does to the requests, whatever it does to the histories. -/
theorem Matched.of_histories (hlegal : Legal g u i)
    (hcommitted : (u.step i).tage.committedHistories =
      ({} : Histories).replay (g.nextCommitted i))
    (hglobal : (u.step i).tage.globalHistories = throughFlight
      (u.step i).tage.committedHistories (g.step u i).flight)
    (hchain : Checkpointed (u.step i).tage.committedHistories
      (g.step u i).flight)
    (hsaved : ∀ e ∈ (g.step u i).flight, ∀ tag, e.tag = some tag →
      (u.step i).tage.robCheckpoint tag = e.checkpoint) :
    Matched (u.step i) (g.step u i) where
  committed := hcommitted
  global := hglobal
  chain := hchain
  saved := hsaved
  request := rfl
  request1 := rfl
  pc := by
    intro lane
    change (u.tage.request (u.tageInputs i) lane).pc = u.nextResponsePc i lane
    rw [nextResponsePc_eq hlegal.accept]
    match lane with
    | 0 => rfl
    | 1 => rfl
  hint := ⟨(nextResponsePc_eq hlegal.accept 0).symm, rfl⟩

/-- A flush goes back to the committed histories. -/
theorem Matched.step_flush (h : Matched u g) (hlegal : Legal g u i)
    (hflush : i.flush = true) : Matched (u.step i) (g.step u i) := by
  obtain ⟨histories, hretired⟩ := h.retired hlegal
  have hflight : (g.step u i).flight = [] := by
    rw [step, hflush, if_pos rfl]
  have hglobal : (u.step i).tage.globalHistories =
      u.tage.committedNext (u.tageInputs i) := by
    change u.tage.requestHistories (u.tageInputs i) = _
    unfold TagePredictor.requestHistories TagePredictor.restoreValid
      TagePredictor.restored
    have hinput : (u.tageInputs i).flush = true := hflush
    rw [hinput]
    rfl
  apply Matched.of_histories hlegal
  · exact hretired.committed.trans hretired.replayed
  · rw [hflight, hglobal]
    rfl
  · rw [hflight]
    exact trivial
  · rw [hflight]
    exact fun _ he => absurd he List.not_mem_nil

/-- A misprediction goes back to the histories of its branch and adds the
resolved outcome. -/
theorem Matched.recovered (h : Matched u g) (hlegal : Legal g u i)
    (hflush : i.flush = false) (hrecover : recovers i = true) :
    ∃ e older younger histories, Retired u g i histories ∧
      g.remaining i = older ++ e :: younger ∧
      (g.step u i).flight = older ++
        [{ e with taken := i.resolve.taken, entered := true }] ∧
      e.tag = some i.resolve.robTag ∧
      (∀ e' ∈ older, e'.tag ≠ some i.resolve.robTag) ∧
      (u.step i).tage.globalHistories = (throughFlight histories older).push
        ({ e with taken := i.resolve.taken, entered := true } : Flight).event := by
  obtain ⟨histories, hretired⟩ := h.retired hlegal
  obtain ⟨e, hfind, hpc, hconditional, htarget⟩ := hlegal.resolve hrecover hflush
  obtain ⟨hfound, older, younger, hsplit, hnone⟩ :=
    List.find?_eq_some_iff_append.mp hfind
  have htag : e.tag = some i.resolve.robTag := of_decide_eq_true hfound
  have hbefore : ∀ e' ∈ older, e'.tag ≠ some i.resolve.robTag := by
    intro e' he'
    simpa using hnone e' he'
  refine ⟨e, older, younger, histories, hretired, hsplit, ?_, htag, hbefore, ?_⟩
  · rw [step, hflush, hrecover, if_neg Bool.false_ne_true, if_pos rfl, hsplit,
      squash_split _ htag hbefore]
  · have hglobal : (u.step i).tage.globalHistories =
        (u.tage.robCheckpoint i.resolve.robTag).push
          (u.tageInputs i).recover.event := by
      change u.tage.requestHistories (u.tageInputs i) = _
      unfold TagePredictor.requestHistories TagePredictor.restoreValid
        TagePredictor.restored
      have hinput : (u.tageInputs i).flush = false := hflush
      have hvalid : (u.tageInputs i).recover.valid = true := hrecover
      rw [hinput, hvalid]
      rfl
    have hchain := hretired.chain
    rw [hsplit, checkpointed_append] at hchain
    have hcheckpoint : u.tage.robCheckpoint i.resolve.robTag =
        throughFlight histories older := by
      rw [hretired.saved e (by rw [hsplit]; simp) _ htag]
      exact hchain.2.1
    rw [hglobal, hcheckpoint]
    apply push_flight rfl rfl hconditional hpc rfl
    intro hbranch
    change decide (i.resolve.target < i.resolve.pc) = _
    rw [htarget hbranch, hpc]

theorem Matched.step_recover (h : Matched u g) (hlegal : Legal g u i)
    (hflush : i.flush = false) (hrecover : recovers i = true) :
    Matched (u.step i) (g.step u i) := by
  obtain ⟨e, older, younger, histories, hretired, hsplit, hflight, htag, _,
    hglobal⟩ := h.recovered hlegal hflush hrecover
  have hcommitted : (u.step i).tage.committedHistories = histories :=
    hretired.committed
  have hchain := hretired.chain
  rw [hsplit, checkpointed_append] at hchain
  apply Matched.of_histories hlegal
  · rw [hcommitted, hretired.replayed]
  · rw [hglobal, hflight, hcommitted, throughFlight_append]
    rfl
  · rw [hflight, hcommitted, checkpointed_append]
    exact ⟨hchain.1, hchain.2.1, trivial⟩
  · rw [hflight]
    intro e' he' tag htag'
    have hkept : (u.step i).tage.robCheckpoint tag =
        u.tage.robCheckpoint tag := by
      change u.tage.nextRobCheckpoint (u.tageInputs i) tag = _
      unfold TagePredictor.nextRobCheckpoint
      change (if i.flush || recovers i then u.tage.robCheckpoint else _) tag = _
      rw [hrecover, Bool.or_true]
      rfl
    rw [hkept]
    rcases List.mem_append.mp he' with hold | hlast
    · exact hretired.saved e' (by rw [hsplit]; simp [hold]) tag htag'
    · rw [List.mem_singleton] at hlast
      subst hlast
      exact hretired.saved e (by rw [hsplit]; simp) tag htag'

/-- A cycle without a redirect. -/
theorem Matched.step_normal (h : Matched u g) (hlegal : Legal g u i)
    (hexact : Exact g u i) (hflush : i.flush = false)
    (hrecover : recovers i = false) : Matched (u.step i) (g.step u i) := by
  obtain ⟨histories, hretired⟩ := h.retired hlegal
  have hcommitted : (u.step i).tage.committedHistories = histories :=
    hretired.committed
  have hflight : (g.step u i).flight =
      dispatch ((allocations i).map fun c => c.tag) (g.remaining i) ++
        (u.fetched i 0 ++ u.fetched i 1) := by
    rw [step, hflush, hrecover, if_neg Bool.false_ne_true,
      if_neg Bool.false_ne_true]
  have hglobal : (u.step i).tage.globalHistories =
      (u.tage.globalHistories.push
        ((u.speculate i 0).event (u.tage.prediction 0).pc)).push
        ((u.speculate i 1).event (u.tage.prediction 1).pc) := by
    change u.tage.requestHistories (u.tageInputs i) = _
    unfold TagePredictor.requestHistories TagePredictor.restoreValid
    have hinput : (u.tageInputs i).flush = false := hflush
    have hvalid : (u.tageInputs i).recover.valid = false := hrecover
    rw [hinput, hvalid]
    rfl
  have hdispatched : throughFlight histories
      (dispatch ((allocations i).map fun c => c.tag) (g.remaining i)) =
      u.tage.globalHistories := by
    rw [throughFlight, dispatch_events, hretired.global]
    rfl
  apply Matched.of_histories hlegal
  · rw [hcommitted, hretired.replayed]
  · rw [hglobal, hflight, hcommitted, throughFlight_append, hdispatched,
      throughFlight_append, h.fetched_push hexact, h.fetched_push hexact]
  · rw [hflight, hcommitted, checkpointed_append, hdispatched]
    exact ⟨checkpointed_dispatch _ hretired.chain,
      h.fetched_chain hlegal hexact⟩
  · rw [hflight]
    intro e he tag htag
    rcases List.mem_append.mp he with hold | hnew
    · rcases mem_dispatch hlegal.saved hold htag with ⟨e', hmem, hsame, hcheck⟩ |
        ⟨c, hmem, hsame, hcheck⟩
      · rw [robCheckpoint_kept hflush hrecover, ← hcheck]
        · exact hretired.saved e' hmem tag hsame
        · intro c hc heq
          exact hlegal.free.2 c hc e' hmem (heq ▸ hsame)
      · rw [← hsame, ← hcheck]
        exact robCheckpoint_saved hflush hrecover hlegal.free.1 hmem
    · have huntagged (lane : Lane) (hlane : e ∈ u.fetched i lane) :
          e.tag = none := by
        unfold fetched at hlane
        split at hlane
        · rw [List.mem_singleton] at hlane
          rw [hlane]
        · exact absurd hlane List.not_mem_nil
      have hnone : e.tag = none := by
        rcases List.mem_append.mp hnew with hfirst | hsecond
        · exact huntagged 0 hfirst
        · exact huntagged 1 hsecond
      exact absurd (hnone.symm.trans htag) (by simp)

theorem Matched.step (h : Matched u g) (hlegal : Legal g u i)
    (hexact : Exact g u i) : Matched (u.step i) (g.step u i) := by
  cases hflush : i.flush with
  | true => exact h.step_flush hlegal hflush
  | false =>
      cases hrecover : recovers i with
      | true => exact h.step_recover hlegal hflush hrecover
      | false => exact h.step_normal hlegal hexact hflush hrecover

theorem Run.matched (h : Run (fun g u i => Legal g u i ∧ Exact g u i) u g) :
    Matched u g := by
  induction h with
  | reset tables => exact Matched.reset tables
  | step _ i hcond ih => exact ih.step hcond.1 hcond.2

namespace Unhinted

/-- A cycle in which nothing happens. -/
def quiet : Inputs where
  flush := false
  cancel := false
  queryValid := false
  queryPc := fun _ => 0
  instructionValid := false
  queryInsn := fun _ => 0
  queryAdvance := fun _ => false
  update := Relookup.noUpdate
  resolve := ⟨false, 0, false, false, 0, false, false, false, 0⟩
  checkpointAlloc := fun _ => ⟨false, 0, {}, {}⟩

/-- A request for a pair. -/
def request (pc : Word) : Inputs :=
  { quiet with
    queryValid := true
    queryPc := fun lane => if lane = 0 then pc else pc + 4 }

/-- `beq x0, x0, 8`. -/
def beq : Word := 0x463

/-- A response with a branch in slot 1 is consumed. -/
def consume (insn0 : Word) : Inputs :=
  { quiet with
    instructionValid := true
    queryInsn := fun lane => if lane = 0 then insn0 else beq
    queryAdvance := fun _ => true }

/-- A branch is dispatched. -/
def allocate (lane : Lane) (tag : RobTag) (histories : Histories) : Inputs :=
  { quiet with
    checkpointAlloc := fun l => ⟨decide (l = lane), tag, histories, {}⟩ }

/-- A branch resolves taken against its prediction, and the fetch goes on at
its target. -/
def mispredict (pc : Word) (tag : RobTag) : Inputs :=
  { request (pc + 8) with
    cancel := true
    resolve := ⟨true, pc, true, true, pc + 8, true, false, false, tag⟩ }

/-- The cycles: a branch in slot 1 behind a no-operation, then two branches in
one packet. -/
def cycles : List Inputs :=
  [request 0, consume 0x13, allocate 1 0 {}, mispredict 4 0, consume beq,
    allocate 0 1 { history := 1 }, allocate 1 2 { history := 1 }]

def after (n : Nat) : BranchPredictionUnit × Course :=
  (cycles.take n).foldl (fun s i => (s.1.step i, s.2.step s.1 i))
    (Relookup.start, {})

theorem legal_request (pc : Word) (hready : u.requestContextValid = false) :
    Legal g u (request pc) where
  accept := fun _ => by simp [queryReady, hready]
  advance := fun _ h => absurd h Bool.false_ne_true
  advance1 := fun h => absurd h Bool.false_ne_true
  update := fun h => absurd h Bool.false_ne_true
  resolve := fun h => absurd h Bool.false_ne_true
  saved := rfl
  free := ⟨List.nodup_nil, fun _ hc => absurd hc List.not_mem_nil⟩

theorem legal_consume (insn0 : Word)
    (htaken : u.predictTaken (consume insn0) 0 = false) :
    Legal g u (consume insn0) where
  accept := fun h => absurd h Bool.false_ne_true
  advance := fun _ _ => ⟨rfl, rfl⟩
  advance1 := fun _ => ⟨rfl, htaken⟩
  update := fun h => absurd h Bool.false_ne_true
  resolve := fun h => absurd h Bool.false_ne_true
  saved := rfl
  free := ⟨List.nodup_nil, fun _ hc => absurd hc List.not_mem_nil⟩

theorem allocations_allocate (lane : Lane) (tag : RobTag)
    (histories : Histories) :
    allocations (allocate lane tag histories) =
      [⟨true, tag, histories, {}⟩] := by
  match lane with
  | 0 => rfl
  | 1 => rfl

theorem legal_allocate {lane : Lane} {tag : RobTag} {histories : Histories}
    (hsaved : [histories] =
      ((g.flight.filter Flight.waits).take 1).map Flight.checkpoint)
    (hfree : ∀ e ∈ g.flight, e.tag ≠ some tag) :
    Legal g u (allocate lane tag histories) where
  accept := fun h => absurd h Bool.false_ne_true
  advance := fun _ h => absurd h Bool.false_ne_true
  advance1 := fun h => absurd h Bool.false_ne_true
  update := fun h => absurd h Bool.false_ne_true
  resolve := fun h => absurd h Bool.false_ne_true
  saved := by
    rw [allocations_allocate]
    exact hsaved
  free := by
    rw [allocations_allocate]
    refine ⟨List.nodup_singleton _, ?_⟩
    intro c hc
    rw [List.mem_singleton] at hc
    subst hc
    exact hfree

theorem legal_mispredict {pc : Word} {tag : RobTag} {e : Flight}
    (hfind : g.flight.find? (fun e => decide (e.tag = some tag)) = some e)
    (hpc : e.pc = pc) (hinsn : e.insn = beq) :
    Legal g u (mispredict pc tag) where
  accept := fun _ => by simp [queryReady, mispredict]
  advance := fun _ h => absurd h Bool.false_ne_true
  advance1 := fun h => absurd h Bool.false_ne_true
  update := fun h => absurd h Bool.false_ne_true
  resolve := by
    intro _ _
    refine ⟨e, hfind, hpc.symm, ?_, ?_⟩
    · rw [hinsn]
      change true = isConditional beq
      decide
    · intro _
      rw [hpc, hinsn]
      rfl
  saved := rfl
  free := ⟨List.nodup_nil, fun _ hc => absurd hc List.not_mem_nil⟩

/-- The flight of a branch that is dispatched. -/
def branchAt (pc : Word) (tag : RobTag) (histories : Histories) : Flight :=
  { pc := pc, insn := beq, taken := false, entered := true
    checkpoint := histories, tag := some tag }

/-- The first branch is in flight and dispatched. -/
theorem flight_first : (after 3).2.flight = [branchAt 4 0 {}] := by
  decide +kernel

theorem run_first {cond : Course → BranchPredictionUnit → Inputs → Prop}
    (hrequest : cond {} Relookup.start (request 0))
    (hconsume : cond (after 1).2 (after 1).1 (consume 0x13))
    (hallocate : cond (after 2).2 (after 2).1 (allocate 1 0 {})) :
    Run cond (after 3).1 (after 3).2 :=
  (((Run.reset _).step _ hrequest).step _ hconsume).step _ hallocate

theorem legal_first_request : Legal {} Relookup.start (request 0) :=
  legal_request 0 rfl

theorem legal_first_consume :
    Legal (after 1).2 (after 1).1 (consume 0x13) :=
  legal_consume 0x13 (by decide +kernel)

theorem legal_first_allocate :
    Legal (after 2).2 (after 2).1 (allocate 1 0 {}) :=
  legal_allocate (by decide +kernel) (by decide +kernel)

theorem legal_first_mispredict :
    Legal (after 3).2 (after 3).1 (mispredict 4 0) := by
  refine legal_mispredict (e := branchAt 4 0 {}) ?_ rfl rfl
  rw [flight_first]
  rfl

theorem run_second : Run Legal (after 7).1 (after 7).2 := by
  have hfirst := run_first legal_first_request legal_first_consume
    legal_first_allocate
  have hrecovered : Run Legal (after 4).1 (after 4).2 :=
    hfirst.step (mispredict 4 0) legal_first_mispredict
  have hfetched : Run Legal (after 5).1 (after 5).2 :=
    hrecovered.step (consume beq) (legal_consume beq (by decide +kernel))
  have hslot0 : Run Legal (after 6).1 (after 6).2 :=
    hfetched.step (allocate 0 1 { history := 1 })
      (legal_allocate (by decide +kernel) (by decide +kernel))
  exact hslot0.step (allocate 1 2 { history := 1 })
    (legal_allocate (by decide +kernel) (by decide +kernel))

end Unhinted

end Course

end BranchPredictionUnit

end OoOCore
