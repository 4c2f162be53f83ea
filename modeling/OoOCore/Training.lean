/-
The training stream.  The records that reach the predictor tables are those of
the retired control transfers, in program order and each once, with the outcome
the branch resolved to and the prediction its instruction was fetched with; the
direction tables get the conditional ones through a queue that is never full.
-/
import OoOCore.DispatchAtomicity
import OoOCore.Drain
import OoOCore.Resolution
import OoOCore.TageKeys

namespace OoOCore

/-- What the predictor says of one instruction it delivers. -/
structure SlotPrediction where
  pc : Word
  insn : Word
  predictorIndex : BitVec 10
  tageMeta : TageMeta

/-- What a fetch packet carries of its prediction. -/
def FetchPacket.slot (p : FetchPacket) : SlotPrediction where
  pc := p.pc
  insn := p.insn
  predictorIndex := p.predictorIndex
  tageMeta := p.tageMeta

namespace FrontEnd

section Delivery

variable (f : FrontEnd) (i : Inputs)

/-- The prediction of a slot of the response, with the word in it. -/
def slotPrediction (lane : Lane) : SlotPrediction where
  pc := (f.prediction i).pc lane
  insn := f.ifStage.fetchInsn (jump i) (f.predictionValid i)
    (f.predictTaken0 i) lane
  predictorIndex := (f.prediction i).predictorIndex lane
  tageMeta := (f.prediction i).tageMeta lane

/-- The predictions of the instructions the fetch queue takes in a cycle. -/
def delivered : List SlotPrediction :=
  [f.slotPrediction i 0, f.slotPrediction i 1].take
    (f.fetchQueue.enqueueCount (f.fetchPacket i) i.issue)

/-- A packet that enters the queue carries its prediction. -/
theorem delivered_eq : f.delivered i =
    ([f.fetchPacket i 0, f.fetchPacket i 1].take
      (f.fetchQueue.enqueueCount (f.fetchPacket i) i.issue)).map
        FetchPacket.slot := by
  cases husable : f.ifStage.responseUsable (jump i) (f.predictionValid i) with
  | true =>
      have hslot (lane : Lane) :
          (f.fetchPacket i lane).slot = f.slotPrediction i lane := by
        rw [FetchPacket.slot, fetchPacket_pc husable]
        change SlotPrediction.mk _ _ (if f.ifStage.responseUsable (jump i)
          (f.predictionValid i) then _ else _) (if f.ifStage.responseUsable
          (jump i) (f.predictionValid i) then _ else _) = _
        rw [if_pos husable, if_pos husable]
        rfl
      rw [delivered, List.map_take, List.map_cons, List.map_singleton, hslot,
        hslot]
  | false =>
      have hnone : f.fetchQueue.enqueueCount (f.fetchPacket i) i.issue = 0 := by
        rw [FetchQueue.enqueueCount, fetchInsn_eq,
          incomingCount_of_unusable husable, ite_self]
      rw [delivered, hnone]
      rfl

end Delivery

end FrontEnd

/-- What a run has trained, beside the predictions and outcomes it was told.
The hardware keeps none of this in one place. -/
structure TrainingLog where
  /-- The predictions of the instructions in front of the decoders. -/
  waiting : List SlotPrediction := []
  /-- The prediction each dispatch was fetched with. -/
  own : Nat → Option SlotPrediction := fun _ => none
  /-- What each dispatch resolved to. -/
  outcome : Outcomes := fun _ => none
  /-- The records on the training port. -/
  updates : List BranchPredictionUnit.Update := []
  /-- The records that trained the direction tables. -/
  trained : List TageUpdate := []

/-- What the direction predictor keeps of a record. -/
def BranchPredictionUnit.Update.queued (u : BranchPredictionUnit.Update) :
    TageUpdate where
  isConditional := u.isConditional
  pc := u.pc
  taken := u.taken
  tageMeta := u.tageMeta

/-- The record a retired instruction is due, from its word, its prediction and
its outcome. -/
def TrainingLog.record (g : TrainingLog) (r : Retired) :
    Option BranchPredictionUnit.Update :=
  match g.own r.entry.origin.uid, g.outcome r.entry.origin.uid with
  | some p, some o => some
      { valid := true
        isConditional := (decoder r.entry.origin.insn).branchCtr.isConditional
        pc := p.pc
        target := o.target
        taken := o.taken
        tageMeta := p.tageMeta
        predictorIndex := p.predictorIndex }
  | _, _ => none

/-- The retired instruction is a control transfer. -/
def Retired.isControl (r : Retired) : Bool :=
  (decoder r.entry.origin.insn).branchCtr != .none

/-- The retired instruction is a conditional branch. -/
def Retired.isConditional (r : Retired) : Bool :=
  (decoder r.entry.origin.insn).branchCtr.isConditional

/-- The record `branchTrain_o` makes of a ROB entry. -/
def RobEntry.training (e : RobEntry) : BranchPredictionUnit.Update where
  valid := true
  isConditional := e.branchCtr.isConditional
  pc := e.pc
  target := e.branchTarget
  taken := e.branchTaken
  tageMeta := e.tageMeta
  predictorIndex := e.predictorIndex

namespace Backend

variable {s : Backend} {i : Inputs}

section Retiring

/-- The trained lane is the one whose branch retires. -/
theorem retiredLanes_branch : (s.retiredLanes i).filter
      (fun l => (s.rob.commitEntry l).isBranch) = (s.trainLane i).toList := by
  have halone (h1 : s.robRetireValid i 1 = true)
      (hbranch : (s.rob.commitEntry 1).isBranch = true) :
      (s.rob.commitEntry 0).isBranch = false :=
    BackendCommitStage.passes_one_branch h1 hbranch
  have hfirst := s.robRetireValid_one i
  unfold retiredLanes trainLane
  cases h0 : s.robRetireValid i 0 with
  | false =>
      have h1 := s.robRetireValid_one_false i h0
      simp [h0, h1]
  | true =>
      cases h1 : s.robRetireValid i 1 with
      | false =>
          cases hb0 : (s.rob.commitEntry 0).isBranch <;> simp [h0, h1, hb0]
      | true =>
          cases hb1 : (s.rob.commitEntry 1).isBranch with
          | true => simp [h0, h1, hb1, halone h1 hb1]
          | false =>
              cases hb0 : (s.rob.commitEntry 0).isBranch <;>
                simp [h0, h1, hb0, hb1]

/-- A cycle trains what it retires. -/
theorem retiredNow_training :
    ((s.retiredNow i).filter fun r => r.entry.isBranch).map
        (fun r => r.entry.training) =
      if (s.branchTrain i).valid then [s.branchTrain i] else [] := by
  rw [retiredNow, List.filter_map, List.map_map]
  change ((s.retiredLanes i).filter
    fun l => (s.rob.commitEntry l).isBranch).map
      (fun l => (s.rob.commitEntry l).training) = _
  rw [retiredLanes_branch]
  cases hlane : s.trainLane i with
  | none =>
      have htrain : (s.branchTrain i).valid = false := by
        unfold branchTrain
        rw [hlane]
      rw [htrain]
      rfl
  | some l =>
      have htrain : s.branchTrain i = (s.rob.commitEntry l).training := by
        unfold branchTrain
        rw [hlane]
        rfl
      rw [htrain]
      rfl

end Retiring

section Dispatching

/-- Where a lane stands among the accepted ones. -/
theorem acceptedLanes_get {l : Lane} (hl : s.dispatchAccept i l = true) :
    (s.acceptedLanes i)[s.laneUid i l - s.nextUid]? = some l := by
  unfold acceptedLanes
  match l with
  | 0 => simp [laneUid, hl]
  | 1 =>
      cases h0 : s.dispatchAccept i 0 <;>
        simp [laneUid, robAllocValid_eq, h0, hl]

theorem acceptedLanes_length :
    (s.acceptedLanes i).length = (s.step i).nextUid - s.nextUid := by
  have hlength := congrArg List.length (s.newLanes_uids (i := i))
  rw [List.length_map, List.length_range'] at hlength
  rw [acceptedLanes_eq, hlength]

end Dispatching

end Backend

/-- The entry names its instruction and carries the prediction it was fetched
with. -/
structure RobEntry.Supplied (e : RobEntry) (own : Nat → Option SlotPrediction) :
    Prop where
  own : own e.origin.uid =
    some ⟨e.pc, e.origin.insn, e.predictorIndex, e.tageMeta⟩
  branchCtr : e.branchCtr = (decoder e.origin.insn).branchCtr
  isBranch : e.isBranch = ((decoder e.origin.insn).branchCtr != .none)

section Supply

variable {e e' : RobEntry} {own own' : Nat → Option SlotPrediction}

theorem RobEntry.Supplied.mono (h : e.Supplied own)
    (hsame : own' e.origin.uid = own e.origin.uid) : e.Supplied own' where
  own := hsame.trans h.own
  branchCtr := h.branchCtr
  isBranch := h.isBranch

/-- The fields of a record that dispatch fixes. -/
theorem RobEntry.atDispatch_training (h : e'.atDispatch = e.atDispatch) :
    e'.origin = e.origin ∧ e'.pc = e.pc ∧
      e'.predictorIndex = e.predictorIndex ∧ e'.tageMeta = e.tageMeta ∧
      e'.branchCtr = e.branchCtr ∧ e'.isBranch = e.isBranch := by
  have horigin := congrArg RobEntry.origin h
  have hpc := congrArg RobEntry.pc h
  have hindex := congrArg RobEntry.predictorIndex h
  have hmeta := congrArg RobEntry.tageMeta h
  have hctr := congrArg RobEntry.branchCtr h
  have hbranch := congrArg RobEntry.isBranch h
  exact ⟨horigin, hpc, hindex, hmeta, hctr, hbranch⟩

theorem RobEntry.Supplied.of_atDispatch (h : e.Supplied own)
    (heq : e'.atDispatch = e.atDispatch) : e'.Supplied own := by
  obtain ⟨horigin, hpc, hindex, hmeta, hctr, hbranch⟩ :=
    RobEntry.atDispatch_training heq
  constructor
  · rw [horigin, hpc, hindex, hmeta, h.own]
  · rw [hctr, horigin, h.branchCtr]
  · rw [hbranch, horigin, h.isBranch]

end Supply

namespace TopCpu

section Log

variable (c : TopCpu) (fromHost : Word) (g : TrainingLog)

/-- The log one cycle later.  What is dispatched takes the oldest predictions,
in order, and a redirect drops those that wait. -/
def logTraining : TrainingLog where
  waiting := if (FrontEnd.jump (c.frontInputs fromHost)).enable then []
    else g.waiting.drop ((c.step fromHost).backend.nextUid - c.backend.nextUid)
      ++ c.front.delivered (c.frontInputs fromHost)
  own := fun uid =>
    if c.backend.nextUid ≤ uid ∧ uid < (c.step fromHost).backend.nextUid then
      g.waiting[uid - c.backend.nextUid]?
    else g.own uid
  outcome := c.backend.resolve (c.inputs fromHost) g.outcome
  updates := g.updates ++
    if (c.backend.branchTrain (c.inputs fromHost)).valid then
      [c.backend.branchTrain (c.inputs fromHost)]
    else []
  trained := g.trained ++
    if c.front.bpu.tage.trainingValid then [c.front.bpu.tage.training] else []

end Log

/-- The states reached from reset, with the history of the backend and the
training log. -/
inductive Trained (b : Boot) : TopCpu → History → TrainingLog → Prop
  | boot : Trained b (boot b) {} {}
  | step {c : TopCpu} {h : History} {g : TrainingLog} (ht : Trained b c h g)
      (fromHost : Word) :
      Trained b (c.step fromHost) (c.backend.observe (c.inputs fromHost) h)
        (c.logTraining fromHost g)

/-- The log accounts for every instruction from its delivery on, and the
records that left and wait are those of the retired ones. -/
structure Accounts (c : TopCpu) (h : History) (g : TrainingLog) : Prop where
  traced : c.backend.Traced h
  queue : c.front.fetchQueue.Reachable
  waiting : g.waiting = c.front.fetchQueue.contents.map FetchPacket.slot
  recorded : c.backend.Recorded g.outcome
  live : ∀ tag ∈ c.backend.rob.window,
    (c.backend.rob.entries tag).Supplied g.own
  retired : ∀ r ∈ h.retired, r.entry.Supplied g.own ∧
    (r.entry.isBranch = true → r.entry.Resolved g.outcome)
  updates : g.updates = (h.retired.filter fun r => r.entry.isBranch).map
    fun r => r.entry.training
  ring : c.front.bpu.tage.updateQueue.Holds fun _ => True
  trained : g.trained ++ c.front.bpu.tage.updateQueue.contents =
    (g.updates.filter fun u => u.isConditional).map
      BranchPredictionUnit.Update.queued

variable {b : Boot} {c : TopCpu} {h : History} {g : TrainingLog}
  {fromHost : Word}

theorem Accounts.boot (b : Boot) : Accounts (boot b) {} {} where
  traced := Backend.Traced.reset
  queue := FetchQueue.Reachable.reset
  waiting := rfl
  recorded := Backend.Recorded.reset
  live := fun _ h => absurd h List.not_mem_nil
  retired := fun _ h => absurd h List.not_mem_nil
  updates := rfl
  ring := TageUpdateQueue.Holds.reset
  trained := rfl

section Delivery

theorem Accounts.step_waiting (ha : Accounts c h g) :
    (c.logTraining fromHost g).waiting =
      (c.step fromHost).front.fetchQueue.contents.map FetchPacket.slot := by
  have hqueue : (c.step fromHost).front.fetchQueue =
      c.front.fetchQueue.step (c.front.fetchPacket (c.frontInputs fromHost))
        (c.backend.dispatchAccept (c.inputs fromHost))
        (c.backend.jumpEnable (c.inputs fromHost)) := rfl
  change (if c.backend.jumpEnable (c.inputs fromHost) then [] else _) = _
  rw [hqueue]
  cases hjump : c.backend.jumpEnable (c.inputs fromHost) with
  | true => rfl
  | false =>
      have hquiet := hjump
      rw [Backend.jumpEnable_eq, Bool.or_eq_false_iff] at hquiet
      obtain ⟨rest, hcontents, hstep⟩ := Backend.accepted_leave ha.queue rfl
        hquiet.1 hquiet.2 (c.front.fetchPacket (c.frontInputs fromHost))
      have hcount : ((c.backend.acceptedLanes (c.inputs fromHost)).map
          c.front.fetchQueue.packet).length =
          (c.step fromHost).backend.nextUid - c.backend.nextUid := by
        rw [List.length_map]
        exact Backend.acceptedLanes_length
      rw [hjump] at hstep
      rw [hstep, if_neg Bool.false_ne_true, ha.waiting, hcontents,
        List.map_append, List.map_append, ← hcount, ← List.length_map,
        List.drop_left, FrontEnd.delivered_eq]
      rfl

theorem logTraining_own {uid : Nat} (huid : uid < c.backend.nextUid) :
    (c.logTraining fromHost g).own uid = g.own uid :=
  if_neg fun hnew => Nat.not_le_of_lt huid hnew.1

/-- An accepted lane takes its prediction along. -/
theorem Accounts.own_accepted (ha : Accounts c h g)
    (htrap : c.backend.trapValid (c.inputs fromHost) = false)
    (hrec : c.backend.recoveryValid (c.inputs fromHost) = false) {l : Lane}
    (hl : c.backend.robAllocValid (c.inputs fromHost) l = true) :
    (c.logTraining fromHost g).own
        (c.backend.laneUid (c.inputs fromHost) l) =
      some (c.front.decodePacket l).slot := by
  obtain ⟨rest, hcontents, -⟩ := Backend.accepted_leave ha.queue
    (i := c.inputs fromHost) rfl htrap hrec
    (c.front.fetchPacket (c.frontInputs fromHost))
  have hplace := Backend.acceptedLanes_get
    ((c.backend.robAllocValid_eq (c.inputs fromHost) l).symm.trans hl)
  have hlt := (List.getElem?_eq_some_iff.mp hplace).1
  refine (if_pos (Backend.laneUid_bounds hl)).trans ?_
  rw [ha.waiting, List.getElem?_map, hcontents,
    List.getElem?_append_left (by rwa [List.length_map]), List.getElem?_map,
    hplace]
  rfl

theorem Accounts.step_live (ha : Accounts c h g) {tag : RobTag}
    (hnew : tag ∈ (c.step fromHost).backend.rob.window) :
    ((c.step fromHost).backend.rob.entries tag).Supplied
      (c.logTraining fromHost g).own := by
  have hreach := ha.traced.reachable
  have hs : c.backend.RobReady (c.inputs fromHost) := hreach.inFlight.robReady
  have htrap := Backend.not_trap_of_live (i := c.inputs fromHost) hnew
  by_cases hold : tag ∈ c.backend.rob.window
  · have hframe := (hs.step_survivor hreach.countable htrap hold hnew).1
    refine RobEntry.Supplied.of_atDispatch ((ha.live tag hold).mono ?_) hframe
    exact logTraining_own (hreach.uidOrder.lt_next tag hold)
  · obtain ⟨hrec, l, hl, rfl⟩ := hs.step_new hreach.countable hold hnew
    have hentry := (hs.step_dispatched hreach.countable htrap hrec hl).2.2
    change (c.step fromHost).backend.rob.entries _ = _ at hentry
    rw [hentry]
    exact
      { own := ha.own_accepted htrap hrec hl
        branchCtr := rfl
        isBranch := rfl }

end Delivery

section Retirement

/-- What has retired is settled: its numbers are not used again. -/
theorem Accounts.step_retired (ha : Accounts c h g) {r : Retired}
    (hr : r ∈ (c.backend.observe (c.inputs fromHost) h).retired) :
    r.entry.Supplied (c.logTraining fromHost g).own ∧
      (r.entry.isBranch = true →
        r.entry.Resolved (c.logTraining fromHost g).outcome) := by
  have hreach := ha.traced.reachable
  obtain ⟨horder, hbound⟩ := ha.traced.programOrder
  rcases List.mem_append.mp hr with hold | hnow
  · obtain ⟨hsupplied, hresolved⟩ := ha.retired r hold
    have huid : r.entry.origin.uid ∈ h.uids :=
      List.mem_map.mpr ⟨r, hold, rfl⟩
    refine ⟨hsupplied.mono (logTraining_own
      (hbound _ (List.mem_append_left _ huid))), fun hbranch => ?_⟩
    refine (Backend.resolve_of_ne ?_).trans (hresolved hbranch)
    intro hres heq
    obtain ⟨hlive, -, horigin⟩ := hreach.inFlight.resolved_entry hres
    have hlt := (List.pairwise_append.mp horder).2.2 _ huid _
      (List.mem_map_of_mem hlive)
    rw [Backend.uidAt, horigin, heq] at hlt
    exact absurd hlt (Nat.lt_irrefl _)
  · change r ∈ c.backend.retiredNow (c.inputs fromHost) at hnow
    rw [Backend.retiredNow_eq] at hnow
    obtain ⟨tag, htag, rfl⟩ := List.mem_map.mp hnow
    have hlive := List.mem_of_mem_take htag
    obtain ⟨hdone, hclean⟩ := Backend.retired_complete htag
    refine ⟨(ha.live tag hlive).mono (logTraining_own
      (hreach.uidOrder.lt_next tag hlive)), fun hbranch => ?_⟩
    refine (Backend.resolve_of_ne ?_).trans
      (ha.recorded.completed tag hlive hbranch hdone hclean)
    intro hres heq
    obtain ⟨hlive', hopen, horigin⟩ := hreach.inFlight.resolved_entry hres
    have hsame := hreach.uidOrder.injective _ hlive' _ hlive
      ((congrArg Origin.uid horigin).trans heq)
    rw [hsame, hdone] at hopen
    cases hopen

theorem Accounts.step_updates (ha : Accounts c h g) :
    (c.logTraining fromHost g).updates =
      (((c.backend.observe (c.inputs fromHost) h).retired).filter
        fun r => r.entry.isBranch).map fun r => r.entry.training := by
  change g.updates ++ (if _ then _ else []) =
    ((h.retired ++ c.backend.retiredNow _).filter _).map _
  rw [List.filter_append, List.map_append, ← ha.updates,
    Backend.retiredNow_training]

/-- A record leaves the queue or waits in it. -/
theorem Accounts.step_trained (ha : Accounts c h g) :
    (c.logTraining fromHost g).trained ++
        (c.step fromHost).front.bpu.tage.updateQueue.contents =
      ((c.logTraining fromHost g).updates.filter
        fun u => u.isConditional).map BranchPredictionUnit.Update.queued := by
  have hstep := ha.ring.step_contents
    ((c.backend.branchTrain (c.inputs fromHost)).valid &&
      (c.backend.branchTrain (c.inputs fromHost)).isConditional)
    (c.backend.branchTrain (c.inputs fromHost)).queued
  have hnew : ((if (c.backend.branchTrain (c.inputs fromHost)).valid then
        [c.backend.branchTrain (c.inputs fromHost)] else []).filter
          fun u => u.isConditional).map BranchPredictionUnit.Update.queued =
      if (c.backend.branchTrain (c.inputs fromHost)).valid &&
          (c.backend.branchTrain (c.inputs fromHost)).isConditional then
        [(c.backend.branchTrain (c.inputs fromHost)).queued] else [] := by
    cases (c.backend.branchTrain (c.inputs fromHost)).valid with
    | false => rfl
    | true =>
        cases hcond : (c.backend.branchTrain
            (c.inputs fromHost)).isConditional <;> simp [hcond]
  change (g.trained ++ _) ++ (TageUpdateQueue.step _ _ _ _).contents =
    ((g.updates ++ _).filter _).map _
  rw [List.filter_append, List.map_append, hnew, ← ha.trained]
  refine (congrArg (_ ++ ·) hstep).trans ?_
  rw [← List.append_assoc, List.append_assoc g.trained]
  congr 2
  exact c.front.bpu.tage.updateQueue.contents_split.symm

end Retirement

theorem Accounts.step (ha : Accounts c h g) :
    Accounts (c.step fromHost) (c.backend.observe (c.inputs fromHost) h)
      (c.logTraining fromHost g) where
  traced := ha.traced.step _
  queue := ha.queue.step _ _ _
  waiting := ha.step_waiting
  recorded := ha.recorded.step ha.traced.reachable
  live := fun _ hnew => ha.step_live hnew
  retired := fun _ hr => ha.step_retired hr
  updates := ha.step_updates
  ring := ha.ring.step fun _ => trivial
  trained := ha.step_trained

theorem Trained.accounts (ht : Trained b c h g) : Accounts c h g := by
  induction ht with
  | boot => exact Accounts.boot b
  | step _ _ ih => exact ih.step

section Exactness

/-- A retired control transfer is due the record the port made of it. -/
theorem Accounts.record_eq (ha : Accounts c h g) {r : Retired}
    (hr : r ∈ h.retired) (hbranch : r.entry.isBranch = true) :
    g.record r = some r.entry.training := by
  obtain ⟨hsupplied, hresolved⟩ := ha.retired r hr
  rw [TrainingLog.record, hsupplied.own, hresolved hbranch,
    ← hsupplied.branchCtr]
  rfl

theorem Accounts.isControl_eq (ha : Accounts c h g) {r : Retired}
    (hr : r ∈ h.retired) : r.isControl = r.entry.isBranch :=
  (ha.retired r hr).1.isBranch.symm

theorem Accounts.isConditional_eq (ha : Accounts c h g) {r : Retired}
    (hr : r ∈ h.retired) :
    r.isConditional = (r.entry.training.isConditional && r.entry.isBranch) := by
  have hsupplied := (ha.retired r hr).1
  rw [hsupplied.isBranch, RobEntry.training, hsupplied.branchCtr,
    Retired.isConditional]
  cases (decoder r.entry.origin.insn).branchCtr <;> rfl

/-- In every run of the core the records on the training port are those of the
retired control transfers, and the records that the direction tables got, with
those that wait for them, are those of the retired conditional branches: in
program order, each with the address, the prediction and the outcome of its own
instruction.  A branch resolves once. -/
theorem Trained.training_exact (ht : Trained b c h g) :
    h.uids.Pairwise (· < ·) ∧
    (∀ r ∈ h.retired, ∃ p, g.own r.entry.origin.uid = some p ∧
      p.pc = r.entry.pc ∧ p.insn = r.entry.origin.insn) ∧
    g.updates.map some = (h.retired.filter Retired.isControl).map g.record ∧
    (g.trained ++ c.front.bpu.tage.updateQueue.contents).map some =
      (h.retired.filter Retired.isConditional).map
        (fun r => (g.record r).map BranchPredictionUnit.Update.queued) ∧
    ∀ fromHost, (c.backend.branch (c.inputs fromHost)).resolved = true →
      g.outcome (c.backend.branch (c.inputs fromHost)).origin.uid = none := by
  have ha := ht.accounts
  refine ⟨?_, ?_, ?_, ?_, ?_⟩
  · exact (List.pairwise_append.mp ha.traced.programOrder.1).1
  · intro r hr
    exact ⟨_, (ha.retired r hr).1.own, rfl, rfl⟩
  · rw [List.filter_congr fun r hr => ha.isControl_eq hr, ha.updates,
      List.map_map]
    apply List.map_congr_left
    intro r hr
    rw [List.mem_filter] at hr
    exact (ha.record_eq hr.1 hr.2).symm
  · rw [List.filter_congr fun r hr => ha.isConditional_eq hr, ha.trained,
      ha.updates, List.filter_map, List.filter_filter, List.map_map,
      List.map_map]
    apply List.map_congr_left
    intro r hr
    rw [List.mem_filter, Bool.and_eq_true] at hr
    rw [ha.record_eq hr.1 hr.2.2]
    rfl
  · intro fromHost hres
    obtain ⟨j, hvalid, -, -, horigin, -⟩ := c.backend.resolved_held _ hres
    rw [← horigin]
    exact ha.recorded.queued j hvalid

end Exactness

/-- The core with its training log some cycles after reset, the host silent. -/
def trainingRun (b : Boot) : Nat → TopCpu × History × TrainingLog
  | 0 => (boot b, {}, {})
  | n + 1 =>
      ((trainingRun b n).1.step 0,
        (trainingRun b n).1.backend.observe ((trainingRun b n).1.inputs 0)
          (trainingRun b n).2.1,
        (trainingRun b n).1.logTraining 0 (trainingRun b n).2.2)

theorem trained_trainingRun (b : Boot) (n : Nat) :
    Trained b (trainingRun b n).1 (trainingRun b n).2.1
      (trainingRun b n).2.2 := by
  induction n with
  | zero => exact Trained.boot
  | succ n ih => exact ih.step 0

/-- `beq x0, x0, 0` everywhere. -/
def spin : Boot := coldBoot fun _ => 0x00000063

/-- The first branch trains once; what was fetched behind it does not. -/
theorem training_exact_spin :
    (trainingRun spin 14).2.2.updates.map
        (fun u => (u.pc, u.target, u.taken)) = [(0, 0, true)] ∧
      (trainingRun spin 14).2.2.trained.map (fun u => (u.pc, u.taken)) =
        [(0, true)] ∧
      (trainingRun spin 14).2.2.updates.map some =
        ((trainingRun spin 14).2.1.retired.filter Retired.isControl).map
          (trainingRun spin 14).2.2.record := by
  have hlogs : (trainingRun spin 14).2.2.updates.map
        (fun u => (u.pc, u.target, u.taken)) = [(0, 0, true)] ∧
      (trainingRun spin 14).2.2.trained.map (fun u => (u.pc, u.taken)) =
        [(0, true)] := by
    decide +kernel
  exact ⟨hlogs.1, hlogs.2, (trained_trainingRun spin 14).training_exact.2.2.1⟩

end TopCpu

end OoOCore
