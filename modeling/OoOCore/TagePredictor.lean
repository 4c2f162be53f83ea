/-
`TagePredictor.sv`: the speculative and committed histories with the branch
checkpoints, the folded registers, the eight tagged tables, and the training of
the tables by retired branches.
-/
import OoOCore.LoopPredictor
import OoOCore.StatisticalCorrector

namespace OoOCore

/-- The direction history, the path history and the IMLI counter, which always
move together. -/
structure Histories where
  history : TageHistory := 0
  path : PathHistory := 0
  imli : ScImli := 0
deriving DecidableEq, Repr

/-- `advancePathHistory`. -/
def advancePathHistory (history : PathHistory) (branchPc : Word)
    (pathTaken : Bool) : PathHistory :=
  history.shiftConcat (branchPc.getLsbD 2 ^^ branchPc.getLsbD 5 ^^
    branchPc.getLsbD 9 ^^ branchPc.getLsbD 13 ^^ pathTaken)

/-- `advanceImli`. -/
def advanceImli (current : ScImli) (backward taken : Bool) : ScImli :=
  if !backward then current
  else if !taken then 0
  else if current = BitVec.allOnes 10 then current
  else current + 1

/-- A control-flow instruction as it enters the histories.  Only conditional
branches enter the direction history and the IMLI counter. -/
structure HistoryEvent where
  control : Bool := false
  conditional : Bool := false
  pc : Word := 0
  taken : Bool := false
  backward : Bool := false
deriving DecidableEq, Repr

/-- The histories after an event. -/
def Histories.push (h : Histories) (e : HistoryEvent) : Histories where
  history := if e.conditional then pushHistory h.history e.taken
    else h.history
  path := if e.control then advancePathHistory h.path e.pc e.taken else h.path
  imli := if e.conditional then advanceImli h.imli e.backward e.taken
    else h.imli

/-- What the synchronous tables were last asked for in a lane. -/
structure TageRequest where
  pc : Word
  histories : Histories := {}

structure TagePredictor where
  globalHistories : Histories := {}
  committedHistories : Histories := {}
  robCheckpoint : RobTag → Histories := fun _ => {}
  prediction : Lane → TageRequest
  useAlternateOnNew : BitVec 3 → BitVec 4 := fun _ => 0b0111
  allocationPressure : BitVec 2 → BitVec 2 := fun _ => 0
  allocationLfsr : BitVec 8 := 0x20
  ageCommitCounter : BitVec 8 := 0
  ageRow : BitVec 9 := 0
  updateQueue : TageUpdateQueue := {}
  indexFold : TageTableId → BitVec 9 := fun _ => 0
  tagFoldA : (t : TageTableId) → BitVec (tageTagWidth t) := fun _ => 0
  tagFoldB : (t : TageTableId) → BitVec (tageTagWidth t - 1) := fun _ => 0
  scFold : Fin 6 → BitVec 8 := fun _ => 0
  tables : (t : TageTableId) → TageTable (tageTagWidth t)
  loop : LoopPredictor := {}
  corrector : StatisticalCorrector := {}

namespace TagePredictor

/-- What a slot of the consumed response adds to the histories. -/
structure Speculate where
  valid : Bool
  taken : Bool
  backward : Bool
  controlValid : Bool

/-- A retired control-flow instruction. -/
structure Update where
  valid : Bool
  isConditional : Bool
  pc : Word
  target : Word
  taken : Bool
  tageMeta : TageMeta

/-- A mispredicted control-flow instruction. -/
structure Recover where
  valid : Bool
  pc : Word
  isConditional : Bool
  taken : Bool
  target : Word
  robTag : RobTag

/-- The branch checkpoint a dispatch lane allocates. -/
structure Checkpoint where
  valid : Bool
  tag : RobTag
  histories : Histories
  loopMeta : LoopMeta

/-- The inputs of one cycle. -/
structure Inputs where
  flush : Bool
  queryPc : Lane → Word
  fallbackPrediction : Lane → Bool
  response0Conditional : Bool
  query0Conditional : Bool
  query0Control : Bool
  query0Backward : Bool
  speculate : Lane → Speculate
  update : Update
  recover : Recover
  checkpointAlloc : Lane → Checkpoint

/-- The event of a slot of the consumed response, which was looked up at
`predictionPc`. -/
def Speculate.event (s : Speculate) (predictionPc : Word) : HistoryEvent where
  control := s.controlValid
  conditional := s.valid
  pc := predictionPc
  taken := s.taken
  backward := s.backward

/-- The event of a retired instruction. -/
def Update.event (u : Update) : HistoryEvent where
  control := true
  conditional := u.isConditional
  pc := u.pc
  taken := u.taken
  backward := decide (u.target < u.pc)

/-- The event of a mispredicted instruction. -/
def Recover.event (r : Recover) : HistoryEvent where
  control := true
  conditional := r.isConditional
  pc := r.pc
  taken := r.taken
  backward := decide (r.target < r.pc)

/-- Reset.  The tags of the tables keep what they held. -/
def reset (tables : (t : TageTableId) → TageTable (tageTagWidth t)) :
    TagePredictor where
  prediction := fun lane =>
    { pc := if lane = 0 then resetVector else resetVector + 4 }
  tables := tables

section Histories

variable (p : TagePredictor) (i : Inputs)

/-- `updateAccepted`. -/
def updateAccepted : Bool := i.update.valid && p.updateQueue.enqReady true

/-- `speculative*Next`: slot 0, then slot 1. -/
def speculativeNext : Histories :=
  (p.globalHistories.push
    ((i.speculate 0).event (p.prediction 0).pc)).push
    ((i.speculate 1).event (p.prediction 1).pc)

/-- `committed*Next`. -/
def committedNext : Histories :=
  if p.updateAccepted i then p.committedHistories.push i.update.event
  else p.committedHistories

/-- `restoreHistoryValid`. -/
def restoreValid : Bool := i.flush || i.recover.valid

/-- `restore*`: the committed histories on a flush, the checkpoint and the
resolved branch on a recovery. -/
def restored : Histories :=
  if !i.flush && i.recover.valid then
    (p.robCheckpoint i.recover.robTag).push i.recover.event
  else p.committedNext i

/-- `request*`: what the histories will be after this edge. -/
def requestHistories : Histories :=
  if restoreValid i then p.restored i else p.speculativeNext i

/-- The event the BTB suggests for slot 0 of the request, which slot 1 sees as
not taken. -/
def queryEvent : HistoryEvent where
  control := i.query0Control
  conditional := i.query0Conditional
  pc := i.queryPc 0
  taken := false
  backward := i.query0Backward

/-- `query*1`. -/
def queryHistories1 : Histories := (p.requestHistories i).push (queryEvent i)

/-- The request the synchronous tables sample for a lane. -/
def request : Lane → TageRequest
  | 0 => ⟨i.queryPc 0, p.requestHistories i⟩
  | 1 => ⟨i.queryPc 1, p.queryHistories1 i⟩

/-- The inputs of every folded register. -/
def foldInputs : TageFoldedHistory.Inputs where
  globalHistory := p.globalHistories.history
  query0Conditional := i.query0Conditional
  speculate :=
    { valid := (i.speculate 0).valid
      taken := (i.speculate 0).taken
      valid1 := (i.speculate 1).valid
      taken1 := (i.speculate 1).taken }
  restoreValid := restoreValid i
  restoreHistory := (p.restored i).history

/-- `queryFold_o` and `queryFold1_o` of a register. -/
def queryFold (length : Nat) {width : Nat} (foldedHistory : BitVec width) :
    Lane → BitVec width
  | 0 => TageFoldedHistory.queryFold length foldedHistory (p.foldInputs i)
  | 1 => TageFoldedHistory.queryFold1 length foldedHistory (p.foldInputs i)

/-- `queryIndex` and `queryIndex1` of a table. -/
def queryIndex (t : TageTableId) (lane : Lane) : BitVec 9 :=
  TageHash.makeIndex t (i.queryPc lane)
    (p.queryFold i (tageHistoryLength t) (p.indexFold t) lane)
    (p.request i lane).histories.path

/-- `queryTag` and `queryTag1` of a table. -/
def queryTag (t : TageTableId) (lane : Lane) : BitVec (tageTagWidth t) :=
  TageHash.makeTag t (i.queryPc lane)
    (p.queryFold i (tageHistoryLength t) (p.tagFoldA t) lane)
    (p.queryFold i (tageHistoryLength t) (p.tagFoldB t) lane)
    (p.request i lane).histories.path

/-- The checkpoints after the edge.  A redirect drops the dispatch of its
cycle. -/
def nextRobCheckpoint : RobTag → Histories :=
  if i.flush || i.recover.valid then p.robCheckpoint
  else fun tag =>
    if (i.checkpointAlloc 1).valid && decide ((i.checkpointAlloc 1).tag = tag)
    then (i.checkpointAlloc 1).histories
    else if (i.checkpointAlloc 0).valid &&
        decide ((i.checkpointAlloc 0).tag = tag)
    then (i.checkpointAlloc 0).histories
    else p.robCheckpoint tag

end Histories

section Response

variable (p : TagePredictor) (fallbackPrediction : Lane → Bool)
  (response0Conditional : Bool)

/-- `providerHistoryGroup`. -/
def providerHistoryGroup (provider : TageTableId) : BitVec 2 :=
  if provider ≤ 1 then 0
  else if provider ≤ 3 then 1
  else if provider ≤ 5 then 2
  else 3

/-- `alternateGroup`. -/
def alternateGroup (pc : Word) (provider : TageTableId) : BitVec 3 :=
  providerHistoryGroup provider ++
    BitVec.ofBool (pc.getLsbD 4 ^^ pc.getLsbD 8)

/-- The tables that hit in a lane, from the longest history on. -/
def hits (lane : Lane) : List TageTableId :=
  (List.finRange 8).reverse.filter fun t => (p.tables t).queryHit lane

/-- The prediction of the table behind the provider, or the fallback. -/
def alternatePrediction (lane : Lane) : Bool :=
  match p.hits lane with
  | _ :: t :: _ => (p.tables t).queryPrediction lane
  | _ => fallbackPrediction lane

/-- A provider entry that has not proved itself. -/
def weakEntry (e : TageEntry) : Bool :=
  decide (e.useful = 0) && (decide (e.counter = 0b011) ||
    decide (e.counter = 0b100))

/-- `tageBaseMeta`: the longest hit provides, unless it is weak and new
entries have done worse than their alternates. -/
def tageBaseMeta (lane : Lane) : TageMeta :=
  let start : TageMeta :=
    { history := (p.prediction lane).histories.history
      pathHistory := (p.prediction lane).histories.path
      scImli := (p.prediction lane).histories.imli
      alternatePrediction := p.alternatePrediction fallbackPrediction lane
      tagePrediction := fallbackPrediction lane
      preScPrediction := fallbackPrediction lane
      finalPrediction := fallbackPrediction lane }
  match p.hits lane with
  | [] => start
  | t :: _ =>
      let e := ((p.tables t).read lane).entry
      let prediction := (p.tables t).queryPrediction lane
      let direction := if weakEntry e &&
          (p.useAlternateOnNew (alternateGroup (p.prediction lane).pc t)).msb
        then start.alternatePrediction else prediction
      { start with
        providerValid := true
        provider := BitVec.ofNat 3 t.val
        providerGeneration := e.generation
        providerPrediction := prediction
        providerWeak := weakEntry e
        tagePrediction := direction
        preScPrediction := direction
        finalPrediction := direction }

/-- `loopMeta`. -/
def loopMeta (lane : Lane) : LoopMeta :=
  p.loop.queryMeta response0Conditional lane

/-- `loopSelectedPrediction` with the strength the corrector is told. -/
def base (lane : Lane) : StatisticalCorrector.Base :=
  let m := p.tageBaseMeta fallbackPrediction lane
  let l := p.loopMeta response0Conditional lane
  { prediction := if l.confident then l.prediction else m.tagePrediction
    strong := l.confident || (m.providerValid && !m.providerWeak) }

/-- Five flags as a word. -/
def flags5 (f : Fin 5 → Bool) : BitVec 5 :=
  BitVec.ofBool (f 4) ++ BitVec.ofBool (f 3) ++ BitVec.ofBool (f 2) ++
    BitVec.ofBool (f 1) ++ BitVec.ofBool (f 0)

/-- `queryMeta_o` and `queryMeta1_o`. -/
def queryMeta (lane : Lane) : TageMeta :=
  let b := p.base fallbackPrediction response0Conditional lane
  let c := p.corrector
  { p.tageBaseMeta fallbackPrediction lane with
    loop := p.loopMeta response0Conditional lane
    preScPrediction := b.prediction
    finalPrediction := if c.responseValid then c.predictTaken lane b
      else b.prediction
    scLocalHistory := c.localHistory lane
    scScore := c.score lane b
    scFamilyTaken := flags5 (c.familyTaken lane)
    scFamilyValid := flags5 (c.familyValid lane)
    scLowConfidence := c.responseValid && c.lowConfidence lane b }

end Response

section Training

variable (p : TagePredictor)

def trainingValid : Bool := p.updateQueue.deqValid

/-- The retired branch at the head of the queue. -/
def training : TageUpdate := p.updateQueue.deqData

/-- `trainingMeta.provider`. -/
def trainingProvider : TageTableId :=
  Fin.ofNat 8 p.training.tageMeta.provider.toNat

/-- The training record is a conditional branch. -/
def trainsConditional : Bool := p.trainingValid && p.training.isConditional

def ageValid : Bool :=
  p.trainsConditional && decide (p.ageCommitCounter = 0xff)

def directionMispredict : Bool :=
  p.trainsConditional && p.training.tageMeta.tagePrediction != p.training.taken

def trainingIndex (t : TageTableId) : BitVec 9 :=
  TageHash.updateIndex t p.training.pc p.training.tageMeta.history
    p.training.tageMeta.pathHistory

def trainingTag (t : TageTableId) : BitVec (tageTagWidth t) :=
  TageHash.updateTag t p.training.pc p.training.tageMeta.history
    p.training.tageMeta.pathHistory

def providerUpdate (t : TageTableId) : Bool :=
  p.trainsConditional && p.training.tageMeta.providerValid &&
    decide (t = p.trainingProvider)

def providerUsefulIncrement (t : TageTableId) : Bool :=
  let m := p.training.tageMeta
  p.providerUpdate t && m.providerPrediction != m.alternatePrediction &&
    m.providerPrediction == p.training.taken

def providerUsefulDecrement (t : TageTableId) : Bool :=
  let m := p.training.tageMeta
  p.providerUpdate t && m.providerPrediction != m.alternatePrediction &&
    m.providerPrediction != p.training.taken

def allocationRequest : Bool :=
  let m := p.training.tageMeta
  p.directionMispredict &&
    (!m.providerValid || m.providerPrediction != p.training.taken)

/-- Only tables with a longer history than the provider's are allocated. -/
def eligibleAllocation (t : TageTableId) : Bool :=
  p.allocationRequest && (!p.training.tageMeta.providerValid ||
    decide (p.trainingProvider < t))

def freeAllocation (t : TageTableId) : Bool :=
  p.eligibleAllocation t &&
    (p.tables t).updateReplaceable (p.trainingIndex t)

def protectedAllocation (t : TageTableId) : Bool :=
  p.eligibleAllocation t &&
    !(p.tables t).updateReplaceable (p.trainingIndex t)

/-- `pickAllocation`: the first candidate from a start index on, cyclically. -/
def pickAllocation (candidateMask : TageTableId → Bool)
    (startIndex : BitVec 3) : TageTableId → Bool :=
  let pick := ((List.finRange 8).map fun offset =>
    Fin.ofNat 8 startIndex.toNat + offset).find? candidateMask
  fun t => decide (pick = some t)

def firstAllocation : TageTableId → Bool :=
  pickAllocation p.freeAllocation (p.allocationLfsr.extractLsb' 0 3)

def remainingFreeAllocation (t : TageTableId) : Bool :=
  p.freeAllocation t && !p.firstAllocation t

def anyTable (mask : TageTableId → Bool) : Bool := (List.finRange 8).any mask

/-- One attempt in four allocates a second table. -/
def secondAllocation (t : TageTableId) : Bool :=
  decide (p.allocationLfsr.extractLsb' 3 2 = 0) &&
    anyTable p.remainingFreeAllocation &&
    pickAllocation p.remainingFreeAllocation
      (p.allocationLfsr.extractLsb' 5 3) t

def tableAllocate (t : TageTableId) : Bool :=
  p.firstAllocation t || p.secondAllocation t

def protectedUseful (t : TageTableId) : BitVec 2 :=
  (p.tables t).updateUseful (p.trainingIndex t)

/-- The least useful value among the protected candidates, at most three. -/
def minimumProtectedUseful : BitVec 2 :=
  (List.finRange 8).foldl (fun least t =>
    if p.protectedAllocation t && decide (p.protectedUseful t < least) then
      p.protectedUseful t
    else least) 0b11

def minimumUsefulAllocation (t : TageTableId) : Bool :=
  p.protectedAllocation t &&
    decide (p.protectedUseful t = p.minimumProtectedUseful)

def updateHistoryGroup : BitVec 2 :=
  if p.training.tageMeta.providerValid then
    providerHistoryGroup p.trainingProvider
  else 0

def allocationAttempt : Bool :=
  p.allocationRequest && anyTable p.eligibleAllocation

def allocationSucceeded : Bool := anyTable p.tableAllocate

def noFreeAllocation : Bool :=
  p.allocationAttempt && !anyTable p.freeAllocation

def replacementUsefulDecrement (t : TageTableId) : Bool :=
  p.noFreeAllocation &&
    decide (p.allocationPressure p.updateHistoryGroup = 0b11) &&
    pickAllocation p.minimumUsefulAllocation
      (p.allocationLfsr.extractLsb' 5 3) t

/-- The counters that decide between a weak provider and its alternate. -/
def nextUseAlternateOnNew : BitVec 3 → BitVec 4 :=
  let m := p.training.tageMeta
  let group := alternateGroup p.training.pc p.trainingProvider
  let counter := p.useAlternateOnNew group
  if p.trainsConditional && m.providerValid && m.providerWeak &&
      m.providerPrediction != m.alternatePrediction then
    if m.alternatePrediction == p.training.taken &&
        decide (counter ≠ 0xf) then
      Function.update p.useAlternateOnNew group (counter + 1)
    else if m.providerPrediction == p.training.taken &&
        decide (counter ≠ 0x0) then
      Function.update p.useAlternateOnNew group (counter - 1)
    else p.useAlternateOnNew
  else p.useAlternateOnNew

def nextAllocationPressure : BitVec 2 → BitVec 2 :=
  let group := p.updateHistoryGroup
  let pressure := p.allocationPressure group
  if p.allocationAttempt && p.allocationSucceeded then
    Function.update p.allocationPressure group 0
  else if p.allocationAttempt && p.noFreeAllocation then
    Function.update p.allocationPressure group
      (if pressure = 0b11 then 0 else pressure + 1)
  else p.allocationPressure

def nextAllocationLfsr : BitVec 8 :=
  let l := p.allocationLfsr
  if p.allocationAttempt then
    l.shiftConcat (l.getLsbD 7 ^^ l.getLsbD 5 ^^ l.getLsbD 4 ^^ l.getLsbD 3)
  else l

/-- The record the corrector is trained with. -/
def correctorUpdate : StatisticalCorrector.Update :=
  let m := p.training.tageMeta
  { valid := p.trainsConditional
    pc := p.training.pc
    history := m.history
    path := m.pathHistory
    localHistory := m.scLocalHistory
    imli := m.scImli
    taken := p.training.taken
    base :=
      { prediction := m.preScPrediction
        strong := m.loop.confident || (m.providerValid && !m.providerWeak) }
    finalPrediction := m.finalPrediction
    score := m.scScore
    lowConfidence := m.scLowConfidence }

end Training

section Step

variable (p : TagePredictor) (i : Inputs)

def tableInputs (t : TageTableId) : TageTable.Inputs (tageTagWidth t) where
  queryIndex := p.queryIndex i t
  queryTag := p.queryTag i t
  updateIndex := p.trainingIndex t
  updateTag := p.trainingTag t
  updateGeneration := p.training.tageMeta.providerGeneration
  providerUpdateValid := p.providerUpdate t
  updateTaken := p.training.taken
  providerUsefulIncrement := p.providerUsefulIncrement t
  providerUsefulDecrement := p.providerUsefulDecrement t
  allocateValid := p.tableAllocate t
  replacementUsefulDecrement := p.replacementUsefulDecrement t
  ageValid := p.ageValid
  ageIndex := p.ageRow

def loopInputs : LoopPredictor.Inputs where
  flush := i.flush
  queryPc := i.queryPc
  response0Conditional := i.response0Conditional
  speculateValid := fun lane => (i.speculate lane).valid
  speculateTaken := fun lane => (i.speculate lane).taken
  update :=
    { valid := p.updateAccepted i && i.update.isConditional
      pc := i.update.pc
      target := i.update.target
      taken := i.update.taken
      loopMeta := i.update.tageMeta.loop }
  recover :=
    { valid := i.recover.valid
      isConditional := i.recover.isConditional
      taken := i.recover.taken
      robTag := i.recover.robTag }
  checkpointAlloc := fun lane =>
    { valid := (i.checkpointAlloc lane).valid
      tag := (i.checkpointAlloc lane).tag
      loopMeta := (i.checkpointAlloc lane).loopMeta }

/-- The corrector reads for the request and is told the base of the
response. -/
def correctorInputs : StatisticalCorrector.Inputs where
  queryValid := true
  query := fun lane =>
    { pc := i.queryPc lane
      globalFold := fun t => p.queryFold i
        (StatisticalCorrector.historyLength t) (p.scFold t) lane
      path := (p.request i lane).histories.path
      imli := (p.request i lane).histories.imli }
  base := p.base i.fallbackPrediction i.response0Conditional
  update := p.correctorUpdate

/-- The clock edge. -/
def step : TagePredictor where
  globalHistories := p.requestHistories i
  committedHistories := p.committedNext i
  robCheckpoint := p.nextRobCheckpoint i
  prediction := p.request i
  useAlternateOnNew := p.nextUseAlternateOnNew
  allocationPressure := p.nextAllocationPressure
  allocationLfsr := p.nextAllocationLfsr
  ageCommitCounter := if p.trainsConditional then p.ageCommitCounter + 1
    else p.ageCommitCounter
  ageRow := if p.ageValid then p.ageRow + 1 else p.ageRow
  updateQueue := p.updateQueue.step true
    (i.update.valid && i.update.isConditional)
    { isConditional := i.update.isConditional
      pc := i.update.pc
      taken := i.update.taken
      tageMeta := i.update.tageMeta }
  indexFold := fun t => TageFoldedHistory.requestBaseFold
    (tageHistoryLength t) (p.indexFold t) (p.foldInputs i)
  tagFoldA := fun t => TageFoldedHistory.requestBaseFold
    (tageHistoryLength t) (p.tagFoldA t) (p.foldInputs i)
  tagFoldB := fun t => TageFoldedHistory.requestBaseFold
    (tageHistoryLength t) (p.tagFoldB t) (p.foldInputs i)
  scFold := fun t => TageFoldedHistory.requestBaseFold
    (StatisticalCorrector.historyLength t) (p.scFold t) (p.foldInputs i)
  tables := fun t => (p.tables t).step (p.tableInputs i t)
  loop := p.loop.step (p.loopInputs i)
  corrector := p.corrector.step (p.correctorInputs i)

end Step

end TagePredictor

end OoOCore
