/-
`LoopPredictor.sv`: counted loops.  The table learns from retired branches
only; the iterations of branches in flight are kept in a log of actions that a
recovery cuts back.
-/
import OoOCore.Types

namespace OoOCore

/-- One learned loop. -/
structure LoopEntry where
  valid : Bool := false
  tag : BitVec 12 := 0
  trip : BitVec 10 := 0
  committedIter : BitVec 10 := 0
  confidence : BitVec 3 := 0
  age : BitVec 2 := 0
  direction : Bool := false
  generation : BitVec 4 := 0

/-- One speculative iteration. -/
structure LoopAction where
  valid : Bool := false
  index : BitVec 6 := 0
  tag : BitVec 12 := 0
  generation : BitVec 4 := 0
  nextIter : BitVec 10 := 0

/-- The registered lookup of a lane. -/
structure LoopResponse where
  index : BitVec 6 := 0
  requestedTag : BitVec 12 := 0
  entry : LoopEntry := {}

structure LoopPredictor where
  table : BitVec 6 → LoopEntry := fun _ => {}
  response : Lane → LoopResponse := fun _ => {}
  action : BitVec 5 → LoopAction := fun _ => {}
  actionTail : BitVec 5 := 0
  robCheckpoint : RobTag → LoopMeta := fun _ => {}

namespace LoopPredictor

/-- A retired conditional branch. -/
structure Update where
  valid : Bool
  pc : Word
  target : Word
  taken : Bool
  loopMeta : LoopMeta

/-- A mispredicted branch. -/
structure Recover where
  valid : Bool
  isConditional : Bool
  taken : Bool
  robTag : RobTag

/-- The branch checkpoint a dispatch lane allocates. -/
structure Checkpoint where
  valid : Bool
  tag : RobTag
  loopMeta : LoopMeta

/-- The inputs of one cycle. -/
structure Inputs where
  flush : Bool
  queryPc : Lane → Word
  response0Conditional : Bool
  speculateValid : Lane → Bool
  speculateTaken : Lane → Bool
  update : Update
  recover : Recover
  checkpointAlloc : Lane → Checkpoint

/-- `pcIndex`. -/
def pcIndex (pc : Word) : BitVec 6 := pc.extractLsb' 2 6

/-- `pcTag`. -/
def pcTag (pc : Word) : BitVec 12 :=
  (pc >>> 8).setWidth 12 ^^^ (pc >>> 20).setWidth 12

/-- `nextAction`. -/
def nextAction (value : BitVec 5) : BitVec 5 := value + 1

/-- `advanceIteration`. -/
def advanceIteration (current : BitVec 10) (outcome loopDirection : Bool) :
    BitVec 10 :=
  if outcome != loopDirection then 0
  else if current = BitVec.allOnes 10 then current
  else current + 1

section Query

variable (p : LoopPredictor)

/-- The log slot at a distance behind the tail. -/
def behind (offset : Nat) : BitVec 5 := p.actionTail - BitVec.ofNat 5 offset

/-- The log slot holds an iteration of the loop the lane looked up. -/
def actionMatches (lane : Lane) (slot : BitVec 5) : Bool :=
  (p.action slot).valid &&
    decide ((p.action slot).index = (p.response lane).index) &&
    decide ((p.action slot).tag = (p.response lane).entry.tag) &&
    decide ((p.action slot).generation = (p.response lane).entry.generation)

/-- `speculativeIter`: the youngest logged iteration, or the committed one. -/
def speculativeIter (lane : Lane) : BitVec 10 :=
  match ((List.range 32).map fun k => p.behind (k + 1)).find?
      (p.actionMatches lane) with
  | some slot => (p.action slot).nextIter
  | none => (p.response lane).entry.committedIter

/-- `responseHit`. -/
def responseHit (lane : Lane) : Bool :=
  (p.response lane).entry.valid &&
    decide ((p.response lane).entry.tag = (p.response lane).requestedTag)

variable (response0Conditional : Bool)

/-- `reserveAction0`. -/
def reserveAction0 : Bool :=
  response0Conditional && p.responseHit 0 && !(p.action p.actionTail).valid

/-- The log slot a lane would take: `actionTail` and `slot1Tail`. -/
def slotTail : Lane → BitVec 5
  | 0 => p.actionTail
  | 1 => if p.reserveAction0 response0Conditional then
      nextAction p.actionTail
    else p.actionTail

/-- `actionSlot0Free` and `actionSlot1Free`. -/
def slotFree (lane : Lane) : Bool :=
  !(p.action (p.slotTail response0Conditional lane)).valid

/-- `queryMeta_o` and `queryMeta1_o`. -/
def queryMeta (lane : Lane) : LoopMeta :=
  let e := (p.response lane).entry
  let hit := p.responseHit lane && p.slotFree response0Conditional lane
  let confident := hit && decide (e.confidence = BitVec.allOnes 3) &&
    decide (e.trip ≠ 0)
  { hit := hit
    confident := confident
    prediction := if e.trip ≤ p.speculativeIter lane then !e.direction
      else e.direction
    used := confident
    tableIndex := (p.response lane).index
    tag := e.tag
    generation := e.generation
    iterationBefore := p.speculativeIter lane
    tripCount := e.trip
    direction := e.direction
    checkpointTail := p.slotTail response0Conditional lane }

end Query

section Step

variable (p : LoopPredictor) (i : Inputs)

def updateIndex : BitVec 6 := pcIndex i.update.pc

def updateMatch : Bool :=
  (p.table (updateIndex i)).valid &&
    decide ((p.table (updateIndex i)).tag = pcTag i.update.pc)

/-- The entry of the retired branch after training. -/
def trainedEntry : LoopEntry :=
  let e := p.table (updateIndex i)
  if p.updateMatch i then
    if i.update.taken == e.direction then
      { e with committedIter :=
          advanceIteration e.committedIter i.update.taken e.direction }
    else if e.committedIter ≠ 0 ∧ e.trip = e.committedIter then
      { e with
        committedIter := 0
        confidence := if e.confidence ≠ BitVec.allOnes 3 then e.confidence + 1
          else e.confidence
        age := if e.age ≠ BitVec.allOnes 2 then e.age + 1 else e.age }
    else
      { e with
        committedIter := 0
        trip := e.committedIter
        confidence := 0
        age := if e.age ≠ 0 then e.age - 1 else e.age }
  else if i.update.taken && decide (i.update.target < i.update.pc) &&
      (!e.valid || decide (e.age = 0)) then
    { valid := true
      tag := pcTag i.update.pc
      trip := 0
      committedIter := 1
      confidence := 0
      age := 1
      direction := true
      generation := e.generation + 1 }
  else { e with age := if e.age ≠ 0 then e.age - 1 else e.age }

def nextTable : BitVec 6 → LoopEntry :=
  if i.update.valid then
    Function.update p.table (updateIndex i) (p.trainedEntry i)
  else p.table

/-- A lane logs an iteration. -/
def allocateAction (lane : Lane) : Bool :=
  i.speculateValid lane && p.responseHit lane &&
    p.slotFree i.response0Conditional lane

/-- The iteration a lane logs. -/
def loggedAction (lane : Lane) : LoopAction where
  valid := true
  index := (p.response lane).index
  tag := (p.response lane).entry.tag
  generation := (p.response lane).entry.generation
  nextIter := advanceIteration (p.speculativeIter lane)
    (i.speculateTaken lane) (p.response lane).entry.direction

/-- The log without the iteration of a retired branch. -/
def retiredAction : BitVec 5 → LoopAction :=
  if i.update.valid && i.update.loopMeta.hit then
    let slot := i.update.loopMeta.checkpointTail
    Function.update p.action slot { p.action slot with valid := false }
  else p.action

/-- `recoveryMeta`. -/
def recoveryMeta : LoopMeta := p.robCheckpoint i.recover.robTag

/-- The recovering branch still belongs to the loop it was predicted by. -/
def recoversAction : Bool :=
  let m := p.recoveryMeta i
  i.recover.isConditional && m.hit && (p.table m.tableIndex).valid &&
    decide ((p.table m.tableIndex).tag = m.tag) &&
    decide ((p.table m.tableIndex).generation = m.generation)

/-- The log cut back to the checkpoint, with the resolved iteration. -/
def recoveredAction : BitVec 5 → LoopAction :=
  let m := p.recoveryMeta i
  let cut (slot : BitVec 5) : LoopAction :=
    if slot - m.checkpointTail < p.actionTail - m.checkpointTail then
      { p.retiredAction i slot with valid := false }
    else p.retiredAction i slot
  if p.recoversAction i then
    Function.update cut m.checkpointTail
      { valid := true
        index := m.tableIndex
        tag := m.tag
        generation := m.generation
        nextIter := advanceIteration m.iterationBefore i.recover.taken
          (p.table m.tableIndex).direction }
  else cut

/-- The log with the iterations of the consumed response. -/
def speculatedAction : BitVec 5 → LoopAction :=
  let first := if p.allocateAction i 0 then
      Function.update (p.retiredAction i)
        (p.slotTail i.response0Conditional 0) (p.loggedAction i 0)
    else p.retiredAction i
  if p.allocateAction i 1 then
    Function.update first (p.slotTail i.response0Conditional 1)
      (p.loggedAction i 1)
  else first

/-- The clock edge. -/
def step : LoopPredictor where
  table := p.nextTable i
  response := fun lane =>
    { index := pcIndex (i.queryPc lane)
      requestedTag := pcTag (i.queryPc lane)
      entry := p.table (pcIndex (i.queryPc lane)) }
  action := if i.flush then
      fun slot => { p.retiredAction i slot with valid := false }
    else if i.recover.valid then p.recoveredAction i
    else p.speculatedAction i
  actionTail := if i.flush then 0
    else if i.recover.valid then
      if p.recoversAction i then nextAction (p.recoveryMeta i).checkpointTail
      else (p.recoveryMeta i).checkpointTail
    else if p.allocateAction i 1 then
      nextAction (p.slotTail i.response0Conditional 1)
    else if p.allocateAction i 0 then nextAction p.actionTail
    else p.actionTail
  robCheckpoint := if i.flush || i.recover.valid then p.robCheckpoint
    else fun tag =>
      if (i.checkpointAlloc 1).valid && decide ((i.checkpointAlloc 1).tag = tag)
      then (i.checkpointAlloc 1).loopMeta
      else if (i.checkpointAlloc 0).valid &&
          decide ((i.checkpointAlloc 0).tag = tag)
      then (i.checkpointAlloc 0).loopMeta
      else p.robCheckpoint tag

end Step

end LoopPredictor

end OoOCore
