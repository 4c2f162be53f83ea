/-
`BranchPredictionUnit.sv`: the request context of the predictor and the
prediction it makes for the two instructions of a fetch response.
-/
import OoOCore.BranchTables
import OoOCore.TagePredictor

namespace OoOCore

structure BranchPredictionUnit where
  requestContextValid : Bool := false
  /-- `responsePc_o` and `responsePc1_o`. -/
  responsePc : Lane → Word
  btb : BranchTargetBuffer := {}
  bimodal : BimodalPredictor := {}
  tage : TagePredictor
  ras : ReturnAddressStack := {}

namespace BranchPredictionUnit

/-- A retired control-flow instruction. -/
structure Update extends TagePredictor.Update where
  predictorIndex : BitVec 10

/-- A resolved control-flow instruction. -/
structure Resolve where
  valid : Bool
  pc : Word
  isConditional : Bool
  taken : Bool
  target : Word
  mispredicted : Bool
  isCall : Bool
  isReturn : Bool
  robTag : RobTag

/-- The inputs of one cycle. -/
structure Inputs where
  flush : Bool
  cancel : Bool
  queryValid : Bool
  queryPc : Lane → Word
  instructionValid : Bool
  queryInsn : Lane → Word
  queryAdvance : Lane → Bool
  update : Update
  resolve : Resolve
  checkpointAlloc : Lane → TagePredictor.Checkpoint

/-- Reset.  The tags of the tagged tables keep what they held. -/
def reset (tables : (t : TageTableId) → TageTable (tageTagWidth t)) :
    BranchPredictionUnit where
  responsePc := fun lane =>
    if lane = 0 then resetVector else resetVector + 4
  tage := TagePredictor.reset tables

section Instructions

/-- `insn[6:0]`. -/
def opcode (insn : Word) : BitVec 7 := insn.setWidth 7

/-- `OPCODE_BRANCH`. -/
def isConditional (insn : Word) : Bool := decide (opcode insn = 0b1100011)

/-- `OPCODE_JAL`. -/
def isJal (insn : Word) : Bool := decide (opcode insn = 0b1101111)

/-- `OPCODE_JALR`. -/
def isJalr (insn : Word) : Bool := decide (opcode insn = 0b1100111)

def isUnconditional (insn : Word) : Bool := isJal insn || isJalr insn

/-- `x1` and `x5` are link registers. -/
def isLink (reg : BitVec 5) : Bool := decide (reg = 1) || decide (reg = 5)

def isCall (insn : Word) : Bool :=
  isUnconditional insn && isLink (insn.extractLsb' 7 5)

def isReturn (insn : Word) : Bool :=
  isJalr insn && decide (insn.extractLsb' 7 5 = 0) &&
    isLink (insn.extractLsb' 15 5)

/-- `directJalTarget`. -/
def directJalTarget (pc insn : Word) : Word :=
  pc + (insn.extractLsb' 31 1 ++ insn.extractLsb' 12 8 ++
    insn.extractLsb' 20 1 ++ insn.extractLsb' 21 10 ++ 0#1).signExtend 32

end Instructions

section Wires

variable (u : BranchPredictionUnit) (i : Inputs)

/-- `tageQueryPc`: the synchronous tables look up the new request, or the held
one again. -/
def tageQueryPc (lane : Lane) : Word :=
  if i.queryValid then i.queryPc lane else u.responsePc lane

/-- `queryReady_o`. -/
def queryReady : Bool :=
  !u.requestContextValid || i.queryAdvance 0 || i.cancel

/-- `predictionValid_o`. -/
def predictionValid : Bool := u.requestContextValid && i.instructionValid

/-- `responseInsn_o` and `responseInsn1_o`. -/
def responseInsn (lane : Lane) : Word :=
  if u.predictionValid i then i.queryInsn lane else 0

/-- The type hint of the BTB for slot 0 of the request. -/
def requestIsConditional : Bool := u.btb.hintConditional (u.tageQueryPc i 0)

def requestIsUnconditional : Bool :=
  u.btb.hintControl (u.tageQueryPc i 0) && !u.requestIsConditional i

def queryIsConditional (lane : Lane) : Bool :=
  isConditional (u.responseInsn i lane)

def queryIsUnconditional (lane : Lane) : Bool :=
  isUnconditional (u.responseInsn i lane)

def queryIsCall (lane : Lane) : Bool := isCall (u.responseInsn i lane)

def queryIsReturn (lane : Lane) : Bool := isReturn (u.responseInsn i lane)

/-- `btbHit`. -/
def btbHit (lane : Lane) : Bool := u.btb.hit (u.responsePc lane)

def btbTarget (lane : Lane) : Word := u.btb.target (u.responsePc lane)

/-- `baseTaken`. -/
def baseTaken (lane : Lane) : Bool := u.bimodal.predictTaken (u.responsePc lane)

/-- `tageMeta_o` and `tageMeta1_o`. -/
def tageMeta (lane : Lane) : TageMeta :=
  u.tage.queryMeta u.baseTaken (u.queryIsConditional i 0) lane

def selectedDirection (lane : Lane) : Bool :=
  (u.tageMeta i lane).finalPrediction

/-- What a slot does to the return address stack. -/
def rasEvent (lane : Lane) : ReturnAddressStack.Event where
  valid := i.queryAdvance lane
  call := u.queryIsCall i lane
  ret := u.queryIsReturn i lane
  returnAddress := u.responsePc lane + 4

/-- `rasValid` and `rasValid1`. -/
def rasValid : Lane → Bool
  | 0 => u.ras.valid
  | 1 => u.ras.valid1 (u.rasEvent i 0)

/-- `rasTarget` and `rasTarget1`. -/
def rasTarget : Lane → Word
  | 0 => u.ras.target
  | 1 => u.ras.target1 (u.rasEvent i 0)

/-- `rasUsed_o`. -/
def rasUsed (lane : Lane) : Bool := u.queryIsReturn i lane && u.rasValid i lane

/-- `predictTaken_o` and `predictTaken1_o`. -/
def predictTaken (lane : Lane) : Bool :=
  u.predictionValid i && (isJal (u.responseInsn i lane) || u.rasUsed i lane ||
    (u.btbHit lane && (u.queryIsUnconditional i lane ||
      (u.queryIsConditional i lane && u.selectedDirection i lane))))

/-- `predictTarget_o` and `predictTarget1_o`. -/
def predictTarget (lane : Lane) : Word :=
  if isJal (u.responseInsn i lane) then
    directJalTarget (u.responsePc lane) (u.responseInsn i lane)
  else if u.rasUsed i lane then u.rasTarget i lane
  else u.btbTarget lane

/-- `predictorIndex_o`. -/
def predictorIndex (lane : Lane) : BitVec 10 :=
  BimodalPredictor.queryIndex (u.responsePc lane)

/-- What a slot adds to the histories when its response is consumed. -/
def speculate (lane : Lane) : TagePredictor.Speculate where
  valid := i.queryAdvance lane && u.queryIsConditional i lane
  taken := u.predictTaken i lane
  backward := u.queryIsConditional i lane && u.btbHit lane &&
    decide (u.btbTarget lane < u.responsePc lane)
  controlValid := i.queryAdvance lane &&
    (u.queryIsConditional i lane || u.queryIsUnconditional i lane)

/-- The inputs of the direction predictor. -/
def tageInputs : TagePredictor.Inputs where
  flush := i.flush
  queryPc := u.tageQueryPc i
  fallbackPrediction := u.baseTaken
  response0Conditional := u.queryIsConditional i 0
  query0Conditional := u.requestIsConditional i
  query0Control := u.requestIsConditional i || u.requestIsUnconditional i
  query0Backward := u.requestIsConditional i &&
    decide (u.btb.target (u.tageQueryPc i 0) < u.tageQueryPc i 0)
  speculate := u.speculate i
  update := i.update.toUpdate
  recover :=
    { valid := i.resolve.valid && i.resolve.mispredicted
      pc := i.resolve.pc
      isConditional := i.resolve.isConditional
      taken := i.resolve.taken
      target := i.resolve.target
      robTag := i.resolve.robTag }
  checkpointAlloc := i.checkpointAlloc

/-- `updateReady_o`. -/
def updateReady : Bool := u.tage.updateQueue.enqReady true

/-- The request context after the edge.  A redirect keeps the request that is
accepted with it. -/
def nextContextValid : Bool :=
  if i.cancel then i.queryValid
  else if i.queryValid && u.queryReady i then true
  else if i.queryAdvance 0 then false
  else u.requestContextValid

def nextResponsePc : Lane → Word :=
  if i.cancel then if i.queryValid then i.queryPc else u.responsePc
  else if i.queryValid && u.queryReady i then i.queryPc
  else u.responsePc

/-- The clock edge. -/
def step : BranchPredictionUnit where
  requestContextValid := u.nextContextValid i
  responsePc := u.nextResponsePc i
  btb := u.btb.step i.update.valid i.update.pc i.update.isConditional
    i.update.taken i.update.target
  bimodal := u.bimodal.step i.update.valid i.update.isConditional
    i.update.predictorIndex i.update.taken
  tage := u.tage.step (u.tageInputs i)
  ras := u.ras.step (u.rasEvent i 0) (u.rasEvent i 1)
    { valid := i.resolve.valid
      call := i.resolve.isCall
      ret := i.resolve.isReturn
      mispredict := i.resolve.valid && i.resolve.mispredicted
      returnAddress := i.resolve.pc + 4 }

end Wires

end BranchPredictionUnit

end OoOCore
