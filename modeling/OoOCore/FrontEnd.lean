/-
`FetchQueue.sv`, `DualIfStages.sv` and the front end of `topCPU.sv`: the
predictor and the instruction cache are asked for the same pair of addresses,
their responses meet in a fetch packet, and the packets wait in a queue for the
decoders.
-/
import OoOCore.BranchPredictionUnit
import OoOCore.Decode
import OoOCore.InstructionCache

namespace OoOCore

structure FetchQueue where
  entries : Fin 8 → FetchPacket := fun _ => {}
  headPtr : Fin 8 := 0
  tailPtr : Fin 8 := 0
  entryCount : Nat := 0

namespace FetchQueue

/-- `DEPTH`. -/
def depth : Nat := 8

/-- `incomingCount`: a zero word is no instruction. -/
def incomingCount (insn : Lane → Word) : Nat :=
  if insn 0 ≠ 0 then if insn 1 ≠ 0 then 2 else 1 else 0

section Wires

variable (q : FetchQueue) (fetch : Lane → FetchPacket) (issue : Lane → Bool)

def dequeueCount : Nat := min ((issue 0).toNat + (issue 1).toNat) q.entryCount

/-- `fetchReady_o`: the free slots and those freed by this edge take the
incoming pair. -/
def fetchReady (insn : Lane → Word) : Bool :=
  decide (incomingCount insn ≤ depth - q.entryCount + q.dequeueCount issue)

/-- `packet0_o` and `packet1_o`. -/
def packet (lane : Lane) : FetchPacket :=
  if lane.val < q.entryCount then q.entries (addPtr q.headPtr lane.val) else {}

/-- How many packets the edge takes in. -/
def enqueueCount : Nat :=
  if q.fetchReady issue (fun lane => (fetch lane).insn) then
    incomingCount fun lane => (fetch lane).insn
  else 0

def nextEntries : Fin 8 → FetchPacket :=
  let first := if 0 < q.enqueueCount fetch issue then
      Function.update q.entries q.tailPtr (fetch 0)
    else q.entries
  if q.enqueueCount fetch issue = 2 then
    Function.update first (addPtr q.tailPtr 1) (fetch 1)
  else first

/-- The clock edge. -/
def step (flush : Bool) : FetchQueue :=
  if flush then { entries := q.entries }
  else
    { entries := q.nextEntries fetch issue
      headPtr := addPtr q.headPtr (q.dequeueCount issue)
      tailPtr := addPtr q.tailPtr (q.enqueueCount fetch issue)
      entryCount := q.entryCount - q.dequeueCount issue +
        q.enqueueCount fetch issue }

end Wires

end FetchQueue

structure DualIfStages where
  pc : Word := resetVector
  instructionCache : InstructionCache
  insnMem0 : InsnMem

namespace DualIfStages

/-- The redirect port. -/
structure Jump where
  enable : Bool
  address : Word

/-- The response of the predictor. -/
structure Prediction where
  valid : Bool
  pc : Lane → Word
  taken : Lane → Bool
  target : Lane → Word
  predictorIndex : Lane → BitVec 10
  tageMeta : Lane → TageMeta
  btbHit : Lane → Bool
  rasUsed : Lane → Bool

section Wires

variable (d : DualIfStages) (jump : Jump) (p : Prediction)
  (responseReady requestReady : Bool)

/-- `cacheResponseValid_o`. -/
def cacheResponseValid : Bool := d.instructionCache.responseValid jump.enable

/-- `requestInsn_o` and `requestInsn1_o`. -/
def requestInsn : Lane → Word := d.instructionCache.responseInsn jump.enable

/-- `predictionResponseUsable`. -/
def responseUsable (predictionValid : Bool) : Bool :=
  d.cacheResponseValid jump && predictionValid && !jump.enable

/-- `responseConsumed_o`. -/
def responseConsumed (predictionValid : Bool) : Bool :=
  d.responseUsable jump predictionValid && responseReady

def cacheResponseReady (predictionValid : Bool) : Bool :=
  jump.enable || d.responseConsumed jump responseReady predictionValid

def nextRequestPc : Word :=
  if jump.enable then jump.address
  else if d.responseConsumed jump responseReady p.valid then
    if p.taken 0 then p.target 0
    else if p.taken 1 then p.target 1
    else p.pc 0 + (4 + 4)
  else d.pc

/-- `requestPc_o` and `requestPc1_o`. -/
def requestPc : Lane → Word
  | 0 => d.nextRequestPc jump p responseReady
  | 1 => d.nextRequestPc jump p responseReady + 4

/-- `requestValid_o`, out of reset. -/
def requestValid (predictionValid : Bool) : Bool :=
  d.instructionCache.requestReady jump.enable
    (d.cacheResponseReady jump responseReady predictionValid) && requestReady

/-- The words of the two fetch packets.  A taken slot 0 hides slot 1. -/
def fetchInsn (predictionValid taken0 : Bool) : Lane → Word
  | 0 => if d.responseUsable jump predictionValid then d.requestInsn jump 0
      else 0
  | 1 => if d.responseUsable jump predictionValid && !taken0 then
        d.requestInsn jump 1
      else 0

/-- `fetch_packet0` and `fetch_packet1`.  The predictor's history snapshots are
zero. -/
def fetchPacket (lane : Lane) : FetchPacket :=
  let usable := d.responseUsable jump p.valid
  { insn := d.fetchInsn jump p.valid (p.taken 0) lane
    pc := if usable then p.pc lane else resetVector
    predictedTaken := usable && p.taken lane && (decide (lane = 0) || !p.taken 0)
    predictedTarget := if usable then p.target lane else 0
    predictorIndex := if usable then p.predictorIndex lane else 0
    historySnapshot := 0
    tageMeta := if usable then p.tageMeta lane else {}
    predictedBtbHit := usable && p.btbHit lane
    predictedRasUsed := usable && p.rasUsed lane }

def cacheInputs : InstructionCache.Inputs where
  flush := jump.enable
  requestValid := d.requestValid jump responseReady requestReady p.valid
  requestPc := d.requestPc jump p responseReady
  responseReady := d.cacheResponseReady jump responseReady p.valid
  backingResponseValid := d.insnMem0.responseValid
  backingResponseWord := d.insnMem0.responseWord

/-- The clock edge. -/
def step : DualIfStages where
  pc := d.nextRequestPc jump p responseReady
  instructionCache := d.instructionCache.step
    (d.cacheInputs jump p responseReady requestReady)
  insnMem0 := d.insnMem0.step
    (d.instructionCache.backingRequestValid jump.enable)
    d.instructionCache.backingRequestAddr

end Wires

end DualIfStages

structure FrontEnd where
  bpu : BranchPredictionUnit
  ifStage : DualIfStages
  fetchQueue : FetchQueue := {}

namespace FrontEnd

/-- What the backend tells the front end in a cycle. -/
structure Inputs where
  trapValid : Bool
  trapVector : Word
  branchRedirect : Word
  resolve : BranchPredictionUnit.Resolve
  update : BranchPredictionUnit.Update
  checkpointAlloc : Lane → TagePredictor.Checkpoint
  /-- `issue0` and `issue1`. -/
  issue : Lane → Bool

def reset (tables : (t : TageTableId) → TageTable (tageTagWidth t))
    (cache : InstructionCache) (insnMem0 : InsnMem) : FrontEnd where
  bpu := BranchPredictionUnit.reset tables
  ifStage := { instructionCache := cache, insnMem0 := insnMem0 }

section Wires

variable (f : FrontEnd) (i : Inputs)

def jump : DualIfStages.Jump where
  enable := i.trapValid || (i.resolve.valid && i.resolve.mispredicted)
  address := if i.trapValid then i.trapVector else i.branchRedirect

/-- The predictor's inputs, given what the fetch stage does with its response
and which request it makes. -/
def bpuInputs (queryAdvance : Lane → Bool) (queryValid : Bool)
    (queryPc : Lane → Word) : BranchPredictionUnit.Inputs where
  flush := i.trapValid
  cancel := (jump i).enable
  queryValid := queryValid
  queryPc := queryPc
  instructionValid := f.ifStage.cacheResponseValid (jump i)
  queryInsn := f.ifStage.requestInsn (jump i)
  queryAdvance := queryAdvance
  update := i.update
  resolve := i.resolve
  checkpointAlloc := i.checkpointAlloc

/-- The inputs before the response is known to be consumed, which are enough
for the direction of slot 0. -/
def offered : BranchPredictionUnit.Inputs :=
  f.bpuInputs i (fun _ => false) false f.bpu.responsePc

/-- `bpuPredictionValid`. -/
def predictionValid : Bool := f.bpu.predictionValid (f.offered i)

/-- `btbPredictTaken`. -/
def predictTaken0 : Bool := f.bpu.predictTaken (f.offered i) 0

/-- `fetchQueueReady`. -/
def fetchQueueReady : Bool :=
  f.fetchQueue.fetchReady i.issue
    (f.ifStage.fetchInsn (jump i) (f.predictionValid i) (f.predictTaken0 i))

/-- `fetchResponseConsumed`. -/
def fetchResponseConsumed : Bool :=
  f.ifStage.responseConsumed (jump i) (f.fetchQueueReady i)
    (f.predictionValid i)

/-- `queryAdvance_i` and `queryAdvance1_i`. -/
def queryAdvance : Lane → Bool
  | 0 => f.fetchResponseConsumed i && !(jump i).enable
  | 1 => f.fetchResponseConsumed i && !f.predictTaken0 i && !(jump i).enable

/-- The inputs that decide the prediction of both slots. -/
def answered : BranchPredictionUnit.Inputs :=
  f.bpuInputs i (f.queryAdvance i) false f.bpu.responsePc

/-- The predictor's response. -/
def prediction : DualIfStages.Prediction where
  valid := f.predictionValid i
  pc := f.bpu.responsePc
  taken := f.bpu.predictTaken (f.answered i)
  target := f.bpu.predictTarget (f.answered i)
  predictorIndex := f.bpu.predictorIndex
  tageMeta := f.bpu.tageMeta (f.answered i)
  btbHit := f.bpu.btbHit
  rasUsed := f.bpu.rasUsed (f.answered i)

/-- `bpuQueryReady`. -/
def queryReady : Bool := f.bpu.queryReady (f.answered i)

/-- `bpuQueryValid`. -/
def queryValid : Bool :=
  f.ifStage.requestValid (jump i) (f.fetchQueueReady i) (f.queryReady i)
    (f.predictionValid i)

/-- `bpuRequestPc` and `bpuRequestPc1`. -/
def requestPc : Lane → Word :=
  f.ifStage.requestPc (jump i) (f.prediction i) (f.fetchQueueReady i)

/-- The packets on `if_fetch_bus` and `if_fetch_bus1`. -/
def fetchPacket : Lane → FetchPacket :=
  f.ifStage.fetchPacket (jump i) (f.prediction i)

/-- The packets at the decoders, `if_decode_bus` and `if_decode_bus1`. -/
def decodePacket : Lane → FetchPacket := f.fetchQueue.packet

/-- The predictor's inputs of the cycle. -/
def query : BranchPredictionUnit.Inputs :=
  f.bpuInputs i (f.queryAdvance i) (f.queryValid i) (f.requestPc i)

/-- The clock edge. -/
def step : FrontEnd where
  bpu := f.bpu.step (f.query i)
  ifStage := f.ifStage.step (jump i) (f.prediction i) (f.fetchQueueReady i)
    (f.queryReady i)
  fetchQueue := f.fetchQueue.step (f.fetchPacket i) i.issue (jump i).enable

end Wires

end FrontEnd

end OoOCore
