/-
`topCPU.sv`: the front end, the backend, the CSR file and the data memory
behind the data cache, wired to each other.  The one input from outside is the
word the host offers to the memory-mapped register.
-/
import OoOCore.Core
import OoOCore.DataMemory
import OoOCore.FetchIntegrity

namespace OoOCore

namespace Backend

section Ports

variable (s : Backend) (i : Inputs)

/-- `memoryWrite_o`, `memoryRequestId_o`, `memoryAddress_o`,
`memoryWriteData_o` and `memoryAccess_o`, driven also without a request. -/
def memoryBus : CacheRequest :=
  let commit := (s.commitStore i).getD ⟨0, 0, .word⟩
  { write := s.mmioStoreRequest i || s.selectStoreBufferDrain i
    id := if s.selectLoadRequest i then (s.issueUop 0).robTag else 0
    address := if s.mmioStoreRequest i then commit.address
      else if s.selectStoreBufferDrain i then
        s.storeBuffer.drainRequest.address
      else s.lsuAddress
    writeData := if s.mmioStoreRequest i then commit.data
      else s.storeBuffer.drainRequest.data
    access := if s.mmioStoreRequest i then commit.access
      else if s.selectStoreBufferDrain i then
        s.storeBuffer.drainRequest.access
      else s.lsuMemoryAccess }

/-- The lane whose branch is trained in this cycle. -/
def trainLane : Option Lane :=
  if s.robRetireValid i 0 && (s.rob.commitEntry 0).isBranch then some 0
  else if s.robRetireValid i 1 && (s.rob.commitEntry 1).isBranch then some 1
  else none

/-- `branchTrain_o`, as far as the predictor reads it. -/
def branchTrain : BranchPredictionUnit.Update :=
  match s.trainLane i with
  | some l =>
      { valid := true
        isConditional := (s.rob.commitEntry l).branchCtr.isConditional
        pc := (s.rob.commitEntry l).pc
        target := (s.rob.commitEntry l).branchTarget
        taken := (s.rob.commitEntry l).branchTaken
        tageMeta := (s.rob.commitEntry l).tageMeta
        predictorIndex := (s.rob.commitEntry l).predictorIndex }
  | none => ⟨⟨false, false, 0, 0, false, {}⟩, 0⟩

/-- The ports `branchCheckpointValid_o` to `branchCheckpointLoopMeta_o`. -/
def branchCheckpoint (l : Lane) : TagePredictor.Checkpoint where
  valid := s.robAllocValid i l && (decodeBus i l).branchCtr != .none
  tag := s.robAllocTag i l
  histories :=
    { history := (decodeBus i l).tageMeta.history
      path := (decodeBus i l).tageMeta.pathHistory
      imli := (decodeBus i l).tageMeta.scImli }
  loopMeta := (decodeBus i l).tageMeta.loop

end Ports

end Backend

namespace MemStages

section Ports

variable (m : MemStages)

/-- `responseValid_o`, `responseId_o` and `responseData_o`, which depend on no
input of the CPU. -/
def response : MemoryResponse :=
  match m.dataCache.response
      (m.cachePorts ⟨false, {}, false, 0⟩ false) with
  | some r => ⟨true, r.id, r.data⟩
  | none => ⟨false, 0, 0⟩

/-- `requestReady_o`. -/
def requestReady (i : Inputs) : Bool :=
  m.dataCache.requestReady (m.cacheInputs i)

end Ports

end MemStages

structure TopCpu where
  front : FrontEnd
  backend : Backend := Backend.reset
  csrFile : CSRFile := {}
  memStage : MemStages

namespace TopCpu

/-- The power-on contents of the memories that reset leaves alone. -/
structure Boot extends FrontEnd.Boot where
  dataTagArray : CacheSet → CacheTag
  dataBank : LineWord → CacheSet → Word
  dataMem : BitVec 14 → Word
  readWord : Word

/-- The core after reset. -/
def boot (b : Boot) : TopCpu where
  front := FrontEnd.boot b.toBoot
  memStage := MemStages.reset b.dataTagArray b.dataBank b.dataMem b.readWord

section Wires

variable (c : TopCpu) (fromHost : Word)

/-- The backend's inputs, given the handshake of its memory port. -/
def backendPorts (memoryRequestReady : Bool) : Inputs where
  packet := c.front.decodePacket
  memoryRequestReady := memoryRequestReady
  memoryIdle := c.memStage.dataCache.idle
  response := c.memStage.response
  csrReadData := c.csrFile.read c.backend.csrAddr
  branchTrainReady := c.front.bpu.updateReady

/-- The inputs of `MEMStages`.  What the backend requests does not depend on
the handshake. -/
def memoryInputs : MemStages.Inputs where
  requestValid := (c.backend.memoryRequest (c.backendPorts false)).isSome
  request := c.backend.memoryBus (c.backendPorts false)
  responseReady := c.backend.exec.memory.memoryResponseReady
    (c.backend.lsuInputs (c.backendPorts false))
  fromHost := fromHost

def inputs : Inputs :=
  c.backendPorts (c.memStage.requestReady (c.memoryInputs fromHost))

/-- What the front end gets from the backend and the CSR file. -/
def frontInputs : FrontEnd.Inputs where
  trapValid := c.backend.trapValid (c.inputs fromHost)
  trapVector := c.csrFile.trapVector
  branchRedirect := (c.backend.branch (c.inputs fromHost)).redirect
  resolve :=
    let branch := c.backend.branch (c.inputs fromHost)
    { valid := branch.resolved
      pc := branch.pc
      isConditional := branch.isConditional
      taken := branch.taken
      target := branch.target
      mispredicted := branch.mispredicted
      isCall := branch.isCall
      isReturn := branch.isReturn
      robTag := branch.robTag }
  update := c.backend.branchTrain (c.inputs fromHost)
  checkpointAlloc := c.backend.branchCheckpoint (c.inputs fromHost)
  issue := c.backend.dispatchAccept (c.inputs fromHost)

/-- The clock edge. -/
def step : TopCpu where
  front := c.front.step (c.frontInputs fromHost)
  backend := c.backend.step (c.inputs fromHost)
  csrFile := c.csrFile.step (c.backend.retireCount (c.inputs fromHost))
    (c.backend.csrRequest (c.inputs fromHost))
    (c.backend.trap (c.inputs fromHost))
    (c.backend.mretCommit (c.inputs fromHost))
  memStage := c.memStage.step (c.memoryInputs fromHost)

end Wires

section Handshake

variable (c : TopCpu) (ready : Bool)

/-- The backend decides its request before the port answers. -/
theorem memoryRequest_ports : c.backend.memoryRequest (c.backendPorts ready) =
    c.backend.memoryRequest (c.backendPorts false) := rfl

theorem memoryBus_ports : c.backend.memoryBus (c.backendPorts ready) =
    c.backend.memoryBus (c.backendPorts false) := rfl

end Handshake

end TopCpu

end OoOCore
