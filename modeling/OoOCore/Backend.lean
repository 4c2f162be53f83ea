/-
`OoOBackend.sv`: the wires between the stages, each under its source name, and
the clock edge.  The wires are listed in dependency order; the source's
comments on acyclic ready paths say why there is such an order.
-/
import OoOCore.IssueQueue
import OoOCore.Retire

namespace OoOCore

/-- The clocked state of `OoOBackend`.  `nextUid` numbers the accepted
dispatches and feeds origins only. -/
structure Backend where
  rename : RenameStage
  prf : PhysicalRegisterFile
  rob : ReorderBuffer
  iq : IssueQueue
  exec : BackendExecuteStage
  lsq : LoadStoreQueue
  storeBuffer : StoreBuffer
  serializing : Bool
  jumpSerializing : Bool
  nextUid : Nat

/-- The inputs of one cycle: two fetched instructions in front of the decoders,
the memory port, the CSR read port and the predictor's training port.
`flush_i` is wired to `trapValid_o`, as `topCPU` does. -/
structure Inputs where
  packet : Lane → FetchPacket
  memoryRequestReady : Bool
  memoryIdle : Bool
  response : MemoryResponse
  csrReadData : Word
  branchTrainReady : Bool

namespace Backend

def reset : Backend where
  rename := RenameStage.reset
  prf := PhysicalRegisterFile.reset
  rob := ReorderBuffer.reset
  iq := IssueQueue.reset
  exec := BackendExecuteStage.reset
  lsq := LoadStoreQueue.reset
  storeBuffer := StoreBuffer.reset
  serializing := false
  jumpSerializing := false
  nextUid := 0

section Wires

variable (s : Backend) (i : Inputs)

/-- `prfWriteback*`. -/
def prfWriteback : Lane → Writeback := s.exec.writeback

/-- `robComplete*`. -/
def robComplete : Lane → Completion := s.exec.completion

def issueSelection : IssueSelection := s.iq.select s.prfWriteback

def issueChoice : Lane → Option IqIndex
  | 0 => s.issueSelection.port0
  | 1 => s.issueSelection.port1

def issueValid (l : Lane) : Bool := (s.issueChoice l).isSome

def issueUop (l : Lane) : Uop := s.iq.issueUop s.prfWriteback (s.issueChoice l)

def issueFallbackValid : Bool := s.issueSelection.fallback.isSome

def issueFallbackUop : Uop := s.iq.fallbackUop s.issueSelection.fallback

/-- One read port of the physical register file. -/
def prfReadData (p : PhysReg) : Word := s.prf.readData s.prfWriteback p

def executeSourceA (l : Lane) : Word := s.prfReadData (s.issueUop l).src1Phys

def executeSourceB (l : Lane) : Word := s.prfReadData (s.issueUop l).src2Phys

/-- Issue port `l`; only the primary unit is wired to the CSR read data. -/
def issuePort (l : Lane) : IssuePort where
  valid := s.issueValid l
  uop := s.issueUop l
  sourceA := s.executeSourceA l
  sourceB := s.executeSourceB l
  csrReadData := if l = 0 then i.csrReadData else 0

def fallbackPort : IssuePort where
  valid := s.issueFallbackValid
  uop := s.issueFallbackUop
  sourceA := s.prfReadData s.issueFallbackUop.src1Phys
  sourceB := s.prfReadData s.issueFallbackUop.src2Phys
  csrReadData := i.csrReadData

def candidate0IsMemory : Bool :=
  s.issueValid 0 && (s.issueUop 0).fuClass == .memory

def lsuAddress : Word := s.executeSourceA 0 + (s.issueUop 0).immediate

def lsuIsStore : Bool :=
  LoadStoreExecutionUnit.selectedIsStore (s.issueUop 0)

def lsuMemoryAccess : MemAccess := (s.issueUop 0).memCtr

def lsuTag : LsqTag := (s.issueUop 0).lsqTag

/-- `lsqIssueReady`, `lsqForwardValid` and `lsqForwardData`. -/
def lsqQuery : LsqQuery :=
  s.lsq.query s.candidate0IsMemory s.lsuTag s.lsuAddress s.lsuMemoryAccess

def loadIssueCandidate : Bool := s.candidate0IsMemory && !s.lsuIsStore

def storeBufferQueryConflict : Bool :=
  s.storeBuffer.queryConflict
    (s.loadIssueCandidate && !s.lsqQuery.forwardValid) s.lsuAddress
    s.lsuMemoryAccess

/-- An MMIO load waits for an empty store buffer and the LSQ head. -/
def mmioLoadOrdered : Bool :=
  s.storeBuffer.empty && (s.lsq.headEntry 0).valid &&
    decide (s.lsq.headTag 0 = s.lsuTag)

def combinedLsqIssueReady : Bool :=
  s.lsqQuery.ready &&
    (s.lsqQuery.forwardValid || !s.storeBufferQueryConflict) &&
    (!s.loadIssueCandidate || !addressIsMmio s.lsuAddress ||
      s.mmioLoadOrdered)

def fallbackActive : Bool :=
  s.exec.fallbackActive s.candidate0IsMemory (s.issueUop 0)
    s.combinedLsqIssueReady

def primaryPort : IssuePort :=
  BackendExecuteStage.primaryPort s.candidate0IsMemory s.fallbackActive
    (s.issuePort i 0) (s.fallbackPort i)

def secondaryPort : IssuePort := s.issuePort i 1

/-- The branch outputs of the execute stage. -/
def branch : BranchReport :=
  BackendExecuteStage.branchReport s.candidate0IsMemory
    (OoOExecutionUnit.branchReport (s.primaryPort i) s.exec.pReady)
    (OoOExecutionUnit.branchReport (s.secondaryPort i) s.exec.sReady)

/-- The CSR outputs, driven by the primary unit. -/
def csrRequest : CsrRequest :=
  OoOExecutionUnit.csrRequest (s.primaryPort i) s.exec.pReady

/-- `csrAddr_o`, which does not depend on the read data it selects. -/
def csrAddr : CsrAddr :=
  if s.candidate0IsMemory then s.issueFallbackUop.csrAddr
  else (s.issueUop 0).csrAddr

theorem csrRequest_addr : (s.csrRequest i).addr = s.csrAddr := by
  by_cases hmem : s.candidate0IsMemory <;>
    simp [csrRequest, OoOExecutionUnit.csrRequest, csrAddr, primaryPort,
      BackendExecuteStage.primaryPort, hmem, fallbackPort, issuePort]

def recoveryValid : Bool := (s.branch i).mispredicted

def recoveryTag : RobTag := (s.branch i).robTag

def recoveryYoungerMask : RobTag → Bool :=
  s.rob.recoverYoungerMask (s.recoveryValid i) (s.recoveryTag i)

def commitInputs : CommitInputs where
  recoveryValid := s.recoveryValid i
  branchTrainReady := i.branchTrainReady
  robCommitValid := s.rob.commitValid
  robCommitEntry := s.rob.commitEntry
  lsqHeadEntry := s.lsq.headEntry
  lsqHeadTag := s.lsq.headTag

/-- `trapValid_o`, and with it `flush_i`. -/
def trapValid : Bool := BackendCommitStage.trapValid (s.commitInputs i)

def trap : TrapReport where
  valid := s.trapValid i
  pc := (s.rob.commitEntry 0).pc
  cause := (s.rob.commitEntry 0).exceptionCause
  value := (s.rob.commitEntry 0).exceptionValue

/-- `commitStoreValid` with the request fields. -/
def commitStore : Option StoreRequest :=
  BackendCommitStage.store (s.commitInputs i)

/-- `commitStoreValid && commitStoreMmio`. -/
def commitStoreMmio : Bool := BackendCommitStage.storeMmio (s.commitInputs i)

def mmioStoreReady : Bool := s.storeBuffer.empty && i.memoryRequestReady

def mmioStoreRequest : Bool := s.commitStoreMmio i && s.storeBuffer.empty

def forceStoreBufferDrain : Bool :=
  s.storeBuffer.full && s.storeBuffer.drainValid

def loadCacheRequestReady : Bool :=
  i.memoryRequestReady && !s.commitStoreMmio i && !s.forceStoreBufferDrain

/-- The inputs of the load/store unit. -/
def lsuInputs : LsuInputs where
  flush := s.trapValid i
  recoverValid := s.recoveryValid i
  recoverYoungerMask := s.recoveryYoungerMask i
  issueValid := s.candidate0IsMemory && !s.fallbackActive
  uop := s.issueUop 0
  sourceA := s.executeSourceA 0
  sourceB := s.executeSourceB 0
  orderingReady := s.combinedLsqIssueReady
  forwardValid := s.lsqQuery.forwardValid
  forwardData := s.lsqQuery.forwardData
  memoryRequestReady := s.loadCacheRequestReady i
  response := i.response

def lsuLoadReadValid : Bool := s.exec.memory.loadReadValid (s.lsuInputs i)

def selectStoreBufferDrain : Bool :=
  s.storeBuffer.drainValid && !s.mmioStoreRequest i &&
    (s.commitStoreMmio i || s.forceStoreBufferDrain || !s.lsuLoadReadValid i)

def selectLoadRequest : Bool :=
  s.lsuLoadReadValid i && !s.mmioStoreRequest i && !s.commitStoreMmio i &&
    !s.forceStoreBufferDrain

def storeBufferDrainReady : Bool :=
  s.selectStoreBufferDrain i && i.memoryRequestReady

def storeBufferEnqueueReady : Bool :=
  s.storeBuffer.enqueueReady (s.storeBufferDrainReady i)

/-- `commitStoreValid && !commitStoreMmio`. -/
def storeBufferEnqueueValid : Bool :=
  (s.commitStore i).isSome && !s.commitStoreMmio i

def robRetireValid (l : Lane) : Bool :=
  BackendCommitStage.retireValid (s.commitInputs i)
    (s.storeBufferEnqueueReady i) (s.mmioStoreReady i) l

def lsqRetireCount : Nat :=
  BackendCommitStage.lsqRetireCount (s.commitInputs i)
    (s.storeBufferEnqueueReady i) (s.mmioStoreReady i)

def mretCommit : Bool :=
  BackendCommitStage.mretCommit (s.commitInputs i)
    (s.storeBufferEnqueueReady i) (s.mmioStoreReady i)

def retireCount : Nat :=
  (s.robRetireValid i 0).toNat + (s.robRetireValid i 1).toNat

/-- `issueReady`. -/
def issueReady : Lane → Bool
  | 0 => if s.candidate0IsMemory then
      !s.fallbackActive && s.exec.memory.issueReady (s.lsuInputs i)
      else s.exec.pReady
  | 1 => s.exec.sReady

def issueFallbackReady : Bool :=
  s.candidate0IsMemory && s.fallbackActive && s.exec.pReady

/-- The address/data port of the LSQ. -/
def lsqUpdate : LsqUpdate where
  addressValid := s.exec.memory.executeValid (s.lsuInputs i)
  storeDataValid := s.exec.memory.storeDataValid (s.lsuInputs i)
  tag := s.lsuTag
  address := s.lsuAddress
  storeData := s.executeSourceB 0

/-- The request the memory port sees, when `memoryValid_o` is up. -/
inductive MemoryRequest where
  | store (request : StoreRequest)
  | load (id : RobTag) (address : Word) (access : MemAccess)
deriving DecidableEq, Repr

/-- `memoryValid_o` with the request fields. -/
def memoryRequest : Option MemoryRequest :=
  if s.mmioStoreRequest i then (s.commitStore i).map .store
  else if s.selectStoreBufferDrain i then some (.store s.storeBuffer.drainRequest)
  else if s.selectLoadRequest i then
    some (.load (s.issueUop 0).robTag s.lsuAddress s.lsuMemoryAccess)
  else none

def decodeBus (l : Lane) : DecodeBus := idStage (i.packet l)

def laneIsMemory (l : Lane) : Bool :=
  (decodeBus i l).dataWriteEnable || (decodeBus i l).wbSelect == .mem

def laneIsControl (l : Lane) : Bool :=
  (decodeBus i l).branchCtr != .none || (decodeBus i l).wbSelect == .csr

def laneStartsSerialization (l : Lane) : Bool :=
  (decodeBus i l).serialize || (decodeBus i l).wbSelect == .csr

def issueEmpty : Bool := decide (s.iq.occupiedCount = 0)

def backendDrained : Bool :=
  decide (s.rob.entryCount = 0) && s.issueEmpty &&
    decide (s.lsq.entryCount = 0) && s.storeBuffer.empty && i.memoryIdle

def laneSupported : Lane → Bool
  | 0 => !s.serializing && (!laneStartsSerialization i 0 || s.backendDrained i)
  | 1 => !s.serializing && !laneIsControl i 1 && !laneStartsSerialization i 1

def dispatchLane (l : Lane) : DispatchLane where
  valid := (decodeBus i l).valid
  supported := s.laneSupported i l
  writesDestination := RenameStage.writesDestination (decodeBus i l)
  isMemory := laneIsMemory i l

/-- The free entries `DispatchControl` computes from the occupancy counts. -/
def dispatchState : DispatchState where
  robFree := 16 - s.rob.entryCount
  issueFree := 16 - s.iq.occupiedCount
  lsqFree := 16 - s.lsq.entryCount
  physFree := s.rename.freeList.freeCount
  olderLaneAccepted := true

def dispatchAccept : Lane → Bool :=
  DispatchControl.accept s.dispatchState (s.dispatchLane i)

/-- `robAllocValid = dispatchAccept_o & laneValid`. -/
def robAllocValid (l : Lane) : Bool :=
  s.dispatchAccept i l && (decodeBus i l).valid

def lsqAllocValid (l : Lane) : Bool := s.robAllocValid i l && laneIsMemory i l

/-- `freeRequest`. -/
def freeRequest (l : Lane) : Bool :=
  s.dispatchAccept i l && RenameStage.writesDestination (decodeBus i l)

def freeChoice : Lane → Option PhysReg :=
  s.rename.freeList.allocChoice (s.freeRequest i 0)

/-- `destinationPhys`. -/
def destinationPhys (l : Lane) : PhysReg :=
  if RenameStage.writesDestination (decodeBus i l) then
    (s.freeChoice i l).getD 0
  else 0

def destinationAvailable (l : Lane) : Bool :=
  !RenameStage.writesDestination (decodeBus i l) || (s.freeChoice i l).isSome

def destinationAllocValid (l : Lane) : Bool :=
  s.freeRequest i l && (s.freeChoice i l).isSome

/-- The rename write port of one lane. -/
def renameLane (l : Lane) : RenameLane where
  valid := s.destinationAllocValid i l
  archRd := (decodeBus i l).rd
  newPhys := s.destinationPhys i l

/-- The rename lookup of one lane. -/
def renameLookup : Lane → ArchReg → PhysReg
  | 0 => s.rename.mapTable.lookup0
  | 1 => s.rename.mapTable.lookup1 (s.renameLane i 0)

def robAllocTag : Lane → RobTag := s.rob.allocTag (s.robAllocValid i)

def lsqAllocTag : Lane → LsqTag := s.lsq.allocTag (s.lsqAllocValid i)

/-- The uid a lane's instruction receives when it is accepted. -/
def laneUid : Lane → Nat
  | 0 => s.nextUid
  | 1 => s.nextUid + (s.robAllocValid i 0).toNat

/-- The readiness of a source.  Lane 1 must wait for the register lane 0 takes
in the same cycle, which the register file may still report as ready. -/
def renameSourceReady : Lane → PhysReg → Bool
  | 0, p => s.prf.readReady s.prfWriteback p
  | 1, p => s.prf.readReady s.prfWriteback p &&
      !(s.destinationAllocValid i 0 && decide (p = s.destinationPhys i 0))

def laneContext (l : Lane) : RenameStage.LaneContext where
  enable := s.dispatchAccept i l
  destinationAvailable := s.destinationAvailable i l
  src1Phys := s.renameLookup i l (decodeBus i l).rs1
  src2Phys := s.renameLookup i l (decodeBus i l).rs2
  src1Ready := s.renameSourceReady i l
    (s.renameLookup i l (decodeBus i l).rs1)
  src2Ready := s.renameSourceReady i l
    (s.renameLookup i l (decodeBus i l).rs2)
  destinationPhys := s.destinationPhys i l
  oldDestinationPhys := s.renameLookup i l (decodeBus i l).rd
  robTag := s.robAllocTag i l
  lsqTag := s.lsqAllocTag i l
  uid := s.laneUid i l

def renamedUop (l : Lane) : Uop :=
  RenameStage.renamedUop (decodeBus i l) (s.laneContext i l)

def renameRobEntry (l : Lane) : RobEntry :=
  RenameStage.robEntry (decodeBus i l) (s.laneContext i l)

def renameLsqEntry (l : Lane) : LsqEntry :=
  RenameStage.lsqEntry (decodeBus i l) (s.laneContext i l)

/-- `commitArchRd_o`. -/
def commitArchRd (l : Lane) : ArchReg :=
  if (s.rob.commitEntry l).writesRd then (s.rob.commitEntry l).archRd else 0

/-- `commitData_o`. -/
def commitData (l : Lane) : Word :=
  if (s.rob.commitEntry l).writesRd then
    s.prfReadData (s.rob.commitEntry l).newPhys
  else 0

def commitLane (l : Lane) : CommitLane where
  valid := s.robRetireValid i l
  archRd := s.commitArchRd l
  newPhys := (s.rob.commitEntry l).newPhys
  oldPhys := (s.rob.commitEntry l).oldPhys

/-- `freeCommitValid`. -/
def freeCommitValid (l : Lane) : Bool :=
  s.robRetireValid i l && decide (s.commitArchRd l ≠ 0) &&
    decide ((s.rob.commitEntry l).oldPhys ≠ 0)

/-- `checkpointValid`. -/
def checkpointValid (l : Lane) : Bool :=
  s.dispatchAccept i l && (decodeBus i l).branchCtr != .none

def branchResolve : BranchResolve where
  valid := (s.branch i).resolved
  tag := (s.branch i).robTag
  taken := (s.branch i).taken
  target := (s.branch i).target
  mispredicted := (s.branch i).mispredicted

/-- The next value of `serializing`. -/
def nextSerializing : Bool :=
  if s.trapValid i then false
  else if s.dispatchAccept i 0 && (decodeBus i 0).valid &&
      laneStartsSerialization i 0 then true
  else if s.serializing && decide (s.rob.entryCount = 0) then false
  else s.serializing

/-- The next value of `jumpSerializing`, which is never set. -/
def nextJumpSerializing : Bool :=
  if s.trapValid i then false
  else if s.dispatchAccept i 0 && (decodeBus i 0).valid &&
      laneStartsSerialization i 0 then false
  else if s.serializing && decide (s.rob.entryCount = 0) then false
  else s.jumpSerializing

/-- The clock edge of the rename stage. -/
def nextRename : RenameStage where
  mapTable := s.rename.mapTable.step (s.trapValid i) (s.recoveryValid i)
    (s.recoveryTag i) (s.checkpointValid i) (s.robAllocTag i) (s.renameLane i)
    (s.commitLane i)
  freeList := s.rename.freeList.step (s.trapValid i)
    s.rename.mapTable.committedFreeMask (s.recoveryValid i) (s.recoveryTag i)
    (s.checkpointValid i) (s.robAllocTag i) (s.freeRequest i)
    (s.freeCommitValid i) (fun l => (s.rob.commitEntry l).oldPhys)

/-- The clock edge. -/
def step : Backend where
  rename := s.nextRename i
  prf := s.prf.step (s.destinationAllocValid i) (s.destinationPhys i)
    s.prfWriteback
  rob := s.rob.step (s.trapValid i) (s.recoveryValid i) (s.robAllocValid i)
    (s.renameRobEntry i) s.robComplete (s.branchResolve i)
    (s.robRetireValid i)
  iq := s.iq.step (s.trapValid i) (s.recoveryValid i)
    (s.recoveryYoungerMask i) (s.renamedUop i) s.prfWriteback
    (s.issueReady i) (s.issueFallbackReady)
  exec := s.exec.step s.candidate0IsMemory (s.primaryPort i)
    (s.secondaryPort i) (s.lsuInputs i) (s.issueUop 0)
  lsq := s.lsq.step (s.trapValid i) (s.recoveryValid i)
    (s.recoveryYoungerMask i) (s.lsqAllocValid i) (s.renameLsqEntry i)
    (s.lsqUpdate i) s.prfWriteback (s.lsqRetireCount i)
  storeBuffer := s.storeBuffer.step (s.storeBufferEnqueueValid i)
    ((s.commitStore i).getD ⟨0, 0, .word⟩) (s.storeBufferDrainReady i)
  serializing := s.nextSerializing i
  jumpSerializing := s.nextJumpSerializing i
  nextUid := s.nextUid + (s.robAllocValid i 0).toNat +
    (s.robAllocValid i 1).toNat

end Wires

/-- The state after a sequence of cycles. -/
def run (s : Backend) : List Inputs → Backend
  | [] => s
  | i :: rest => (s.step i).run rest

/-- The states reached from reset by some sequence of cycles. -/
inductive Reachable : Backend → Prop
  | reset : Reachable reset
  | step {s : Backend} (h : Reachable s) (i : Inputs) : Reachable (s.step i)

end Backend

end OoOCore
