/-
Execution: `ALU.sv`, the integer/branch/CSR unit `OoOExecutionUnit.sv`, the
`LoadStoreExecutionUnit.sv` with its outstanding loads, and the port steering
of `BackendExecuteStage.sv`.
-/
import OoOCore.LoadStoreQueue

namespace OoOCore

/-- `ALU`. -/
def alu (ctr : AluCtr) (dataA dataB : Word) : Word :=
  let shamt := (dataB.setWidth 5).toNat
  match ctr with
  | .add => dataA + dataB
  | .sub => dataA - dataB
  | .and => dataA &&& dataB
  | .or => dataA ||| dataB
  | .xor => dataA ^^^ dataB
  | .sll => dataA <<< shamt
  | .srl => dataA >>> shamt
  | .sra => dataA.sshiftRight shamt
  | .slt => if dataA.slt dataB then 1 else 0
  | .sltu => if dataA < dataB then 1 else 0
  | .pass => dataB

/-- A uop at the input of an execution unit, with the operands it reads. -/
structure IssuePort where
  valid : Bool
  uop : Uop
  sourceA : Word
  sourceB : Word
  csrReadData : Word

/-- What a unit reports about the branch at its input. -/
structure BranchReport where
  resolved : Bool
  pc : Word
  isConditional : Bool
  isCall : Bool
  isReturn : Bool
  predictorIndex : BitVec 10
  taken : Bool
  target : Word
  mispredicted : Bool
  redirect : Word
  robTag : RobTag
  origin : Origin

/-- The CSR access a unit performs. -/
structure CsrRequest where
  valid : Bool
  op : CsrOp
  addr : CsrAddr
  writeData : Word

/-- The clocked state of `OoOExecutionUnit` is its completion register. -/
abbrev OoOExecutionUnit := Completion

namespace OoOExecutionUnit

def aluResult (p : IssuePort) : Word :=
  alu p.uop.aluCtr (if p.uop.aluSrcASelect then p.uop.pc else p.sourceA)
    (if p.uop.aluSrcBSelect then p.uop.immediate else p.sourceB)

def selectedResult (p : IssuePort) : Word :=
  match p.uop.wbSelect with
  | .pc4 => p.uop.pc + 4
  | .imm => p.uop.immediate
  | .csr => p.csrReadData
  | _ => aluResult p

def branchTaken (p : IssuePort) : Bool :=
  match p.uop.branchCtr with
  | .beq => decide (p.sourceA = p.sourceB)
  | .bne => decide (p.sourceA ≠ p.sourceB)
  | .blt => p.sourceA.slt p.sourceB
  | .bge => !p.sourceA.slt p.sourceB
  | .bltu => decide (p.sourceA < p.sourceB)
  | .bgeu => decide (p.sourceB ≤ p.sourceA)
  | .jal | .jalr | .mret => true
  | .none => false

def branchTarget (p : IssuePort) : Word :=
  match p.uop.branchCtr with
  | .jalr => (p.sourceA + p.uop.immediate) &&& ~~~1#32
  | .mret => p.csrReadData
  | _ => p.uop.pc + p.uop.immediate

def branchActualNext (p : IssuePort) : Word :=
  if branchTaken p then branchTarget p else p.uop.pc + 4

/-- The taken target of a branch-class uop is not word aligned. -/
def targetMisaligned (p : IssuePort) : Bool :=
  p.uop.fuClass == .branch && branchTaken p &&
    decide (byteOffset (branchTarget p) ≠ 0)

def executeException (p : IssuePort) : Bool :=
  p.uop.decodeException || targetMisaligned p

def executeCause (p : IssuePort) : Cause :=
  if !p.uop.decodeException && targetMisaligned p then excInsnAddrMisaligned
  else p.uop.decodeExceptionCause

def executeValue (p : IssuePort) : Word :=
  if !p.uop.decodeException && targetMisaligned p then branchTarget p
  else p.uop.exceptionValue

/-- `issueReady_o`; `orderingReady_i` is tied to one. -/
def issueReady (c : OoOExecutionUnit) (completionReady : Bool) : Bool :=
  !c.valid || completionReady

def branchResolved (p : IssuePort) (ready : Bool) : Bool :=
  p.valid && ready && !executeException p && p.uop.fuClass == .branch

def branchMispredicted (p : IssuePort) (ready : Bool) : Bool :=
  branchResolved p ready &&
    (p.uop.predictedTaken != branchTaken p ||
      (branchTaken p && p.uop.predictedTaken &&
        decide (p.uop.predictedTarget ≠ branchTarget p)))

/-- The branch outputs of the unit. -/
def branchReport (p : IssuePort) (ready : Bool) : BranchReport where
  resolved := branchResolved p ready
  pc := p.uop.pc
  isConditional := p.uop.branchCtr.isConditional
  isCall := p.uop.isCall
  isReturn := p.uop.isReturn
  predictorIndex := p.uop.predictorIndex
  taken := branchTaken p
  target := branchTarget p
  mispredicted := branchMispredicted p ready
  redirect := branchActualNext p
  robTag := p.uop.robTag
  origin := p.uop.origin

/-- The CSR outputs of the unit. -/
def csrRequest (p : IssuePort) (ready : Bool) : CsrRequest where
  valid := p.valid && ready && p.uop.fuClass == .csr
  op := p.uop.csrOp
  addr := p.uop.csrAddr
  writeData := if p.uop.csrUseImm then p.uop.csrImm else p.sourceA

/-- The completion register written by an accepted issue slot. -/
def execute (p : IssuePort) : Completion where
  valid := p.valid
  robTag := p.uop.robTag
  exception := executeException p
  cause := executeCause p
  value := executeValue p
  writebackValid := p.valid && !executeException p &&
    p.uop.registerWriteEnable && decide (p.uop.destPhys ≠ 0)
  writebackPhys := p.uop.destPhys
  writebackData := selectedResult p
  origin := p.uop.origin

/-- The bits a flush clears. -/
def cleared (c : Completion) : Completion :=
  { c with valid := false, writebackValid := false, exception := false }

def step (c : OoOExecutionUnit) (flush completionReady : Bool)
    (p : IssuePort) : OoOExecutionUnit :=
  if flush then cleared c
  else if issueReady c completionReady then execute p
  else c

end OoOExecutionUnit

/-- A response of the memory port. -/
structure MemoryResponse where
  valid : Bool
  id : RobTag
  data : Word
deriving Inhabited

/-- `LoadStoreExecutionUnit` state: its completion register and one pending
slot per ROB tag. -/
structure LoadStoreExecutionUnit where
  completion : Completion
  pendingValid : RobTag → Bool
  pendingKilled : RobTag → Bool
  pendingDestPhys : RobTag → PhysReg
  pendingRegisterWrite : RobTag → Bool
  pendingAddress : RobTag → Word
  pendingOrigin : RobTag → Origin

/-- The inputs of `LoadStoreExecutionUnit`. -/
structure LsuInputs where
  flush : Bool
  recoverValid : Bool
  recoverYoungerMask : RobTag → Bool
  issueValid : Bool
  uop : Uop
  sourceA : Word
  sourceB : Word
  orderingReady : Bool
  forwardValid : Bool
  forwardData : Word
  memoryRequestReady : Bool
  response : MemoryResponse

namespace LoadStoreExecutionUnit

def reset : LoadStoreExecutionUnit where
  completion := default
  pendingValid := fun _ => false
  pendingKilled := fun _ => false
  pendingDestPhys := fun _ => 0
  pendingRegisterWrite := fun _ => false
  pendingAddress := fun _ => 0
  pendingOrigin := fun _ => default

def address (x : LsuInputs) : Word := x.sourceA + x.uop.immediate

def selectedIsLoad (u : Uop) : Bool :=
  u.fuClass == .memory && !u.dataWriteEnable

def selectedIsStore (u : Uop) : Bool :=
  u.fuClass == .memory && u.dataWriteEnable

/-- `addressMisaligned`. -/
def misaligned (access : MemAccess) (address : Word) : Bool :=
  match access with
  | .half | .halfU => address.getLsbD 0
  | .word => decide (byteOffset address ≠ 0)
  | _ => false

def addressMisaligned (x : LsuInputs) : Bool :=
  misaligned x.uop.memCtr (address x)

/-- The recovery of this cycle removes the tag. -/
def removes (x : LsuInputs) (tag : RobTag) : Bool :=
  x.recoverValid && x.recoverYoungerMask tag

def issueAllowed (x : LsuInputs) : Bool := !removes x x.uop.robTag

def normalCacheLoad (x : LsuInputs) : Bool :=
  selectedIsLoad x.uop && !x.forwardValid && !addressMisaligned x &&
    !x.uop.decodeException

def responsePending (u : LoadStoreExecutionUnit) (x : LsuInputs) : Bool :=
  u.pendingValid x.response.id

def responseKilled (u : LoadStoreExecutionUnit) (x : LsuInputs) : Bool :=
  u.pendingKilled x.response.id || x.flush || removes x x.response.id

def responseCompletes (u : LoadStoreExecutionUnit) (x : LsuInputs) : Bool :=
  x.response.valid && u.responsePending x && !u.responseKilled x

/-- `memoryResponseReady_o`; `completionReady_i` is tied to one, so the
completion slot is always free. -/
def memoryResponseReady (u : LoadStoreExecutionUnit) (x : LsuInputs) : Bool :=
  u.responsePending x

def responseFire (u : LoadStoreExecutionUnit) (x : LsuInputs) : Bool :=
  x.response.valid && u.memoryResponseReady x

def baseIssueReady (x : LsuInputs) : Bool :=
  x.orderingReady && issueAllowed x && !x.flush

/-- `loadReadValid_o`. -/
def loadReadValid (u : LoadStoreExecutionUnit) (x : LsuInputs) : Bool :=
  x.issueValid && baseIssueReady x && normalCacheLoad x &&
    !u.pendingValid x.uop.robTag

/-- `issueReady_o`. -/
def issueReady (u : LoadStoreExecutionUnit) (x : LsuInputs) : Bool :=
  baseIssueReady x &&
    (if normalCacheLoad x then
      !u.pendingValid x.uop.robTag && x.memoryRequestReady
    else !u.responseCompletes x)

def issueFire (u : LoadStoreExecutionUnit) (x : LsuInputs) : Bool :=
  x.issueValid && u.issueReady x

/-- `executeValid_o`. -/
def executeValid (u : LoadStoreExecutionUnit) (x : LsuInputs) : Bool :=
  u.issueFire x && !addressMisaligned x && !x.uop.decodeException &&
    (selectedIsLoad x.uop || selectedIsStore x.uop)

/-- `storeDataValid_o`. -/
def storeDataValid (u : LoadStoreExecutionUnit) (x : LsuInputs) : Bool :=
  u.executeValid x && selectedIsStore x.uop && x.uop.src2Ready

/-- The completion of a returning load. -/
def responseCompletion (u : LoadStoreExecutionUnit) (x : LsuInputs) :
    Completion where
  valid := true
  robTag := x.response.id
  exception := false
  cause := 0
  value := u.pendingAddress x.response.id
  writebackValid := u.pendingRegisterWrite x.response.id &&
    decide (u.pendingDestPhys x.response.id ≠ 0)
  writebackPhys := u.pendingDestPhys x.response.id
  writebackData := x.response.data
  origin := u.pendingOrigin x.response.id

/-- Stores, forwarded loads and faulting accesses complete locally. -/
def localCompletion (x : LsuInputs) : Completion where
  valid := selectedIsLoad x.uop || selectedIsStore x.uop ||
    x.uop.decodeException
  robTag := x.uop.robTag
  exception := x.uop.decodeException || addressMisaligned x
  cause := if x.uop.decodeException then x.uop.decodeExceptionCause
    else if selectedIsStore x.uop then excStoreAddrMisaligned
    else excLoadAddrMisaligned
  value := if x.uop.decodeException then x.uop.exceptionValue else address x
  writebackValid := selectedIsLoad x.uop && x.forwardValid &&
    !addressMisaligned x && !x.uop.decodeException &&
    x.uop.registerWriteEnable && decide (x.uop.destPhys ≠ 0)
  writebackPhys := x.uop.destPhys
  writebackData := x.forwardData
  origin := x.uop.origin

/-- The issued uop takes a pending slot. -/
def startsLoad (u : LoadStoreExecutionUnit) (x : LsuInputs) : Bool :=
  u.issueFire x && !x.flush && normalCacheLoad x

/-- The issued uop completes without the memory port. -/
def completesLocally (u : LoadStoreExecutionUnit) (x : LsuInputs) : Bool :=
  u.issueFire x && !x.flush && !normalCacheLoad x

def step (u : LoadStoreExecutionUnit) (x : LsuInputs) :
    LoadStoreExecutionUnit where
  completion :=
    if u.completesLocally x then localCompletion x
    else if u.responseFire x && !u.responseKilled x then u.responseCompletion x
    else OoOExecutionUnit.cleared u.completion
  pendingValid :=
    let drained := if u.responseFire x then
        Function.update u.pendingValid x.response.id false
      else u.pendingValid
    if u.startsLoad x then Function.update drained x.uop.robTag true
    else drained
  pendingKilled :=
    -- Accepted requests cannot be withdrawn: a removed slot is only marked.
    let marked := fun tag =>
      if u.pendingValid tag ∧ (x.flush ∨ removes x tag) then true
      else u.pendingKilled tag
    let drained := if u.responseFire x then
        Function.update marked x.response.id false
      else marked
    if u.startsLoad x then Function.update drained x.uop.robTag false
    else drained
  pendingDestPhys := if u.startsLoad x then
      Function.update u.pendingDestPhys x.uop.robTag x.uop.destPhys
    else u.pendingDestPhys
  pendingRegisterWrite := if u.startsLoad x then
      Function.update u.pendingRegisterWrite x.uop.robTag
        x.uop.registerWriteEnable
    else u.pendingRegisterWrite
  pendingAddress := if u.startsLoad x then
      Function.update u.pendingAddress x.uop.robTag (address x)
    else u.pendingAddress
  pendingOrigin := if u.startsLoad x then
      Function.update u.pendingOrigin x.uop.robTag x.uop.origin
    else u.pendingOrigin

end LoadStoreExecutionUnit

/-- `BackendExecuteStage` state. -/
structure BackendExecuteStage where
  primary : OoOExecutionUnit
  secondary : OoOExecutionUnit
  memory : LoadStoreExecutionUnit
  cacheFallbackValid : Bool
  cacheFallbackTag : RobTag
  recoveryFilterValid : Bool
  recoveryFilterMask : RobTag → Bool

namespace BackendExecuteStage

def reset : BackendExecuteStage where
  primary := default
  secondary := default
  memory := LoadStoreExecutionUnit.reset
  cacheFallbackValid := false
  cacheFallbackTag := 0
  recoveryFilterValid := false
  recoveryFilterMask := fun _ => false

/-- The one-cycle filter lets the tag through: `pAllowed` and its siblings. -/
def allowed (e : BackendExecuteStage) (tag : RobTag) : Bool :=
  !e.recoveryFilterValid || !e.recoveryFilterMask tag

/-- A completion register whose result reaches the ROB this cycle, or would if
its lane were free. -/
def visible (e : BackendExecuteStage) (c : Completion) : Bool :=
  c.valid && e.allowed c.robTag

/-- `pCompletionReady`: an LSU completion owns lane 0, but a primary result
that recovery killed is consumed at once. -/
def pCompletionReady (e : BackendExecuteStage) : Bool :=
  !e.visible e.memory.completion ||
    (e.primary.valid && !e.allowed e.primary.robTag)

/-- `pReady`. -/
def pReady (e : BackendExecuteStage) : Bool :=
  OoOExecutionUnit.issueReady e.primary e.pCompletionReady

/-- `sReady`; the secondary completion is always consumed. -/
def sReady (e : BackendExecuteStage) : Bool :=
  OoOExecutionUnit.issueReady e.secondary true

/-- The completion register that drives each completion lane. -/
def laneSource (e : BackendExecuteStage) : Lane → Completion
  | 0 => if e.visible e.memory.completion then e.memory.completion
      else e.primary
  | 1 => e.secondary

/-- The completion lanes. -/
def completion (e : BackendExecuteStage) (l : Lane) : Completion :=
  { e.laneSource l with valid := e.visible (e.laneSource l) }

/-- The write-back lanes. -/
def writeback (e : BackendExecuteStage) (l : Lane) : Writeback where
  valid := (e.laneSource l).writebackValid && e.allowed (e.laneSource l).robTag
  phys := (e.laneSource l).writebackPhys
  data := (e.laneSource l).writebackData

/-- `fallbackActive`. -/
def fallbackActive (e : BackendExecuteStage) (candidate0IsMemory : Bool)
    (uop0 : Uop) (lsqIssueReady : Bool) : Bool :=
  candidate0IsMemory &&
    (!lsqIssueReady ||
      (e.cacheFallbackValid && decide (e.cacheFallbackTag = uop0.robTag) &&
        !uop0.dataWriteEnable))

/-- The uop steered to the primary unit. -/
def primaryPort (candidate0IsMemory fallbackActive : Bool)
    (port0 fallback : IssuePort) : IssuePort :=
  if candidate0IsMemory then
    { fallback with
      valid := fallback.valid && fallbackActive
      uop := { fallback.uop with fuClass := .integer }
      csrReadData := port0.csrReadData }
  else port0

/-- The branch outputs: with a memory candidate they come from the secondary
unit, otherwise from whichever unit resolved. -/
def branchReport (candidate0IsMemory : Bool) (p s : BranchReport) :
    BranchReport :=
  if candidate0IsMemory then s
  else
    { (if s.resolved then s else p) with resolved := p.resolved || s.resolved }

/-- The registered cause of a fallback. -/
def nextCacheFallbackValid (flush recoverValid candidate0IsMemory : Bool)
    (uop0 : Uop) (lsqIssueReady lsqForwardValid memoryRequestReady : Bool) :
    Bool :=
  !flush && !recoverValid && candidate0IsMemory && lsqIssueReady &&
    !uop0.dataWriteEnable && !lsqForwardValid && !memoryRequestReady

def step (e : BackendExecuteStage) (candidate0IsMemory : Bool)
    (primary secondary : IssuePort) (x : LsuInputs) (uop0 : Uop) :
    BackendExecuteStage :=
  let cacheFallback := nextCacheFallbackValid x.flush x.recoverValid
    candidate0IsMemory uop0 x.orderingReady x.forwardValid x.memoryRequestReady
  { primary := OoOExecutionUnit.step e.primary x.flush e.pCompletionReady
      primary
    secondary := OoOExecutionUnit.step e.secondary x.flush true secondary
    memory := e.memory.step x
    cacheFallbackValid := cacheFallback
    cacheFallbackTag := if cacheFallback then uop0.robTag
      else e.cacheFallbackTag
    recoveryFilterValid := !x.flush && x.recoverValid
    recoveryFilterMask := if x.flush then fun _ => false
      else x.recoverYoungerMask }

end BackendExecuteStage

end OoOCore
