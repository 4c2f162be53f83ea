/-
The part of `topCPU.sv` around the backend: the CSR file on the backend's CSR
and trap ports, and the fetch address that redirects and traps steer.
-/
import OoOCore.Backend

namespace OoOCore

/-- The backend, the CSR file and the retained fetch address of
`DualIfStages`. -/
structure Core where
  backend : Backend
  csr : CSRFile
  pc : Word

/-- What the predictor and the instruction cache report about the fetch
response of this cycle. -/
structure FetchResponse where
  consumed : Bool
  predictTaken : Bool
  predictTarget : Word
  predictTaken1 : Bool
  predictTarget1 : Word
  responsePc : Word

/-- The inputs of the core in one cycle: the fetch queue's two head packets,
the memory port, the predictor's training port and the fetch response. -/
structure CoreInputs where
  packet : Lane → FetchPacket
  memoryRequestReady : Bool
  memoryIdle : Bool
  response : MemoryResponse
  branchTrainReady : Bool
  fetch : FetchResponse

namespace Core

def reset : Core := ⟨Backend.reset, {}, resetVector⟩

section Wires

variable (c : Core) (x : CoreInputs)

/-- The backend's inputs: `csrReadData` is the CSR its own port selects. -/
def inputs : Inputs where
  packet := x.packet
  memoryRequestReady := x.memoryRequestReady
  memoryIdle := x.memoryIdle
  response := x.response
  csrReadData := c.csr.read c.backend.csrAddr
  branchTrainReady := x.branchTrainReady

def trapValid : Bool := c.backend.trapValid (c.inputs x)

def branch : BranchReport := c.backend.branch (c.inputs x)

def jumpEnable : Bool :=
  c.trapValid x || ((c.branch x).resolved && (c.branch x).mispredicted)

/-- `jump_address`: a trap wins over a redirect of the same cycle. -/
def jumpAddress : Word :=
  if c.trapValid x then c.csr.trapVector else (c.branch x).redirect

/-- `nextRequestPc`, which is also the address of the next fetch request.
`responseConsumed_o` is low while `jump_enable` is up. -/
def nextRequestPc : Word :=
  if c.jumpEnable x then c.jumpAddress x
  else if x.fetch.consumed then
    if x.fetch.predictTaken then x.fetch.predictTarget
    else if x.fetch.predictTaken1 then x.fetch.predictTarget1
    else x.fetch.responsePc + 8
  else c.pc

def step : Core where
  backend := c.backend.step (c.inputs x)
  csr := c.csr.step (c.backend.retireCount (c.inputs x))
    (c.backend.csrRequest (c.inputs x)) (c.backend.trap (c.inputs x))
    (c.backend.mretCommit (c.inputs x))
  pc := c.nextRequestPc x

end Wires

/-- The states reached from reset by some sequence of cycles. -/
inductive Reachable : Core → Prop
  | reset : Reachable reset
  | step {c : Core} (h : Reachable c) (x : CoreInputs) : Reachable (c.step x)

end Core

end OoOCore
