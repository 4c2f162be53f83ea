/-
`dataMem.sv` and `MEMStages.sv`: the synchronous data RAM with its
memory-mapped registers, and the data cache in front of it.  The RAM decodes
the low 16 address bits, the tags of the cache all 32.
-/
import OoOCore.CacheProgress

namespace OoOCore

structure DataMem where
  mem : BitVec 14 → Word
  readWordReg : Word := 0
  readAccessReg : MemAccess := .word
  readByteOffsetReg : BitVec 2 := 0
  responseValidReg : Bool := false
  toHostReg : Word := 0
  uartValid : Bool := false
  uartData : BitVec 8 := 0

namespace DataMem

/-- The inputs of one cycle. -/
structure Inputs where
  requestValid : Bool
  request : BackingRequest
  responseReady : Bool
  fromHost : Word

/-- `requestAddress_i[LOGIC_ADDR_W-1:2]`. -/
def wordAddr (address : Word) : BitVec 14 := address.extractLsb' 2 14

def uartHit (address : Word) : Bool := decide (address = uartTxAddr)

def fromHostHit (address : Word) : Bool :=
  decide (wordIndex address = wordIndex fromHostAddr)

def toHostHit (address : Word) : Bool :=
  decide (wordIndex address = wordIndex toHostAddr)

/-- `storeByteMask`. -/
def storeByteMask : MemAccess → BitVec 2 → ByteMask :=
  LoadStoreQueue.storeByteMask

/-- `mergeStore`, and the byte enables of the RAM port. -/
def mergeStore : Word → Word → ByteMask → Word := StoreBuffer.mergeBytes

section Wires

variable (d : DataMem) (i : Inputs)

def responseSlotAvailable : Bool := !d.responseValidReg || i.responseReady

/-- `requestReady_o`, out of reset. -/
def requestReady : Bool := i.request.write || d.responseSlotAvailable i

def requestFire : Bool := i.requestValid && d.requestReady i

/-- `responseData_o`. -/
def responseData : Word :=
  formatLoadData d.readWordReg d.readAccessReg d.readByteOffsetReg

def writeByteEnable : ByteMask :=
  storeByteMask i.request.access (byteOffset i.request.address)

def shiftedWriteData : Word :=
  alignStoreData i.request.writeData i.request.access
    (byteOffset i.request.address)

/-- The RAM port. -/
def nextMem : BitVec 14 → Word :=
  if d.requestFire i && i.request.write && !toHostHit i.request.address &&
      !uartHit i.request.address && !fromHostHit i.request.address then
    Function.update d.mem (wordAddr i.request.address)
      (mergeStore (d.mem (wordAddr i.request.address)) (shiftedWriteData i)
        (writeByteEnable i))
  else d.mem

def nextReadWordReg : Word :=
  if d.requestFire i && !i.request.write then
    if fromHostHit i.request.address then i.fromHost
    else if toHostHit i.request.address then d.toHostReg
    else if uartHit i.request.address then 0
    else d.mem (wordAddr i.request.address)
  else d.readWordReg

def nextToHostReg : Word :=
  if d.requestFire i && i.request.write && toHostHit i.request.address then
    mergeStore d.toHostReg (shiftedWriteData i) (writeByteEnable i)
  else d.toHostReg

/-- A byte goes out to the UART. -/
def uartFire : Bool :=
  d.requestFire i && i.request.write && !toHostHit i.request.address &&
    uartHit i.request.address

/-- The clock edge. -/
def step : DataMem where
  mem := d.nextMem i
  readWordReg := d.nextReadWordReg i
  readAccessReg := if d.requestFire i && !i.request.write then
      i.request.access
    else d.readAccessReg
  readByteOffsetReg := if d.requestFire i && !i.request.write then
      byteOffset i.request.address
    else d.readByteOffsetReg
  responseValidReg := (d.requestFire i && !i.request.write) ||
    (d.responseValidReg && !i.responseReady)
  toHostReg := d.nextToHostReg i
  uartValid := d.uartFire i
  uartData := if d.uartFire i then i.request.writeData.setWidth 8
    else d.uartData

end Wires

/-- A request of the CPU presented to the memory itself. -/
def present (fromHost : Word) (q : CacheRequest) : Inputs where
  requestValid := true
  request := ⟨q.write, q.address, q.writeData, q.access⟩
  responseReady := true
  fromHost := fromHost

/-- The memory after some requests presented to it, one a cycle. -/
def alone (d : DataMem) (fromHost : Word) (requests : List CacheRequest) :
    DataMem :=
  requests.foldl (fun d q => d.step (present fromHost q)) d

end DataMem

structure MemStages where
  dataCache : DataCache
  dataMem : DataMem

namespace MemStages

/-- The inputs of one cycle. -/
structure Inputs where
  requestValid : Bool
  request : CacheRequest
  responseReady : Bool
  fromHost : Word

section Wires

variable (m : MemStages) (i : Inputs)

/-- What the cache sees apart from the request handshake of the memory, on
which no output of the cache to the memory depends. -/
def cachePorts (memoryRequestReady : Bool) : DataCache.Inputs where
  requestValid := i.requestValid
  request := i.request
  responseReady := i.responseReady
  memoryRequestReady := memoryRequestReady
  memoryResponseValid := m.dataMem.responseValidReg
  memoryResponseData := m.dataMem.responseData

def memoryRequest : Option BackingRequest :=
  m.dataCache.memoryRequest (m.cachePorts i false)

def memoryInputs : DataMem.Inputs where
  requestValid := (m.memoryRequest i).isSome
  request := (m.memoryRequest i).getD ⟨false, 0, 0, .word⟩
  responseReady := m.dataCache.memoryResponseReady (m.cachePorts i false)
  fromHost := i.fromHost

def cacheInputs : DataCache.Inputs :=
  m.cachePorts i (m.dataMem.requestReady (m.memoryInputs i))

/-- The clock edge. -/
def step : MemStages where
  dataCache := m.dataCache.step (m.cacheInputs i)
  dataMem := m.dataMem.step (m.memoryInputs i)

end Wires

/-- Reset clears the control registers.  The arrays of the cache, the RAM and
its read register keep what they held. -/
def reset (tagArray : CacheSet → CacheTag)
    (dataBank : LineWord → CacheSet → Word) (mem : BitVec 14 → Word)
    (readWord : Word) : MemStages where
  dataCache := DataCache.reset tagArray dataBank
  dataMem := { mem := mem, readWordReg := readWord }

end MemStages

end OoOCore
