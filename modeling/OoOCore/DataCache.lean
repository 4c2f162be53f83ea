/-
`DataCache.sv`: a direct-mapped write-through data cache with a one-entry
lookup stage and a single miss-status register.  A load miss fetches its own
word first and the rest of the line behind it.
-/
import OoOCore.Execute

namespace OoOCore

/-- `address[4 +: 6]`. -/
abbrev CacheSet := BitVec 6

/-- `address[31 -: 22]`. -/
abbrev CacheTag := BitVec 22

/-- `address[2 +: 2]`. -/
abbrev LineWord := BitVec 2

/-- `refill_state_t`. -/
inductive RefillState where
  | idle | request | response
deriving DecidableEq, Repr

/-- The request fields of the CPU port. -/
structure CacheRequest where
  write : Bool := false
  address : Word := 0
  writeData : Word := 0
  access : MemAccess := .word
  id : RobTag := 0
deriving DecidableEq, Repr, Inhabited

/-- The response fields of the CPU port. -/
structure CacheResponse where
  data : Word
  id : RobTag
deriving DecidableEq, Repr

/-- The request fields of the backing port. -/
structure BackingRequest where
  write : Bool
  address : Word
  writeData : Word
  access : MemAccess
deriving DecidableEq, Repr

/-- The lookup stage: a request and what the arrays held for it. -/
structure LookupStage where
  stageValid : Bool := false
  request : CacheRequest := {}
  set : CacheSet := 0
  requestTag : CacheTag := 0
  word : LineWord := 0
  mmio : Bool := false
  mmioReadSent : Bool := false
  lineValid : Bool := false
  arrayTag : CacheTag := 0
  data : Word := 0

/-- The miss-status holding register with the refill it runs. -/
structure Mshr where
  valid : Bool := false
  address : Word := 0
  access : MemAccess := .word
  id : RobTag := 0
  set : CacheSet := 0
  tag : CacheTag := 0
  refillWord : LineWord := 0
  refillCount : LineWord := 0
  criticalReturned : Bool := false
  refillState : RefillState := .idle

structure DataCache where
  validArray : CacheSet → Bool
  tagArray : CacheSet → CacheTag
  /-- `dataBank0` to `dataBank3`. -/
  dataBank : LineWord → CacheSet → Word
  lookup : LookupStage
  mshr : Mshr

namespace DataCache

/-- The inputs of one cycle. -/
structure Inputs where
  requestValid : Bool
  request : CacheRequest
  responseReady : Bool
  memoryRequestReady : Bool
  memoryResponseValid : Bool
  memoryResponseData : Word

/-- The tag and data arrays are not reset. -/
def reset (tagArray : CacheSet → CacheTag)
    (dataBank : LineWord → CacheSet → Word) : DataCache where
  validArray := fun _ => false
  tagArray := tagArray
  dataBank := dataBank
  lookup := {}
  mshr := {}

def setOf (address : Word) : CacheSet := address.extractLsb' 4 6

def tagOf (address : Word) : CacheTag := address.extractLsb' 10 22

def wordOf (address : Word) : LineWord := address.extractLsb' 2 2

/-- `formatLoad`. -/
def formatLoad : Word → MemAccess → BitVec 2 → Word := formatLoadData

/-- `mergeStore`. -/
def mergeStore (currentWord writeData : Word) (access : MemAccess)
    (byteOffset : BitVec 2) : Word :=
  match access with
  | .byte =>
      match byteOffset.toNat with
      | 0 => currentWord.extractLsb' 8 24 ++ writeData.extractLsb' 0 8
      | 1 => currentWord.extractLsb' 16 16 ++ writeData.extractLsb' 0 8 ++
          currentWord.extractLsb' 0 8
      | 2 => currentWord.extractLsb' 24 8 ++ writeData.extractLsb' 0 8 ++
          currentWord.extractLsb' 0 16
      | _ => writeData.extractLsb' 0 8 ++ currentWord.extractLsb' 0 24
  | .half =>
      match byteOffset.toNat with
      | 0 => currentWord.extractLsb' 16 16 ++ writeData.extractLsb' 0 16
      | 1 => currentWord.extractLsb' 24 8 ++ writeData.extractLsb' 0 16 ++
          currentWord.extractLsb' 0 8
      | 2 => writeData.extractLsb' 0 16 ++ currentWord.extractLsb' 0 16
      | _ => currentWord
  | _ => writeData

/-- The address of a word of the line of `address`. -/
def lineAddress (address : Word) (word : LineWord) : Word :=
  address.extractLsb' 4 28 ++ word ++ 0#2

section Wires

variable (c : DataCache) (i : Inputs)

def incomingMmio : Bool := addressIsMmio i.request.address

def incomingCachedLoad : Bool := !i.request.write && !incomingMmio i

def incomingAllowedDuringRefill : Bool :=
  incomingCachedLoad i && decide (setOf i.request.address ≠ c.mshr.set)

def lookupHit : Bool :=
  c.lookup.lineValid && decide (c.lookup.arrayTag = c.lookup.requestTag)

def lookupCachedLoad : Bool :=
  c.lookup.stageValid && !c.lookup.request.write && !c.lookup.mmio

def lookupCachedStore : Bool :=
  c.lookup.stageValid && c.lookup.request.write && !c.lookup.mmio

def lookupMmioLoad : Bool :=
  c.lookup.stageValid && !c.lookup.request.write && c.lookup.mmio

def lookupMmioStore : Bool :=
  c.lookup.stageValid && c.lookup.request.write && c.lookup.mmio

def criticalResponseValid : Bool :=
  c.mshr.valid && c.mshr.refillState == .response &&
    !c.mshr.criticalReturned && i.memoryResponseValid

def lookupLoadHitResponseValid : Bool := c.lookupCachedLoad && c.lookupHit

def lookupMmioResponseValid : Bool :=
  c.lookupMmioLoad && c.lookup.mmioReadSent && i.memoryResponseValid

def lookupResponseSelected : Bool :=
  !c.criticalResponseValid i &&
    (c.lookupMmioResponseValid i || c.lookupLoadHitResponseValid)

/-- `responseValid_o` with the response fields. -/
def response : Option CacheResponse :=
  if c.criticalResponseValid i then
    some ⟨formatLoad i.memoryResponseData c.mshr.access
      (byteOffset c.mshr.address), c.mshr.id⟩
  else if c.lookupMmioResponseValid i then
    -- The backing memory formats uncached byte and half loads.
    some ⟨i.memoryResponseData, c.lookup.request.id⟩
  else if c.lookupLoadHitResponseValid then
    some ⟨formatLoad c.lookup.data c.lookup.request.access
      (byteOffset c.lookup.request.address), c.lookup.request.id⟩
  else none

def lookupResponseFire : Bool := c.lookupResponseSelected i && i.responseReady

def lookupMmioResponseFire : Bool :=
  c.lookupMmioResponseValid i && !c.criticalResponseValid i && i.responseReady

def lookupMissAllocate : Bool :=
  c.lookupCachedLoad && !c.lookupHit && !c.mshr.valid

/-- `memoryResponseReady_o`. -/
def memoryResponseReady : Bool :=
  match c.mshr.refillState with
  | .request => false
  | .response => c.mshr.criticalReturned || i.responseReady
  | .idle =>
      if c.lookupCachedStore then false
      else if (c.lookupMmioStore || c.lookupMmioLoad) &&
          !c.lookup.mmioReadSent then false
      else c.lookupMmioLoad && c.lookup.mmioReadSent && i.responseReady

def memoryResponseFire : Bool :=
  i.memoryResponseValid && c.memoryResponseReady i

/-- The refill read of a word of the missing line. -/
def refillRequest (word : LineWord) : BackingRequest where
  write := false
  address := lineAddress c.mshr.address word
  writeData := 0
  access := .word

/-- The uncached access or the write-through of the lookup stage. -/
def lookupRequest : BackingRequest where
  write := c.lookup.request.write
  address := c.lookup.request.address
  writeData := c.lookup.request.writeData
  access := c.lookup.request.access

/-- `memoryRequestValid_o` with the request fields. -/
def memoryRequest : Option BackingRequest :=
  match c.mshr.refillState with
  | .request => some (c.refillRequest c.mshr.refillWord)
  | .response =>
      if c.memoryResponseFire i && decide (c.mshr.refillCount ≠ 3) then
        some (c.refillRequest (c.mshr.refillWord + 1))
      else none
  | .idle =>
      if c.lookupCachedStore then some c.lookupRequest
      else if (c.lookupMmioStore || c.lookupMmioLoad) &&
          !c.lookup.mmioReadSent then some c.lookupRequest
      else none

def memoryRequestFire : Bool :=
  (c.memoryRequest i).isSome && i.memoryRequestReady

def lookupStoreFire : Bool :=
  c.lookupCachedStore && c.memoryRequestFire i &&
    c.mshr.refillState == .idle

def lookupMmioRequestFire : Bool :=
  (c.lookupMmioStore || (c.lookupMmioLoad && !c.lookup.mmioReadSent)) &&
    c.memoryRequestFire i && c.mshr.refillState == .idle

def lookupStageAdvance : Bool :=
  if c.lookupCachedLoad then
    if c.lookupHit then c.lookupResponseFire i else c.lookupMissAllocate
  else if c.lookupCachedStore then c.lookupStoreFire i
  else if c.lookupMmioStore then c.lookupMmioRequestFire i
  else if c.lookupMmioLoad && c.lookup.mmioReadSent then
    c.lookupMmioResponseFire i
  else false

def lookupStageSlotAvailable : Bool :=
  !c.lookup.stageValid || c.lookupStageAdvance i

/-- `requestReady_o`, out of reset. -/
def requestReady : Bool :=
  c.lookupStageSlotAvailable i && !c.lookupMissAllocate &&
    (!c.mshr.valid || c.incomingAllowedDuringRefill i)

def requestFire : Bool := i.requestValid && c.requestReady i

def arrayLookupReadEnable : Bool := c.requestFire i && !incomingMmio i

def arrayRefillWriteEnable : Bool :=
  c.mshr.refillState == .response && c.memoryResponseFire i

def arrayStoreWriteEnable : Bool := c.lookupStoreFire i && c.lookupHit

def mergedStoreData : Word :=
  mergeStore c.lookup.data c.lookup.request.writeData
    c.lookup.request.access (byteOffset c.lookup.request.address)

def incomingStoreBypass : Bool :=
  c.arrayStoreWriteEnable i &&
    decide (setOf i.request.address = c.lookup.set) &&
    decide (tagOf i.request.address = c.lookup.requestTag) &&
    decide (wordOf i.request.address = c.lookup.word)

/-- The last beat of the refill arrives. -/
def refillLast : Bool :=
  c.arrayRefillWriteEnable i && decide (c.mshr.refillCount = 3)

/-- `idle_o`. -/
def idle : Bool :=
  !c.mshr.valid && c.mshr.refillState == .idle && !c.lookup.stageValid

/-- The clock edge of the data banks: one write port. -/
def nextDataBank : LineWord → CacheSet → Word :=
  let write (word : LineWord) (set : CacheSet) (data : Word) :=
    Function.update c.dataBank word
      (Function.update (c.dataBank word) set data)
  if c.arrayRefillWriteEnable i then
    write c.mshr.refillWord c.mshr.set i.memoryResponseData
  else if c.arrayStoreWriteEnable i then
    write c.lookup.word c.lookup.set c.mergedStoreData
  else c.dataBank

def nextTagArray : CacheSet → CacheTag :=
  if c.refillLast i then
    Function.update c.tagArray c.mshr.set c.mshr.tag
  else c.tagArray

/-- A line is unreadable from the allocation of its miss to the last beat. -/
def nextValidArray : CacheSet → Bool :=
  let cleared := if c.lookupMissAllocate then
      Function.update c.validArray c.lookup.set false
    else c.validArray
  if c.refillLast i then Function.update cleared c.mshr.set true else cleared

/-- The next lookup stage.  An MMIO request leaves the array registers. -/
def nextLookup : LookupStage :=
  if c.requestFire i then
    { stageValid := true
      request := i.request
      set := setOf i.request.address
      requestTag := tagOf i.request.address
      word := wordOf i.request.address
      mmio := incomingMmio i
      mmioReadSent := false
      lineValid := if incomingMmio i then c.lookup.lineValid
        else c.validArray (setOf i.request.address)
      arrayTag := if incomingMmio i then c.lookup.arrayTag
        else c.tagArray (setOf i.request.address)
      data := if incomingMmio i then c.lookup.data
        else if c.incomingStoreBypass i then c.mergedStoreData
        else c.dataBank (wordOf i.request.address)
          (setOf i.request.address) }
  else
    { c.lookup with
      stageValid := c.lookup.stageValid && !c.lookupStageAdvance i
      mmioReadSent :=
        (c.lookupMmioLoad && !c.lookup.mmioReadSent &&
          c.lookupMmioRequestFire i) ||
        (c.lookup.mmioReadSent && !c.lookupStageAdvance i) }

/-- The register a miss is moved to. -/
def allocated : Mshr :=
  if c.lookupMissAllocate then
    { valid := true
      address := c.lookup.request.address
      access := c.lookup.request.access
      id := c.lookup.request.id
      set := c.lookup.set
      tag := c.lookup.requestTag
      refillWord := c.lookup.word
      refillCount := 0
      criticalReturned := false
      refillState := .request }
  else c.mshr

/-- The next miss-status register: allocation, then the refill machine. -/
def nextMshr : Mshr :=
  match c.mshr.refillState with
  | .idle => c.allocated
  | .request =>
      if c.memoryRequestFire i then
        { c.allocated with refillState := .response }
      else c.allocated
  | .response =>
      if c.memoryResponseFire i then
        if c.mshr.refillCount = 3 then
          { c.allocated with
            criticalReturned := true
            refillState := .idle
            valid := false }
        else
          { c.allocated with
            criticalReturned := true
            refillCount := c.mshr.refillCount + 1
            refillWord := c.mshr.refillWord + 1
            refillState := if c.memoryRequestFire i then .response
              else .request }
      else c.allocated

/-- The clock edge. -/
def step : DataCache where
  validArray := c.nextValidArray i
  tagArray := c.nextTagArray i
  dataBank := c.nextDataBank i
  lookup := c.nextLookup i
  mshr := c.nextMshr i

end Wires

end DataCache

end OoOCore
