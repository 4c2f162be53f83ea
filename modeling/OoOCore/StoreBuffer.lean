/-
`StoreBuffer.sv`: the FIFO of retired cacheable stores, with its byte-merge
query for younger loads.
-/
import OoOCore.Types

namespace OoOCore

/-- Byte-lane enables of a four-byte word. -/
abbrev ByteMask := BitVec 4

/-- `rawWord >> (offset * 8)` and the sign or zero extension of the access:
`formatLoadData`, `formatForwardedLoad` and the caches' `formatLoad`. -/
def formatLoadData (rawWord : Word) (access : MemAccess) (offset : BitVec 2) :
    Word :=
  let shifted := rawWord >>> (offset.toNat * 8)
  match access with
  | .byte => (shifted.setWidth 8).signExtend 32
  | .half => (shifted.setWidth 16).signExtend 32
  | .byteU => (shifted.setWidth 8).setWidth 32
  | .halfU => (shifted.setWidth 16).setWidth 32
  | .word => rawWord

/-- `alignStoreData` of the store buffer and of `dataMem`, `expandStoreData` of
the LSQ. -/
def alignStoreData (storeData : Word) (access : MemAccess)
    (offset : BitVec 2) : Word :=
  match access with
  | .byte => (storeData.setWidth 8).setWidth 32 <<< (offset.toNat * 8)
  | .half => (storeData.setWidth 16).setWidth 32 <<< (offset.toNat * 8)
  | _ => storeData

def byteOffset (address : Word) : BitVec 2 := address.setWidth 2
/-- `address[31:2]`. -/
def wordIndex (address : Word) : BitVec 30 := address.extractLsb' 2 30

structure StoreBuffer where
  addressArray : Fin 8 → Word
  dataArray : Fin 8 → Word
  accessArray : Fin 8 → MemAccess
  headPtr : Fin 8
  tailPtr : Fin 8
  entryCount : Nat

namespace StoreBuffer

abbrev depth : Nat := 8

def reset : StoreBuffer where
  addressArray := fun _ => 0
  dataArray := fun _ => 0
  accessArray := fun _ => .byte
  headPtr := 0
  tailPtr := 0
  entryCount := 0

/-- `incrementPtr`: wraps after the last slot. -/
def incrementPtr (pointer : Fin 8) : Fin 8 := addPtr pointer 1

/-- `subtractPtr`: its `while` loop adds the depth until the result is a slot. -/
def subtractPtr (pointer : Fin 8) (decrement : Nat) : Fin 8 :=
  addPtr pointer (8 - decrement % 8)

def loadByteMask (access : MemAccess) (offset : BitVec 2) : ByteMask :=
  match access with
  | .byte | .byteU => 0b0001 <<< offset.toNat
  | .half | .halfU => if offset = 3 then 0 else 0b0011 <<< offset.toNat
  | .word => if offset = 0 then 0b1111 else 0

def storeByteMask (access : MemAccess) (offset : BitVec 2) : ByteMask :=
  match access with
  | .byte => 0b0001 <<< offset.toNat
  | .half => if offset = 3 then 0 else 0b0011 <<< offset.toNat
  | _ => if offset = 0 then 0b1111 else 0

def empty (b : StoreBuffer) : Bool := decide (b.entryCount = 0)
def full (b : StoreBuffer) : Bool := decide (b.entryCount = depth)

/-- The buffered store in a slot. -/
def entry (b : StoreBuffer) (j : Fin 8) : StoreRequest where
  address := b.addressArray j
  data := b.dataArray j
  access := b.accessArray j

def drainValid (b : StoreBuffer) : Bool := !b.empty

/-- `drainAddress_o`, `drainData_o` and `drainAccess_o`. -/
def drainRequest (b : StoreBuffer) : StoreRequest :=
  if b.empty then ⟨0, 0, .word⟩ else b.entry b.headPtr

def drainFire (b : StoreBuffer) (drainReady : Bool) : Bool :=
  b.drainValid && drainReady

/-- A drain on the same edge frees the slot of an enqueue into a full FIFO. -/
def enqueueReady (b : StoreBuffer) (drainReady : Bool) : Bool :=
  !b.full || b.drainFire drainReady

def enqueueFire (b : StoreBuffer) (enqueueValid drainReady : Bool) : Bool :=
  enqueueValid && b.enqueueReady drainReady

/-- Loop state of the youngest-first query. -/
structure QueryScan where
  covered : ByteMask
  rawData : Word

/-- `mergedWord[lane*8 +: 8] = data[lane*8 +: 8]` for the enabled lanes. -/
def mergeBytes (current new : Word) (enable : ByteMask) : Word :=
  let lane (k : Nat) : BitVec 8 :=
    if enable.getLsbD k then new.extractLsb' (8 * k) 8
    else current.extractLsb' (8 * k) 8
  lane 3 ++ lane 2 ++ lane 1 ++ lane 0

/-- One iteration of the query scan, `offset` entries before the youngest. -/
def queryStep (b : StoreBuffer) (address : Word) (loadMask : ByteMask)
    (acc : QueryScan) (offset : Nat) : QueryScan :=
  let e := b.entry (subtractPtr b.tailPtr (offset + 1))
  if offset < b.entryCount ∧ wordIndex e.address = wordIndex address then
    let storeMask := storeByteMask e.access (byteOffset e.address)
    let expanded := alignStoreData e.data e.access (byteOffset e.address)
    { covered := acc.covered ||| (storeMask &&& loadMask)
      rawData := mergeBytes acc.rawData expanded
        (storeMask &&& loadMask &&& ~~~acc.covered) }
  else acc

def queryScan (b : StoreBuffer) (address : Word) (access : MemAccess) :
    QueryScan :=
  (List.range depth).foldl
    (b.queryStep address (loadByteMask access (byteOffset address))) ⟨0, 0⟩

/-- `queryConflict_o`. -/
def queryConflict (b : StoreBuffer) (queryValid : Bool) (address : Word)
    (access : MemAccess) : Bool :=
  queryValid && decide ((b.queryScan address access).covered ≠ 0)

/-- `queryForwardValid_o`. -/
def queryForwardValid (b : StoreBuffer) (queryValid : Bool) (address : Word)
    (access : MemAccess) : Bool :=
  let loadMask := loadByteMask access (byteOffset address)
  queryValid && decide (loadMask ≠ 0) &&
    decide ((b.queryScan address access).covered &&& loadMask = loadMask)

/-- `queryForwardData_o`. -/
def queryForwardData (b : StoreBuffer) (queryValid : Bool) (address : Word)
    (access : MemAccess) : Word :=
  if b.queryForwardValid queryValid address access then
    formatLoadData (b.queryScan address access).rawData access
      (byteOffset address)
  else 0

def step (b : StoreBuffer) (enqueueValid : Bool) (request : StoreRequest)
    (drainReady : Bool) : StoreBuffer :=
  let enqueue := b.enqueueFire enqueueValid drainReady
  let drain := b.drainFire drainReady
  { addressArray := if enqueue then
        Function.update b.addressArray b.tailPtr request.address
      else b.addressArray
    dataArray := if enqueue then
        Function.update b.dataArray b.tailPtr request.data
      else b.dataArray
    accessArray := if enqueue then
        Function.update b.accessArray b.tailPtr request.access
      else b.accessArray
    headPtr := if drain then incrementPtr b.headPtr else b.headPtr
    tailPtr := if enqueue then incrementPtr b.tailPtr else b.tailPtr
    entryCount := b.entryCount + enqueue.toNat - drain.toNat }

end StoreBuffer

end OoOCore
