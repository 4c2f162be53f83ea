/-
`LoadStoreQueue.sv`: the program-order queue of unretired loads and stores,
its ordering query with store-to-load forwarding, and late store-data capture.
-/
import OoOCore.StoreBuffer
import OoOCore.Rename

namespace OoOCore

structure LoadStoreQueue where
  entries : LsqTag → LsqEntry
  headPtr : LsqTag
  tailPtr : LsqTag
  entryCount : Nat

/-- `issueReady_o`, `issueForwardValid_o` and `issueForwardData_o`. -/
structure LsqQuery where
  ready : Bool
  forwardValid : Bool
  forwardData : Word

/-- The address/data port the execution unit drives; the second update lane of
the source is tied off. -/
structure LsqUpdate where
  addressValid : Bool
  storeDataValid : Bool
  tag : LsqTag
  address : Word
  storeData : Word

namespace LoadStoreQueue

abbrev depth : Nat := 16

def reset : LoadStoreQueue where
  entries := fun _ => default
  headPtr := 0
  tailPtr := 0
  entryCount := 0

def loadByteMask (access : MemAccess) (offset : BitVec 2) : ByteMask :=
  match access with
  | .byte | .byteU => 0b0001 <<< offset.toNat
  | .half | .halfU => 0b0011 <<< offset.toNat
  | .word => 0b1111

def storeByteMask (access : MemAccess) (offset : BitVec 2) : ByteMask :=
  match access with
  | .byte => 0b0001 <<< offset.toNat
  | .half => if offset = 3 then 0 else 0b0011 <<< offset.toNat
  | _ => 0b1111

def allocReady (q : LoadStoreQueue) (allocValid : Lane → Bool) : Lane → Bool
  | 0 => decide (q.entryCount < depth)
  | 1 => decide (q.entryCount +
      (if allocValid 0 ∧ q.entryCount < depth then 1 else 0) < depth)

def allocTag (q : LoadStoreQueue) (allocValid : Lane → Bool) : Lane → LsqTag
  | 0 => q.tailPtr
  | 1 => if allocValid 0 ∧ q.entryCount < depth then addPtr q.tailPtr 1
      else q.tailPtr

def allocFire (q : LoadStoreQueue) (allocValid : Lane → Bool) (l : Lane) :
    Bool :=
  allocValid l && q.allocReady allocValid l

def allocAccepted (q : LoadStoreQueue) (allocValid : Lane → Bool) : Nat :=
  (q.allocFire allocValid 0).toNat + (q.allocFire allocValid 1).toNat

/-- `headEntry_o`. -/
def headEntry (q : LoadStoreQueue) (k : Nat) : LsqEntry :=
  if k < q.entryCount then q.entries (addPtr q.headPtr k) else default

/-- `headTag_o`. -/
def headTag (q : LoadStoreQueue) (k : Nat) : LsqTag :=
  if k < q.entryCount then addPtr q.headPtr k else 0

/-- `retireAccepted`. -/
def retireAccepted (q : LoadStoreQueue) (retireCount : Nat) : Nat :=
  min (min retireCount q.entryCount) 2

/-- Loop state of the ordering query. -/
structure QueryScan extends LsqQuery where
  found : Bool

/-- The effect of one older store on the query. -/
def queryStore (e : LsqEntry) (address : Word) (access : MemAccess)
    (acc : QueryScan) : QueryScan :=
  let loadMask := loadByteMask access (byteOffset address)
  if ¬ e.addressReady then { acc with ready := false }
  else if addressIsMmio e.address then { acc with ready := false }
  else if wordIndex e.address = wordIndex address then
    let storeMask := storeByteMask e.memCtr (byteOffset e.address)
    if storeMask &&& loadMask ≠ 0 then
      if storeMask &&& loadMask = loadMask ∧ e.dataReady then
        { acc with
          forwardValid := true
          forwardData := formatLoadData
            (alignStoreData e.storeData e.memCtr (byteOffset e.address))
            access (byteOffset address) }
      else { acc with ready := false }
    else acc
  else acc

/-- One iteration of the oldest-to-youngest scan. -/
def queryStep (q : LoadStoreQueue) (tag : LsqTag) (address : Word)
    (access : MemAccess) (acc : QueryScan) (offset : Nat) : QueryScan :=
  let index := addPtr q.headPtr offset
  if offset < q.entryCount ∧ ¬ acc.found then
    if index = tag then { acc with found := true }
    else if (q.entries index).valid ∧ (q.entries index).isStore then
      queryStore (q.entries index) address access acc
    else acc
  else acc

def queryScan (q : LoadStoreQueue) (tag : LsqTag) (address : Word)
    (access : MemAccess) : QueryScan :=
  (List.range depth).foldl (q.queryStep tag address access)
    ⟨⟨true, false, 0⟩, false⟩

/-- The ordering query of the memory candidate. -/
def query (q : LoadStoreQueue) (issueValid : Bool) (tag : LsqTag)
    (address : Word) (access : MemAccess) : LsqQuery :=
  if issueValid ∧ (q.entries tag).valid then
    if (q.entries tag).isStore then ⟨true, false, 0⟩
    else if (q.entries tag).isLoad then
      let scan := q.queryScan tag address access
      { scan.toLsqQuery with ready := scan.ready && scan.found }
    else ⟨false, false, 0⟩
  else ⟨false, false, 0⟩

/-- `recoveryRetainedCount`. -/
def recoveryRetainedCount (q : LoadStoreQueue) (mask : RobTag → Bool) : Nat :=
  (List.range depth).countP fun offset =>
    let e := q.entries (addPtr q.headPtr offset)
    decide (offset < q.entryCount) && e.valid && !mask e.robTag

/-- Entries named by the update port and not removed by a recovery. -/
def updateTarget (q : LoadStoreQueue) (hidden : RobTag → Bool)
    (tag : LsqTag) : Bool :=
  (q.entries tag).valid && !hidden (q.entries tag).robTag

def applyUpdate (q : LoadStoreQueue) (hidden : RobTag → Bool)
    (u : LsqUpdate) (next : LsqTag → LsqEntry) : LsqTag → LsqEntry :=
  let addressed := if u.addressValid ∧ q.updateTarget hidden u.tag then
      Function.update next u.tag
        { next u.tag with addressReady := true, address := u.address }
    else next
  if u.storeDataValid ∧ q.updateTarget hidden u.tag then
    Function.update addressed u.tag
      { addressed u.tag with dataReady := true, storeData := u.storeData }
  else addressed

/-- Write-back snoop of one lane into the stores that still lack data. -/
def snoopLane (q : LoadStoreQueue) (hidden : RobTag → Bool) (w : Writeback)
    (next : LsqTag → LsqEntry) : LsqTag → LsqEntry := fun tag =>
  let e := q.entries tag
  if e.valid ∧ e.isStore ∧ ¬ e.dataReady ∧ ¬ hidden e.robTag ∧ w.valid ∧
      w.phys = e.storeDataPhys then
    { next tag with dataReady := true, storeData := w.data }
  else next tag

def snoop (q : LoadStoreQueue) (hidden : RobTag → Bool)
    (wb : Lane → Writeback) (next : LsqTag → LsqEntry) : LsqTag → LsqEntry :=
  q.snoopLane hidden (wb 1) (q.snoopLane hidden (wb 0) next)

/-- The entry written at allocation: `x0` store data is ready at once. -/
def allocWrite (e : LsqEntry) : LsqEntry :=
  if e.isStore ∧ e.storeDataPhys = 0 then
    { e with valid := true, dataReady := true, storeData := 0 }
  else { e with valid := true }

def allocLane (fire : Bool) (tag : LsqTag) (e : LsqEntry)
    (next : LsqTag → LsqEntry) : LsqTag → LsqEntry :=
  if fire then Function.update next tag (allocWrite e) else next

def clearRetired (q : LoadStoreQueue) (accepted : Nat)
    (next : LsqTag → LsqEntry) : LsqTag → LsqEntry :=
  let first := if 0 < accepted then
      Function.update next (addPtr q.headPtr 0) default
    else next
  if 1 < accepted then Function.update first (addPtr q.headPtr 1) default
  else first

def stepRecover (q : LoadStoreQueue) (mask : RobTag → Bool) (u : LsqUpdate)
    (wb : Lane → Writeback) : LoadStoreQueue :=
  let cleared := fun tag =>
    if (q.entries tag).valid ∧ mask (q.entries tag).robTag then default
    else q.entries tag
  { q with
    entries := q.snoop mask wb (q.applyUpdate mask u cleared)
    tailPtr := addPtr q.headPtr (q.recoveryRetainedCount mask)
    entryCount := q.recoveryRetainedCount mask }

def stepNormal (q : LoadStoreQueue) (allocValid : Lane → Bool)
    (allocEntry : Lane → LsqEntry) (u : LsqUpdate) (wb : Lane → Writeback)
    (retireCount : Nat) : LoadStoreQueue :=
  let accepted := q.retireAccepted retireCount
  let cleared := q.clearRetired accepted q.entries
  let allocated :=
    allocLane (q.allocFire allocValid 1) (q.allocTag allocValid 1)
      (allocEntry 1)
      (allocLane (q.allocFire allocValid 0) (q.allocTag allocValid 0)
        (allocEntry 0) cleared)
  { entries := q.snoop (fun _ => false) wb
      (q.applyUpdate (fun _ => false) u allocated)
    headPtr := addPtr q.headPtr accepted
    tailPtr := addPtr q.tailPtr (q.allocAccepted allocValid)
    entryCount := q.entryCount + q.allocAccepted allocValid - accepted }

def step (q : LoadStoreQueue) (flush recoverValid : Bool)
    (mask : RobTag → Bool) (allocValid : Lane → Bool)
    (allocEntry : Lane → LsqEntry) (u : LsqUpdate) (wb : Lane → Writeback)
    (retireCount : Nat) : LoadStoreQueue :=
  if flush then reset
  else if recoverValid then q.stepRecover mask u wb
  else q.stepNormal allocValid allocEntry u wb retireCount

end LoadStoreQueue

end OoOCore
