/-
`insnMem.sv` and `InstructionCache.sv`: the one-cycle instruction memory and
the blocking direct-mapped cache in front of it.  A fetch pair is looked up in
both of its lines; each missing line is refilled word by word and the lookup is
then retried.
-/
import OoOCore.Types

namespace OoOCore

/-- The instruction memory and its response register. -/
structure InsnMem where
  mem : BitVec 14 → Word
  responseValid : Bool := false
  responseWord : Word

namespace InsnMem

/-- `requestAddr_i[MEM_ADDR_W-1:2]`. -/
def requestWordAddr (address : Word) : BitVec 14 := address.extractLsb' 2 14

/-- The word of an image at a fetch address. -/
def wordAt (mem : BitVec 14 → Word) (pc : Word) : Word :=
  mem (requestWordAddr pc)

/-- The clock edge.  `requestReady_o` is always high. -/
def step (m : InsnMem) (requestValid : Bool) (requestAddr : Word) : InsnMem where
  mem := m.mem
  responseValid := requestValid
  responseWord := if requestValid then wordAt m.mem requestAddr
    else m.responseWord

end InsnMem

/-- `LINE_W` bits, by words. -/
abbrev InsnLine := BitVec 2 → Word

/-- The lookup context of a lane and what the arrays held for it. -/
structure InsnLookup where
  pc : Word := 0
  tag : BitVec 20 := 0
  readValid : Bool := false
  readTag : BitVec 20
  readLine : InsnLine

/-- The refill of the missing lines of a fetch pair. -/
structure InsnRefill where
  active : Bool := false
  lineBase : Word := 0
  index : BitVec 8 := 0
  tag : BitVec 20 := 0
  secondPending : Bool := false
  secondLineBase : Word := 0
  issuedCount : BitVec 3 := 0
  receivedCount : BitVec 3 := 0
  buffer : InsnLine := fun _ => 0

structure InstructionCache where
  tagArray : BitVec 8 → BitVec 20
  dataArray : BitVec 8 → InsnLine
  validArray : BitVec 8 → Bool := fun _ => false
  lookupValid : Bool := false
  lookup : Lane → InsnLookup
  retryPending : Bool := false
  refill : InsnRefill := {}

namespace InstructionCache

/-- The inputs of one cycle. -/
structure Inputs where
  flush : Bool
  requestValid : Bool
  requestPc : Lane → Word
  responseReady : Bool
  backingResponseValid : Bool
  backingResponseWord : Word

/-- The arrays and the read registers are not reset. -/
def reset (tagArray : BitVec 8 → BitVec 20) (dataArray : BitVec 8 → InsnLine)
    (readTag : Lane → BitVec 20) (readLine : Lane → InsnLine) :
    InstructionCache where
  tagArray := tagArray
  dataArray := dataArray
  lookup := fun lane => { readTag := readTag lane, readLine := readLine lane }

def lineBase (address : Word) : Word := address.extractLsb' 4 28 ++ 0#4

def lineIndex (address : Word) : BitVec 8 := address.extractLsb' 4 8

def lineTag (address : Word) : BitVec 20 := address.extractLsb' 12 20

/-- `lookupPc[3:2]`. -/
def responseWordIndex (address : Word) : BitVec 2 := address.extractLsb' 2 2

section Wires

variable (c : InstructionCache) (i : Inputs)

/-- `lookupHit` and `lookupHit1`. -/
def lookupHit (lane : Lane) : Bool :=
  c.lookupValid && (c.lookup lane).readValid &&
    decide ((c.lookup lane).readTag = (c.lookup lane).tag)

/-- `responseValid_o`. -/
def responseValid (flush : Bool) : Bool :=
  !flush && c.lookupHit 0 && c.lookupHit 1

/-- `responseInsn_o` and `responseInsn1_o`. -/
def responseInsn (flush : Bool) (lane : Lane) : Word :=
  if c.responseValid flush then
    (c.lookup lane).readLine (responseWordIndex (c.lookup lane).pc)
  else 0

/-- `requestReady_o`, out of reset. -/
def requestReady (flush responseReady : Bool) : Bool :=
  flush || (!c.refill.active && !c.retryPending &&
    (!c.lookupValid || (c.responseValid flush && responseReady)))

def requestFire : Bool :=
  i.requestValid && c.requestReady i.flush i.responseReady

/-- `backingRequestValid_o`. -/
def backingRequestValid (flush : Bool) : Bool :=
  !flush && c.refill.active && decide (c.refill.issuedCount < 4)

/-- `backingRequestAddr_o`. -/
def backingRequestAddr : Word :=
  c.refill.lineBase + c.refill.issuedCount.setWidth 32 <<< 2

/-- `arrayWriteEnable`: the last word of a line arrives. -/
def arrayWriteEnable : Bool :=
  !i.flush && c.refill.active && i.backingResponseValid &&
    decide (c.refill.receivedCount = 3)

def arrayReadEnable : Bool :=
  (c.requestFire i && !c.arrayWriteEnable i) || c.retryPending

def arrayReadIndex (lane : Lane) : BitVec 8 :=
  if c.requestFire i then lineIndex (i.requestPc lane)
  else lineIndex (c.lookup lane).pc

def refillBufferWithResponse : InsnLine := fun word =>
  if c.refill.receivedCount = word.setWidth 3 then i.backingResponseWord
  else c.refill.buffer word

/-- The refill a failed lookup starts: the older address first, the second one
when it lies in another line that misses too. -/
def startRefill : InsnRefill :=
  let pc := (c.lookup 0).pc
  let pc1 := (c.lookup 1).pc
  if !c.lookupHit 0 then
    { active := true
      lineBase := lineBase pc
      index := lineIndex pc
      tag := lineTag pc
      secondPending := decide (lineBase pc1 ≠ lineBase pc) && !c.lookupHit 1
      secondLineBase := lineBase pc1 }
  else
    { active := true
      lineBase := lineBase pc1
      index := lineIndex pc1
      tag := lineTag pc1 }

/-- A cycle of an active refill. -/
def advanceRefill : InsnRefill :=
  let r := c.refill
  let issuedCount := if c.backingRequestValid i.flush then r.issuedCount + 1
    else r.issuedCount
  if i.backingResponseValid then
    if r.receivedCount = 3 then
      if r.secondPending then
        { active := true
          lineBase := r.secondLineBase
          index := lineIndex r.secondLineBase
          tag := lineTag r.secondLineBase
          secondLineBase := r.secondLineBase }
      else
        { r with
          active := false
          issuedCount := 0
          receivedCount := 0
          buffer := fun _ => 0 }
    else
      { r with
        issuedCount := issuedCount
        receivedCount := r.receivedCount + 1
        buffer := c.refillBufferWithResponse i }
  else { r with issuedCount := issuedCount }

def nextRefill : InsnRefill :=
  if i.flush then
    { c.refill with
      active := false
      secondPending := false
      issuedCount := 0
      receivedCount := 0
      buffer := fun _ => 0 }
  else if c.refill.active then c.advanceRefill i
  else if c.retryPending then c.refill
  else if c.lookupValid && !c.responseValid i.flush then c.startRefill
  else c.refill

/-- `lookupValid`.  An accepted request overrides what the old one does. -/
def nextLookupValid : Bool :=
  if c.requestFire i then !c.arrayWriteEnable i
  else if i.flush then false
  else if c.refill.active then c.lookupValid
  else if c.retryPending then true
  else c.lookupValid && c.responseValid i.flush && !i.responseReady

def nextRetryPending : Bool :=
  if c.requestFire i && c.arrayWriteEnable i then true
  else if i.flush then false
  else if c.refill.active then
    (c.arrayWriteEnable i && !c.refill.secondPending) || c.retryPending
  else false

/-- The lookup context of a lane after the edge. -/
def nextLookup (lane : Lane) : InsnLookup :=
  let l := c.lookup lane
  let reads := !c.arrayWriteEnable i && c.arrayReadEnable i
  let index := c.arrayReadIndex i lane
  { pc := if c.requestFire i then i.requestPc lane else l.pc
    tag := if c.requestFire i then lineTag (i.requestPc lane) else l.tag
    readValid := if c.requestFire i && !c.arrayWriteEnable i then
        c.validArray (lineIndex (i.requestPc lane))
      else if !i.flush && !c.refill.active && c.retryPending then
        c.validArray (lineIndex l.pc)
      else l.readValid
    readTag := if reads then c.tagArray index else l.readTag
    readLine := if reads then c.dataArray index else l.readLine }

/-- The clock edge. -/
def step : InstructionCache where
  tagArray := if c.arrayWriteEnable i then
      Function.update c.tagArray c.refill.index c.refill.tag
    else c.tagArray
  dataArray := if c.arrayWriteEnable i then
      Function.update c.dataArray c.refill.index (c.refillBufferWithResponse i)
    else c.dataArray
  validArray := if c.arrayWriteEnable i then
      Function.update c.validArray c.refill.index true
    else c.validArray
  lookupValid := c.nextLookupValid i
  lookup := c.nextLookup i
  retryPending := c.nextRetryPending i
  refill := c.nextRefill i

end Wires

end InstructionCache

end OoOCore
