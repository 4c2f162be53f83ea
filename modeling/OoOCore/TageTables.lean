/-
`TageHash.sv`, `TageTable.sv` and `TageUpdateQueue.sv`: the keys of the tagged
tables, one table with its registered two-lane read, and the queue of retired
branches that train the tables.
-/
import OoOCore.FoldedHistory

namespace OoOCore

/-- A tagged table of the predictor, from the shortest history on. -/
abbrev TageTableId := Fin 8

/-- `tage_path_history_t`. -/
abbrev PathHistory := BitVec 16

/-- `TABLE_HISTORY_LENGTH`. -/
def tageHistoryLength : TageTableId → Nat
  | 0 => 4
  | 1 => 8
  | 2 => 16
  | 3 => 32
  | 4 => 64
  | 5 => 96
  | 6 => 128
  | 7 => 192

/-- `TABLE_TAG_WIDTH`. -/
def tageTagWidth : TageTableId → Nat
  | 0 => 7
  | 1 => 8
  | 2 => 9
  | 3 => 10
  | 4 => 11
  | 5 => 12
  | 6 => 13
  | 7 => 14

/-- `{value << rotation | value >> (width - rotation)}`, written out for every
index width. -/
def rotateBits {width : Nat} (value : BitVec width) (amount : Nat) :
    BitVec width :=
  let rotation := amount % width
  if rotation = 0 then value
  else value <<< rotation ||| value >>> (width - rotation)

namespace TageHash

section Constants

def indexPolynomial : TageTableId → BitVec 9
  | 0 => 0x01d
  | 1 => 0x02b
  | 2 => 0x04d
  | 3 => 0x087
  | 4 => 0x0b9
  | 5 => 0x12d
  | 6 => 0x163
  | 7 => 0x1cf

def indexSeed : TageTableId → BitVec 9
  | 0 => 0x013
  | 1 => 0x035
  | 2 => 0x059
  | 3 => 0x0a7
  | 4 => 0x0c3
  | 5 => 0x15d
  | 6 => 0x197
  | 7 => 0x1e5

def tagPolynomial (t : TageTableId) : BitVec (tageTagWidth t) :=
  BitVec.ofNat _ (match t with
    | 0 => 0x005b
    | 1 => 0x00b7
    | 2 => 0x016d
    | 3 => 0x02d5
    | 4 => 0x0539
    | 5 => 0x0ca7
    | 6 => 0x15b3
    | 7 => 0x2d2b)

def tagSeed (t : TageTableId) : BitVec (tageTagWidth t) :=
  BitVec.ofNat _ (match t with
    | 0 => 0x0025
    | 1 => 0x0067
    | 2 => 0x00d3
    | 3 => 0x01a9
    | 4 => 0x0357
    | 5 => 0x06b5
    | 6 => 0x0d4f
    | 7 => 0x1a93)

end Constants

section Crc

/-- One step of a cyclic redundancy check, for either polynomial. -/
def crcStep {width : Nat} (polynomial currentState : BitVec width)
    (inputBit : Bool) : BitVec width :=
  let nextState := currentState <<< 1
  if inputBit ^^ currentState.msb then nextState ^^^ polynomial else nextState

/-- `indexCrcStep`. -/
def indexCrcStep (t : TageTableId) : BitVec 9 → Bool → BitVec 9 :=
  crcStep (indexPolynomial t)

/-- `tagCrcStep`. -/
def tagCrcStep (t : TageTableId) :
    BitVec (tageTagWidth t) → Bool → BitVec (tageTagWidth t) :=
  crcStep (tagPolynomial t)

/-- `PC_HASH_BITS`. -/
def pcHashBits : Nat := 30

/-- The path bit an index step takes in. -/
def indexPathBit (t : TageTableId) (stepIndex : Nat) : Nat :=
  ((2 * t.val + 1) * stepIndex + t.val) % 16

/-- The path bit a tag step takes in. -/
def tagPathBit (t : TageTableId) (stepIndex : Nat) : Nat :=
  15 - ((2 * t.val + 1) * stepIndex + t.val) % 16

/-- The column of an address bit of `INDEX_PC_MATRIX`: the state of the check
run over that bit alone. -/
def indexPcColumn (t : TageTableId) (inputIndex : Nat) : BitVec 9 :=
  let state := (List.range pcHashBits).foldl (fun state stepIndex =>
    indexCrcStep t state (stepIndex == inputIndex)) 0
  (List.range 16).foldl (fun state _ => indexCrcStep t state false) state

/-- The column of a path bit of `INDEX_PATH_MATRIX`. -/
def indexPathColumn (t : TageTableId) (inputIndex : Nat) : BitVec 9 :=
  let state := (List.range pcHashBits).foldl (fun state _ =>
    indexCrcStep t state false) 0
  (List.range 16).foldl (fun state stepIndex =>
    indexCrcStep t state (indexPathBit t stepIndex == inputIndex)) state

/-- `INDEX_FINAL_SEED`. -/
def indexFinalSeed (t : TageTableId) : BitVec 9 :=
  (List.range (pcHashBits + 16)).foldl (fun state _ =>
    indexCrcStep t state false) (indexSeed t)

/-- The column of an address bit of `TAG_PC_MATRIX`; the address goes in from
its high end. -/
def tagPcColumn (t : TageTableId) (inputIndex : Nat) :
    BitVec (tageTagWidth t) :=
  let state := (List.range pcHashBits).foldl (fun state stepIndex =>
    tagCrcStep t state (pcHashBits - 1 - stepIndex == inputIndex)) 0
  (List.range 16).foldl (fun state _ => tagCrcStep t state false) state

/-- The column of a path bit of `TAG_PATH_MATRIX`. -/
def tagPathColumn (t : TageTableId) (inputIndex : Nat) :
    BitVec (tageTagWidth t) :=
  let state := (List.range pcHashBits).foldl (fun state _ =>
    tagCrcStep t state false) 0
  (List.range 16).foldl (fun state stepIndex =>
    tagCrcStep t state (tagPathBit t stepIndex == inputIndex)) state

/-- `TAG_FINAL_SEED`. -/
def tagFinalSeed (t : TageTableId) : BitVec (tageTagWidth t) :=
  (List.range (pcHashBits + 16)).foldl (fun state _ =>
    tagCrcStep t state false) (tagSeed t)

end Crc

section Keys

/-- The parity of the bits a row of a matrix selects, `column input` being the
matrix by columns. -/
def rowParity {width n : Nat} (column : Nat → BitVec width) (outputIndex : Nat)
    (bits : BitVec n) : Bool :=
  (List.range n).foldl (fun parity inputIndex =>
    parity ^^ (bits.getLsbD inputIndex &&
      (column inputIndex).getLsbD outputIndex)) false

/-- A hash of the address and the path: the seed and two parities for every
output bit. -/
def pcPathHash {width : Nat} (finalSeed : BitVec width)
    (pcColumn pathColumn : Nat → BitVec width) (pc : Word)
    (pathHistory : PathHistory) : BitVec width :=
  (List.range width).foldl (fun result outputIndex =>
    xorBit result outputIndex
      (finalSeed.getLsbD outputIndex ^^
        rowParity pcColumn outputIndex (pc.extractLsb' 2 30) ^^
        rowParity pathColumn outputIndex pathHistory)) 0

def indexPcPathHash (t : TageTableId) : Word → PathHistory → BitVec 9 :=
  pcPathHash (indexFinalSeed t) (indexPcColumn t) (indexPathColumn t)

def tagPcPathHash (t : TageTableId) :
    Word → PathHistory → BitVec (tageTagWidth t) :=
  pcPathHash (tagFinalSeed t) (tagPcColumn t) (tagPathColumn t)

/-- `makeIndex`. -/
def makeIndex (t : TageTableId) (pc : Word) (historyFold : BitVec 9)
    (pathHistory : PathHistory) : BitVec 9 :=
  indexPcPathHash t pc pathHistory ^^^ rotateBits historyFold (t.val + 1)

/-- `makeTag`.  The second fold is one bit shorter and enters above a zero. -/
def makeTag (t : TageTableId) (pc : Word)
    (historyFoldA : BitVec (tageTagWidth t))
    (historyFoldB : BitVec (tageTagWidth t - 1)) (pathHistory : PathHistory) :
    BitVec (tageTagWidth t) :=
  let expandedFoldB := historyFoldB.setWidth (tageTagWidth t) <<< 1
  tagPcPathHash t pc pathHistory ^^^ rotateBits historyFoldA (t.val + 1) ^^^
    rotateBits expandedFoldB (2 * t.val + 1)

/-- `foldIndexHistory`. -/
def foldIndexHistory (t : TageTableId) : TageHistory → BitVec 9 :=
  TageFoldedHistory.foldHistory (tageHistoryLength t) 9

/-- `foldTagHistoryA`. -/
def foldTagHistoryA (t : TageTableId) :
    TageHistory → BitVec (tageTagWidth t) :=
  TageFoldedHistory.foldHistory (tageHistoryLength t) (tageTagWidth t)

/-- `foldTagHistoryB`. -/
def foldTagHistoryB (t : TageTableId) :
    TageHistory → BitVec (tageTagWidth t - 1) :=
  TageFoldedHistory.foldHistory (tageHistoryLength t) (tageTagWidth t - 1)

/-- `updateIndex_o`: the index rebuilt from the saved histories. -/
def updateIndex (t : TageTableId) (pc : Word) (history : TageHistory)
    (pathHistory : PathHistory) : BitVec 9 :=
  makeIndex t pc (foldIndexHistory t history) pathHistory

/-- `updateTag_o`. -/
def updateTag (t : TageTableId) (pc : Word) (history : TageHistory)
    (pathHistory : PathHistory) : BitVec (tageTagWidth t) :=
  makeTag t pc (foldTagHistoryA t history) (foldTagHistoryB t history)
    pathHistory

end Keys

end TageHash

/-- What a table keeps for an index beside the tag. -/
structure TageEntry where
  valid : Bool := false
  counter : BitVec 3 := 0b011
  useful : BitVec 2 := 0
  generation : BitVec 5 := 0
deriving DecidableEq, Repr

/-- What a lane read for its last request. -/
structure TageRead (tagWidth : Nat) where
  entry : TageEntry := {}
  tag : BitVec tagWidth
  requestedTag : BitVec tagWidth

/-- One tagged table.  Bit zero of an index is the bank and the rest the row;
every lane has its own copy of the tags. -/
structure TageTable (tagWidth : Nat) where
  tagLane : Lane → BitVec 9 → BitVec tagWidth
  entryTable : BitVec 9 → TageEntry := fun _ => {}
  read : Lane → TageRead tagWidth

namespace TageTable

variable {tagWidth : Nat}

/-- The inputs of one cycle. -/
structure Inputs (tagWidth : Nat) where
  queryIndex : Lane → BitVec 9
  queryTag : Lane → BitVec tagWidth
  updateIndex : BitVec 9
  updateTag : BitVec tagWidth
  updateGeneration : BitVec 5
  providerUpdateValid : Bool
  updateTaken : Bool
  providerUsefulIncrement : Bool
  providerUsefulDecrement : Bool
  allocateValid : Bool
  replacementUsefulDecrement : Bool
  ageValid : Bool
  ageIndex : BitVec 9

/-- The tags are not reset. -/
def reset (tagLane : Lane → BitVec 9 → BitVec tagWidth)
    (tag requestedTag : Lane → BitVec tagWidth) : TageTable tagWidth where
  tagLane := tagLane
  read := fun lane => { tag := tag lane, requestedTag := requestedTag lane }

section Wires

variable (c : TageTable tagWidth) (i : Inputs tagWidth)

/-- The entry at the update index, `updateCurrent*`. -/
def updateCurrent : TageEntry := c.entryTable i.updateIndex

/-- `updateMatch_o`. -/
def updateMatch : Bool :=
  (c.updateCurrent i).valid &&
    decide ((c.updateCurrent i).generation = i.updateGeneration)

/-- `updateReplaceable_o` at an index. -/
def updateReplaceable (updateIndex : BitVec 9) : Bool :=
  !(c.entryTable updateIndex).valid ||
    decide ((c.entryTable updateIndex).useful = 0)

/-- `updateUseful_o` at an index. -/
def updateUseful (updateIndex : BitVec 9) : BitVec 2 :=
  (c.entryTable updateIndex).useful

def functionalWrite : Bool :=
  i.allocateValid || (i.providerUpdateValid && c.updateMatch i) ||
    (i.replacementUsefulDecrement && decide ((c.updateCurrent i).useful ≠ 0))

/-- The entry a functional write leaves: allocation, then the provider's
counters, then a useful decrement. -/
def functionalEntry : TageEntry :=
  let e := c.updateCurrent i
  if i.allocateValid then
    { valid := true
      counter := if i.updateTaken then 0b100 else 0b011
      useful := 0
      generation := e.generation + 1 }
  else if i.providerUpdateValid && c.updateMatch i then
    { e with
      counter := if i.updateTaken && decide (e.counter ≠ 0b111) then
          e.counter + 1
        else if !i.updateTaken && decide (e.counter ≠ 0b000) then
          e.counter - 1
        else e.counter
      useful := if i.providerUsefulIncrement && decide (e.useful ≠ 0b11) then
          e.useful + 1
        else if i.providerUsefulDecrement && decide (e.useful ≠ 0b00) then
          e.useful - 1
        else e.useful }
  else if i.replacementUsefulDecrement && decide (e.useful ≠ 0) then
    { e with useful := e.useful - 1 }
  else e

/-- Aging gives way to a functional write of the same entry. -/
def ageWrite : Bool :=
  i.ageValid && !(c.functionalWrite i && decide (i.ageIndex = i.updateIndex))

/-- `{1'b0, useful[1]}`. -/
def ageUseful : BitVec 2 := (c.entryTable i.ageIndex).useful >>> 1

/-- The entries after the edge. -/
def nextEntryTable : BitVec 9 → TageEntry :=
  let aged := if c.ageWrite i then
      Function.update c.entryTable i.ageIndex
        { c.entryTable i.ageIndex with useful := c.ageUseful i }
    else c.entryTable
  if c.functionalWrite i then
    Function.update aged i.updateIndex (c.functionalEntry i)
  else aged

/-- What a lane reads: the old entry with the writes of this edge forwarded. -/
def queryEntry (lane : Lane) : TageEntry :=
  let index := i.queryIndex lane
  let aged := if c.ageWrite i && decide (index = i.ageIndex) then
      { c.entryTable index with useful := c.ageUseful i }
    else c.entryTable index
  if c.functionalWrite i && decide (index = i.updateIndex) then
    c.functionalEntry i
  else aged

/-- The clock edge. -/
def step : TageTable tagWidth where
  tagLane := fun lane => if i.allocateValid then
      Function.update (c.tagLane lane) i.updateIndex i.updateTag
    else c.tagLane lane
  entryTable := c.nextEntryTable i
  read := fun lane =>
    { entry := c.queryEntry i lane
      tag := if i.allocateValid &&
          decide (i.queryIndex lane = i.updateIndex) then i.updateTag
        else c.tagLane lane (i.queryIndex lane)
      requestedTag := i.queryTag lane }

/-- `queryHit_o`. -/
def queryHit (lane : Lane) : Bool :=
  (c.read lane).entry.valid &&
    decide ((c.read lane).tag = (c.read lane).requestedTag)

/-- `queryPrediction_o`. -/
def queryPrediction (lane : Lane) : Bool := (c.read lane).entry.counter.msb

end Wires

end TageTable

/-- `tage_update_t`. -/
structure TageUpdate where
  isConditional : Bool := false
  pc : Word := 0
  taken : Bool := false
  tageMeta : TageMeta := {}

/-- `TageUpdateQueue`: the records in order, oldest first, of a four-entry
ring. -/
structure TageUpdateQueue where
  entries : BitVec 2 → TageUpdate := fun _ => {}
  head : BitVec 2 := 0
  tail : BitVec 2 := 0
  count : Nat := 0

namespace TageUpdateQueue

/-- `DEPTH`. -/
def depth : Nat := 4

section Wires

variable (q : TageUpdateQueue) (deqReady enqValid : Bool) (enqData : TageUpdate)

/-- `deqValid_o`. -/
def deqValid : Bool := decide (q.count ≠ 0)

/-- `deqData_o`. -/
def deqData : TageUpdate := q.entries q.head

def dequeue : Bool := q.deqValid && deqReady

/-- `enqReady_o`: a dequeue on the same edge frees its slot. -/
def enqReady : Bool := decide (q.count < depth) || q.dequeue deqReady

def enqueue : Bool := enqValid && q.enqReady deqReady

/-- The clock edge.  `LAST_PTR` is the last pointer value, so both pointers
wrap by themselves. -/
def step : TageUpdateQueue where
  entries := if q.enqueue deqReady enqValid then
      Function.update q.entries q.tail enqData
    else q.entries
  tail := if q.enqueue deqReady enqValid then q.tail + 1 else q.tail
  head := if q.dequeue deqReady then q.head + 1 else q.head
  count := q.count + (if q.enqueue deqReady enqValid then 1 else 0) -
    if q.dequeue deqReady then 1 else 0

end Wires

end TageUpdateQueue

end OoOCore
