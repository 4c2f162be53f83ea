/-
`ScSignedCounterTable.sv` and `StatisticalCorrector.sv`: five families of
signed counters vote on the direction the tagged tables and the loop predictor
chose.  The tables are read with the next request, one stage before that
direction is known for it.
-/
import Mathlib.Algebra.Ring.Int.Defs
import OoOCore.TageTables

namespace OoOCore

/-- `sc_imli_t`. -/
abbrev ScImli := BitVec 10
/-- `sc_local_history_t`. -/
abbrev ScLocalHistory := BitVec 12
/-- A signed counter of the corrector. -/
abbrev ScCounter := BitVec 6
/-- `sc_score_t`. -/
abbrev ScScore := BitVec 12

/-- The word address folded to an index by three shifts. -/
def pcFold (width : Nat) (pc : Word) : BitVec width :=
  (pc >>> 2).setWidth width ^^^ (pc >>> (2 + width)).setWidth width ^^^
    (pc >>> (2 + 2 * width)).setWidth width

/-- One table of signed counters with its two read registers. -/
structure ScSignedCounterTable (width : Nat) where
  counterTable : BitVec width → ScCounter := fun _ => 0
  responseCounter : Lane → ScCounter := fun _ => 0

namespace ScSignedCounterTable

variable {width : Nat} (c : ScSignedCounterTable width)

/-- `COUNTER_MAX`. -/
def counterMax : ScCounter := 0b011111

/-- `COUNTER_MIN`. -/
def counterMin : ScCounter := 0b100000

def updatedCounter (updateIndex : BitVec width) (updateTaken : Bool) :
    ScCounter :=
  let counter := c.counterTable updateIndex
  if updateTaken then
    if counter = counterMax then counter else counter + 1
  else if counter = counterMin then counter else counter - 1

/-- The clock edge.  A read of the counter being written gets the new value. -/
def step (queryIndex : Lane → BitVec width) (updateValid : Bool)
    (updateIndex : BitVec width) (updateTaken : Bool) :
    ScSignedCounterTable width where
  counterTable := if updateValid then
      Function.update c.counterTable updateIndex
        (c.updatedCounter updateIndex updateTaken)
    else c.counterTable
  responseCounter := fun lane =>
    if updateValid && decide (updateIndex = queryIndex lane) then
      c.updatedCounter updateIndex updateTaken
    else c.counterTable (queryIndex lane)

end ScSignedCounterTable

structure StatisticalCorrector where
  bias : Fin 2 → ScSignedCounterTable 8 := fun _ => {}
  global : Fin 6 → ScSignedCounterTable 8 := fun _ => {}
  locals : Fin 4 → ScSignedCounterTable 9 := fun _ => {}
  imli : Fin 3 → ScSignedCounterTable 8 := fun _ => {}
  path : Fin 3 → ScSignedCounterTable 8 := fun _ => {}
  localHistoryTable : BitVec 8 → ScLocalHistory := fun _ => 0
  thresholdTable : BitVec 5 → ScCounter := fun _ => 0
  responseValid : Bool := false
  responseThresholdCounter : Lane → ScCounter := fun _ => 0
  localHistory : Lane → ScLocalHistory := fun _ => 0

namespace StatisticalCorrector

/-- The request of a lane. -/
structure Query where
  pc : Word
  globalFold : Fin 6 → BitVec 8
  path : PathHistory
  imli : ScImli

/-- The direction a lane arrives with. -/
structure Base where
  prediction : Bool
  strong : Bool
deriving DecidableEq, Repr

/-- A retired conditional branch. -/
structure Update where
  valid : Bool
  pc : Word
  history : TageHistory
  path : PathHistory
  localHistory : ScLocalHistory
  imli : ScImli
  taken : Bool
  base : Base
  finalPrediction : Bool
  score : ScScore
  lowConfidence : Bool

/-- The inputs of one cycle.  `query` belongs to the next response, `base` to
the present one. -/
structure Inputs where
  queryValid : Bool
  query : Lane → Query
  base : Lane → Base
  update : Update

section Hashes

def rotateGlobal : BitVec 8 → Nat → BitVec 8 := rotateBits
def rotateLocal : BitVec 9 → Nat → BitVec 9 := rotateBits
def rotateImli : BitVec 8 → Nat → BitVec 8 := rotateBits
def rotatePath : BitVec 8 → Nat → BitVec 8 := rotateBits

/-- `hashBias`.  Only the second table looks at more than the address. -/
def hashBias (pc : Word) (shortHistory : BitVec 8) (base : Base)
    (tableId : Nat) : BitVec 8 :=
  if tableId = 0 then pcFold 8 pc
  else
    rotateGlobal (pcFold 8 pc) 3 ^^^ shortHistory ^^^
      (BitVec.ofBool base.prediction).setWidth 8 <<< 7 ^^^
      (BitVec.ofBool base.strong).setWidth 8 <<< 6 ^^^ 0x5d

def hashLocalPc (pc : Word) : BitVec 8 := pcFold 8 pc

def hashThreshold (pc : Word) (base : Base) : BitVec 5 :=
  pcFold 5 pc ^^^ (pc >>> (2 + 3 * 5)).setWidth 5 ^^^
    (BitVec.ofBool base.prediction).setWidth 5 <<< 4 ^^^
    (BitVec.ofBool base.strong).setWidth 5 <<< 3

def hashGlobal (pc : Word) (historyFold : BitVec 8) (path : PathHistory)
    (tableId : Nat) : BitVec 8 :=
  let pathFold : BitVec 8 := path.setWidth 8 ^^^ (path >>> 8).setWidth 8
  rotateGlobal (pcFold 8 pc) (2 * tableId + 1) ^^^
    rotateGlobal historyFold (3 * tableId + 2) ^^^
    (if 3 ≤ tableId then rotateGlobal pathFold (tableId + 1) else 0) ^^^
    BitVec.ofNat 8 (tableId * 53 + 23)

def hashLocal (pc : Word) (history : ScLocalHistory) (path : PathHistory)
    (tableId : Nat) : BitVec 9 :=
  let selectedHistory : ScLocalHistory := match tableId with
    | 0 => history &&& 0x007
    | 1 => history &&& 0x03f
    | 2 => history &&& 0x1ff
    | _ => history
  let historyFold : BitVec 9 :=
    selectedHistory.setWidth 9 ^^^ (selectedHistory >>> 9).setWidth 9
  let pathFold : BitVec 9 := path.setWidth 9 ^^^ (path >>> 9).setWidth 9
  rotateLocal (pcFold 9 pc) (tableId + 1) ^^^
    rotateLocal historyFold (2 * tableId + 3) ^^^
    (if 2 ≤ tableId then rotateLocal pathFold (tableId + 2) else 0) ^^^
    BitVec.ofNat 9 (tableId * 113 + 41)

def hashImli (pc : Word) (imli : ScImli) (globalFold : BitVec 8)
    (path : PathHistory) (tableId : Nat) : BitVec 8 :=
  let imliFold : BitVec 8 := imli.setWidth 8 ^^^ (imli >>> 8).setWidth 8
  let pathFold : BitVec 8 := path.setWidth 8 ^^^ (path >>> 8).setWidth 8
  rotateImli (pcFold 8 pc) (2 * tableId + 1) ^^^
    rotateImli imliFold (tableId + 2) ^^^
    (if 1 ≤ tableId then rotateImli globalFold (tableId + 3) else 0) ^^^
    (if 2 ≤ tableId then rotateImli pathFold (tableId + 1) else 0) ^^^
    BitVec.ofNat 8 (tableId * 91 + 51)

def hashPath (pc : Word) (path : PathHistory) (tableId : Nat) : BitVec 8 :=
  let selectedPath : BitVec 8 := match tableId with
    | 0 => (path &&& 0x000f).setWidth 8
    | 1 => (path &&& 0x00ff).setWidth 8
    | _ => path.setWidth 8 ^^^ (path >>> 8).setWidth 8
  rotatePath (pcFold 8 pc) (2 * tableId + 1) ^^^
    rotatePath selectedPath (3 * tableId + 2) ^^^
    BitVec.ofNat 8 (tableId * 73 + 29)

/-- `fold64`. -/
def fold64 (history : BitVec 64) : BitVec 8 :=
  history.setWidth 8 ^^^ (history >>> 8).setWidth 8 ^^^
    (history >>> 16).setWidth 8 ^^^ (history >>> 24).setWidth 8 ^^^
    (history >>> 32).setWidth 8 ^^^ (history >>> 40).setWidth 8 ^^^
    (history >>> 48).setWidth 8 ^^^ (history >>> 56).setWidth 8

/-- `rebuildGlobalFold`: the folds of the saved history, one expression for
each component. -/
def rebuildGlobalFold (history : TageHistory) (tableId : Nat) : BitVec 8 :=
  match tableId with
  | 0 => (history &&& 3).setWidth 8
  | 1 => (history &&& 63).setWidth 8
  | 2 => history.setWidth 8 ^^^ (history >>> 8).setWidth 8
  | 3 => history.setWidth 8 ^^^ (history >>> 8).setWidth 8 ^^^
      (history >>> 16).setWidth 8
  | 4 => history.setWidth 8 ^^^ (history >>> 8).setWidth 8 ^^^
      (history >>> 16).setWidth 8 ^^^ (history >>> 24).setWidth 8 ^^^
      (history >>> 32).setWidth 8 ^^^ (history >>> 40).setWidth 8
  | _ => fold64 (history.extractLsb' 0 64) ^^^
      fold64 (history.extractLsb' 64 64) ^^^
      fold64 (history.extractLsb' 128 64)

/-- `SC_HISTORY_LENGTH` of the fold registers. -/
def historyLength (tableId : Nat) : Nat :=
  match tableId with
  | 0 => 2
  | 1 => 6
  | 2 => 12
  | 3 => 24
  | 4 => 48
  | _ => 192

/-- The global fold an IMLI table mixes in. -/
def imliFoldId : Fin 3 → Fin 6
  | 0 => 0
  | 1 => 1
  | 2 => 4

end Hashes

section Indices

variable (q : Query) (u : Update)

def queryBiasIndex (base : Base) (tableId : Fin 2) : BitVec 8 :=
  hashBias q.pc (q.globalFold 0) base tableId

def updateBiasIndex (tableId : Fin 2) : BitVec 8 :=
  hashBias u.pc (rebuildGlobalFold u.history 0) u.base tableId

def queryThresholdIndex (base : Base) : BitVec 5 := hashThreshold q.pc base

def updateThresholdIndex : BitVec 5 := hashThreshold u.pc u.base

def queryGlobalIndex (tableId : Fin 6) : BitVec 8 :=
  hashGlobal q.pc (q.globalFold tableId) q.path tableId

def updateGlobalIndex (tableId : Fin 6) : BitVec 8 :=
  hashGlobal u.pc (rebuildGlobalFold u.history tableId) u.path tableId

def queryImliIndex (tableId : Fin 3) : BitVec 8 :=
  hashImli q.pc q.imli (q.globalFold (imliFoldId tableId)) q.path tableId

def updateImliIndex (tableId : Fin 3) : BitVec 8 :=
  hashImli u.pc u.imli (rebuildGlobalFold u.history (imliFoldId tableId))
    u.path tableId

def queryPathIndex (tableId : Fin 3) : BitVec 8 :=
  hashPath q.pc q.path tableId

def updatePathIndex (tableId : Fin 3) : BitVec 8 :=
  hashPath u.pc u.path tableId

end Indices

section Wires

variable (c : StatisticalCorrector) (i : Inputs)

/-- `trainUpdate`. -/
def trainUpdate : Bool :=
  i.update.valid && (i.update.finalPrediction != i.update.taken ||
    i.update.lowConfidence)

def updateLocalHistoryIndex : BitVec 8 := hashLocalPc i.update.pc

/-- `advancedUpdateLocalHistory`. -/
def advancedUpdateLocalHistory : ScLocalHistory :=
  (c.localHistoryTable (updateLocalHistoryIndex i)).shiftConcat i.update.taken

def queryLocalHistory (lane : Lane) : ScLocalHistory :=
  let index := hashLocalPc (i.query lane).pc
  if i.update.valid && decide (updateLocalHistoryIndex i = index) then
    c.advancedUpdateLocalHistory i
  else c.localHistoryTable index

def queryLocalIndex (lane : Lane) (tableId : Fin 4) : BitVec 9 :=
  hashLocal (i.query lane).pc (c.queryLocalHistory i lane) (i.query lane).path
    tableId

def updateLocalIndex (tableId : Fin 4) : BitVec 9 :=
  hashLocal i.update.pc i.update.localHistory i.update.path tableId

/-- `LOW_CONFIDENCE_THRESHOLD`. -/
def lowConfidenceThreshold : Int := 23

/-- `THRESHOLD_MAX` and `THRESHOLD_MIN`. -/
def thresholdMax : ScCounter := 0b011111
def thresholdMin : ScCounter := 0b100000

/-- A wrong confident correction raises the threshold, a right timid one lowers
it. -/
def updatedThresholdCounter : ScCounter :=
  let u := i.update
  let counter := c.thresholdTable (updateThresholdIndex u)
  if u.finalPrediction != u.base.prediction &&
      u.finalPrediction != u.taken && u.base.strong && !u.lowConfidence &&
      decide (lowConfidenceThreshold < |u.score.toInt|) &&
      decide (counter ≠ thresholdMax) then counter + 1
  else if u.finalPrediction != u.base.prediction &&
      u.finalPrediction == u.taken && u.lowConfidence &&
      decide (counter ≠ thresholdMin) then counter - 1
  else counter

/-- The clock edge. -/
def step : StatisticalCorrector where
  bias := fun t => (c.bias t).step
    (fun lane => queryBiasIndex (i.query lane) (i.base lane) t)
    (trainUpdate i) (updateBiasIndex i.update t) i.update.taken
  global := fun t => (c.global t).step
    (fun lane => queryGlobalIndex (i.query lane) t) (trainUpdate i)
    (updateGlobalIndex i.update t) i.update.taken
  locals := fun t => (c.locals t).step
    (fun lane => c.queryLocalIndex i lane t) (trainUpdate i)
    (updateLocalIndex i t) i.update.taken
  imli := fun t => (c.imli t).step
    (fun lane => queryImliIndex (i.query lane) t) (trainUpdate i)
    (updateImliIndex i.update t) i.update.taken
  path := fun t => (c.path t).step
    (fun lane => queryPathIndex (i.query lane) t) (trainUpdate i)
    (updatePathIndex i.update t) i.update.taken
  localHistoryTable := if i.update.valid then
      Function.update c.localHistoryTable (updateLocalHistoryIndex i)
        (c.advancedUpdateLocalHistory i)
    else c.localHistoryTable
  thresholdTable := if i.update.valid then
      Function.update c.thresholdTable (updateThresholdIndex i.update)
        (c.updatedThresholdCounter i)
    else c.thresholdTable
  responseValid := i.queryValid
  responseThresholdCounter := fun lane =>
    let index := queryThresholdIndex (i.query lane) (i.base lane)
    if i.update.valid && decide (updateThresholdIndex i.update = index) then
      c.updatedThresholdCounter i
    else c.thresholdTable index
  localHistory := c.queryLocalHistory i

/-- `WEAK_BASE_WEIGHT` and `STRONG_BASE_WEIGHT`. -/
def baseWeight (base : Base) : Int := if base.strong then 62 else 20

/-- The votes of the families: bias, global, local, IMLI, path.  Division
truncates towards zero. -/
def familyScore (lane : Lane) : Fin 5 → Int
  | 0 => (((c.bias 0).responseCounter lane).toInt +
      ((c.bias 1).responseCounter lane).toInt).tdiv 2
  | 1 => (((List.finRange 6).map fun t =>
      ((c.global t).responseCounter lane).toInt).sum).tdiv 2
  | 2 => ((List.finRange 4).map fun t =>
      ((c.locals t).responseCounter lane).toInt).sum
  | 3 => ((List.finRange 3).map fun t =>
      ((c.imli t).responseCounter lane).toInt).sum
  | 4 => ((List.finRange 3).map fun t =>
      ((c.path t).responseCounter lane).toInt).sum

def familyTaken (lane : Lane) (family : Fin 5) : Bool :=
  decide (0 < c.familyScore lane family)

def familyValid (lane : Lane) (family : Fin 5) : Bool :=
  decide (c.familyScore lane family ≠ 0)

def accumulatedScore (lane : Lane) (base : Base) : Int :=
  ((List.finRange 5).map (c.familyScore lane)).sum +
    if base.prediction then baseWeight base else -baseWeight base

/-- `score_o`. -/
def score (lane : Lane) (base : Base) : ScScore :=
  BitVec.ofInt 12 (c.accumulatedScore lane base)

def candidatePrediction (lane : Lane) (base : Base) : Bool :=
  if c.accumulatedScore lane base = 0 then base.prediction
  else decide (0 < c.accumulatedScore lane base)

def dynamicThreshold (lane : Lane) : Int :=
  let threshold := lowConfidenceThreshold +
    (c.responseThresholdCounter lane).toInt
  if threshold < 8 then 8 else if 63 < threshold then 63 else threshold

/-- `lowConfidence_o`. -/
def lowConfidence (lane : Lane) (base : Base) : Bool :=
  decide (c.accumulatedScore lane base ≤ c.dynamicThreshold lane) &&
    decide (-c.dynamicThreshold lane ≤ c.accumulatedScore lane base)

/-- The families that vote for the candidate. -/
def agreementCount (lane : Lane) (base : Base) : Nat :=
  (List.finRange 5).countP fun family => c.familyValid lane family &&
    c.familyTaken lane family == c.candidatePrediction lane base

/-- `predictTaken_o`: a strong base is overruled by three families outside the
threshold, a weak one by two. -/
def predictTaken (lane : Lane) (base : Base) : Bool :=
  let candidate := c.candidatePrediction lane base
  if candidate != base.prediction then
    if base.strong && (c.lowConfidence lane base ||
        decide (c.agreementCount lane base < 3)) then base.prediction
    else if !base.strong && decide (c.agreementCount lane base < 2) then
      base.prediction
    else candidate
  else candidate

end Wires

end StatisticalCorrector

end OoOCore
