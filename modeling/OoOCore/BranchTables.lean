/-
`BranchTargetBuffer.sv`, `BimodalPredictor.sv` and `ReturnAddressStack.sv`: the
tables of the branch predictor that are read in the response cycle.
-/
import OoOCore.Types

namespace OoOCore

/-- One way of a set of the branch target buffer. -/
structure BtbEntry where
  valid : Bool := false
  tag : BitVec 24 := 0
  target : Word := 0
  conditional : Bool := false

structure BranchTargetBuffer where
  way : BitVec 6 → Fin 2 → BtbEntry := fun _ _ => {}
  replaceWay : BitVec 6 → Fin 2 := fun _ => 0

namespace BranchTargetBuffer

/-- `pc[INDEX_W+1:2]`. -/
def setOf (pc : Word) : BitVec 6 := pc.extractLsb' 2 6

/-- `pc[WORD_SIZE-1:INDEX_W+2]`. -/
def tagOf (pc : Word) : BitVec 24 := pc.extractLsb' 8 24

variable (b : BranchTargetBuffer)

def matchesWay (pc : Word) (w : Fin 2) : Bool :=
  (b.way (setOf pc) w).valid && decide ((b.way (setOf pc) w).tag = tagOf pc)

/-- The lookup of a port: the last matching way, if any. -/
def lookup (pc : Word) : Option BtbEntry :=
  if b.matchesWay pc 1 then some (b.way (setOf pc) 1)
  else if b.matchesWay pc 0 then some (b.way (setOf pc) 0)
  else none

/-- `hit_o`. -/
def hit (pc : Word) : Bool := (b.lookup pc).isSome

/-- `target_o`, also `hintTarget_o`. -/
def target (pc : Word) : Word := ((b.lookup pc).map BtbEntry.target).getD 0

/-- `hintControl_o`. -/
def hintControl (pc : Word) : Bool := b.hit pc

/-- `hintConditional_o`. -/
def hintConditional (pc : Word) : Bool :=
  ((b.lookup pc).map BtbEntry.conditional).getD false

def selectedWay (updatePc : Word) : Fin 2 :=
  if b.matchesWay updatePc 0 then 0
  else if b.matchesWay updatePc 1 then 1
  else if !(b.way (setOf updatePc) 0).valid then 0
  else if !(b.way (setOf updatePc) 1).valid then 1
  else b.replaceWay (setOf updatePc)

/-- The clock edge: only taken branches are written. -/
def step (updateValid : Bool) (updatePc : Word)
    (updateIsConditional updateTaken : Bool) (updateTarget : Word) :
    BranchTargetBuffer :=
  if updateValid && updateTaken then
    let w := b.selectedWay updatePc
    { way := Function.update b.way (setOf updatePc)
        (Function.update (b.way (setOf updatePc)) w
          { valid := true
            tag := tagOf updatePc
            target := updateTarget
            conditional := updateIsConditional })
      replaceWay := Function.update b.replaceWay (setOf updatePc) (1 - w) }
  else b

end BranchTargetBuffer

/-- Two-bit counters indexed by the word address. -/
structure BimodalPredictor where
  patternTable : BitVec 10 → BitVec 2 := fun _ => 0b01

namespace BimodalPredictor

/-- `queryIndex_o`. -/
def queryIndex (pc : Word) : BitVec 10 := pc.extractLsb' 2 10

variable (b : BimodalPredictor)

/-- `predictTaken_o`. -/
def predictTaken (pc : Word) : Bool := (b.patternTable (queryIndex pc)).msb

/-- The clock edge. -/
def step (updateValid updateIsConditional : Bool) (updateIndex : BitVec 10)
    (updateTaken : Bool) : BimodalPredictor :=
  let counter := b.patternTable updateIndex
  if updateValid && updateIsConditional then
    if updateTaken then
      if counter ≠ 0b11 then
        ⟨Function.update b.patternTable updateIndex (counter + 1)⟩
      else b
    else if counter ≠ 0b00 then
      ⟨Function.update b.patternTable updateIndex (counter - 1)⟩
    else b
  else b

end BimodalPredictor

structure ReturnAddressStack where
  committed : BitVec 3 → Word := fun _ => 0
  speculative : BitVec 3 → Word := fun _ => 0
  committedSp : BitVec 4 := 0
  speculativeSp : BitVec 4 := 0

namespace ReturnAddressStack

/-- What a slot of a consumed fetch response does to the stack. -/
structure Event where
  valid : Bool
  call : Bool
  ret : Bool
  returnAddress : Word

/-- A resolved branch. -/
structure Resolve where
  valid : Bool
  call : Bool
  ret : Bool
  mispredict : Bool
  returnAddress : Word

section Wires

variable (r : ReturnAddressStack) (e e1 : Event) (v : Resolve)

/-- `valid_o`. -/
def valid : Bool := decide (r.speculativeSp ≠ 0)

def speculativeTopIndex : BitVec 3 := r.speculativeSp.setWidth 3 - 1

/-- `target_o`. -/
def target : Word :=
  if r.valid then r.speculative r.speculativeTopIndex else 0

/-- `valid1_o`: slot 1 sees the event of slot 0. -/
def valid1 : Bool :=
  if e.valid && e.call then true
  else if e.valid && e.ret then decide (1 < r.speculativeSp)
  else r.valid

/-- `target1_o`. -/
def target1 : Word :=
  if e.valid && e.call then e.returnAddress
  else if e.valid && e.ret then
    if 1 < r.speculativeSp then r.speculative (r.speculativeTopIndex - 1)
    else 0
  else r.target

/-- The committed stack after the edge. -/
def stepCommitted : (BitVec 3 → Word) × BitVec 4 :=
  if v.valid && v.call && decide (r.committedSp < 8) then
    (Function.update r.committed (r.committedSp.setWidth 3) v.returnAddress,
      r.committedSp + 1)
  else if v.valid && v.ret && decide (r.committedSp ≠ 0) then
    (r.committed, r.committedSp - 1)
  else (r.committed, r.committedSp)

/-- The speculative stack after a misprediction: the committed one with the
event of the resolved branch. -/
def restored : (BitVec 3 → Word) × BitVec 4 :=
  if v.call && decide (r.committedSp < 8) then
    (Function.update r.committed (r.committedSp.setWidth 3) v.returnAddress,
      r.committedSp + 1)
  else if v.ret && decide (r.committedSp ≠ 0) then
    (r.committed, r.committedSp - 1)
  else (r.committed, r.committedSp)

/-- The speculative stack after the events of the two slots. -/
def speculated : (BitVec 3 → Word) × BitVec 4 :=
  let sp := r.speculativeSp
  let place := sp.setWidth 3
  let call := e.valid && e.call
  let ret := e.valid && e.ret
  let call1 := e1.valid && e1.call
  let ret1 := e1.valid && e1.ret
  if call && call1 && decide (sp < 7) then
    (Function.update (Function.update r.speculative place e.returnAddress)
      (place + 1) e1.returnAddress, sp + 2)
  else if call && ret1 then (r.speculative, sp)
  else if ret && call1 then
    if sp ≠ 0 then
      (Function.update r.speculative r.speculativeTopIndex e1.returnAddress, sp)
    else (Function.update r.speculative 0 e1.returnAddress, 1)
  else if ret && ret1 then (r.speculative, if 1 < sp then sp - 2 else 0)
  else if call && decide (sp < 8) then
    (Function.update r.speculative place e.returnAddress, sp + 1)
  else if ret && decide (sp ≠ 0) then (r.speculative, sp - 1)
  else if call1 && decide (sp < 8) then
    (Function.update r.speculative place e1.returnAddress, sp + 1)
  else if ret1 && decide (sp ≠ 0) then (r.speculative, sp - 1)
  else (r.speculative, sp)

/-- The clock edge. -/
def step : ReturnAddressStack where
  committed := (r.stepCommitted v).1
  committedSp := (r.stepCommitted v).2
  speculative := if v.mispredict then (r.restored v).1
    else (r.speculated e e1).1
  speculativeSp := if v.mispredict then (r.restored v).2
    else (r.speculated e e1).2

end Wires

end ReturnAddressStack

end OoOCore
