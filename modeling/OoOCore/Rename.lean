/-
Register renaming: `RenameMapTable.sv`, `PhysicalFreeList.sv`, the record
packing of `RenameStage.sv` and the `PhysicalRegisterFile.sv` they feed.
-/
import OoOCore.Decode
import Mathlib.Logic.Function.Basic

namespace OoOCore

/-- One lane of the rename port: the destination mapping it installs. -/
structure RenameLane where
  valid : Bool
  archRd : ArchReg
  newPhys : PhysReg

/-- One lane of the commit port. -/
structure CommitLane where
  valid : Bool
  archRd : ArchReg
  newPhys : PhysReg
  oldPhys : PhysReg

structure RenameMapTable where
  speculativeMap : ArchReg → PhysReg
  committedMap : ArchReg → PhysReg
  checkpointMap : RobTag → ArchReg → PhysReg

namespace RenameMapTable

/-- `phys_reg_addr_t'(seqArchIndex)`. -/
def identityMap (r : ArchReg) : PhysReg := r.castLE (by decide)

def reset : RenameMapTable where
  speculativeMap := identityMap
  committedMap := identityMap
  checkpointMap := fun _ => identityMap

/-- Lane 0 reads the speculative map; `x0` always reads `p0`. -/
def lookup0 (t : RenameMapTable) (r : ArchReg) : PhysReg :=
  if r = 0 then 0 else t.speculativeMap r

/-- Lane 1 also observes the mapping that lane 0 installs in the same group. -/
def lookup1 (t : RenameMapTable) (older : RenameLane) (r : ArchReg) : PhysReg :=
  if r = 0 then 0
  else if older.valid ∧ older.archRd ≠ 0 ∧ r = older.archRd then older.newPhys
  else t.speculativeMap r

def writeLane (m : ArchReg → PhysReg) (lane : RenameLane) : ArchReg → PhysReg :=
  if lane.valid ∧ lane.archRd ≠ 0 then
    Function.update m lane.archRd lane.newPhys
  else m

def commitLane (m : ArchReg → PhysReg) (lane : CommitLane) :
    ArchReg → PhysReg :=
  if lane.valid ∧ lane.archRd ≠ 0 then
    Function.update m lane.archRd lane.newPhys
  else m

/-- `committedFreeMask_o`. -/
def committedFreeMask (t : RenameMapTable) (p : PhysReg) : Bool :=
  decide (p ≠ 0) && !(List.finRange 32).any fun r => t.committedMap r == p

def step (t : RenameMapTable) (restoreCommitted recoverValid : Bool)
    (recoverTag : RobTag) (checkpointValid : Lane → Bool)
    (checkpointTag : Lane → RobTag) (rename : Lane → RenameLane)
    (commit : Lane → CommitLane) : RenameMapTable where
  committedMap := commitLane (commitLane t.committedMap (commit 0)) (commit 1)
  speculativeMap :=
    if restoreCommitted then t.committedMap
    else if recoverValid then t.checkpointMap recoverTag
    else writeLane (writeLane t.speculativeMap (rename 0)) (rename 1)
  checkpointMap :=
    -- A checkpoint keeps the branch's own rename and any older lane's.
    let first := if checkpointValid 0 then
        Function.update t.checkpointMap (checkpointTag 0)
          (writeLane t.speculativeMap (rename 0))
      else t.checkpointMap
    if checkpointValid 1 then
      Function.update first (checkpointTag 1)
        (writeLane (writeLane t.speculativeMap (rename 0)) (rename 1))
    else first

end RenameMapTable

structure PhysicalFreeList where
  freeMask : PhysReg → Bool
  checkpointFreeMask : RobTag → PhysReg → Bool

namespace PhysicalFreeList

def reset : PhysicalFreeList where
  freeMask := fun p => decide (32 ≤ p.val)
  checkpointFreeMask := fun _ p => decide (32 ≤ p.val)

/-- The priority scan over `p1..p47`. -/
def firstFree (available : PhysReg → Bool) : Option PhysReg :=
  (List.finRange 48).find? fun p => decide (p ≠ 0) && available p

/-- `availableMask` as lane 1 sees it. -/
def availableAfter (f : PhysicalFreeList) (request0 : Bool) : PhysReg → Bool :=
  match firstFree f.freeMask with
  | some p => if request0 then Function.update f.freeMask p false else f.freeMask
  | none => f.freeMask

/-- The candidate each lane is offered, if any. -/
def allocChoice (f : PhysicalFreeList) (request0 : Bool) :
    Lane → Option PhysReg
  | 0 => firstFree f.freeMask
  | 1 => firstFree (f.availableAfter request0)

/-- `freeCount_o`. -/
def freeCount (f : PhysicalFreeList) : Nat :=
  (List.finRange 48).countP f.freeMask

/-- Set the bit of a register freed by a commit lane. -/
def freeLane (mask : PhysReg → Bool) (freeValid : Bool) (phys : PhysReg) :
    PhysReg → Bool :=
  if freeValid ∧ phys ≠ 0 then Function.update mask phys true else mask

/-- Clear the bit of a register taken by a rename lane. -/
def takeLane (mask : PhysReg → Bool) (request : Bool)
    (choice : Option PhysReg) : PhysReg → Bool :=
  match choice with
  | some p => if request then Function.update mask p false else mask
  | none => mask

def step (f : PhysicalFreeList) (restore : Bool)
    (restoreFreeMask : PhysReg → Bool) (recoverValid : Bool)
    (recoverTag : RobTag) (checkpointValid : Lane → Bool)
    (checkpointTag : Lane → RobTag) (request : Lane → Bool)
    (freeValid : Lane → Bool) (freePhys : Lane → PhysReg) :
    PhysicalFreeList :=
  let choice := f.allocChoice (request 0)
  let free (mask : PhysReg → Bool) : PhysReg → Bool :=
    freeLane (freeLane mask (freeValid 0) (freePhys 0))
      (freeValid 1) (freePhys 1)
  let clearZero (mask : PhysReg → Bool) : PhysReg → Bool :=
    Function.update mask 0 false
  { freeMask :=
      if restore then clearZero restoreFreeMask
      else if recoverValid then
        clearZero (free (f.checkpointFreeMask recoverTag))
      else
        clearZero (takeLane (takeLane (free f.freeMask) (request 0) (choice 0))
          (request 1) (choice 1))
    checkpointFreeMask :=
      -- Frees reach every checkpoint; a new checkpoint overwrites its slot.
      let freed := fun tag => free (f.checkpointFreeMask tag)
      let first := if checkpointValid 0 then
          Function.update freed (checkpointTag 0)
            (free (takeLane f.freeMask (request 0) (choice 0)))
        else freed
      if checkpointValid 1 then
        Function.update first (checkpointTag 1)
          (free (takeLane (takeLane f.freeMask (request 0) (choice 0))
            (request 1) (choice 1)))
      else first }

end PhysicalFreeList

/-- `RenameStage` state: the two tables it instantiates. -/
structure RenameStage where
  mapTable : RenameMapTable
  freeList : PhysicalFreeList

namespace RenameStage

def reset : RenameStage := ⟨RenameMapTable.reset, PhysicalFreeList.reset⟩

/-- `writesDestination`, also `laneWritesDestination` of `OoOBackend`. -/
def writesDestination (bus : DecodeBus) : Bool :=
  bus.valid && bus.registerWriteEnable && decide (bus.rd ≠ 0)

/-- The class ladder at the end of `RenameStage`. -/
def fuClassOf (bus : DecodeBus) : FuClass :=
  if bus.wbSelect = .csr then .csr
  else if bus.dataWriteEnable ∨ bus.wbSelect = .mem then .memory
  else if bus.branchCtr ≠ .none then .branch
  else .integer

/-- The values that reach one rename lane from the tables and allocators. -/
structure LaneContext where
  enable : Bool
  destinationAvailable : Bool
  src1Phys : PhysReg
  src2Phys : PhysReg
  src1Ready : Bool
  src2Ready : Bool
  destinationPhys : PhysReg
  oldDestinationPhys : PhysReg
  robTag : RobTag
  lsqTag : LsqTag
  uid : Nat

/-- `renamedUop_o[lane]`. -/
def renamedUop (bus : DecodeBus) (ctx : LaneContext) : Uop where
  valid := bus.valid && ctx.enable && ctx.destinationAvailable
  pc := bus.pc
  predictedTaken := bus.predictedTaken
  predictedTarget := bus.predictedTarget
  predictorIndex := bus.predictorIndex
  historySnapshot := bus.historySnapshot
  predictedBtbHit := bus.predictedBtbHit
  predictedRasUsed := bus.predictedRasUsed
  isCall := decide ((bus.branchCtr = .jal ∨ bus.branchCtr = .jalr) ∧
    (bus.rd = 1 ∨ bus.rd = 5))
  isReturn := decide (bus.branchCtr = .jalr ∧ bus.rd = 0 ∧
    (bus.rs1 = 1 ∨ bus.rs1 = 5))
  fuClass := fuClassOf bus
  registerWriteEnable := bus.registerWriteEnable
  dataWriteEnable := bus.dataWriteEnable
  wbSelect := bus.wbSelect
  csrOp := bus.csrOp
  csrAddr := bus.csrAddr
  csrUseImm := bus.csrUseImm
  csrImm := bus.csrImm
  branchCtr := bus.branchCtr
  aluCtr := bus.aluCtr
  memCtr := bus.memCtr
  aluSrcASelect := bus.aluSrcASelect
  aluSrcBSelect := bus.aluSrcBSelect
  useRs1 := bus.useRs1
  useRs2 := bus.useRs2
  src1Phys := ctx.src1Phys
  src2Phys := ctx.src2Phys
  src1Ready := ctx.src1Ready
  src2Ready := ctx.src2Ready
  destPhys := ctx.destinationPhys
  robTag := ctx.robTag
  lsqTag := ctx.lsqTag
  immediate := bus.immediate
  decodeException := bus.decodeException
  decodeExceptionCause := bus.decodeExceptionCause
  exceptionValue := bus.exceptionValue
  serialize := bus.serialize
  mret := bus.mret
  origin := ⟨ctx.uid, bus.insn⟩

/-- `robEntry_o[lane]`. -/
def robEntry (bus : DecodeBus) (ctx : LaneContext) : RobEntry :=
  let uop := renamedUop bus ctx
  let writes := writesDestination bus
  { valid := uop.valid
    pc := uop.pc
    writesRd := writes
    -- S/B encodings reuse the `rd` bits for immediates.
    archRd := if writes then bus.rd else 0
    newPhys := ctx.destinationPhys
    oldPhys := if writes then ctx.oldDestinationPhys else 0
    isMemory := uop.fuClass == .memory
    lsqTag := ctx.lsqTag
    isStore := uop.dataWriteEnable
    isBranch := uop.branchCtr != .none
    branchCtr := uop.branchCtr
    isCall := uop.isCall
    isReturn := uop.isReturn
    predictedTaken := uop.predictedTaken
    predictedTarget := uop.predictedTarget
    predictedBtbHit := uop.predictedBtbHit
    predictedRasUsed := uop.predictedRasUsed
    predictorIndex := uop.predictorIndex
    tageMeta := bus.tageMeta
    isCsr := uop.wbSelect == .csr
    exceptionValue := uop.exceptionValue
    mret := uop.mret
    origin := uop.origin }

/-- `lsqEntry_o[lane]`. -/
def lsqEntry (bus : DecodeBus) (ctx : LaneContext) : LsqEntry :=
  let uop := renamedUop bus ctx
  { valid := uop.valid && uop.fuClass == .memory
    isLoad := uop.wbSelect == .mem
    isStore := uop.dataWriteEnable
    robTag := ctx.robTag
    destPhys := ctx.destinationPhys
    memCtr := uop.memCtr
    pc := uop.pc
    storeDataPhys := uop.src2Phys
    origin := uop.origin }

end RenameStage

structure PhysicalRegisterFile where
  registers : PhysReg → Word
  readyTable : PhysReg → Bool

namespace PhysicalRegisterFile

def reset : PhysicalRegisterFile where
  registers := fun _ => 0
  readyTable := fun p => decide (p.val < 32)

/-- Lane `l` of the write-back bus drives register `p`. -/
def hits (wb : Lane → Writeback) (l : Lane) (p : PhysReg) : Bool :=
  (wb l).valid && decide ((wb l).phys = p)

/-- `readData_o` of one port, with the same-cycle write-back bypass. -/
def readData (f : PhysicalRegisterFile) (wb : Lane → Writeback)
    (p : PhysReg) : Word :=
  if p = 0 then 0
  else if hits wb 1 p then (wb 1).data
  else if hits wb 0 p then (wb 0).data
  else f.registers p

/-- `readReady_o` of one port. -/
def readReady (f : PhysicalRegisterFile) (wb : Lane → Writeback)
    (p : PhysReg) : Bool :=
  decide (p = 0) || hits wb 1 p || hits wb 0 p || f.readyTable p

def clearReady (ready : PhysReg → Bool) (valid : Bool) (p : PhysReg) :
    PhysReg → Bool :=
  if valid ∧ p ≠ 0 then Function.update ready p false else ready

def setReady (ready : PhysReg → Bool) (w : Writeback) : PhysReg → Bool :=
  if w.valid ∧ w.phys ≠ 0 then Function.update ready w.phys true else ready

def writeData (registers : PhysReg → Word) (w : Writeback) : PhysReg → Word :=
  if w.valid ∧ w.phys ≠ 0 then Function.update registers w.phys w.data
  else registers

def step (f : PhysicalRegisterFile) (allocValid : Lane → Bool)
    (allocPhys : Lane → PhysReg) (wb : Lane → Writeback) :
    PhysicalRegisterFile where
  registers := Function.update
    (writeData (writeData f.registers (wb 0)) (wb 1)) 0 0
  readyTable := Function.update
    (setReady (setReady
      (clearReady (clearReady f.readyTable (allocValid 0) (allocPhys 0))
        (allocValid 1) (allocPhys 1)) (wb 0)) (wb 1)) 0 true

end PhysicalRegisterFile

end OoOCore
