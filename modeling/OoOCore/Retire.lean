/-
Retirement: the two passes of `BackendCommitStage.sv` over the ROB head, and
the machine-mode state of `CSRFile.sv` that traps and CSR instructions update.
-/
import OoOCore.Execute
import OoOCore.ReorderBuffer

namespace OoOCore

/-- The inputs of `BackendCommitStage` other than the store ready signals. -/
structure CommitInputs where
  recoveryValid : Bool
  branchTrainReady : Bool
  robCommitValid : Lane → Bool
  robCommitEntry : Lane → RobEntry
  lsqHeadEntry : Nat → LsqEntry
  lsqHeadTag : Nat → LsqTag

/-- Loop state of one pass over the commit lanes. -/
structure CommitScan where
  retirePrefix : Bool := true
  memoryOffset : Nat := 0
  storeCount : Nat := 0
  branchCount : Nat := 0

namespace BackendCommitStage

/-- The store-specific part of the lane check. -/
def storeCanCommit (storeReady : LsqEntry → Bool) (scan : CommitScan)
    (head : LsqEntry) : Bool :=
  head.addressReady && head.dataReady && decide (scan.storeCount = 0) &&
    storeReady head

/-- The memory-specific part of the lane check. -/
def memoryCanCommit (x : CommitInputs) (storeReady : LsqEntry → Bool)
    (scan : CommitScan) (entry : RobEntry) : Bool :=
  (x.lsqHeadEntry scan.memoryOffset).valid &&
    decide (x.lsqHeadTag scan.memoryOffset = entry.lsqTag) &&
    (!entry.isStore ||
      storeCanCommit storeReady scan (x.lsqHeadEntry scan.memoryOffset))

/-- `candidateLaneCanCommit` and `laneCanCommit`: the passes differ in the
readiness they ask of a store. -/
def laneCanCommit (x : CommitInputs) (storeReady : LsqEntry → Bool)
    (scan : CommitScan) (l : Lane) : Bool :=
  let entry := x.robCommitEntry l
  !x.recoveryValid && scan.retirePrefix && x.robCommitValid l &&
    !entry.exception &&
    (!entry.isMemory || memoryCanCommit x storeReady scan entry) &&
    !(entry.isBranch && decide (scan.branchCount ≠ 0)) &&
    !(entry.isBranch && !x.branchTrainReady)

/-- The counters after one lane. -/
def afterLane (x : CommitInputs) (storeReady : LsqEntry → Bool)
    (scan : CommitScan) (l : Lane) : CommitScan :=
  let entry := x.robCommitEntry l
  if laneCanCommit x storeReady scan l then
    { scan with
      memoryOffset := scan.memoryOffset + entry.isMemory.toNat
      storeCount := scan.storeCount +
        (entry.isMemory && entry.isStore).toNat
      branchCount := scan.branchCount + entry.isBranch.toNat }
  else { scan with retirePrefix := false }

/-- The counters in front of each lane. -/
def scanAt (x : CommitInputs) (storeReady : LsqEntry → Bool) :
    Lane → CommitScan
  | 0 => {}
  | 1 => afterLane x storeReady {} 0

/-- The lanes one pass lets through. -/
def passes (x : CommitInputs) (storeReady : LsqEntry → Bool) (l : Lane) :
    Bool :=
  laneCanCommit x storeReady (scanAt x storeReady l) l

/-- The first pass consults neither store destination. -/
def candidateReady (_ : LsqEntry) : Bool := true

/-- The second pass asks the destination the address selects. -/
def destinationReady (storeReady mmioStoreReady : Bool) (head : LsqEntry) :
    Bool :=
  if addressIsMmio head.address then mmioStoreReady else storeReady

/-- The store request one candidate lane forms. -/
def laneStore (x : CommitInputs) (l : Lane) : Option StoreRequest :=
  let head := x.lsqHeadEntry (scanAt x candidateReady l).memoryOffset
  if passes x candidateReady l ∧ (x.robCommitEntry l).isMemory ∧
      (x.robCommitEntry l).isStore then
    some ⟨head.address, head.storeData, head.memCtr⟩
  else none

/-- `storeValid_o` with the request fields: the later lane assigns last. -/
def store (x : CommitInputs) : Option StoreRequest :=
  (laneStore x 1).or (laneStore x 0)

/-- `storeMmio_o`. -/
def storeMmio (x : CommitInputs) : Bool :=
  (store x).any fun r => addressIsMmio r.address

/-- `robCommitReady_o`, which `robRetireValid_o` repeats. -/
def retireValid (x : CommitInputs) (storeReady mmioStoreReady : Bool)
    (l : Lane) : Bool :=
  passes x (destinationReady storeReady mmioStoreReady) l

/-- `lsqRetireCount_o`. -/
def lsqRetireCount (x : CommitInputs) (storeReady mmioStoreReady : Bool) :
    Nat :=
  (afterLane x (destinationReady storeReady mmioStoreReady)
    (scanAt x (destinationReady storeReady mmioStoreReady) 1) 1).memoryOffset

/-- `trapValid_o`. -/
def trapValid (x : CommitInputs) : Bool :=
  x.robCommitValid 0 && (x.robCommitEntry 0).exception

/-- `mretCommit_o`. -/
def mretCommit (x : CommitInputs) (storeReady mmioStoreReady : Bool) : Bool :=
  (retireValid x storeReady mmioStoreReady 0 && (x.robCommitEntry 0).mret) ||
    (retireValid x storeReady mmioStoreReady 1 && (x.robCommitEntry 1).mret)

end BackendCommitStage

/-- `CSRFile` state. -/
structure CSRFile where
  mstatus : Word := 0
  mie : Word := 0
  mtvec : Word := 0
  mscratch : Word := 0
  mepc : Word := 0
  mcause : Word := 0
  mtval : Word := 0
  mip : Word := 0
  mcycle : BitVec 64 := 0
  minstret : BitVec 64 := 0
deriving DecidableEq, Repr, Inhabited

/-- What the backend reports about a trap. -/
structure TrapReport where
  valid : Bool
  pc : Word
  cause : Cause
  value : Word

namespace CSRFile

def csrMstatus : CsrAddr := 0x300
def csrMepc : CsrAddr := 0x341

/-- `currentValue`; unknown and zero-valued registers read zero. -/
def read (f : CSRFile) (addr : CsrAddr) : Word :=
  if addr = 0xC00 ∨ addr = 0xC01 ∨ addr = 0xB00 then f.mcycle.extractLsb' 0 32
  else if addr = 0xC80 ∨ addr = 0xC81 ∨ addr = 0xB80 then
    f.mcycle.extractLsb' 32 32
  else if addr = 0xC02 ∨ addr = 0xB02 then f.minstret.extractLsb' 0 32
  else if addr = 0xC82 ∨ addr = 0xB82 then f.minstret.extractLsb' 32 32
  else if addr = csrMstatus then f.mstatus
  else if addr = 0x301 then 0x40000100
  else if addr = 0x304 then f.mie
  else if addr = 0x305 then f.mtvec
  else if addr = 0x340 then f.mscratch
  else if addr = csrMepc then f.mepc
  else if addr = 0x342 then f.mcause
  else if addr = 0x343 then f.mtval
  else if addr = 0x344 then f.mip
  else 0

/-- `nextValue`. -/
def nextValue (f : CSRFile) (r : CsrRequest) : Word :=
  match r.op with
  | .rw => r.writeData
  | .rs => f.read r.addr ||| r.writeData
  | .rc => f.read r.addr &&& ~~~r.writeData
  | .none => f.read r.addr

/-- `trapVector_o`. -/
def trapVector (f : CSRFile) : Word := f.mtvec &&& ~~~3#32

/-- `MPIE <- MIE, MIE <- 0, MPP <- M`. -/
def trapStatus (mstatus : Word) : Word :=
  (mstatus &&& ~~~0x1888#32) ||| 0x1800#32 |||
    (if mstatus.getLsbD 3 then 0x80#32 else 0)

/-- `MIE <- MPIE, MPIE <- 1, MPP <- U`. -/
def mretStatus (mstatus : Word) : Word :=
  (mstatus &&& ~~~0x1888#32) ||| 0x80#32 |||
    (if mstatus.getLsbD 7 then 0x8#32 else 0)

/-- Replace the low or the high half of a counter. -/
def setLow (counter : BitVec 64) (value : Word) : BitVec 64 :=
  counter.extractLsb' 32 32 ++ value

def setHigh (counter : BitVec 64) (value : Word) : BitVec 64 :=
  value ++ counter.extractLsb' 0 32

/-- The write `case`; `f` already carries the counter increments. -/
def write (f : CSRFile) (addr : CsrAddr) (value : Word) : CSRFile :=
  if addr = csrMstatus then { f with mstatus := value }
  else if addr = 0x304 then { f with mie := value }
  else if addr = 0x305 then { f with mtvec := value }
  else if addr = 0x340 then { f with mscratch := value }
  else if addr = csrMepc then { f with mepc := value }
  else if addr = 0x342 then { f with mcause := value }
  else if addr = 0x343 then { f with mtval := value }
  else if addr = 0x344 then { f with mip := value }
  else if addr = 0xB00 ∨ addr = 0xC00 ∨ addr = 0xC01 then
    { f with mcycle := setLow f.mcycle value }
  else if addr = 0xB80 ∨ addr = 0xC80 ∨ addr = 0xC81 then
    { f with mcycle := setHigh f.mcycle value }
  else if addr = 0xB02 ∨ addr = 0xC02 then
    { f with minstret := setLow f.minstret value }
  else if addr = 0xB82 ∨ addr = 0xC82 then
    { f with minstret := setHigh f.minstret value }
  else f

def step (f : CSRFile) (retireCount : Nat) (r : CsrRequest) (trap : TrapReport)
    (mret : Bool) : CSRFile :=
  let counted := { f with
    mcycle := f.mcycle + 1
    minstret := f.minstret + BitVec.ofNat 64 retireCount }
  if trap.valid then
    { counted with
      mepc := trap.pc &&& ~~~3#32
      mcause := trap.cause.setWidth 32
      mtval := trap.value
      mstatus := trapStatus f.mstatus }
  else if mret then { counted with mstatus := mretStatus f.mstatus }
  else if r.valid ∧ r.op ≠ .none then counted.write r.addr (f.nextValue r)
  else counted

end CSRFile

end OoOCore
