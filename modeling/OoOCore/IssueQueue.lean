/-
`IssueQueue.sv`: the unified scheduler.  Three age-ordered selections offer one
memory/CSR candidate, one integer/branch candidate and an integer fallback;
entries leave when the execute stage accepts them.
-/
import OoOCore.Types
import OoOCore.Rename

namespace OoOCore

structure IssueQueue where
  entries : IqIndex → Uop
  ages : IqIndex → BitVec 32
  nextAge : BitVec 32

/-- The three candidates of one cycle. -/
structure IssueSelection where
  port0 : Option IqIndex
  port1 : Option IqIndex
  fallback : Option IqIndex

namespace IssueQueue

def reset : IssueQueue where
  entries := fun _ => default
  ages := fun _ => 0
  nextAge := 0

/-- Some write-back lane drives the register this cycle. -/
def wakes (wb : Lane → Writeback) (p : PhysReg) : Bool :=
  PhysicalRegisterFile.hits wb 0 p || PhysicalRegisterFile.hits wb 1 p

/-- `sourceReadyNow`. -/
def sourceReadyNow (wb : Lane → Writeback) (sourcePhys : PhysReg)
    (storedReady sourceUsed : Bool) : Bool :=
  storedReady || !sourceUsed || decide (sourcePhys = 0) || wakes wb sourcePhys

def source1ReadyNow (wb : Lane → Writeback) (u : Uop) : Bool :=
  sourceReadyNow wb u.src1Phys u.src1Ready u.useRs1

def source2ReadyNow (wb : Lane → Writeback) (u : Uop) : Bool :=
  sourceReadyNow wb u.src2Phys u.src2Ready u.useRs2

/-- `readyEntry`: a store leaves as soon as its address source is ready. -/
def readyEntry (wb : Lane → Writeback) (u : Uop) : Bool :=
  u.valid && source1ReadyNow wb u &&
    ((u.fuClass == .memory && u.dataWriteEnable) || source2ReadyNow wb u)

/-- One iteration of a selection loop: the first candidate, or a strictly
younger age than the one held. -/
def selectStep (q : IssueQueue) (candidate : IqIndex → Bool)
    (held : Option IqIndex) (j : IqIndex) : Option IqIndex :=
  match held with
  | none => if candidate j then some j else none
  | some k => if candidate j ∧ q.ages j < q.ages k then some j else some k

/-- A whole selection loop over the queue slots. -/
def selectOldest (q : IssueQueue) (candidate : IqIndex → Bool) :
    Option IqIndex :=
  (List.finRange 16).foldl (q.selectStep candidate) none

def isClass (q : IssueQueue) (j : IqIndex) (c : FuClass) : Bool :=
  (q.entries j).fuClass == c

/-- The five selection loops, in source order. -/
def select (q : IssueQueue) (wb : Lane → Writeback) : IssueSelection :=
  let ready := fun j => readyEntry wb (q.entries j)
  let memory0 := q.selectOldest fun j =>
    ready j && (q.isClass j .memory || q.isClass j .csr)
  let integer1 := q.selectOldest fun j =>
    ready j && (q.isClass j .integer || q.isClass j .branch) &&
      (some j != memory0)
  let port0 := if memory0.isSome then memory0 else
    q.selectOldest fun j =>
      ready j && (some j != integer1) &&
        !(integer1.isSome && q.isClass j .branch)
  let port1 := if integer1.isSome then integer1 else
    q.selectOldest fun j =>
      ready j && (q.isClass j .integer || q.isClass j .branch) &&
        (some j != port0) &&
        !((port0.any fun k => q.isClass k .branch) && q.isClass j .branch)
  let fallback := q.selectOldest fun j =>
    ready j && q.isClass j .integer && (some j != port0) && (some j != port1)
  ⟨port0, port1, fallback⟩

/-- `issueUop_o`: the selected entry with its readiness as of this cycle. -/
def issueUop (q : IssueQueue) (wb : Lane → Writeback) :
    Option IqIndex → Uop
  | none => default
  | some j => (q.entries j).withReady (source1ReadyNow wb (q.entries j))
      (source2ReadyNow wb (q.entries j))

/-- `fallbackUop_o`. -/
def fallbackUop (q : IssueQueue) : Option IqIndex → Uop
  | none => default
  | some j => (q.entries j).withReady true true

/-- `freeSlot`: the free entries in index order. -/
def freeSlots (q : IssueQueue) : List IqIndex :=
  (List.finRange 16).filter fun j => !(q.entries j).valid

/-- `occupiedCount`. -/
def occupiedCount (q : IssueQueue) : Nat :=
  (List.finRange 16).countP fun j => (q.entries j).valid

/-- `dispatchReady_o`: valid lanes are compacted onto the free entries. -/
def dispatchReady (q : IssueQueue) (uop : Lane → Uop) : Lane → Bool
  | 0 => decide (0 < q.freeSlots.length)
  | 1 => decide ((if (uop 0).valid ∧ 0 < q.freeSlots.length then 1 else 0) <
      min 2 q.freeSlots.length)

def dispatchFire (q : IssueQueue) (uop : Lane → Uop) (l : Lane) : Bool :=
  (uop l).valid && q.dispatchReady uop l

/-- `seqDispatchRank` when lane `l` is written. -/
def dispatchRank (q : IssueQueue) (uop : Lane → Uop) : Lane → Nat
  | 0 => 0
  | 1 => (q.dispatchFire uop 0).toNat

/-- Latch the wakeups of this cycle into a resident entry. -/
def wakeEntry (wb : Lane → Writeback) (u : Uop) : Uop :=
  u.withReady (u.src1Ready || wakes wb u.src1Phys)
    (u.src2Ready || wakes wb u.src2Phys)

/-- The entry written for a dispatched uop. -/
def dispatchEntry (wb : Lane → Writeback) (u : Uop) : Uop :=
  u.withReady
    (u.src1Ready || !u.useRs1 || decide (u.src1Phys = 0) ||
      wakes wb u.src1Phys)
    (u.src2Ready || !u.useRs2 || decide (u.src2Phys = 0) ||
      wakes wb u.src2Phys)

/-- Remove a candidate whose issue handshake completed. -/
def clearIssued (fire : Bool) (choice : Option IqIndex)
    (next : IqIndex → Uop) : IqIndex → Uop :=
  match choice with
  | some j => if fire then Function.update next j default else next
  | none => next

/-- Remove the accepted candidates of all three selections. -/
def clearAccepted (sel : IssueSelection) (issueReady : Lane → Bool)
    (fallbackReady : Bool) (next : IqIndex → Uop) : IqIndex → Uop :=
  clearIssued fallbackReady sel.fallback
    (clearIssued (issueReady 1) sel.port1
      (clearIssued (issueReady 0) sel.port0 next))

/-- Write one accepted dispatch lane into its free slot. -/
def dispatchLane {α : Type} (q : IssueQueue) (uop : Lane → Uop) (l : Lane)
    (value : α) (next : IqIndex → α) : IqIndex → α :=
  match q.freeSlots[q.dispatchRank uop l]? with
  | some j => if q.dispatchFire uop l then Function.update next j value else next
  | none => next

def stepRecover (q : IssueQueue) (mask : RobTag → Bool)
    (wb : Lane → Writeback) (issueReady : Lane → Bool)
    (fallbackReady : Bool) : IssueQueue :=
  let woken := fun j =>
    if (q.entries j).valid then
      if mask (q.entries j).robTag then default else wakeEntry wb (q.entries j)
    else q.entries j
  { q with
    entries := clearAccepted (q.select wb) issueReady fallbackReady woken }

def stepNormal (q : IssueQueue) (uop : Lane → Uop) (wb : Lane → Writeback)
    (issueReady : Lane → Bool) (fallbackReady : Bool) : IssueQueue :=
  let woken := fun j =>
    if (q.entries j).valid then wakeEntry wb (q.entries j) else q.entries j
  let drained := clearAccepted (q.select wb) issueReady fallbackReady woken
  { entries := q.dispatchLane uop 1 (dispatchEntry wb (uop 1))
      (q.dispatchLane uop 0 (dispatchEntry wb (uop 0)) drained)
    ages := q.dispatchLane uop 1
      (q.nextAge + BitVec.ofNat 32 (q.dispatchRank uop 1))
      (q.dispatchLane uop 0 q.nextAge q.ages)
    nextAge := q.nextAge + BitVec.ofNat 32
      ((q.dispatchFire uop 0).toNat + (q.dispatchFire uop 1).toNat) }

def step (q : IssueQueue) (flush recoverValid : Bool)
    (mask : RobTag → Bool) (uop : Lane → Uop) (wb : Lane → Writeback)
    (issueReady : Lane → Bool) (fallbackReady : Bool) : IssueQueue :=
  if flush then reset
  else if recoverValid then q.stepRecover mask wb issueReady fallbackReady
  else q.stepNormal uop wb issueReady fallbackReady

end IssueQueue

/-- Running resources of the `DispatchControl` loop. -/
structure DispatchState where
  robFree : Nat
  issueFree : Nat
  lsqFree : Nat
  physFree : Nat
  olderLaneAccepted : Bool

/-- What `DispatchControl` looks at in one lane. -/
structure DispatchLane where
  valid : Bool
  supported : Bool
  writesDestination : Bool
  isMemory : Bool

namespace DispatchControl

def laneHasResources (d : DispatchState) (lane : DispatchLane) : Bool :=
  decide (0 < d.robFree) && decide (0 < d.issueFree) &&
    (!lane.isMemory || decide (0 < d.lsqFree)) &&
    (!lane.writesDestination || decide (0 < d.physFree))

def laneAccept (d : DispatchState) (lane : DispatchLane) : Bool :=
  d.olderLaneAccepted && lane.valid && lane.supported &&
    laneHasResources d lane

/-- Resources left for the next lane.  A bubble does not block it, a refused
instruction does. -/
def afterLane (d : DispatchState) (lane : DispatchLane) : DispatchState :=
  let accepted := laneAccept d lane
  { robFree := d.robFree - accepted.toNat
    issueFree := d.issueFree - accepted.toNat
    lsqFree := d.lsqFree - (accepted && lane.isMemory).toNat
    physFree := d.physFree - (accepted && lane.writesDestination).toNat
    olderLaneAccepted := d.olderLaneAccepted && !(lane.valid && !accepted) }

/-- `accept_o`. -/
def accept (d : DispatchState) (lane : Lane → DispatchLane) : Lane → Bool
  | 0 => laneAccept d (lane 0)
  | 1 => laneAccept (afterLane d (lane 0)) (lane 1)

end DispatchControl

end OoOCore
