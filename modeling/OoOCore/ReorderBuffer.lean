/-
`ReorderBuffer.sv`: a sixteen-entry circular buffer that allocates and retires
in program order, completes out of order and truncates behind a mispredicted
branch.
-/
import OoOCore.Types

namespace OoOCore

structure ReorderBuffer where
  entries : RobTag → RobEntry
  headPtr : RobTag
  tailPtr : RobTag
  entryCount : Nat

/-- What a resolved branch reports to the ROB. -/
structure BranchResolve where
  valid : Bool
  tag : RobTag
  taken : Bool
  target : Word
  mispredicted : Bool

namespace ReorderBuffer

abbrev depth : Nat := 16

def reset : ReorderBuffer where
  entries := fun _ => default
  headPtr := 0
  tailPtr := 0
  entryCount := 0

/-- `allocReady_o`. -/
def allocReady (r : ReorderBuffer) (allocValid : Lane → Bool) : Lane → Bool
  | 0 => decide (r.entryCount < depth)
  | 1 => decide (r.entryCount +
      (if allocValid 0 ∧ r.entryCount < depth then 1 else 0) < depth)

/-- `allocTag_o`: lane 1 takes the tail itself when lane 0 allocates nothing. -/
def allocTag (r : ReorderBuffer) (allocValid : Lane → Bool) : Lane → RobTag
  | 0 => r.tailPtr
  | 1 => if allocValid 0 ∧ r.entryCount < depth then addPtr r.tailPtr 1
      else r.tailPtr

/-- An allocation request that the buffer accepts. -/
def allocFire (r : ReorderBuffer) (allocValid : Lane → Bool) (l : Lane) :
    Bool :=
  allocValid l && r.allocReady allocValid l

def allocAccepted (r : ReorderBuffer) (allocValid : Lane → Bool) : Nat :=
  (r.allocFire allocValid 0).toNat + (r.allocFire allocValid 1).toNat

/-- A lane shows a committable entry: present, valid and complete. -/
def laneComplete (r : ReorderBuffer) (l : Lane) : Bool :=
  decide (l.val < r.entryCount) &&
    (r.entries (addPtr r.headPtr l.val)).valid &&
    (r.entries (addPtr r.headPtr l.val)).complete

/-- `commitValid_o`: lane 1 follows a complete lane 0 only. -/
def commitValid (r : ReorderBuffer) : Lane → Bool
  | 0 => r.laneComplete 0
  | 1 => r.laneComplete 0 && r.laneComplete 1

/-- `commitEntry_o`. -/
def commitEntry (r : ReorderBuffer) (l : Lane) : RobEntry :=
  if r.commitValid l then r.entries (addPtr r.headPtr l.val) else default

/-- `commitAccepted`: the accepted contiguous prefix. -/
def commitAccepted (r : ReorderBuffer) (commitReady : Lane → Bool) : Nat :=
  if r.commitValid 0 && commitReady 0 then
    if r.commitValid 1 && commitReady 1 then 2 else 1
  else 0

/-- Loop state of the recovery scan. -/
structure RecoverScan where
  mask : RobTag → Bool
  keepCount : Nat
  found : Bool

/-- One iteration of the recovery scan. -/
def recoverScanStep (r : ReorderBuffer) (tag : RobTag) (acc : RecoverScan)
    (offset : Nat) : RecoverScan :=
  let index := addPtr r.headPtr offset
  if offset < r.entryCount then
    let acc := if acc.found then
        { acc with mask := Function.update acc.mask index true }
      else { acc with keepCount := acc.keepCount + 1 }
    if index = tag then { acc with found := true } else acc
  else acc

/-- The oldest-to-youngest scan for `recoverTag_i`. -/
def recoverScan (r : ReorderBuffer) (tag : RobTag) : RecoverScan :=
  (List.range depth).foldl (r.recoverScanStep tag) ⟨fun _ => false, 0, false⟩

/-- `recoverYoungerMask_o`. -/
def recoverYoungerMask (r : ReorderBuffer) (recoverValid : Bool)
    (tag : RobTag) : RobTag → Bool :=
  if recoverValid ∧ (r.recoverScan tag).found then (r.recoverScan tag).mask
  else fun _ => false

/-- `recoverKeepCount`. -/
def recoverKeepCount (r : ReorderBuffer) (recoverValid : Bool)
    (tag : RobTag) : Nat :=
  if recoverValid ∧ (r.recoverScan tag).found then
    (r.recoverScan tag).keepCount
  else r.entryCount

/-- What one completion lane writes into an entry. -/
def completeEntry (e : RobEntry) (c : Completion) : RobEntry :=
  { e with
    complete := true, exception := c.exception, exceptionCause := c.cause,
    exceptionValue := c.value }

/-- What a branch resolution writes into an entry. -/
def resolveEntry (e : RobEntry) (b : BranchResolve) : RobEntry :=
  { e with
    branchTaken := b.taken, branchTarget := b.target,
    branchMispredicted := b.mispredicted }

/-- One completion lane.  The guard reads the entry before the edge, and a
recovery hides the lanes whose tag it removes. -/
def completeLane (r : ReorderBuffer) (hidden : RobTag → Bool)
    (c : Completion) (next : RobTag → RobEntry) : RobTag → RobEntry :=
  if c.valid ∧ (r.entries c.robTag).valid ∧ ¬ hidden c.robTag then
    Function.update next c.robTag (completeEntry (next c.robTag) c)
  else next

/-- The entry an allocation writes. -/
def allocWrite (e : RobEntry) : RobEntry :=
  { e with valid := true, complete := false }

/-- One allocation lane. -/
def allocLane (fire : Bool) (tag : RobTag) (e : RobEntry)
    (next : RobTag → RobEntry) : RobTag → RobEntry :=
  if fire then Function.update next tag (allocWrite e) else next

/-- Clear the `accepted` oldest entries. -/
def clearCommitted (r : ReorderBuffer) (accepted : Nat)
    (next : RobTag → RobEntry) : RobTag → RobEntry :=
  let first := if 0 < accepted then
      Function.update next (addPtr r.headPtr 0) default
    else next
  if 1 < accepted then Function.update first (addPtr r.headPtr 1) default
  else first

/-- The recovery branch of the clocked process. -/
def stepRecover (r : ReorderBuffer) (b : BranchResolve)
    (complete : Lane → Completion) : ReorderBuffer :=
  let mask := r.recoverYoungerMask true b.tag
  let keep := r.recoverKeepCount true b.tag
  let cleared := fun tag => if mask tag then default else r.entries tag
  let completed := r.completeLane mask (complete 1)
    (r.completeLane mask (complete 0) cleared)
  { r with
    entries := Function.update completed b.tag
      (resolveEntry { completed b.tag with complete := true } b)
    tailPtr := addPtr r.headPtr keep
    entryCount := keep }

/-- The ordinary branch of the clocked process. -/
def stepNormal (r : ReorderBuffer) (allocValid : Lane → Bool)
    (allocEntry : Lane → RobEntry) (complete : Lane → Completion)
    (b : BranchResolve) (commitReady : Lane → Bool) : ReorderBuffer :=
  let accepted := r.commitAccepted commitReady
  let cleared := r.clearCommitted accepted r.entries
  let allocated :=
    allocLane (r.allocFire allocValid 1) (r.allocTag allocValid 1)
      (allocEntry 1)
      (allocLane (r.allocFire allocValid 0) (r.allocTag allocValid 0)
        (allocEntry 0) cleared)
  let completed := r.completeLane (fun _ => false) (complete 1)
    (r.completeLane (fun _ => false) (complete 0) allocated)
  { entries :=
      if b.valid ∧ (r.entries b.tag).valid then
        Function.update completed b.tag (resolveEntry (completed b.tag) b)
      else completed
    headPtr := addPtr r.headPtr accepted
    tailPtr := addPtr r.tailPtr (r.allocAccepted allocValid)
    entryCount := r.entryCount + r.allocAccepted allocValid - accepted }

def step (r : ReorderBuffer) (flush recoverValid : Bool)
    (allocValid : Lane → Bool) (allocEntry : Lane → RobEntry)
    (complete : Lane → Completion) (b : BranchResolve)
    (commitReady : Lane → Bool) : ReorderBuffer :=
  if flush then reset
  else if recoverValid then r.stepRecover b complete
  else r.stepNormal allocValid allocEntry complete b commitReady

end ReorderBuffer

end OoOCore
