/-
The two passes of `BackendCommitStage` agree, for every pair of ROB and LSQ
heads and every ready input: the store offered by the first pass is handed over
exactly when the second pass retires it.
-/
import OoOCore.Retirement

namespace OoOCore

namespace BackendCommitStage

section Outputs

variable (x : CommitInputs) (storeReady mmioStoreReady : Bool)

/-- `trapValid_o`, `trapPc_o`, `trapCause_o` and `trapValue_o`. -/
def trapReport : TrapReport where
  valid := trapValid x
  pc := (x.robCommitEntry 0).pc
  cause := (x.robCommitEntry 0).exceptionCause
  value := (x.robCommitEntry 0).exceptionValue

/-- `storeValid_o` together with the ready of the path its address selects. -/
def storeHandshake : Bool :=
  (store x).isSome && (if storeMmio x then mmioStoreReady else storeReady)

/-- The lane retires a store. -/
def retiresStore (l : Lane) : Bool :=
  retireValid x storeReady mmioStoreReady l && storeLane x l

/-- The position in the LSQ of the memory operation of a lane: behind that of
an older memory lane. -/
def lsqPosition : Lane → Nat
  | 0 => 0
  | 1 => (x.robCommitEntry 0).isMemory.toNat

end Outputs

variable {x : CommitInputs} {storeReady mmioStoreReady : Bool}

theorem storeHandshake_iff {r : StoreRequest} (h : store x = some r) :
    storeHandshake x storeReady mmioStoreReady =
      if addressIsMmio r.address then mmioStoreReady else storeReady := by
  simp [storeHandshake, storeMmio, h]

theorem retiresStore_iff {l : Lane} :
    retiresStore x storeReady mmioStoreReady l = true ↔
      passes x candidateReady l = true ∧ storeLane x l = true ∧
        destinationReady storeReady mmioStoreReady (laneHead x l) = true := by
  rw [retiresStore, retireValid, Bool.and_eq_true]
  constructor
  · rintro ⟨hpass, hstore⟩
    have hcandidate := passes_candidate hpass
    refine ⟨hcandidate, hstore, ?_⟩
    exact (passes_eq_ready hcandidate hstore).symm.trans hpass
  · rintro ⟨hcandidate, hstore, hready⟩
    refine ⟨?_, hstore⟩
    rw [passes_eq_ready hcandidate hstore]
    exact hready

/-- The offered store is the one of the lane that passes with it. -/
theorem store_of_candidate {l : Lane} (h : passes x candidateReady l = true)
    (hstore : storeLane x l = true) :
    store x = some (headRequest (laneHead x l)) := by
  cases hs : store x with
  | none =>
      rw [store_eq_none hs h] at hstore
      cases hstore
  | some r =>
      obtain ⟨m, hm, hmstore, rfl⟩ := store_eq_some hs
      rw [storeLane_unique h hstore hm hmstore]

/-- The first pass hands the store over exactly when the second retires it. -/
theorem storeHandshake_retires :
    storeHandshake x storeReady mmioStoreReady = true ↔
      ∃ l, retiresStore x storeReady mmioStoreReady l = true := by
  constructor
  · intro hshake
    have hsome : (store x).isSome = true := by
      rw [storeHandshake, Bool.and_eq_true] at hshake
      exact hshake.1
    obtain ⟨r, hr⟩ := Option.isSome_iff_exists.mp hsome
    obtain ⟨l, hl, hstore, rfl⟩ := store_eq_some hr
    rw [storeHandshake_iff hr] at hshake
    exact ⟨l, retiresStore_iff.mpr ⟨hl, hstore, hshake⟩⟩
  · rintro ⟨l, hl⟩
    obtain ⟨hcandidate, hstore, hready⟩ := retiresStore_iff.mp hl
    rw [storeHandshake_iff (store_of_candidate hcandidate hstore)]
    exact hready

/-- The memory offset of a lane that passes is its position in the LSQ. -/
theorem memoryOffset_eq {ready : LsqEntry → Bool} {l : Lane}
    (h : passes x ready l = true) :
    (scanAt x ready l).memoryOffset = lsqPosition x l := by
  match l, h with
  | 0, _ => rfl
  | 1, h =>
      have hzero : laneCanCommit x ready {} 0 = true := passes_one h
      rw [scanAt, afterLane_memoryOffset, hzero]
      simp [lsqPosition]

theorem lsqRetireCount_eq :
    lsqRetireCount x storeReady mmioStoreReady =
      (retireValid x storeReady mmioStoreReady 0 &&
        (x.robCommitEntry 0).isMemory).toNat +
      (retireValid x storeReady mmioStoreReady 1 &&
        (x.robCommitEntry 1).isMemory).toNat := by
  rw [lsqRetireCount, afterLane_memoryOffset, scanAt, afterLane_memoryOffset]
  change 0 + _ + _ = _
  rw [Nat.zero_add]
  rfl

/-- A branch passes with the training port ready, as the only one. -/
theorem passes_branch {ready : LsqEntry → Bool} {l : Lane}
    (h : passes x ready l = true)
    (hbranch : (x.robCommitEntry l).isBranch = true) :
    x.branchTrainReady = true ∧ (scanAt x ready l).branchCount = 0 := by
  simp only [passes, laneCanCommit, hbranch, Bool.true_and, Bool.and_eq_true,
    Bool.not_eq_true', decide_eq_false_iff_not, ne_eq, not_not,
    Bool.not_eq_false'] at h
  exact ⟨h.2, h.1.2⟩

theorem branch_one_of_zero {ready : LsqEntry → Bool}
    (h : passes x ready 1 = true)
    (hzero : (x.robCommitEntry 0).isBranch = true) :
    (x.robCommitEntry 1).isBranch = false := by
  by_contra hone
  rw [Bool.not_eq_false] at hone
  have hcount := (passes_branch h hone).2
  have hpass : laneCanCommit x ready {} 0 = true := passes_one h
  rw [scanAt, afterLane, if_pos hpass, hzero] at hcount
  cases hcount

/-- The outputs of the stage for one set of inputs: the store handshake and
what it carries, the bounds on a cycle, the retired prefix and the trap. -/
structure Agrees (x : CommitInputs) (storeReady mmioStoreReady : Bool) :
    Prop where
  handshake : storeHandshake x storeReady mmioStoreReady = true ↔
    ∃ l, retiresStore x storeReady mmioStoreReady l = true
  request : ∀ l, retiresStore x storeReady mmioStoreReady l = true →
    x.lsqHeadTag (lsqPosition x l) = (x.robCommitEntry l).lsqTag ∧
      (x.lsqHeadEntry (lsqPosition x l)).valid = true ∧
      store x = some ⟨(x.lsqHeadEntry (lsqPosition x l)).address,
        (x.lsqHeadEntry (lsqPosition x l)).storeData,
        (x.lsqHeadEntry (lsqPosition x l)).memCtr⟩
  oneStore : ∀ l l', retiresStore x storeReady mmioStoreReady l = true →
    retiresStore x storeReady mmioStoreReady l' = true → l = l'
  oneBranch : ∀ l l',
    retireValid x storeReady mmioStoreReady l = true →
    retireValid x storeReady mmioStoreReady l' = true →
    (x.robCommitEntry l).isBranch = true →
    (x.robCommitEntry l').isBranch = true → l = l'
  training : ∀ l, retireValid x storeReady mmioStoreReady l = true →
    (x.robCommitEntry l).isBranch = true → x.branchTrainReady = true
  inOrder : retireValid x storeReady mmioStoreReady 1 = true →
    retireValid x storeReady mmioStoreReady 0 = true
  clean : ∀ l, retireValid x storeReady mmioStoreReady l = true →
    x.robCommitValid l = true ∧ (x.robCommitEntry l).exception = false
  trap : x.robCommitValid 0 = true → (x.robCommitEntry 0).exception = true →
    (∀ l, retireValid x storeReady mmioStoreReady l = false) ∧
      (trapReport x).valid = true ∧
      (trapReport x).pc = (x.robCommitEntry 0).pc ∧
      (trapReport x).cause = (x.robCommitEntry 0).exceptionCause ∧
      (trapReport x).value = (x.robCommitEntry 0).exceptionValue
  count : lsqRetireCount x storeReady mmioStoreReady =
    (retireValid x storeReady mmioStoreReady 0 &&
      (x.robCommitEntry 0).isMemory).toNat +
    (retireValid x storeReady mmioStoreReady 1 &&
      (x.robCommitEntry 1).isMemory).toNat

/-- The two passes agree on every input. -/
theorem passes_agree (x : CommitInputs) (storeReady mmioStoreReady : Bool) :
    Agrees x storeReady mmioStoreReady := by
  constructor
  · exact storeHandshake_retires
  · intro l hl
    obtain ⟨hcandidate, hstore, -⟩ := retiresStore_iff.mp hl
    have hmem : (x.robCommitEntry l).isMemory = true := by
      rw [storeLane, Bool.and_eq_true] at hstore
      exact hstore.1
    obtain ⟨hvalid, htag⟩ := passes_head hcandidate hmem
    have hrequest := store_of_candidate hcandidate hstore
    rw [laneHead, memoryOffset_eq hcandidate] at hvalid hrequest
    rw [memoryOffset_eq hcandidate] at htag
    exact ⟨htag, hvalid, hrequest⟩
  · intro l l' hl hl'
    obtain ⟨hcandidate, hstore, -⟩ := retiresStore_iff.mp hl
    obtain ⟨hcandidate', hstore', -⟩ := retiresStore_iff.mp hl'
    exact storeLane_unique hcandidate' hstore' hcandidate hstore
  · intro l l' hl hl' hbranch hbranch'
    rcases lane_cases l with rfl | rfl <;>
      rcases lane_cases l' with rfl | rfl
    · rfl
    · rw [branch_one_of_zero hl' hbranch] at hbranch'
      cases hbranch'
    · rw [branch_one_of_zero hl hbranch'] at hbranch
      cases hbranch
    · rfl
  · exact fun l hl hbranch => (passes_branch hl hbranch).1
  · exact passes_one
  · exact fun l hl => (passes_base hl).2
  · intro hvalid hexception
    have htrap : trapValid x = true := by
      rw [trapValid, hvalid, hexception]
      rfl
    exact ⟨passes_false_of_trap htrap, htrap, rfl, rfl, rfl⟩
  · exact lsqRetireCount_eq

end BackendCommitStage

/-- The backend reports the trap of its commit stage. -/
theorem Backend.trap_eq (s : Backend) (i : Inputs) :
    s.trap i = BackendCommitStage.trapReport (s.commitInputs i) := rfl

end OoOCore
