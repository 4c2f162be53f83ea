/-
What retirement can do in one cycle: the retired lanes are a front of complete,
non-faulting ROB entries, a cycle that recovers or traps retires nothing, and
the two passes over the lanes agree on the store they let through.
-/
import OoOCore.Backend

namespace OoOCore

namespace BackendCommitStage

variable {x : CommitInputs} {storeReady : LsqEntry → Bool}

/-- What every lane check asks for. -/
theorem laneCanCommit_base {scan : CommitScan} {l : Lane}
    (h : laneCanCommit x storeReady scan l = true) :
    x.recoveryValid = false ∧ scan.retirePrefix = true ∧
      x.robCommitValid l = true ∧ (x.robCommitEntry l).exception = false := by
  simp only [laneCanCommit, Bool.and_eq_true, Bool.not_eq_true'] at h
  exact ⟨h.1.1.1.1.1.1, h.1.1.1.1.1.2, h.1.1.1.1.2, h.1.1.1.2⟩

theorem passes_base {l : Lane} (h : passes x storeReady l = true) :
    x.recoveryValid = false ∧ x.robCommitValid l = true ∧
      (x.robCommitEntry l).exception = false := by
  have hbase := laneCanCommit_base h
  exact ⟨hbase.1, hbase.2.2⟩

/-- Lane 1 only passes behind lane 0. -/
theorem passes_one (h : passes x storeReady 1 = true) :
    passes x storeReady 0 = true := by
  have hbase := (laneCanCommit_base h).2.1
  by_contra hzero
  change ¬ laneCanCommit x storeReady {} 0 = true at hzero
  simp [scanAt, afterLane, hzero] at hbase

theorem passes_false_of_recovery (hrec : x.recoveryValid = true) (l : Lane) :
    passes x storeReady l = false := by
  by_contra h
  rw [Bool.not_eq_false] at h
  have hbase := (passes_base h).1
  rw [hrec] at hbase
  exact absurd hbase (by decide)

theorem passes_false_of_trap (htrap : trapValid x = true) (l : Lane) :
    passes x storeReady l = false := by
  simp only [trapValid, Bool.and_eq_true] at htrap
  have hzero : passes x storeReady 0 = false := by
    by_contra h
    rw [Bool.not_eq_false] at h
    have hbase := (passes_base h).2.2
    rw [htrap.2] at hbase
    exact absurd hbase (by decide)
  match l with
  | 0 => exact hzero
  | 1 =>
      by_contra h
      rw [Bool.not_eq_false] at h
      rw [passes_one h] at hzero
      exact absurd hzero (by decide)

theorem afterLane_memoryOffset (scan : CommitScan) (l : Lane) :
    (afterLane x storeReady scan l).memoryOffset = scan.memoryOffset +
      (laneCanCommit x storeReady scan l &&
        (x.robCommitEntry l).isMemory).toNat := by
  unfold afterLane
  cases laneCanCommit x storeReady scan l <;> simp

/-- At most one branch passes in a cycle. -/
theorem passes_one_branch (h : passes x storeReady 1 = true)
    (hbranch : (x.robCommitEntry 1).isBranch = true) :
    (x.robCommitEntry 0).isBranch = false := by
  have hzero : laneCanCommit x storeReady {} 0 = true := passes_one h
  have hscan : (scanAt x storeReady 1).branchCount =
      (x.robCommitEntry 0).isBranch.toNat := by
    rw [scanAt, afterLane, if_pos hzero]
    exact Nat.zero_add _
  simp only [passes, laneCanCommit, hbranch, hscan, Bool.true_and,
    Bool.and_eq_true, Bool.not_eq_true', decide_eq_false_iff_not,
    ne_eq, not_not] at h
  exact Bool.toNat_eq_zero.mp h.1.2

section TwoPasses

variable (x)

/-- The lane shows a store. -/
def storeLane (l : Lane) : Bool :=
  (x.robCommitEntry l).isMemory && (x.robCommitEntry l).isStore

/-- The LSQ head a lane looks at in the first pass. -/
def laneHead (l : Lane) : LsqEntry :=
  x.lsqHeadEntry (scanAt x candidateReady l).memoryOffset

variable {x}

/-- The passes differ only in the readiness asked of a store. -/
theorem laneCanCommit_ready (scan : CommitScan) (l : Lane) :
    laneCanCommit x storeReady scan l =
      (laneCanCommit x candidateReady scan l &&
        (!storeLane x l || storeReady (x.lsqHeadEntry scan.memoryOffset))) := by
  simp only [laneCanCommit, memoryCanCommit, storeCanCommit, candidateReady,
    storeLane]
  cases hmem : (x.robCommitEntry l).isMemory with
  | false => simp
  | true =>
      cases hstore : (x.robCommitEntry l).isStore with
      | false => simp
      | true =>
          rw [Bool.eq_iff_iff]
          simp only [Bool.not_true, Bool.false_or, Bool.and_true,
            Bool.and_eq_true]
          tauto

theorem scanAt_one_eq (h : passes x storeReady 0 = true) :
    scanAt x storeReady 1 = scanAt x candidateReady 1 := by
  have hready : laneCanCommit x storeReady {} 0 = true := h
  have hcandidate := hready
  rw [laneCanCommit_ready, Bool.and_eq_true] at hcandidate
  rw [scanAt, scanAt, afterLane, afterLane, if_pos hready,
    if_pos hcandidate.1]

theorem passes_candidate {l : Lane} (h : passes x storeReady l = true) :
    passes x candidateReady l = true := by
  have hready := h
  match l with
  | 0 =>
      rw [passes, laneCanCommit_ready, Bool.and_eq_true] at hready
      exact hready.1
  | 1 =>
      rw [passes, scanAt_one_eq (passes_one h), laneCanCommit_ready,
        Bool.and_eq_true] at hready
      exact hready.1

/-- A store that passes has its address and its data, and is the first one. -/
theorem passes_store_ready {l : Lane} (h : passes x candidateReady l = true)
    (hstore : storeLane x l = true) :
    (laneHead x l).addressReady = true ∧ (laneHead x l).dataReady = true ∧
      (scanAt x candidateReady l).storeCount = 0 := by
  rw [storeLane, Bool.and_eq_true] at hstore
  simp only [passes, laneCanCommit, memoryCanCommit, storeCanCommit, hstore.1,
    hstore.2, Bool.not_true, Bool.false_or, Bool.and_eq_true,
    decide_eq_true_eq] at h
  exact ⟨h.1.1.2.2.1.1.1, h.1.1.2.2.1.1.2, h.1.1.2.2.1.2⟩

/-- At most one store passes in a cycle. -/
theorem storeLane_one_of_zero (h0 : storeLane x 0 = true)
    (h : passes x candidateReady 1 = true) : storeLane x 1 = false := by
  have hzero : laneCanCommit x candidateReady {} 0 = true := passes_one h
  by_contra hstore
  rw [Bool.not_eq_false] at hstore
  have hcount := (passes_store_ready h hstore).2.2
  rw [storeLane] at h0
  rw [scanAt, afterLane, if_pos hzero, h0] at hcount
  cases hcount

theorem storeLane_unique {l l' : Lane}
    (hl : passes x candidateReady l = true) (hs : storeLane x l = true)
    (hl' : passes x candidateReady l' = true) (hs' : storeLane x l' = true) :
    l' = l := by
  match l, l' with
  | 0, 0 => rfl
  | 1, 1 => rfl
  | 0, 1 =>
      rw [storeLane_one_of_zero hs hl'] at hs'
      cases hs'
  | 1, 0 =>
      rw [storeLane_one_of_zero hs' hl] at hs
      cases hs

/-- A store the first pass offers retires exactly when its destination is
ready. -/
theorem passes_eq_ready {l : Lane} (h : passes x candidateReady l = true)
    (hstore : storeLane x l = true) :
    passes x storeReady l = storeReady (laneHead x l) := by
  match l with
  | 0 =>
      rw [passes, laneCanCommit_ready]
      rw [passes] at h
      change (laneCanCommit x candidateReady {} 0 && _) = _
      rw [show laneCanCommit x candidateReady {} 0 = true from h, hstore]
      rfl
  | 1 =>
      have hzero : passes x candidateReady 0 = true := passes_one h
      have hother : storeLane x 0 = false := by
        by_contra h0
        rw [Bool.not_eq_false] at h0
        rw [storeLane_one_of_zero h0 h] at hstore
        cases hstore
      have hready : passes x storeReady 0 = true := by
        rw [passes, laneCanCommit_ready, hother]
        rw [show laneCanCommit x candidateReady (scanAt x storeReady 0) 0 =
          true from hzero]
        rfl
      rw [passes, scanAt_one_eq hready, laneCanCommit_ready, hstore]
      rw [passes] at h
      rw [h]
      rfl

/-- The request a lane's store forms. -/
def headRequest (head : LsqEntry) : StoreRequest :=
  ⟨head.address, head.storeData, head.memCtr⟩

theorem laneStore_eq (l : Lane) : laneStore x l =
    if passes x candidateReady l && storeLane x l then
      some (headRequest (laneHead x l))
    else none := by
  simp only [laneStore, storeLane, Bool.and_eq_true]
  rfl

theorem store_eq_some {r : StoreRequest} (h : store x = some r) :
    ∃ l, passes x candidateReady l = true ∧ storeLane x l = true ∧
      r = headRequest (laneHead x l) := by
  have hlane : ∀ l, laneStore x l = some r →
      passes x candidateReady l = true ∧ storeLane x l = true ∧
        r = headRequest (laneHead x l) := by
    intro l hl
    rw [laneStore_eq] at hl
    split at hl
    · next hcond =>
      rw [Bool.and_eq_true] at hcond
      exact ⟨hcond.1, hcond.2, (Option.some.inj hl).symm⟩
    · cases hl
  rw [store, Option.or_eq_some_iff] at h
  rcases h with h | ⟨-, h⟩
  · exact ⟨1, hlane 1 h⟩
  · exact ⟨0, hlane 0 h⟩

theorem store_eq_none (h : store x = none) {l : Lane}
    (hl : passes x candidateReady l = true) : storeLane x l = false := by
  rw [store, Option.or_eq_none_iff, laneStore_eq, laneStore_eq] at h
  by_contra hstore
  rw [Bool.not_eq_false] at hstore
  match l with
  | 0 => simp [hl, hstore] at h
  | 1 => simp [hl, hstore] at h

/-- A memory lane that passes finds its own LSQ entry at the head. -/
theorem passes_head {l : Lane} (h : passes x candidateReady l = true)
    (hmem : (x.robCommitEntry l).isMemory = true) :
    (laneHead x l).valid = true ∧
      x.lsqHeadTag (scanAt x candidateReady l).memoryOffset =
        (x.robCommitEntry l).lsqTag := by
  simp only [passes, laneCanCommit, memoryCanCommit, hmem, Bool.not_true,
    Bool.false_or, Bool.and_eq_true, decide_eq_true_eq] at h
  exact ⟨h.1.1.2.1.1, h.1.1.2.1.2⟩

end TwoPasses

end BackendCommitStage

namespace Backend

variable (s : Backend) (i : Inputs)

theorem robRetireValid_base {l : Lane} (h : s.robRetireValid i l = true) :
    s.recoveryValid i = false ∧ s.rob.commitValid l = true ∧
      (s.rob.commitEntry l).exception = false :=
  BackendCommitStage.passes_base h

theorem robRetireValid_one (h : s.robRetireValid i 1 = true) :
    s.robRetireValid i 0 = true :=
  BackendCommitStage.passes_one h

/-- Retirement is in order: nothing passes a lane that stays. -/
theorem robRetireValid_one_false (h : s.robRetireValid i 0 = false) :
    s.robRetireValid i 1 = false := by
  by_contra hone
  rw [Bool.not_eq_false] at hone
  rw [s.robRetireValid_one i hone] at h
  exact absurd h (by decide)

theorem robRetireValid_of_recovery (h : s.recoveryValid i = true) (l : Lane) :
    s.robRetireValid i l = false :=
  BackendCommitStage.passes_false_of_recovery h l

theorem robRetireValid_of_trap (h : s.trapValid i = true) (l : Lane) :
    s.robRetireValid i l = false :=
  BackendCommitStage.passes_false_of_trap h l

/-- Nothing retires in a redirect. -/
theorem robRetireValid_of_squash
    (h : s.trapValid i = true ∨ s.recoveryValid i = true) (l : Lane) :
    s.robRetireValid i l = false := by
  rcases h with htrap | hrec
  · exact s.robRetireValid_of_trap i htrap l
  · exact s.robRetireValid_of_recovery i hrec l

/-- The ROB pops exactly the retired lanes. -/
theorem commitAccepted_eq :
    s.rob.commitAccepted (s.robRetireValid i) = s.retireCount i := by
  unfold ReorderBuffer.commitAccepted retireCount
  cases h0 : s.robRetireValid i 0 with
  | false =>
      have h1 := s.robRetireValid_one_false i h0
      simp [h1]
  | true =>
      have hv0 := (s.robRetireValid_base i h0).2.1
      cases h1 : s.robRetireValid i 1 with
      | false => simp [hv0]
      | true =>
          have hv1 := (s.robRetireValid_base i h1).2.1
          simp [hv0, hv1]

/-- A retired entry is live, valid and complete. -/
theorem commitValid_entry {l : Lane} (h : s.rob.commitValid l = true) :
    l.val < s.rob.entryCount ∧
      (s.rob.entries (addPtr s.rob.headPtr l.val)).complete = true ∧
      s.rob.commitEntry l = s.rob.entries (addPtr s.rob.headPtr l.val) := by
  have hlane : s.rob.laneComplete l = true := by
    match l, h with
    | 0, h => exact h
    | 1, h =>
        simp only [ReorderBuffer.commitValid, Bool.and_eq_true] at h
        exact h.2
  simp only [ReorderBuffer.laneComplete, Bool.and_eq_true,
    decide_eq_true_eq] at hlane
  refine ⟨hlane.1.1, hlane.2, ?_⟩
  rw [ReorderBuffer.commitEntry, if_pos h]

end Backend

end OoOCore
