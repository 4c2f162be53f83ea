/-
Dispatch acceptance: what `DispatchControl` counts is what every allocator then
grants, so an accepted lane is written into the ROB, the issue queue and, for
its class, the LSQ and the rename tables on the same edge.
-/
import OoOCore.Backend

namespace OoOCore

namespace PhysicalFreeList

variable (f : PhysicalFreeList)

theorem firstFree_some {available : PhysReg → Bool} {p : PhysReg}
    (h : firstFree available = some p) : p ≠ 0 ∧ available p = true := by
  have hp := List.find?_some h
  simpa using hp

theorem firstFree_none {available : PhysReg → Bool}
    (h : firstFree available = none) {p : PhysReg} (hp : p ≠ 0) :
    available p = false := by
  have hall := List.find?_eq_none.mp h p (List.mem_finRange p)
  simpa [hp] using hall

/-- If only `p` can be free, the count is at most one. -/
theorem freeCount_le_one {p : PhysReg}
    (honly : ∀ q, f.freeMask q = true → q = p) : f.freeCount ≤ 1 := by
  have hmono : (List.finRange 48).countP f.freeMask ≤
      (List.finRange 48).countP (· == p) := by
    apply List.countP_mono_left
    intro q _ hq
    simpa using honly q hq
  have hone : (List.finRange 48).countP (· == p) = 1 :=
    List.count_eq_one_of_mem (List.nodup_finRange 48) (List.mem_finRange p)
  unfold freeCount
  omega

theorem firstFree_isSome (hzero : f.freeMask 0 = false)
    (hcount : 0 < f.freeCount) : (firstFree f.freeMask).isSome := by
  rw [Option.isSome_iff_ne_none]
  intro hnone
  have hall : f.freeCount = 0 := by
    unfold freeCount
    rw [List.countP_eq_zero]
    intro p _
    by_cases hp : p = 0
    · rw [hp, hzero]
      simp
    · rw [firstFree_none hnone hp]
      simp
  omega

/-- Lane 1 finds a register when enough are free after lane 0. -/
theorem allocChoice_one_isSome (hzero : f.freeMask 0 = false)
    {request0 : Bool} (hcount : request0.toNat < f.freeCount) :
    (f.allocChoice request0 1).isSome := by
  have hfirst := f.firstFree_isSome hzero (by omega)
  obtain ⟨p, hp⟩ := Option.isSome_iff_exists.mp hfirst
  change (firstFree (f.availableAfter request0)).isSome
  unfold availableAfter
  rw [hp]
  cases request0 with
  | false => simpa using hfirst
  | true =>
      simp only [if_true, Bool.toNat_true] at hcount ⊢
      rw [Option.isSome_iff_ne_none]
      intro hnone
      have hle := f.freeCount_le_one (p := p) (by
        intro q hq
        by_contra hne
        have hq0 : q ≠ 0 := by
          rintro rfl
          rw [hzero] at hq
          exact absurd hq (by decide)
        have hfalse := firstFree_none hnone hq0
        rw [Function.update_of_ne hne, hq] at hfalse
        exact absurd hfalse (by decide))
      omega

/-- The two lanes are never offered the same register. -/
theorem allocChoice_ne {p q : PhysReg} (h0 : f.allocChoice true 0 = some p)
    (h1 : f.allocChoice true 1 = some q) : p ≠ q := by
  rintro rfl
  change firstFree f.freeMask = some p at h0
  change firstFree (f.availableAfter true) = some p at h1
  unfold availableAfter at h1
  rw [h0] at h1
  have hp := (firstFree_some h1).2
  simp at hp

theorem allocChoice_free {request0 : Bool} {l : Lane} {p : PhysReg}
    (h : f.allocChoice request0 l = some p) :
    p ≠ 0 ∧ f.freeMask p = true := by
  match l with
  | 0 => exact firstFree_some h
  | 1 =>
      change firstFree (f.availableAfter request0) = some p at h
      obtain ⟨hp, hfree⟩ := firstFree_some h
      refine ⟨hp, ?_⟩
      unfold availableAfter at hfree
      cases hfirst : firstFree f.freeMask with
      | none => simpa [hfirst] using hfree
      | some q =>
          cases request0 with
          | false => simpa [hfirst] using hfree
          | true =>
              by_cases hq : p = q
              · subst hq
                simp [hfirst] at hfree
              · simpa [hfirst, hq] using hfree

end PhysicalFreeList

namespace IssueQueue

theorem freeSlots_length (q : IssueQueue) :
    q.freeSlots.length = 16 - q.occupiedCount := by
  have hsplit := List.length_eq_countP_add_countP
    (fun j => (q.entries j).valid) (l := List.finRange 16)
  unfold freeSlots occupiedCount
  rw [← List.countP_eq_length_filter]
  simp only [List.length_finRange, Bool.not_eq_true, Bool.decide_eq_false]
    at hsplit
  omega

end IssueQueue

namespace Backend

variable (s : Backend) (i : Inputs)

/-- What the resource counters rely on. -/
structure Countable : Prop where
  rob : s.rob.entryCount ≤ 16
  lsq : s.lsq.entryCount ≤ 16
  zero : s.rename.freeList.freeMask 0 = false

theorem dispatchAccept_valid {l : Lane} (h : s.dispatchAccept i l = true) :
    (decodeBus i l).valid = true := by
  match l with
  | 0 =>
      simp only [dispatchAccept, DispatchControl.accept,
        DispatchControl.laneAccept, Bool.and_eq_true, dispatchLane] at h
      exact h.1.1.2
  | 1 =>
      simp only [dispatchAccept, DispatchControl.accept,
        DispatchControl.laneAccept, Bool.and_eq_true, dispatchLane] at h
      exact h.1.1.2

/-- Lane 1 never overtakes an instruction in lane 0. -/
theorem dispatchAccept_order (h1 : s.dispatchAccept i 1 = true)
    (hvalid : (decodeBus i 0).valid = true) : s.dispatchAccept i 0 = true := by
  change DispatchControl.laneAccept (DispatchControl.afterLane
    s.dispatchState (s.dispatchLane i 0)) (s.dispatchLane i 1) = true at h1
  have hbus : (s.dispatchLane i 0).valid = true := hvalid
  unfold DispatchControl.laneAccept at h1
  simp only [Bool.and_eq_true, DispatchControl.afterLane, hbus, Bool.true_and,
    Bool.not_not] at h1
  exact h1.1.1.1.2

theorem robAllocValid_eq (l : Lane) :
    s.robAllocValid i l = s.dispatchAccept i l := by
  cases h : s.dispatchAccept i l with
  | false => simp [robAllocValid, h]
  | true => simp [robAllocValid, h, s.dispatchAccept_valid i h]

/-- The resources behind an accepted lane 0. -/
theorem dispatchAccept_zero (h : s.dispatchAccept i 0 = true) :
    0 < 16 - s.rob.entryCount ∧ 0 < 16 - s.iq.occupiedCount ∧
      (laneIsMemory i 0 = true → 0 < 16 - s.lsq.entryCount) ∧
      (RenameStage.writesDestination (decodeBus i 0) = true →
        0 < s.rename.freeList.freeCount) := by
  simp only [dispatchAccept, DispatchControl.accept,
    DispatchControl.laneAccept, DispatchControl.laneHasResources,
    Bool.and_eq_true, Bool.or_eq_true, Bool.not_eq_true',
    decide_eq_true_eq] at h
  obtain ⟨-, ⟨⟨hrob, hiq⟩, hlsq⟩, hphys⟩ := h
  simp only [dispatchLane, dispatchState] at hrob hiq hlsq hphys
  refine ⟨hrob, hiq, ?_, ?_⟩
  · intro hmem
    simpa [hmem] using hlsq
  · intro hwrites
    simpa [hwrites] using hphys

/-- The resources behind an accepted lane 1, beside those lane 0 takes. -/
theorem dispatchAccept_one (h : s.dispatchAccept i 1 = true) :
    (s.dispatchAccept i 0).toNat < 16 - s.rob.entryCount ∧
      (s.dispatchAccept i 0).toNat < 16 - s.iq.occupiedCount ∧
      (laneIsMemory i 1 = true →
        (s.dispatchAccept i 0 && laneIsMemory i 0).toNat <
          16 - s.lsq.entryCount) ∧
      (RenameStage.writesDestination (decodeBus i 1) = true →
        (s.freeRequest i 0).toNat < s.rename.freeList.freeCount) := by
  have h0 : DispatchControl.laneAccept s.dispatchState (s.dispatchLane i 0) =
      s.dispatchAccept i 0 := rfl
  simp only [dispatchAccept, DispatchControl.accept] at h
  rw [DispatchControl.laneAccept] at h
  simp only [DispatchControl.laneHasResources, Bool.and_eq_true,
    Bool.or_eq_true, Bool.not_eq_true', decide_eq_true_eq] at h
  obtain ⟨-, ⟨⟨hrob, hiq⟩, hlsq⟩, hphys⟩ := h
  simp only [DispatchControl.afterLane, h0] at hrob hiq hlsq hphys
  simp only [dispatchLane, dispatchState] at hrob hiq hlsq hphys
  refine ⟨by omega, by omega, ?_, ?_⟩
  · intro hmem
    rw [hmem] at hlsq
    simp only [Bool.true_eq_false, false_or] at hlsq
    omega
  · intro hwrites
    rw [hwrites] at hphys
    simp only [Bool.true_eq_false, false_or] at hphys
    rw [freeRequest]
    omega

variable {s}

theorem Countable.robAllocFire (hs : s.Countable) (l : Lane) :
    s.rob.allocFire (s.robAllocValid i) l = s.robAllocValid i l := by
  unfold ReorderBuffer.allocFire
  have hle := hs.rob
  cases h : s.robAllocValid i l with
  | false => rfl
  | true =>
      rw [robAllocValid_eq] at h
      match l, h with
      | 0, h =>
          have hres := (s.dispatchAccept_zero i h).1
          simp only [ReorderBuffer.allocReady, ReorderBuffer.depth,
            Bool.true_and, decide_eq_true_eq]
          omega
      | 1, h =>
          have hres := (s.dispatchAccept_one i h).1
          simp only [ReorderBuffer.allocReady, ReorderBuffer.depth,
            Bool.true_and, decide_eq_true_eq, robAllocValid_eq]
          cases h0 : s.dispatchAccept i 0 with
          | false =>
              simp only [Bool.false_eq_true, false_and, if_false]
              omega
          | true =>
              rw [h0, Bool.toNat_true] at hres
              split <;> omega

theorem Countable.lsqAllocFire (hs : s.Countable) (l : Lane) :
    s.lsq.allocFire (s.lsqAllocValid i) l = s.lsqAllocValid i l := by
  unfold LoadStoreQueue.allocFire
  have hle := hs.lsq
  cases h : s.lsqAllocValid i l with
  | false => rfl
  | true =>
      simp only [lsqAllocValid, robAllocValid_eq, Bool.and_eq_true] at h
      match l, h with
      | 0, h =>
          have hres := (s.dispatchAccept_zero i h.1).2.2.1 h.2
          simp only [LoadStoreQueue.allocReady, LoadStoreQueue.depth,
            Bool.true_and, decide_eq_true_eq]
          omega
      | 1, h =>
          have hres := (s.dispatchAccept_one i h.1).2.2.1 h.2
          simp only [LoadStoreQueue.allocReady, LoadStoreQueue.depth,
            Bool.true_and, decide_eq_true_eq, lsqAllocValid, robAllocValid_eq]
          cases h0 : s.dispatchAccept i 0 && laneIsMemory i 0 with
          | false =>
              simp only [Bool.false_eq_true, false_and, if_false]
              omega
          | true =>
              rw [h0, Bool.toNat_true] at hres
              split <;> omega

theorem Countable.freeChoice_isSome (hs : s.Countable) {l : Lane}
    (h : s.freeRequest i l = true) : (s.freeChoice i l).isSome := by
  have hfree := h
  simp only [freeRequest, Bool.and_eq_true] at hfree
  match l, hfree with
  | 0, hfree =>
      have hres := (s.dispatchAccept_zero i hfree.1).2.2.2 hfree.2
      exact s.rename.freeList.firstFree_isSome hs.zero hres
  | 1, hfree =>
      have hres := (s.dispatchAccept_one i hfree.1).2.2.2 hfree.2
      exact s.rename.freeList.allocChoice_one_isSome hs.zero hres

theorem Countable.destinationAllocValid_eq (hs : s.Countable) (l : Lane) :
    s.destinationAllocValid i l = s.freeRequest i l := by
  unfold destinationAllocValid
  cases h : s.freeRequest i l with
  | false => rfl
  | true => rw [hs.freeChoice_isSome i h]; rfl

/-- The renamed uop is valid exactly when its lane is accepted. -/
theorem Countable.renamedUop_valid (hs : s.Countable) (l : Lane) :
    (s.renamedUop i l).valid = s.robAllocValid i l := by
  change ((decodeBus i l).valid && s.dispatchAccept i l &&
    s.destinationAvailable i l) = s.robAllocValid i l
  rw [robAllocValid_eq]
  cases h : s.dispatchAccept i l with
  | false => simp
  | true =>
      rw [s.dispatchAccept_valid i h]
      unfold destinationAvailable
      cases hw : RenameStage.writesDestination (decodeBus i l) with
      | false => rfl
      | true =>
          have hreq : s.freeRequest i l = true := by simp [freeRequest, h, hw]
          rw [hs.freeChoice_isSome i hreq]
          rfl

theorem Countable.iqDispatchFire (hs : s.Countable) (l : Lane) :
    s.iq.dispatchFire (s.renamedUop i) l = s.robAllocValid i l := by
  unfold IssueQueue.dispatchFire
  rw [hs.renamedUop_valid]
  cases h : s.robAllocValid i l with
  | false => rfl
  | true =>
      rw [robAllocValid_eq] at h
      match l, h with
      | 0, h =>
          have hres := (s.dispatchAccept_zero i h).2.1
          rw [← s.iq.freeSlots_length] at hres
          simpa [IssueQueue.dispatchReady] using hres
      | 1, h =>
          have hres := (s.dispatchAccept_one i h).2.1
          rw [← s.iq.freeSlots_length] at hres
          simp only [IssueQueue.dispatchReady, Bool.true_and,
            decide_eq_true_eq, hs.renamedUop_valid, robAllocValid_eq]
          cases h0 : s.dispatchAccept i 0 with
          | false =>
              simp only [Bool.false_eq_true, false_and, if_false]
              omega
          | true =>
              rw [h0, Bool.toNat_true] at hres
              split <;> omega

end Backend

end OoOCore
