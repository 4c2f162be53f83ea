/-
The clock edge of the issue queue, entry by entry: an accepted handshake or a
recovery empties a slot, a dispatched lane fills a free one, and everything else
keeps its uop and only learns of wakeups.
-/
import OoOCore.IssueSelection

namespace OoOCore

namespace IssueQueue

/-- The entry leaves through an accepted handshake. -/
def leaves (sel : IssueSelection) (issueReady : Lane → Bool)
    (fallbackReady : Bool) (j : IqIndex) : Bool :=
  (decide (sel.port0 = some j) && issueReady 0) ||
    (decide (sel.port1 = some j) && issueReady 1) ||
    (decide (sel.fallback = some j) && fallbackReady)

theorem clearIssued_apply (fire : Bool) (choice : Option IqIndex)
    (next : IqIndex → Uop) (j : IqIndex) :
    clearIssued fire choice next j =
      if (decide (choice = some j) && fire) = true then default
      else next j := by
  cases choice with
  | none => simp [clearIssued]
  | some k =>
      cases fire with
      | false => simp [clearIssued]
      | true =>
          simp only [clearIssued, if_true, Function.update_apply,
            Option.some.injEq, Bool.and_true, decide_eq_true_eq]
          simp only [eq_comm]

theorem clearAccepted_apply (sel : IssueSelection) (issueReady : Lane → Bool)
    (fallbackReady : Bool) (next : IqIndex → Uop) (j : IqIndex) :
    clearAccepted sel issueReady fallbackReady next j =
      if leaves sel issueReady fallbackReady j = true then default
      else next j := by
  simp only [clearAccepted, clearIssued_apply, leaves, Bool.or_eq_true]
  by_cases h0 : (decide (sel.port0 = some j) && issueReady 0) = true <;>
    by_cases h1 : (decide (sel.port1 = some j) && issueReady 1) = true <;>
    by_cases hf : (decide (sel.fallback = some j) && fallbackReady) = true <;>
    simp only [h0, h1, hf, if_true, if_false, or_true, or_false,
      Bool.false_eq_true]

variable (q : IssueQueue)

theorem stepRecover_entries (mask : RobTag → Bool) (wb : Lane → Writeback)
    (issueReady : Lane → Bool) (fallbackReady : Bool) (j : IqIndex) :
    (q.stepRecover mask wb issueReady fallbackReady).entries j =
      if leaves (q.select wb) issueReady fallbackReady j = true then default
      else if (q.entries j).valid then
        if mask (q.entries j).robTag then default
        else wakeEntry wb (q.entries j)
      else q.entries j := by
  rw [stepRecover]
  exact clearAccepted_apply _ _ _ _ _

/-- A resident entry that neither leaves nor is removed stays in its slot. -/
theorem stepRecover_resident (mask : RobTag → Bool) (wb : Lane → Writeback)
    (issueReady : Lane → Bool) (fallbackReady : Bool) {j : IqIndex}
    (hvalid : (q.entries j).valid = true)
    (hstays : leaves (q.select wb) issueReady fallbackReady j = false)
    (hmask : mask (q.entries j).robTag = false) :
    (q.stepRecover mask wb issueReady fallbackReady).entries j =
      wakeEntry wb (q.entries j) := by
  rw [stepRecover_entries, hstays, hvalid, hmask]
  rfl

/-- Every valid entry after a recovery was resident before. -/
theorem stepRecover_valid (mask : RobTag → Bool) (wb : Lane → Writeback)
    (issueReady : Lane → Bool) (fallbackReady : Bool) {j : IqIndex}
    (hvalid : ((q.stepRecover mask wb issueReady fallbackReady).entries
      j).valid = true) :
    (q.entries j).valid = true ∧
      leaves (q.select wb) issueReady fallbackReady j = false ∧
      mask (q.entries j).robTag = false := by
  rw [stepRecover_entries] at hvalid
  split at hvalid
  · cases hvalid
  · next hstays =>
    split at hvalid
    · next hold =>
      split at hvalid
      · cases hvalid
      · next hmask => exact ⟨hold, by simpa using hstays, by simpa using hmask⟩
    · next hold => exact absurd hvalid hold

variable (uop : Lane → Uop)

/-- The slot an accepted dispatch lane is written to. -/
def dispatchSlot (l : Lane) : Option IqIndex :=
  if q.dispatchFire uop l then q.freeSlots[q.dispatchRank uop l]? else none

theorem dispatchLane_apply {α : Type} (l : Lane) (value : α)
    (next : IqIndex → α) (j : IqIndex) :
    q.dispatchLane uop l value next j =
      if q.dispatchSlot uop l = some j then value else next j := by
  unfold dispatchLane dispatchSlot
  cases hslot : q.freeSlots[q.dispatchRank uop l]? with
  | none => simp
  | some k =>
      cases hfire : q.dispatchFire uop l with
      | false => simp
      | true =>
          simp only [if_true, Function.update_apply, Option.some.injEq]
          simp only [eq_comm]

theorem dispatchSlot_free {l : Lane} {j : IqIndex}
    (h : q.dispatchSlot uop l = some j) : (q.entries j).valid = false := by
  unfold dispatchSlot at h
  split at h
  · have hmem := List.mem_of_getElem? h
    simpa [freeSlots] using hmem
  · cases h

theorem dispatchSlot_some {l : Lane} (hfire : q.dispatchFire uop l = true) :
    ∃ j, q.dispatchSlot uop l = some j := by
  have hlt : q.dispatchRank uop l < q.freeSlots.length := by
    match l, hfire with
    | 0, hfire =>
        simp only [dispatchFire, dispatchReady, Bool.and_eq_true,
          decide_eq_true_eq] at hfire
        exact hfire.2
    | 1, hfire =>
        have hready := hfire
        simp only [dispatchFire, dispatchReady, Bool.and_eq_true,
          decide_eq_true_eq] at hready
        have hlt := hready.2
        change (q.dispatchFire uop 0).toNat < _
        cases hf : q.dispatchFire uop 0 with
        | false => simp only [Bool.toNat_false]; omega
        | true =>
            simp only [dispatchFire, dispatchReady, Bool.and_eq_true,
              decide_eq_true_eq] at hf
            rw [if_pos hf] at hlt
            simp only [Bool.toNat_true]
            omega
  refine ⟨q.freeSlots[q.dispatchRank uop l], ?_⟩
  simp [dispatchSlot, hfire, hlt]

/-- Two lanes are never written to one slot. -/
theorem dispatchSlot_injective {l l' : Lane} {j : IqIndex}
    (h : q.dispatchSlot uop l = some j) (h' : q.dispatchSlot uop l' = some j) :
    l = l' := by
  have hnodup : q.freeSlots.Nodup := (List.nodup_finRange 16).filter _
  have hrank : ∀ {l : Lane}, q.dispatchSlot uop l = some j →
      q.dispatchFire uop l = true ∧
        q.freeSlots[q.dispatchRank uop l]? = some j := by
    intro l hl
    unfold dispatchSlot at hl
    split at hl
    · next hf => exact ⟨hf, hl⟩
    · cases hl
  obtain ⟨hf, hr⟩ := hrank h
  obtain ⟨hf', hr'⟩ := hrank h'
  have hlt := (List.getElem?_eq_some_iff.mp hr).1
  have heq : q.dispatchRank uop l = q.dispatchRank uop l' :=
    (List.getElem?_inj hlt hnodup).mp (hr.trans hr'.symm)
  match l, l', hf, hf', heq with
  | 0, 0, _, _, _ => rfl
  | 1, 1, _, _, _ => rfl
  | 0, 1, hf, _, heq => simp [dispatchRank, hf] at heq
  | 1, 0, _, hf', heq => simp [dispatchRank, hf'] at heq

theorem stepNormal_entries (wb : Lane → Writeback) (issueReady : Lane → Bool)
    (fallbackReady : Bool) (j : IqIndex) :
    (q.stepNormal uop wb issueReady fallbackReady).entries j =
      if q.dispatchSlot uop 1 = some j then dispatchEntry wb (uop 1)
      else if q.dispatchSlot uop 0 = some j then dispatchEntry wb (uop 0)
      else if leaves (q.select wb) issueReady fallbackReady j = true then
        default
      else if (q.entries j).valid then wakeEntry wb (q.entries j)
      else q.entries j := by
  simp only [stepNormal, dispatchLane_apply, clearAccepted_apply]

/-- A dispatched lane is in its slot after the edge. -/
theorem stepNormal_dispatched (wb : Lane → Writeback)
    (issueReady : Lane → Bool) (fallbackReady : Bool) {l : Lane} {j : IqIndex}
    (hslot : q.dispatchSlot uop l = some j) :
    (q.stepNormal uop wb issueReady fallbackReady).entries j =
      dispatchEntry wb (uop l) := by
  rw [stepNormal_entries]
  match l, hslot with
  | 1, hslot => rw [if_pos hslot]
  | 0, hslot =>
      have hne : q.dispatchSlot uop 1 ≠ some j := by
        intro h1
        have := q.dispatchSlot_injective uop h1 hslot
        exact absurd this (by decide)
      rw [if_neg hne, if_pos hslot]

/-- A resident entry that does not leave stays in its slot. -/
theorem stepNormal_resident (wb : Lane → Writeback) (issueReady : Lane → Bool)
    (fallbackReady : Bool) {j : IqIndex} (hvalid : (q.entries j).valid = true)
    (hstays : leaves (q.select wb) issueReady fallbackReady j = false) :
    (q.stepNormal uop wb issueReady fallbackReady).entries j =
      wakeEntry wb (q.entries j) := by
  have hne (l : Lane) : q.dispatchSlot uop l ≠ some j := by
    intro hslot
    rw [q.dispatchSlot_free uop hslot] at hvalid
    exact absurd hvalid (by decide)
  rw [stepNormal_entries, if_neg (hne 1), if_neg (hne 0), hstays, hvalid]
  rfl

/-- Every valid entry after an ordinary edge was dispatched now or resident
before. -/
theorem stepNormal_valid (wb : Lane → Writeback) (issueReady : Lane → Bool)
    (fallbackReady : Bool) {j : IqIndex}
    (hvalid : ((q.stepNormal uop wb issueReady fallbackReady).entries
      j).valid = true) :
    (∃ l, q.dispatchSlot uop l = some j) ∨
      ((q.entries j).valid = true ∧
        leaves (q.select wb) issueReady fallbackReady j = false) := by
  by_cases h1 : q.dispatchSlot uop 1 = some j
  · exact Or.inl ⟨1, h1⟩
  by_cases h0 : q.dispatchSlot uop 0 = some j
  · exact Or.inl ⟨0, h0⟩
  right
  rw [stepNormal_entries, if_neg h1, if_neg h0] at hvalid
  cases hl : leaves (q.select wb) issueReady fallbackReady j with
  | true =>
      rw [hl, if_pos rfl] at hvalid
      exact absurd hvalid (by decide)
  | false =>
      refine ⟨?_, rfl⟩
      by_contra hinvalid
      rw [hl] at hvalid
      simp only [Bool.false_eq_true, if_false, hinvalid] at hvalid

end IssueQueue

end OoOCore
