/-
The store buffer as a first-in first-out queue: its contents from head to tail,
and what one clock edge pushes and pops.
-/
import OoOCore.StoreBuffer

namespace OoOCore

namespace StoreBuffer

/-- The buffered stores, oldest first. -/
def contents (b : StoreBuffer) : List StoreRequest :=
  (Ring.slots b.headPtr b.entryCount).map b.entry

/-- The pointers delimit the buffered stores. -/
structure Wf (b : StoreBuffer) : Prop where
  count_le : b.entryCount ≤ depth
  tail_eq : b.tailPtr = addPtr b.headPtr b.entryCount

theorem reset_wf : reset.Wf where
  count_le := by decide
  tail_eq := by decide

@[simp] theorem reset_contents : reset.contents = [] := rfl

theorem contents_length (b : StoreBuffer) :
    b.contents.length = b.entryCount := by
  simp [contents]

theorem empty_iff (b : StoreBuffer) : b.empty = true ↔ b.contents = [] := by
  rw [empty, decide_eq_true_eq, ← List.length_eq_zero_iff, contents_length]

/-- What is offered to the memory port is the oldest buffered store. -/
theorem drainRequest_eq {b : StoreBuffer} (h : b.drainValid = true) :
    ∃ rest, b.contents = b.drainRequest :: rest := by
  have hempty : b.empty = false := by simpa [drainValid] using h
  have hcount : b.entryCount ≠ 0 := by simpa [empty] using hempty
  obtain ⟨count, hsucc⟩ := Nat.exists_eq_succ_of_ne_zero hcount
  refine ⟨(Ring.slots (Ring.slot b.headPtr 1) count).map b.entry, ?_⟩
  rw [contents, hsucc, Ring.slots_cons, List.map_cons, drainRequest, hempty]
  rfl

section Step

variable {b : StoreBuffer} (enqueueValid : Bool) (request : StoreRequest)
  (drainReady : Bool)

theorem step_entry (j : Fin 8) :
    (b.step enqueueValid request drainReady).entry j =
      if b.enqueueFire enqueueValid drainReady = true ∧ j = b.tailPtr then
        request
      else b.entry j := by
  by_cases hfire : b.enqueueFire enqueueValid drainReady = true
  · by_cases hj : j = b.tailPtr
    · simp [entry, step, hfire, hj]
    · simp [entry, step, hfire, hj, Function.update_of_ne]
  · simp [entry, step, hfire]

theorem step_headPtr :
    (b.step enqueueValid request drainReady).headPtr =
      Ring.slot b.headPtr (b.drainFire drainReady).toNat := by
  cases hdrain : b.drainFire drainReady <;> simp [step, hdrain, incrementPtr]

theorem step_tailPtr :
    (b.step enqueueValid request drainReady).tailPtr =
      Ring.slot b.tailPtr (b.enqueueFire enqueueValid drainReady).toNat := by
  cases hfire : b.enqueueFire enqueueValid drainReady <;>
    simp [step, hfire, incrementPtr]

theorem drainFire_le (drainReady : Bool) :
    (b.drainFire drainReady).toNat ≤ b.entryCount := by
  cases hdrain : b.drainFire drainReady with
  | false => exact Nat.zero_le _
  | true =>
      simp only [drainFire, drainValid, empty, Bool.and_eq_true,
        Bool.not_eq_true', decide_eq_false_iff_not] at hdrain
      exact Nat.one_le_iff_ne_zero.mpr hdrain.1

theorem step_entryCount :
    (b.step enqueueValid request drainReady).entryCount =
      (b.entryCount - (b.drainFire drainReady).toNat) +
        (b.enqueueFire enqueueValid drainReady).toNat := by
  have hpop := b.drainFire_le drainReady
  change b.entryCount + (b.enqueueFire enqueueValid drainReady).toNat -
    (b.drainFire drainReady).toNat = _
  omega

/-- A push leaves room for itself: the buffer is not full, or it pops. -/
theorem Wf.enqueueFire_lt (hwf : b.Wf)
    (hfire : b.enqueueFire enqueueValid drainReady = true) :
    b.entryCount - (b.drainFire drainReady).toNat < depth := by
  have hle := hwf.count_le
  rw [enqueueFire, enqueueReady, Bool.and_eq_true] at hfire
  have hpop := b.drainFire_le drainReady
  cases hdrain : b.drainFire drainReady with
  | false =>
      have hfull : b.full = false := by simpa [hdrain] using hfire.2
      simp only [full, decide_eq_false_iff_not] at hfull
      rw [Bool.toNat_false]
      omega
  | true =>
      rw [hdrain, Bool.toNat_true] at hpop
      rw [Bool.toNat_true]
      omega

theorem Wf.tail_after_drain (hwf : b.Wf) (drainReady : Bool) :
    Ring.slot (Ring.slot b.headPtr (b.drainFire drainReady).toNat)
      (b.entryCount - (b.drainFire drainReady).toNat) = b.tailPtr := by
  have hpop := b.drainFire_le drainReady
  rw [hwf.tail_eq, Ring.slot_slot, Nat.add_sub_cancel' hpop]

/-- The slots that stay are not overwritten by the push. -/
theorem Wf.step_entry_kept (hwf : b.Wf) {j : Fin 8}
    (hj : j ∈ (Ring.slots b.headPtr b.entryCount).drop
      (b.drainFire drainReady).toNat) :
    (b.step enqueueValid request drainReady).entry j = b.entry j := by
  rw [step_entry, if_neg]
  rintro ⟨hfire, rfl⟩
  rw [Ring.slots_drop _ (b.drainFire_le drainReady),
    ← hwf.tail_after_drain drainReady] at hj
  exact Ring.slot_not_mem_slots _ (Nat.le_refl _)
    (hwf.enqueueFire_lt enqueueValid drainReady hfire) hj

/-- One edge pops the oldest store and pushes the new one behind the rest. -/
theorem Wf.step_contents (hwf : b.Wf) :
    (b.step enqueueValid request drainReady).contents =
      b.contents.drop (b.drainFire drainReady).toNat ++
        if b.enqueueFire enqueueValid drainReady then [request] else [] := by
  have hkept : ((Ring.slots b.headPtr b.entryCount).drop
      (b.drainFire drainReady).toNat).map
        (b.step enqueueValid request drainReady).entry =
      b.contents.drop (b.drainFire drainReady).toNat := by
    rw [contents, ← List.map_drop]
    apply List.map_congr_left
    intro j hj
    exact hwf.step_entry_kept enqueueValid request drainReady hj
  rw [contents, step_headPtr, step_entryCount, Ring.slots_add,
    List.map_append, ← Ring.slots_drop _ (b.drainFire_le drainReady), hkept,
    hwf.tail_after_drain]
  congr 1
  cases hfire : b.enqueueFire enqueueValid drainReady with
  | false => rfl
  | true =>
      rw [Bool.toNat_true, Ring.slots_succ, Ring.slots_zero, Ring.slot_zero,
        List.nil_append, List.map_cons, List.map_nil, step_entry,
        if_pos ⟨hfire, rfl⟩]
      rfl

theorem Wf.step_wf (hwf : b.Wf) :
    (b.step enqueueValid request drainReady).Wf where
  count_le := by
    have hle := hwf.count_le
    rw [step_entryCount]
    cases hfire : b.enqueueFire enqueueValid drainReady with
    | false =>
        rw [Bool.toNat_false]
        omega
    | true =>
        have hlt := hwf.enqueueFire_lt enqueueValid drainReady hfire
        rw [Bool.toNat_true]
        omega
  tail_eq := by
    rw [step_tailPtr, step_headPtr, step_entryCount,
      ← hwf.tail_after_drain drainReady, Ring.slot_slot]

end Step

end StoreBuffer

end OoOCore
