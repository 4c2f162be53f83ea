/-
Rings with two ports on each side.  On one edge up to two entries leave a ring
at its head and up to two enter it at its tail, the second behind the first when
the first is accepted.
-/
import Mathlib.Order.Fin.Basic
import OoOCore.Lib.Ring

namespace OoOCore

/-- One edge of a ring: the oldest slot, the slot after the youngest, how many
slots are in use, which of the two new entries are offered, and how many of the
oldest leave. -/
structure DualRing (n : Nat) where
  head : Fin n
  tail : Fin n
  count : Nat
  valid : Fin 2 → Bool
  leaving : Nat

namespace DualRing

variable {n : Nat} {α : Type}

section Ports

variable [NeZero n] (e : DualRing n)

/-- The ring has room for an offered entry. -/
def ready : Fin 2 → Bool
  | 0 => decide (e.count < n)
  | 1 => decide (e.count +
      (if e.valid 0 ∧ e.count < n then 1 else 0) < n)

def fire (l : Fin 2) : Bool := e.valid l && e.ready l

/-- The slot of an offered entry. -/
def tag : Fin 2 → Fin n
  | 0 => e.tail
  | 1 => if e.valid 0 ∧ e.count < n then Ring.slot e.tail 1 else e.tail

def accepted : Nat := (e.fire 0).toNat + (e.fire 1).toNat

/-- The offered entries that are accepted, in order. -/
def lanes : List (Fin 2) := [0, 1].filter e.fire

/-- The slots in use, oldest first. -/
def window : List (Fin n) := Ring.slots e.head e.count

/-- The array without the entries that leave. -/
def clear (empty : α) (old : Fin n → α) : Fin n → α :=
  let first := if 0 < e.leaving then
      Function.update old (Ring.slot e.head 0) empty
    else old
  if 1 < e.leaving then Function.update first (Ring.slot e.head 1) empty
  else first

/-- The array with a new entry. -/
def put (l : Fin 2) (new : α) (old : Fin n → α) : Fin n → α :=
  if e.fire l then Function.update old (e.tag l) new else old

/-- The array after the edge. -/
def entries (empty : α) (new : Fin 2 → α) (old : Fin n → α) : Fin n → α :=
  e.put 1 (new 1) (e.put 0 (new 0) (e.clear empty old))

end Ports

variable {e : DualRing n}

theorem mem_lanes {l : Fin 2} : l ∈ e.lanes ↔ e.fire l = true := by
  rw [lanes, List.mem_filter]
  match l with
  | 0 => simp
  | 1 => simp

theorem count_accepted_le (hcount : e.count ≤ n) : e.count + e.accepted ≤ n := by
  unfold accepted
  cases hf0 : e.fire 0 with
  | false =>
      cases hf1 : e.fire 1 with
      | false => simpa using hcount
      | true =>
          simp only [fire, ready, Bool.and_eq_true, decide_eq_true_eq] at hf1
          have hlt := hf1.2
          simp only [Bool.toNat_false, Bool.toNat_true]
          split at hlt <;> omega
  | true =>
      simp only [fire, ready, Bool.and_eq_true, decide_eq_true_eq] at hf0
      cases hf1 : e.fire 1 with
      | false =>
          simp only [Bool.toNat_false, Bool.toNat_true]
          omega
      | true =>
          simp only [fire, ready, Bool.and_eq_true, decide_eq_true_eq] at hf1
          have hlt := hf1.2
          rw [if_pos ⟨hf0.1, hf0.2⟩] at hlt
          simp only [Bool.toNat_true]
          omega

variable [NeZero n]

/-- The second entry goes behind the first, if that one is accepted. -/
theorem tag_one : e.tag 1 = Ring.slot e.tail (e.fire 0).toNat := by
  by_cases h : e.valid 0 = true ∧ e.count < n
  · have hfire : e.fire 0 = true := by
      simp [fire, ready, h]
    simp [tag, h, hfire]
  · have hfire : e.fire 0 = false := by
      simp only [fire, ready, Bool.and_eq_false_iff, decide_eq_false_iff_not]
      by_cases hvalid : e.valid 0 = true
      · exact Or.inr (fun hlt => h ⟨hvalid, hlt⟩)
      · exact Or.inl (by simpa using hvalid)
    simp [tag, h, hfire]

theorem lanes_tags : e.lanes.map e.tag = Ring.slots e.tail e.accepted := by
  have h0 : e.tag 0 = e.tail := rfl
  have h1 := tag_one (e := e)
  unfold lanes accepted
  cases hf0 : e.fire 0 <;> cases hf1 : e.fire 1 <;>
    simp [hf0, hf1, h0, h1, Ring.slots_succ]

theorem clear_apply (hleaving : e.leaving ≤ 2) (empty : α) (old : Fin n → α)
    (t : Fin n) : e.clear empty old t =
      if t ∈ Ring.slots e.head e.leaving then empty else old t := by
  unfold clear
  generalize e.leaving = k at hleaving
  match k, hleaving with
  | 0, _ => simp
  | 1, _ => simp [Ring.slots_succ, Function.update_apply]
  | 2, _ =>
      rw [if_pos (by omega), if_pos (by omega), Function.update_apply,
        Function.update_apply]
      simp only [Ring.slots_succ, Ring.slots_zero, List.nil_append,
        List.mem_append, List.mem_singleton]
      by_cases h1 : t = Ring.slot e.head 1
      · rw [if_pos h1, if_pos (Or.inr h1)]
      · rw [if_neg h1]
        simp only [h1, or_false]

/-- A slot that no entry goes to keeps what clearing leaves there. -/
theorem entries_of_ne {t : Fin n} (hne : ∀ l, e.fire l = true → t ≠ e.tag l)
    (empty : α) (new : Fin 2 → α) (old : Fin n → α) :
    e.entries empty new old t = e.clear empty old t := by
  unfold entries put
  cases hf0 : e.fire 0 <;> cases hf1 : e.fire 1 <;> simp [hf0, hf1, hne]

/-- The ring is as its head and its count say. -/
structure Wf (e : DualRing n) : Prop where
  two : 2 ≤ n
  count_le : e.count ≤ n
  tail_eq : e.tail = Ring.slot e.head e.count
  leaving_le : e.leaving ≤ e.count
  leaving_two : e.leaving ≤ 2

theorem Wf.tag_not_mem (h : e.Wf) {l : Fin 2} (hfire : e.fire l = true) :
    e.tag l ∉ e.window := by
  have hle := count_accepted_le h.count_le
  have hmem : e.tag l ∈ e.lanes.map e.tag :=
    List.mem_map_of_mem (mem_lanes.mpr hfire)
  rw [lanes_tags] at hmem
  obtain ⟨k, hk, heq⟩ := List.mem_map.mp hmem
  rw [List.mem_range] at hk
  rw [← heq, h.tail_eq, Ring.slot_slot]
  exact Ring.slot_not_mem_slots _ (Nat.le_add_right _ _) (by omega)

/-- An entry that stays is untouched. -/
theorem Wf.entries_of_survivor (h : e.Wf) {t : Fin n}
    (ht : t ∈ e.window.drop e.leaving) (empty : α) (new : Fin 2 → α)
    (old : Fin n → α) : e.entries empty new old t = old t := by
  have hwindow : t ∈ e.window := List.mem_of_mem_drop ht
  have hstays : t ∉ Ring.slots e.head e.leaving := by
    rw [← Ring.slots_take e.head h.leaving_le]
    intro hmem
    exact List.disjoint_take_drop (Ring.slots_nodup e.head h.count_le)
      (Nat.le_refl _) hmem ht
  rw [entries_of_ne, clear_apply h.leaving_two, if_neg hstays]
  rintro l hfire rfl
  exact h.tag_not_mem hfire hwindow

/-- An accepted entry is written. -/
theorem Wf.entries_of_tag (h : e.Wf) {l : Fin 2} (hfire : e.fire l = true)
    (empty : α) (new : Fin 2 → α) (old : Fin n → α) :
    e.entries empty new old (e.tag l) = new l := by
  unfold entries put
  match l, hfire with
  | 1, hfire => rw [if_pos hfire, Function.update_self]
  | 0, hfire =>
      have hne : e.tag 0 ≠ e.tag 1 := by
        rw [tag_one, hfire]
        intro heq
        have hslot : Ring.slot e.tail 0 = Ring.slot e.tail 1 := by
          simpa [tag] using heq
        have htwo := h.two
        have := Ring.slot_injective e.tail (by omega) (by omega) hslot
        omega
      rw [if_pos hfire]
      split
      · rw [Function.update_of_ne hne, Function.update_self]
      · rw [Function.update_self]

/-- Every other slot is cleared or was not in use. -/
theorem Wf.entries_of_other (h : e.Wf) {t : Fin n}
    (hold : t ∉ e.window.drop e.leaving) (hnew : t ∉ e.lanes.map e.tag)
    (empty : α) (new : Fin 2 → α) (old : Fin n → α) :
    e.entries empty new old t = empty ∨
      (e.entries empty new old t = old t ∧ t ∉ e.window) := by
  rw [entries_of_ne, clear_apply h.leaving_two]
  · split
    · exact Or.inl rfl
    · next hstays =>
      refine Or.inr ⟨rfl, ?_⟩
      rw [← Ring.slots_take e.head h.leaving_le] at hstays
      rw [← List.take_append_drop e.leaving e.window, List.mem_append]
      exact fun hmem => hmem.elim hstays hold
  · rintro l hfire rfl
    exact hnew (List.mem_map_of_mem (mem_lanes.mpr hfire))

/-- The slots in use after the edge. -/
theorem Wf.window_next (h : e.Wf) :
    Ring.slots (Ring.slot e.head e.leaving)
        (e.count + e.accepted - e.leaving) =
      e.window.drop e.leaving ++ e.lanes.map e.tag := by
  have hleaving := h.leaving_le
  have hsplit : Ring.slots e.head (e.count + e.accepted) =
      e.window ++ Ring.slots e.tail e.accepted := by
    rw [Ring.slots_add, h.tail_eq]
    rfl
  rw [lanes_tags, ← Ring.slots_drop e.head (by omega), hsplit,
    List.drop_append_of_le_length]
  rw [window, Ring.slots_length]
  exact hleaving

theorem Wf.tail_next (h : e.Wf) : Ring.slot e.tail e.accepted =
    Ring.slot (Ring.slot e.head e.leaving)
      (e.count + e.accepted - e.leaving) := by
  have hleaving := h.leaving_le
  rw [h.tail_eq, Ring.slot_slot, Ring.slot_slot]
  congr 1
  omega

end DualRing

end OoOCore
