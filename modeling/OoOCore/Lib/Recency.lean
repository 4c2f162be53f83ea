/-
Replacement of the least recently written record.  A store of bounded capacity
that writes a record over the one with its key, or else over its oldest, keeps
the latest record of each of its most recent distinct keys.  Histories are
written newest first.
-/
import Mathlib.Data.List.Basic
import Mathlib.Data.List.Nodup

namespace OoOCore

namespace Recency

variable {α κ : Type} [DecidableEq κ] (key : α → κ)

/-- The latest record of every key, newest first. -/
def latest : List α → List α
  | [] => []
  | x :: history => x :: (latest history).filter fun y => key y ≠ key x

/-- Write a record into a store of some capacity. -/
def write (capacity : Nat) (kept : List α) (x : α) : List α :=
  (x :: kept.filter fun y => key y ≠ key x).take capacity

/-- The store after a history of writes. -/
def stored (capacity : Nat) : List α → List α
  | [] => []
  | x :: history => write key capacity (stored capacity history) x

variable {key} {x : α} {k : κ}

section Latest

theorem eraseDups_filter (p : κ → Bool) (keys : List κ) :
    (keys.filter p).eraseDups = keys.eraseDups.filter p := by
  induction keys generalizing p with
  | nil => rfl
  | cons k keys ih =>
      rw [List.eraseDups_cons, ih]
      cases hk : p k with
      | true =>
          rw [List.filter_cons_of_pos hk, List.eraseDups_cons,
            List.filter_cons_of_pos hk, List.filter_filter, List.filter_filter,
            ih]
          simp only [Bool.and_comm]
      | false =>
          rw [List.filter_cons_of_neg (by simp [hk]), ih,
            List.filter_cons_of_neg (by simp [hk]), List.filter_filter]
          apply List.filter_congr
          intro k' _
          by_cases hsame : k' = k
          · simp [hsame, hk]
          · simp [hsame]

/-- The keys of the latest records are the distinct keys of the history. -/
theorem map_latest (history : List α) :
    (latest key history).map key = (history.map key).eraseDups := by
  induction history with
  | nil => rfl
  | cons x history ih =>
      have hfilter : ((latest key history).filter fun y => key y ≠ key x).map
          key = ((latest key history).map key).filter fun k => k ≠ key x := by
        rw [List.filter_map]
        rfl
      rw [latest, List.map_cons, hfilter, ih, List.map_cons,
        List.eraseDups_cons, eraseDups_filter]
      congr 2
      funext k
      simp [beq_eq_decide]

theorem latest_nodup (history : List α) :
    ((latest key history).map key).Nodup := by
  induction history with
  | nil => exact List.nodup_nil
  | cons x history ih =>
      rw [latest, List.map_cons, List.nodup_cons]
      constructor
      · intro hmem
        obtain ⟨y, hy, hkey⟩ := List.mem_map.mp hmem
        have hne := (List.mem_filter.mp hy).2
        exact of_decide_eq_true hne hkey
      · exact ih.sublist (List.filter_sublist.map key)

/-- The record found under a key is the newest one of the history. -/
theorem find?_latest (history : List α) (k : κ) :
    (latest key history).find? (fun y => decide (key y = k)) =
      history.find? fun y => decide (key y = k) := by
  induction history with
  | nil => rfl
  | cons x history ih =>
      rw [latest]
      by_cases hk : key x = k
      · rw [List.find?_cons_of_pos (by simpa using hk),
          List.find?_cons_of_pos (by simpa using hk)]
      · rw [List.find?_cons_of_neg (by simpa using hk),
          List.find?_cons_of_neg (by simpa using hk), ← ih, List.find?_filter]
        congr 1
        funext y
        by_cases hy : key y = k
        · simp [hy, Ne.symm hk]
        · simp [hy]

end Latest

section Stored

/-- Dropping one record from the newest few leaves the newest few of the
rest. -/
theorem take_filter_key (capacity : Nat) {kept : List α}
    (hnodup : (kept.map key).Nodup) (k : κ) :
    ((kept.take (capacity + 1)).filter fun y => key y ≠ k).take capacity =
      (kept.filter fun y => key y ≠ k).take capacity := by
  induction kept generalizing capacity with
  | nil => rfl
  | cons y kept ih =>
      rw [List.map_cons, List.nodup_cons] at hnodup
      by_cases hy : key y = k
      · have hrest : ∀ z ∈ kept, decide (key z ≠ k) = true := by
          intro z hz
          apply decide_eq_true
          intro hkey
          exact hnodup.1 (List.mem_map.mpr ⟨z, hz, hkey.trans hy.symm⟩)
        have htake : ∀ z ∈ kept.take capacity, decide (key z ≠ k) = true :=
          fun z hz => hrest z (List.mem_of_mem_take hz)
        rw [List.take_succ_cons, List.filter_cons_of_neg (by simp [hy]),
          List.filter_cons_of_neg (by simp [hy]),
          List.filter_eq_self.mpr htake, List.filter_eq_self.mpr hrest,
          List.take_take, Nat.min_self]
      · rw [List.take_succ_cons, List.filter_cons_of_pos (by simp [hy]),
          List.filter_cons_of_pos (by simp [hy])]
        cases capacity with
        | zero => rfl
        | succ capacity =>
            rw [List.take_succ_cons, List.take_succ_cons, ih capacity hnodup.2]

/-- The store holds the latest records of the most recent distinct keys. -/
theorem stored_eq (capacity : Nat) (history : List α) :
    stored key (capacity + 1) history =
      (latest key history).take (capacity + 1) := by
  induction history with
  | nil => rfl
  | cons x history ih =>
      rw [stored, write, ih, latest, List.take_succ_cons, List.take_succ_cons,
        take_filter_key capacity (latest_nodup history) (key x)]

theorem stored_nodup (capacity : Nat) (history : List α) :
    ((stored key (capacity + 1) history).map key).Nodup := by
  rw [stored_eq]
  exact (latest_nodup history).sublist ((List.take_sublist _ _).map key)

/-- A key is stored while it is one of the most recent distinct ones. -/
theorem mem_stored (capacity : Nat) (history : List α) :
    (∃ y ∈ stored key (capacity + 1) history, key y = k) ↔
      k ∈ (history.map key).eraseDups.take (capacity + 1) := by
  rw [stored_eq, ← map_latest, ← List.map_take, List.mem_map]

/-- The record stored under a key is the newest one written under it. -/
theorem find?_stored (capacity : Nat) {history : List α} {y : α}
    (hy : y ∈ stored key (capacity + 1) history) :
    history.find? (fun z => decide (key z = key y)) = some y := by
  rw [stored_eq] at hy
  have hmem := List.mem_of_mem_take hy
  have hnodup : ((latest key history).map key).Nodup := latest_nodup history
  rw [← find?_latest]
  generalize latest key history = kept at hmem hnodup
  induction kept with
  | nil => exact absurd hmem List.not_mem_nil
  | cons z kept ih =>
      rw [List.map_cons, List.nodup_cons] at hnodup
      rcases List.mem_cons.mp hmem with rfl | hkept
      · exact List.find?_cons_of_pos (by simp)
      · have hne : key z ≠ key y := fun heq =>
          hnodup.1 (List.mem_map.mpr ⟨y, hkept, heq.symm⟩)
        rw [List.find?_cons_of_neg (by simpa using hne)]
        exact ih hkept hnodup.2

end Stored

end Recency

end OoOCore
