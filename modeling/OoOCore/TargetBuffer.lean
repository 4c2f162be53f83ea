/-
The contents of the branch target buffer.  Every set keeps the latest entries
of the two tags that were last taken in it, because the replacement bit always
points away from the way written last.
-/
import Mathlib.Data.List.Find
import OoOCore.BranchTables
import OoOCore.Lib.Recency

namespace OoOCore

namespace BranchTargetBuffer

/-- What a retired branch tells the buffer. -/
structure Update where
  valid : Bool
  pc : Word
  isConditional : Bool
  taken : Bool
  target : Word
deriving DecidableEq, Repr

/-- The entry an update writes. -/
def Update.entry (u : Update) : BtbEntry where
  valid := true
  tag := tagOf u.pc
  target := u.target
  conditional := u.isConditional

/-- A taken update of a set. -/
def Update.writes (u : Update) (set : BitVec 6) : Bool :=
  u.valid && u.taken && decide (setOf u.pc = set)

/-- A taken update of an instruction, whose two low address bits no table
looks at. -/
def Update.names (u : Update) (pc : Word) : Bool :=
  u.writes (setOf pc) && decide (tagOf u.pc = tagOf pc)

def apply (b : BranchTargetBuffer) (u : Update) : BranchTargetBuffer :=
  b.step u.valid u.pc u.isConditional u.taken u.target

/-- The buffer after some updates. -/
def run (updates : List Update) : BranchTargetBuffer :=
  updates.foldl apply {}

/-- The taken updates of a set, newest first. -/
def takenIn (updates : List Update) (set : BitVec 6) : List Update :=
  updates.reverse.filter fun u => u.writes set

/-- The distinct tags of the taken updates of a set, newest first. -/
def recentTags (updates : List Update) (set : BitVec 6) : List (BitVec 24) :=
  ((takenIn updates set).map fun u => tagOf u.pc).eraseDups

/-- The most recent taken update of an instruction. -/
def newest (updates : List Update) (pc : Word) : Option Update :=
  updates.reverse.find? fun u => u.names pc

/-- The two updates whose entries a set keeps. -/
def kept (updates : List Update) (set : BitVec 6) : List Update :=
  Recency.stored (fun u : Update => tagOf u.pc) 2 (takenIn updates set)

/-- A set holds the entries of at most two updates, newest first.  Its
replacement bit matters once both ways are in use. -/
def Holds (b : BranchTargetBuffer) (set : BitVec 6) : List Update → Prop
  | [] => ∀ w, (b.way set w).valid = false
  | [u] => b.way set 0 = u.entry ∧ (b.way set 1).valid = false
  | u :: v :: _ => ∃ w, b.way set w = u.entry ∧ b.way set (1 - w) = v.entry ∧
      b.replaceWay set = 1 - w

variable {b : BranchTargetBuffer} {u v : Update} {set : BitVec 6}

section Step

theorem matchesWay_entry {pc : Word} {w : Fin 2}
    (h : b.way (setOf pc) w = u.entry) :
    b.matchesWay pc w = decide (tagOf u.pc = tagOf pc) := by
  rw [matchesWay, h]
  rfl

theorem matchesWay_invalid {pc : Word} {w : Fin 2}
    (h : (b.way (setOf pc) w).valid = false) : b.matchesWay pc w = false := by
  rw [matchesWay, h, Bool.false_and]

theorem apply_of_not_writes (h : u.writes set = false) :
    (b.apply u).way set = b.way set ∧
      (b.apply u).replaceWay set = b.replaceWay set := by
  rw [apply, step]
  split
  · rename_i htaken
    have hset : set ≠ setOf u.pc := by
      rintro rfl
      simp [Update.writes, htaken] at h
    exact ⟨Function.update_of_ne hset _ _, Function.update_of_ne hset _ _⟩
  · exact ⟨rfl, rfl⟩

theorem apply_of_writes (h : u.writes set = true) :
    (b.apply u).way set = Function.update (b.way set) (b.selectedWay u.pc)
        u.entry ∧
      (b.apply u).replaceWay set = 1 - b.selectedWay u.pc := by
  rw [Update.writes, Bool.and_eq_true, decide_eq_true_eq] at h
  obtain ⟨htaken, rfl⟩ := h
  rw [apply, step, if_pos htaken]
  exact ⟨Function.update_self _ _ _, Function.update_self _ _ _⟩

theorem Holds.congr {b' : BranchTargetBuffer} {updates : List Update}
    (h : b.Holds set updates) (hway : b'.way set = b.way set)
    (hreplace : b'.replaceWay set = b.replaceWay set) :
    b'.Holds set updates := by
  match updates with
  | [] => simpa only [Holds, hway] using h
  | [_] => simpa only [Holds, hway] using h
  | _ :: _ :: _ => simpa only [Holds, hway, hreplace] using h

theorem other_ne (w : Fin 2) : 1 - w ≠ w := by
  match w with
  | 0 => decide
  | 1 => decide

theorem other_other (w : Fin 2) : 1 - (1 - w) = w := by
  match w with
  | 0 => rfl
  | 1 => rfl

/-- In a full set an update takes the way of its tag, else the one the
replacement bit points to. -/
theorem selectedWay_full {pc : Word} {w : Fin 2}
    (hw : b.way (setOf pc) w = u.entry)
    (hother : b.way (setOf pc) (1 - w) = v.entry)
    (hne : tagOf u.pc ≠ tagOf v.pc) :
    b.selectedWay pc = if tagOf u.pc = tagOf pc then w
      else if tagOf v.pc = tagOf pc then 1 - w
      else b.replaceWay (setOf pc) := by
  have hmatch := matchesWay_entry hw
  have hmatch' := matchesWay_entry hother
  by_cases hu : tagOf u.pc = tagOf pc
  · have hv : tagOf v.pc ≠ tagOf pc := fun hv => hne (hu.trans hv.symm)
    rw [if_pos hu]
    rw [decide_eq_true hu] at hmatch
    rw [decide_eq_false hv] at hmatch'
    match w with
    | 0 => rw [selectedWay, hmatch, if_pos rfl]
    | 1 =>
        rw [selectedWay, hmatch, show b.matchesWay pc 0 = false from hmatch']
        rfl
  · rw [if_neg hu]
    rw [decide_eq_false hu] at hmatch
    by_cases hv : tagOf v.pc = tagOf pc
    · rw [if_pos hv]
      rw [decide_eq_true hv] at hmatch'
      match w with
      | 0 =>
          rw [selectedWay, hmatch, show b.matchesWay pc 1 = true from hmatch']
          rfl
      | 1 =>
          rw [selectedWay, show b.matchesWay pc 0 = true from hmatch']
          rfl
    · rw [if_neg hv]
      rw [decide_eq_false hv] at hmatch'
      match w with
      | 0 =>
          rw [selectedWay, hmatch, show b.matchesWay pc 1 = false from hmatch',
            hw, show b.way (setOf pc) 1 = v.entry from hother]
          rfl
      | 1 =>
          rw [selectedWay, hmatch, show b.matchesWay pc 0 = false from hmatch',
            hw, show b.way (setOf pc) 0 = v.entry from hother]
          rfl

section Taking

variable (hwrites : u.writes (setOf u.pc) = true)

include hwrites

/-- An empty set takes its first update in way 0. -/
theorem Holds.apply_empty (h : b.Holds (setOf u.pc) []) :
    (b.apply u).Holds (setOf u.pc) [u] := by
  have hway := (apply_of_writes (b := b) hwrites).1
  have hselected : b.selectedWay u.pc = 0 := by
    rw [selectedWay, matchesWay_invalid (h 0), matchesWay_invalid (h 1),
      h 0]
    rfl
  rw [hselected] at hway
  refine ⟨?_, ?_⟩
  · rw [hway, Function.update_self]
  · rw [hway, Function.update_of_ne (by decide)]
    exact h 1

/-- Next to one entry another tag takes way 1. -/
theorem Holds.apply_one (h : b.Holds (setOf u.pc) [v]) :
    (b.apply u).Holds (setOf u.pc)
      (Recency.write (fun u : Update => tagOf u.pc) 2 [v] u) := by
  obtain ⟨hway, hreplace⟩ := apply_of_writes (b := b) hwrites
  obtain ⟨h0, h1⟩ := h
  by_cases htag : tagOf v.pc = tagOf u.pc
  · have hselected : b.selectedWay u.pc = 0 := by
      rw [selectedWay, matchesWay_entry h0, decide_eq_true htag, if_pos rfl]
    have hwrite : Recency.write (fun u : Update => tagOf u.pc) 2 [v] u =
        [u] := by
      simp [Recency.write, htag]
    rw [hselected] at hway
    rw [hwrite]
    refine ⟨?_, ?_⟩
    · rw [hway, Function.update_self]
    · rw [hway, Function.update_of_ne (by decide)]
      exact h1
  · have hselected : b.selectedWay u.pc = 1 := by
      rw [selectedWay, matchesWay_entry h0, decide_eq_false htag,
        matchesWay_invalid h1, h0, h1]
      rfl
    have hwrite : Recency.write (fun u : Update => tagOf u.pc) 2 [v] u =
        [u, v] := by
      simp [Recency.write, htag]
    rw [hselected] at hway hreplace
    rw [hwrite]
    refine ⟨1, ?_, ?_, hreplace⟩
    · rw [hway, Function.update_self]
    · rw [hway]
      exact h0

/-- A full set gives up the older entry, unless the newer has the tag. -/
theorem Holds.apply_full {v' : Update} (h : b.Holds (setOf u.pc) [v, v'])
    (hne : tagOf v.pc ≠ tagOf v'.pc) :
    (b.apply u).Holds (setOf u.pc)
      (Recency.write (fun u : Update => tagOf u.pc) 2 [v, v'] u) := by
  obtain ⟨hway, hreplace⟩ := apply_of_writes (b := b) hwrites
  obtain ⟨w, hw, hother, hbit⟩ := h
  have hselected := selectedWay_full hw hother hne
  by_cases hv : tagOf v.pc = tagOf u.pc
  · -- The newer entry is written again.
    have hv' : tagOf v'.pc ≠ tagOf u.pc := fun h => hne (hv.trans h.symm)
    have hwrite : Recency.write (fun u : Update => tagOf u.pc) 2 [v, v'] u =
        [u, v'] := by
      simp [Recency.write, hv, hv']
    rw [if_pos hv] at hselected
    rw [hselected] at hway hreplace
    rw [hwrite]
    refine ⟨w, ?_, ?_, hreplace⟩
    · rw [hway, Function.update_self]
    · rw [hway, Function.update_of_ne (other_ne w)]
      exact hother
  · -- The other way is written: with its own tag again, or as the victim.
    have hwrite : Recency.write (fun u : Update => tagOf u.pc) 2 [v, v'] u =
        [u, v] := by
      by_cases hv' : tagOf v'.pc = tagOf u.pc
      · simp [Recency.write, hv, hv']
      · simp [Recency.write, hv, hv']
    rw [if_neg hv, hbit, ite_self] at hselected
    rw [hselected] at hway hreplace
    rw [hwrite]
    refine ⟨1 - w, ?_, ?_, hreplace⟩
    · rw [hway, Function.update_self]
    · rw [hway, other_other, Function.update_of_ne (other_ne w).symm]
      exact hw

end Taking

/-- An update takes the way of its tag, else a free one, else the older
entry's. -/
theorem Holds.apply_self {updates : List Update} (h : b.Holds set updates)
    (hlength : updates.length ≤ 2)
    (hnodup : (updates.map fun u => tagOf u.pc).Nodup)
    (hwrites : u.writes set = true) :
    (b.apply u).Holds set
      (Recency.write (fun u : Update => tagOf u.pc) 2 updates u) := by
  have hset : setOf u.pc = set := by
    rw [Update.writes, Bool.and_eq_true, decide_eq_true_eq] at hwrites
    exact hwrites.2
  subst hset
  match updates, hlength with
  | [], _ => exact h.apply_empty hwrites
  | [v], _ => exact h.apply_one hwrites
  | [v, v'], _ => exact h.apply_full hwrites (by simpa using hnodup)

end Step

section Runs

theorem run_snoc (updates : List Update) (u : Update) :
    run (updates ++ [u]) = (run updates).apply u := by
  rw [run, List.foldl_append]
  rfl

theorem kept_snoc (updates : List Update) (u : Update) (set : BitVec 6) :
    kept (updates ++ [u]) set =
      if u.writes set then
        Recency.write (fun u : Update => tagOf u.pc) 2 (kept updates set) u
      else kept updates set := by
  rw [kept, takenIn, List.reverse_append, List.reverse_singleton,
    List.singleton_append]
  cases hwrites : u.writes set with
  | true =>
      rw [List.filter_cons_of_pos (by simpa using hwrites)]
      rfl
  | false =>
      rw [List.filter_cons_of_neg (by simpa using hwrites)]
      rfl

theorem kept_nodup (updates : List Update) (set : BitVec 6) :
    ((kept updates set).map fun u => tagOf u.pc).Nodup :=
  Recency.stored_nodup 1 _

theorem kept_length (updates : List Update) (set : BitVec 6) :
    (kept updates set).length ≤ 2 := by
  rw [kept, Recency.stored_eq]
  exact List.length_take_le 2 _

/-- In every run a set holds the entries its history keeps. -/
theorem run_holds (updates : List Update) (set : BitVec 6) :
    (run updates).Holds set (kept updates set) := by
  induction updates using List.reverseRecOn with
  | nil => exact fun _ => rfl
  | append_singleton updates u ih =>
      rw [run_snoc, kept_snoc]
      cases hwrites : u.writes set with
      | true =>
          rw [if_pos rfl]
          exact ih.apply_self (kept_length updates set) (kept_nodup updates set)
            hwrites
      | false =>
          rw [if_neg Bool.false_ne_true]
          obtain ⟨hway, hreplace⟩ := apply_of_not_writes (b := run updates)
            hwrites
          exact ih.congr hway hreplace

end Runs

section Lookup

/-- Two valid ways of a set have different tags. -/
theorem Holds.distinct {updates : List Update} (h : b.Holds set updates)
    (hnodup : (updates.map fun u => tagOf u.pc).Nodup) :
    ¬ ((b.way set 0).valid = true ∧ (b.way set 1).valid = true ∧
      (b.way set 0).tag = (b.way set 1).tag) := by
  rintro ⟨hvalid0, hvalid1, htag⟩
  match updates with
  | [] => exact Bool.false_ne_true ((h 0).symm.trans hvalid0)
  | [u] => exact Bool.false_ne_true (h.2.symm.trans hvalid1)
  | u :: v :: rest =>
      obtain ⟨w, hw, hother, _⟩ := h
      have hne : tagOf u.pc ≠ tagOf v.pc := by
        simp only [List.map_cons, List.nodup_cons, List.mem_cons] at hnodup
        exact fun heq => hnodup.1 (Or.inl heq)
      match w with
      | 0 =>
          rw [hw, show b.way set 1 = v.entry from hother] at htag
          exact hne htag
      | 1 =>
          rw [hw, show b.way set 0 = v.entry from hother] at htag
          exact hne htag.symm

/-- A lookup finds the entry with its tag among those the set holds. -/
theorem Holds.lookup_eq {updates : List Update} {pc : Word}
    (h : b.Holds (setOf pc) updates) (hlength : updates.length ≤ 2)
    (hnodup : (updates.map fun u => tagOf u.pc).Nodup) :
    b.lookup pc = (updates.find? fun u => decide (tagOf u.pc = tagOf pc)).map
      Update.entry := by
  match updates, hlength with
  | [], _ =>
      rw [lookup, matchesWay_invalid (h 0), matchesWay_invalid (h 1)]
      rfl
  | [u], _ =>
      obtain ⟨h0, h1⟩ := h
      rw [lookup, matchesWay_invalid h1, matchesWay_entry h0,
        if_neg Bool.false_ne_true, h0]
      by_cases htag : tagOf u.pc = tagOf pc
      · simp [htag]
      · simp [htag]
  | [u, v], _ =>
      obtain ⟨w, hw, hother, _⟩ := h
      have hne : tagOf u.pc ≠ tagOf v.pc := by simpa using hnodup
      match w with
      | 0 =>
          have h1 : b.way (setOf pc) 1 = v.entry := hother
          rw [lookup, matchesWay_entry hw, matchesWay_entry h1, hw, h1]
          by_cases hu : tagOf u.pc = tagOf pc
          · have hv : tagOf v.pc ≠ tagOf pc := fun hv => hne (hu.trans hv.symm)
            simp [hu, hv]
          · by_cases hv : tagOf v.pc = tagOf pc
            · simp [hu, hv]
            · simp [hu, hv]
      | 1 =>
          have h0 : b.way (setOf pc) 0 = v.entry := hother
          rw [lookup, matchesWay_entry hw, matchesWay_entry h0, hw, h0]
          by_cases hu : tagOf u.pc = tagOf pc
          · simp [hu]
          · by_cases hv : tagOf v.pc = tagOf pc
            · simp [hu, hv]
            · simp [hu, hv]

theorem lookup_run (updates : List Update) (pc : Word) :
    (run updates).lookup pc = ((kept updates (setOf pc)).find? fun u =>
      decide (tagOf u.pc = tagOf pc)).map Update.entry :=
  (run_holds updates (setOf pc)).lookup_eq (kept_length updates _)
    (kept_nodup updates _)

/-- The update a lookup finds is the most recent one of its address. -/
theorem newest_of_kept {updates : List Update} {pc : Word} {u : Update}
    (hu : (kept updates (setOf pc)).find? (fun u =>
      decide (tagOf u.pc = tagOf pc)) = some u) :
    newest updates pc = some u := by
  have htag : tagOf u.pc = tagOf pc := by
    simpa using List.find?_some hu
  have hfind := Recency.find?_stored 1 (List.mem_of_find?_eq_some hu)
  rw [htag, takenIn, List.find?_filter] at hfind
  simpa only [newest, Update.names, Bool.decide_and, Bool.decide_eq_true]
    using hfind

end Lookup

section Aligned

/-- An address is that of a word. -/
def Aligned (pc : Word) : Prop := pc.extractLsb' 0 2 = 0

theorem eq_of_aligned {pc pc' : Word} (h : Aligned pc) (h' : Aligned pc')
    (hset : setOf pc = setOf pc') (htag : tagOf pc = tagOf pc') : pc = pc' := by
  have hlow := congrArg BitVec.toNat (h.trans h'.symm)
  have hmiddle := congrArg BitVec.toNat hset
  have hhigh := congrArg BitVec.toNat htag
  simp only [setOf, tagOf, BitVec.extractLsb'_toNat, Nat.shiftRight_eq_div_pow]
    at hlow hmiddle hhigh
  apply BitVec.eq_of_toNat_eq
  omega

/-- Among aligned addresses an update names its own. -/
theorem names_of_aligned {pc : Word} (h : Aligned pc) (hu : Aligned u.pc) :
    u.names pc = (u.valid && u.taken && decide (u.pc = pc)) := by
  rw [Update.names, Update.writes, Bool.and_assoc]
  congr 1
  rw [← Bool.decide_and]
  apply decide_eq_decide.mpr
  constructor
  · rintro ⟨hset, htag⟩
    exact eq_of_aligned hu h hset htag
  · rintro rfl
    exact ⟨rfl, rfl⟩

end Aligned

/-- After every run of updates no set has a tag twice, and a lookup hits exactly
on the two most recent distinct tags of the taken updates of its set, with the
target and the flag of the most recent taken update of the address.  Updates
that are not taken change nothing. -/
theorem contents_exact (updates : List Update) :
    (∀ set, ¬ (((run updates).way set 0).valid = true ∧
      ((run updates).way set 1).valid = true ∧
      ((run updates).way set 0).tag = ((run updates).way set 1).tag)) ∧
    (∀ pc, ((run updates).hit pc = true ↔
        tagOf pc ∈ (recentTags updates (setOf pc)).take 2) ∧
      ((run updates).hit pc = true → ∃ u, newest updates pc = some u ∧
        (run updates).target pc = u.target ∧
        (run updates).hintConditional pc = u.isConditional) ∧
      (Aligned pc → (∀ u ∈ updates, Aligned u.pc) → newest updates pc =
        updates.reverse.find? fun u =>
          u.valid && u.taken && decide (u.pc = pc))) ∧
    ∀ u : Update, u.taken = false → (run updates).apply u = run updates := by
  refine ⟨?_, ?_, ?_⟩
  · intro set
    exact (run_holds updates set).distinct (kept_nodup updates set)
  · intro pc
    have hlookup := lookup_run updates pc
    refine ⟨?_, ?_, ?_⟩
    · rw [hit, hlookup, Option.isSome_map, List.find?_isSome, recentTags,
        ← Recency.mem_stored 1]
      simp only [decide_eq_true_eq]
      rfl
    · intro hhit
      rw [hit, hlookup, Option.isSome_map, Option.isSome_iff_exists] at hhit
      obtain ⟨u, hu⟩ := hhit
      refine ⟨u, newest_of_kept hu, ?_, ?_⟩
      · rw [target, hlookup, hu]
        rfl
      · rw [hintConditional, hlookup, hu]
        rfl
    · intro hpc haligned
      apply List.find?_congr
      intro u hu
      exact names_of_aligned hpc (haligned u (List.mem_reverse.mp hu))
  · intro u htaken
    rw [apply, step, htaken, Bool.and_false, if_neg Bool.false_ne_true]

end BranchTargetBuffer

end OoOCore
