/-
Allocation of tagged entries by a mispredicted branch: which tables may take a
new entry, which do, and what pressure on a full set of candidates costs.
-/
import OoOCore.TableReads
import OoOCore.TagePredictor

namespace OoOCore

/-- An entry an allocation may take. -/
def TageEntry.Replaceable (e : TageEntry) : Prop :=
  e.valid = false ∨ e.useful = 0

/-- A new entry, weak in the direction of the branch. -/
def TageEntry.allocated (e : TageEntry) (taken : Bool) : TageEntry where
  valid := true
  counter := if taken then 0b100 else 0b011
  useful := 0
  generation := e.generation + 1

namespace TageTable

variable {tagWidth : Nat} {c : TageTable tagWidth} {i : Inputs tagWidth}
  {index : BitVec 9}

/-- The ways an edge can leave an entry. -/
inductive EntryEdge (c : TageTable tagWidth) (i : Inputs tagWidth)
    (index : BitVec 9) (e : TageEntry) : Prop
  | allocated (hallocate : i.allocateValid = true)
      (hindex : index = i.updateIndex)
      (heq : e = (c.entryTable index).allocated i.updateTaken)
  | trained (hallocate : i.allocateValid = false)
      (hprovider : i.providerUpdateValid = true)
      (hindex : index = i.updateIndex)
      (hvalid : (c.entryTable index).valid = true ∧ e.valid = true)
      (hgeneration : e.generation = (c.entryTable index).generation)
  | pressed (hallocate : i.allocateValid = false)
      (hpressure : i.replacementUsefulDecrement = true)
      (hindex : index = i.updateIndex)
      (hprovider : (i.providerUpdateValid && c.updateMatch i) = false)
      (huseful : (c.entryTable index).useful ≠ 0)
      (heq : e = { c.entryTable index with
        useful := (c.entryTable index).useful - 1 })
  | aged (hage : i.ageValid = true) (hindex : index = i.ageIndex)
      (heq : e = { c.entryTable index with
        useful := (c.entryTable index).useful >>> 1 })
  | kept (heq : e = c.entryTable index)

theorem entryEdge (c : TageTable tagWidth) (i : Inputs tagWidth)
    (index : BitVec 9) : EntryEdge c i index (c.nextEntryTable i index) := by
  rw [nextEntryTable_apply]
  split
  · next hwrite =>
      simp only [Bool.and_eq_true, decide_eq_true_eq] at hwrite
      obtain ⟨hwrite, rfl⟩ := hwrite
      cases hallocate : i.allocateValid with
      | true =>
          refine EntryEdge.allocated hallocate rfl ?_
          rw [functionalEntry, hallocate, if_pos rfl]
          rfl
      | false =>
          cases hprovider : i.providerUpdateValid && c.updateMatch i with
          | true =>
              have hmatch := Bool.and_eq_true_iff.mp hprovider
              have hvalid : (c.entryTable i.updateIndex).valid = true :=
                (Bool.and_eq_true_iff.mp hmatch.2).1
              refine EntryEdge.trained hallocate hmatch.1 rfl ⟨hvalid, ?_⟩ ?_
              · rw [functionalEntry, hallocate, if_neg Bool.false_ne_true,
                  if_pos hprovider]
                exact hvalid
              · rw [functionalEntry, hallocate, if_neg Bool.false_ne_true,
                  if_pos hprovider]
                rfl
          | false =>
              rw [functionalWrite, hallocate, hprovider, Bool.false_or,
                Bool.false_or] at hwrite
              have hpressure := Bool.and_eq_true_iff.mp hwrite
              refine EntryEdge.pressed hallocate hpressure.1 rfl hprovider
                (of_decide_eq_true hpressure.2) ?_
              rw [functionalEntry, hallocate, if_neg Bool.false_ne_true,
                hprovider, if_neg Bool.false_ne_true, if_pos hwrite]
              rfl
  · split
    · next hage =>
        simp only [ageWrite, Bool.and_eq_true, decide_eq_true_eq] at hage
        obtain ⟨⟨hage, _⟩, rfl⟩ := hage
        exact EntryEdge.aged hage rfl rfl
    · exact EntryEdge.kept rfl

/-- The generation moves exactly with an allocation. -/
theorem generation_ne_iff (c : TageTable tagWidth) (i : Inputs tagWidth)
    (index : BitVec 9) :
    ((c.step i).entryTable index).generation ≠ (c.entryTable index).generation ↔
      i.allocateValid = true ∧ index = i.updateIndex := by
  constructor
  · intro hne
    cases c.entryEdge i index with
    | allocated hallocate hindex => exact ⟨hallocate, hindex⟩
    | trained _ _ _ _ hgeneration => exact absurd hgeneration hne
    | pressed _ _ _ _ _ heq =>
        exact absurd (congrArg TageEntry.generation heq) hne
    | aged _ _ heq => exact absurd (congrArg TageEntry.generation heq) hne
    | kept heq => exact absurd (congrArg TageEntry.generation heq) hne
  · rintro ⟨hallocate, rfl⟩
    have hentry : ((c.step i).entryTable i.updateIndex) =
        (c.entryTable i.updateIndex).allocated i.updateTaken := by
      change c.nextEntryTable i i.updateIndex = _
      rw [nextEntryTable_apply, functionalWrite, functionalEntry, hallocate]
      simp only [Bool.true_or, Bool.true_and, decide_true, if_true]
      rfl
    rw [hentry]
    have hnext : ∀ generation : BitVec 5, generation + 1 ≠ generation := by
      decide
    exact hnext _

/-- A tag changes only with an allocation of its entry. -/
theorem tagLane_step (hother : ¬ (i.allocateValid = true ∧ index = i.updateIndex))
    (lane : Lane) : (c.step i).tagLane lane index = c.tagLane lane index := by
  change (if i.allocateValid then _ else _ : BitVec 9 → BitVec tagWidth) index = _
  cases hallocate : i.allocateValid with
  | false => rfl
  | true =>
      rw [if_pos rfl, Function.update_of_ne]
      exact fun hindex => hother ⟨hallocate, hindex⟩

/-- An invalid entry has no use on record. -/
def Clean (c : TageTable tagWidth) : Prop :=
  ∀ index, (c.entryTable index).valid = false → (c.entryTable index).useful = 0

theorem Clean.step (h : c.Clean) (i : Inputs tagWidth) : (c.step i).Clean := by
  intro index hinvalid
  change (c.nextEntryTable i index).valid = false at hinvalid
  change (c.nextEntryTable i index).useful = 0
  cases c.entryEdge i index with
  | allocated _ _ heq =>
      rw [heq]
      rfl
  | trained _ _ _ hvalid => exact absurd (hinvalid.symm.trans hvalid.2) nofun
  | pressed _ _ _ _ huseful heq =>
      rw [heq] at hinvalid
      exact absurd (h index hinvalid) huseful
  | aged _ _ heq =>
      rw [heq] at hinvalid ⊢
      change (c.entryTable index).useful >>> 1 = 0
      rw [h index hinvalid]
      rfl
  | kept heq =>
      rw [heq] at hinvalid ⊢
      exact h index hinvalid

theorem Reachable.clean (h : Reachable c) : c.Clean := by
  induction h with
  | reset tagLane tag requestedTag => exact fun _ _ => rfl
  | step h i ih => exact ih.step i

end TageTable

namespace TagePredictor

variable {p : TagePredictor} {i : Inputs} {t t' : TageTableId}

section Pick

variable {mask : TageTableId → Bool} {start : BitVec 3}

theorem pickAllocation_iff : pickAllocation mask start t = true ↔
    ((List.finRange 8).map fun offset =>
      Fin.ofNat 8 start.toNat + offset).find? mask = some t := by
  simp only [pickAllocation, decide_eq_true_eq]

theorem pickAllocation_mask (h : pickAllocation mask start t = true) :
    mask t = true :=
  List.find?_some (pickAllocation_iff.mp h)

theorem pickAllocation_unique (h : pickAllocation mask start t = true)
    (h' : pickAllocation mask start t' = true) : t = t' :=
  Option.some.inj ((pickAllocation_iff.mp h).symm.trans
    (pickAllocation_iff.mp h'))

/-- The scan passes every table. -/
theorem pickAllocation_exists (start : BitVec 3) (h : ∃ t, mask t = true) :
    ∃ t, pickAllocation mask start t = true := by
  obtain ⟨t, ht⟩ := h
  have hoffset : ∀ a b : Fin 8, a + (b - a) = b := by
    decide
  have hmem : t ∈ (List.finRange 8).map fun offset =>
      Fin.ofNat 8 start.toNat + offset :=
    List.mem_map.mpr ⟨t - Fin.ofNat 8 start.toNat, List.mem_finRange _,
      hoffset _ _⟩
  have hsome := List.find?_isSome.mpr ⟨t, hmem, ht⟩
  obtain ⟨found, hfound⟩ := Option.isSome_iff_exists.mp hsome
  exact ⟨found, pickAllocation_iff.mpr hfound⟩

end Pick

/-- The record in training is of a mispredicted conditional branch whose
provider, if it had one, was wrong itself. -/
def AsksEntry (p : TagePredictor) : Prop :=
  p.trainingValid = true ∧ p.training.isConditional = true ∧
    p.training.tageMeta.tagePrediction ≠ p.training.taken ∧
    (p.training.tageMeta.providerValid = true →
      p.training.tageMeta.providerPrediction ≠ p.training.taken)

/-- A table has a longer history than the provider, or there is none. -/
def Longer (p : TagePredictor) (t : TageTableId) : Prop :=
  p.training.tageMeta.providerValid = true → p.trainingProvider < t

/-- The entry the record leads to in a table. -/
def trainingEntry (p : TagePredictor) (t : TageTableId) : TageEntry :=
  (p.tables t).entryTable (p.trainingIndex t)

/-- An edge allocates an entry: its generation moves. -/
def Allocates (p : TagePredictor) (i : Inputs) (t : TageTableId)
    (index : BitVec 9) : Prop :=
  (((p.step i).tables t).entryTable index).generation ≠
    ((p.tables t).entryTable index).generation

theorem allocates_iff {index : BitVec 9} : p.Allocates i t index ↔
    p.tableAllocate t = true ∧ index = p.trainingIndex t :=
  (p.tables t).generation_ne_iff (p.tableInputs i t) index

theorem allocationRequest_iff : p.allocationRequest = true ↔ p.AsksEntry := by
  simp only [allocationRequest, directionMispredict, trainsConditional,
    AsksEntry, Bool.and_eq_true, bne_iff_ne, Bool.or_eq_true,
    Bool.not_eq_true', ne_eq]
  constructor
  · rintro ⟨⟨⟨hvalid, hconditional⟩, hdirection⟩, hprovider⟩
    refine ⟨hvalid, hconditional, hdirection, fun hsome => ?_⟩
    exact hprovider.resolve_left fun hnone =>
      Bool.false_ne_true (hnone.symm.trans hsome)
  · rintro ⟨hvalid, hconditional, hdirection, hprovider⟩
    refine ⟨⟨⟨hvalid, hconditional⟩, hdirection⟩, ?_⟩
    cases hsome : p.training.tageMeta.providerValid with
    | false => exact Or.inl rfl
    | true => exact Or.inr (hprovider hsome)

theorem eligibleAllocation_iff : p.eligibleAllocation t = true ↔
    p.AsksEntry ∧ p.Longer t := by
  rw [eligibleAllocation, Bool.and_eq_true, allocationRequest_iff, Longer]
  cases p.training.tageMeta.providerValid with
  | false => simp
  | true => simp

theorem updateReplaceable_iff :
    (p.tables t).updateReplaceable (p.trainingIndex t) = true ↔
      (p.trainingEntry t).Replaceable := by
  simp only [TageTable.updateReplaceable, TageEntry.Replaceable,
    trainingEntry, Bool.or_eq_true, Bool.not_eq_true', decide_eq_true_eq]

theorem freeAllocation_iff : p.freeAllocation t = true ↔
    p.AsksEntry ∧ p.Longer t ∧ (p.trainingEntry t).Replaceable := by
  rw [freeAllocation, Bool.and_eq_true, eligibleAllocation_iff,
    updateReplaceable_iff, and_assoc]

theorem protectedAllocation_iff : p.protectedAllocation t = true ↔
    p.AsksEntry ∧ p.Longer t ∧ ¬ (p.trainingEntry t).Replaceable := by
  rw [protectedAllocation, Bool.and_eq_true, eligibleAllocation_iff,
    ← updateReplaceable_iff, Bool.not_eq_true', Bool.not_eq_true, and_assoc]

theorem tableAllocate_free (h : p.tableAllocate t = true) :
    p.freeAllocation t = true := by
  rcases Bool.or_eq_true_iff.mp h with h | h
  · exact pickAllocation_mask h
  · have hremaining := pickAllocation_mask (Bool.and_eq_true_iff.mp h).2
    exact (Bool.and_eq_true_iff.mp hremaining).1

/-- The two picks are all there is. -/
theorem tableAllocate_two {t₁ t₂ t₃ : TageTableId}
    (h₁ : p.tableAllocate t₁ = true) (h₂ : p.tableAllocate t₂ = true)
    (h₃ : p.tableAllocate t₃ = true) : t₁ = t₂ ∨ t₁ = t₃ ∨ t₂ = t₃ := by
  have hfirst {a b} (ha : p.firstAllocation a = true)
      (hb : p.firstAllocation b = true) : a = b :=
    pickAllocation_unique ha hb
  have hsecond {a b} (ha : p.secondAllocation a = true)
      (hb : p.secondAllocation b = true) : a = b :=
    pickAllocation_unique (Bool.and_eq_true_iff.mp ha).2
      (Bool.and_eq_true_iff.mp hb).2
  rcases Bool.or_eq_true_iff.mp h₁ with h₁ | h₁ <;>
    rcases Bool.or_eq_true_iff.mp h₂ with h₂ | h₂ <;>
    rcases Bool.or_eq_true_iff.mp h₃ with h₃ | h₃
  · exact Or.inl (hfirst h₁ h₂)
  · exact Or.inl (hfirst h₁ h₂)
  · exact Or.inr (Or.inl (hfirst h₁ h₃))
  · exact Or.inr (Or.inr (hsecond h₂ h₃))
  · exact Or.inr (Or.inr (hfirst h₂ h₃))
  · exact Or.inr (Or.inl (hsecond h₁ h₃))
  · exact Or.inl (hsecond h₁ h₂)
  · exact Or.inl (hsecond h₁ h₂)

theorem tableAllocate_exists (h : ∃ t, p.freeAllocation t = true) :
    ∃ t, p.tableAllocate t = true := by
  obtain ⟨t, ht⟩ := pickAllocation_exists (p.allocationLfsr.extractLsb' 0 3) h
  exact ⟨t, Bool.or_eq_true_iff.mpr (Or.inl ht)⟩

/-- The running minimum of a scan is below what it has passed. -/
theorem foldl_least_le (mask : TageTableId → Bool)
    (value : TageTableId → BitVec 2) (tables : List TageTableId)
    (least : BitVec 2) :
    tables.foldl (fun least t =>
        if mask t && decide (value t < least) then value t else least) least ≤
      least ∧
    ∀ t ∈ tables, mask t = true →
      tables.foldl (fun least t =>
        if mask t && decide (value t < least) then value t else least) least ≤
      value t := by
  induction tables generalizing least with
  | nil => exact ⟨BitVec.le_refl _, fun t ht => absurd ht List.not_mem_nil⟩
  | cons a rest ih =>
      rw [List.foldl_cons]
      obtain ⟨hstart, hrest⟩ := ih
        (if mask a && decide (value a < least) then value a else least)
      have hhead : (if mask a && decide (value a < least) then value a
          else least) ≤ least := by
        split
        · next hless =>
            simp only [Bool.and_eq_true, decide_eq_true_eq] at hless
            exact BitVec.le_of_lt hless.2
        · exact BitVec.le_refl _
      refine ⟨BitVec.le_trans hstart hhead, ?_⟩
      intro t ht hmask
      rcases List.mem_cons.mp ht with rfl | ht
      · refine BitVec.le_trans hstart ?_
        split
        · exact BitVec.le_refl _
        · next hless =>
            rw [hmask, Bool.true_and, decide_eq_true_eq] at hless
            exact BitVec.not_lt.mp hless
      · exact hrest t ht hmask

theorem minimumProtectedUseful_le (h : p.protectedAllocation t = true) :
    p.minimumProtectedUseful ≤ p.protectedUseful t :=
  (foldl_least_le p.protectedAllocation p.protectedUseful (List.finRange 8)
    0b11).2 t (List.mem_finRange t) h

/-- Pressure takes from the entry a record leads to in a table. -/
def Presses (p : TagePredictor) (t : TageTableId) (index : BitVec 9) : Prop :=
  p.replacementUsefulDecrement t = true ∧ index = p.trainingIndex t

theorem noFreeAllocation_asks (h : p.noFreeAllocation = true) :
    p.AsksEntry ∧ ∀ t, p.Longer t → ¬ (p.trainingEntry t).Replaceable := by
  rw [noFreeAllocation, Bool.and_eq_true, Bool.not_eq_true'] at h
  have hask := allocationRequest_iff.mp (Bool.and_eq_true_iff.mp h.1).1
  refine ⟨hask, fun t hlonger hreplaceable => ?_⟩
  have hnone := List.any_eq_false.mp h.2 t (List.mem_finRange t)
  exact hnone (freeAllocation_iff.mpr ⟨hask, hlonger, hreplaceable⟩)

/-- Pressure falls on the least useful of the longer tables, all of them
taken. -/
theorem replacementUsefulDecrement_least
    (h : p.replacementUsefulDecrement t = true) :
    p.AsksEntry ∧ p.Longer t ∧
      (∀ t', p.Longer t' → ¬ (p.trainingEntry t').Replaceable) ∧
      ∀ t', p.Longer t' →
        (p.trainingEntry t).useful ≤ (p.trainingEntry t').useful := by
  rw [replacementUsefulDecrement, Bool.and_eq_true, Bool.and_eq_true] at h
  obtain ⟨hask, htaken⟩ := noFreeAllocation_asks h.1.1
  have hpick := pickAllocation_mask h.2
  rw [minimumUsefulAllocation, Bool.and_eq_true, decide_eq_true_eq] at hpick
  obtain ⟨_, hlonger, _⟩ := protectedAllocation_iff.mp hpick.1
  refine ⟨hask, hlonger, htaken, fun t' hlonger' => ?_⟩
  have hprotected := protectedAllocation_iff.mpr
    ⟨hask, hlonger', htaken t' hlonger'⟩
  have hle := minimumProtectedUseful_le hprotected
  rw [← hpick.2] at hle
  exact hle

theorem replacementUsefulDecrement_unique
    (h : p.replacementUsefulDecrement t = true)
    (h' : p.replacementUsefulDecrement t' = true) : t = t' := by
  rw [replacementUsefulDecrement, Bool.and_eq_true] at h h'
  exact pickAllocation_unique h.2 h'.2

/-- Tables taken for pressure get no new entry, and their entry no training. -/
theorem replacementUsefulDecrement_alone
    (h : p.replacementUsefulDecrement t = true) :
    p.tableAllocate t = false ∧ p.providerUpdate t = false := by
  obtain ⟨_, hlonger, htaken, _⟩ := replacementUsefulDecrement_least h
  constructor
  · by_contra hallocate
    rw [Bool.not_eq_false] at hallocate
    obtain ⟨_, _, hreplaceable⟩ :=
      freeAllocation_iff.mp (tableAllocate_free hallocate)
    exact htaken t hlonger hreplaceable
  · by_contra hprovider
    rw [Bool.not_eq_false, providerUpdate, Bool.and_eq_true, Bool.and_eq_true,
      decide_eq_true_eq] at hprovider
    have hless := hlonger hprovider.1.2
    rw [hprovider.2] at hless
    exact absurd hless (lt_irrefl _)

/-- The states of the predictor in its runs from reset. -/
inductive Reachable : TagePredictor → Prop
  | reset (tables : (t : TageTableId) → TageTable (tageTagWidth t))
      (hreset : ∀ t, ∃ tagLane tag requestedTag,
        tables t = TageTable.reset tagLane tag requestedTag) :
      Reachable (reset tables)
  | step {p : TagePredictor} (h : Reachable p) (i : Inputs) :
      Reachable (p.step i)

theorem Reachable.table (h : Reachable p) (t : TageTableId) :
    TageTable.Reachable (p.tables t) := by
  induction h with
  | reset tables hreset =>
      obtain ⟨tagLane, tag, requestedTag, htable⟩ := hreset t
      change TageTable.Reachable (tables t)
      rw [htable]
      exact TageTable.Reachable.reset tagLane tag requestedTag
  | step h i ih => exact ih.step _

/-- What training may do to the entries of the tables. -/
structure AllocationPolicy (p : TagePredictor) (i : Inputs) : Prop where
  asked : ∀ t index, p.Allocates i t index → p.AsksEntry
  place : ∀ t index, p.Allocates i t index →
    p.Longer t ∧ index = p.trainingIndex t ∧ (p.trainingEntry t).Replaceable
  fresh : ∀ t index, p.Allocates i t index →
    ((p.step i).tables t).entryTable index =
        (p.trainingEntry t).allocated p.training.taken ∧
      ∀ lane, ((p.step i).tables t).tagLane lane index = p.trainingTag t
  some : p.AsksEntry →
    (∃ t, p.Longer t ∧ (p.trainingEntry t).Replaceable) →
    ∃ t, p.Allocates i t (p.trainingIndex t)
  two : ∀ t₁ t₂ t₃ index₁ index₂ index₃, p.Allocates i t₁ index₁ →
    p.Allocates i t₂ index₂ → p.Allocates i t₃ index₃ →
    t₁ = t₂ ∨ t₁ = t₃ ∨ t₂ = t₃
  provider_kept : p.training.tageMeta.providerValid = true → ∀ lane,
    ((p.step i).tables p.trainingProvider).tagLane lane
        (p.trainingIndex p.trainingProvider) =
      (p.tables p.trainingProvider).tagLane lane
        (p.trainingIndex p.trainingProvider)
  useful_kept : ∀ t index, ((p.tables t).entryTable index).valid = true →
    ((p.tables t).entryTable index).useful ≠ 0 → ∀ lane,
    ((p.step i).tables t).tagLane lane index = (p.tables t).tagLane lane index
  pressed : ∀ t index, p.Presses t index →
    p.AsksEntry ∧ p.Longer t ∧
      (∀ t', p.Longer t' → ¬ (p.trainingEntry t').Replaceable) ∧
      (∀ t', p.Longer t' →
        (p.trainingEntry t).useful ≤ (p.trainingEntry t').useful) ∧
      (∀ t' index', p.Presses t' index' → t' = t ∧ index' = index) ∧
      (((p.step i).tables t).entryTable index).useful + 1 =
        (p.trainingEntry t).useful
  lost : ∀ t index, (((p.step i).tables t).entryTable index).useful <
      ((p.tables t).entryTable index).useful →
    p.Presses t index ∨
      (p.providerUpdate t = true ∧ index = p.trainingIndex t) ∨
      (p.ageValid = true ∧ index = p.ageRow) ∨
      (p.Allocates i t index ∧ ((p.tables t).entryTable index).valid = false)

theorem lost_of {index : BitVec 9}
    (hlost : (((p.step i).tables t).entryTable index).useful <
      ((p.tables t).entryTable index).useful) :
    p.Presses t index ∨
      (p.providerUpdate t = true ∧ index = p.trainingIndex t) ∨
      (p.ageValid = true ∧ index = p.ageRow) ∨
      (p.Allocates i t index ∧
        ((p.tables t).entryTable index).valid = false) := by
  cases (p.tables t).entryEdge (p.tableInputs i t) index with
  | allocated hallocate hindex =>
      have hallocates : p.Allocates i t index :=
        allocates_iff.mpr ⟨hallocate, hindex⟩
      obtain ⟨_, _, hreplaceable⟩ := freeAllocation_iff.mp
        (tableAllocate_free hallocate)
      rcases hreplaceable with hinvalid | hzero
      · refine Or.inr (Or.inr (Or.inr ⟨hallocates, ?_⟩))
        rw [hindex]
        exact hinvalid
      · have huseful : ((p.tables t).entryTable index).useful = 0 := by
          rw [hindex]
          exact hzero
        rw [huseful] at hlost
        exact absurd hlost BitVec.not_lt_zero
  | trained _ hprovider hindex => exact Or.inr (Or.inl ⟨hprovider, hindex⟩)
  | pressed _ hpressure hindex => exact Or.inl ⟨hpressure, hindex⟩
  | aged hage hindex => exact Or.inr (Or.inr (Or.inl ⟨hage, hindex⟩))
  | kept heq =>
      have hsame : (((p.step i).tables t).entryTable index).useful =
          ((p.tables t).entryTable index).useful :=
        congrArg TageEntry.useful heq
      rw [hsame] at hlost
      exact absurd hlost (BitVec.lt_irrefl _)

theorem pressed_useful {index : BitVec 9} (h : p.Presses t index) :
    (((p.step i).tables t).entryTable index).useful + 1 =
      (p.trainingEntry t).useful := by
  obtain ⟨hpressure, rfl⟩ := h
  obtain ⟨_, hlonger, htaken, _⟩ := replacementUsefulDecrement_least hpressure
  obtain ⟨hallocate, hprovider⟩ := replacementUsefulDecrement_alone hpressure
  have huseful : (p.trainingEntry t).useful ≠ 0 :=
    fun hzero => htaken t hlonger (Or.inr hzero)
  have hentry : ((p.step i).tables t).entryTable (p.trainingIndex t) =
      { p.trainingEntry t with useful := (p.trainingEntry t).useful - 1 } := by
    change (p.tables t).nextEntryTable (p.tableInputs i t) _ = _
    have hwrite : ((p.tableInputs i t).replacementUsefulDecrement &&
        decide (((p.tables t).updateCurrent (p.tableInputs i t)).useful ≠ 0)) =
        true := Bool.and_eq_true_iff.mpr ⟨hpressure, decide_eq_true huseful⟩
    have ha : (p.tableInputs i t).allocateValid = false := hallocate
    have hp : (p.tableInputs i t).providerUpdateValid = false := hprovider
    rw [TageTable.nextEntryTable_apply, TageTable.functionalWrite,
      TageTable.functionalEntry, hwrite, ha, hp]
    simp only [Bool.false_and, Bool.false_or, Bool.true_and, if_true,
      Bool.false_eq_true, if_false]
    exact if_pos (decide_eq_true rfl)
  rw [hentry]
  exact BitVec.sub_add_cancel _ _

theorem allocationPolicy (p : TagePredictor) (i : Inputs) :
    AllocationPolicy p i := by
  have htag {t index} (hnot : ¬ p.Allocates i t index) (lane : Lane) :
      ((p.step i).tables t).tagLane lane index =
        (p.tables t).tagLane lane index :=
    TageTable.tagLane_step (fun hwrite => hnot (allocates_iff.mpr hwrite)) lane
  have hfree {t index} (ha : p.Allocates i t index) :
      (p.AsksEntry ∧ p.Longer t ∧ (p.trainingEntry t).Replaceable) ∧
        index = p.trainingIndex t :=
    ⟨freeAllocation_iff.mp (tableAllocate_free (allocates_iff.mp ha).1),
      (allocates_iff.mp ha).2⟩
  constructor
  case asked => exact fun t index ha => (hfree ha).1.1
  case place =>
    exact fun t index ha => ⟨(hfree ha).1.2.1, (hfree ha).2, (hfree ha).1.2.2⟩
  case fresh =>
    intro t index ha
    obtain ⟨hallocate, rfl⟩ := allocates_iff.mp ha
    have hinput : (p.tableInputs i t).allocateValid = true := hallocate
    constructor
    · change (p.tables t).nextEntryTable (p.tableInputs i t) _ = _
      rw [TageTable.nextEntryTable_apply, TageTable.functionalWrite,
        TageTable.functionalEntry, hinput]
      simp only [Bool.true_or, Bool.true_and, if_true]
      exact if_pos (decide_eq_true rfl)
    · intro lane
      change (if (p.tableInputs i t).allocateValid then _ else _ :
        BitVec 9 → BitVec (tageTagWidth t)) _ = _
      rw [hinput, if_pos rfl]
      exact Function.update_self _ _ _
  case some =>
    rintro hask ⟨t, hlonger, hreplaceable⟩
    obtain ⟨t', ht'⟩ := tableAllocate_exists
      ⟨t, freeAllocation_iff.mpr ⟨hask, hlonger, hreplaceable⟩⟩
    exact ⟨t', allocates_iff.mpr ⟨ht', rfl⟩⟩
  case two =>
    intro t₁ t₂ t₃ _ _ _ h₁ h₂ h₃
    exact tableAllocate_two (allocates_iff.mp h₁).1 (allocates_iff.mp h₂).1
      (allocates_iff.mp h₃).1
  case provider_kept =>
    intro hprovider
    exact htag fun ha => absurd ((hfree ha).1.2.1 hprovider) (lt_irrefl _)
  case useful_kept =>
    intro t index hvalid huseful
    refine htag fun ha => ?_
    obtain ⟨⟨_, _, hreplaceable⟩, rfl⟩ := hfree ha
    rcases hreplaceable with hinvalid | hzero
    · exact absurd (hinvalid.symm.trans hvalid) Bool.false_ne_true
    · exact huseful hzero
  case pressed =>
    intro t index hpress
    obtain ⟨hask, hlonger, htaken, hleast⟩ :=
      replacementUsefulDecrement_least hpress.1
    refine ⟨hask, hlonger, htaken, hleast, ?_, pressed_useful hpress⟩
    intro t' index' hpress'
    have hsame := replacementUsefulDecrement_unique hpress'.1 hpress.1
    refine ⟨hsame, ?_⟩
    rw [hpress'.2, hpress.2, hsame]
  case lost => exact fun t index hlost => lost_of hlost

/-- For every state and every record in training, an edge of the predictor
keeps the allocation policy; in the states of its runs every entry with a use on
record is valid. -/
theorem allocation_policy (p : TagePredictor) (i : Inputs) :
    AllocationPolicy p i ∧ (Reachable p → ∀ t index,
      ((p.tables t).entryTable index).useful ≠ 0 →
      ((p.tables t).entryTable index).valid = true) := by
  refine ⟨allocationPolicy p i, fun h t index huseful => ?_⟩
  by_contra hinvalid
  rw [Bool.not_eq_true] at hinvalid
  exact huseful ((h.table t).clean index hinvalid)

namespace Mispredicted

/-- Nothing is retired or redirected. -/
def idle : Inputs where
  flush := false
  queryPc := fun _ => 0
  fallbackPrediction := fun _ => false
  response0Conditional := false
  query0Conditional := false
  query0Control := false
  query0Backward := false
  speculate := fun _ => ⟨false, false, false, false⟩
  update := ⟨false, false, 0, 0, false, {}⟩
  recover := ⟨false, 0, false, false, 0, 0⟩
  checkpointAlloc := fun _ => ⟨false, 0, {}, {}⟩

/-- A branch retires taken that no table had predicted. -/
def retires : Inputs :=
  { idle with update := ⟨true, true, 64, 0, true, {}⟩ }

def trained : TagePredictor :=
  (reset fun _ => TageTable.reset (fun _ _ => 0) (fun _ => 0) fun _ => 0).step
    retires

theorem trained_reachable : Reachable trained :=
  (Reachable.reset _ fun _ => ⟨_, _, _, rfl⟩).step retires

end Mispredicted

/-- The branch of `Mispredicted` gets an entry, and the entries beside it are
still clean. -/
theorem allocation_policy_mispredicted :
    (∃ t, Mispredicted.trained.Allocates Mispredicted.idle t
      (Mispredicted.trained.trainingIndex t)) ∧
    ∀ t index,
      ((Mispredicted.trained.tables t).entryTable index).useful ≠ 0 →
      ((Mispredicted.trained.tables t).entryTable index).valid = true := by
  obtain ⟨hpolicy, huseful⟩ :=
    allocation_policy Mispredicted.trained Mispredicted.idle
  refine ⟨hpolicy.some ?_ ⟨0, ?_, Or.inl ?_⟩,
    huseful Mispredicted.trained_reachable⟩
  · exact allocationRequest_iff.mp (by decide +kernel)
  · exact fun hprovider => absurd hprovider (by decide +kernel)
  · rfl

end TagePredictor

end OoOCore
