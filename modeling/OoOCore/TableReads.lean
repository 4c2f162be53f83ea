/-
Reads of the predictor tables beside writes.  A registered read forwards the
writes of its edge, so that what it holds after the edge is what the table
holds; the two copies of the tags never tell a valid entry apart.
-/
import OoOCore.StatisticalCorrector

namespace OoOCore

/-- A read with the value of a write beside it forwarded is a read after the
write. -/
theorem forwarded_read {ι α : Type} [DecidableEq ι] (write : Bool)
    (table : ι → α) (place index : ι) (value : α) :
    (if write && decide (index = place) then value else table index) =
      (if write then Function.update table place value else table) index := by
  cases write with
  | false => rfl
  | true =>
      rw [Bool.true_and, if_pos rfl, Function.update_apply]
      simp only [decide_eq_true_eq]

/-- What a lookup tells of an entry. -/
structure TageResult where
  hit : Bool
  prediction : Bool
  counter : BitVec 3
  useful : BitVec 2
  generation : BitVec 5
deriving DecidableEq, Repr

namespace TageTable

variable {tagWidth : Nat}

/-- The states of a table in its runs from reset. -/
inductive Reachable : TageTable tagWidth → Prop
  | reset (tagLane : Lane → BitVec 9 → BitVec tagWidth)
      (tag requestedTag : Lane → BitVec tagWidth) :
      Reachable (reset tagLane tag requestedTag)
  | step {c : TageTable tagWidth} (h : Reachable c) (i : Inputs tagWidth) :
      Reachable (c.step i)

/-- What a lane's read registers show, `query*_o`. -/
def queryResult (c : TageTable tagWidth) (lane : Lane) : TageResult where
  hit := c.queryHit lane
  prediction := c.queryPrediction lane
  counter := (c.read lane).entry.counter
  useful := (c.read lane).entry.useful
  generation := (c.read lane).entry.generation

/-- An index and a tag looked up in the table itself, with one of the copies of
the tags. -/
def lookup (c : TageTable tagWidth) (copy : Lane) (index : BitVec 9)
    (tag : BitVec tagWidth) : TageResult where
  hit := (c.entryTable index).valid && decide (c.tagLane copy index = tag)
  prediction := (c.entryTable index).counter.msb
  counter := (c.entryTable index).counter
  useful := (c.entryTable index).useful
  generation := (c.entryTable index).generation

variable {c : TageTable tagWidth} {i : Inputs tagWidth}

/-- An entry after the edge: the functional write over aging over what it
was. -/
theorem nextEntryTable_apply (c : TageTable tagWidth) (i : Inputs tagWidth)
    (index : BitVec 9) :
    c.nextEntryTable i index =
      if c.functionalWrite i && decide (index = i.updateIndex) then
        c.functionalEntry i
      else if c.ageWrite i && decide (index = i.ageIndex) then
        { c.entryTable index with useful := c.ageUseful i }
      else c.entryTable index := by
  have haged : (if c.ageWrite i && decide (index = i.ageIndex) then
        { c.entryTable index with useful := c.ageUseful i }
      else c.entryTable index) =
      (if c.ageWrite i then Function.update c.entryTable i.ageIndex
          { c.entryTable i.ageIndex with useful := c.ageUseful i }
        else c.entryTable) index := by
    rw [← forwarded_read]
    by_cases hindex : index = i.ageIndex
    · rw [hindex]
    · simp [hindex]
  rw [haged]
  exact (forwarded_read _ _ _ _ _).symm

theorem read_entry_step (c : TageTable tagWidth) (i : Inputs tagWidth)
    (lane : Lane) : ((c.step i).read lane).entry =
      (c.step i).entryTable (i.queryIndex lane) :=
  (c.nextEntryTable_apply i (i.queryIndex lane)).symm

/-- Each lane reads the table as it stands after the edge, with its own copy of
the tags. -/
theorem queryResult_step (c : TageTable tagWidth) (i : Inputs tagWidth)
    (lane : Lane) :
    (c.step i).queryResult lane =
      (c.step i).lookup lane (i.queryIndex lane) (i.queryTag lane) := by
  have htag : ((c.step i).read lane).tag =
      (c.step i).tagLane lane (i.queryIndex lane) :=
    forwarded_read i.allocateValid (c.tagLane lane) i.updateIndex
      (i.queryIndex lane) i.updateTag
  rw [queryResult, lookup, queryHit, queryPrediction, read_entry_step, htag]
  rfl

/-- The copies of the tags agree on the valid entries. -/
def Agree (c : TageTable tagWidth) : Prop :=
  ∀ index, (c.entryTable index).valid = true →
    c.tagLane 0 index = c.tagLane 1 index

/-- Only an allocation makes an entry valid. -/
theorem valid_of_nextEntryTable {index : BitVec 9}
    (hvalid : (c.nextEntryTable i index).valid = true)
    (hother : i.allocateValid = false ∨ index ≠ i.updateIndex) :
    (c.entryTable index).valid = true := by
  rw [nextEntryTable_apply] at hvalid
  split at hvalid
  · next hwrite =>
      simp only [Bool.and_eq_true, decide_eq_true_eq] at hwrite
      have hallocate : i.allocateValid = false :=
        hother.resolve_right (not_not_intro hwrite.2)
      rw [functionalEntry, hallocate, if_neg Bool.false_ne_true] at hvalid
      rw [hwrite.2]
      split at hvalid
      · exact hvalid
      · split at hvalid <;> exact hvalid
  · split at hvalid <;> exact hvalid

theorem Agree.step (h : c.Agree) (i : Inputs tagWidth) : (c.step i).Agree := by
  intro index hvalid
  change (if i.allocateValid then _ else _ : BitVec 9 → BitVec tagWidth) index =
    (if i.allocateValid then _ else _ : BitVec 9 → BitVec tagWidth) index
  cases hallocate : i.allocateValid with
  | false =>
      exact h index (valid_of_nextEntryTable hvalid (Or.inl hallocate))
  | true =>
      rw [if_pos rfl, if_pos rfl]
      by_cases hindex : index = i.updateIndex
      · rw [hindex, Function.update_self, Function.update_self]
      · rw [Function.update_of_ne hindex, Function.update_of_ne hindex]
        exact h index (valid_of_nextEntryTable hvalid (Or.inr hindex))

theorem Reachable.agree (h : Reachable c) : c.Agree := by
  induction h with
  | reset tagLane tag requestedTag =>
      exact fun index hvalid => absurd hvalid Bool.false_ne_true
  | step h i ih => exact ih.step i

/-- Where the copies agree, a lookup is the same in both. -/
theorem Agree.lookup_eq (h : c.Agree) (copy copy' : Lane) (index : BitVec 9)
    (tag : BitVec tagWidth) :
    c.lookup copy index tag = c.lookup copy' index tag := by
  have hhit : ((c.entryTable index).valid &&
        decide (c.tagLane copy index = tag)) =
      ((c.entryTable index).valid && decide (c.tagLane copy' index = tag)) := by
    cases hvalid : (c.entryTable index).valid with
    | false => rfl
    | true =>
        have hsame := h index hvalid
        match copy, copy' with
        | 0, 0 => rfl
        | 1, 1 => rfl
        | 0, 1 => rw [hsame]
        | 1, 0 => rw [hsame]
  rw [lookup, lookup, hhit]

end TageTable

namespace ScSignedCounterTable

variable {width : Nat}

theorem responseCounter_step (c : ScSignedCounterTable width)
    (queryIndex : Lane → BitVec width) (updateValid : Bool)
    (updateIndex : BitVec width) (updateTaken : Bool) (lane : Lane) :
    (c.step queryIndex updateValid updateIndex updateTaken).responseCounter
        lane =
      (c.step queryIndex updateValid updateIndex updateTaken).counterTable
        (queryIndex lane) := by
  rw [step]
  simp only [eq_comm (a := updateIndex)]
  exact forwarded_read _ _ _ _ _

end ScSignedCounterTable

namespace StatisticalCorrector

theorem responseThresholdCounter_step (c : StatisticalCorrector) (i : Inputs)
    (lane : Lane) :
    (c.step i).responseThresholdCounter lane = (c.step i).thresholdTable
      (queryThresholdIndex (i.query lane) (i.base lane)) := by
  rw [step]
  simp only [eq_comm (a := updateThresholdIndex i.update)]
  exact forwarded_read _ _ _ _ _

theorem localHistory_step (c : StatisticalCorrector) (i : Inputs)
    (lane : Lane) :
    (c.step i).localHistory lane =
      (c.step i).localHistoryTable (hashLocalPc (i.query lane).pc) := by
  change c.queryLocalHistory i lane = _
  rw [queryLocalHistory, step]
  simp only [eq_comm (a := updateLocalHistoryIndex i)]
  exact forwarded_read _ _ _ _ _

end StatisticalCorrector

/-- The predictor tables read post-write values.  For a tagged table this is in
every state of every run and under any combination of writes, with the copies of
the tags agreeing on the valid entries. -/
theorem tables_read_post_write :
    (∀ {tagWidth : Nat} {c : TageTable tagWidth}, TageTable.Reachable c →
      ∀ i : TageTable.Inputs tagWidth,
        (c.step i).Agree ∧ ∀ lane copy, (c.step i).queryResult lane =
          (c.step i).lookup copy (i.queryIndex lane) (i.queryTag lane)) ∧
    (∀ {width : Nat} (c : ScSignedCounterTable width)
        (queryIndex : Lane → BitVec width) (updateValid : Bool)
        (updateIndex : BitVec width) (updateTaken : Bool) (lane : Lane),
      let after := c.step queryIndex updateValid updateIndex updateTaken
      after.responseCounter lane = after.counterTable (queryIndex lane)) ∧
    ∀ (c : StatisticalCorrector) (i : StatisticalCorrector.Inputs)
        (lane : Lane),
      (c.step i).responseThresholdCounter lane = (c.step i).thresholdTable
          (StatisticalCorrector.queryThresholdIndex (i.query lane)
            (i.base lane)) ∧
        (c.step i).localHistory lane = (c.step i).localHistoryTable
          (StatisticalCorrector.hashLocalPc (i.query lane).pc) := by
  refine ⟨?_, ?_, ?_⟩
  · intro tagWidth c h i
    have hagree := (h.step i).agree
    refine ⟨hagree, fun lane copy => ?_⟩
    rw [TageTable.queryResult_step]
    exact hagree.lookup_eq lane copy _ _
  · intro width c queryIndex updateValid updateIndex updateTaken lane
    exact c.responseCounter_step queryIndex updateValid updateIndex
      updateTaken lane
  · intro c i lane
    exact ⟨c.responseThresholdCounter_step i lane, c.localHistory_step i lane⟩

namespace TageTable.Forwarding

/-- Tags nobody wrote. -/
def start : TageTable 7 := reset (fun _ _ => 0) (fun _ => 0) fun _ => 0

/-- Both lanes ask for the entry that is allocated and aged on this edge. -/
def allocation : Inputs 7 where
  queryIndex := fun _ => 5
  queryTag := fun _ => 3
  updateIndex := 5
  updateTag := 3
  updateGeneration := 0
  providerUpdateValid := false
  updateTaken := true
  providerUsefulIncrement := false
  providerUsefulDecrement := false
  allocateValid := true
  replacementUsefulDecrement := false
  ageValid := true
  ageIndex := 5

end TageTable.Forwarding

/-- The second lane sees the allocation of `Forwarding` as the copy of the
first one has it. -/
theorem tables_read_post_write_allocation :
    (TageTable.Forwarding.start.step
        TageTable.Forwarding.allocation).queryResult 1 =
      ⟨true, true, 0b100, 0, 1⟩ := by
  have hstart : TageTable.Reachable TageTable.Forwarding.start :=
    TageTable.Reachable.reset _ _ _
  rw [(tables_read_post_write.1 hstart TageTable.Forwarding.allocation).2 1 0]
  decide

end OoOCore
