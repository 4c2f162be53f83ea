/-
Revalidation of a provider by its generation.  Between a prediction and its
training only so many branches are trained as the core can hold, and each
allocates an entry at most once, so a generation seen again is the one the
prediction was made with.
-/
import OoOCore.Allocation
import OoOCore.TageKeys

namespace OoOCore

/-- The counters of a provider entry after its training. -/
def TageEntry.train (e : TageEntry) (taken increment decrement : Bool) :
    TageEntry :=
  { e with
    counter := if taken && decide (e.counter ≠ 0b111) then e.counter + 1
      else if !taken && decide (e.counter ≠ 0b000) then e.counter - 1
      else e.counter
    useful := if increment && decide (e.useful ≠ 0b11) then e.useful + 1
      else if decrement && decide (e.useful ≠ 0b00) then e.useful - 1
      else e.useful }

namespace TageTable

variable {tagWidth : Nat} {c : TageTable tagWidth} {i : Inputs tagWidth}

theorem entry_trained (hallocate : i.allocateValid = false)
    (hprovider : i.providerUpdateValid = true)
    (hmatch : c.updateMatch i = true) :
    (c.step i).entryTable i.updateIndex =
      (c.entryTable i.updateIndex).train i.updateTaken
        i.providerUsefulIncrement i.providerUsefulDecrement := by
  change c.nextEntryTable i i.updateIndex = _
  rw [nextEntryTable_apply, functionalWrite, functionalEntry, hallocate,
    hprovider, hmatch]
  simp only [Bool.and_self, Bool.true_or, Bool.or_true, decide_true,
    if_true, Bool.false_eq_true, if_false]
  rfl

/-- An entry that is not written stays, or ages. -/
theorem entry_untrained (hallocate : i.allocateValid = false)
    (hmatch : c.updateMatch i = false)
    (hpressure : i.replacementUsefulDecrement = false) :
    (c.step i).entryTable i.updateIndex = c.entryTable i.updateIndex ∨
      (c.step i).entryTable i.updateIndex =
        { c.entryTable i.updateIndex with
          useful := (c.entryTable i.updateIndex).useful >>> 1 } := by
  have hwrite : c.functionalWrite i = false := by
    rw [functionalWrite, hallocate, hmatch, hpressure, Bool.and_false,
      Bool.false_and]
    rfl
  change c.nextEntryTable i i.updateIndex = _ ∨
    c.nextEntryTable i i.updateIndex = _
  rw [nextEntryTable_apply, hwrite, Bool.false_and, if_neg Bool.false_ne_true]
  split
  · next hage =>
      simp only [Bool.and_eq_true, decide_eq_true_eq] at hage
      right
      rw [ageUseful, ← hage.2]
  · exact Or.inl rfl

/-- No write takes the valid bit back. -/
theorem valid_step {index : BitVec 9}
    (hvalid : (c.entryTable index).valid = true) :
    ((c.step i).entryTable index).valid = true := by
  change (c.nextEntryTable i index).valid = true
  cases c.entryEdge i index with
  | allocated _ _ heq =>
      rw [heq]
      rfl
  | trained _ _ _ hboth => exact hboth.2
  | pressed _ _ _ _ _ heq =>
      rw [heq]
      exact hvalid
  | aged _ _ heq =>
      rw [heq]
      exact hvalid
  | kept heq =>
      rw [heq]
      exact hvalid

end TageTable

namespace TagePredictor

variable {p : TagePredictor} {i : Inputs}

instance (t : TageTableId) (index : BitVec 9) :
    Decidable (p.Allocates i t index) :=
  inferInstanceAs (Decidable (_ ≠ _))

/-- The provider is not among the tables that take a new entry or lose a
useful value. -/
theorem provider_unwritten (hprovider : p.training.tageMeta.providerValid = true) :
    p.tableAllocate p.trainingProvider = false ∧
      p.replacementUsefulDecrement p.trainingProvider = false := by
  constructor
  · by_contra hallocate
    rw [Bool.not_eq_false] at hallocate
    obtain ⟨_, hlonger, _⟩ := freeAllocation_iff.mp (tableAllocate_free hallocate)
    exact absurd (hlonger hprovider) (lt_irrefl _)
  · by_contra hpressure
    rw [Bool.not_eq_false] at hpressure
    obtain ⟨_, hlonger, _⟩ := replacementUsefulDecrement_least hpressure
    exact absurd (hlonger hprovider) (lt_irrefl _)

end TagePredictor

namespace BranchPredictionUnit

/-- The table a prediction came from. -/
def Prediction.provider (r : Prediction) : TageTableId :=
  Fin.ofNat 8 r.tageMeta.provider.toNat

/-- The place of the entry it came from. -/
def Prediction.place (r : Prediction) : BitVec 9 := r.keys.index r.provider

/-- A prediction with how often each entry had been allocated, and how many
branches trained, before it was made. -/
structure Dated where
  prediction : Prediction
  allocations : TageTableId → BitVec 9 → Nat
  trained : Nat

/-- What a run has done so far: the predicted branches that have not retired
and those that wait for their training, each oldest first, the allocations of
every entry, and the branches trained. -/
structure Journal where
  inFlight : List Dated := []
  queued : List Dated := []
  allocations : TageTableId → BitVec 9 → Nat := fun _ _ => 0
  trained : Nat := 0

namespace Journal

/-- The conditional branches the core holds before retirement: two in the
fetch stage, those in the fetch queue and those in the reorder buffer. -/
def flightLimit : Nat := 2 + 8 + 16

/-- The branches trained between a prediction and its own training, at most. -/
def trainingLimit : Nat := flightLimit + TageUpdateQueue.depth

variable (g : Journal) (u : BranchPredictionUnit) (i : Inputs)

/-- A conditional branch retires. -/
def retires (i : Inputs) : Bool := i.update.valid && i.update.isConditional

def leaving : List Dated := if retires i then g.inFlight.take 1 else []

def remaining : List Dated := if retires i then g.inFlight.tail else g.inFlight

/-- The branches predicted in a cycle, with the dates of the tables they were
read from. -/
def consumed (held : Lane → Keys) : List Dated :=
  (u.predicted i held).map fun r => ⟨r, g.allocations, g.trained⟩

def nextAllocations (t : TageTableId) (index : BitVec 9) : Nat :=
  g.allocations t index +
    if u.tage.Allocates (u.tageInputs i) t index then 1 else 0

/-- The edge, `flight` being what a redirect leaves of the branches in
flight. -/
def step (flight : List Dated) : Journal where
  inFlight := flight
  queued := g.queued.tail ++ g.leaving i
  allocations := g.nextAllocations u i
  trained := g.trained + u.tage.trainsConditional.toNat

/-- The runs of the predictor inside the core.  A conditional branch retires in
order with what it was predicted with, a redirect may drop any of those in
flight, and the core holds only so many. -/
inductive Run : BranchPredictionUnit → (Lane → Keys) → Journal → Prop
  | reset (tables : (t : TageTableId) → TageTable (tageTagWidth t))
      (hreset : ∀ t, ∃ tagLane tag requestedTag,
        tables t = TageTable.reset tagLane tag requestedTag)
      (held : Lane → Keys) : Run (reset tables) held {}
  | step {u : BranchPredictionUnit} {held : Lane → Keys} {g : Journal}
      (h : Run u held g) (i : Inputs)
      (haccept : i.queryValid = true → u.queryReady i = true)
      (hupdate : retires i = true → ∃ r rest, g.inFlight = r :: rest ∧
        r.prediction.pc = i.update.pc ∧
        r.prediction.tageMeta = i.update.tageMeta)
      (flight : List Dated)
      (hflight : flight.Sublist (g.remaining i ++ g.consumed u i held))
      (hlimit : flight.length ≤ flightLimit) :
      Run (u.step i) (u.keys i) (g.step u i flight)

/-- The provider entry of a prediction is still valid, and its generation was
the number of its allocations. -/
def Provided (u : BranchPredictionUnit) (r : Dated) : Prop :=
  r.prediction.tageMeta.providerValid = true →
    r.prediction.tageMeta.providerGeneration =
        BitVec.ofNat 5 (r.allocations r.prediction.provider
          r.prediction.place) ∧
      ((u.tage.tables r.prediction.provider).entryTable
        r.prediction.place).valid = true

/-- All branches that may still be trained, oldest first. -/
def line : List Dated := g.queued ++ g.inFlight

structure Sound (g : Journal) (u : BranchPredictionUnit)
    (held : Lane → Keys) : Prop where
  keyed : Keyed u held
  reads : ∀ t lane, ((u.tage.tables t).read lane).entry =
    (u.tage.tables t).entryTable ((held lane).index t)
  queue : u.tage.updateQueue.Holds fun r => r.isConditional = true
  queued : u.tage.updateQueue.contents.map (fun r => (r.pc, r.tageMeta)) =
    g.queued.map fun r => (r.prediction.pc, r.prediction.tageMeta)
  generation : ∀ t index,
    ((u.tage.tables t).entryTable index).generation =
      BitVec.ofNat 5 (g.allocations t index)
  rebuilt : ∀ r ∈ g.line, r.prediction.Rebuilt
  provided : ∀ r ∈ g.line, Provided u r
  age : ∀ k r, g.line[k]? = some r → g.trained + k ≤ r.trained + trainingLimit
  kept : ∀ r ∈ g.line, ∀ t index, r.allocations t index ≤ g.allocations t index
  grown : ∀ r ∈ g.line, ∀ t index,
    g.allocations t index + r.trained ≤ r.allocations t index + g.trained
  limit : g.inFlight.length ≤ flightLimit

variable {g u i} {held : Lane → Keys} {flight : List Dated}

theorem Sound.reset (tables : (t : TageTableId) → TageTable (tageTagWidth t))
    (hreset : ∀ t, ∃ tagLane tag requestedTag,
      tables t = TageTable.reset tagLane tag requestedTag)
    (held : Lane → Keys) : Sound {} (reset tables) held where
  keyed := Keyed.reset tables held
  reads := by
    intro t lane
    obtain ⟨tagLane, tag, requestedTag, htable⟩ := hreset t
    change ((tables t).read lane).entry = (tables t).entryTable _
    rw [htable]
    rfl
  queue := TageUpdateQueue.Holds.reset
  queued := rfl
  generation := by
    intro t index
    obtain ⟨tagLane, tag, requestedTag, htable⟩ := hreset t
    change ((tables t).entryTable index).generation = _
    rw [htable]
    rfl
  rebuilt := fun r hr => absurd hr List.not_mem_nil
  provided := fun r hr => absurd hr List.not_mem_nil
  age := fun k r hr => absurd hr nofun
  kept := fun r hr => absurd hr List.not_mem_nil
  grown := fun r hr => absurd hr List.not_mem_nil
  limit := Nat.zero_le _

/-- The queue is empty in the ghost exactly when it is. -/
theorem Sound.trains_iff (h : Sound g u held) :
    u.tage.trainsConditional.toNat = min g.queued.length 1 := by
  have hlength := congrArg List.length h.queued
  rw [List.length_map, List.length_map, TageUpdateQueue.contents_length]
    at hlength
  by_cases hzero : u.tage.updateQueue.count = 0
  · have hnone : u.tage.trainsConditional = false := by
      simp [TagePredictor.trainsConditional, TagePredictor.trainingValid,
        TageUpdateQueue.deqValid, hzero]
    rw [hnone, ← hlength, hzero]
    rfl
  · have hvalid : u.tage.updateQueue.deqValid = true := decide_eq_true hzero
    have hconditional : u.tage.training.isConditional = true :=
      h.queue.deqData hvalid
    have htrains : u.tage.trainsConditional = true :=
      Bool.and_eq_true_iff.mpr ⟨hvalid, hconditional⟩
    rw [htrains, ← hlength]
    have hone : min u.tage.updateQueue.count 1 = 1 := by omega
    rw [hone]
    rfl

/-- What a training may allocate. -/
theorem nextAllocations_le (t : TageTableId) (index : BitVec 9) :
    g.nextAllocations u i t index ≤
      g.allocations t index + u.tage.trainsConditional.toNat := by
  unfold nextAllocations
  split
  · next hallocates =>
      have hask := (TagePredictor.allocationPolicy u.tage
        (u.tageInputs i)).asked t index hallocates
      have htrains : u.tage.trainsConditional = true :=
        Bool.and_eq_true_iff.mpr ⟨hask.1, hask.2.1⟩
      rw [htrains]
      rfl
  · exact Nat.le_add_right _ _

theorem nextAllocations_ge (t : TageTableId) (index : BitVec 9) :
    g.allocations t index ≤ g.nextAllocations u i t index :=
  Nat.le_add_right _ _

/-- A later place in a list holds what a sublist has at an earlier one. -/
theorem getElem?_of_sublist {α : Type} {short long : List α}
    (h : short.Sublist long) {k : Nat} {a : α} (hk : short[k]? = some a) :
    ∃ k', k ≤ k' ∧ long[k']? = some a := by
  induction h generalizing k with
  | slnil => exact ⟨k, Nat.le_refl k, hk⟩
  | cons b h ih =>
      obtain ⟨k', hle, hk'⟩ := ih hk
      exact ⟨k' + 1, by omega, hk'⟩
  | cons_cons b h ih =>
      cases k with
      | zero => exact ⟨0, Nat.le_refl 0, hk⟩
      | succ k =>
          obtain ⟨k', hle, hk'⟩ := ih hk
          exact ⟨k' + 1, by omega, hk'⟩

/-- A hit provides the entry it read. -/
theorem Sound.provided_predicted (h : Sound g u held) {r : Prediction}
    (hr : r ∈ u.predicted i held) :
    Provided u ⟨r, g.allocations, g.trained⟩ := by
  obtain ⟨lane, _, rfl⟩ := mem_predicted.mp hr
  intro hvalid
  have hmeta : (u.tageMeta i lane).providerValid =
        (u.tage.tageBaseMeta u.baseTaken lane).providerValid ∧
      (u.tageMeta i lane).provider =
        (u.tage.tageBaseMeta u.baseTaken lane).provider ∧
      (u.tageMeta i lane).providerGeneration =
        (u.tage.tageBaseMeta u.baseTaken lane).providerGeneration :=
    ⟨rfl, rfl, rfl⟩
  obtain ⟨t, hhit, hprovider, hgeneration⟩ : ∃ t : TageTableId,
      (u.tage.tables t).queryHit lane = true ∧
      (u.tageMeta i lane).provider = BitVec.ofNat 3 t.val ∧
      (u.tageMeta i lane).providerGeneration =
        ((u.tage.tables t).read lane).entry.generation := by
    change (u.tageMeta i lane).providerValid = true at hvalid
    rw [hmeta.1] at hvalid
    rw [hmeta.2.1, hmeta.2.2]
    unfold TagePredictor.tageBaseMeta at hvalid ⊢
    cases hhits : u.tage.hits lane with
    | nil =>
        rw [hhits] at hvalid
        exact absurd hvalid Bool.false_ne_true
    | cons t rest =>
        have hmem : t ∈ u.tage.hits lane := hhits ▸ List.mem_cons_self
        exact ⟨t, (List.mem_filter.mp hmem).2, rfl, rfl⟩
  have htables : ∀ t : Fin 8, Fin.ofNat 8 (BitVec.ofNat 3 t.val).toNat = t := by
    decide
  have hentry := h.reads t lane
  have hread := (Bool.and_eq_true_iff.mp hhit).1
  have htable : Fin.ofNat 8 (u.tageMeta i lane).provider.toNat = t := by
    rw [hprovider]
    exact htables t
  simp only [Prediction.place, Prediction.provider]
  rw [htable, ← hentry, hgeneration, hentry]
  exact ⟨h.generation t _, hentry ▸ hread⟩

theorem Sound.generation_step (h : Sound g u held) (t : TageTableId)
    (index : BitVec 9) :
    (((u.step i).tage.tables t).entryTable index).generation =
      BitVec.ofNat 5 (g.nextAllocations u i t index) := by
  unfold nextAllocations
  split
  · next hallocates =>
      obtain ⟨_, rfl, _⟩ := (TagePredictor.allocationPolicy u.tage
        (u.tageInputs i)).place t index hallocates
      have hfresh := ((TagePredictor.allocationPolicy u.tage
        (u.tageInputs i)).fresh t _ hallocates).1
      have hentry : ((u.step i).tage.tables t).entryTable
          (u.tage.trainingIndex t) = (u.tage.trainingEntry t).allocated
            u.tage.training.taken := hfresh
      rw [hentry, BitVec.ofNat_add, ← h.generation t]
      rfl
  · next hkept =>
      rw [Nat.add_zero, ← h.generation t index]
      exact not_not.mp hkept

/-- A branch predicted in this cycle is dated by it. -/
theorem mem_consumed {r : Dated} (hr : r ∈ g.consumed u i held) :
    r.prediction ∈ u.predicted i held ∧ r.allocations = g.allocations ∧
      r.trained = g.trained := by
  obtain ⟨prediction, hprediction, rfl⟩ := List.mem_map.mp hr
  exact ⟨hprediction, rfl, rfl⟩

section Edge

variable (hupdate : retires i = true → ∃ r rest, g.inFlight = r :: rest ∧
    r.prediction.pc = i.update.pc ∧
    r.prediction.tageMeta = i.update.tageMeta)
  (hflight : flight.Sublist (g.remaining i ++ g.consumed u i held))

include hupdate

/-- The queue and its shadow take the same record and lose the same. -/
theorem Sound.step_queued (h : Sound g u held) :
    (u.step i).tage.updateQueue.contents.map (fun r => (r.pc, r.tageMeta)) =
      (g.step u i flight).queued.map
        fun r => (r.prediction.pc, r.prediction.tageMeta) := by
  have hstep : (u.step i).tage.updateQueue.contents =
      u.tage.updateQueue.contents.tail ++ if retires i then
        [⟨i.update.isConditional, i.update.pc, i.update.taken,
          i.update.tageMeta⟩] else [] :=
    h.queue.step_contents _ _
  have htail := congrArg List.tail h.queued
  rw [← List.map_tail, ← List.map_tail] at htail
  change _ = (g.queued.tail ++ g.leaving i).map _
  rw [hstep, List.map_append, List.map_append, htail]
  congr 1
  unfold leaving
  cases hretires : retires i with
  | false => rfl
  | true =>
      obtain ⟨r, rest, hcons, hpc, hmeta⟩ := hupdate hretires
      rw [hcons]
      simp [hpc, hmeta]

include hflight

/-- The line moves up by the branch in training, and grows by those
predicted. -/
theorem line_sublist : (g.step u i flight).line.Sublist
      (g.line.drop (min g.queued.length 1) ++ g.consumed u i held) := by
  have hinFlight : g.leaving i ++ g.remaining i = g.inFlight := by
    unfold leaving remaining
    cases hretires : retires i with
    | false => rfl
    | true =>
        obtain ⟨r, rest, hcons, _⟩ := hupdate hretires
        rw [hcons]
        rfl
  have hdrop : g.line.drop (min g.queued.length 1) =
      g.queued.tail ++ g.leaving i ++ g.remaining i := by
    rw [List.append_assoc, hinFlight]
    unfold line
    cases g.queued with
    | nil => rfl
    | cons r rest => simp
  rw [hdrop, List.append_assoc]
  exact hflight.append_left _

/-- A branch of the new line is one of the old, or predicted in this cycle. -/
theorem mem_line_step {r : Dated} (hr : r ∈ (g.step u i flight).line) :
    r ∈ g.line ∨ r ∈ g.consumed u i held := by
  have hline := line_sublist hupdate hflight
  rcases List.mem_append.mp (hline.subset hr) with hold | hnew
  · exact Or.inl (List.mem_of_mem_drop hold)
  · exact Or.inr hnew

/-- The line is never longer than what the core and the queue hold. -/
theorem Sound.step_age (h : Sound g u held)
    (hqueue : (u.step i).tage.updateQueue.count ≤ TageUpdateQueue.depth)
    (hlimit : flight.length ≤ flightLimit) {k : Nat} {r : Dated}
    (hk : (g.step u i flight).line[k]? = some r) :
    (g.step u i flight).trained + k ≤ r.trained + trainingLimit := by
  have hlength : (g.step u i flight).queued.length ≤ TageUpdateQueue.depth := by
    have hsame : List.length _ = ((g.step u i flight).queued.map
        fun r => (r.prediction.pc, r.prediction.tageMeta)).length :=
      congrArg List.length (h.step_queued hupdate)
    rw [List.length_map, List.length_map,
      TageUpdateQueue.contents_length] at hsame
    exact hsame ▸ hqueue
  have hshort : k < (g.step u i flight).line.length :=
    (List.getElem?_eq_some_iff.mp hk).1
  rw [line, List.length_append] at hshort
  change k < (g.step u i flight).queued.length + flight.length at hshort
  change g.trained + u.tage.trainsConditional.toNat + k ≤ _
  obtain ⟨k', hle, hk'⟩ :=
    getElem?_of_sublist (line_sublist hupdate hflight) hk
  rw [List.getElem?_append] at hk'
  split at hk'
  · rw [List.getElem?_drop, ← h.trains_iff] at hk'
    have hage := h.age _ r hk'
    omega
  · have hr := (mem_consumed (List.mem_of_getElem? hk')).2.2
    have hone := Bool.toNat_le u.tage.trainsConditional
    rw [hr, trainingLimit]
    omega

theorem Sound.step (h : Sound g u held)
    (haccept : i.queryValid = true → u.queryReady i = true)
    (hlimit : flight.length ≤ flightLimit) :
    Sound (g.step u i flight) (u.step i) (u.keys i) := by
  have hqueue : (u.step i).tage.updateQueue.Holds
      fun r => r.isConditional = true := by
    refine h.queue.step fun hretires => ?_
    exact (Bool.and_eq_true_iff.mp hretires).2
  have hprovided {r : Dated} (hr : Provided u r) : Provided (u.step i) r :=
    fun hvalid => ⟨(hr hvalid).1, TageTable.valid_step (hr hvalid).2⟩
  refine ⟨h.keyed.step haccept, ?_, hqueue, h.step_queued hupdate,
    fun t index => h.generation_step t index, ?_, ?_, ?_, ?_, ?_, hlimit⟩
  · intro t lane
    exact TageTable.read_entry_step _ _ lane
  · intro r hr
    rcases mem_line_step hupdate hflight hr with hold | hnew
    · exact h.rebuilt r hold
    · exact h.keyed.rebuilt (mem_consumed hnew).1
  · intro r hr
    rcases mem_line_step hupdate hflight hr with hold | hnew
    · exact hprovided (h.provided r hold)
    · obtain ⟨prediction, hprediction, rfl⟩ := List.mem_map.mp hnew
      exact hprovided (h.provided_predicted hprediction)
  · intro k r hk
    exact h.step_age hupdate hflight hqueue.bounded hlimit hk
  · intro r hr t index
    have hge : g.allocations t index ≤ g.nextAllocations u i t index :=
      nextAllocations_ge t index
    change r.allocations t index ≤ g.nextAllocations u i t index
    rcases mem_line_step hupdate hflight hr with hold | hnew
    · exact (h.kept r hold t index).trans hge
    · rw [(mem_consumed hnew).2.1]
      exact hge
  · intro r hr t index
    have hle : g.nextAllocations u i t index ≤
        g.allocations t index + u.tage.trainsConditional.toNat :=
      nextAllocations_le t index
    change g.nextAllocations u i t index + r.trained ≤ r.allocations t index +
      (g.trained + u.tage.trainsConditional.toNat)
    rcases mem_line_step hupdate hflight hr with hold | hnew
    · have hgrown := h.grown r hold t index
      omega
    · rw [(mem_consumed hnew).2.1, (mem_consumed hnew).2.2]
      omega

end Edge

theorem Run.sound (h : Run u held g) : Sound g u held := by
  induction h with
  | reset tables hreset held => exact Sound.reset tables hreset held
  | step h i haccept hupdate flight hflight hlimit ih =>
      exact ih.step hupdate hflight haccept hlimit

/-- Nothing has been allocated over the provider of a prediction since. -/
def Untouched (g : Journal) (r : Dated) : Prop :=
  g.allocations r.prediction.provider r.prediction.place =
    r.allocations r.prediction.provider r.prediction.place

theorem Sound.trained_le (h : Sound g u held) {r : Dated} (hr : r ∈ g.line) :
    g.trained ≤ r.trained + trainingLimit := by
  obtain ⟨k, hk⟩ := List.mem_iff_getElem?.mp hr
  exact Nat.le_of_add_right_le (h.age k r hk)

/-- A generation does not come back while its prediction waits. -/
theorem Sound.generation_iff (h : Sound g u held) {r : Dated}
    (hr : r ∈ g.line) (hvalid : r.prediction.tageMeta.providerValid = true) :
    ((u.tage.tables r.prediction.provider).entryTable
        r.prediction.place).generation =
      r.prediction.tageMeta.providerGeneration ↔ Untouched g r := by
  have htrained := h.trained_le hr
  have hkept := h.kept r hr r.prediction.provider r.prediction.place
  have hgrown := h.grown r hr r.prediction.provider r.prediction.place
  rw [h.generation, (h.provided r hr hvalid).1, Untouched]
  constructor
  · intro hsame
    have hmod := congrArg BitVec.toNat hsame
    simp only [BitVec.toNat_ofNat] at hmod
    simp only [trainingLimit, flightLimit, TageUpdateQueue.depth] at htrained
    omega
  · exact fun hsame => congrArg (BitVec.ofNat 5) hsame

/-- The record in training is the oldest that waits. -/
theorem Sound.training (h : Sound g u held)
    (htrains : u.tage.trainsConditional = true) :
    ∃ r rest, g.queued = r :: rest ∧
      r.prediction.pc = u.tage.training.pc ∧
      r.prediction.tageMeta = u.tage.training.tageMeta := by
  obtain ⟨records, hrecords⟩ := u.tage.updateQueue.contents_cons
    (Bool.and_eq_true_iff.mp htrains).1
  have hqueued := h.queued
  rw [hrecords, List.map_cons] at hqueued
  obtain ⟨r, rest, hcons, hr, _⟩ := List.map_eq_cons_iff.mp hqueued.symm
  exact ⟨r, rest, hcons, congrArg Prod.fst hr, congrArg Prod.snd hr⟩

/-- In every run of the predictor inside the core, no more branches than the
core holds are trained between a prediction and its own training, the generation
of its provider tells in that time whether the entry was allocated again, and
its training is applied to the entry exactly when it was not. -/
theorem revalidation_exact (h : Run u held g) :
    (∀ r ∈ g.line, g.trained ≤ r.trained + trainingLimit ∧
      (r.prediction.tageMeta.providerValid = true →
        (((u.tage.tables r.prediction.provider).entryTable
            r.prediction.place).generation =
          r.prediction.tageMeta.providerGeneration ↔ Untouched g r))) ∧
    (u.tage.trainsConditional = true → ∃ r rest, g.queued = r :: rest ∧
      r.prediction.pc = u.tage.training.pc ∧
      r.prediction.tageMeta = u.tage.training.tageMeta ∧
      (r.prediction.tageMeta.providerValid = true →
        ∀ i : TagePredictor.Inputs,
        let t := r.prediction.provider
        let before := (u.tage.tables t).entryTable r.prediction.place
        let after := ((u.tage.step i).tables t).entryTable r.prediction.place
        ((u.tage.tables t).updateMatch (u.tage.tableInputs i t) = true ↔
          Untouched g r) ∧
        (Untouched g r → after = before.train u.tage.training.taken
          (u.tage.providerUsefulIncrement t)
          (u.tage.providerUsefulDecrement t)) ∧
        (¬ Untouched g r → after = before ∨
          after = { before with useful := before.useful >>> 1 }))) := by
  have hsound := h.sound
  refine ⟨fun r hr => ⟨hsound.trained_le hr, hsound.generation_iff hr⟩, ?_⟩
  intro htrains
  obtain ⟨r, rest, hcons, hpc, hmeta⟩ := hsound.training htrains
  refine ⟨r, rest, hcons, hpc, hmeta, ?_⟩
  intro hvalid i t before after
  have hr : r ∈ g.line :=
    List.mem_append_left _ (hcons ▸ List.mem_cons_self)
  have htable : u.tage.trainingProvider = t :=
    congrArg (fun m : TageMeta => Fin.ofNat 8 m.provider.toNat) hmeta.symm
  have hplace : u.tage.trainingIndex t = r.prediction.place := by
    rw [Prediction.place, (hsound.rebuilt r hr).index, hpc, hmeta]
    rfl
  have hentry := (hsound.provided r hr hvalid).2
  have hgeneration := hsound.generation_iff hr hvalid
  have hmatch : (u.tage.tables t).updateMatch (u.tage.tableInputs i t) = true ↔
      Untouched g r := by
    rw [← hgeneration, hmeta, TageTable.updateMatch, Bool.and_eq_true,
      decide_eq_true_eq, TageTable.updateCurrent]
    change ((u.tage.tables t).entryTable (u.tage.trainingIndex t)).valid = true ∧
      ((u.tage.tables t).entryTable (u.tage.trainingIndex t)).generation = _ ↔ _
    rw [hplace]
    exact ⟨fun hboth => hboth.2, fun hsame => ⟨hentry, hsame⟩⟩
  have hprovider : u.tage.training.tageMeta.providerValid = true :=
    hmeta ▸ hvalid
  obtain ⟨hallocate, hpressure⟩ := TagePredictor.provider_unwritten hprovider
  rw [htable] at hallocate hpressure
  have hupdates : (u.tage.tableInputs i t).providerUpdateValid = true := by
    change u.tage.providerUpdate t = true
    rw [TagePredictor.providerUpdate, htrains, hprovider, htable]
    exact decide_eq_true rfl
  have hindex : (u.tage.tableInputs i t).updateIndex = r.prediction.place :=
    hplace
  refine ⟨hmatch, ?_, ?_⟩
  · intro huntouched
    have htrained := TageTable.entry_trained (c := u.tage.tables t) hallocate
      hupdates (hmatch.mpr huntouched)
    rw [hindex] at htrained
    exact htrained
  · intro htouched
    have hstale : (u.tage.tables t).updateMatch (u.tage.tableInputs i t) =
        false := Bool.eq_false_iff.mpr fun hsame => htouched (hmatch.mp hsame)
    have hsame := TageTable.entry_untrained (c := u.tage.tables t) hallocate
      hstale hpressure
    rw [hindex] at hsame
    exact hsame

/-- A cycle in which no branch in flight is dropped. -/
theorem Run.step_all (h : Run u held g) (i : Inputs)
    (haccept : i.queryValid = true → u.queryReady i = true)
    (hupdate : retires i = true → ∃ r rest, g.inFlight = r :: rest ∧
      r.prediction.pc = i.update.pc ∧
      r.prediction.tageMeta = i.update.tageMeta)
    (hlimit : (g.remaining i ++ g.consumed u i held).length ≤ flightLimit) :
    Run (u.step i) (u.keys i)
      (g.step u i (g.remaining i ++ g.consumed u i held)) :=
  h.step i haccept hupdate _ (List.Sublist.refl _) hlimit

namespace Retrained

/-- A cycle that looks address 0 up, and consumes the response with `insn` in
its slot 0. -/
def cycle (insn : Word) (update : Update) : Inputs :=
  { Relookup.cycle 0 update with
    queryInsn := fun lane => if lane = 0 then insn else 0x13 }

/-- The branch retires taken with what it was predicted with. -/
def retires (tageMeta : TageMeta) : Update :=
  ⟨⟨true, true, 0, 64, true, tageMeta⟩, 0⟩

def nop : Word := 0x13
def branch : Word := 0x63

def predicts : Inputs := cycle branch Relookup.noUpdate
def waits : Inputs := cycle nop Relookup.noUpdate

def asked : BranchPredictionUnit := Relookup.start.step waits
def first : BranchPredictionUnit := asked.step predicts
def firstRetires : Inputs := cycle nop (retires (asked.tageMeta predicts 0))
/-- The branch is trained here, and gets an entry. -/
def training : BranchPredictionUnit := first.step firstRetires
def hit : BranchPredictionUnit := training.step waits
/-- Its second prediction comes from that entry. -/
def second : BranchPredictionUnit := hit.step predicts
def secondRetires : Inputs := cycle nop (retires (hit.tageMeta predicts 0))
def retraining : BranchPredictionUnit := second.step secondRetires

/-- The edge of the journal when nothing is dropped. -/
def next (g : Journal) (u : BranchPredictionUnit) (i : Inputs)
    (held : Lane → Keys) : Journal :=
  g.step u i (g.remaining i ++ g.consumed u i held)

def heldFirst : Lane → Keys := Relookup.start.keys waits
def heldSecond : Lane → Keys := training.keys waits

def journalFirst : Journal := next (next {} Relookup.start waits heldFirst)
  asked predicts heldFirst

def journalSecond : Journal :=
  next (next (next journalFirst first firstRetires (asked.keys predicts))
    training waits (first.keys firstRetires)) hit predicts heldSecond

def journal : Journal :=
  next journalSecond second secondRetires (hit.keys predicts)

theorem run_first : Run first (asked.keys predicts) journalFirst := by
  have hstart : Run Relookup.start heldFirst {} :=
    Run.reset _ (fun _ => ⟨_, _, _, rfl⟩) _
  have hasked := hstart.step_all waits (fun _ => by decide +kernel)
    (fun h => absurd h (by decide)) (by decide +kernel)
  exact hasked.step_all predicts (fun _ => by decide +kernel)
    (fun h => absurd h (by decide)) (by decide +kernel)

theorem run_second : Run second (hit.keys predicts) journalSecond := by
  have htraining := run_first.step_all firstRetires
    (fun _ => by decide +kernel)
    (fun _ => ⟨_, _, rfl, by decide +kernel, rfl⟩) (by decide +kernel)
  have hhit := htraining.step_all waits (fun _ => by decide +kernel)
    (fun h => absurd h (by decide)) (by decide +kernel)
  exact hhit.step_all predicts (fun _ => by decide +kernel)
    (fun h => absurd h (by decide)) (by decide +kernel)

theorem run_retraining :
    Run retraining (second.keys secondRetires) journal :=
  run_second.step_all secondRetires (fun _ => by decide +kernel)
    (fun _ => ⟨_, _, rfl, by decide +kernel, rfl⟩) (by decide +kernel)

end Retrained

instance (g : Journal) (r : Dated) : Decidable (Untouched g r) :=
  inferInstanceAs (Decidable (_ = _))

/-- The second branch of `Retrained` trains the entry it was predicted by. -/
theorem revalidation_exact_retrained :
    ∃ r rest, Retrained.journal.queued = r :: rest ∧
      Retrained.journal.trained = 1 ∧
      r.prediction.tageMeta.providerValid = true ∧
      (Retrained.retraining.tage.tables r.prediction.provider).updateMatch
        (Retrained.retraining.tage.tableInputs
          (Retrained.retraining.tageInputs Retrained.waits)
          r.prediction.provider) = true := by
  obtain ⟨r, rest, hcons, _, hmeta, htraining⟩ :=
    (revalidation_exact Retrained.run_retraining).2 (by decide +kernel)
  have hvalid : r.prediction.tageMeta.providerValid = true := by
    rw [hmeta]
    decide +kernel
  have hall : ∀ r ∈ Retrained.journal.queued, Untouched Retrained.journal r := by
    decide +kernel
  have huntouched := hall r (hcons ▸ List.mem_cons_self)
  exact ⟨r, rest, hcons, by decide +kernel, hvalid,
    (htraining hvalid _).1.mpr huntouched⟩

end Journal

end BranchPredictionUnit

end OoOCore
