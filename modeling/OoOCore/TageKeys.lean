/-
Query and training keys of the tagged tables.  A prediction is looked up with
the fold registers and trained, much later, from the histories saved with it.
The registers follow the speculative history, so both name the same entry.
-/
import OoOCore.BranchPredictionUnit
import OoOCore.CorrectorFolds

namespace OoOCore

namespace TageUpdateQueue

/-- Every record in the queue has a property. -/
structure Holds (P : TageUpdate → Prop) (q : TageUpdateQueue) : Prop where
  tail : q.tail = q.head + BitVec.ofNat 2 q.count
  bounded : q.count ≤ depth
  records : ∀ k < q.count, P (q.entries (q.head + BitVec.ofNat 2 k))

variable {P Q : TageUpdate → Prop} {q : TageUpdateQueue}

theorem Holds.mono (h : q.Holds P) (hPQ : ∀ r, P r → Q r) : q.Holds Q where
  tail := h.tail
  bounded := h.bounded
  records := fun k hk => hPQ _ (h.records k hk)

theorem Holds.reset : Holds P {} where
  tail := by decide
  bounded := by decide
  records := fun k hk => absurd hk (Nat.not_lt_zero k)

theorem Holds.deqData (h : q.Holds P) (hvalid : q.deqValid = true) :
    P q.deqData := by
  have hcount : q.count ≠ 0 := of_decide_eq_true hvalid
  have hfirst := h.records 0 (by omega)
  simpa [TageUpdateQueue.deqData] using hfirst

/-- Two places of the ring are different while they are fewer than four
apart. -/
theorem place_ne (head : BitVec 2) {a b : Nat} (hab : a < b) (hb : b < a + 4) :
    head + BitVec.ofNat 2 a ≠ head + BitVec.ofNat 2 b := by
  intro heq
  have hplace := BitVec.add_right_inj head |>.mp heq
  have hmod := congrArg BitVec.toNat hplace
  simp only [BitVec.toNat_ofNat] at hmod
  omega

theorem dequeue_true (q : TageUpdateQueue) :
    q.dequeue true = decide (q.count ≠ 0) := by
  simp [dequeue, deqValid]

/-- A queue that is drained in every cycle takes a record in every cycle. -/
theorem enqReady_true (q : TageUpdateQueue) : q.enqReady true = true := by
  rw [enqReady, dequeue_true, depth]
  by_cases hzero : q.count = 0
  · simp [hzero]
  · simp [hzero]

/-- An edge of the queue as the predictor drives it, never waiting. -/
theorem step_drained (q : TageUpdateQueue) (enqValid : Bool)
    (enqData : TageUpdate) :
    q.step true enqValid enqData =
      { entries := if enqValid then Function.update q.entries q.tail enqData
          else q.entries
        head := q.head + BitVec.ofNat 2 (min q.count 1)
        tail := q.tail + BitVec.ofNat 2 enqValid.toNat
        count := q.count - min q.count 1 + enqValid.toNat } := by
  have henqueue : q.enqueue true enqValid = enqValid := by
    rw [enqueue, q.enqReady_true, Bool.and_true]
  rw [TageUpdateQueue.step, henqueue, dequeue_true]
  cases enqValid with
  | true =>
      by_cases hzero : q.count = 0
      · simp [hzero]
      · have hone : min q.count 1 = 1 := by omega
        simp [hzero, hone]
        omega
  | false =>
      by_cases hzero : q.count = 0
      · simp [hzero]
      · have hone : min q.count 1 = 1 := by omega
        simp [hzero, hone]

/-- The queue hands out what was put into it. -/
theorem Holds.step (h : q.Holds P) {enqValid : Bool} {enqData : TageUpdate}
    (hnew : enqValid = true → P enqData) :
    (q.step true enqValid enqData).Holds P := by
  have hdepth := h.bounded
  have hshift (a b : Nat) : q.head + BitVec.ofNat 2 a + BitVec.ofNat 2 b =
      q.head + BitVec.ofNat 2 (a + b) := by
    rw [BitVec.add_assoc, ← BitVec.ofNat_add]
  simp only [depth] at hdepth
  rw [step_drained]
  constructor
  · change q.tail + _ = q.head + _ + _
    have hlast : q.count + enqValid.toNat =
        min q.count 1 + (q.count - min q.count 1 + enqValid.toNat) := by
      omega
    rw [h.tail, hshift, hshift]
    exact congrArg (fun place => q.head + BitVec.ofNat 2 place) hlast
  · change q.count - min q.count 1 + enqValid.toNat ≤ 4
    have hone := Bool.toNat_le enqValid
    omega
  · intro k hk
    change k < q.count - min q.count 1 + enqValid.toNat at hk
    change P ((if enqValid then Function.update q.entries q.tail enqData
      else q.entries) (q.head + _ + _))
    rw [hshift]
    cases enqValid with
    | false =>
        rw [Bool.toNat_false] at hk
        exact h.records (min q.count 1 + k) (by omega)
    | true =>
        rw [Bool.toNat_true] at hk
        rw [if_pos rfl]
        by_cases hlast : min q.count 1 + k = q.count
        · rw [hlast, ← h.tail, Function.update_self]
          exact hnew rfl
        · rw [h.tail, Function.update_of_ne
            (place_ne q.head (by omega) (by omega))]
          exact h.records (min q.count 1 + k) (by omega)

/-- The records waiting in the queue, oldest first. -/
def contents (q : TageUpdateQueue) : List TageUpdate :=
  (List.range q.count).map fun k => q.entries (q.head + BitVec.ofNat 2 k)

theorem contents_length (q : TageUpdateQueue) : q.contents.length = q.count := by
  rw [contents, List.length_map, List.length_range]

theorem contents_cons (q : TageUpdateQueue) (hvalid : q.deqValid = true) :
    ∃ rest, q.contents = q.deqData :: rest := by
  have hcount : q.count ≠ 0 := of_decide_eq_true hvalid
  obtain ⟨n, hn⟩ := Nat.exists_eq_succ_of_ne_zero hcount
  rw [contents, hn, List.range_succ_eq_map, List.map_cons]
  refine ⟨_, congrArg (· :: _) ?_⟩
  simp [deqData]

/-- The head of the queue leaves with every edge. -/
theorem contents_split (q : TageUpdateQueue) :
    q.contents = (if q.deqValid then [q.deqData] else []) ++
      q.contents.tail := by
  cases hvalid : q.deqValid with
  | true =>
      obtain ⟨rest, hrest⟩ := q.contents_cons hvalid
      rw [hrest]
      rfl
  | false =>
      have hcount : q.count = 0 := by simpa [deqValid] using hvalid
      rw [contents, hcount]
      rfl

/-- In every cycle the oldest record leaves and a retired one enters. -/
theorem Holds.step_contents (h : q.Holds P) (enqValid : Bool)
    (enqData : TageUpdate) :
    (q.step true enqValid enqData).contents =
      q.contents.tail ++ if enqValid then [enqData] else [] := by
  have hdepth := h.bounded
  have hshift (a b : Nat) : q.head + BitVec.ofNat 2 a + BitVec.ofNat 2 b =
      q.head + BitVec.ofNat 2 (a + b) := by
    rw [BitVec.add_assoc, ← BitVec.ofNat_add]
  simp only [depth] at hdepth
  have hplace {k : Nat} (hpos : 0 < k) (hk : k < q.count) :
      (if enqValid then Function.update q.entries q.tail enqData
        else q.entries) (q.head + BitVec.ofNat 2 k) =
      q.entries (q.head + BitVec.ofNat 2 k) := by
    cases enqValid with
    | false => rfl
    | true =>
        rw [if_pos rfl, h.tail,
          Function.update_of_ne (place_ne q.head hk (by omega))]
  have hkept : (List.range (q.count - min q.count 1)).map (fun k =>
        (if enqValid then Function.update q.entries q.tail enqData
          else q.entries)
          (q.head + BitVec.ofNat 2 (min q.count 1) + BitVec.ofNat 2 k)) =
      q.contents.tail := by
    rw [contents, ← List.map_tail, List.tail_range]
    apply List.ext_getElem
    · simp
      omega
    · intro k hk _
      rw [List.length_map, List.length_range] at hk
      have hone : min q.count 1 = 1 := by
        clear hplace
        omega
      simp only [List.getElem_map, List.getElem_range, List.getElem_range', hshift]
      rw [hplace (by omega) (by omega), hone, Nat.one_mul]
  rw [step_drained, contents]
  cases enqValid with
  | false => simpa using hkept
  | true =>
      have hlast : min q.count 1 + (q.count - min q.count 1) = q.count := by
        omega
      rw [Bool.toNat_true, List.range_succ, List.map_append, hkept,
        List.map_singleton, hshift, hlast, if_pos rfl, h.tail]
      exact congrArg (fun record => q.contents.tail ++ [record])
        (Function.update_self _ _ _)

end TageUpdateQueue

namespace TagePredictor

open TageFoldedHistory

variable {p : TagePredictor} {i : Inputs}

/-- Every fold register holds the fold of the speculative history. -/
structure Folded (p : TagePredictor) : Prop where
  index : ∀ t, Follows (tageHistoryLength t) (p.indexFold t)
    p.globalHistories.history
  tagA : ∀ t, Follows (tageHistoryLength t) (p.tagFoldA t)
    p.globalHistories.history
  tagB : ∀ t, Follows (tageHistoryLength t) (p.tagFoldB t)
    p.globalHistories.history
  corrector : ∀ t : Fin 6, Follows (StatisticalCorrector.historyLength t)
    (p.scFold t) p.globalHistories.history

theorem tageHistoryLength_bounds (t : TageTableId) :
    0 < tageHistoryLength t ∧ tageHistoryLength t ≤ 192 := by
  revert t
  decide

theorem tageTagWidth_bounds (t : TageTableId) :
    0 < tageTagWidth t ∧ 0 < tageTagWidth t - 1 := by
  revert t
  decide

/-- The registers and the history move to the same place. -/
theorem requestBaseHistory_foldInputs (p : TagePredictor) (i : Inputs) :
    requestBaseHistory (p.foldInputs i) = (p.requestHistories i).history := by
  unfold requestBaseHistory requestHistories
  change (if restoreValid i then (p.restored i).history else _) = _
  cases restoreValid i with
  | true => rfl
  | false => rfl

section Registers

variable {length width : Nat} {foldedHistory : BitVec width}

theorem queryFold_follows
    (h : Follows length foldedHistory p.globalHistories.history)
    (i : Inputs) (lane : Lane) :
    Follows length (p.queryFold i length foldedHistory lane)
      (p.request i lane).histories.history := by
  have hinput : Follows length foldedHistory (p.foldInputs i).globalHistory := h
  match lane with
  | 0 =>
      have hstep := hinput.step
      rw [requestBaseHistory_foldInputs] at hstep
      exact hstep
  | 1 =>
      have hstep := hinput.step1
      rw [requestBaseHistory_foldInputs] at hstep
      exact hstep

theorem requestBaseFold_follows
    (h : Follows length foldedHistory p.globalHistories.history)
    (i : Inputs) :
    Follows length (requestBaseFold length foldedHistory (p.foldInputs i))
      (p.requestHistories i).history :=
  queryFold_follows h i 0

end Registers

theorem Folded.reset (tables : (t : TageTableId) → TageTable (tageTagWidth t)) :
    Folded (reset tables) where
  index := fun t => Follows.reset (tageHistoryLength_bounds t).1
    (tageHistoryLength_bounds t).2 (by decide)
  tagA := fun t => Follows.reset (tageHistoryLength_bounds t).1
    (tageHistoryLength_bounds t).2 (tageTagWidth_bounds t).1
  tagB := fun t => Follows.reset (tageHistoryLength_bounds t).1
    (tageHistoryLength_bounds t).2 (tageTagWidth_bounds t).2
  corrector := fun t => Follows.reset
    (StatisticalCorrector.historyLength_bounds t).1
    (StatisticalCorrector.historyLength_bounds t).2 (by decide)

theorem Folded.step (h : Folded p) (i : Inputs) : Folded (p.step i) where
  index := fun t => requestBaseFold_follows (h.index t) i
  tagA := fun t => requestBaseFold_follows (h.tagA t) i
  tagB := fun t => requestBaseFold_follows (h.tagB t) i
  corrector := fun t => requestBaseFold_follows (h.corrector t) i

/-- The index a lane looks up is the one its histories rebuild. -/
theorem Folded.queryIndex_eq (h : Folded p) (i : Inputs) (t : TageTableId)
    (lane : Lane) :
    p.queryIndex i t lane = TageHash.updateIndex t (i.queryPc lane)
      (p.request i lane).histories.history
      (p.request i lane).histories.path := by
  rw [queryIndex, (queryFold_follows (h.index t) i lane).fold]
  rfl

theorem Folded.queryTag_eq (h : Folded p) (i : Inputs) (t : TageTableId)
    (lane : Lane) :
    p.queryTag i t lane = TageHash.updateTag t (i.queryPc lane)
      (p.request i lane).histories.history
      (p.request i lane).histories.path := by
  rw [queryTag, (queryFold_follows (h.tagA t) i lane).fold,
    (queryFold_follows (h.tagB t) i lane).fold]
  rfl

end TagePredictor

namespace BranchPredictionUnit

open StatisticalCorrector (Base)

/-- The places of the tables a lane reads for its request, with the base the
corrector formed its own places from. -/
structure Keys where
  index : TageTableId → BitVec 9
  tag : (t : TageTableId) → BitVec (tageTagWidth t)
  base : Base
  bias : Fin 2 → BitVec 8
  threshold : BitVec 5

/-- A conditional branch that left the predictor with its prediction. -/
structure Prediction where
  pc : Word
  tageMeta : TageMeta
  keys : Keys

section Keys

variable (u : BranchPredictionUnit) (i : Inputs)

/-- The keys formed in a cycle, for the response of the next one. -/
def keys (lane : Lane) : Keys :=
  let c := u.tage.correctorInputs (u.tageInputs i)
  { index := fun t => u.tage.queryIndex (u.tageInputs i) t lane
    tag := fun t => u.tage.queryTag (u.tageInputs i) t lane
    base := c.base lane
    bias := StatisticalCorrector.queryBiasIndex (c.query lane) (c.base lane)
    threshold := StatisticalCorrector.queryThresholdIndex (c.query lane)
      (c.base lane) }

/-- The conditional branches of the response consumed in a cycle, whose tables
were read at `held`. -/
def predicted (held : Lane → Keys) : List Prediction :=
  (List.finRange 2).filterMap fun lane =>
    if i.queryAdvance lane && u.queryIsConditional i lane then
      some ⟨u.responsePc lane, u.tageMeta i lane, held lane⟩
    else none

end Keys

/-- The runs of the predictor with the keys of the present response and the
branches predicted so far.  The fetch stage requests only when the predictor is
ready, and a retired branch comes back with what it was predicted with. -/
inductive Run : BranchPredictionUnit → (Lane → Keys) → List Prediction → Prop
  | reset (tables : (t : TageTableId) → TageTable (tageTagWidth t))
      (held : Lane → Keys) : Run (reset tables) held []
  | step {u : BranchPredictionUnit} {held : Lane → Keys}
      {log : List Prediction} (h : Run u held log) (i : Inputs)
      (haccept : i.queryValid = true → u.queryReady i = true)
      (hupdate : i.update.valid = true → i.update.isConditional = true →
        ∃ r ∈ log, r.pc = i.update.pc ∧ r.tageMeta = i.update.tageMeta) :
      Run (u.step i) (u.keys i) (log ++ u.predicted i held)

variable {u : BranchPredictionUnit} {i : Inputs} {held : Lane → Keys}
  {log : List Prediction}

/-- The tables are asked for the addresses the response will be at. -/
theorem nextResponsePc_eq (haccept : i.queryValid = true → u.queryReady i = true)
    (lane : Lane) : u.nextResponsePc i lane = u.tageQueryPc i lane := by
  unfold nextResponsePc tageQueryPc
  cases hvalid : i.queryValid with
  | false =>
      cases i.cancel with
      | true => rfl
      | false => rfl
  | true =>
      rw [haccept hvalid]
      cases i.cancel with
      | true => rfl
      | false => rfl

theorem mem_predicted {r : Prediction} : r ∈ u.predicted i held ↔
    ∃ lane, (i.queryAdvance lane && u.queryIsConditional i lane) = true ∧
      ⟨u.responsePc lane, u.tageMeta i lane, held lane⟩ = r := by
  simp only [predicted, List.mem_filterMap, List.mem_finRange, true_and,
    Option.ite_none_right_eq_some, Option.some.injEq]

/-- Only a valid response has a branch in it. -/
theorem contextValid_of_conditional {lane : Lane}
    (h : u.queryIsConditional i lane = true) : u.requestContextValid = true := by
  by_contra hnot
  have hvalid : u.predictionValid i = false := by
    simp [predictionValid, hnot]
  rw [queryIsConditional, responseInsn, hvalid, if_neg Bool.false_ne_true] at h
  exact absurd h (by decide)

/-- The training base of a prediction, `trainingMeta` as the corrector sees
it. -/
def trainingBase (m : TageMeta) : Base where
  prediction := m.preScPrediction
  strong := m.loop.confident || (m.providerValid && !m.providerWeak)

/-- The keys of the response belong to its addresses and histories. -/
structure Keyed (u : BranchPredictionUnit) (held : Lane → Keys) : Prop where
  folded : u.tage.Folded
  pc : ∀ lane, (u.tage.prediction lane).pc = u.responsePc lane
  index : u.requestContextValid = true → ∀ lane t, (held lane).index t =
    TageHash.updateIndex t (u.responsePc lane)
      (u.tage.prediction lane).histories.history
      (u.tage.prediction lane).histories.path
  tag : u.requestContextValid = true → ∀ lane t, (held lane).tag t =
    TageHash.updateTag t (u.responsePc lane)
      (u.tage.prediction lane).histories.history
      (u.tage.prediction lane).histories.path
  bias : u.requestContextValid = true → ∀ lane t, (held lane).bias t =
    StatisticalCorrector.hashBias (u.responsePc lane)
      (StatisticalCorrector.rebuildGlobalFold
        (u.tage.prediction lane).histories.history 0) (held lane).base t
  threshold : u.requestContextValid = true → ∀ lane, (held lane).threshold =
    StatisticalCorrector.hashThreshold (u.responsePc lane) (held lane).base

theorem Keyed.reset (tables : (t : TageTableId) → TageTable (tageTagWidth t))
    (held : Lane → Keys) : Keyed (reset tables) held where
  folded := TagePredictor.Folded.reset tables
  pc := fun _ => rfl
  index := fun h => absurd h Bool.false_ne_true
  tag := fun h => absurd h Bool.false_ne_true
  bias := fun h => absurd h Bool.false_ne_true
  threshold := fun h => absurd h Bool.false_ne_true

theorem Keyed.step (h : Keyed u held)
    (haccept : i.queryValid = true → u.queryReady i = true) :
    Keyed (u.step i) (u.keys i) := by
  have hpc (lane : Lane) : (u.step i).responsePc lane =
      (u.tageInputs i).queryPc lane := nextResponsePc_eq haccept lane
  have hrequest (lane : Lane) : (u.step i).tage.prediction lane =
      u.tage.request (u.tageInputs i) lane := rfl
  have hshort (lane : Lane) : StatisticalCorrector.rebuildGlobalFold
      (u.tage.request (u.tageInputs i) lane).histories.history 0 =
      u.tage.queryFold (u.tageInputs i)
        (StatisticalCorrector.historyLength (0 : Fin 6)) (u.tage.scFold 0)
        lane := by
    rw [(TagePredictor.queryFold_follows (h.folded.corrector 0) _ lane).fold]
    exact (StatisticalCorrector.rebuild_eq_iff _ 0).mpr
      fun hzero => absurd hzero (by decide)
  constructor
  · exact h.folded.step _
  · intro lane
    rw [hpc, hrequest]
    match lane with
    | 0 => rfl
    | 1 => rfl
  · intro _ lane t
    rw [hpc, hrequest]
    exact h.folded.queryIndex_eq _ t lane
  · intro _ lane t
    rw [hpc, hrequest]
    exact h.folded.queryTag_eq _ t lane
  · intro _ lane t
    rw [hpc, hrequest, hshort]
    rfl
  · intro _ lane
    rw [hpc]
    rfl

/-- What training rebuilds of a prediction: the keys, up to the base. -/
structure Prediction.Rebuilt (r : Prediction) : Prop where
  index : ∀ t, r.keys.index t =
    TageHash.updateIndex t r.pc r.tageMeta.history r.tageMeta.pathHistory
  tag : ∀ t, r.keys.tag t =
    TageHash.updateTag t r.pc r.tageMeta.history r.tageMeta.pathHistory
  bias : ∀ t : Fin 2, r.keys.bias t = StatisticalCorrector.hashBias r.pc
    (StatisticalCorrector.rebuildGlobalFold r.tageMeta.history 0) r.keys.base t
  threshold : r.keys.threshold =
    StatisticalCorrector.hashThreshold r.pc r.keys.base

theorem tageBaseMeta_histories (p : TagePredictor)
    (fallbackPrediction : Lane → Bool) (lane : Lane) :
    (p.tageBaseMeta fallbackPrediction lane).history =
        (p.prediction lane).histories.history ∧
      (p.tageBaseMeta fallbackPrediction lane).pathHistory =
        (p.prediction lane).histories.path := by
  unfold TagePredictor.tageBaseMeta
  cases p.hits lane with
  | nil => exact ⟨rfl, rfl⟩
  | cons t rest => exact ⟨rfl, rfl⟩

/-- The histories saved with a prediction are those of its request. -/
theorem tageMeta_histories (u : BranchPredictionUnit) (i : Inputs)
    (lane : Lane) :
    (u.tageMeta i lane).history = (u.tage.prediction lane).histories.history ∧
      (u.tageMeta i lane).pathHistory =
        (u.tage.prediction lane).histories.path :=
  tageBaseMeta_histories u.tage u.baseTaken lane

theorem Keyed.rebuilt (h : Keyed u held) {r : Prediction}
    (hr : r ∈ u.predicted i held) : r.Rebuilt := by
  obtain ⟨lane, hbranch, rfl⟩ := mem_predicted.mp hr
  rw [Bool.and_eq_true] at hbranch
  have hvalid := contextValid_of_conditional hbranch.2
  obtain ⟨hhistory, hpath⟩ := tageMeta_histories u i lane
  constructor
  · intro t
    rw [hhistory, hpath]
    exact h.index hvalid lane t
  · intro t
    rw [hhistory, hpath]
    exact h.tag hvalid lane t
  · intro t
    rw [hhistory]
    exact h.bias hvalid lane t
  · exact h.threshold hvalid lane

/-- A training record is one of the predictions made before. -/
def Returned (log : List Prediction) (record : TageUpdate) : Prop :=
  ∃ r ∈ log, r.pc = record.pc ∧ r.tageMeta = record.tageMeta

theorem Run.keyed (h : Run u held log) : Keyed u held ∧
    (∀ r ∈ log, r.Rebuilt) ∧ u.tage.updateQueue.Holds (Returned log) := by
  induction h with
  | reset tables held =>
      exact ⟨Keyed.reset tables held, fun r hr => absurd hr List.not_mem_nil,
        TageUpdateQueue.Holds.reset⟩
  | @step u held log h i haccept hupdate ih =>
      obtain ⟨hkeyed, hlog, hqueue⟩ := ih
      have hmore (record : TageUpdate) (hr : Returned log record) :
          Returned (log ++ u.predicted i held) record := by
        obtain ⟨r, hmem, heq⟩ := hr
        exact ⟨r, List.mem_append_left _ hmem, heq⟩
      refine ⟨hkeyed.step haccept, ?_, ?_⟩
      · intro r hr
        rcases List.mem_append.mp hr with hr | hr
        · exact hlog r hr
        · exact hkeyed.rebuilt hr
      · apply (hqueue.mono hmore).step
        intro hvalid
        rw [Bool.and_eq_true] at hvalid
        exact hmore _ (hupdate hvalid.1 hvalid.2)

theorem Run.training_returned (h : Run u held log)
    (htraining : u.tage.trainsConditional = true) :
    Returned log u.tage.training := by
  rw [TagePredictor.trainsConditional, Bool.and_eq_true] at htraining
  exact h.keyed.2.2.deqData htraining.1

namespace Relookup

/-- A cycle in which the response, with a conditional branch in slot 0, is
consumed and the next one is requested. -/
def cycle (pc : Word) (update : Update) : Inputs where
  flush := false
  cancel := false
  queryValid := true
  queryPc := fun lane => if lane = 0 then pc else pc + 4
  instructionValid := true
  queryInsn := fun lane => if lane = 0 then 0x63 else 0x13
  queryAdvance := fun _ => true
  update := update
  resolve := ⟨false, 0, false, false, 0, false, false, false, 0⟩
  checkpointAlloc := fun _ => ⟨false, 0, {}, {}⟩

/-- No branch retires. -/
def noUpdate : Update := ⟨⟨false, false, 0, 0, false, {}⟩, 0⟩

def start : BranchPredictionUnit := reset fun _ =>
  TageTable.reset (fun _ _ => 0) (fun _ => 0) fun _ => 0

def requested : BranchPredictionUnit := start.step (cycle 0 noUpdate)

/-- The branch at address 0 is consumed here, predicted not taken. -/
def consumed : BranchPredictionUnit := requested.step (cycle 8 noUpdate)

/-- It retires taken in the cycle in which it is looked up again. -/
def retires : Inputs := cycle 0
  ⟨⟨true, true, 0, 64, true, requested.tageMeta (cycle 8 noUpdate) 0⟩, 0⟩

def again : BranchPredictionUnit := consumed.step retires

/-- The first prediction of the branch. -/
def first : Prediction where
  pc := requested.responsePc 0
  tageMeta := requested.tageMeta (cycle 8 noUpdate) 0
  keys := start.keys (cycle 0 noUpdate) 0

/-- The second one. -/
def second : Prediction where
  pc := again.responsePc 0
  tageMeta := again.tageMeta (cycle 8 noUpdate) 0
  keys := consumed.keys retires 0

theorem run_consumed : ∃ held log, Run consumed held log ∧ first ∈ log ∧
    held = requested.keys (cycle 8 noUpdate) := by
  have hstart : Run start (fun _ => start.keys (cycle 0 noUpdate) 0) [] :=
    Run.reset _ _
  have hrequested := hstart.step (cycle 0 noUpdate) (fun _ => by decide +kernel)
    fun h => absurd h (by decide)
  have hconsumed := hrequested.step (cycle 8 noUpdate)
    (fun _ => by decide +kernel) fun h => absurd h (by decide)
  refine ⟨_, _, hconsumed, List.mem_append_right _ ?_, rfl⟩
  exact mem_predicted.mpr ⟨0, by decide +kernel, rfl⟩

theorem run_again : ∃ held log, Run again held log ∧ first ∈ log ∧
    held = consumed.keys retires := by
  obtain ⟨held, log, hrun, hfirst, _⟩ := run_consumed
  have hagain := hrun.step retires (fun _ => by decide +kernel)
    fun _ _ => ⟨first, hfirst, by decide +kernel, rfl⟩
  exact ⟨_, _, hagain, List.mem_append_left _ hfirst, rfl⟩

end Relookup

/-- In every run the fold registers hold the direct folds of the speculative
history, and every predicted branch is trained at the index and the tag of
every table it was looked up with. -/
theorem keys_agree (h : Run u held log) :
    (∀ t, u.tage.indexFold t =
          TageHash.foldIndexHistory t u.tage.globalHistories.history ∧
        u.tage.tagFoldA t =
          TageHash.foldTagHistoryA t u.tage.globalHistories.history ∧
        u.tage.tagFoldB t =
          TageHash.foldTagHistoryB t u.tage.globalHistories.history) ∧
    (∀ t : Fin 6, u.tage.scFold t = TageFoldedHistory.foldHistory
      (StatisticalCorrector.historyLength t) 8
      u.tage.globalHistories.history) ∧
    (∀ r ∈ log, ∀ t,
      r.keys.index t = TageHash.updateIndex t r.pc r.tageMeta.history
        r.tageMeta.pathHistory ∧
      r.keys.tag t = TageHash.updateTag t r.pc r.tageMeta.history
        r.tageMeta.pathHistory) ∧
    (u.tage.trainsConditional = true → ∃ r ∈ log,
      r.pc = u.tage.training.pc ∧ r.tageMeta = u.tage.training.tageMeta ∧
      ∀ t, u.tage.trainingIndex t = r.keys.index t ∧
        u.tage.trainingTag t = r.keys.tag t) := by
  obtain ⟨hkeyed, hlog, _⟩ := h.keyed
  have hfolded := hkeyed.folded
  refine ⟨?_, ?_, ?_, ?_⟩
  · intro t
    exact ⟨(hfolded.index t).fold, (hfolded.tagA t).fold,
      (hfolded.tagB t).fold⟩
  · intro t
    exact (hfolded.corrector t).fold
  · intro r hr t
    exact ⟨(hlog r hr).index t, (hlog r hr).tag t⟩
  · intro htraining
    obtain ⟨r, hr, hpc, hmeta⟩ := h.training_returned htraining
    refine ⟨r, hr, hpc, hmeta, ?_⟩
    intro t
    rw [(hlog r hr).index t, (hlog r hr).tag t, hpc, hmeta]
    exact ⟨rfl, rfl⟩

/-- The branch of `Relookup` is trained where it was looked up. -/
theorem keys_agree_relookup : ∃ held log, Run Relookup.again held log ∧
    ∃ r ∈ log, r.pc = 0 ∧
      ∀ t, Relookup.again.tage.trainingIndex t = r.keys.index t ∧
        Relookup.again.tage.trainingTag t = r.keys.tag t := by
  obtain ⟨held, log, hrun, _⟩ := Relookup.run_again
  obtain ⟨r, hr, hpc, _, hkeys⟩ :=
    (keys_agree hrun).2.2.2 (by decide +kernel)
  refine ⟨held, log, hrun, r, hr, ?_, hkeys⟩
  rw [hpc]
  decide +kernel

section Base

variable {pc : Word} {base base' : Base}

/-- The threshold index tells bases apart. -/
theorem hashThreshold_injective
    (h : StatisticalCorrector.hashThreshold pc base =
      StatisticalCorrector.hashThreshold pc base') : base = base' := by
  obtain ⟨prediction, strong⟩ := base
  obtain ⟨prediction', strong'⟩ := base'
  simp only [StatisticalCorrector.hashThreshold, BitVec.xor_assoc,
    BitVec.xor_right_inj] at h
  revert h
  revert prediction strong prediction' strong'
  decide

end Base

/-- In every run, the counters a predicted branch reads of the bias and the
threshold tables are those it trains exactly when the base on the response port
in the cycle of its lookup is its own. -/
theorem corrector_keys_agree_iff (h : Run u held log) :
    (∀ r ∈ log,
      (∀ t : Fin 2, r.keys.bias t = StatisticalCorrector.hashBias r.pc
          (StatisticalCorrector.rebuildGlobalFold r.tageMeta.history 0)
          (trainingBase r.tageMeta) t) ∧
        r.keys.threshold = StatisticalCorrector.hashThreshold r.pc
          (trainingBase r.tageMeta) ↔
      r.keys.base = trainingBase r.tageMeta) ∧
    (u.tage.trainsConditional = true → ∃ r ∈ log,
      r.pc = u.tage.training.pc ∧ r.tageMeta = u.tage.training.tageMeta ∧
      ((∀ t, r.keys.bias t = StatisticalCorrector.updateBiasIndex
            u.tage.correctorUpdate t) ∧
          r.keys.threshold = StatisticalCorrector.updateThresholdIndex
            u.tage.correctorUpdate ↔
        r.keys.base = trainingBase r.tageMeta)) := by
  obtain ⟨_, hlog, _⟩ := h.keyed
  have hagree : ∀ r ∈ log,
      (∀ t : Fin 2, r.keys.bias t = StatisticalCorrector.hashBias r.pc
          (StatisticalCorrector.rebuildGlobalFold r.tageMeta.history 0)
          (trainingBase r.tageMeta) t) ∧
        r.keys.threshold = StatisticalCorrector.hashThreshold r.pc
          (trainingBase r.tageMeta) ↔
      r.keys.base = trainingBase r.tageMeta := by
    intro r hr
    constructor
    · rintro ⟨_, hthreshold⟩
      rw [(hlog r hr).threshold] at hthreshold
      exact hashThreshold_injective hthreshold
    · intro hbase
      rw [← hbase]
      exact ⟨(hlog r hr).bias, (hlog r hr).threshold⟩
  refine ⟨hagree, ?_⟩
  intro htraining
  obtain ⟨r, hr, hpc, hmeta⟩ := h.training_returned htraining
  refine ⟨r, hr, hpc, hmeta, ?_⟩
  have hiff := hagree r hr
  rw [hpc, hmeta] at hiff
  rw [hmeta]
  exact hiff

theorem corrector_keys_agree_iff_first : ∃ held log,
    Run Relookup.consumed held log ∧ Relookup.first ∈ log ∧
    Relookup.first.keys.threshold =
      StatisticalCorrector.hashThreshold Relookup.first.pc
        (trainingBase Relookup.first.tageMeta) := by
  obtain ⟨held, log, hrun, hfirst, _⟩ := Relookup.run_consumed
  have hagree := (corrector_keys_agree_iff hrun).1 _ hfirst
  exact ⟨held, log, hrun, hfirst, (hagree.mpr (by decide +kernel)).2⟩

/-- The second prediction of `Relookup` is taken, and its counters were read
beside a response predicted not taken. -/
theorem threshold_read_beside_other : ¬ ∀ u held log, Run u held log →
    ∀ r ∈ log,
      (∀ t : Fin 2, r.keys.bias t = StatisticalCorrector.hashBias r.pc
          (StatisticalCorrector.rebuildGlobalFold r.tageMeta.history 0)
          (trainingBase r.tageMeta) t) ∧
        r.keys.threshold = StatisticalCorrector.hashThreshold r.pc
          (trainingBase r.tageMeta) := by
  intro h
  obtain ⟨held, log, hrun, _, rfl⟩ := Relookup.run_again
  have hlast := hrun.step (Relookup.cycle 8 Relookup.noUpdate)
    (fun _ => by decide +kernel) fun hvalid => absurd hvalid (by decide)
  have hsecond : Relookup.second ∈ log ++ Relookup.again.predicted
      (Relookup.cycle 8 Relookup.noUpdate)
      (Relookup.consumed.keys Relookup.retires) :=
    List.mem_append_right _ (mem_predicted.mpr ⟨0, by decide +kernel, rfl⟩)
  have hthreshold := (h _ _ _ hlast _ hsecond).2
  revert hthreshold
  decide +kernel

end BranchPredictionUnit

end OoOCore
