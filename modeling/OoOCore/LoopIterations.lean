/-
Iterations of a loop.  The predictor counts a branch from the youngest logged
one of its loop, and without one from a copy of the committed count that a
retirement on the edge of the lookup has overtaken.
-/
import OoOCore.LoopLog
import Mathlib.Data.List.Find

namespace OoOCore

/-- The branch belongs to a loop, told by the index and the tag of its
entry. -/
def LoopBranch.of (e : LoopBranch) (index : BitVec 6) (tag : BitVec 12) : Bool :=
  e.conditional && decide (e.index = index) && decide (e.requestedTag = tag)

namespace LoopPredictor

section Count

/-- The count after the branches of a loop, in order. -/
def iterations (same : LoopBranch → Bool) (direction : Bool)
    (count : BitVec 10) (flight : List LoopBranch) : BitVec 10 :=
  flight.foldl (fun n e =>
    if same e then advanceIteration n e.taken direction else n) count

/-- Every branch of the loop was predicted with the count before it and has
logged the one after it. -/
def Counted (same : LoopBranch → Bool) (direction : Bool) :
    BitVec 10 → List LoopBranch → Prop
  | _, [] => True
  | n, e :: rest =>
      (same e = true → e.loopMeta.iterationBefore = n ∧
        e.nextIter = advanceIteration n e.taken direction) ∧
      Counted same direction
        (if same e then advanceIteration n e.taken direction else n) rest

variable {same same' : LoopBranch → Bool} {direction : Bool} {n : BitVec 10}
  {flight a b : List LoopBranch}

theorem iterations_append (n : BitVec 10) (a b : List LoopBranch) :
    iterations same direction n (a ++ b) =
      iterations same direction (iterations same direction n a) b :=
  List.foldl_append

theorem counted_append (n : BitVec 10) (a b : List LoopBranch) :
    Counted same direction n (a ++ b) ↔ Counted same direction n a ∧
      Counted same direction (iterations same direction n a) b := by
  induction a generalizing n with
  | nil => simp [Counted, iterations]
  | cons e rest ih =>
      simp only [List.cons_append, Counted, ih, and_assoc]
      rfl

/-- Branches of other loops do not count. -/
theorem iterations_none (h : ∀ e ∈ flight, same e = false) :
    iterations same direction n flight = n := by
  induction flight with
  | nil => rfl
  | cons e rest ih =>
      rw [iterations, List.foldl_cons, h e List.mem_cons_self,
        if_neg Bool.false_ne_true]
      exact ih fun e he => h e (List.mem_cons_of_mem _ he)

theorem counted_none (h : ∀ e ∈ flight, same e = false) :
    Counted same direction n flight := by
  induction flight generalizing n with
  | nil => exact trivial
  | cons e rest ih =>
      refine ⟨fun hsame => ?_, ih fun e he => h e (List.mem_cons_of_mem _ he)⟩
      exact absurd ((h e List.mem_cons_self).symm.trans hsame)
        Bool.false_ne_true

/-- The youngest logged branch of the loop has the count after all of them. -/
theorem Counted.youngest (h : Counted same direction n flight)
    (hlogged : ∀ e ∈ flight, same e = true → e.logged = true) :
    match (flight.filter LoopBranch.logged).reverse.find? same with
    | some e => e.nextIter = iterations same direction n flight
    | none => ∀ e ∈ flight, same e = false := by
  induction flight using List.reverseRecOn with
  | nil => exact fun e he => absurd he List.not_mem_nil
  | append_singleton rest e ih =>
      obtain ⟨hrest, hlast, _⟩ := (counted_append n rest [e]).mp h
      have hrec := ih hrest fun e' he' =>
        hlogged e' (List.mem_append_left _ he')
      rw [List.filter_append, List.reverse_append, iterations_append]
      cases hsame : same e with
      | true =>
          have hown := hlogged e (List.mem_append_right _ List.mem_cons_self)
            hsame
          rw [List.filter_cons_of_pos hown, List.filter_nil,
            List.reverse_singleton, List.singleton_append,
            List.find?_cons_of_pos hsame]
          change e.nextIter = if same e then _ else _
          rw [hsame, if_pos rfl]
          exact (hlast hsame).2
      | false =>
          have hskip : (([e].filter LoopBranch.logged).reverse ++
                (rest.filter LoopBranch.logged).reverse).find? same =
              ((rest.filter LoopBranch.logged).reverse).find? same := by
            cases hown : e.logged with
            | true =>
                rw [List.filter_cons_of_pos hown, List.filter_nil,
                  List.reverse_singleton, List.singleton_append,
                  List.find?_cons_of_neg (by simp [hsame])]
            | false =>
                rw [List.filter_cons_of_neg (by simp [hown])]
                rfl
          have hcount : iterations same direction
                (iterations same direction n rest) [e] =
              iterations same direction n rest :=
            iterations_none fun e' he' =>
              List.mem_singleton.mp he' ▸ hsame
          rw [hskip, hcount]
          split at hrec
          · next e' hfound => exact hrec
          · next hfound =>
              intro e' he'
              rcases List.mem_append.mp he' with he' | he'
              · exact hrec e' he'
              · exact List.mem_singleton.mp he' ▸ hsame

/-- Tags do not count either. -/
theorem counted_untagged (hsame : ∀ e, same (untagged e) = same e)
    (n : BitVec 10) (flight : List LoopBranch) :
    Counted same direction n (flight.map untagged) ↔
      Counted same direction n flight := by
  induction flight generalizing n with
  | nil => exact Iff.rfl
  | cons e rest ih =>
      rw [List.map_cons, Counted, Counted, hsame, ih]
      rfl

theorem iterations_untagged (hsame : ∀ e, same (untagged e) = same e)
    (n : BitVec 10) (flight : List LoopBranch) :
    iterations same direction n (flight.map untagged) =
      iterations same direction n flight := by
  rw [iterations, List.foldl_map]
  simp only [hsame]
  rfl

end Count

section Scan

variable {p : LoopPredictor} {flight : List LoopBranch}

/-- Behind the logged branches the log is empty, so a scan from the tail meets
them from the youngest on. -/
theorem Log.scan (h : Log p.action p.actionTail flight)
    {found : BitVec 5 → Bool}
    (hfound : ∀ slot, found slot = true → (p.action slot).valid = true) :
    ((List.range 32).map fun k => p.behind (k + 1)).find? found =
      (((flight.filter LoopBranch.logged).reverse).map
        LoopBranch.slot).find? found := by
  obtain ⟨c, hplaced, htail⟩ := h.placed
  have hcount := h.logged_le
  simp only [flightLimit] at hcount
  generalize hn : flight.countP LoopBranch.logged = n at hcount
  have hplace {k : Nat} (hk : k < 32) :
      p.behind (k + 1) = c + BitVec.ofNat 5 ((n + 31 - k) % 32) := by
    rw [behind, htail, reached_eq, hn]
    apply BitVec.eq_of_toNat_eq
    simp only [BitVec.toNat_sub, BitVec.toNat_add, BitVec.toNat_ofNat]
    omega
  have hlogged : (List.range n).map (fun k => p.behind (k + 1)) =
      ((flight.filter LoopBranch.logged).reverse).map LoopBranch.slot := by
    rw [List.map_reverse, hplaced.slots, hn]
    apply List.ext_getElem
    · simp
    · intro k hk _
      rw [List.length_map, List.length_range] at hk
      have hmod : (n + 31 - k) % 32 = n - 1 - k := by omega
      simp only [List.getElem_map, List.getElem_range, List.getElem_reverse,
        List.length_map, List.length_range]
      rw [hplace (by omega), hmod]
  have hempty : ((List.range (32 - n)).map
      fun k => p.behind (n + k + 1)).find? found = none := by
    rw [List.find?_eq_none]
    intro slot hslot hmatch
    obtain ⟨k, hk, rfl⟩ := List.mem_map.mp hslot
    rw [List.mem_range] at hk
    obtain ⟨e, he, hown, heq⟩ := h.valid _ (hfound _ hmatch)
    obtain ⟨j, hj, hslot⟩ := hplaced.slot_eq he hown
    rw [hn] at hj
    rw [hslot, hplace (by omega)] at heq
    have hsame := place_injective c (by omega) (by omega) heq
    omega
  have hsplit : List.range 32 =
      List.range n ++ (List.range (32 - n)).map (n + ·) := by
    rw [← List.range_add]
    congr 1
    omega
  rw [hsplit, List.map_append, List.find?_append, hlogged, List.map_map]
  have hrest : ((List.range (32 - n)).map
      ((fun k => p.behind (k + 1)) ∘ (n + ·))).find? found = none := hempty
  rw [hrest, Option.or_none]

end Scan

section Table

variable (p : LoopPredictor) (i : Inputs)

/-- An edge gives an entry to another loop. -/
def allocates (index : BitVec 6) : Bool :=
  i.update.valid && decide (updateIndex i = index) && !p.updateMatch i &&
    i.update.taken && decide (i.update.target < i.update.pc) &&
    (!(p.table index).valid || decide ((p.table index).age = 0))

/-- A retired branch of the loop of an entry. -/
def retiresOf (index : BitVec 6) : Bool :=
  i.update.valid && decide (updateIndex i = index) &&
    decide (pcTag i.update.pc = (p.table index).tag)

variable {p i} {index : BitVec 6}

theorem nextTable_self (hvalid : i.update.valid = true) :
    p.nextTable i (updateIndex i) = p.trainedEntry i := by
  rw [nextTable, hvalid, if_pos rfl, Function.update_self]

theorem nextTable_other (h : ¬ (i.update.valid = true ∧ updateIndex i = index)) :
    p.nextTable i index = p.table index := by
  unfold nextTable
  split
  · next hvalid =>
      exact Function.update_of_ne (fun heq => h ⟨hvalid, heq.symm⟩) _ _
  · rfl

/-- What an edge leaves of an entry it does not give away. -/
theorem nextTable_kept (hvalid : (p.table index).valid = true)
    (hkept : p.allocates i index = false) :
    (p.nextTable i index).valid = true ∧
      (p.nextTable i index).tag = (p.table index).tag ∧
      (p.nextTable i index).direction = (p.table index).direction ∧
      (p.nextTable i index).generation = (p.table index).generation ∧
      (p.nextTable i index).committedIter =
        if p.retiresOf i index then
          advanceIteration (p.table index).committedIter i.update.taken
            (p.table index).direction
        else (p.table index).committedIter := by
  by_cases hindex : i.update.valid = true ∧ updateIndex i = index
  · obtain ⟨hupdate, rfl⟩ := hindex
    have hmatch : p.updateMatch i = p.retiresOf i (updateIndex i) := by
      rw [updateMatch, retiresOf, hvalid, hupdate, decide_eq_true rfl,
        Bool.true_and, Bool.true_and, Bool.true_and]
      exact decide_eq_decide.mpr eq_comm
    rw [nextTable_self hupdate, trainedEntry, hmatch]
    cases hretires : p.retiresOf i (updateIndex i) with
    | true =>
        rw [if_pos rfl]
        by_cases htaken : i.update.taken =
            (p.table (updateIndex i)).direction
        · rw [htaken]
          simp [hvalid]
        · have hne : (i.update.taken ==
              (p.table (updateIndex i)).direction) = false := by
            simpa using htaken
          have hzero (n : BitVec 10) : advanceIteration n i.update.taken
              (p.table (updateIndex i)).direction = 0 := by
            rw [advanceIteration, bne, hne]
            rfl
          rw [hne, if_neg Bool.false_ne_true, hzero]
          split
          · exact ⟨hvalid, rfl, rfl, rfl, rfl⟩
          · exact ⟨hvalid, rfl, rfl, rfl, rfl⟩
    | false =>
        have hmiss : p.updateMatch i = false := hmatch.trans hretires
        have hnot : (i.update.taken && decide (i.update.target < i.update.pc) &&
            (!(p.table (updateIndex i)).valid ||
              decide ((p.table (updateIndex i)).age = 0))) = false := by
          simpa [allocates, hupdate, hmiss, and_assoc] using hkept
        simp only [Bool.false_eq_true, if_false]
        rw [hnot, if_neg Bool.false_ne_true]
        exact ⟨hvalid, rfl, rfl, rfl, rfl⟩
  · have hretires : p.retiresOf i index = false := by
      rw [retiresOf]
      by_contra hnot
      simp only [Bool.not_eq_false, Bool.and_eq_true, decide_eq_true_eq] at hnot
      exact hindex hnot.1
    rw [nextTable_other hindex, hretires]
    exact ⟨hvalid, rfl, rfl, rfl, rfl⟩

/-- A loop does not take over its own entry. -/
theorem nextTable_allocated (hallocates : p.allocates i index = true)
    (hvalid : (p.table index).valid = true) :
    (p.nextTable i index).tag ≠ (p.table index).tag := by
  simp only [allocates, Bool.and_eq_true, Bool.not_eq_true',
    decide_eq_true_eq] at hallocates
  obtain ⟨⟨⟨⟨⟨hupdate, rfl⟩, hmatch⟩, htaken⟩, hbackward⟩, hfree⟩ := hallocates
  have htag : ¬ (p.table (updateIndex i)).tag = pcTag i.update.pc := by
    rw [updateMatch, hvalid, Bool.true_and] at hmatch
    exact of_decide_eq_false hmatch
  rw [nextTable_self hupdate, trainedEntry]
  have hnew : (i.update.taken && decide (i.update.target < i.update.pc) &&
      (!(p.table (updateIndex i)).valid ||
        decide ((p.table (updateIndex i)).age = 0))) = true := by
    rw [htaken, decide_eq_true hbackward, hfree]
    rfl
  simp only [hmatch, Bool.false_eq_true, if_false, hnew, if_true]
  exact fun heq => htag heq.symm

end Table

section Runs

/-- Every branch of the loop of an entry has an action slot, since a time when
none was in flight or the entry was last given away. -/
def nextIntact (p : LoopPredictor) (i : Inputs) (flight' : List LoopBranch)
    (intact : BitVec 6 → Bool) (index : BitVec 6) : Bool :=
  let tag := (p.nextTable i index).tag
  flight'.all (fun e => !e.of index tag) ||
    (intact index && !p.allocates i index &&
      flight'.all fun e => !e.of index tag || e.loopMeta.hit)

/-- A branch of the loop of an entry in use is predicted in a lane. -/
structure Predicts (p : LoopPredictor) (intact : BitVec 6 → Bool) (i : Inputs)
    (lane : Lane) : Prop where
  flush : i.flush = false
  recover : i.recover.valid = false
  speculate : i.speculateValid lane = true
  hit : (p.queryMeta i.response0Conditional lane).hit = true
  valid : (p.table (p.response lane).index).valid = true
  tag : (p.table (p.response lane).index).tag = (p.response lane).requestedTag
  intact : intact (p.response lane).index = true

/-- The branches a lane is counted behind. -/
def same (p : LoopPredictor) (lane : Lane) (e : LoopBranch) : Bool :=
  e.of (p.response lane).index (p.response lane).requestedTag

/-- No count is taken from a copy that a retirement has overtaken: a branch of
a loop is predicted behind another one in flight, or from the count the table
still has. -/
def CountsFresh (p : LoopPredictor) (flight : List LoopBranch)
    (intact : BitVec 6 → Bool) (i : Inputs) : Prop :=
  ∀ lane, Predicts p intact i lane →
    (∃ e ∈ flight, p.same lane e = true) ∨
      (p.response lane).entry.committedIter =
        (p.table (p.response lane).index).committedIter

/-- A predicted branch is counted from the committed count and every older
branch of its loop in flight. -/
def Exact (p : LoopPredictor) (flight : List LoopBranch)
    (intact : BitVec 6 → Bool) (i : Inputs) : Prop :=
  ∀ lane, Predicts p intact i lane →
    (p.queryMeta i.response0Conditional lane).iterationBefore =
      iterations (p.same lane) (p.table (p.response lane).index).direction
        (p.table (p.response lane).index).committedIter flight

/-- The runs of the predictor inside the core, whose lanes look up one address
after the other. -/
inductive Tracked (cond : LoopPredictor → List LoopBranch →
    (BitVec 6 → Bool) → Inputs → Prop) :
    LoopPredictor → List LoopBranch → (BitVec 6 → Bool) → Prop
  | reset : Tracked cond {} [] fun _ => true
  | step {p : LoopPredictor} {flight flight' : List LoopBranch}
      {intact : BitVec 6 → Bool} (h : Tracked cond p flight intact) (i : Inputs)
      (hedge : Edge p i flight flight')
      (hpair : i.queryPc 1 = i.queryPc 0 + 4)
      (hcond : cond p flight intact i) :
      Tracked cond (p.step i) flight' (p.nextIntact i flight' intact)

/-- No count is overtaken, and no slot taken that a branch in flight still
claims. -/
def Sound (p : LoopPredictor) (flight : List LoopBranch)
    (intact : BitVec 6 → Bool) (i : Inputs) : Prop :=
  CountsFresh p flight intact i ∧ SparesClaims p flight i

variable {p : LoopPredictor} {i : Inputs} {intact : BitVec 6 → Bool}
  {flight flight' remaining dispatched before after : List LoopBranch}
  {index : BitVec 6} {e : LoopBranch} {lane : Lane}

theorem Tracked.mono {cond cond' : LoopPredictor → List LoopBranch →
      (BitVec 6 → Bool) → Inputs → Prop}
    (hmono : ∀ p flight intact i, cond p flight intact i →
      cond' p flight intact i)
    (h : Tracked cond p flight intact) : Tracked cond' p flight intact := by
  induction h with
  | reset => exact Tracked.reset
  | step _ i hedge hpair hcond ih =>
      exact ih.step i hedge hpair (hmono _ _ _ i hcond)

/-- The copy a lane has is overtaken exactly by a retirement on the edge of its
lookup that changes the count. -/
theorem overtaken_iff :
    ((p.step i).response lane).entry.committedIter ≠
        ((p.step i).table ((p.step i).response lane).index).committedIter ↔
      i.update.valid = true ∧ updateIndex i = pcIndex (i.queryPc lane) ∧
        (p.trainedEntry i).committedIter ≠
          (p.table (updateIndex i)).committedIter := by
  change (p.table (pcIndex (i.queryPc lane))).committedIter ≠
    (p.nextTable i (pcIndex (i.queryPc lane))).committedIter ↔ _
  by_cases hindex : i.update.valid = true ∧
      updateIndex i = pcIndex (i.queryPc lane)
  · rw [← hindex.2, nextTable_self hindex.1]
    exact ⟨fun hne => ⟨hindex.1, rfl, hne.symm⟩, fun hall => hall.2.2.symm⟩
  · rw [nextTable_other hindex]
    exact ⟨fun hne => absurd rfl hne,
      fun hall => absurd ⟨hall.1, hall.2.1⟩ hindex⟩

/-- What a lane's copy shares with the entry it was read from. -/
structure Looked (p : LoopPredictor) : Prop where
  copy : ∀ lane, p.responseHit lane = true →
    (p.table (p.response lane).index).valid = true →
    (p.table (p.response lane).index).tag = (p.response lane).requestedTag →
    (p.response lane).entry.generation =
        (p.table (p.response lane).index).generation ∧
      (p.response lane).entry.direction =
        (p.table (p.response lane).index).direction
  apart : p.responseHit 0 = true → p.responseHit 1 = true →
    (p.response 0).index ≠ (p.response 1).index

theorem Looked.reset : Looked {} where
  copy := fun _ hhit => absurd hhit Bool.false_ne_true
  apart := fun hhit => absurd hhit Bool.false_ne_true

theorem Looked.step (hpair : i.queryPc 1 = i.queryPc 0 + 4) :
    Looked (p.step i) where
  copy := by
    intro lane hhit hvalid htag
    rw [responseHit, Bool.and_eq_true, decide_eq_true_eq] at hhit
    change (p.table (pcIndex (i.queryPc lane))).valid = true ∧
      (p.table (pcIndex (i.queryPc lane))).tag = pcTag (i.queryPc lane) at hhit
    change (p.nextTable i (pcIndex (i.queryPc lane))).tag =
      pcTag (i.queryPc lane) at htag
    have hkept : p.allocates i (pcIndex (i.queryPc lane)) = false := by
      by_contra hallocates
      rw [Bool.not_eq_false] at hallocates
      exact nextTable_allocated hallocates hhit.1 (htag.trans hhit.2.symm)
    obtain ⟨_, _, hdirection, hgeneration, _⟩ := nextTable_kept hhit.1 hkept
    exact ⟨hgeneration.symm, hdirection.symm⟩
  apart := by
    intro _ _ heq
    change pcIndex (i.queryPc 0) = pcIndex (i.queryPc 1) at heq
    have hmod := congrArg BitVec.toNat heq
    have hfour : (4 : Word).toNat = 4 := rfl
    simp only [hpair, pcIndex, BitVec.extractLsb'_toNat, BitVec.toNat_add,
      hfour, Nat.shiftRight_eq_div_pow] at hmod
    omega

/-- Every branch in flight of a loop whose branches all have action slots is
logged under its entry and counted. -/
structure Counts (p : LoopPredictor) (flight : List LoopBranch)
    (intact : BitVec 6 → Bool) : Prop where
  named : ∀ e ∈ flight, e.loopMeta.tableIndex = e.index ∧
    (e.loopMeta.hit = true → e.loopMeta.tag = e.requestedTag)
  logged : ∀ index, (p.table index).valid = true → intact index = true →
    ∀ e ∈ flight, e.of index (p.table index).tag = true →
      e.logged = true ∧ e.loopMeta.hit = true ∧
        e.loopMeta.generation = (p.table index).generation
  counted : ∀ index, (p.table index).valid = true → intact index = true →
    Counted (fun e => e.of index (p.table index).tag)
      (p.table index).direction (p.table index).committedIter flight

theorem of_iff {index : BitVec 6} {tag : BitVec 12} : e.of index tag = true ↔
    e.conditional = true ∧ e.index = index ∧ e.requestedTag = tag := by
  simp only [LoopBranch.of, Bool.and_eq_true, decide_eq_true_eq, and_assoc]

theorem Predicts.responseHit (h : Predicts p intact i lane) :
    p.responseHit lane = true :=
  (Bool.and_eq_true_iff.mp h.hit).1

/-- What a lane finds in the log of a logged branch. -/
theorem Counts.matches_eq (h : Counts p flight intact)
    (hlog : Log p.action p.actionTail flight) (hlooked : Looked p)
    (hpredicts : Predicts p intact i lane) (he : e ∈ flight)
    (hlogged : e.logged = true) : p.actionMatches lane e.slot = p.same lane e := by
  have hclaims := Bool.and_eq_true_iff.mp (hlog.claims e he hlogged)
  obtain ⟨hindex, htag⟩ := h.named e he
  have hhit := hpredicts.responseHit
  have hentry : (p.response lane).entry.tag = (p.response lane).requestedTag := by
    rw [LoopPredictor.responseHit, Bool.and_eq_true, decide_eq_true_eq] at hhit
    exact hhit.2
  have hgeneration := (hlooked.copy lane hhit hpredicts.valid hpredicts.tag).1
  rw [actionMatches, hlog.held e he hlogged, hentry, hgeneration]
  change (true && decide (e.loopMeta.tableIndex = _) &&
    decide (e.loopMeta.tag = _) && decide (e.loopMeta.generation = _)) = _
  rw [hindex, htag hclaims.2, Bool.true_and]
  cases hsame : p.same lane e with
  | true =>
      have hparts := of_iff.mp hsame
      have hof : e.of (p.response lane).index
          (p.table (p.response lane).index).tag = true := by
        rw [hpredicts.tag]
        exact hsame
      have hcurrent := (h.logged _ hpredicts.valid hpredicts.intact e he hof).2.2
      rw [hparts.2.1, hparts.2.2, hcurrent]
      simp only [decide_true, Bool.and_self]
  | false =>
      rw [same, LoopBranch.of, hclaims.1, Bool.true_and] at hsame
      rw [hsame, Bool.false_and]

/-- A lane counts from the youngest branch of its loop in flight, or from its
copy of the committed count. -/
theorem Counts.speculativeIter (h : Counts p flight intact)
    (hlog : Log p.action p.actionTail flight) (hlooked : Looked p)
    (hpredicts : Predicts p intact i lane) :
    ((∃ e ∈ flight, p.same lane e = true) →
      p.speculativeIter lane =
        iterations (p.same lane) (p.table (p.response lane).index).direction
          (p.table (p.response lane).index).committedIter flight) ∧
    ((∀ e ∈ flight, p.same lane e = false) →
      p.speculativeIter lane = (p.response lane).entry.committedIter) := by
  have hsame : p.same lane = fun e => e.of (p.response lane).index
      (p.table (p.response lane).index).tag := by
    rw [hpredicts.tag]
    rfl
  have hyoungest := (h.counted _ hpredicts.valid hpredicts.intact).youngest
    fun e he hof => (h.logged _ hpredicts.valid hpredicts.intact e he hof).1
  rw [← hsame] at hyoungest
  have hvalid (slot : BitVec 5) (hmatch : p.actionMatches lane slot = true) :
      (p.action slot).valid = true := by
    simp only [actionMatches, Bool.and_eq_true] at hmatch
    exact hmatch.1.1.1
  have hfind : ((List.range 32).map fun k => p.behind (k + 1)).find?
        (p.actionMatches lane) =
      ((flight.filter LoopBranch.logged).reverse.find? (p.same lane)).map
        LoopBranch.slot := by
    rw [hlog.scan hvalid, List.find?_map]
    refine congrArg (Option.map LoopBranch.slot) (List.find?_congr ?_)
    intro e he
    obtain ⟨he, hown⟩ := List.mem_filter.mp (List.mem_reverse.mp he)
    exact h.matches_eq hlog hlooked hpredicts he hown
  rw [LoopPredictor.speculativeIter, hfind]
  cases hfound : (flight.filter LoopBranch.logged).reverse.find?
      (p.same lane) with
  | some e =>
      rw [hfound] at hyoungest
      obtain ⟨he, hown⟩ := List.mem_filter.mp
        (List.mem_reverse.mp (List.mem_of_find?_eq_some hfound))
      have hmatch := List.find?_some hfound
      constructor
      · intro _
        change (p.action e.slot).nextIter = _
        rw [hlog.held e he hown]
        exact hyoungest
      · exact fun hnone => absurd ((hnone e he).symm.trans hmatch)
          Bool.false_ne_true
  | none =>
      rw [hfound] at hyoungest
      constructor
      · rintro ⟨e, he, hmatch⟩
        rw [hsame] at hmatch
        exact absurd ((hyoungest e he).symm.trans hmatch) Bool.false_ne_true
      · exact fun _ => rfl

/-- A fresh prediction is exact, and only a fresh one. -/
theorem Counts.exact_iff (h : Counts p flight intact)
    (hlog : Log p.action p.actionTail flight) (hlooked : Looked p) (i : Inputs) :
    Exact p flight intact i ↔ CountsFresh p flight intact i := by
  refine forall_congr' fun lane => forall_congr' fun hpredicts => ?_
  obtain ⟨hsome, hnone⟩ := h.speculativeIter hlog hlooked hpredicts
  change p.speculativeIter lane = _ ↔ _
  by_cases hflight : ∃ e ∈ flight, p.same lane e = true
  · exact ⟨fun _ => Or.inl hflight, fun _ => hsome hflight⟩
  · have hother : ∀ e ∈ flight, p.same lane e = false := by
      intro e he
      by_contra hsame
      exact hflight ⟨e, he, by simpa using hsame⟩
    rw [hnone hother, iterations_none hother]
    exact ⟨Or.inr, fun hfresh => hfresh.resolve_left hflight⟩

/-- An entry in use that was not given away was in use before. -/
theorem valid_of_nextTable (hvalid : (p.nextTable i index).valid = true)
    (hkept : p.allocates i index = false) : (p.table index).valid = true := by
  by_cases hindex : i.update.valid = true ∧ updateIndex i = index
  · obtain ⟨hupdate, rfl⟩ := hindex
    by_contra hnot
    rw [Bool.not_eq_true] at hnot
    have hmiss : p.updateMatch i = false := by
      rw [updateMatch, hnot, Bool.false_and]
    have hidle : (i.update.taken && decide (i.update.target < i.update.pc) &&
        (!(p.table (updateIndex i)).valid ||
          decide ((p.table (updateIndex i)).age = 0))) = false := by
      simpa [allocates, hupdate, hmiss, and_assoc] using hkept
    rw [nextTable_self hupdate, trainedEntry, hmiss] at hvalid
    simp only [Bool.false_eq_true, if_false] at hvalid
    rw [hidle, if_neg Bool.false_ne_true] at hvalid
    exact absurd (hnot.symm.trans hvalid) Bool.false_ne_true
  · rwa [nextTable_other hindex] at hvalid

/-- The committed count takes over a retired branch of its loop, and only
that. -/
theorem counted_retire {direction : Bool} {count : BitVec 10}
    (hretire : Retires i flight remaining)
    (hcounted : Counted (fun e => e.of index (p.table index).tag) direction
      count flight) :
    let next := if p.retiresOf i index then
        advanceIteration count i.update.taken direction
      else count
    Counted (fun e => e.of index (p.table index).tag) direction next remaining ∧
      iterations (fun e => e.of index (p.table index).tag) direction next
          remaining =
        iterations (fun e => e.of index (p.table index).tag) direction count
          flight := by
  cases hretire with
  | @conditional e rest hvalid hconditional _ hindex htag htaken =>
      have hof : p.retiresOf i index = e.of index (p.table index).tag := by
        rw [retiresOf, LoopBranch.of, hvalid, hconditional, ← hindex, ← htag]
        rfl
      rw [hof, htaken]
      exact ⟨hcounted.2, rfl⟩
  | @other e rest hvalid hconditional =>
      have hof : e.of index (p.table index).tag = false := by
        rw [LoopBranch.of, hconditional, Bool.false_and, Bool.false_and]
      have hidle : p.retiresOf i index = false := by
        rw [retiresOf, hvalid, Bool.false_and, Bool.false_and]
      have hrest := hcounted.2
      simp only [hof, Bool.false_eq_true, if_false] at hrest
      rw [hidle]
      refine ⟨hrest, ?_⟩
      change _ = iterations _ _ (if e.of index (p.table index).tag then _
        else _) _
      rw [hof]
      rfl
  | none hvalid =>
      have hidle : p.retiresOf i index = false := by
        rw [retiresOf, hvalid, Bool.false_and, Bool.false_and]
      rw [hidle]
      exact ⟨hcounted, rfl⟩

theorem enteringBranch_named (p : LoopPredictor) (i : Inputs) (lane : Lane) :
    (p.enteringBranch i lane).loopMeta.tableIndex =
        (p.enteringBranch i lane).index ∧
      ((p.enteringBranch i lane).loopMeta.hit = true →
        (p.enteringBranch i lane).loopMeta.tag =
          (p.enteringBranch i lane).requestedTag) := by
  refine ⟨rfl, fun hhit => ?_⟩
  have hresponse : p.responseHit lane = true := (Bool.and_eq_true_iff.mp hhit).1
  rw [LoopPredictor.responseHit, Bool.and_eq_true, decide_eq_true_eq]
    at hresponse
  exact hresponse.2

/-- A branch that leaves the predictor for a loop in use is predicted in its
lane. -/
theorem predicts_of_entering (hflush : i.flush = false)
    (hrecover : i.recover.valid = false)
    (hof : (p.enteringBranch i lane).of index (p.table index).tag = true)
    (hhit : (p.enteringBranch i lane).loopMeta.hit = true)
    (hvalid : (p.table index).valid = true) (hintact : intact index = true) :
    Predicts p intact i lane ∧ (p.response lane).index = index := by
  obtain ⟨hconditional, hindex, htag⟩ := of_iff.mp hof
  have hlane : (p.response lane).index = index := hindex
  refine ⟨⟨hflush, hrecover, hconditional, hhit, ?_, ?_, ?_⟩, hlane⟩
  · rw [hlane]
    exact hvalid
  · rw [hlane]
    exact htag.symm
  · rw [hlane]
    exact hintact

theorem mem_entering {entered : Lane → Bool}
    (he : e ∈ p.entering i entered) : ∃ lane, e = p.enteringBranch i lane := by
  rcases List.mem_append.mp he with he | he
  · split at he
    · exact ⟨0, List.mem_singleton.mp he⟩
    · exact absurd he List.not_mem_nil
  · split at he
    · exact ⟨1, List.mem_singleton.mp he⟩
    · exact absurd he List.not_mem_nil

/-- Dispatch changes no count. -/
theorem counted_dispatched {tag : BitVec 12} {direction : Bool}
    {count : BitVec 10}
    (hdispatch : List.Forall₂ (Dispatches i) remaining dispatched)
    (hcounted : Counted (fun e => e.of index tag) direction count remaining) :
    Counted (fun e => e.of index tag) direction count dispatched := by
  have hsame : ∀ e, (untagged e).of index tag = e.of index tag := fun _ => rfl
  rw [← counted_untagged hsame, dispatches_untagged hdispatch,
    counted_untagged hsame]
  exact hcounted

theorem iterations_dispatched
    (hdispatch : List.Forall₂ (Dispatches i) remaining dispatched)
    (index : BitVec 6) (tag : BitVec 12) (direction : Bool)
    (count : BitVec 10) :
    iterations (fun e => e.of index tag) direction count dispatched =
      iterations (fun e => e.of index tag) direction count remaining := by
  have hsame : ∀ e, (untagged e).of index tag = e.of index tag := fun _ => rfl
  rw [← iterations_untagged hsame, dispatches_untagged hdispatch,
    iterations_untagged hsame]

/-- The branches of a consumed response are counted behind those in flight. -/
theorem Counts.counted_entering (h : Counts p flight intact)
    (hlog : Log p.action p.actionTail flight) (hlooked : Looked p)
    (hfresh : CountsFresh p flight intact i) (hflush : i.flush = false)
    (hrecover : i.recover.valid = false)
    (hvalid : (p.table index).valid = true) (hintact : intact index = true)
    {entered : Lane → Bool} (hhit : ∀ e ∈ p.entering i entered,
      e.of index (p.table index).tag = true → e.loopMeta.hit = true) :
    Counted (fun e => e.of index (p.table index).tag)
      (p.table index).direction
      (iterations (fun e => e.of index (p.table index).tag)
        (p.table index).direction (p.table index).committedIter flight)
      (p.entering i entered) := by
  -- What one lane adds.
  have hlane (lane : Lane)
      (hof : (p.enteringBranch i lane).of index (p.table index).tag = true)
      (hlanehit : (p.enteringBranch i lane).loopMeta.hit = true) :
      (p.enteringBranch i lane).loopMeta.iterationBefore =
          iterations (fun e => e.of index (p.table index).tag)
            (p.table index).direction (p.table index).committedIter flight ∧
        (p.enteringBranch i lane).nextIter =
          advanceIteration (iterations
            (fun e => e.of index (p.table index).tag)
            (p.table index).direction (p.table index).committedIter flight)
            (p.enteringBranch i lane).taken (p.table index).direction := by
    obtain ⟨hpredicts, rfl⟩ := predicts_of_entering hflush hrecover hof hlanehit
      hvalid hintact
    have hexact := (h.exact_iff hlog hlooked i).mpr hfresh lane hpredicts
    have hsame : p.same lane = fun e => e.of (p.response lane).index
        (p.table (p.response lane).index).tag := by
      rw [hpredicts.tag]
      rfl
    rw [hsame] at hexact
    have hdirection := (hlooked.copy lane hpredicts.responseHit hpredicts.valid
      hpredicts.tag).2
    refine ⟨hexact, ?_⟩
    change advanceIteration (p.speculativeIter lane) (i.speculateTaken lane)
      (p.response lane).entry.direction = _
    rw [hdirection]
    exact congrArg (fun n => advanceIteration n (i.speculateTaken lane) _) hexact
  rw [entering] at hhit ⊢
  refine (counted_append _ _ _).mpr ⟨?_, ?_⟩
  · cases hentered : entered 0 with
    | false => exact trivial
    | true =>
        refine ⟨fun hof => hlane 0 hof (hhit _ ?_ hof), trivial⟩
        rw [hentered]
        exact List.mem_append_left _ List.mem_cons_self
  · cases hentered : entered 1 with
    | false => exact trivial
    | true =>
        rw [hentered] at hhit
        have hmem1 : p.enteringBranch i 1 ∈
            (if entered 0 then [p.enteringBranch i 0] else []) ++
              if true then [p.enteringBranch i 1] else [] :=
          List.mem_append_right _ List.mem_cons_self
        refine ⟨fun hof => ?_, trivial⟩
        have hhit1 := hhit _ hmem1 hof
        -- The lanes look different entries up.
        have hother : iterations (fun e => e.of index (p.table index).tag)
            (p.table index).direction (iterations
              (fun e => e.of index (p.table index).tag)
              (p.table index).direction (p.table index).committedIter flight)
            (if entered 0 then [p.enteringBranch i 0] else []) =
            iterations (fun e => e.of index (p.table index).tag)
              (p.table index).direction (p.table index).committedIter
              flight := by
          refine iterations_none fun e he => ?_
          by_contra hof0
          rw [Bool.not_eq_false] at hof0
          have hhit0 := hhit e (List.mem_append_left _ he) hof0
          split at he
          · obtain rfl := List.mem_singleton.mp he
            obtain ⟨hpredicts0, hindex0⟩ := predicts_of_entering hflush hrecover
              hof0 hhit0 hvalid hintact
            obtain ⟨hpredicts1, hindex1⟩ := predicts_of_entering hflush hrecover
              hof hhit1 hvalid hintact
            exact hlooked.apart hpredicts0.responseHit hpredicts1.responseHit
              (hindex0.trans hindex1.symm)
          · exact absurd he List.not_mem_nil
        rw [hother]
        exact hlane 1 hof hhit1

/-- A recovering branch of a loop in use keeps its slot. -/
theorem Counts.recoversAction (h : Counts p flight intact)
    (hmeta : p.recoveryMeta i = e.loopMeta)
    (hconditional : i.recover.isConditional = e.conditional) (he : e ∈ flight)
    (hvalid : (p.table index).valid = true) (hintact : intact index = true)
    (hof : e.of index (p.table index).tag = true) :
    p.recoversAction i = true := by
  obtain ⟨hbranch, hindex, htag⟩ := of_iff.mp hof
  obtain ⟨_, hhit, hgeneration⟩ := h.logged index hvalid hintact e he hof
  obtain ⟨htable, hown⟩ := h.named e he
  rw [LoopPredictor.recoversAction, hmeta, hconditional, hbranch, hhit, htable,
    hindex, hvalid, hown hhit, htag, hgeneration]
  simp only [decide_true, Bool.and_self]

/-- The branches in flight of one loop after an edge that keeps its entry. -/
structure LoopCounts (p : LoopPredictor) (index : BitVec 6)
    (flight : List LoopBranch) : Prop where
  logged : ∀ e ∈ flight, e.of index (p.table index).tag = true →
    e.logged = true ∧ e.loopMeta.hit = true ∧
      e.loopMeta.generation = (p.table index).generation
  counted : Counted (fun e => e.of index (p.table index).tag)
    (p.table index).direction (p.table index).committedIter flight

/-- The entry keeps its key and takes over the branch that retires. -/
theorem LoopCounts.of_kept (hvalid : (p.table index).valid = true)
    (hkept : p.allocates i index = false)
    (hlogged : ∀ e ∈ flight', e.of index (p.table index).tag = true →
      e.logged = true ∧ e.loopMeta.hit = true ∧
        e.loopMeta.generation = (p.table index).generation)
    (hcounted : Counted (fun e => e.of index (p.table index).tag)
      (p.table index).direction
      (if p.retiresOf i index then
        advanceIteration (p.table index).committedIter i.update.taken
          (p.table index).direction
      else (p.table index).committedIter) flight') :
    LoopCounts (p.step i) index flight' := by
  obtain ⟨_, htag, hdirection, hgeneration, hcount⟩ :=
    nextTable_kept hvalid hkept
  change ((p.step i).table index).tag = _ at htag
  change ((p.step i).table index).direction = _ at hdirection
  change ((p.step i).table index).generation = _ at hgeneration
  change ((p.step i).table index).committedIter = _ at hcount
  constructor
  · rw [htag, hgeneration]
    exact hlogged
  · rw [htag, hdirection, hcount]
    exact hcounted

section LoopEdge

variable (h : Counts p flight intact) (hvalid : (p.table index).valid = true)
  (hintact : intact index = true) (hkept : p.allocates i index = false)

include h hvalid hintact hkept

/-- A misprediction keeps the branches up to its own, which is counted again
from its copy. -/
theorem Counts.loop_recover (hsaved : Saved p flight)
    {before after : List LoopBranch}
    (hretire : Retires i flight (before ++ e :: after))
    (hrobTag : e.tag = some i.recover.robTag)
    (hconditional : i.recover.isConditional = e.conditional) :
    LoopCounts (p.step i) index (before ++ [p.recovered i e]) := by
  have hold := h.logged index hvalid hintact
  have he : e ∈ flight := hretire.sublist.subset
    (List.mem_append_right _ List.mem_cons_self)
  have hmeta := recoveryMeta_eq hsaved he hrobTag
  obtain ⟨hbefore, hown, _⟩ := (counted_append _ _ _).mp
    (counted_retire hretire (h.counted index hvalid hintact)).1
  apply LoopCounts.of_kept hvalid hkept
  · intro e' he' hof
    rcases List.mem_append.mp he' with he' | he'
    · exact hold e' (hretire.sublist.subset (List.mem_append_left _ he')) hof
    · obtain rfl := List.mem_singleton.mp he'
      exact ⟨h.recoversAction hmeta hconditional he hvalid hintact hof,
        (hold e he hof).2⟩
  · refine (counted_append _ _ _).mpr ⟨hbefore, fun hof => ?_, trivial⟩
    have hindex : e.loopMeta.tableIndex = index :=
      (h.named e he).1.trans (of_iff.mp hof).2.1
    refine ⟨(hown hof).1, ?_⟩
    change advanceIteration e.loopMeta.iterationBefore i.recover.taken
      (p.table e.loopMeta.tableIndex).direction = _
    rw [hindex, (hown hof).1]
    rfl

/-- An ordinary edge appends the branches of the consumed response. -/
theorem Counts.loop_advance (hlog : Log p.action p.actionTail flight)
    (hlooked : Looked p) (hfresh : CountsFresh p flight intact i)
    (hflush : i.flush = false) (hrecover : i.recover.valid = false)
    (hretire : Retires i flight remaining)
    (hdispatch : List.Forall₂ (Dispatches i) remaining dispatched)
    {entered : Lane → Bool}
    (hhit : ∀ e ∈ dispatched ++ p.entering i entered,
      e.of index (p.table index).tag = true → e.loopMeta.hit = true) :
    LoopCounts (p.step i) index (dispatched ++ p.entering i entered) := by
  obtain ⟨hremaining, hsame⟩ :=
    counted_retire hretire (h.counted index hvalid hintact)
  apply LoopCounts.of_kept hvalid hkept
  · intro e he hof
    rcases List.mem_append.mp he with he' | he'
    · obtain ⟨e', hmem, tag, rfl⟩ := mem_dispatched hdispatch he'
      exact h.logged index hvalid hintact e' (hretire.sublist.subset hmem) hof
    · obtain ⟨lane, rfl⟩ := mem_entering he'
      have hlanehit := hhit _ he hof
      obtain ⟨hpredicts, rfl⟩ := predicts_of_entering hflush hrecover hof
        hlanehit hvalid hintact
      have hgen := (hlooked.copy lane hpredicts.responseHit hpredicts.valid
        hpredicts.tag).1
      have hclaims : (p.enteringBranch i lane).claims = true :=
        Bool.and_eq_true_iff.mpr ⟨(of_iff.mp hof).1, hlanehit⟩
      exact ⟨(enteringBranch_claims p i lane).symm.trans hclaims, hlanehit,
        hgen⟩
  · refine (counted_append _ _ _).mpr
      ⟨counted_dispatched hdispatch hremaining, ?_⟩
    rw [iterations_dispatched hdispatch, hsame]
    exact h.counted_entering hlog hlooked hfresh hflush hrecover hvalid
      hintact fun e he => hhit e (List.mem_append_right _ he)

end LoopEdge

theorem Counts.loop_edge (h : Counts p flight intact)
    (hlog : Log p.action p.actionTail flight) (hsaved : Saved p flight)
    (hlooked : Looked p) (hfresh : CountsFresh p flight intact i)
    (hedge : Edge p i flight flight')
    (hvalid : (p.table index).valid = true) (hintact : intact index = true)
    (hkept : p.allocates i index = false)
    (hhit : ∀ e ∈ flight', e.of index (p.table index).tag = true →
      e.loopMeta.hit = true) : LoopCounts (p.step i) index flight' := by
  cases hedge with
  | flush =>
      exact LoopCounts.of_kept hvalid hkept
        (fun e he => absurd he List.not_mem_nil) trivial
  | recover _ _ hretire hrobTag hconditional =>
      exact h.loop_recover hvalid hintact hkept hsaved hretire hrobTag
        hconditional
  | advance hflush hrecover hretire hdispatch =>
      exact h.loop_advance hvalid hintact hkept hlog hlooked hfresh hflush
        hrecover hretire hdispatch hhit

theorem Counts.named_edge (h : Counts p flight intact)
    (hedge : Edge p i flight flight') : ∀ e ∈ flight',
    e.loopMeta.tableIndex = e.index ∧
      (e.loopMeta.hit = true → e.loopMeta.tag = e.requestedTag) := by
  intro e' he'
  cases hedge with
  | flush => exact absurd he' List.not_mem_nil
  | @recover before after e _ _ hretire =>
      rcases List.mem_append.mp he' with he' | he'
      · exact h.named e' (hretire.sublist.subset (List.mem_append_left _ he'))
      · obtain rfl := List.mem_singleton.mp he'
        exact h.named e (hretire.sublist.subset
          (List.mem_append_right _ List.mem_cons_self))
  | advance _ _ hretire hdispatch =>
      rcases List.mem_append.mp he' with he' | he'
      · obtain ⟨e, hmem, tag, rfl⟩ := mem_dispatched hdispatch he'
        exact h.named e (hretire.sublist.subset hmem)
      · obtain ⟨lane, rfl⟩ := mem_entering he'
        exact enteringBranch_named p i lane

theorem Counts.edge (h : Counts p flight intact)
    (hlog : Log p.action p.actionTail flight) (hsaved : Saved p flight)
    (hlooked : Looked p) (hfresh : CountsFresh p flight intact i)
    (hedge : Edge p i flight flight') :
    Counts (p.step i) flight' (p.nextIntact i flight' intact) := by
  have hloop (index : BitVec 6)
      (hvalid : ((p.step i).table index).valid = true)
      (hintact : p.nextIntact i flight' intact index = true) :
      LoopCounts (p.step i) index flight' := by
    rcases Bool.or_eq_true_iff.mp hintact with hnone | hsome
    · have hother : ∀ e ∈ flight',
          e.of index ((p.step i).table index).tag = false := by
        intro e he
        have hnot : e.of index (p.nextTable i index).tag = false := by
          simpa using List.all_eq_true.mp hnone e he
        exact hnot
      exact ⟨fun e he hof => absurd ((hother e he).symm.trans hof)
        Bool.false_ne_true, counted_none hother⟩
    · simp only [Bool.and_eq_true, Bool.not_eq_true'] at hsome
      obtain ⟨⟨hintact, hkept⟩, hhits⟩ := hsome
      have hbefore := valid_of_nextTable hvalid hkept
      have htag := (nextTable_kept hbefore hkept).2.1
      refine h.loop_edge hlog hsaved hlooked hfresh hedge hbefore hintact hkept ?_
      intro e he hof
      have hhit := List.all_eq_true.mp hhits e he
      rw [htag, hof] at hhit
      simpa using hhit
  exact ⟨h.named_edge hedge, fun index hvalid hintact =>
    (hloop index hvalid hintact).logged, fun index hvalid hintact =>
    (hloop index hvalid hintact).counted⟩

theorem Counts.reset : Counts {} [] fun _ => true where
  named := fun _ he => absurd he List.not_mem_nil
  logged := fun _ hvalid => absurd hvalid Bool.false_ne_true
  counted := fun _ hvalid => absurd hvalid Bool.false_ne_true

namespace Overtaken

open Replaced

-- The first branch of the loop retires taken and allocates.
def s1 : LoopPredictor := step {} (look loopA)
def first : LoopBranch := s1.enteringBranch (predict (look loopA)) 0
def s2 : LoopPredictor := s1.step (predict (look loopA))
def i2 : Inputs := retire first loopA (look loopA)
def s3 : LoopPredictor := s2.step i2
-- The second is predicted from the count of one.
def s4 : LoopPredictor := s3.step (look loopA)
def second : LoopBranch := s4.enteringBranch (predict (look loopA)) 0
def s5 : LoopPredictor := s4.step (predict (look loopA))
def intact2 : BitVec 6 → Bool :=
  nextIntact {} (look loopA) [] fun _ => true
def intact3 : BitVec 6 → Bool := s1.nextIntact (predict (look loopA)) [first] intact2
def intact4 : BitVec 6 → Bool := s2.nextIntact i2 [] intact3
def intact5 : BitVec 6 → Bool := s3.nextIntact (look loopA) [] intact4
def intact6 : BitVec 6 → Bool := s4.nextIntact (predict (look loopA)) [second] intact5

theorem fresh_idle (h : ∀ lane, i.speculateValid lane = false) :
    CountsFresh p flight intact i :=
  fun lane hpredicts => absurd ((h lane).symm.trans hpredicts.speculate)
    Bool.false_ne_true

theorem fresh_first (hspeculate : i.speculateValid = fun lane => decide (lane = 0))
    (h : (p.queryMeta i.response0Conditional 0).hit = true →
      (∃ e ∈ flight, p.same 0 e = true) ∨
        (p.response 0).entry.committedIter =
          (p.table (p.response 0).index).committedIter) :
    CountsFresh p flight intact i := by
  intro lane hpredicts
  have hlane := hpredicts.speculate
  rw [hspeculate] at hlane
  obtain rfl : lane = 0 := of_decide_eq_true hlane
  exact h hpredicts.hit

theorem run_second : Tracked Sound s5 [second] intact6 := by
  have h1 : Tracked Sound s1 [] intact2 := Tracked.reset.step (look loopA)
    (edge_idle (Retires.none rfl) rfl rfl List.Forall₂.nil rfl rfl (by decide))
    rfl ⟨fresh_idle fun _ => rfl, by decide +kernel⟩
  have h2 : Tracked Sound s2 [first] intact3 := h1.step (predict (look loopA))
    (edge_predict (Retires.none rfl) rfl rfl (fun _ => rfl) rfl rfl (by decide))
    rfl ⟨fresh_first rfl (by decide +kernel), by decide +kernel⟩
  have h3 : Tracked Sound s3 [] intact4 := h2.step i2
    (edge_idle (Retires.conditional rfl rfl rfl (by decide) (by decide) rfl)
      rfl rfl List.Forall₂.nil rfl rfl (by decide))
    rfl ⟨fresh_idle fun _ => rfl, by decide +kernel⟩
  have h4 : Tracked Sound s4 [] intact5 := h3.step (look loopA)
    (edge_idle (Retires.none rfl) rfl rfl List.Forall₂.nil rfl rfl (by decide))
    rfl ⟨fresh_idle fun _ => rfl, by decide +kernel⟩
  exact h4.step (predict (look loopA))
    (edge_predict (Retires.none rfl) rfl rfl (fun _ => rfl) rfl rfl (by decide))
    rfl ⟨fresh_first rfl (by decide +kernel), by decide +kernel⟩

end Overtaken

end Runs

end LoopPredictor

end OoOCore
