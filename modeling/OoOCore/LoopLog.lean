/-
Ownership of the action log of the loop predictor.  A branch logs its iteration
in the slot its metadata names, a recovery cuts the log back to the slot of the
recovering branch, and retirement clears the slot of the retired one.
-/
import OoOCore.LoopPredictor
import Mathlib.Data.List.Nodup

namespace OoOCore

/-- A branch between its prediction and its retirement.  `taken` is its
prediction until it resolves otherwise; `logged` says that it holds the slot its
metadata names. -/
structure LoopBranch where
  index : BitVec 6
  requestedTag : BitVec 12
  conditional : Bool
  loopMeta : LoopMeta
  taken : Bool
  logged : Bool
  nextIter : BitVec 10
  tag : Option RobTag := none

namespace LoopBranch

variable (e : LoopBranch)

/-- The slot its metadata names. -/
def slot : BitVec 5 := e.loopMeta.checkpointTail

/-- Retirement will clear that slot. -/
def claims : Bool := e.conditional && e.loopMeta.hit

/-- What it has in the log. -/
def action : LoopAction where
  valid := true
  index := e.loopMeta.tableIndex
  tag := e.loopMeta.tag
  generation := e.loopMeta.generation
  nextIter := e.nextIter

end LoopBranch

namespace LoopPredictor

/-- The branches the core holds before retirement: two in the fetch stage,
those in the fetch queue and those in the reorder buffer. -/
def flightLimit : Nat := 2 + 8 + 16

section Edges

variable (p : LoopPredictor) (i : Inputs)

/-- What retirement leaves of the branches in flight, oldest first.  A
conditional branch trains the predictor with its own metadata and outcome. -/
inductive Retires (i : Inputs) : List LoopBranch → List LoopBranch → Prop
  | conditional {e : LoopBranch} {rest : List LoopBranch}
      (hvalid : i.update.valid = true) (hconditional : e.conditional = true)
      (hmeta : i.update.loopMeta = e.loopMeta)
      (hindex : pcIndex i.update.pc = e.index)
      (htag : pcTag i.update.pc = e.requestedTag)
      (htaken : i.update.taken = e.taken) : Retires i (e :: rest) rest
  | other {e : LoopBranch} {rest : List LoopBranch}
      (hvalid : i.update.valid = false) (hconditional : e.conditional = false) :
      Retires i (e :: rest) rest
  | none {flight : List LoopBranch} (hvalid : i.update.valid = false) :
      Retires i flight flight

/-- Dispatch leaves a branch, or saves its metadata under its tag.  A tag is
not given away while its branch is in flight. -/
def Dispatches (e e' : LoopBranch) : Prop :=
  (e' = e ∧ ∀ lane tag, e.tag = some tag →
    (i.checkpointAlloc lane).valid = true →
    (i.checkpointAlloc lane).tag ≠ tag) ∨
  ∃ lane, (i.checkpointAlloc lane).valid = true ∧
    (i.checkpointAlloc lane).loopMeta = e.loopMeta ∧ e.tag = Option.none ∧
    e' = { e with tag := some (i.checkpointAlloc lane).tag }

/-- A branch of the consumed response. -/
def enteringBranch (lane : Lane) : LoopBranch where
  index := (p.response lane).index
  requestedTag := (p.response lane).requestedTag
  conditional := i.speculateValid lane
  loopMeta := p.queryMeta i.response0Conditional lane
  taken := i.speculateTaken lane
  logged := p.allocateAction i lane
  nextIter := (p.loggedAction i lane).nextIter

/-- The branches of the consumed response. -/
def entering (entered : Lane → Bool) : List LoopBranch :=
  (if entered 0 then [p.enteringBranch i 0] else []) ++
    if entered 1 then [p.enteringBranch i 1] else []

/-- A mispredicted branch with its outcome; it keeps its slot if the loop it
was predicted by is still there. -/
def recovered (e : LoopBranch) : LoopBranch :=
  { e with
    taken := i.recover.taken
    logged := p.recoversAction i
    nextIter := advanceIteration e.loopMeta.iterationBefore i.recover.taken
      (p.table e.loopMeta.tableIndex).direction }

/-- The edges of the predictor inside the core, with the branches in flight
before and after. -/
inductive Edge (p : LoopPredictor) (i : Inputs) :
    List LoopBranch → List LoopBranch → Prop
  | flush {flight remaining : List LoopBranch} (hflush : i.flush = true)
      (hretire : Retires i flight remaining) : Edge p i flight []
  | recover {flight before after : List LoopBranch} {e : LoopBranch}
      (hflush : i.flush = false) (hrecover : i.recover.valid = true)
      (hretire : Retires i flight (before ++ e :: after))
      (htag : e.tag = some i.recover.robTag)
      (hconditional : i.recover.isConditional = e.conditional) :
      Edge p i flight (before ++ [p.recovered i e])
  | advance {flight remaining dispatched : List LoopBranch}
      {entered : Lane → Bool} (hflush : i.flush = false)
      (hrecover : i.recover.valid = false)
      (hretire : Retires i flight remaining)
      (hdispatch : List.Forall₂ (Dispatches i) remaining dispatched)
      (htags : (i.checkpointAlloc 0).valid = true →
        (i.checkpointAlloc 1).valid = true →
        (i.checkpointAlloc 0).tag ≠ (i.checkpointAlloc 1).tag)
      (hspeculate : ∀ lane, i.speculateValid lane = true → entered lane = true)
      (hfirst : ∀ lane, entered lane = true →
        i.response0Conditional = i.speculateValid 0)
      (hlimit : (dispatched ++ p.entering i entered).length ≤ flightLimit) :
      Edge p i flight (dispatched ++ p.entering i entered)

/-- The runs of the predictor inside the core whose edges all meet a
condition. -/
inductive Run (cond : LoopPredictor → List LoopBranch → Inputs → Prop) :
    LoopPredictor → List LoopBranch → Prop
  | reset : Run cond {} []
  | step {p : LoopPredictor} {flight flight' : List LoopBranch}
      (h : Run cond p flight) (i : Inputs) (hedge : Edge p i flight flight')
      (hcond : cond p flight i) : Run cond (p.step i) flight'

/-- No prediction takes the slot of a branch that gave it up in its recovery
and is still in flight after this edge. -/
def SparesClaims (p : LoopPredictor) (flight : List LoopBranch) (i : Inputs) :
    Prop :=
  i.flush = false → i.recover.valid = false →
    ∀ e ∈ (if i.update.valid then flight.tail else flight),
      e.claims = true → e.logged = false →
      ∀ lane, p.allocateAction i lane = true →
        p.slotTail i.response0Conditional lane ≠ e.slot

instance (flight : List LoopBranch) : Decidable (SparesClaims p flight i) :=
  inferInstanceAs (Decidable (_ → _ → ∀ e ∈ _, _ → _ → ∀ _ : Lane, _ → _ ≠ _))

end Edges

section Placement

/-- Where the log goes on behind a branch. -/
def cursor (c : BitVec 5) (e : LoopBranch) : BitVec 5 :=
  if e.logged then c + 1 else c

/-- Every branch names the slot the log had reached. -/
def Placed (c : BitVec 5) : List LoopBranch → Prop
  | [] => True
  | e :: rest => e.slot = c ∧ Placed (cursor c e) rest

/-- Where the log goes on behind the branches. -/
def reached (c : BitVec 5) (flight : List LoopBranch) : BitVec 5 :=
  flight.foldl cursor c

variable {c : BitVec 5} {flight : List LoopBranch} {e : LoopBranch}

theorem reached_append (c : BitVec 5) (a b : List LoopBranch) :
    reached c (a ++ b) = reached (reached c a) b := List.foldl_append

theorem placed_append (c : BitVec 5) (a b : List LoopBranch) :
    Placed c (a ++ b) ↔ Placed c a ∧ Placed (reached c a) b := by
  induction a generalizing c with
  | nil => simp [Placed, reached]
  | cons e rest ih =>
      simp only [List.cons_append, Placed, ih, and_assoc]
      rfl

theorem reached_eq (c : BitVec 5) (flight : List LoopBranch) :
    reached c flight =
      c + BitVec.ofNat 5 (flight.countP LoopBranch.logged) := by
  induction flight generalizing c with
  | nil => simp [reached]
  | cons e rest ih =>
      rw [reached, List.foldl_cons, ← reached, ih, cursor, List.countP_cons]
      cases e.logged with
      | false => simp
      | true =>
          rw [if_pos rfl, if_pos rfl, Nat.add_comm, BitVec.ofNat_add,
            BitVec.add_assoc]
          rfl

/-- The slots of the logged branches follow each other. -/
theorem Placed.slots (h : Placed c flight) :
    (flight.filter LoopBranch.logged).map LoopBranch.slot =
      (List.range (flight.countP LoopBranch.logged)).map
        fun k => c + BitVec.ofNat 5 k := by
  induction flight generalizing c with
  | nil => rfl
  | cons e rest ih =>
      obtain ⟨hslot, hrest⟩ := h
      cases hlogged : e.logged with
      | false =>
          rw [cursor, hlogged, if_neg Bool.false_ne_true] at hrest
          rw [List.filter_cons_of_neg (by simp [hlogged]),
            List.countP_cons_of_neg (by simp [hlogged])]
          exact ih hrest
      | true =>
          rw [cursor, hlogged, if_pos rfl] at hrest
          rw [List.filter_cons_of_pos hlogged,
            List.countP_cons_of_pos hlogged, List.range_succ_eq_map,
            List.map_cons, List.map_cons, ih hrest, hslot, List.map_map]
          congr 1
          · simp
          · apply List.map_congr_left
            intro k _
            rw [Function.comp_apply, Nat.succ_eq_add_one, Nat.add_comm k,
              BitVec.ofNat_add, BitVec.add_assoc]
            rfl

/-- A logged branch is at its place behind the start. -/
theorem Placed.slot_eq (h : Placed c flight) (he : e ∈ flight)
    (hlogged : e.logged = true) :
    ∃ k < flight.countP LoopBranch.logged, e.slot = c + BitVec.ofNat 5 k := by
  have hmem : e.slot ∈ (flight.filter LoopBranch.logged).map LoopBranch.slot :=
    List.mem_map_of_mem (List.mem_filter.mpr ⟨he, hlogged⟩)
  rw [h.slots] at hmem
  obtain ⟨k, hk, heq⟩ := List.mem_map.mp hmem
  exact ⟨k, List.mem_range.mp hk, heq.symm⟩

/-- Two places of the log are different while they are fewer than 32 apart. -/
theorem place_injective (c : BitVec 5) {a b : Nat} (ha : a < 32) (hb : b < 32)
    (heq : c + BitVec.ofNat 5 a = c + BitVec.ofNat 5 b) : a = b := by
  have hplace := BitVec.add_right_inj c |>.mp heq
  have hmod := congrArg BitVec.toNat hplace
  simp only [BitVec.toNat_ofNat] at hmod
  omega

end Placement

section Log

variable {action : BitVec 5 → LoopAction} {tail c : BitVec 5}
  {flight before after remaining dispatched : List LoopBranch}
  {e e' : LoopBranch} {p : LoopPredictor} {i : Inputs}

/-- The log holds the iterations of the logged branches, in order from some
slot up to its tail, and no two branches claim one slot. -/
structure Log (action : BitVec 5 → LoopAction) (tail : BitVec 5)
    (flight : List LoopBranch) : Prop where
  placed : ∃ c, Placed c flight ∧ tail = reached c flight
  held : ∀ e ∈ flight, e.logged = true → action e.slot = e.action
  valid : ∀ slot, (action slot).valid = true →
    ∃ e ∈ flight, e.logged = true ∧ e.slot = slot
  claims : ∀ e ∈ flight, e.logged = true → e.claims = true
  distinct : flight.Pairwise fun e e' =>
    e.claims = true → e'.claims = true → e.slot ≠ e'.slot
  limit : flight.length ≤ flightLimit

/-- The checkpoint of a dispatched branch is its own metadata. -/
def Saved (p : LoopPredictor) (flight : List LoopBranch) : Prop :=
  ∀ e ∈ flight, ∀ tag, e.tag = some tag → p.robCheckpoint tag = e.loopMeta

theorem Log.logged_le (h : Log action tail flight) :
    flight.countP LoopBranch.logged ≤ flightLimit :=
  (List.countP_le_length).trans h.limit

/-- The other branches claim other slots. -/
theorem Log.slot_ne (h : Log action tail (before ++ e :: after))
    (he : e.claims = true) (he' : e' ∈ before ++ after)
    (hclaims : e'.claims = true) : e'.slot ≠ e.slot := by
  obtain ⟨_, hsecond, hcross⟩ := List.pairwise_append.mp h.distinct
  rcases List.mem_append.mp he' with hbefore | hafter
  · exact hcross e' hbefore e List.mem_cons_self hclaims he
  · exact ((List.pairwise_cons.mp hsecond).1 e' hafter he hclaims).symm

theorem Log.head_slot_ne (h : Log action tail (e :: after))
    (he : e.claims = true) (he' : e' ∈ after) (hclaims : e'.claims = true) :
    e'.slot ≠ e.slot := by
  have hsplit : Log action tail ([] ++ e :: after) := h
  exact hsplit.slot_ne he he' hclaims

section Retire

/-- A write to one slot of the log, made under a condition. -/
theorem guarded_update_apply {β : Type} (write : Bool) (g : BitVec 5 → β)
    (place slot : BitVec 5) (value : BitVec 5 → β) :
    (if write then Function.update g place (value place) else g) slot =
      if write && decide (slot = place) then value slot else g slot := by
  cases write with
  | false => rfl
  | true =>
      rw [if_pos rfl, Bool.true_and]
      by_cases hslot : slot = place
      · rw [hslot, Function.update_self, decide_eq_true rfl, if_pos rfl]
      · rw [Function.update_of_ne hslot, decide_eq_false hslot,
          if_neg Bool.false_ne_true]

theorem retiredAction_unchanged (hvalid : i.update.valid = false) :
    p.retiredAction i = p.action := by
  rw [retiredAction, hvalid]
  rfl

theorem retiredAction_apply (hvalid : i.update.valid = true)
    (hconditional : e.conditional = true) (hmeta : i.update.loopMeta = e.loopMeta)
    (slot : BitVec 5) :
    p.retiredAction i slot =
      if e.claims && decide (slot = e.slot) then
        { p.action slot with valid := false }
      else p.action slot := by
  rw [retiredAction, hvalid, hmeta, LoopBranch.claims, hconditional,
    Bool.true_and]
  exact guarded_update_apply e.loopMeta.hit p.action e.slot slot
    fun slot => { p.action slot with valid := false }

theorem Log.retire (h : Log p.action p.actionTail flight)
    (hretire : Retires i flight remaining) :
    Log (p.retiredAction i) p.actionTail remaining := by
  cases hretire with
  | @conditional e rest hvalid hconditional hmeta _ _ _ =>
      have hclear := fun slot =>
        retiredAction_apply (p := p) hvalid hconditional hmeta slot
      obtain ⟨c, hplaced, htail⟩ := h.placed
      refine ⟨⟨cursor c e, hplaced.2, htail⟩, ?_, ?_, ?_, ?_, ?_⟩
      · intro e' he' hlogged
        have hmem := List.mem_cons_of_mem e he'
        rw [hclear, if_neg]
        · exact h.held e' hmem hlogged
        · rw [Bool.and_eq_true, decide_eq_true_eq]
          rintro ⟨hclaims, hslot⟩
          exact h.head_slot_ne hclaims he' (h.claims e' hmem hlogged) hslot
      · intro slot hslot
        rw [hclear] at hslot
        split at hslot
        · exact absurd hslot Bool.false_ne_true
        · next hkept =>
            obtain ⟨e', he', hlogged, heq⟩ := h.valid slot hslot
            rcases List.mem_cons.mp he' with rfl | he'
            · rw [h.claims e' List.mem_cons_self hlogged, Bool.true_and,
                decide_eq_true_eq] at hkept
              exact absurd heq.symm hkept
            · exact ⟨e', he', hlogged, heq⟩
      · exact fun e' he' => h.claims e' (List.mem_cons_of_mem e he')
      · exact (List.pairwise_cons.mp h.distinct).2
      · exact (Nat.le_succ _).trans h.limit
  | @other e rest hvalid hconditional =>
      rw [retiredAction_unchanged hvalid]
      have hplain : e.logged = false := by
        by_contra hlogged
        have hclaims := h.claims e List.mem_cons_self (by simpa using hlogged)
        rw [LoopBranch.claims, hconditional] at hclaims
        exact Bool.false_ne_true hclaims
      obtain ⟨c, hplaced, htail⟩ := h.placed
      refine ⟨⟨cursor c e, hplaced.2, htail⟩,
        fun e' he' => h.held e' (List.mem_cons_of_mem e he'), ?_,
        fun e' he' => h.claims e' (List.mem_cons_of_mem e he'),
        (List.pairwise_cons.mp h.distinct).2, (Nat.le_succ _).trans h.limit⟩
      intro slot hslot
      obtain ⟨e', he', hlogged, heq⟩ := h.valid slot hslot
      rcases List.mem_cons.mp he' with rfl | he'
      · exact absurd (hplain.symm.trans hlogged) Bool.false_ne_true
      · exact ⟨e', he', hlogged, heq⟩
  | none hvalid =>
      rw [retiredAction_unchanged hvalid]
      exact h

end Retire

section Recover

/-- The slots behind a place of the log, up to its end. -/
theorem in_cut_iff (c : BitVec 5) {k n : Nat} (start : Nat)
    (hk : k < 32) (hn : start + n < 32) :
    c + BitVec.ofNat 5 k - (c + BitVec.ofNat 5 start) <
        c + BitVec.ofNat 5 (start + n) - (c + BitVec.ofNat 5 start) ↔
      start ≤ k ∧ k < start + n := by
  rw [BitVec.lt_def]
  have hdiff (a b : Nat) : c + BitVec.ofNat 5 a - (c + BitVec.ofNat 5 b) =
      BitVec.ofNat 5 a - BitVec.ofNat 5 b := by
    bv_omega
  rw [hdiff, hdiff]
  simp only [BitVec.toNat_sub, BitVec.toNat_ofNat]
  omega

theorem recoveryMeta_eq (hsaved : Saved p flight) (he : e ∈ flight)
    (htag : e.tag = some i.recover.robTag) : p.recoveryMeta i = e.loopMeta :=
  hsaved e he _ htag

theorem recoveredAction_apply (hmeta : p.recoveryMeta i = e.loopMeta)
    (slot : BitVec 5) :
    p.recoveredAction i slot =
      if p.recoversAction i && decide (slot = e.slot) then
        (p.recovered i e).action
      else if slot - e.slot < p.actionTail - e.slot then
        { p.retiredAction i slot with valid := false }
      else p.retiredAction i slot := by
  rw [recoveredAction, hmeta]
  exact guarded_update_apply (p.recoversAction i) _ e.slot slot
    fun _ => (p.recovered i e).action

/-- The places of the branches before a recovering one lie outside what its
recovery cuts, those from it on inside. -/
theorem Log.cut (h : Log action tail (before ++ e :: after))
    (hlogged : e'.logged = true) :
    (e' ∈ before → ¬ e'.slot - e.slot < tail - e.slot ∧ e'.slot ≠ e.slot) ∧
      (e' ∈ e :: after → e'.slot - e.slot < tail - e.slot) := by
  obtain ⟨c, hplaced, htail⟩ := h.placed
  have hlimit := h.logged_le
  have hboth := (placed_append c before (e :: after)).mp hplaced
  have hstart : e.slot =
      c + BitVec.ofNat 5 (before.countP LoopBranch.logged) :=
    hboth.2.1.trans (reached_eq c before)
  rw [List.countP_append] at hlimit
  rw [htail, reached_eq, List.countP_append, hstart]
  simp only [flightLimit] at hlimit
  constructor
  · intro hbefore
    obtain ⟨k, hk, hslot⟩ := hboth.1.slot_eq hbefore hlogged
    rw [hslot]
    constructor
    · rw [in_cut_iff c _ (by omega) (by omega)]
      omega
    · intro heq
      have hsame := place_injective c (by omega) (by omega) heq
      omega
  · intro hafter
    obtain ⟨k, hk, hslot⟩ := hboth.2.slot_eq hafter hlogged
    rw [hslot, reached_eq, BitVec.add_assoc, ← BitVec.ofNat_add,
      in_cut_iff c _ (by omega) (by omega)]
    omega

theorem Log.recover (h : Log (p.retiredAction i) p.actionTail
      (before ++ e :: after)) (hmeta : p.recoveryMeta i = e.loopMeta)
    (hconditional : i.recover.isConditional = e.conditional) :
    Log (p.recoveredAction i)
      (if p.recoversAction i then nextAction (p.recoveryMeta i).checkpointTail
        else (p.recoveryMeta i).checkpointTail)
      (before ++ [p.recovered i e]) := by
  have hclear := fun slot => recoveredAction_apply hmeta slot
  have hbefore {e'} (he' : e' ∈ before) : e' ∈ before ++ e :: after :=
    List.mem_append_left _ he'
  obtain ⟨c, hplaced, _⟩ := h.placed
  have hboth := (placed_append c before (e :: after)).mp hplaced
  constructor
  case placed =>
    refine ⟨c, (placed_append c before _).mpr ⟨hboth.1, hboth.2.1, trivial⟩, ?_⟩
    rw [hmeta, reached_append, ← hboth.2.1]
    rfl
  case held =>
    intro e' he' hlogged
    rcases List.mem_append.mp he' with he' | he'
    · obtain ⟨hkept, hne⟩ := (h.cut hlogged).1 he'
      rw [hclear, if_neg, if_neg hkept]
      · exact h.held e' (hbefore he') hlogged
      · rw [Bool.and_eq_true, decide_eq_true_eq]
        exact fun hown => hne hown.2
    · obtain rfl := List.mem_singleton.mp he'
      rw [hclear, if_pos]
      exact Bool.and_eq_true_iff.mpr ⟨hlogged, decide_eq_true rfl⟩
  case valid =>
    intro slot hslot
    rw [hclear] at hslot
    split at hslot
    · next hown =>
        rw [Bool.and_eq_true, decide_eq_true_eq] at hown
        exact ⟨p.recovered i e, List.mem_append_right _ List.mem_cons_self,
          hown.1, hown.2.symm⟩
    · split at hslot
      · exact absurd hslot Bool.false_ne_true
      · next hkept =>
          obtain ⟨e', he', hlogged, rfl⟩ := h.valid slot hslot
          rcases List.mem_append.mp he' with hold | hyoung
          · exact ⟨e', List.mem_append_left _ hold, hlogged, rfl⟩
          · exact absurd ((h.cut hlogged).2 hyoung) hkept
  case claims =>
    intro e' he' hlogged
    rcases List.mem_append.mp he' with he' | he'
    · exact h.claims e' (hbefore he') hlogged
    · obtain rfl := List.mem_singleton.mp he'
      have hrecovers : p.recoversAction i = true := hlogged
      rw [recoversAction, hmeta, hconditional] at hrecovers
      simp only [Bool.and_eq_true] at hrecovers
      exact Bool.and_eq_true_iff.mpr hrecovers.1.1.1
  case distinct =>
    obtain ⟨hfirst, _, hcross⟩ := List.pairwise_append.mp h.distinct
    refine List.pairwise_append.mpr ⟨hfirst, List.pairwise_singleton _ _, ?_⟩
    intro e' he' e'' he''
    obtain rfl := List.mem_singleton.mp he''
    exact hcross e' he' e List.mem_cons_self
  case limit =>
    have hlimit := h.limit
    rw [List.length_append, List.length_cons] at hlimit
    rw [List.length_append, List.length_singleton]
    omega

end Recover

section Advance

/-- A branch without its tag. -/
def untagged (e : LoopBranch) : LoopBranch := { e with tag := none }

theorem dispatches_untagged
    (h : List.Forall₂ (Dispatches i) remaining dispatched) :
    dispatched.map untagged = remaining.map untagged := by
  induction h with
  | nil => rfl
  | cons hstep _ ih =>
      rw [List.map_cons, List.map_cons, ih]
      rcases hstep with ⟨rfl, _⟩ | ⟨lane, _, _, _, rfl⟩
      · rfl
      · rfl

/-- A dispatched branch is one that was in flight, but for its tag. -/
theorem mem_dispatched (h : List.Forall₂ (Dispatches i) remaining dispatched)
    {e : LoopBranch} (he : e ∈ dispatched) :
    ∃ e' ∈ remaining, ∃ tag, e = { e' with tag := tag } := by
  induction h with
  | nil => cases he
  | @cons e' _ _ _ hstep _ ih =>
      rcases List.mem_cons.mp he with rfl | he
      · refine ⟨e', List.mem_cons_self, ?_⟩
        rcases hstep with ⟨rfl, _⟩ | ⟨lane, _, _, _, rfl⟩
        · exact ⟨_, rfl⟩
        · exact ⟨_, rfl⟩
      · obtain ⟨e', hmem, heq⟩ := ih he
        exact ⟨e', List.mem_cons_of_mem _ hmem, heq⟩

theorem placed_untagged (c : BitVec 5) (flight : List LoopBranch) :
    Placed c (flight.map untagged) ↔ Placed c flight := by
  induction flight generalizing c with
  | nil => exact Iff.rfl
  | cons e rest ih => exact and_congr Iff.rfl (ih (cursor c e))

/-- The log does not know the tags. -/
theorem log_untagged :
    Log action tail (flight.map untagged) ↔ Log action tail flight := by
  have hreached (c : BitVec 5) : reached c (flight.map untagged) =
      reached c flight := List.foldl_map
  constructor
  · intro h
    obtain ⟨c, hplaced, htail⟩ := h.placed
    refine ⟨⟨c, (placed_untagged c flight).mp hplaced,
      htail.trans (hreached c)⟩, ?_, ?_, ?_, ?_, ?_⟩
    · exact fun e he => h.held (untagged e) (List.mem_map_of_mem he)
    · intro slot hslot
      obtain ⟨e', he', hlogged, heq⟩ := h.valid slot hslot
      obtain ⟨e, he, rfl⟩ := List.mem_map.mp he'
      exact ⟨e, he, hlogged, heq⟩
    · exact fun e he => h.claims (untagged e) (List.mem_map_of_mem he)
    · exact List.pairwise_map.mp h.distinct
    · have hlimit := h.limit
      rwa [List.length_map] at hlimit
  · intro h
    obtain ⟨c, hplaced, htail⟩ := h.placed
    refine ⟨⟨c, (placed_untagged c flight).mpr hplaced,
      htail.trans (hreached c).symm⟩, ?_, ?_, ?_, ?_, ?_⟩
    · exact List.forall_mem_map.mpr h.held
    · intro slot hslot
      obtain ⟨e, he, hlogged, heq⟩ := h.valid slot hslot
      exact ⟨untagged e, List.mem_map_of_mem he, hlogged, heq⟩
    · exact List.forall_mem_map.mpr h.claims
    · exact List.pairwise_map.mpr h.distinct
    · rw [List.length_map]
      exact h.limit

theorem Log.dispatch (h : Log action tail remaining)
    (hdispatch : List.Forall₂ (Dispatches i) remaining dispatched) :
    Log action tail dispatched := by
  rw [← log_untagged, dispatches_untagged hdispatch, log_untagged]
  exact h

/-- A branch enters at the tail of the log. -/
theorem Log.enter (h : Log action tail flight) (hslot : e.slot = tail)
    (hclaims : e.claims = e.logged)
    (hfree : e.logged = true → ∀ e' ∈ flight, e'.claims = true →
      e'.logged = false → e.slot ≠ e'.slot)
    (hlimit : flight.length + 1 ≤ flightLimit) :
    Log (if e.logged then Function.update action e.slot e.action else action)
      (cursor tail e) (flight ++ [e]) := by
  obtain ⟨c, hplaced, htail⟩ := h.placed
  have hcount := h.logged_le
  -- No branch in flight claims the slot the new one logs in.
  have hother {e'} (he' : e' ∈ flight) (hnew : e.logged = true)
      (hclaims' : e'.claims = true) : e'.slot ≠ e.slot := by
    cases hlogged : e'.logged with
    | false => exact (hfree hnew e' he' hclaims' hlogged).symm
    | true =>
        obtain ⟨k, hk, heq⟩ := hplaced.slot_eq he' hlogged
        rw [heq, hslot, htail, reached_eq]
        intro hsame
        simp only [flightLimit] at hcount
        have hplace := place_injective c (by omega) (by omega) hsame
        omega
  constructor
  case placed =>
    refine ⟨c, (placed_append c flight _).mpr ⟨hplaced, ?_, trivial⟩, ?_⟩
    · rw [hslot, htail]
    · rw [reached_append, ← htail]
      rfl
  case held =>
    intro e' he' hlogged
    rcases List.mem_append.mp he' with he' | he'
    · split
      · next hnew =>
          rw [Function.update_of_ne
            (hother he' hnew (h.claims e' he' hlogged))]
          exact h.held e' he' hlogged
      · exact h.held e' he' hlogged
    · obtain rfl := List.mem_singleton.mp he'
      rw [if_pos hlogged, Function.update_self]
  case valid =>
    intro slot hvalid
    by_cases hnew : e.logged = true ∧ slot = e.slot
    · exact ⟨e, List.mem_append_right _ List.mem_cons_self, hnew.1,
        hnew.2.symm⟩
    · have hold : (action slot).valid = true := by
        split at hvalid
        · next hlogged =>
            rwa [Function.update_of_ne fun heq => hnew ⟨hlogged, heq⟩] at hvalid
        · exact hvalid
      obtain ⟨e', he', hlogged, heq⟩ := h.valid slot hold
      exact ⟨e', List.mem_append_left _ he', hlogged, heq⟩
  case claims =>
    intro e' he' hlogged
    rcases List.mem_append.mp he' with he' | he'
    · exact h.claims e' he' hlogged
    · obtain rfl := List.mem_singleton.mp he'
      exact hclaims.trans hlogged
  case distinct =>
    refine List.pairwise_append.mpr
      ⟨h.distinct, List.pairwise_singleton _ _, ?_⟩
    intro e' he' e'' he'' hclaims' hnew
    obtain rfl := List.mem_singleton.mp he''
    exact hother he' (hclaims ▸ hnew) hclaims'
  case limit =>
    rwa [List.length_append, List.length_singleton]

theorem enteringBranch_claims (p : LoopPredictor) (i : Inputs) (lane : Lane) :
    (p.enteringBranch i lane).claims = (p.enteringBranch i lane).logged := by
  change (i.speculateValid lane && (p.responseHit lane &&
    p.slotFree i.response0Conditional lane)) = p.allocateAction i lane
  rw [allocateAction, Bool.and_assoc]

/-- Lane 1 takes the slot behind the one lane 0 takes. -/
theorem slotTail_one (hfirst : i.response0Conditional = i.speculateValid 0) :
    p.slotTail i.response0Conditional 1 =
      cursor p.actionTail (p.enteringBranch i 0) := by
  have hreserve : p.reserveAction0 i.response0Conditional =
      p.allocateAction i 0 := by
    rw [hfirst]
    rfl
  rw [slotTail, hreserve]
  rfl

theorem Log.enterIf (h : Log action tail flight) {entered : Bool}
    (hidle : entered = false → e.logged = false)
    (hslot : entered = true → e.slot = tail) (hclaims : e.claims = e.logged)
    (hfree : e.logged = true → ∀ e' ∈ flight, e'.claims = true →
      e'.logged = false → e.slot ≠ e'.slot)
    (hlimit : (flight ++ if entered then [e] else []).length ≤ flightLimit) :
    Log (if e.logged then Function.update action e.slot e.action else action)
      (cursor tail e) (flight ++ if entered then [e] else []) := by
  cases entered with
  | false =>
      rw [cursor, hidle rfl]
      simpa using h
  | true =>
      rw [if_pos rfl, List.length_append, List.length_singleton] at hlimit
      exact h.enter (hslot rfl) hclaims hfree hlimit

theorem Log.advance {entered : Lane → Bool}
    (h : Log (p.retiredAction i) p.actionTail remaining)
    (hspeculate : ∀ lane, i.speculateValid lane = true → entered lane = true)
    (hfirst : ∀ lane, entered lane = true →
      i.response0Conditional = i.speculateValid 0)
    (hlimit : (remaining ++ p.entering i entered).length ≤ flightLimit)
    (hfree : ∀ e ∈ remaining, e.claims = true → e.logged = false → ∀ lane,
      p.allocateAction i lane = true →
      p.slotTail i.response0Conditional lane ≠ e.slot) :
    Log (p.speculatedAction i)
      (if p.allocateAction i 1 then
        nextAction (p.slotTail i.response0Conditional 1)
      else if p.allocateAction i 0 then nextAction p.actionTail
      else p.actionTail) (remaining ++ p.entering i entered) := by
  have hidle (lane : Lane) (hlane : entered lane = false) :
      p.allocateAction i lane = false := by
    have hnot : i.speculateValid lane = false := by
      by_contra hvalid
      have hentered := hspeculate lane (by simpa using hvalid)
      exact Bool.false_ne_true (hlane.symm.trans hentered)
    rw [allocateAction, hnot, Bool.false_and, Bool.false_and]
  rw [entering, ← List.append_assoc] at hlimit ⊢
  have hlog0 := h.enterIf (e := p.enteringBranch i 0) (hidle 0)
    (fun _ => rfl) (enteringBranch_claims p i 0)
    (fun hlogged e he hclaims hnot => hfree e he hclaims hnot 0 hlogged)
    (by rw [List.length_append] at hlimit; omega)
  have hlog1 := hlog0.enterIf (e := p.enteringBranch i 1) (hidle 1)
    (fun hentered => slotTail_one (hfirst 1 hentered))
    (enteringBranch_claims p i 1)
    (by
      intro hlogged e he hclaims hnot
      rcases List.mem_append.mp he with he | he
      · exact hfree e he hclaims hnot 1 hlogged
      · have hfresh : e.claims = e.logged := by
          split at he
          · obtain rfl := List.mem_singleton.mp he
            exact enteringBranch_claims p i 0
          · exact absurd he List.not_mem_nil
        exact absurd (hnot.symm.trans (hfresh.symm.trans hclaims))
          Bool.false_ne_true)
    hlimit
  have htail : (if p.allocateAction i 1 then
        nextAction (p.slotTail i.response0Conditional 1)
      else if p.allocateAction i 0 then nextAction p.actionTail
      else p.actionTail) =
      cursor (cursor p.actionTail (p.enteringBranch i 0))
        (p.enteringBranch i 1) := by
    change _ = if p.allocateAction i 1 then _ else _
    split
    · next hlane =>
        have hentered : entered 1 = true := by
          by_contra hnot
          rw [hidle 1 (by simpa using hnot)] at hlane
          exact Bool.false_ne_true hlane
        rw [slotTail_one (hfirst 1 hentered)]
        rfl
    · rfl
  rw [htail]
  exact hlog1

end Advance

end Log

section Runs

theorem Run.mono {cond cond' : LoopPredictor → List LoopBranch → Inputs → Prop}
    {p : LoopPredictor} {flight : List LoopBranch} (h : Run cond p flight)
    (hcond : ∀ p flight i, cond p flight i → cond' p flight i) :
    Run cond' p flight := by
  induction h with
  | reset => exact Run.reset
  | step h i hedge hstep ih => exact ih.step i hedge (hcond _ _ _ hstep)

variable {p : LoopPredictor} {i : Inputs} {before after remaining : List LoopBranch}
  {flight flight' dispatched : List LoopBranch} {e e' : LoopBranch}

theorem Retires.sublist (h : Retires i flight remaining) :
    remaining.Sublist flight := by
  cases h with
  | conditional => exact List.sublist_cons_self _ _
  | other => exact List.sublist_cons_self _ _
  | none => exact List.Sublist.refl _

theorem Retires.subset_update (h : Retires i flight remaining)
    (he : e ∈ remaining) :
    e ∈ if i.update.valid then flight.tail else flight := by
  cases h with
  | conditional hvalid => simpa [hvalid] using he
  | other hvalid =>
      rw [hvalid, if_neg Bool.false_ne_true]
      exact List.mem_cons_of_mem _ he
  | none hvalid => simpa [hvalid] using he

/-- A dispatched branch has its metadata in its checkpoint. -/
theorem Saved.dispatch (h : Saved p remaining) (hflush : i.flush = false)
    (hrecover : i.recover.valid = false)
    (hdispatch : List.Forall₂ (Dispatches i) remaining dispatched)
    (htags : (i.checkpointAlloc 0).valid = true →
      (i.checkpointAlloc 1).valid = true →
      (i.checkpointAlloc 0).tag ≠ (i.checkpointAlloc 1).tag) :
    Saved (p.step i) dispatched := by
  have hcheckpoint (tag : RobTag) : (p.step i).robCheckpoint tag =
      if (i.checkpointAlloc 1).valid && decide ((i.checkpointAlloc 1).tag = tag)
      then (i.checkpointAlloc 1).loopMeta
      else if (i.checkpointAlloc 0).valid &&
          decide ((i.checkpointAlloc 0).tag = tag)
      then (i.checkpointAlloc 0).loopMeta
      else p.robCheckpoint tag := by
    simp only [step, hflush, hrecover, Bool.or_self, Bool.false_eq_true,
      if_false]
  induction hdispatch with
  | nil => exact fun e he => absurd he List.not_mem_nil
  | @cons e e' rest dispatched hstep _ ih =>
      intro e'' he'' tag htag
      rcases List.mem_cons.mp he'' with rfl | he''
      · rw [hcheckpoint]
        rcases hstep with ⟨rfl, hkept⟩ | ⟨lane, hvalid, hmeta, _, rfl⟩
        · rw [if_neg, if_neg]
          · exact h e'' List.mem_cons_self tag htag
          · rw [Bool.and_eq_true, decide_eq_true_eq]
            exact fun hsame => hkept 0 tag htag hsame.1 hsame.2
          · rw [Bool.and_eq_true, decide_eq_true_eq]
            exact fun hsame => hkept 1 tag htag hsame.1 hsame.2
        · obtain rfl := Option.some.inj htag
          match lane with
          | 1 =>
              rw [hvalid, decide_eq_true rfl]
              exact hmeta
          | 0 =>
              rw [if_neg, hvalid, decide_eq_true rfl]
              · exact hmeta
              · rw [Bool.and_eq_true, decide_eq_true_eq]
                exact fun hsame => htags hvalid hsame.1 hsame.2.symm
      · exact ih (fun e he => h e (List.mem_cons_of_mem _ he)) e'' he'' tag htag

theorem Saved.edge (h : Saved p flight) (hedge : Edge p i flight flight') :
    Saved (p.step i) flight' := by
  cases hedge with
  | flush => exact fun e he => absurd he List.not_mem_nil
  | @recover before after e hflush hrecover hretire =>
      have hcheckpoint : (p.step i).robCheckpoint = p.robCheckpoint := by
        simp only [step, hflush, hrecover, Bool.or_true, if_true]
      intro e' he' tag htag
      rw [hcheckpoint]
      rcases List.mem_append.mp he' with he' | he'
      · exact h e' (hretire.sublist.subset (List.mem_append_left _ he')) tag htag
      · obtain rfl := List.mem_singleton.mp he'
        exact h e (hretire.sublist.subset
          (List.mem_append_right _ List.mem_cons_self)) tag htag
  | @advance remaining dispatched entered hflush hrecover hretire hdispatch
      htags =>
      intro e' he' tag htag
      rcases List.mem_append.mp he' with he' | he'
      · exact Saved.dispatch (fun e he => h e (hretire.sublist.subset he))
          hflush hrecover hdispatch htags e' he' tag htag
      · have hnew : e'.tag = none := by
          rcases List.mem_append.mp he' with he' | he'
          all_goals
            split at he'
            · obtain rfl := List.mem_singleton.mp he'
              rfl
            · exact absurd he' List.not_mem_nil
        rw [hnew] at htag
        exact absurd htag nofun

theorem Log.edge (h : Log p.action p.actionTail flight) (hsaved : Saved p flight)
    (hcond : SparesClaims p flight i) (hedge : Edge p i flight flight') :
    Log (p.step i).action (p.step i).actionTail flight' := by
  cases hedge with
  | flush hflush =>
      simp only [step, hflush, if_true]
      exact ⟨⟨0, trivial, rfl⟩, fun e he => absurd he List.not_mem_nil,
        fun slot hslot => absurd hslot Bool.false_ne_true,
        fun e he => absurd he List.not_mem_nil, List.Pairwise.nil,
        Nat.zero_le _⟩
  | @recover before after e hflush hrecover hretire htag hconditional =>
      have he : e ∈ flight := hretire.sublist.subset
        (List.mem_append_right _ List.mem_cons_self)
      simp only [step, hflush, hrecover, Bool.false_eq_true, if_false, if_true]
      exact (h.retire hretire).recover (recoveryMeta_eq hsaved he htag)
        hconditional
  | @advance remaining dispatched entered hflush hrecover hretire hdispatch
      _ hspeculate hfirst hlimit =>
      simp only [step, hflush, hrecover, Bool.false_eq_true, if_false]
      refine Log.advance ?_ hspeculate hfirst hlimit ?_
      · exact (h.retire hretire).dispatch hdispatch
      · -- Dispatch changes neither the slot nor who holds it.
        intro e' he' hclaims hlogged lane hallocate
        obtain ⟨e, he, tag, rfl⟩ := mem_dispatched hdispatch he'
        exact hcond hflush hrecover e (hretire.subset_update he) hclaims hlogged
          lane hallocate

theorem Run.log (h : Run SparesClaims p flight) :
    Log p.action p.actionTail flight ∧ Saved p flight := by
  induction h with
  | reset =>
      exact ⟨⟨⟨0, trivial, rfl⟩, fun e he => absurd he List.not_mem_nil,
        fun slot hslot => absurd hslot Bool.false_ne_true,
        fun e he => absurd he List.not_mem_nil, List.Pairwise.nil,
        Nat.zero_le _⟩, fun e he => absurd he List.not_mem_nil⟩
  | step h i hedge hcond ih =>
      exact ⟨ih.1.edge ih.2 hcond hedge, ih.2.edge hedge⟩

/-- A claimed slot that is valid is held by the branch that claims it. -/
theorem Log.holder {action : BitVec 5 → LoopAction} {tail : BitVec 5}
    (h : Log action tail (before ++ e :: after)) (hclaims : e.claims = true)
    (hvalid : (action e.slot).valid = true) : e.logged = true := by
  obtain ⟨e', he', hlogged, heq⟩ := h.valid e.slot hvalid
  by_cases hsame : e' = e
  · exact hsame ▸ hlogged
  · have hother : e' ∈ before ++ after := by
      rcases List.mem_append.mp he' with hbefore | hrest
      · exact List.mem_append_left _ hbefore
      · exact List.mem_append_right _
          ((List.mem_cons.mp hrest).resolve_left hsame)
    exact absurd heq (h.slot_ne hclaims hother (h.claims e' he' hlogged))

theorem Log.owner {action : BitVec 5 → LoopAction} {tail slot : BitVec 5}
    (h : Log action tail flight) (hvalid : (action slot).valid = true) :
    flight.countP (fun e => e.claims && decide (e.slot = slot)) = 1 := by
  obtain ⟨e, he, hlogged, rfl⟩ := h.valid slot hvalid
  obtain ⟨before, after, rfl⟩ := List.append_of_mem he
  have hclaims := h.claims e he hlogged
  have hnone {l : List LoopBranch} (hl : ∀ e' ∈ l, e' ∈ before ++ after) :
      l.countP (fun e' => e'.claims && decide (e'.slot = e.slot)) = 0 := by
    rw [List.countP_eq_zero]
    intro e' he' hboth
    rw [Bool.and_eq_true, decide_eq_true_eq] at hboth
    exact h.slot_ne hclaims (hl e' he') hboth.1 hboth.2
  rw [List.countP_append, List.countP_cons_of_pos (by simp [hclaims]),
    hnone fun e' => List.mem_append_left _,
    hnone fun e' => List.mem_append_right _]

end Runs

namespace Replaced

/-- Nothing but the lookup of a pair of addresses. -/
def look (pc : Word) : Inputs where
  flush := false
  queryPc := fun lane => if lane = 0 then pc else pc + 4
  response0Conditional := false
  speculateValid := fun _ => false
  speculateTaken := fun _ => false
  update := ⟨false, 0, 0, false, {}⟩
  recover := ⟨false, false, false, 0⟩
  checkpointAlloc := fun _ => ⟨false, 0, {}⟩

/-- Slot 0 of the response is consumed as a branch predicted taken. -/
def predict (i : Inputs) : Inputs :=
  { i with
    response0Conditional := true
    speculateValid := fun lane => decide (lane = 0)
    speculateTaken := fun _ => true }

/-- A branch at `pc` retires. -/
def retire (e : LoopBranch) (pc : Word) (i : Inputs) : Inputs :=
  { i with update := ⟨true, pc, 0, e.taken, e.loopMeta⟩ }

/-- Two loops with entries of their own, and a third with the entry of the
first. -/
def loopA : Word := 0x40
def loopB : Word := 0x80
def rival : Word := 0x140

-- The first branches of the two loops retire taken and allocate.
def s1 : LoopPredictor := step {} (look loopA)
def firstA : LoopBranch := s1.enteringBranch (predict (look loopB)) 0
def s2 : LoopPredictor := s1.step (predict (look loopB))
def i2 : Inputs := retire firstA loopA (predict (look rival))
def firstB : LoopBranch := s2.enteringBranch i2 0
def s3 : LoopPredictor := s2.step i2
-- Two rivals are fetched before the second branch of loop A.
def i3 : Inputs := retire firstB loopB (predict (look rival))
def s4 : LoopPredictor := s3.step i3
def i4 : Inputs := predict (look loopA)
def s5 : LoopPredictor := s4.step i4
theorem dispatches_none (h : ∀ lane, (i.checkpointAlloc lane).valid = false)
    (flight : List LoopBranch) :
    List.Forall₂ (Dispatches i) flight flight := by
  induction flight with
  | nil => exact List.Forall₂.nil
  | cons e rest ih =>
      refine List.Forall₂.cons (Or.inl ⟨rfl, fun lane tag _ hvalid => ?_⟩) ih
      exact absurd ((h lane).symm.trans hvalid) Bool.false_ne_true

/-- A cycle of prediction without dispatch. -/
theorem edge_predict {p : LoopPredictor} {i : Inputs}
    {flight remaining : List LoopBranch} (hretire : Retires i flight remaining)
    (hflush : i.flush = false) (hrecover : i.recover.valid = false)
    (hnone : ∀ lane, (i.checkpointAlloc lane).valid = false)
    (hspeculate : i.speculateValid = fun lane => decide (lane = 0))
    (hfirst : i.response0Conditional = true)
    (hlimit : remaining.length ≤ 8) :
    Edge p i flight (remaining ++ [p.enteringBranch i 0]) := by
  change Edge p i flight (remaining ++ p.entering i fun lane => decide (lane = 0))
  refine Edge.advance hflush hrecover hretire
    (dispatches_none hnone remaining) ?_ ?_ ?_ ?_
  · intro hvalid
    exact absurd ((hnone 0).symm.trans hvalid) Bool.false_ne_true
  · intro lane hlane
    rwa [hspeculate] at hlane
  · intro lane _
    rw [hfirst, hspeculate]
    rfl
  · change (remaining ++ [p.enteringBranch i 0]).length ≤ flightLimit
    rw [List.length_append, List.length_singleton, flightLimit]
    omega

/-- A cycle without prediction. -/
theorem edge_idle {p : LoopPredictor} {i : Inputs}
    {flight remaining dispatched : List LoopBranch}
    (hretire : Retires i flight remaining) (hflush : i.flush = false)
    (hrecover : i.recover.valid = false)
    (hdispatch : List.Forall₂ (Dispatches i) remaining dispatched)
    (hnone : (i.checkpointAlloc 1).valid = false)
    (hspeculate : i.speculateValid = fun _ => false)
    (hlimit : dispatched.length ≤ 8) : Edge p i flight dispatched := by
  have hentering : dispatched ++ p.entering i (fun _ => false) = dispatched :=
    List.append_nil dispatched
  rw [← hentering]
  refine Edge.advance hflush hrecover hretire hdispatch ?_ ?_ nofun ?_
  · exact fun _ hvalid => absurd (hnone.symm.trans hvalid) Bool.false_ne_true
  · intro lane hlane
    rwa [hspeculate] at hlane
  · rw [hentering, flightLimit]
    omega

end Replaced

end LoopPredictor

end OoOCore
