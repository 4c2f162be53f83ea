/-
Oldest-first issue over whole runs of the issue queue.  Every uop is numbered
in the order of its dispatch; the stored ages follow these numbers as long as
the age counter does not start again at zero behind an older uop.
-/
import OoOCore.Lib.Run
import OoOCore.IssueStep

namespace OoOCore

namespace IssueQueue

section Selection

variable (q : IssueQueue) {candidate : IqIndex → Bool}

/-- The stored age of a slot as a number. -/
def age (j : IqIndex) : Nat := (q.ages j).toNat

theorem selectStep_le {held : Option IqIndex} {k j : IqIndex}
    (hj : q.selectStep candidate held k = some j) :
    (∀ m, held = some m → q.age j ≤ q.age m) ∧
      (candidate k = true → q.age j ≤ q.age k) := by
  cases held with
  | none =>
      simp only [selectStep] at hj
      split at hj
      · cases hj
        exact ⟨by simp, fun _ => Nat.le_refl _⟩
      · cases hj
  | some m =>
      simp only [selectStep] at hj
      split at hj
      · next hlt =>
          cases hj
          refine ⟨?_, fun _ => Nat.le_refl _⟩
          rintro m' hm'
          cases hm'
          exact Nat.le_of_lt hlt.2
      · next hnot =>
          cases hj
          refine ⟨?_, ?_⟩
          · rintro m' hm'
            cases hm'
            exact Nat.le_refl _
          · intro hk
            exact Nat.le_of_not_lt (fun hlt => hnot ⟨hk, hlt⟩)

/-- A selection loop returns a candidate of the least age. -/
theorem selectOldest_le {j : IqIndex}
    (hj : q.selectOldest candidate = some j) {k : IqIndex}
    (hk : candidate k = true) : q.age j ≤ q.age k := by
  have hfold : ∀ (l : List IqIndex) (held : Option IqIndex) (j : IqIndex),
      l.foldl (q.selectStep candidate) held = some j →
      (∀ m, held = some m → q.age j ≤ q.age m) ∧
        ∀ k ∈ l, candidate k = true → q.age j ≤ q.age k := by
    intro l
    induction l with
    | nil =>
        rintro held j rfl
        refine ⟨?_, by simp⟩
        rintro m hm
        cases hm
        exact Nat.le_refl _
    | cons head rest ih =>
        intro held j hj
        obtain ⟨hheld, hrest⟩ := ih _ j hj
        -- What the loop holds after the first slot is no younger than either.
        cases hstep : q.selectStep candidate held head with
        | none =>
            obtain ⟨hnone, hhead⟩ := q.selectStep_none hstep
            refine ⟨by simp [hnone], ?_⟩
            intro k hmem hk
            rcases List.mem_cons.mp hmem with rfl | hmem
            · rw [hhead] at hk
              cases hk
            · exact hrest k hmem hk
        | some m =>
            obtain ⟨hold, hhead⟩ := q.selectStep_le hstep
            have hm := hheld m hstep
            refine ⟨fun m' hm' => Nat.le_trans hm (hold m' hm'), ?_⟩
            intro k hmem hk
            rcases List.mem_cons.mp hmem with rfl | hmem
            · exact Nat.le_trans hm (hhead hk)
            · exact hrest k hmem hk
  exact (hfold _ none j hj).2 k (List.mem_finRange k) hk

variable (wb : Lane → Writeback)

/-- The ready entries port 0 is reserved for. -/
def memoryCandidate (j : IqIndex) : Bool :=
  readyEntry wb (q.entries j) && (q.isClass j .memory || q.isClass j .csr)

/-- The ready entries port 1 chooses from. -/
def integerCandidate (j : IqIndex) : Bool :=
  readyEntry wb (q.entries j) && (q.isClass j .integer || q.isClass j .branch)

/-- The ready integer entries the two ports leave over. -/
def fallbackCandidate (j : IqIndex) : Bool :=
  readyEntry wb (q.entries j) && q.isClass j .integer &&
    (some j != (q.select wb).port0) && (some j != (q.select wb).port1)

theorem select_port0_eq {k : IqIndex} (hk : q.memoryCandidate wb k = true) :
    (q.select wb).port0 = q.selectOldest (q.memoryCandidate wb) := by
  change (if (q.selectOldest (q.memoryCandidate wb)).isSome then
    q.selectOldest (q.memoryCandidate wb) else _) = _
  apply if_pos
  rw [Option.isSome_iff_ne_none]
  intro hnone
  rw [q.selectOldest_none hnone k] at hk
  cases hk

/-- A memory choice is no integer or branch, so excluding it excludes nothing. -/
theorem integerCandidate_ne_memory :
    (fun j => q.integerCandidate wb j &&
      (some j != q.selectOldest (q.memoryCandidate wb))) =
    q.integerCandidate wb := by
  funext j
  cases hj : q.integerCandidate wb j with
  | false => rfl
  | true =>
      rw [Bool.true_and, bne_iff_ne]
      intro heq
      have hmem := q.selectOldest_candidate heq.symm
      simp only [integerCandidate, memoryCandidate, isClass, Bool.and_eq_true,
        Bool.or_eq_true, beq_iff_eq] at hj hmem
      rcases hj.2 with h | h <;> rw [h] at hmem <;> simp at hmem

theorem select_port1_eq :
    (q.select wb).port1 = q.selectOldest (q.integerCandidate wb) := by
  have hinteger : q.selectOldest (fun j => readyEntry wb (q.entries j) &&
      (q.isClass j .integer || q.isClass j .branch) &&
      (some j != q.selectOldest (q.memoryCandidate wb))) =
      q.selectOldest (q.integerCandidate wb) :=
    congrArg q.selectOldest (q.integerCandidate_ne_memory wb)
  cases hchoice : q.selectOldest (q.integerCandidate wb) with
  | some j =>
      rw [hchoice] at hinteger
      simp only [select]
      rw [show (q.selectOldest fun j => readyEntry wb (q.entries j) &&
        (q.isClass j .memory || q.isClass j .csr)) =
        q.selectOldest (q.memoryCandidate wb) from rfl, hinteger]
      rfl
  | none =>
      -- The second loop of port 1 only drops candidates of the first.
      by_contra hsome
      obtain ⟨j, hj⟩ := Option.ne_none_iff_exists'.mp hsome
      obtain ⟨hready, hclass⟩ := q.select_port1_candidate wb hj
      have hno := q.selectOldest_none hchoice j
      simp [integerCandidate, isClass, hready] at hno
      rcases hclass with h | h <;> simp [h] at hno

theorem select_fallback_eq :
    (q.select wb).fallback = q.selectOldest (q.fallbackCandidate wb) := by
  unfold fallbackCandidate
  simp only [select]

end Selection

section Dispatch

variable (q : IssueQueue) (uop : Lane → Uop)

/-- A value written by both lanes is read back in a dispatched slot. -/
theorem dispatchLanes_slot {α : Type} (value : Lane → α) (next : IqIndex → α)
    {l : Lane} {j : IqIndex} (hslot : q.dispatchSlot uop l = some j) :
    q.dispatchLane uop 1 (value 1) (q.dispatchLane uop 0 (value 0) next) j =
      value l := by
  rw [dispatchLane_apply, dispatchLane_apply]
  match l, hslot with
  | 1, hslot => rw [if_pos hslot]
  | 0, hslot =>
      rw [if_neg, if_pos hslot]
      intro h1
      exact absurd (q.dispatchSlot_injective uop h1 hslot) (by decide)

theorem dispatchLanes_other {α : Type} (value : Lane → α) (next : IqIndex → α)
    {j : IqIndex} (hvalid : (q.entries j).valid = true) :
    q.dispatchLane uop 1 (value 1) (q.dispatchLane uop 0 (value 0) next) j =
      next j := by
  have hne (l : Lane) : q.dispatchSlot uop l ≠ some j := by
    intro hslot
    rw [q.dispatchSlot_free uop hslot] at hvalid
    cases hvalid
  rw [dispatchLane_apply, dispatchLane_apply, if_neg (hne 1), if_neg (hne 0)]

theorem dispatchSlot_fires {l : Lane} {j : IqIndex}
    (hslot : q.dispatchSlot uop l = some j) : q.dispatchFire uop l = true := by
  by_contra hno
  simp [dispatchSlot, hno] at hslot

theorem dispatchRank_le (l : Lane) : q.dispatchRank uop l ≤ 1 := by
  match l with
  | 0 => exact Nat.zero_le 1
  | 1 => exact Bool.toNat_le _

/-- Lanes that fire have different ranks, and one of them has rank zero. -/
theorem dispatchRank_injective {l l' : Lane}
    (hl : q.dispatchFire uop l = true) (hl' : q.dispatchFire uop l' = true)
    (heq : q.dispatchRank uop l = q.dispatchRank uop l') : l = l' := by
  match l, l', hl, hl', heq with
  | 0, 0, _, _, _ => rfl
  | 1, 1, _, _, _ => rfl
  | 0, 1, hl, _, heq => simp [dispatchRank, hl] at heq
  | 1, 0, _, hl', heq => simp [dispatchRank, hl'] at heq

theorem dispatchRank_zero {l : Lane} (hl : q.dispatchFire uop l = true) :
    ∃ m, q.dispatchFire uop m = true ∧ q.dispatchRank uop m = 0 := by
  cases h0 : q.dispatchFire uop 0 with
  | true => exact ⟨0, h0, rfl⟩
  | false =>
      match l, hl with
      | 0, hl => rw [h0] at hl; cases hl
      | 1, hl => exact ⟨1, hl, by simp [dispatchRank, h0]⟩

/-- How many lanes are written. -/
def dispatchCount : Nat :=
  (q.dispatchFire uop 0).toNat + (q.dispatchFire uop 1).toNat

theorem dispatchRank_lt_count {l : Lane} (hl : q.dispatchFire uop l = true) :
    q.dispatchRank uop l < q.dispatchCount uop := by
  match l, hl with
  | 0, hl =>
      simp only [dispatchRank, dispatchCount, hl, Bool.toNat_true]
      omega
  | 1, hl =>
      simp only [dispatchRank, dispatchCount, hl, Bool.toNat_true]
      omega

/-- The last lane written has the highest rank. -/
theorem dispatchRank_last (hpos : 0 < q.dispatchCount uop) :
    ∃ l, q.dispatchFire uop l = true ∧
      q.dispatchRank uop l + 1 = q.dispatchCount uop := by
  cases h1 : q.dispatchFire uop 1 with
  | true => exact ⟨1, h1, by simp [dispatchRank, dispatchCount, h1]⟩
  | false =>
      have h0 : q.dispatchFire uop 0 = true := by
        by_contra hno
        rw [Bool.not_eq_true] at hno
        simp [dispatchCount, hno, h1] at hpos
      exact ⟨0, h0, by simp [dispatchRank, dispatchCount, h0, h1]⟩

end Dispatch

end IssueQueue

/-- The inputs of one cycle of `IssueQueue`. -/
structure IqInputs where
  flush : Bool
  recoverValid : Bool
  mask : RobTag → Bool
  uop : Lane → Uop
  wb : Lane → Writeback
  issueReady : Lane → Bool
  fallbackReady : Bool

/-- The queue beside the dispatch number of the uop in each slot. -/
structure NumberedQueue where
  queue : IssueQueue
  number : IqIndex → Nat
  dispatched : Nat

namespace NumberedQueue

def reset : NumberedQueue := ⟨IssueQueue.reset, fun _ => 0, 0⟩

/-- The clock edge; a dispatched uop takes the next number. -/
def step (t : NumberedQueue) (x : IqInputs) : NumberedQueue :=
  let queue := t.queue.step x.flush x.recoverValid x.mask x.uop x.wb
    x.issueReady x.fallbackReady
  if x.flush || x.recoverValid then { t with queue := queue }
  else
    { queue := queue
      number := t.queue.dispatchLane x.uop 1
        (t.dispatched + t.queue.dispatchRank x.uop 1)
        (t.queue.dispatchLane x.uop 0
          (t.dispatched + t.queue.dispatchRank x.uop 0) t.number)
      dispatched := t.dispatched + t.queue.dispatchCount x.uop }

def run (inputs : List IqInputs) : NumberedQueue := inputs.foldl step reset

/-- The slot holds a uop. -/
def Holds (t : NumberedQueue) (j : IqIndex) : Prop :=
  (t.queue.entries j).valid = true

instance (t : NumberedQueue) (j : IqIndex) : Decidable (t.Holds j) :=
  inferInstanceAs (Decidable ((t.queue.entries j).valid = true))

/-- Ages follow the dispatch numbers, below the counter unless it stands at
zero. -/
structure Ordered (t : NumberedQueue) : Prop where
  below : ∀ j, t.Holds j → t.number j < t.dispatched
  injective : ∀ j k, t.Holds j → t.Holds k → t.number j = t.number k → j = k
  increasing : ∀ j k, t.Holds j → t.Holds k → t.number j < t.number k →
    t.queue.age j < t.queue.age k
  bound : t.queue.nextAge = 0 ∨
    ∀ j, t.Holds j → t.queue.age j < t.queue.nextAge.toNat

/-- A uop that takes the age zero comes first in its cycle and leaves no older
uop behind in the queue. -/
def FreshStart (q : IssueQueue) (x : IqInputs) : Prop :=
  x.flush = false → x.recoverValid = false → ∀ l,
    q.dispatchFire x.uop l = true →
    q.nextAge + BitVec.ofNat 32 (q.dispatchRank x.uop l) = 0 →
    q.dispatchRank x.uop l = 0 ∧
      ∀ j, (q.entries j).valid = true →
        IssueQueue.leaves (q.select x.wb) x.issueReady x.fallbackReady j = true

theorem ordered_reset : Ordered reset := by
  constructor
  · intro j hj
    cases hj
  · intro j k hj
    cases hj
  · intro j k hj
    cases hj
  · exact Or.inl rfl

/-- Fewer uops under the same numbers and ages stay in order. -/
theorem Ordered.subset {t t' : NumberedQueue} (ht : t.Ordered)
    (hsub : ∀ j, t'.Holds j → t.Holds j) (hnumber : t'.number = t.number)
    (hages : t'.queue.ages = t.queue.ages)
    (hnext : t'.queue.nextAge = t.queue.nextAge)
    (hcount : t'.dispatched = t.dispatched) : t'.Ordered := by
  have hage (j : IqIndex) : t'.queue.age j = t.queue.age j := by
    simp only [IssueQueue.age, hages]
  constructor
  · intro j hj
    rw [hnumber, hcount]
    exact ht.below j (hsub j hj)
  · intro j k hj hk heq
    rw [hnumber] at heq
    exact ht.injective j k (hsub j hj) (hsub k hk) heq
  · intro j k hj hk hlt
    rw [hnumber] at hlt
    rw [hage, hage]
    exact ht.increasing j k (hsub j hj) (hsub k hk) hlt
  · rw [hnext]
    rcases ht.bound with hzero | hbound
    · exact Or.inl hzero
    · refine Or.inr (fun j hj => ?_)
      rw [hage]
      exact hbound j (hsub j hj)

section Ordinary

variable {t : NumberedQueue} {x : IqInputs} (hflush : x.flush = false)
  (hrecover : x.recoverValid = false)

include hflush hrecover

/-- The queue after an edge without flush or recovery. -/
theorem step_queue : (t.step x).queue =
    t.queue.stepNormal x.uop x.wb x.issueReady x.fallbackReady := by
  simp [step, IssueQueue.step, hflush, hrecover]

theorem step_dispatched : (t.step x).dispatched =
    t.dispatched + t.queue.dispatchCount x.uop := by
  simp [step, hflush, hrecover]

theorem step_nextAge : (t.step x).queue.nextAge =
    t.queue.nextAge + BitVec.ofNat 32 (t.queue.dispatchCount x.uop) := by
  rw [step_queue hflush hrecover]
  rfl

/-- The number and the age a dispatched uop takes. -/
theorem step_dispatchSlot {l : Lane} {j : IqIndex}
    (hslot : t.queue.dispatchSlot x.uop l = some j) :
    (t.step x).number j = t.dispatched + t.queue.dispatchRank x.uop l ∧
      (t.step x).queue.ages j = t.queue.nextAge +
        BitVec.ofNat 32 (t.queue.dispatchRank x.uop l) := by
  constructor
  · simp only [step, hflush, hrecover, Bool.or_self, Bool.false_eq_true,
      if_false]
    exact t.queue.dispatchLanes_slot x.uop
      (fun l => t.dispatched + t.queue.dispatchRank x.uop l) t.number hslot
  · rw [step_queue hflush hrecover]
    have hzero : t.queue.nextAge = t.queue.nextAge +
        BitVec.ofNat 32 (t.queue.dispatchRank x.uop 0) := by
      simp [IssueQueue.dispatchRank]
    simp only [IssueQueue.stepNormal]
    nth_rewrite 2 [hzero]
    exact t.queue.dispatchLanes_slot x.uop (fun l => t.queue.nextAge +
      BitVec.ofNat 32 (t.queue.dispatchRank x.uop l)) t.queue.ages hslot

/-- A resident uop keeps its number and its age. -/
theorem step_resident {j : IqIndex} (hj : t.Holds j) :
    (t.step x).number j = t.number j ∧
      (t.step x).queue.age j = t.queue.age j := by
  constructor
  · simp only [step, hflush, hrecover, Bool.or_self, Bool.false_eq_true,
      if_false]
    exact t.queue.dispatchLanes_other x.uop
      (fun l => t.dispatched + t.queue.dispatchRank x.uop l) t.number hj
  · rw [IssueQueue.age, step_queue hflush hrecover]
    have hages := t.queue.dispatchLanes_other x.uop (fun l =>
      if l = 0 then t.queue.nextAge else t.queue.nextAge +
        BitVec.ofNat 32 (t.queue.dispatchRank x.uop 1)) t.queue.ages hj
    exact congrArg BitVec.toNat hages

/-- Where a uop held after the edge comes from. -/
theorem step_holds {j : IqIndex} (hj : (t.step x).Holds j) :
    (∃ l, t.queue.dispatchSlot x.uop l = some j) ∨
      (t.Holds j ∧ IssueQueue.leaves (t.queue.select x.wb) x.issueReady
        x.fallbackReady j = false) := by
  unfold Holds at hj
  rw [step_queue hflush hrecover] at hj
  exact t.queue.stepNormal_valid x.uop x.wb x.issueReady x.fallbackReady hj

variable (hfresh : FreshStart t.queue x)

include hfresh

/-- No age of a dispatched uop wraps. -/
theorem dispatch_no_wrap {l : Lane}
    (hfire : t.queue.dispatchFire x.uop l = true) :
    t.queue.nextAge.toNat + t.queue.dispatchRank x.uop l < 2 ^ 32 := by
  have hle := t.queue.dispatchRank_le x.uop l
  have hlt := t.queue.nextAge.isLt
  by_contra hwrap
  have hzero : t.queue.nextAge +
      BitVec.ofNat 32 (t.queue.dispatchRank x.uop l) = 0 := by
    apply BitVec.eq_of_toNat_eq
    rw [BitVec.toNat_add, BitVec.toNat_ofNat]
    change _ = 0
    omega
  have hrank := (hfresh hflush hrecover l hfire hzero).1
  omega

theorem dispatch_age {l : Lane} {j : IqIndex}
    (hslot : t.queue.dispatchSlot x.uop l = some j) :
    (t.step x).queue.age j =
      t.queue.nextAge.toNat + t.queue.dispatchRank x.uop l := by
  have hsum := dispatch_no_wrap hflush hrecover hfresh
    (t.queue.dispatchSlot_fires x.uop hslot)
  rw [IssueQueue.age, (step_dispatchSlot hflush hrecover hslot).2,
    BitVec.toNat_add, BitVec.toNat_ofNat]
  omega

/-- A uop that stays is older than every uop dispatched beside it. -/
theorem resident_age_lt (ht : t.Ordered) {l : Lane}
    (hfire : t.queue.dispatchFire x.uop l = true) {j : IqIndex}
    (hj : t.Holds j) (hstays : IssueQueue.leaves (t.queue.select x.wb)
      x.issueReady x.fallbackReady j = false) :
    t.queue.age j < t.queue.nextAge.toNat := by
  rcases ht.bound with hzero | hbound
  · obtain ⟨m, hm, hrank⟩ := t.queue.dispatchRank_zero x.uop hfire
    have hage : t.queue.nextAge +
        BitVec.ofNat 32 (t.queue.dispatchRank x.uop m) = 0 := by
      rw [hzero, hrank]
      rfl
    rw [(hfresh hflush hrecover m hm hage).2 j hj] at hstays
    cases hstays
  · exact hbound j hj

theorem Ordered.step_ordinary (ht : t.Ordered) : (t.step x).Ordered := by
  have hdispatched := step_dispatched (t := t) hflush hrecover
  constructor
  · intro j hj
    rw [hdispatched]
    rcases step_holds hflush hrecover hj with ⟨l, hslot⟩ | ⟨hold, -⟩
    · have hlt := t.queue.dispatchRank_lt_count x.uop
        (t.queue.dispatchSlot_fires x.uop hslot)
      rw [(step_dispatchSlot hflush hrecover hslot).1]
      omega
    · have := ht.below j hold
      rw [(step_resident hflush hrecover hold).1]
      omega
  · intro j k hj hk heq
    rcases step_holds hflush hrecover hj with ⟨l, hl⟩ | ⟨hjold, -⟩ <;>
      rcases step_holds hflush hrecover hk with ⟨m, hm⟩ | ⟨hkold, -⟩
    · rw [(step_dispatchSlot hflush hrecover hl).1,
        (step_dispatchSlot hflush hrecover hm).1] at heq
      have hlm := t.queue.dispatchRank_injective x.uop
        (t.queue.dispatchSlot_fires x.uop hl)
        (t.queue.dispatchSlot_fires x.uop hm) (by omega)
      subst hlm
      exact Option.some.inj (hl.symm.trans hm)
    · have := ht.below k hkold
      rw [(step_dispatchSlot hflush hrecover hl).1,
        (step_resident hflush hrecover hkold).1] at heq
      omega
    · have := ht.below j hjold
      rw [(step_dispatchSlot hflush hrecover hm).1,
        (step_resident hflush hrecover hjold).1] at heq
      omega
    · rw [(step_resident hflush hrecover hjold).1,
        (step_resident hflush hrecover hkold).1] at heq
      exact ht.injective j k hjold hkold heq
  · intro j k hj hk hlt
    rcases step_holds hflush hrecover hj with ⟨l, hl⟩ | ⟨hjold, hjstays⟩ <;>
      rcases step_holds hflush hrecover hk with ⟨m, hm⟩ | ⟨hkold, -⟩
    · rw [(step_dispatchSlot hflush hrecover hl).1,
        (step_dispatchSlot hflush hrecover hm).1] at hlt
      rw [dispatch_age hflush hrecover hfresh hl,
        dispatch_age hflush hrecover hfresh hm]
      omega
    · have := ht.below k hkold
      rw [(step_dispatchSlot hflush hrecover hl).1,
        (step_resident hflush hrecover hkold).1] at hlt
      omega
    · have hlast := resident_age_lt hflush hrecover hfresh ht
        (t.queue.dispatchSlot_fires x.uop hm) hjold hjstays
      rw [(step_resident hflush hrecover hjold).2,
        dispatch_age hflush hrecover hfresh hm]
      omega
    · rw [(step_resident hflush hrecover hjold).1,
        (step_resident hflush hrecover hkold).1] at hlt
      rw [(step_resident hflush hrecover hjold).2,
        (step_resident hflush hrecover hkold).2]
      exact ht.increasing j k hjold hkold hlt
  · rw [step_nextAge hflush hrecover]
    rcases Nat.eq_zero_or_pos (t.queue.dispatchCount x.uop) with hcount | hpos
    · -- Nothing is dispatched and the counter stands.
      rw [hcount, BitVec.add_zero]
      rcases ht.bound with hzero | hbound
      · exact Or.inl hzero
      · refine Or.inr (fun j hj => ?_)
        rcases step_holds hflush hrecover hj with ⟨l, hslot⟩ | ⟨hold, -⟩
        · have := t.queue.dispatchRank_lt_count x.uop
            (t.queue.dispatchSlot_fires x.uop hslot)
          omega
        · rw [(step_resident hflush hrecover hold).2]
          exact hbound j hold
    · obtain ⟨last, hlast, hrank⟩ := t.queue.dispatchRank_last x.uop hpos
      have hsum := dispatch_no_wrap hflush hrecover hfresh hlast
      by_cases hfull : t.queue.nextAge.toNat +
          t.queue.dispatchCount x.uop = 2 ^ 32
      · left
        apply BitVec.eq_of_toNat_eq
        rw [BitVec.toNat_add, BitVec.toNat_ofNat]
        change _ = 0
        omega
      · refine Or.inr (fun j hj => ?_)
        rw [BitVec.toNat_add, BitVec.toNat_ofNat]
        rcases step_holds hflush hrecover hj with ⟨l, hslot⟩ | ⟨hold, hstays⟩
        · have := t.queue.dispatchRank_lt_count x.uop
            (t.queue.dispatchSlot_fires x.uop hslot)
          rw [dispatch_age hflush hrecover hfresh hslot]
          omega
        · have := resident_age_lt hflush hrecover hfresh ht hlast hold hstays
          rw [(step_resident hflush hrecover hold).2]
          omega

end Ordinary

/-- One edge of any kind. -/
theorem Ordered.step {t : NumberedQueue} {x : IqInputs} (ht : t.Ordered)
    (hfresh : FreshStart t.queue x) : (t.step x).Ordered := by
  cases hflush : x.flush with
  | true =>
      have hqueue : (t.step x).queue = IssueQueue.reset := by
        simp [NumberedQueue.step, IssueQueue.step, hflush]
      have hnone (j : IqIndex) : ¬(t.step x).Holds j := by
        rw [Holds, hqueue]
        exact Bool.false_ne_true
      constructor
      · exact fun j hj => absurd hj (hnone j)
      · exact fun j _ hj => absurd hj (hnone j)
      · exact fun j _ hj => absurd hj (hnone j)
      · exact Or.inl (by rw [hqueue]; rfl)
  | false =>
      cases hrecover : x.recoverValid with
      | true =>
          have hqueue : (t.step x).queue = t.queue.stepRecover x.mask x.wb
              x.issueReady x.fallbackReady := by
            simp [NumberedQueue.step, IssueQueue.step, hflush, hrecover]
          apply ht.subset
          · intro j hj
            rw [Holds, hqueue] at hj
            exact (t.queue.stepRecover_valid x.mask x.wb x.issueReady
              x.fallbackReady hj).1
          · simp [NumberedQueue.step, hflush, hrecover]
          · rw [hqueue]
            rfl
          · rw [hqueue]
            rfl
          · simp [NumberedQueue.step, hflush, hrecover]
      | false => exact ht.step_ordinary hflush hrecover hfresh

/-- Every step of the run starts the ages afresh only behind an empty queue. -/
def FreshRun (inputs : List IqInputs) : Prop :=
  ∀ before x after, inputs = before ++ x :: after →
    FreshStart (run before).queue x

theorem run_append (before : List IqInputs) (x : IqInputs) :
    run (before ++ [x]) = (run before).step x := by
  simp [run, List.foldl_append]

theorem FreshRun.ordered {inputs : List IqInputs} (h : FreshRun inputs) :
    (run inputs).Ordered := by
  have hlegal : Run.Legal step reset (fun t x => FreshStart t.queue x)
      inputs := h
  apply hlegal.invariant ordered_reset
  intro t x ht hx
  exact ht.step hx

/-- The choice is the candidate with the lowest number, if there is one. -/
def Oldest (t : NumberedQueue) (candidate : IqIndex → Bool) :
    Option IqIndex → Prop
  | none => ∀ k, candidate k = false
  | some j => candidate j = true ∧
      ∀ k, candidate k = true → k ≠ j → t.number j < t.number k

theorem Ordered.oldest {t : NumberedQueue} (ht : t.Ordered)
    {candidate : IqIndex → Bool}
    (hholds : ∀ j, candidate j = true → t.Holds j) :
    t.Oldest candidate (t.queue.selectOldest candidate) := by
  cases hchoice : t.queue.selectOldest candidate with
  | none => exact t.queue.selectOldest_none hchoice
  | some j =>
      have hj := t.queue.selectOldest_candidate hchoice
      refine ⟨hj, ?_⟩
      intro k hk hne
      have hage := t.queue.selectOldest_le hchoice hk
      rcases Nat.lt_trichotomy (t.number j) (t.number k) with hlt | heq | hgt
      · exact hlt
      · exact absurd (ht.injective j k (hholds j hj) (hholds k hk) heq).symm hne
      · have := ht.increasing k j (hholds k hk) (hholds j hj) hgt
        omega

/-- In every run that never restarts the ages behind an older uop, the stored
ages increase in program order, and each port offers the oldest entry of its
kind. -/
theorem oldest_first {inputs : List IqInputs} (h : FreshRun inputs) :
    (∀ j k, (run inputs).Holds j → (run inputs).Holds k →
      (run inputs).number j < (run inputs).number k →
      (run inputs).queue.ages j < (run inputs).queue.ages k) ∧
    ∀ wb : Lane → Writeback,
      ((∃ k, (run inputs).queue.memoryCandidate wb k = true) →
        (run inputs).Oldest ((run inputs).queue.memoryCandidate wb)
          ((run inputs).queue.select wb).port0) ∧
      (run inputs).Oldest ((run inputs).queue.integerCandidate wb)
        ((run inputs).queue.select wb).port1 ∧
      (run inputs).Oldest ((run inputs).queue.fallbackCandidate wb)
        ((run inputs).queue.select wb).fallback := by
  have hordered := h.ordered
  generalize run inputs = t at hordered ⊢
  refine ⟨hordered.increasing, ?_⟩
  intro wb
  have hready {j : IqIndex} (h : IssueQueue.readyEntry wb
      (t.queue.entries j) = true) : t.Holds j :=
    IssueQueue.readyEntry_valid wb h
  refine ⟨?_, ?_, ?_⟩
  · rintro ⟨k, hk⟩
    rw [t.queue.select_port0_eq wb hk]
    apply hordered.oldest
    intro j hj
    simp only [IssueQueue.memoryCandidate, Bool.and_eq_true] at hj
    exact hready hj.1
  · rw [t.queue.select_port1_eq wb]
    apply hordered.oldest
    intro j hj
    simp only [IssueQueue.integerCandidate, Bool.and_eq_true] at hj
    exact hready hj.1
  · rw [t.queue.select_fallback_eq wb]
    apply hordered.oldest
    intro j hj
    simp only [IssueQueue.fallbackCandidate, Bool.and_eq_true] at hj
    exact hready hj.1.1.1

section Wrap

/-! A queue that dispatches and issues one uop after another carries the age
counter to its last value; the next two uops are then out of order. -/

/-- An integer uop without sources. -/
def readyUop : Uop := { valid := true }

/-- Dispatch in lane 0, and in lane 1 too when `both`; issue nothing. -/
def dispatchInput (both : Bool) : IqInputs where
  flush := false
  recoverValid := false
  mask := fun _ => false
  uop := fun l => if l = 0 ∨ both then readyUop else default
  wb := fun _ => default
  issueReady := fun _ => false
  fallbackReady := false

/-- Accept every candidate. -/
def issueInput : IqInputs where
  flush := false
  recoverValid := false
  mask := fun _ => false
  uop := fun _ => default
  wb := fun _ => default
  issueReady := fun _ => true
  fallbackReady := true

/-- The slot of an empty queue that a lane goes to. -/
def slotOf : Lane → IqIndex
  | 0 => 0
  | 1 => 1

theorem freshRun_pair : FreshRun [dispatchInput true] := by
  intro before x after heq
  have hnil : before = [] := by
    have := congrArg List.length heq
    simp only [List.length_append, List.length_cons, List.length_nil] at this
    exact List.length_eq_zero_iff.mp (by omega)
  subst hnil
  obtain ⟨rfl, -⟩ := List.cons.inj heq
  intro _ _ l _ hage
  match l, hage with
  | 0, _ => exact ⟨rfl, fun j hj => absurd hj Bool.false_ne_true⟩
  | 1, hage => exact absurd hage (by decide)

theorem oldest_first_pair : FreshRun [dispatchInput true] ∧
    (run [dispatchInput true]).queue.ages 0 <
      (run [dispatchInput true]).queue.ages 1 :=
  ⟨freshRun_pair, (oldest_first freshRun_pair).1 0 1 (by decide) (by decide)
    (by decide)⟩

def Idle (t : NumberedQueue) : Prop := ∀ j, ¬t.Holds j

variable {t : NumberedQueue}

theorem Idle.freeSlots (ht : t.Idle) :
    t.queue.freeSlots = List.finRange 16 := by
  apply List.filter_eq_self.mpr
  intro j _
  have := ht j
  simp only [Holds, Bool.not_eq_true] at this
  rw [this]
  rfl

/-- Dispatched lanes fill the first slots of an empty queue. -/
theorem Idle.dispatchSlot (ht : t.Idle) (both : Bool) (l : Lane) :
    t.queue.dispatchSlot (dispatchInput both).uop l =
      if l = 0 ∨ both = true then some (slotOf l) else none := by
  unfold IssueQueue.dispatchSlot IssueQueue.dispatchRank
    IssueQueue.dispatchFire IssueQueue.dispatchReady
  rw [ht.freeSlots]
  revert l both
  decide

theorem Idle.dispatchCount (ht : t.Idle) (both : Bool) :
    t.queue.dispatchCount (dispatchInput both).uop = 1 + both.toNat := by
  unfold IssueQueue.dispatchCount IssueQueue.dispatchFire
    IssueQueue.dispatchReady
  rw [ht.freeSlots]
  revert both
  decide

/-- What an empty queue holds after a dispatch. -/
theorem Idle.holds_dispatch (ht : t.Idle) {both : Bool} {j : IqIndex}
    (hj : (t.step (dispatchInput both)).Holds j) :
    ∃ l : Lane, (l = 0 ∨ both = true) ∧ j = slotOf l := by
  rcases step_holds rfl rfl hj with ⟨l, hslot⟩ | ⟨hold, -⟩
  · rw [ht.dispatchSlot both l] at hslot
    split at hslot
    · next hl => exact ⟨l, hl, (Option.some.inj hslot).symm⟩
    · cases hslot
  · exact absurd hold (ht j)

/-- The dispatched entries are candidates of port 1. -/
theorem Idle.candidate_dispatch (ht : t.Idle) {both : Bool} {l : Lane}
    (hl : l = 0 ∨ both = true) :
    (t.step (dispatchInput both)).queue.integerCandidate (fun _ => default)
      (slotOf l) = true := by
  have hslot := ht.dispatchSlot both l
  rw [if_pos hl] at hslot
  have hentry : (t.step (dispatchInput both)).queue.entries
      (slotOf l) =
      IssueQueue.dispatchEntry (fun _ => default) readyUop := by
    rw [step_queue rfl rfl, t.queue.stepNormal_dispatched _ _ _ _ hslot]
    simp [dispatchInput, hl]
  rw [IssueQueue.integerCandidate, IssueQueue.isClass, IssueQueue.isClass,
    hentry]
  decide

/-- Port 1 offers one of the dispatched entries. -/
theorem Idle.port1_dispatch (ht : t.Idle) (both : Bool) :
    ∃ l : Lane, (l = 0 ∨ both = true) ∧
      ((t.step (dispatchInput both)).queue.select (fun _ => default)).port1 =
        some (slotOf l) := by
  rw [IssueQueue.select_port1_eq]
  cases hchoice : (t.step (dispatchInput both)).queue.selectOldest
      ((t.step (dispatchInput both)).queue.integerCandidate
        (fun _ => default)) with
  | none =>
      have hno := IssueQueue.selectOldest_none _ hchoice
        (slotOf 0)
      rw [ht.candidate_dispatch (Or.inl rfl)] at hno
      cases hno
  | some j =>
      have hj := IssueQueue.selectOldest_candidate _ hchoice
      simp only [IssueQueue.integerCandidate, Bool.and_eq_true] at hj
      obtain ⟨l, hl, rfl⟩ := ht.holds_dispatch
        (IssueQueue.readyEntry_valid _ hj.1)
      exact ⟨l, hl, rfl⟩

/-- One dispatch and its issue leave the queue empty and the counter one
further. -/
theorem Idle.pump (ht : t.Idle) :
    ((t.step (dispatchInput false)).step issueInput).Idle ∧
      ((t.step (dispatchInput false)).step issueInput).queue.nextAge =
        t.queue.nextAge + 1 := by
  have hquiet : ∀ l, (t.step (dispatchInput false)).queue.dispatchFire
      issueInput.uop l = false := by
    intro l
    rfl
  constructor
  · intro j hj
    rcases step_holds rfl rfl hj with ⟨l, hslot⟩ | ⟨hold, hstays⟩
    · have hfire := IssueQueue.dispatchSlot_fires _ _ hslot
      rw [hquiet l] at hfire
      cases hfire
    · obtain ⟨l, hl, rfl⟩ := ht.holds_dispatch hold
      obtain ⟨m, hm, hport⟩ := ht.port1_dispatch false
      obtain rfl : l = 0 := by simpa using hl
      obtain rfl : m = 0 := by simpa using hm
      have hleaves : IssueQueue.leaves
          ((t.step (dispatchInput false)).queue.select issueInput.wb)
          issueInput.issueReady issueInput.fallbackReady
          (slotOf 0) = true := by
        have hport' : ((t.step (dispatchInput false)).queue.select
            issueInput.wb).port1 = some (slotOf 0) := hport
        rw [IssueQueue.leaves, hport']
        simp [issueInput]
      rw [hleaves] at hstays
      cases hstays
  · rw [step_nextAge rfl rfl, step_nextAge rfl rfl, ht.dispatchCount]
    simp [IssueQueue.dispatchCount, hquiet]

/-- `n` uops through an otherwise empty queue. -/
def pumped (n : Nat) : List IqInputs :=
  (List.replicate n [dispatchInput false, issueInput]).flatten

theorem run_pumped (n : Nat) : (run (pumped n)).Idle ∧
    (run (pumped n)).queue.nextAge = BitVec.ofNat 32 n := by
  induction n with
  | zero => exact ⟨fun j hj => Bool.false_ne_true hj, rfl⟩
  | succ n ih =>
      have hrun : run (pumped (n + 1)) =
          ((run (pumped n)).step (dispatchInput false)).step issueInput := by
        rw [pumped, List.replicate_succ', List.flatten_append]
        simp [run, pumped]
      obtain ⟨hidle, hnext⟩ := ih
      rw [hrun]
      refine ⟨hidle.pump.1, ?_⟩
      rw [hidle.pump.2, hnext, BitVec.ofNat_add]
      rfl

/-- After `2^32 - 1` uops the next two are dispatched with ages `2^32 - 1` and
zero: the older one has the larger age and port 1 offers the younger. -/
theorem ages_wrap :
    let t := run (pumped (2 ^ 32 - 1) ++ [dispatchInput true])
    t.Holds 0 ∧ t.Holds 1 ∧ t.number 0 < t.number 1 ∧
      t.queue.ages 1 < t.queue.ages 0 ∧
      t.queue.integerCandidate (fun _ => default) 0 = true ∧
      (t.queue.select (fun _ => default)).port1 = some 1 := by
  obtain ⟨hidle, hnext⟩ := run_pumped (2 ^ 32 - 1)
  rw [run_append]
  generalize run (pumped (2 ^ 32 - 1)) = t at hidle hnext ⊢
  have hslot (l : Lane) : t.queue.dispatchSlot (dispatchInput true).uop l =
      some (slotOf l) := by
    rw [hidle.dispatchSlot true l, if_pos (Or.inr rfl)]
  have hcand (l : Lane) : (t.step (dispatchInput true)).queue.integerCandidate
      (fun _ => default) (slotOf l) = true :=
    hidle.candidate_dispatch (Or.inr rfl)
  have hholds (l : Lane) : (t.step (dispatchInput true)).Holds
      (slotOf l) := by
    have h := hcand l
    simp only [IssueQueue.integerCandidate, Bool.and_eq_true] at h
    exact IssueQueue.readyEntry_valid _ h.1
  have hrank : t.queue.dispatchRank (dispatchInput true).uop 1 = 1 := by
    have := IssueQueue.dispatchSlot_fires _ _ (hslot 0)
    simp [IssueQueue.dispatchRank, this]
  have hslot0 := step_dispatchSlot (t := t) (x := dispatchInput true) rfl rfl
    (hslot 0)
  have hslot1 := step_dispatchSlot (t := t) (x := dispatchInput true) rfl rfl
    (hslot 1)
  rw [hnext, hrank] at hslot1
  rw [hnext] at hslot0
  have hages : (t.step (dispatchInput true)).queue.ages 1 <
      (t.step (dispatchInput true)).queue.ages 0 := by
    change (t.step (dispatchInput true)).queue.ages (slotOf 1) <
      (t.step (dispatchInput true)).queue.ages (slotOf 0)
    rw [hslot0.2, hslot1.2]
    exact (by decide : BitVec.ofNat 32 (2 ^ 32 - 1) + BitVec.ofNat 32 1 <
      BitVec.ofNat 32 (2 ^ 32 - 1) + BitVec.ofNat 32 0)
  refine ⟨hholds 0, hholds 1, ?_, hages, hcand 0, ?_⟩
  · change (t.step (dispatchInput true)).number (slotOf 0) <
      (t.step (dispatchInput true)).number (slotOf 1)
    rw [hslot0.1, hslot1.1]
    change t.dispatched + 0 < t.dispatched + 1
    omega
  · obtain ⟨l, -, hport⟩ := hidle.port1_dispatch true
    rcases lane_cases l with rfl | rfl
    · -- The younger entry has the smaller age.
      rw [IssueQueue.select_port1_eq] at hport
      have hle := IssueQueue.selectOldest_le _ hport (hcand 1)
      exact absurd hages (Nat.not_lt.mpr hle)
    · exact hport

end Wrap

end NumberedQueue

end OoOCore
