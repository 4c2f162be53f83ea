/-
The queue law of the reorder buffer over whole runs.  Every allocation is
numbered; the slots remember the number of the entry they hold, and the history
records which allocations were completed, squashed and retired.
-/
import OoOCore.Lib.Run
import OoOCore.RobWindow

namespace OoOCore

/-- The inputs of one cycle of `ReorderBuffer`.  On a recovery `branch.tag` is
`recoverTag_i`, otherwise `branchResolveTag_i`. -/
structure RobInputs where
  flush : Bool
  recoverValid : Bool
  allocValid : Lane → Bool
  allocEntry : Lane → RobEntry
  complete : Lane → Completion
  branch : BranchResolve
  commitReady : Lane → Bool

/-- `commitTag_o`. -/
def ReorderBuffer.commitTag (r : ReorderBuffer) (l : Lane) : RobTag :=
  addPtr r.headPtr l.val

/-- The buffer beside the history of its allocations. -/
structure LoggedRob where
  rob : ReorderBuffer
  occupant : RobTag → Option Nat
  allocated : List RobEntry
  completed : Nat → Bool
  squashed : Nat → Bool
  retired : List (Nat × RobEntry)

namespace LoggedRob

def reset : LoggedRob where
  rob := ReorderBuffer.reset
  occupant := fun _ => none
  allocated := []
  completed := fun _ => false
  squashed := fun _ => false
  retired := []

section Edge

variable (t : LoggedRob) (x : RobInputs)

/-- An edge that neither flushes nor recovers. -/
def ordinary : Bool := !x.flush && !x.recoverValid

/-- The entries the edge allocates, in order. -/
def allocating : List RobEntry :=
  if ordinary x then (t.rob.allocLanes x.allocValid).map x.allocEntry else []

/-- The number an accepted lane takes. -/
def allocNumber : Lane → Nat
  | 0 => t.allocated.length
  | 1 => t.allocated.length + (t.rob.allocFire x.allocValid 0).toNat

/-- The entries whose commit handshake completes, in order. -/
def retiring : List (Nat × RobEntry) :=
  ([0, 1].take (t.rob.commitAccepted x.commitReady)).filterMap fun l =>
    (t.occupant (t.rob.commitTag l)).map fun n => (n, t.rob.commitEntry l)

/-- A completion lane names the slot of the allocation, or the recovery is its
own. -/
def completing (n : Nat) : Bool :=
  decide (∃ l, (x.complete l).valid = true ∧
      t.occupant (x.complete l).robTag = some n) ||
    (x.recoverValid && decide (t.occupant x.branch.tag = some n))

/-- A flush squashes what is not retired, a recovery what was allocated after
its branch. -/
def squashing (n : Nat) : Bool :=
  decide (n < t.allocated.length) &&
    (if x.flush then decide (n ∉ (t.retired ++ t.retiring x).map Prod.fst)
    else x.recoverValid && (t.occupant x.branch.tag).any fun k => decide (k < n))

/-- Who holds the slots after the edge. -/
def occupied : RobTag → Option Nat :=
  if x.flush then fun _ => none
  else if x.recoverValid then fun tag =>
    (t.occupant tag).filter fun n => !t.squashing x n
  else (t.rob.ports x.allocValid x.commitReady).entries none
    (fun l => some (t.allocNumber x l)) t.occupant

def step : LoggedRob where
  rob := t.rob.step x.flush x.recoverValid x.allocValid x.allocEntry x.complete
    x.branch x.commitReady
  occupant := t.occupied x
  allocated := t.allocated ++ t.allocating x
  completed := fun n => t.completed n || t.completing x n
  squashed := fun n => t.squashed n || t.squashing x n
  retired := t.retired ++ t.retiring x

/-- A recovery names a live entry, and nothing commits beside it. -/
def Legal : Prop :=
  x.flush = false → x.recoverValid = true →
    (t.rob.entries x.branch.tag).valid = true ∧
      t.rob.commitAccepted x.commitReady = 0

end Edge

def run (inputs : List RobInputs) : LoggedRob := inputs.foldl step reset

/-- Every recovery of the run is legal where it happens. -/
def LegalRun (inputs : List RobInputs) : Prop :=
  Run.Legal step reset Legal inputs

/-- The numbers of the live entries, oldest first. -/
def live (t : LoggedRob) : List Nat := t.rob.window.filterMap t.occupant

/-- The allocations never squashed, in allocation order. -/
def unsquashed (t : LoggedRob) : List Nat :=
  (List.range t.allocated.length).filter fun n => !t.squashed n

/-- The entry is the numbered allocation as far as dispatch fixes it. -/
def Allocates (t : LoggedRob) (n : Nat) (e : RobEntry) : Prop :=
  ∃ given, t.allocated[n]? = some given ∧ e.atDispatch = given.atDispatch

/-- The history accounts for every slot and every allocation. -/
structure Lawful (t : LoggedRob) : Prop where
  wf : t.rob.Wf
  occupied_iff : ∀ tag, (t.occupant tag).isSome = true ↔ tag ∈ t.rob.window
  ordered : t.retired.map Prod.fst ++ t.live = t.unsquashed
  squashed_lt : ∀ n, t.squashed n = true → n < t.allocated.length
  completed_lt : ∀ n, t.completed n = true → n < t.allocated.length
  complete_eq : ∀ tag n, t.occupant tag = some n →
    (t.rob.entries tag).complete = t.completed n
  holds : ∀ tag n, t.occupant tag = some n →
    t.Allocates n (t.rob.entries tag)
  settled : ∀ p ∈ t.retired, t.completed p.1 = true ∧ t.Allocates p.1 p.2

theorem lawful_reset : Lawful reset where
  wf := ReorderBuffer.reset_wf
  occupied_iff := by
    intro tag
    simp [reset]
  ordered := rfl
  squashed_lt := by
    intro n hn
    cases hn
  completed_lt := by
    intro n hn
    cases hn
  complete_eq := by
    intro tag n hn
    cases hn
  holds := by
    intro tag n hn
    cases hn
  settled := by
    intro p hp
    cases hp

section Live

variable {t : LoggedRob}

theorem unsquashed_pairwise : t.unsquashed.Pairwise (· < ·) :=
  List.Pairwise.filter _ List.pairwise_lt_range

theorem Lawful.pairwise (h : t.Lawful) :
    (t.retired.map Prod.fst ++ t.live).Pairwise (· < ·) := by
  rw [h.ordered]
  exact unsquashed_pairwise

theorem Lawful.mem_live (h : t.Lawful) {tag : RobTag} {n : Nat}
    (hn : t.occupant tag = some n) : n ∈ t.live :=
  List.mem_filterMap.mpr ⟨tag, (h.occupied_iff tag).mp (by simp [hn]), hn⟩

theorem Lawful.mem_unsquashed (h : t.Lawful) {tag : RobTag} {n : Nat}
    (hn : t.occupant tag = some n) :
    n < t.allocated.length ∧ t.squashed n = false := by
  have hmem : n ∈ t.unsquashed := by
    rw [← h.ordered]
    exact List.mem_append_right _ (h.mem_live hn)
  simpa [unsquashed] using hmem

/-- The live numbers increase from the head to the tail. -/
theorem Lawful.number_lt (h : t.Lawful) {tag tag' : RobTag} {n n' : Nat}
    (hn : t.occupant tag = some n) (hn' : t.occupant tag' = some n')
    (hage : t.rob.age tag < t.rob.age tag') : n < n' := by
  have hlive : t.live.Pairwise (· < ·) := (List.pairwise_append.mp h.pairwise).2.1
  have hwindow := List.pairwise_filterMap.mp hlive
  have hmem := (h.wf.mem_window tag).mp ((h.occupied_iff tag).mp (by simp [hn]))
  have hmem' :=
    (h.wf.mem_window tag').mp ((h.occupied_iff tag').mp (by simp [hn']))
  have hlen := ReorderBuffer.window_length (r := t.rob)
  have hget := List.pairwise_iff_getElem.mp hwindow (t.rob.age tag)
    (t.rob.age tag') (by omega) (by omega) hage
  have hfst := List.getElem?_eq_some_iff.mp (ReorderBuffer.getElem?_age hmem)
  have hsnd := List.getElem?_eq_some_iff.mp (ReorderBuffer.getElem?_age hmem')
  apply hget
  · rw [hfst.2, hn]
  · rw [hsnd.2, hn']

/-- One slot holds an allocation. -/
theorem Lawful.occupant_injective (h : t.Lawful) {tag tag' : RobTag} {n : Nat}
    (hn : t.occupant tag = some n) (hn' : t.occupant tag' = some n) :
    tag = tag' := by
  rcases Nat.lt_trichotomy (t.rob.age tag) (t.rob.age tag') with hlt | heq | hgt
  · exact absurd (h.number_lt hn hn' hlt) (Nat.lt_irrefl n)
  · exact Ring.dist_injective _ heq
  · exact absurd (h.number_lt hn' hn hgt) (Nat.lt_irrefl n)

theorem Lawful.number_lt_iff (h : t.Lawful) {tag tag' : RobTag} {n n' : Nat}
    (hn : t.occupant tag = some n) (hn' : t.occupant tag' = some n') :
    n < n' ↔ t.rob.age tag < t.rob.age tag' := by
  constructor
  · intro hlt
    rcases Nat.lt_trichotomy (t.rob.age tag) (t.rob.age tag') with h1 | h1 | h1
    · exact h1
    · have heq := Ring.dist_injective _ h1
      subst heq
      rw [hn] at hn'
      cases hn'
      exact absurd hlt (Nat.lt_irrefl n)
    · have := h.number_lt hn' hn h1
      omega
  · exact h.number_lt hn hn'

/-- The mask is the set of entries allocated after the branch. -/
theorem Lawful.mask_iff (h : t.Lawful) {tag : RobTag} {k : Nat}
    (hk : t.occupant tag = some k) (tag' : RobTag) :
    t.rob.recoverYoungerMask true tag tag' = true ↔
      ∃ n, t.occupant tag' = some n ∧ k < n := by
  have hlive : tag ∈ t.rob.window := (h.occupied_iff tag).mp (by simp [hk])
  rw [h.wf.recoverYoungerMask_eq hlive, ← h.occupied_iff, Option.isSome_iff_exists]
  constructor
  · rintro ⟨⟨n, hn⟩, hage⟩
    exact ⟨n, hn, (h.number_lt_iff hk hn).mpr hage⟩
  · rintro ⟨n, hn, hlt⟩
    exact ⟨⟨n, hn⟩, (h.number_lt_iff hk hn).mp hlt⟩

end Live

section Retiring

variable {t : LoggedRob} {x : RobInputs}

/-- A lane that the handshake accepts shows a complete entry. -/
theorem commitValid_of_accepted {r : ReorderBuffer} {commitReady : Lane → Bool}
    {l : Lane} (hl : l ∈ [0, 1].take (r.commitAccepted commitReady)) :
    r.commitValid l = true := by
  unfold ReorderBuffer.commitAccepted at hl
  split at hl
  · next h0 =>
      rw [Bool.and_eq_true] at h0
      split at hl
      · next h1 =>
          rw [Bool.and_eq_true] at h1
          match l with
          | 0 => exact h0.1
          | 1 => exact h1.1
      · simp only [List.take_succ_cons, List.take_zero,
          List.mem_singleton] at hl
        subst hl
        exact h0.1
  · simp at hl

theorem commitEntry_of_valid {r : ReorderBuffer} {l : Lane}
    (hl : r.commitValid l = true) :
    r.commitEntry l = r.entries (r.commitTag l) ∧
      (r.entries (r.commitTag l)).complete = true := by
  have hcomplete : r.laneComplete l = true := by
    match l, hl with
    | 0, hl => exact hl
    | 1, hl => exact (Bool.and_eq_true _ _ ▸ hl).2
  rw [ReorderBuffer.laneComplete, Bool.and_eq_true] at hcomplete
  exact ⟨if_pos hl, hcomplete.2⟩

/-- Whatever retires was completed before the edge. -/
theorem Lawful.retiring_settled (h : t.Lawful) {p : Nat × RobEntry}
    (hp : p ∈ t.retiring x) :
    t.completed p.1 = true ∧ t.Allocates p.1 p.2 := by
  obtain ⟨l, hl, hsome⟩ := List.mem_filterMap.mp hp
  obtain ⟨n, hn, rfl⟩ := Option.map_eq_some_iff.mp hsome
  obtain ⟨hentry, hcomplete⟩ :=
    commitEntry_of_valid (commitValid_of_accepted hl)
  rw [hentry, ← h.complete_eq _ n hn]
  exact ⟨hcomplete, h.holds _ n hn⟩

/-- The handshakes take the oldest live entries. -/
theorem retiring_numbers : (t.retiring x).map Prod.fst =
    (t.rob.window.take (t.rob.commitAccepted x.commitReady)).filterMap
      t.occupant := by
  obtain ⟨hcount, htwo⟩ := t.rob.commitAccepted_le x.commitReady
  have hlanes : ∀ a ≤ 2, ([0, 1].take a).map t.rob.commitTag =
      Ring.slots t.rob.headPtr a := by
    intro a ha
    match a, ha with
    | 0, _ => rfl
    | 1, _ => simp [Ring.slots_succ, ReorderBuffer.commitTag, addPtr]
    | 2, _ => simp [Ring.slots_succ, ReorderBuffer.commitTag, addPtr]
  rw [ReorderBuffer.window, Ring.slots_take _ hcount, ← hlanes _ htwo,
    List.filterMap_map, retiring, List.map_filterMap]
  apply List.filterMap_congr
  intro l _
  cases hl : t.occupant (t.rob.commitTag l) with
  | none => simp [hl]
  | some n => simp [hl]

/-- What has retired after the edge, and what is left of the live entries. -/
theorem Lawful.retired_append (h : t.Lawful) :
    (t.retired ++ t.retiring x).map Prod.fst ++
        (t.rob.window.drop (t.rob.commitAccepted x.commitReady)).filterMap
          t.occupant = t.unsquashed := by
  rw [← h.ordered, List.map_append, retiring_numbers, List.append_assoc,
    ← List.filterMap_append, List.take_append_drop]
  rfl

theorem Allocates.mono {n : Nat} {e : RobEntry} (h : t.Allocates n e) :
    (t.step x).Allocates n e := by
  obtain ⟨given, hgiven, heq⟩ := h
  refine ⟨given, ?_, heq⟩
  obtain ⟨hlt, -⟩ := List.getElem?_eq_some_iff.mp hgiven
  change (t.allocated ++ t.allocating x)[n]? = some given
  rw [List.getElem?_append_left hlt, hgiven]

/-- The retired entries stay settled over every edge. -/
theorem Lawful.step_settled (h : t.Lawful) {p : Nat × RobEntry}
    (hp : p ∈ (t.step x).retired) :
    (t.step x).completed p.1 = true ∧ (t.step x).Allocates p.1 p.2 := by
  have hold : t.completed p.1 = true ∧ t.Allocates p.1 p.2 := by
    rcases List.mem_append.mp hp with hp | hp
    · exact h.settled p hp
    · exact h.retiring_settled hp
  refine ⟨?_, hold.2.mono⟩
  change (t.completed p.1 || t.completing x p.1) = true
  rw [hold.1, Bool.true_or]

theorem Lawful.completing_lt (h : t.Lawful) {n : Nat}
    (hn : t.completing x n = true) : n < t.allocated.length := by
  simp only [completing, Bool.or_eq_true, Bool.and_eq_true,
    decide_eq_true_eq] at hn
  rcases hn with ⟨l, -, hl⟩ | ⟨-, hb⟩
  · exact (h.mem_unsquashed hl).1
  · exact (h.mem_unsquashed hb).1

theorem squashing_lt {n : Nat} (hn : t.squashing x n = true) :
    n < t.allocated.length := by
  simp only [squashing, Bool.and_eq_true, decide_eq_true_eq] at hn
  exact hn.1

theorem Lawful.step_completed_lt (h : t.Lawful) {n : Nat}
    (hn : (t.step x).completed n = true) :
    n < (t.step x).allocated.length := by
  have hlt : n < t.allocated.length := by
    rcases (Bool.or_eq_true _ _).mp hn with hn | hn
    · exact h.completed_lt n hn
    · exact h.completing_lt hn
  change n < (t.allocated ++ t.allocating x).length
  rw [List.length_append]
  omega

theorem Lawful.step_squashed_lt (h : t.Lawful) {n : Nat}
    (hn : (t.step x).squashed n = true) :
    n < (t.step x).allocated.length := by
  have hlt : n < t.allocated.length := by
    rcases (Bool.or_eq_true _ _).mp hn with hn | hn
    · exact h.squashed_lt n hn
    · exact squashing_lt hn
  change n < (t.allocated ++ t.allocating x).length
  rw [List.length_append]
  omega

end Retiring

section Flush

variable {t : LoggedRob} {x : RobInputs}

theorem filter_mem_append {a b : List Nat} (h : (a ++ b).Nodup) :
    (a ++ b).filter (fun n => decide (n ∈ a)) = a := by
  rw [List.nodup_append] at h
  have hleft : a.filter (fun n => decide (n ∈ a)) = a :=
    List.filter_eq_self.mpr fun n hn => decide_eq_true hn
  have hright : b.filter (fun n => decide (n ∈ a)) = [] := by
    apply List.filter_eq_nil_iff.mpr
    intro n hn hmem
    exact h.2.2 n (of_decide_eq_true hmem) n hn rfl
  rw [List.filter_append, hleft, hright, List.append_nil]

theorem Lawful.flush_unsquashed (h : t.Lawful) (hflush : x.flush = true) :
    (t.step x).unsquashed = (t.retired ++ t.retiring x).map Prod.fst := by
  have happend := h.retired_append (x := x)
  have hnodup : t.unsquashed.Nodup := unsquashed_pairwise.imp Nat.ne_of_lt
  rw [← happend] at hnodup
  have hfilter := filter_mem_append hnodup
  rw [happend, unsquashed, List.filter_filter] at hfilter
  rw [← hfilter]
  have hsame : t.allocating x = [] := by simp [allocating, ordinary, hflush]
  change ((List.range (t.allocated ++ t.allocating x).length).filter fun n =>
    !(t.squashed n || t.squashing x n)) = _
  rw [hsame, List.append_nil]
  apply List.filter_congr
  intro n hn
  rw [List.mem_range] at hn
  have hsquashing : t.squashing x n =
      !decide (n ∈ (t.retired ++ t.retiring x).map Prod.fst) := by
    simp [squashing, hflush, hn]
  rw [hsquashing, Bool.not_or, Bool.not_not, Bool.and_comm]

theorem Lawful.step_flush (h : t.Lawful) (hflush : x.flush = true) :
    (t.step x).Lawful := by
  have hrob : (t.step x).rob = ReorderBuffer.reset := by
    simp [step, ReorderBuffer.step, hflush]
  have hnone : ∀ tag, (t.step x).occupant tag = none := by
    intro tag
    simp [step, occupied, hflush]
  constructor
  · rw [hrob]
    exact ReorderBuffer.reset_wf
  · intro tag
    rw [hrob, hnone]
    simp
  · rw [h.flush_unsquashed hflush, live, hrob]
    simp [step]
  · intro n hn
    exact h.step_squashed_lt hn
  · intro n hn
    exact h.step_completed_lt hn
  · intro tag n hn
    rw [hnone] at hn
    cases hn
  · intro tag n hn
    rw [hnone] at hn
    cases hn
  · intro p hp
    exact h.step_settled hp

end Flush

section Completion

variable {t : LoggedRob} {x : RobInputs} {tag : RobTag} {n : Nat}

/-- The lanes that complete a slot are those that name its occupant. -/
theorem Lawful.completes_iff (h : t.Lawful) (hn : t.occupant tag = some n)
    {hidden : RobTag → Bool} (hshown : hidden tag = false) :
    (∃ l, t.rob.completes hidden (x.complete l) tag = true) ↔
      ∃ l, (x.complete l).valid = true ∧
        t.occupant (x.complete l).robTag = some n := by
  have hvalid : (t.rob.entries tag).valid = true :=
    (h.wf.valid_iff tag).mpr ((h.occupied_iff tag).mp (by simp [hn]))
  constructor
  · rintro ⟨l, hl⟩
    simp only [ReorderBuffer.completes, Bool.and_eq_true,
      decide_eq_true_eq] at hl
    obtain ⟨⟨⟨hlane, htag⟩, -⟩, -⟩ := hl
    exact ⟨l, hlane, by rw [htag, hn]⟩
  · rintro ⟨l, hlane, hl⟩
    have htag := h.occupant_injective hl hn
    exact ⟨l, by simp [ReorderBuffer.completes, hlane, htag, hvalid, hshown]⟩

end Completion

section Ordinary

variable {t : LoggedRob} {x : RobInputs}

/-- The numbers of an edge follow each other. -/
theorem allocNumbers : (t.rob.allocLanes x.allocValid).map (t.allocNumber x) =
    List.range' t.allocated.length
      (t.rob.allocLanes x.allocValid).length := by
  unfold ReorderBuffer.allocLanes
  cases h0 : t.rob.allocFire x.allocValid 0 <;>
    cases h1 : t.rob.allocFire x.allocValid 1 <;>
    simp [h0, h1, allocNumber, List.range'_succ]

theorem allocating_number (hord : ordinary x = true) {l : Lane}
    (hl : t.rob.allocFire x.allocValid l = true) :
    (t.allocated ++ t.allocating x)[t.allocNumber x l]? =
      some (x.allocEntry l) := by
  rw [allocating, if_pos hord, ReorderBuffer.allocLanes]
  match l, hl with
  | 0, h0 => simp [allocNumber, h0]
  | 1, h1 =>
      cases h0 : t.rob.allocFire x.allocValid 0 <;>
        simp [allocNumber, h0, h1]

theorem step_rob_ordinary (hord : ordinary x = true) : (t.step x).rob =
    t.rob.stepNormal x.allocValid x.allocEntry x.complete x.branch
      x.commitReady := by
  simp only [ordinary, Bool.and_eq_true, Bool.not_eq_true'] at hord
  simp [step, ReorderBuffer.step, hord]

theorem occupied_ordinary (hord : ordinary x = true) : t.occupied x =
    (t.rob.ports x.allocValid x.commitReady).entries none
      (fun l => some (t.allocNumber x l)) t.occupant := by
  simp only [ordinary, Bool.and_eq_true, Bool.not_eq_true'] at hord
  simp [occupied, hord]

theorem Lawful.occupied_survivor (h : t.Lawful) (hord : ordinary x = true)
    {tag : RobTag}
    (htag : tag ∈ t.rob.window.drop (t.rob.commitAccepted x.commitReady)) :
    t.occupied x tag = t.occupant tag := by
  rw [occupied_ordinary hord]
  exact (h.wf.ports x.allocValid x.commitReady).entries_of_survivor htag _ _ _

theorem Lawful.occupied_new (h : t.Lawful) (hord : ordinary x = true)
    {l : Lane} (hl : t.rob.allocFire x.allocValid l = true) :
    t.occupied x (t.rob.allocTag x.allocValid l) =
      some (t.allocNumber x l) := by
  rw [occupied_ordinary hord]
  exact (h.wf.ports x.allocValid x.commitReady).entries_of_tag hl _ _ _

theorem Lawful.occupied_other (h : t.Lawful) (hord : ordinary x = true)
    {tag : RobTag} (hold : tag ∉
      t.rob.window.drop (t.rob.commitAccepted x.commitReady))
    (hnew : tag ∉ (t.rob.allocLanes x.allocValid).map
      (t.rob.allocTag x.allocValid)) : t.occupied x tag = none := by
  rw [occupied_ordinary hord]
  rcases (h.wf.ports x.allocValid x.commitReady).entries_of_other hold hnew
    none (fun l => some (t.allocNumber x l)) t.occupant with hnone | ⟨heq, hout⟩
  · exact hnone
  · rw [heq, ← Option.not_isSome_iff_eq_none]
    intro hsome
    exact hout ((h.occupied_iff tag).mp hsome)

/-- Who is in the buffer after an ordinary edge. -/
theorem Lawful.occupied_cases (h : t.Lawful) (hord : ordinary x = true)
    {tag : RobTag} {n : Nat} (hn : t.occupied x tag = some n) :
    (tag ∈ t.rob.window.drop (t.rob.commitAccepted x.commitReady) ∧
        t.occupant tag = some n) ∨
      ∃ l, t.rob.allocFire x.allocValid l = true ∧
        tag = t.rob.allocTag x.allocValid l ∧ n = t.allocNumber x l := by
  by_cases hold : tag ∈
      t.rob.window.drop (t.rob.commitAccepted x.commitReady)
  · rw [h.occupied_survivor hord hold] at hn
    exact Or.inl ⟨hold, hn⟩
  · by_cases hnew : tag ∈ (t.rob.allocLanes x.allocValid).map
        (t.rob.allocTag x.allocValid)
    · obtain ⟨l, hl, rfl⟩ := List.mem_map.mp hnew
      have hfire := (List.mem_filter.mp hl).2
      rw [h.occupied_new hord hfire] at hn
      exact Or.inr ⟨l, hfire, rfl, (Option.some.inj hn).symm⟩
    · rw [h.occupied_other hord hold hnew] at hn
      cases hn

theorem Lawful.ordinary_ordered (h : t.Lawful) (hord : ordinary x = true) :
    (t.step x).retired.map Prod.fst ++ (t.step x).live =
      (t.step x).unsquashed := by
  have hwindow : (t.step x).rob.window =
      t.rob.window.drop (t.rob.commitAccepted x.commitReady) ++
        (t.rob.allocLanes x.allocValid).map (t.rob.allocTag x.allocValid) := by
    rw [step_rob_ordinary hord]
    exact h.wf.stepNormal_window _ _ _ _ _
  have hlive : (t.step x).live =
      (t.rob.window.drop (t.rob.commitAccepted x.commitReady)).filterMap
          t.occupant ++
        List.range' t.allocated.length
          (t.rob.allocLanes x.allocValid).length := by
    rw [live, hwindow, List.filterMap_append, List.filterMap_map,
      ← allocNumbers, ← List.filterMap_eq_map]
    congr 1
    · exact List.filterMap_congr fun tag htag => h.occupied_survivor hord htag
    · apply List.filterMap_congr
      intro l hl
      exact h.occupied_new hord (List.mem_filter.mp hl).2
  have hsquashed : (t.step x).squashed = t.squashed := by
    simp only [ordinary, Bool.and_eq_true, Bool.not_eq_true'] at hord
    funext n
    simp [step, squashing, hord]
  have hunsquashed : (t.step x).unsquashed = t.unsquashed ++
      List.range' t.allocated.length
        (t.rob.allocLanes x.allocValid).length := by
    have hlength : (t.step x).allocated.length = t.allocated.length +
        (t.rob.allocLanes x.allocValid).length := by
      simp [step, allocating, hord]
    rw [unsquashed, hsquashed, hlength, List.range_add, List.filter_append,
      ← List.range'_eq_map_range]
    congr 1
    -- A new number was never squashed.
    apply List.filter_eq_self.mpr
    intro n hn
    rw [Bool.not_eq_true', ← Bool.not_eq_true]
    intro hsq
    have hlt := h.squashed_lt n hsq
    have hge := List.left_le_of_mem_range' hn
    omega
  rw [hlive, hunsquashed, ← h.retired_append (x := x), List.append_assoc]
  rfl

theorem Lawful.ordinary_complete (h : t.Lawful) (hord : ordinary x = true)
    {tag : RobTag} {n : Nat} (hn : t.occupied x tag = some n) :
    ((t.step x).rob.entries tag).complete = (t.step x).completed n := by
  rw [step_rob_ordinary hord, Bool.eq_iff_iff]
  rcases h.occupied_cases hord hn with ⟨htag, hocc⟩ | ⟨l, hl, rfl, rfl⟩
  · have hrecover : x.recoverValid = false := by
      simp only [ordinary, Bool.and_eq_true, Bool.not_eq_true'] at hord
      exact hord.2
    have hshown : (fun _ : RobTag => false) tag = false := rfl
    rw [h.wf.stepNormal_survivor _ _ _ _ _ htag,
      (t.rob.resolveAt_frame _ _ _).2.2.1,
      ReorderBuffer.completeBoth_complete, h.completes_iff hocc hshown,
      h.complete_eq _ _ hocc]
    simp [step, completing, hrecover]
  · have hfresh : ¬ (t.step x).completed (t.allocNumber x l) = true := by
      have hge : t.allocated.length ≤ t.allocNumber x l := by
        match l with
        | 0 => exact Nat.le_refl _
        | 1 => exact Nat.le_add_right _ _
      intro hdone
      rcases (Bool.or_eq_true _ _).mp hdone with hdone | hdone
      · exact absurd (h.completed_lt _ hdone) (by omega)
      · exact absurd (h.completing_lt hdone) (by omega)
    rw [h.wf.stepNormal_new _ _ _ _ _ hl]
    simp [ReorderBuffer.allocWrite, hfresh]

theorem Lawful.ordinary_holds (h : t.Lawful) (hord : ordinary x = true)
    {tag : RobTag} {n : Nat} (hn : t.occupied x tag = some n) :
    (t.step x).Allocates n ((t.step x).rob.entries tag) := by
  rw [step_rob_ordinary hord]
  rcases h.occupied_cases hord hn with ⟨htag, hocc⟩ | ⟨l, hl, rfl, rfl⟩
  · obtain ⟨given, hgiven, heq⟩ := (h.holds tag n hocc).mono (x := x)
    refine ⟨given, hgiven, ?_⟩
    rw [h.wf.stepNormal_survivor _ _ _ _ _ htag,
      (t.rob.resolveAt_frame _ _ _).1,
      (ReorderBuffer.completeBoth_frame _ _ _ _).1, heq]
  · refine ⟨x.allocEntry l, allocating_number hord hl, ?_⟩
    rw [h.wf.stepNormal_new _ _ _ _ _ hl]
    rfl

theorem Lawful.step_ordinary (h : t.Lawful) (hord : ordinary x = true) :
    (t.step x).Lawful := by
  constructor
  · rw [step_rob_ordinary hord]
    exact h.wf.stepNormal_wf _ _ _ _ _
  · intro tag
    rw [step_rob_ordinary hord, h.wf.stepNormal_window, List.mem_append]
    change (t.occupied x tag).isSome = true ↔ _
    by_cases hold : tag ∈
        t.rob.window.drop (t.rob.commitAccepted x.commitReady)
    · rw [h.occupied_survivor hord hold, h.occupied_iff]
      exact iff_of_true (List.mem_of_mem_drop hold) (Or.inl hold)
    · by_cases hnew : tag ∈ (t.rob.allocLanes x.allocValid).map
          (t.rob.allocTag x.allocValid)
      · obtain ⟨l, hl, rfl⟩ := List.mem_map.mp hnew
        rw [h.occupied_new hord (List.mem_filter.mp hl).2]
        exact iff_of_true rfl (Or.inr hnew)
      · rw [h.occupied_other hord hold hnew]
        simp [hold, hnew]
  · exact h.ordinary_ordered hord
  · intro n hn
    exact h.step_squashed_lt hn
  · intro n hn
    exact h.step_completed_lt hn
  · intro tag n hn
    exact h.ordinary_complete hord hn
  · intro tag n hn
    exact h.ordinary_holds hord hn
  · intro p hp
    exact h.step_settled hp

end Ordinary

section Recovery

variable {t : LoggedRob} {x : RobInputs}

/-- A recovery on the live entry number `k`. -/
structure Recovers (t : LoggedRob) (x : RobInputs) (k : Nat) : Prop where
  flush : x.flush = false
  recover : x.recoverValid = true
  branch : t.occupant x.branch.tag = some k
  accepted : t.rob.commitAccepted x.commitReady = 0

theorem Lawful.recovers (h : t.Lawful) (hflush : x.flush = false)
    (hrecover : x.recoverValid = true) (hlegal : t.Legal x) :
    ∃ k, t.Recovers x k := by
  obtain ⟨hvalid, haccepted⟩ := hlegal hflush hrecover
  have hsome := (h.occupied_iff _).mpr ((h.wf.valid_iff _).mp hvalid)
  obtain ⟨k, hk⟩ := Option.isSome_iff_exists.mp hsome
  exact ⟨k, hflush, hrecover, hk, haccepted⟩

variable {k : Nat}

theorem Recovers.rob (hx : t.Recovers x k) :
    (t.step x).rob = t.rob.stepRecover x.branch x.complete := by
  simp [step, ReorderBuffer.step, hx.flush, hx.recover]

theorem Recovers.squashing (hx : t.Recovers x k) (n : Nat) :
    t.squashing x n = (decide (n < t.allocated.length) && decide (k < n)) := by
  simp [LoggedRob.squashing, hx.flush, hx.recover, hx.branch]

theorem Recovers.live_branch (hx : t.Recovers x k) (h : t.Lawful) :
    x.branch.tag ∈ t.rob.window :=
  (h.occupied_iff _).mp (by simp [hx.branch])

/-- The entries allocated up to the branch stay. -/
theorem Recovers.occupied_iff (hx : t.Recovers x k) (h : t.Lawful)
    {tag : RobTag} {n : Nat} :
    t.occupied x tag = some n ↔ t.occupant tag = some n ∧ n ≤ k := by
  have heq : t.occupied x tag =
      (t.occupant tag).filter fun n => !t.squashing x n := by
    simp [occupied, hx.flush, hx.recover]
  rw [heq, Option.filter_eq_some_iff]
  constructor
  · rintro ⟨hn, hkept⟩
    rw [hx.squashing] at hkept
    have hlt := (h.mem_unsquashed hn).1
    simp only [hlt, decide_true, Bool.true_and, Bool.not_eq_true',
      decide_eq_false_iff_not, Nat.not_lt] at hkept
    exact ⟨hn, hkept⟩
  · rintro ⟨hn, hle⟩
    refine ⟨hn, ?_⟩
    rw [hx.squashing]
    simp only [Bool.not_eq_true', Bool.and_eq_false_iff,
      decide_eq_false_iff_not]
    exact Or.inr (by omega)

theorem Recovers.mem_window (hx : t.Recovers x k) (h : t.Lawful)
    {tag : RobTag} : tag ∈ (t.step x).rob.window ↔
      t.rob.age tag ≤ t.rob.age x.branch.tag := by
  have hlive := hx.live_branch h
  rw [hx.rob, (h.wf.stepRecover_wf x.complete hlive).mem_window]
  have hcount : (t.rob.stepRecover x.branch x.complete).entryCount =
      t.rob.age x.branch.tag + 1 := h.wf.recoverKeepCount_eq hlive
  rw [hcount, Nat.lt_succ_iff]
  rfl

/-- The window after the edge holds exactly the entries up to the branch. -/
theorem Recovers.mem_window_iff (hx : t.Recovers x k) (h : t.Lawful)
    {tag : RobTag} : tag ∈ (t.step x).rob.window ↔
      ∃ n, t.occupant tag = some n ∧ n ≤ k := by
  rw [hx.mem_window h]
  constructor
  · intro hage
    have hlt := (h.wf.mem_window _).mp (hx.live_branch h)
    have hwindow := (h.wf.mem_window tag).mpr (by omega)
    obtain ⟨n, hn⟩ :=
      Option.isSome_iff_exists.mp ((h.occupied_iff tag).mpr hwindow)
    refine ⟨n, hn, ?_⟩
    rw [← Nat.not_lt, h.number_lt_iff hx.branch hn]
    omega
  · rintro ⟨n, hn, hle⟩
    rw [← Nat.not_lt, ← h.number_lt_iff hx.branch hn]
    omega

theorem Recovers.ordered (hx : t.Recovers x k) (h : t.Lawful) :
    (t.step x).retired.map Prod.fst ++ (t.step x).live =
      (t.step x).unsquashed := by
  have hlive := hx.live_branch h
  have hretired : (t.step x).retired = t.retired := by
    simp [step, retiring, hx.accepted]
  have hunsquashed : (t.step x).unsquashed =
      t.unsquashed.filter fun n => decide (n ≤ k) := by
    have hsame : (t.step x).allocated = t.allocated := by
      simp [step, allocating, ordinary, hx.recover]
    rw [unsquashed, hsame, unsquashed, List.filter_filter]
    apply List.filter_congr
    intro n hn
    rw [List.mem_range] at hn
    change (!(t.squashed n || t.squashing x n)) = _
    rw [hx.squashing]
    simp only [hn, decide_true, Bool.true_and, Bool.not_or]
    rw [Bool.and_comm, ← decide_not]
    simp only [Nat.not_lt]
  have hkeep : (t.step x).rob.window =
      t.rob.window.take (t.rob.age x.branch.tag + 1) := by
    rw [hx.rob]
    exact h.wf.stepRecover_window x.complete hlive
  have hnew : (t.step x).live = t.live.filter fun n => decide (n ≤ k) := by
    have hfilter : ∀ tag, (t.occupant tag).filter (fun n => decide (n ≤ k)) =
        t.occupied x tag := by
      intro tag
      apply Option.ext
      intro n
      rw [hx.occupied_iff h, Option.filter_eq_some_iff, decide_eq_true_iff]
    have hcut : (t.rob.window.drop (t.rob.age x.branch.tag + 1)).filterMap
        (t.occupied x) = [] := by
      rw [List.filterMap_eq_nil_iff]
      intro tag hdrop
      rw [Option.eq_none_iff_forall_ne_some]
      intro n hn
      have hstays := (hx.mem_window_iff h).mpr ⟨n, (hx.occupied_iff h).mp hn⟩
      rw [hkeep] at hstays
      exact List.disjoint_take_drop h.wf.window_nodup (Nat.le_refl _) hstays
        hdrop
    rw [live, live, List.filter_filterMap, hkeep]
    simp only [hfilter]
    nth_rewrite 2 [← List.take_append_drop (t.rob.age x.branch.tag + 1)
      t.rob.window]
    rw [List.filterMap_append, hcut, List.append_nil]
    rfl
  -- Everything retired is older than the branch.
  have hold : (t.retired.map Prod.fst).filter (fun n => decide (n ≤ k)) =
      t.retired.map Prod.fst := by
    apply List.filter_eq_self.mpr
    intro n hn
    apply decide_eq_true
    exact Nat.le_of_lt ((List.pairwise_append.mp h.pairwise).2.2 n hn k
      (h.mem_live hx.branch))
  rw [hretired, hnew, hunsquashed, ← h.ordered, List.filter_append, hold]

/-- An entry that stays is completed by the lanes, the branch also by the
recovery. -/
theorem Recovers.complete (hx : t.Recovers x k) (h : t.Lawful) {tag : RobTag}
    {n : Nat} (hn : t.occupied x tag = some n) :
    ((t.step x).rob.entries tag).complete = (t.step x).completed n := by
  have hlive := hx.live_branch h
  obtain ⟨hocc, hle⟩ := (hx.occupied_iff h).mp hn
  have hwindow := (hx.mem_window_iff h).mpr ⟨n, hocc, hle⟩
  have hshown : t.rob.recoverYoungerMask true x.branch.tag tag = false := by
    rw [← Bool.not_eq_true, h.mask_iff hx.branch]
    rintro ⟨m, hm, hlt⟩
    rw [hocc] at hm
    cases hm
    omega
  rw [hx.rob] at hwindow ⊢
  rw [h.wf.stepRecover_entries x.complete hlive hwindow]
  change _ = (t.completed n || t.completing x n)
  by_cases htag : tag = x.branch.tag
  · have hdone : t.completing x n = true := by
      rw [htag] at hocc
      simp [completing, hx.recover, hocc]
    simp [htag, hdone, ReorderBuffer.resolveEntry]
  · have hother : ¬ t.occupant x.branch.tag = some n := fun hb =>
      htag (h.occupant_injective hocc hb)
    simp only [htag, if_false]
    rw [Bool.eq_iff_iff, ReorderBuffer.completeBoth_complete,
      h.completes_iff hocc hshown, h.complete_eq _ _ hocc]
    simp [completing, hother]

theorem Recovers.holds (hx : t.Recovers x k) (h : t.Lawful) {tag : RobTag}
    {n : Nat} (hn : t.occupied x tag = some n) :
    (t.step x).Allocates n ((t.step x).rob.entries tag) := by
  have hlive := hx.live_branch h
  obtain ⟨hocc, hle⟩ := (hx.occupied_iff h).mp hn
  have hwindow := (hx.mem_window_iff h).mpr ⟨n, hocc, hle⟩
  obtain ⟨given, hgiven, heq⟩ := (h.holds tag n hocc).mono (x := x)
  refine ⟨given, hgiven, ?_⟩
  rw [hx.rob] at hwindow ⊢
  rw [h.wf.stepRecover_entries x.complete hlive hwindow, ← heq,
    ← (ReorderBuffer.completeBoth_frame (r := t.rob)
      (t.rob.recoverYoungerMask true x.branch.tag) x.complete t.rob.entries
      tag).1]
  dsimp only
  split <;> rfl

theorem Lawful.step_recover (h : t.Lawful) (hx : t.Recovers x k) :
    (t.step x).Lawful := by
  constructor
  · rw [hx.rob]
    exact h.wf.stepRecover_wf x.complete (hx.live_branch h)
  · intro tag
    rw [hx.mem_window_iff h, Option.isSome_iff_exists]
    exact exists_congr fun n => hx.occupied_iff h
  · exact hx.ordered h
  · intro n hn
    exact h.step_squashed_lt hn
  · intro n hn
    exact h.step_completed_lt hn
  · intro tag n hn
    exact hx.complete h hn
  · intro tag n hn
    exact hx.holds h hn
  · intro p hp
    exact h.step_settled hp

end Recovery

theorem Lawful.step {t : LoggedRob} {x : RobInputs} (h : t.Lawful)
    (hlegal : t.Legal x) : (t.step x).Lawful := by
  cases hflush : x.flush with
  | true => exact h.step_flush hflush
  | false =>
      cases hrecover : x.recoverValid with
      | true =>
          obtain ⟨k, hk⟩ := h.recovers hflush hrecover hlegal
          exact h.step_recover hk
      | false =>
          apply h.step_ordinary
          simp [ordinary, hflush, hrecover]

theorem LegalRun.lawful {inputs : List RobInputs} (h : LegalRun inputs) :
    (run inputs).Lawful := by
  apply Run.Legal.invariant lawful_reset _ h
  intro t x ht hx
  exact ht.step hx

/-- In every legal run the valid entries are the `entryCount` positions from
the head; the retired numbers followed by the live ones are the allocations
never squashed, in allocation order; every retired entry is the one allocated
under its number, and was completed before the edge that retires it; a recovery
removes exactly the entries allocated after its branch, which the mask names. -/
theorem queue_law {inputs : List RobInputs} (h : LegalRun inputs) :
    let t := run inputs
    (t.rob.entryCount ≤ ReorderBuffer.depth ∧
      (∀ tag, (t.rob.entries tag).valid = true ↔
        ∃ i < t.rob.entryCount, tag = addPtr t.rob.headPtr i) ∧
      ∀ tag, (t.rob.entries tag).valid = (t.occupant tag).isSome) ∧
    (t.retired.map Prod.fst ++ t.live = t.unsquashed ∧
      (t.retired.map Prod.fst).Pairwise (· < ·)) ∧
    (∀ p ∈ t.retired, t.completed p.1 = true ∧ t.Allocates p.1 p.2) ∧
    (∀ x, ∀ p ∈ t.retiring x, t.completed p.1 = true) ∧
    ∀ x, t.Legal x → x.flush = false → x.recoverValid = true →
      ∃ k, t.occupant x.branch.tag = some k ∧
        (∀ tag, t.rob.recoverYoungerMask x.recoverValid x.branch.tag tag =
            true ↔ ∃ n, t.occupant tag = some n ∧ k < n) ∧
        ∀ tag, ((t.step x).rob.entries tag).valid = true ↔
          ∃ n, t.occupant tag = some n ∧ n ≤ k := by
  intro t
  have hlaw : t.Lawful := h.lawful
  refine ⟨⟨hlaw.wf.count_le, ?_, ?_⟩, ⟨hlaw.ordered, ?_⟩, hlaw.settled, ?_, ?_⟩
  · intro tag
    rw [hlaw.wf.valid_iff, ReorderBuffer.window, Ring.slots, List.mem_map]
    simp only [List.mem_range, eq_comm (a := tag)]
  · intro tag
    rw [Bool.eq_iff_iff, hlaw.wf.valid_iff, hlaw.occupied_iff]
  · exact (List.pairwise_append.mp hlaw.pairwise).1
  · intro x p hp
    exact (hlaw.retiring_settled hp).1
  · intro x hlegal hflush hrecover
    obtain ⟨k, hx⟩ := hlaw.recovers hflush hrecover hlegal
    refine ⟨k, hx.branch, ?_, ?_⟩
    · intro tag
      rw [hrecover]
      exact hlaw.mask_iff hx.branch tag
    · intro tag
      rw [(hlaw.step_recover hx).wf.valid_iff, hx.mem_window_iff hlaw]

section Example

/-- An edge on which nothing is offered. -/
def idleInput : RobInputs where
  flush := false
  recoverValid := false
  allocValid := fun _ => false
  allocEntry := fun _ => default
  complete := fun _ => default
  branch := ⟨false, 0, false, 0, false⟩
  commitReady := fun _ => false

/-- Two allocations, a recovery on the first, its retirement. -/
def recoveredPair : List RobInputs :=
  [{ idleInput with allocValid := fun _ => true },
    { idleInput with recoverValid := true },
    { idleInput with commitReady := fun _ => true }]

theorem legalRun_recoveredPair : LegalRun recoveredPair := by
  have hfirst : LegalRun [{ idleInput with allocValid := fun _ => true }] :=
    Run.legal_append.mpr ⟨Run.Legal.nil, fun _ hrecover => by cases hrecover⟩
  have hsecond : LegalRun [{ idleInput with allocValid := fun _ => true },
      { idleInput with recoverValid := true }] :=
    Run.legal_append.mpr ⟨hfirst, fun _ _ => by decide⟩
  exact Run.legal_append.mpr ⟨hsecond, fun _ hrecover => by cases hrecover⟩

theorem queue_law_recoveredPair : LegalRun recoveredPair ∧
    (run recoveredPair).retired.map Prod.fst = [0] ∧
    (run recoveredPair).retired.map Prod.fst ++ (run recoveredPair).live =
      (run recoveredPair).unsquashed :=
  ⟨legalRun_recoveredPair, by decide,
    (queue_law legalRun_recoveredPair).2.1.1⟩

end Example

end LoggedRob

end OoOCore
