/-
Progress of the data cache.  When the memory takes requests and answers after
finitely many cycles and the CPU takes responses, every accepted request leaves
the cache: a load with its response, a store to the memory.
-/
import OoOCore.CacheResponses

namespace OoOCore

/-- The handshakes a refill still needs. -/
def Mshr.rank (m : Mshr) : Nat :=
  match m.refillState with
  | .idle => 0
  | .request => 2 * (4 - m.refillCount.toNat)
  | .response => 2 * (4 - m.refillCount.toNat) - 1

namespace DataCache

/-- An endless run of the cache from reset. -/
structure Endless (b : Backing) (cs : Nat → DataCache) (ts : Nat → CacheTraffic)
    (is : Nat → Inputs) : Prop where
  start : ∃ tagArray dataBank, cs 0 = reset tagArray dataBank
  empty : ts 0 = {}
  step : ∀ n, cs (n + 1) = (cs n).step (is n)
  observe : ∀ n, ts (n + 1) = (cs n).observe b (is n) (ts n)
  offers : ∀ n, Offers (is n) (ts n)

/-- Nobody blocks the cache for ever.  A response stays offered until it is
taken. -/
structure Fair (cs : Nat → DataCache) (ts : Nat → CacheTraffic)
    (is : Nat → Inputs) : Prop where
  accepts : ∀ n, ∃ m, n ≤ m ∧ (is m).memoryRequestReady = true
  answers : ∀ n, (ts n).pending ≠ [] →
    ∃ m, n ≤ m ∧ (is m).memoryResponseValid = true
  holds : ∀ n, (is n).memoryResponseValid = true →
    (cs n).memoryResponseFire (is n) = false →
      (is (n + 1)).memoryResponseValid = true
  takes : ∀ n, ∃ m, n ≤ m ∧ (is m).responseReady = true

/-- The handshake the running refill waits for happens. -/
def Moves (c : DataCache) (i : Inputs) : Prop :=
  (c.mshr.refillState = .request ∧ i.memoryRequestReady = true) ∨
    (c.mshr.refillState = .response ∧ c.memoryResponseFire i = true)

section Refill

variable {c : DataCache} {i : Inputs}

theorem Control.moves_rank (hc : c.Control) (hmoves : c.Moves i) :
    (c.step i).mshr.rank < c.mshr.rank := by
  have hlt := c.mshr.refillCount.isLt
  change (c.nextMshr i).rank < c.mshr.rank
  have hstep := hc.refillStep i
  generalize c.nextMshr i = m at hstep
  unfold Moves at hmoves
  cases hstep with
  | rest hstate _ | allocate hstate _ => simp [hstate] at hmoves
  | hold hstate hready => simp [hstate, hready] at hmoves
  | ask hstate _ =>
      simp only [Mshr.rank, hstate]
      omega
  | wait hstate hfire => simp [hstate, hfire] at hmoves
  | last hstate _ _ =>
      simp only [Mshr.rank, hstate]
      omega
  | beat hstate _ hcount =>
      have hnext : ∀ k : LineWord, k ≠ 3 → (k + 1).toNat = k.toNat + 1 := by
        decide
      have hcount' := hnext _ hcount
      simp only [Mshr.rank, hstate]
      split
      · next h => split at h <;> cases h
      · omega
      · omega

theorem Control.holds_mshr (hc : c.Control) (hbusy : c.mshr.valid = true)
    (hmoves : ¬ c.Moves i) : (c.step i).mshr = c.mshr := by
  change c.nextMshr i = c.mshr
  have hstep := hc.refillStep i
  generalize c.nextMshr i = m at hstep
  unfold Moves at hmoves
  cases hstep with
  | rest | hold | wait => rfl
  | allocate hstate _ => exact absurd hstate (hc.busy.mp hbusy)
  | ask hstate hready => exact absurd (Or.inl ⟨hstate, hready⟩) hmoves
  | last hstate hfire _ => exact absurd (Or.inr ⟨hstate, hfire⟩) hmoves
  | beat hstate hfire _ => exact absurd (Or.inr ⟨hstate, hfire⟩) hmoves

end Refill

section Progress

variable {b : Backing} {cs : Nat → DataCache} {ts : Nat → CacheTraffic}
  {is : Nat → Inputs} (hcoherent : ∀ n, Coherent b (cs n) (ts n))
  (hrun : Endless b cs ts is) (hfair : Fair cs ts is)

include hcoherent hrun hfair

/-- A running refill gets the handshake it waits for. -/
theorem refill_moves {n : Nat} (hbusy : (cs n).mshr.valid = true) :
    ∃ m, n ≤ m ∧ ((cs m).mshr = (cs n).mshr ∧
      (ts m).mshrAt = (ts n).mshrAt) ∧ (cs m).Moves (is m) := by
  by_contra hnever
  push Not at hnever
  have hkept : ∀ m, n ≤ m → (cs m).mshr = (cs n).mshr ∧
      (ts m).mshrAt = (ts n).mshrAt := by
    intro m hm
    induction m, hm using Nat.le_induction with
    | base => exact ⟨rfl, rfl⟩
    | succ m hm ih =>
        have hbusy' : (cs m).mshr.valid = true := by
          rw [ih.1]
          exact hbusy
        have hc := (hcoherent m).control
        constructor
        · rw [hrun.step, hc.holds_mshr hbusy' (hnever m hm ih), ih.1]
        · rw [hrun.observe, ← ih.2]
          change (if (cs m).lookupMissAllocate then _ else _) = _
          rw [hc.not_miss (hc.busy.mp hbusy')]
          rfl
  have hsame : ∀ m, n ≤ m → (cs m).mshr = (cs n).mshr :=
    fun m hm => (hkept m hm).1
  cases hstate : (cs n).mshr.refillState with
  | idle => exact (hcoherent n).control.busy.mp hbusy hstate
  | request =>
      obtain ⟨m, hm, hready⟩ := hfair.accepts n
      apply hnever m hm (hkept m hm)
      exact Or.inl ⟨by rw [hsame m hm, hstate], hready⟩
  | response =>
      have hwaits : ∀ m, n ≤ m → (cs m).memoryResponseFire (is m) = false := by
        intro m hm
        by_contra hfire
        rw [Bool.not_eq_false] at hfire
        exact hnever m hm (hkept m hm)
          (Or.inr ⟨by rw [hsame m hm, hstate], hfire⟩)
      have howed : (ts n).pending ≠ [] := by
        rw [(hcoherent n).ledger.pending, owed, hstate]
        simp
      obtain ⟨m, hm, hvalid⟩ := hfair.answers n howed
      have hoffered : ∀ k, m ≤ k → (is k).memoryResponseValid = true := by
        intro k hk
        induction k, hk using Nat.le_induction with
        | base => exact hvalid
        | succ k hk ih => exact hfair.holds k ih (hwaits k (hm.trans hk))
      obtain ⟨k, hk, hready⟩ := hfair.takes m
      have hfire := hwaits k (hm.trans hk)
      rw [memoryResponseFire, hoffered k hk, memoryResponseReady,
        hsame k (hm.trans hk), hstate] at hfire
      simp [hready] at hfire

/-- Every refill comes to its end. -/
theorem refill_ends (n : Nat) :
    ∃ m, n ≤ m ∧ (cs m).mshr.valid = false := by
  induction hr : (cs n).mshr.rank using Nat.strong_induction_on generalizing n
    with
  | _ r ih =>
      cases hbusy : (cs n).mshr.valid with
      | false => exact ⟨n, le_rfl, hbusy⟩
      | true =>
          obtain ⟨m, hm, ⟨hsame, -⟩, hmoves⟩ :=
            refill_moves hcoherent hrun hfair hbusy
          have hless := (hcoherent m).control.moves_rank hmoves
          rw [← hrun.step, hsame, hr] at hless
          obtain ⟨k, hk, hidle⟩ := ih _ hless (m + 1) rfl
          exact ⟨k, by omega, hidle⟩

omit hcoherent hfair in
/-- A request that stays in the lookup stage blocks the CPU port. -/
theorem Endless.stays {n : Nat} (hstage : (cs n).lookup.stageValid = true)
    (hstays : (cs n).lookupStageAdvance (is n) = false) :
    (cs (n + 1)).lookup.stageValid = true ∧
      (cs (n + 1)).lookup.request = (cs n).lookup.request ∧
      (cs (n + 1)).lookup.mmio = (cs n).lookup.mmio ∧
      (ts (n + 1)).accepted = (ts n).accepted ∧
      (ts (n + 1)).lookupAt = (ts n).lookupAt := by
  have hfire := not_fire_of_stays hstage hstays
  rw [hrun.step, hrun.observe]
  refine ⟨?_, ?_, ?_, ?_, ?_⟩
  · rw [lookup_stays hfire, hstage, hstays]
    rfl
  · rw [lookup_stays hfire]
  · rw [lookup_stays hfire]
  · change (ts n).accepted ++ (if (cs n).requestFire (is n) then _ else []) = _
    rw [hfire]
    simp
  · change (if (cs n).requestFire (is n) then _ else _) = _
    rw [hfire]
    rfl

/-- An MMIO load cannot stay in the lookup stage. -/
theorem mmio_leaves {start : Nat}
    (hload : ∀ m, start ≤ m → (cs m).lookupMmioLoad = true)
    (hstays : ∀ m, start ≤ m → (cs m).lookupStageAdvance (is m) = false) :
    False := by
  have hsent : ∃ m, start ≤ m ∧ (cs m).lookup.mmioReadSent = true := by
    obtain ⟨m, hm, hready⟩ := hfair.accepts start
    cases hread : (cs m).lookup.mmioReadSent with
    | true => exact ⟨m, hm, hread⟩
    | false =>
        obtain ⟨-, -, -, -, -, -, hsend⟩ :=
          (hcoherent m).control.mmio_signals (i := is m) (hload m hm)
        have hkind := hload m hm
        simp only [lookupMmioLoad, Bool.and_eq_true] at hkind
        refine ⟨m + 1, by omega, ?_⟩
        rw [hrun.step, lookup_stays (not_fire_of_stays hkind.1.1
          (hstays m hm)), hload m hm, hread, hsend, hread, hready]
        rfl
  obtain ⟨first, hfirst, hread⟩ := hsent
  have hreading : ∀ m, first ≤ m → (cs m).lookup.mmioReadSent = true := by
    intro m hm
    induction m, hm using Nat.le_induction with
    | base => exact hread
    | succ m hm ih =>
        have hkind := hload m (hfirst.trans hm)
        simp only [lookupMmioLoad, Bool.and_eq_true] at hkind
        have hstay := hstays m (hfirst.trans hm)
        rw [hrun.step, lookup_stays (not_fire_of_stays hkind.1.1 hstay)]
        simp [ih, hstay]
  have howed : (ts first).pending ≠ [] := by
    obtain ⟨hidle, -⟩ :=
      (hcoherent first).control.mmio_signals (i := is first)
        (hload first hfirst)
    rw [(hcoherent first).ledger.pending, owed, hidle, hread]
    simp
  obtain ⟨offer, hoffer, hvalid⟩ := hfair.answers first howed
  have hoffered : ∀ m, offer ≤ m → (is m).memoryResponseValid = true := by
    intro m hm
    induction m, hm using Nat.le_induction with
    | base => exact hvalid
    | succ m hm ih =>
        have hlate : start ≤ m := by omega
        obtain ⟨-, -, -, hanswer, -, hadvance, -⟩ :=
          (hcoherent m).control.mmio_signals (i := is m) (hload m hlate)
        apply hfair.holds m ih
        rw [hanswer, ← hadvance]
        exact hstays m hlate
  obtain ⟨m, hm, hready⟩ := hfair.takes offer
  have hlate : start ≤ m := by omega
  obtain ⟨-, -, -, -, -, hadvance, -⟩ :=
    (hcoherent m).control.mmio_signals (i := is m) (hload m hlate)
  rw [hstays m hlate, hreading m (by omega), hoffered m hm, hready] at hadvance
  cases hadvance

/-- Nothing can stay in the lookup stage of an idle cache. -/
theorem idle_leaves {start : Nat}
    (hstage : ∀ m, start ≤ m → (cs m).lookup.stageValid = true)
    (hsame : ∀ m, start ≤ m →
      (cs m).lookup.request.write = (cs start).lookup.request.write ∧
        (cs m).lookup.mmio = (cs start).lookup.mmio)
    (hstays : ∀ m, start ≤ m → (cs m).lookupStageAdvance (is m) = false)
    (hfree : ∀ m, start ≤ m → (cs m).mshr.valid = false) : False := by
  cases hwrite : (cs start).lookup.request.write with
  | true =>
      obtain ⟨m, hm, hready⟩ := hfair.accepts start
      have hstore : (cs m).storing = true := by
        rw [storing, hstage m hm, (hsame m hm).1, hwrite]
        rfl
      have hadvance := ((hcoherent m).control.storing_request
        (i := is m) hstore).2
      rw [hstays m hm, hready] at hadvance
      cases hadvance
  | false =>
      cases hmmio : (cs start).lookup.mmio with
      | true =>
          apply mmio_leaves hcoherent hrun hfair _ hstays
          intro m hm
          rw [lookupMmioLoad, hstage m hm, (hsame m hm).1, (hsame m hm).2,
            hwrite, hmmio]
          rfl
      | false =>
          obtain ⟨m, hm, hready⟩ := hfair.takes start
          have hload : (cs m).lookupCachedLoad = true := by
            rw [lookupCachedLoad, hstage m hm, (hsame m hm).1, (hsame m hm).2,
              hwrite, hmmio]
            rfl
          have hstay := hstays m hm
          rw [lookupStageAdvance, if_pos hload] at hstay
          cases hhit : (cs m).lookupHit <;>
            simp [hhit, lookupMissAllocate, hload, hfree m hm,
              lookupResponseFire, lookupResponseSelected,
              criticalResponseValid, lookupLoadHitResponseValid,
              hready] at hstay

/-- Whatever is in the lookup stage leaves it. -/
theorem lookup_leaves {n : Nat} (hstage : (cs n).lookup.stageValid = true) :
    ∃ m, n ≤ m ∧ (cs m).lookup.stageValid = true ∧
      (ts m).accepted = (ts n).accepted ∧
      (ts m).lookupAt = (ts n).lookupAt ∧
      (cs m).lookupStageAdvance (is m) = true := by
  by_contra hnever
  push Not at hnever
  have hsame : ∀ m, n ≤ m → (cs m).lookup.stageValid = true ∧
      (cs m).lookup.request = (cs n).lookup.request ∧
      (cs m).lookup.mmio = (cs n).lookup.mmio ∧
      (ts m).accepted = (ts n).accepted ∧
      (ts m).lookupAt = (ts n).lookupAt := by
    intro m hm
    induction m, hm using Nat.le_induction with
    | base => exact ⟨hstage, rfl, rfl, rfl, rfl⟩
    | succ m hm ih =>
        obtain ⟨hvalid, hrequest, hmmio, haccepted, hat⟩ := ih
        have hstays := hnever m hm hvalid haccepted hat
        rw [ne_eq, Bool.not_eq_true] at hstays
        obtain ⟨h1, h2, h3, h4, h5⟩ := hrun.stays hvalid hstays
        exact ⟨h1, h2.trans hrequest, h3.trans hmmio, h4.trans haccepted,
          h5.trans hat⟩
  have hstays : ∀ m, n ≤ m →
      (cs m).lookupStageAdvance (is m) = false := by
    intro m hm
    obtain ⟨hvalid, -, -, haccepted, hat⟩ := hsame m hm
    simpa using hnever m hm hvalid haccepted hat
  obtain ⟨start, hstart, hidle⟩ := refill_ends hcoherent hrun hfair n
  have hfree : ∀ m, start ≤ m → (cs m).mshr.valid = false := by
    intro m hm
    induction m, hm using Nat.le_induction with
    | base => exact hidle
    | succ m hm ih =>
        by_contra hbusy
        rw [Bool.not_eq_false, hrun.step] at hbusy
        have hmiss : (cs m).lookupMissAllocate = false := by
          by_contra hmiss
          rw [Bool.not_eq_false] at hmiss
          have hadvance := miss_advance (i := is m) hmiss
          rw [hstays m (hstart.trans hm)] at hadvance
          cases hadvance
        have hold := (hcoherent m).control.busy_before hbusy hmiss
        rw [ih] at hold
        cases hold
  apply idle_leaves hcoherent hrun hfair
    (fun m hm => (hsame m (hstart.trans hm)).1) _
    (fun m hm => hstays m (hstart.trans hm)) hfree
  intro m hm
  obtain ⟨-, hrequest, hmmio, -⟩ := hsame m (hstart.trans hm)
  obtain ⟨-, hrequest', hmmio', -⟩ := hsame start hstart
  exact ⟨by rw [hrequest, hrequest'], hmmio.trans hmmio'.symm⟩

omit hcoherent hfair in
theorem Endless.answered {n k : Nat}
    (hk : k ∈ ((cs n).answered (is n) (ts n)).map Prod.fst) :
    k ∈ (ts (n + 1)).responses.map Prod.fst := by
  rw [hrun.observe]
  change k ∈ ((ts n).responses ++ _).map Prod.fst
  rw [List.map_append]
  exact List.mem_append_right _ hk

/-- A load whose first word is on its way gets it. -/
theorem critical_answered {n k : Nat}
    (hstate : (cs n).mshr.refillState = .response)
    (hfirst : (cs n).mshr.criticalReturned = false)
    (hat : k = (ts n).mshrAt) :
    ∃ m, n ≤ m ∧ k ∈ (ts m).responses.map Prod.fst := by
  have hbusy : (cs n).mshr.valid = true :=
    (hcoherent n).control.busy.mpr (by simp [hstate])
  obtain ⟨m, hm, ⟨hsame, hat'⟩, hmoves⟩ :=
    refill_moves hcoherent hrun hfair hbusy
  have hfire : (cs m).memoryResponseFire (is m) = true := by
    rcases hmoves with ⟨hother, -⟩ | ⟨-, hfire⟩
    · rw [hsame, hstate] at hother
      cases hother
    · exact hfire
  refine ⟨m + 1, by omega, hrun.answered (mem_answered_positions.mpr
    (Or.inl ?_))⟩
  rw [memoryResponseFire, memoryResponseReady, hsame, hstate, hfirst,
    Bool.and_eq_true, Bool.false_or] at hfire
  refine ⟨?_, hfire.2, hat.trans hat'.symm⟩
  simp [criticalResponseValid, hsame, hbusy, hstate, hfirst, hfire.1]

/-- A load in the miss register is answered. -/
theorem miss_answered {n k : Nat} (hbusy : (cs n).mshr.valid = true)
    (hfirst : (cs n).mshr.criticalReturned = false)
    (hat : k = (ts n).mshrAt) :
    ∃ m, n ≤ m ∧ k ∈ (ts m).responses.map Prod.fst := by
  cases hstate : (cs n).mshr.refillState with
  | idle => exact absurd hstate ((hcoherent n).control.busy.mp hbusy)
  | response => exact critical_answered hcoherent hrun hfair hstate hfirst hat
  | request =>
      obtain ⟨m, hm, ⟨hsame, hat'⟩, hmoves⟩ :=
        refill_moves hcoherent hrun hfair hbusy
      have hready : (is m).memoryRequestReady = true := by
        rcases hmoves with ⟨-, hready⟩ | ⟨hother, -⟩
        · exact hready
        · rw [hsame, hstate] at hother
          cases hother
      have hc := (hcoherent m).control
      have hnext : (cs (m + 1)).mshr =
          { (cs n).mshr with refillState := .response } := by
        rw [hrun.step]
        change (cs m).nextMshr (is m) = _
        rw [nextMshr, hc.allocated_busy (by simp [hsame, hstate]), hsame,
          hstate]
        simp only [memoryRequestFire, memoryRequest, hsame, hstate,
          Option.isSome_some, hready, Bool.and_self, if_true]
      have hat'' : (ts (m + 1)).mshrAt = (ts n).mshrAt := by
        rw [hrun.observe, ← hat']
        change (if (cs m).lookupMissAllocate then _ else _) = _
        rw [hc.not_miss (by simp [hsame, hstate])]
        rfl
      obtain ⟨m', hm', hk⟩ := critical_answered hcoherent hrun hfair
        (n := m + 1) (k := k) (by rw [hnext]) (by rw [hnext]; exact hfirst)
        (hat.trans hat''.symm)
      exact ⟨m', by omega, hk⟩

/-- Every accepted load is answered. -/
theorem load_answered {n k : Nat} {q : CacheRequest}
    (hq : (ts n).accepted[k]? = some q) (hload : q.write = false) :
    ∃ m, n ≤ m ∧ k ∈ (ts m).responses.map Prod.fst := by
  by_cases hdone : k ∈ (ts n).responses.map Prod.fst
  · exact ⟨n, le_rfl, hdone⟩
  · have hwaits : (cs n).Waits (ts n) k := by
      by_contra hnot
      exact hdone (((hcoherent n).ledger.waiting k q hq hload).mpr hnot)
    rcases hwaits with ⟨hstage, hat⟩ | ⟨hbusy, hfirst, hat⟩
    · obtain ⟨m, hm, hstage', haccepted, hat', hadvance⟩ :=
        lookup_leaves hcoherent hrun hfair hstage
      have hrequest := ((hcoherent m).ledger.lookup hstage').1
      rw [haccepted, hat', ← hat, hq] at hrequest
      have hread : (cs m).lookup.request.write = false := by
        rw [← Option.some.inj hrequest]
        exact hload
      rw [(hcoherent m).control.load_advance hstage' hread,
        Bool.or_eq_true] at hadvance
      rcases hadvance with hmiss | hfire
      · have hwaits := ((hcoherent m).control.step_waits_miss (b := b)
          (i := is m) (t := ts m) (k := k)).mpr
          (Or.inl ⟨hmiss, hat.trans hat'.symm⟩)
        rw [← hrun.step, ← hrun.observe] at hwaits
        obtain ⟨hbusy, hfirst, hk⟩ := hwaits
        obtain ⟨m', hm', hanswered⟩ :=
          miss_answered hcoherent hrun hfair hbusy hfirst hk
        exact ⟨m', by omega, hanswered⟩
      · exact ⟨m + 1, by omega, hrun.answered (mem_answered_positions.mpr
          (Or.inr ⟨hfire, hat.trans hat'.symm⟩))⟩
    · exact miss_answered hcoherent hrun hfair hbusy hfirst hat

/-- Every accepted store is sent to the memory. -/
theorem store_sent (n : Nat) :
    ∃ m, n ≤ m ∧ storesIn (ts n).accepted <+: (ts m).sent := by
  have hstores := (hcoherent n).ledger.stores
  cases hstore : (cs n).storing with
  | false =>
      rw [hstore, if_neg Bool.false_ne_true, List.append_nil] at hstores
      exact ⟨n, le_rfl, by rw [hstores]⟩
  | true =>
      have hstage := hstore
      rw [storing, Bool.and_eq_true] at hstage
      obtain ⟨m, hm, hstage', haccepted, hat, hadvance⟩ :=
        lookup_leaves hcoherent hrun hfair hstage.1
      have hrequest := ((hcoherent m).ledger.lookup hstage').1
      rw [haccepted, hat, ((hcoherent n).ledger.lookup hstage.1).1]
        at hrequest
      have hstore' : (cs m).storing = true := by
        rw [storing, hstage', ← Option.some.inj hrequest, hstage.2]
        rfl
      have hc := (hcoherent m).control
      rw [(hc.storing_request hstore').2] at hadvance
      have hstores' := (hcoherent m).ledger.stores
      rw [hstore', if_pos rfl, haccepted] at hstores'
      refine ⟨m + 1, by omega, ?_⟩
      rw [hrun.observe, hstores']
      change _ <+: (ts m).sent ++ sentBy ((cs m).memoryAccepts (is m))
      rw [hc.sent_eq, hstore', hadvance]
      exact List.prefix_rfl

end Progress

section Transparency

/-- The runs of the cache from reset, whatever its arrays held, in front of a
memory that answers its reads in order. -/
inductive Run (b : Backing) : DataCache → CacheTraffic → Prop
  | reset (tagArray : CacheSet → CacheTag)
      (dataBank : LineWord → CacheSet → Word) :
      Run b (reset tagArray dataBank) {}
  | step {c : DataCache} {t : CacheTraffic} (h : Run b c t) (i : Inputs)
      (ho : Offers i t) : Run b (c.step i) (c.observe b i t)

variable {init : Word → BitVec 8} {c : DataCache} {t : CacheTraffic}

theorem flat_unaliased (i : Inputs) :
    c.Unaliased (Backing.flat init) i :=
  fun _ _ _ _ _ h => h

theorem Run.coherent (h : Run (Backing.flat init) c t) :
    Coherent (Backing.flat init) c t := by
  induction h with
  | reset tagArray dataBank => exact reset_coherent _ tagArray dataBank
  | step _ i ho ih => exact ih.step ho (flat_unaliased i)

theorem Endless.run {b : Backing} {cs : Nat → DataCache}
    {ts : Nat → CacheTraffic} {is : Nat → Inputs}
    (hrun : Endless b cs ts is) (n : Nat) : Run b (cs n) (ts n) := by
  induction n with
  | zero =>
      obtain ⟨tagArray, dataBank, hstart⟩ := hrun.start
      rw [hstart, hrun.empty]
      exact Run.reset tagArray dataBank
  | succ n ih =>
      rw [hrun.step, hrun.observe]
      exact ih.step (is n) (hrun.offers n)

/-- The cache is transparent in front of a flat memory.  A response answers an
accepted load with its id and the value after the stores accepted before it, no
load is answered twice, and the stores sent are the accepted ones in order, the
last of which may still be in the lookup stage.  When nobody blocks the cache
for ever, every load is answered and every store sent. -/
theorem transparent (init : Word → BitVec 8) :
    (∀ c t, Run (Backing.flat init) c t →
      (∀ e ∈ t.responses, Answers (Backing.flat init) t.accepted e.1 e.2) ∧
      (t.responses.map Prod.fst).Nodup ∧
      storesIn t.accepted = t.sent ++
        if c.storing then [c.lookup.request.store] else []) ∧
    ∀ cs ts is, Endless (Backing.flat init) cs ts is → Fair cs ts is →
      (∀ n k q, (ts n).accepted[k]? = some q → q.write = false →
        ∃ m, n ≤ m ∧ k ∈ (ts m).responses.map Prod.fst) ∧
      ∀ n, ∃ m, n ≤ m ∧ storesIn (ts n).accepted <+: (ts m).sent := by
  constructor
  · intro c t h
    have hg := h.coherent.ledger
    exact ⟨hg.correct, hg.once, hg.stores⟩
  · intro cs ts is hrun hfair
    have hcoherent : ∀ n, Coherent (Backing.flat init) (cs n) (ts n) :=
      fun n => (hrun.run n).coherent
    exact ⟨fun _ _ _ hq hload =>
        load_answered hcoherent hrun hfair hq hload,
      store_sent hcoherent hrun hfair⟩

/-- The inputs of a cycle in which the CPU offers a request or none. -/
def offer (request : Option CacheRequest) (answer : Option Word) : Inputs where
  requestValid := request.isSome
  request := request.getD {}
  responseReady := true
  memoryRequestReady := true
  memoryResponseValid := answer.isSome
  memoryResponseData := answer.getD 0

/-- A byte load from 0x41 misses and gets its word first. -/
def missedLoad : DataCache × CacheTraffic :=
  [offer (some { address := 0x41, access := .byte, id := 3 }) none,
    offer none none, offer none none, offer none (some 0xffffffff)].foldl
    (fun s i => (s.1.step i,
      s.1.observe (Backing.flat fun _ => 0xff) i s.2))
    (reset (fun _ => 0) (fun _ _ => 0), {})

theorem transparent_missedLoad :
    missedLoad.2.responses = [(0, ⟨0xffffffff, 3⟩)] ∧
      Answers (Backing.flat fun _ => 0xff) missedLoad.2.accepted 0
        ⟨0xffffffff, 3⟩ := by
  have hresponses : missedLoad.2.responses = [(0, ⟨0xffffffff, 3⟩)] := by
    decide +kernel
  have hrun : Run (Backing.flat fun _ => 0xff) missedLoad.1 missedLoad.2 := by
    refine ((((Run.reset _ _).step _ ⟨?_, ?_⟩).step _ ⟨?_, ?_⟩).step _
      ⟨?_, ?_⟩).step _ ⟨?_, ?_⟩
    · intro h
      cases h
    · intro _
      rfl
    · intro h
      cases h
    · intro h
      cases h
    · intro h
      cases h
    · intro h
      cases h
    · intro _
      decide +kernel
    · intro h
      cases h
  have hmem : (0, ⟨0xffffffff, 3⟩) ∈ missedLoad.2.responses := by
    rw [hresponses]
    exact List.mem_singleton_self _
  have hanswers := ((transparent fun _ => 0xff).1 _ _ hrun).1
    (0, ⟨0xffffffff, 3⟩) hmem
  exact ⟨hresponses, hanswers⟩

end Transparency

end DataCache

end OoOCore
