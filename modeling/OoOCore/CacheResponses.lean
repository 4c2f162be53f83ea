/-
Every accepted load is answered once, with the value the memory has after the
stores accepted before it.  The ledger follows each request from the CPU port
through the lookup stage and the miss register to its response.
-/
import OoOCore.CacheCoherence

namespace OoOCore

/-- The register holds the load. -/
def Mshr.Holds (m : Mshr) (q : CacheRequest) : Prop :=
  q.write = false ∧ q.address = m.address ∧ q.access = m.access ∧ q.id = m.id

namespace DataCache

/-- The response is the one the accepted load at position `k` has to get. -/
def Answers (b : Backing) (accepted : List CacheRequest) (k : Nat)
    (r : CacheResponse) : Prop :=
  ∃ q, accepted[k]? = some q ∧ q.write = false ∧
    r = ⟨b.read (storesIn (accepted.take k)) q.address q.access, q.id⟩

/-- The request at position `k` is in the lookup stage, or in the miss register
without its word. -/
def Waits (c : DataCache) (t : CacheTraffic) (k : Nat) : Prop :=
  (c.lookup.stageValid = true ∧ k = t.lookupAt) ∨
    (c.mshr.valid = true ∧ c.mshr.criticalReturned = false ∧ k = t.mshrAt)

/-- The traffic so far accounts for the state of the cache. -/
structure Ledger (b : Backing) (c : DataCache) (t : CacheTraffic) :
    Prop where
  pending : t.pending = c.owed b t.sent
  aligned : ∀ q ∈ t.accepted, q.Aligned
  lookup : c.lookup.stageValid = true →
    t.accepted[t.lookupAt]? = some c.lookup.request ∧
      t.lookupAt + 1 = t.accepted.length
  stores : storesIn t.accepted =
    t.sent ++ if c.storing then [c.lookup.request.store] else []
  miss : c.mshr.valid = true → ∃ q, t.accepted[t.mshrAt]? = some q ∧
    c.mshr.Holds q
  missStores : c.mshr.valid = true →
    storesIn (t.accepted.take t.mshrAt) = t.sent
  order : c.mshr.valid = true → c.lookup.stageValid = true →
    t.mshrAt < t.lookupAt
  correct : ∀ e ∈ t.responses, Answers b t.accepted e.1 e.2
  once : (t.responses.map Prod.fst).Nodup
  waiting : ∀ k q, t.accepted[k]? = some q → q.write = false →
    (k ∈ t.responses.map Prod.fst ↔ ¬ c.Waits t k)

/-- The cache, the memory behind it and the traffic agree. -/
structure Coherent (b : Backing) (c : DataCache) (t : CacheTraffic) :
    Prop where
  control : c.Control
  lines : Lines b c t.sent
  ledger : Ledger b c t

section Traffic

variable {b : Backing} {c : DataCache} {i : Inputs} {t : CacheTraffic}

theorem storesIn_append (first second : List CacheRequest) :
    storesIn (first ++ second) = storesIn first ++ storesIn second :=
  List.filterMap_append

theorem Answers.append {accepted : List CacheRequest} {k : Nat}
    {r : CacheResponse} (h : Answers b accepted k r)
    (more : List CacheRequest) : Answers b (accepted ++ more) k r := by
  obtain ⟨q, hq, hload, hr⟩ := h
  have hk : k < accepted.length := (List.getElem?_eq_some_iff.mp hq).1
  refine ⟨q, ?_, hload, ?_⟩
  · rw [List.getElem?_append_left hk]
    exact hq
  · rw [List.take_append_of_le_length (Nat.le_of_lt hk)]
    exact hr

/-- A held request was accepted, so it is aligned. -/
theorem Ledger.lookup_aligned (hg : Ledger b c t)
    (hstage : c.lookup.stageValid = true) : c.lookup.request.Aligned :=
  hg.aligned _ (List.mem_of_getElem? (hg.lookup hstage).1)

theorem Ledger.store_aligned (hg : Ledger b c t)
    (hstore : c.storing = true) : c.lookup.request.store.Aligned := by
  rw [storing, Bool.and_eq_true] at hstore
  have h := hg.lookup_aligned hstore.1
  rw [CacheRequest.Aligned, if_pos hstore.2] at h
  exact h

/-- The memory has seen exactly the stores before a load in the lookup
stage. -/
theorem Ledger.lookup_stores (hg : Ledger b c t)
    (hstage : c.lookup.stageValid = true)
    (hload : c.lookup.request.write = false) :
    storesIn (t.accepted.take t.lookupAt) = t.sent ∧ c.storing = false := by
  have hnone : c.storing = false := by
    rw [storing, hload, Bool.and_false]
  obtain ⟨hq, hlast⟩ := hg.lookup hstage
  have hsplit : t.accepted.take (t.lookupAt + 1) =
      t.accepted.take t.lookupAt ++ [c.lookup.request] := by
    rw [List.take_add_one, hq]
    rfl
  rw [hlast, List.take_length] at hsplit
  refine ⟨?_, hnone⟩
  have hstores := hg.stores
  rw [hsplit, storesIn_append, hnone] at hstores
  simpa [storesIn, CacheRequest.store?, hload] using hstores

/-- A read register is only set for the MMIO load in the lookup stage. -/
theorem Control.not_reading (hc : c.Control)
    (hother : c.lookupMmioLoad = false) : c.lookup.mmioReadSent = false := by
  by_contra hsent
  rw [Bool.not_eq_false] at hsent
  rw [hc.reading hsent] at hother
  cases hother

theorem Control.not_mmio_busy (hc : c.Control)
    (hbusy : c.mshr.valid = true) : c.lookupMmioLoad = false := by
  cases hstage : c.lookup.stageValid with
  | false => simp [lookupMmioLoad, hstage]
  | true => simp [lookupMmioLoad, (hc.beside hstage hbusy).2.1]

theorem step_mmioReadSent (hother : c.lookupMmioLoad = false)
    (hsent : c.lookup.mmioReadSent = false) :
    (c.step i).lookup.mmioReadSent = false := by
  change (c.nextLookup i).mmioReadSent = false
  rw [nextLookup]
  split
  · rfl
  · simp [hother, hsent]

/-- The memory request of an idle refill machine. -/
theorem memoryRequest_idle (hstate : c.mshr.refillState = .idle)
    (hother : c.lookupMmioLoad = false) :
    owedBy b t.sent (c.memoryAccepts i) = [] := by
  unfold memoryAccepts
  split
  · rw [memoryRequest, hstate, hother, Bool.or_false]
    cases hcached : c.lookupCachedStore with
    | true =>
        simp only [lookupCachedStore, Bool.and_eq_true] at hcached
        simp [owedBy, lookupRequest, hcached.1.2]
    | false =>
        cases hmmio : c.lookupMmioStore with
        | true =>
            simp only [lookupMmioStore, Bool.and_eq_true] at hmmio
            cases hsent : c.lookup.mmioReadSent <;>
              simp [owedBy, lookupRequest, hmmio.1.2]
        | false => rfl
  · rfl

theorem not_fire_of_stays (hstage : c.lookup.stageValid = true)
    (hstays : c.lookupStageAdvance i = false) : c.requestFire i = false := by
  by_contra hfire
  rw [Bool.not_eq_false] at hfire
  rw [(requestFire_cases hfire).2.2.1 hstage] at hstays
  cases hstays

/-- The signals of an MMIO load: its read is sent first, then its answer is
handed on. -/
theorem Control.mmio_signals (hc : c.Control)
    (hload : c.lookupMmioLoad = true) :
    c.mshr.refillState = .idle ∧ c.storing = false ∧
      c.lookupMissAllocate = false ∧
      c.memoryResponseFire i = (c.lookup.mmioReadSent &&
        (i.memoryResponseValid && i.responseReady)) ∧
      c.memoryRequest i =
        (if c.lookup.mmioReadSent then none else some c.lookupRequest) ∧
      c.lookupStageAdvance i = (c.lookup.mmioReadSent &&
        (i.memoryResponseValid && i.responseReady)) ∧
      c.lookupMmioRequestFire i =
        (!c.lookup.mmioReadSent && i.memoryRequestReady) := by
  have hidle : c.mshr.refillState = .idle := by
    by_contra hstate
    rw [hc.not_mmio_busy (hc.busy.mpr hstate)] at hload
    cases hload
  have hfree := hc.free_of_idle hidle
  have hkind := hload
  simp only [lookupMmioLoad, Bool.and_eq_true, Bool.not_eq_true'] at hkind
  obtain ⟨⟨hstage, hread⟩, hmmio⟩ := hkind
  have hrequest : c.memoryRequest i =
      if c.lookup.mmioReadSent then none else some c.lookupRequest := by
    cases hsent : c.lookup.mmioReadSent <;>
      simp [memoryRequest, hidle, lookupCachedStore, hload, hread, hsent]
  refine ⟨hidle, ?_, ?_, ?_, hrequest, ?_, ?_⟩
  · simp [storing, hread]
  · simp [lookupMissAllocate, lookupCachedLoad, hmmio]
  · cases hsent : c.lookup.mmioReadSent <;>
      simp [memoryResponseFire, memoryResponseReady, hidle, lookupCachedStore,
        hload, hread, hsent]
  · rw [mmioLoad_advance hload]
    cases hsent : c.lookup.mmioReadSent <;>
      simp [lookupMmioResponseFire, lookupMmioResponseValid, hload, hsent,
        criticalResponseValid, hfree]
  · cases hsent : c.lookup.mmioReadSent <;>
      simp [lookupMmioRequestFire, memoryRequestFire, hrequest, hload, hidle,
        hsent, lookupMmioStore, hread]

theorem Ledger.step_pending_mmio (hg : Ledger b c t) (hc : c.Control)
    (hload : c.lookupMmioLoad = true) :
    (c.observe b i t).pending = (c.step i).owed b (c.observe b i t).sent := by
  obtain ⟨hidle, hstore, hmiss, hanswer, hrequest, hadvance, hsend⟩ :=
    hc.mmio_signals (i := i) hload
  have hkind := hload
  simp only [lookupMmioLoad, Bool.and_eq_true, Bool.not_eq_true'] at hkind
  have hstate : (c.step i).mshr.refillState = .idle := by
    change (c.nextMshr i).refillState = .idle
    rw [nextMshr, hidle]
    simp only [allocated, hmiss, Bool.false_eq_true, if_false]
    exact hidle
  have hsent : (c.observe b i t).sent = t.sent := by
    change t.sent ++ sentBy (c.memoryAccepts i) = t.sent
    rw [hc.sent_eq, hstore]
    simp
  have hpending := hg.pending
  rw [owed, hidle] at hpending
  rw [hsent, owed, hstate]
  change (if c.memoryResponseFire i then t.pending.tail else t.pending) ++
    owedBy b t.sent (c.memoryAccepts i) = _
  rw [hanswer, hpending, memoryAccepts, hrequest]
  cases hread : c.lookup.mmioReadSent with
  | false =>
      rw [hread] at hadvance hsend
      have hstays : c.lookupStageAdvance i = false := hadvance
      rw [lookup_stays (not_fire_of_stays hkind.1.1 hstays)]
      simp only [hload, hread, hsend, hstays]
      cases i.memoryRequestReady <;>
        simp [owedBy, lookupRequest, hkind.1.2]
  | true =>
      rw [hread] at hadvance
      simp only [Bool.true_and, if_true] at hadvance ⊢
      cases hfire : i.memoryResponseValid && i.responseReady with
      | false =>
          rw [hfire] at hadvance
          rw [lookup_stays (not_fire_of_stays hkind.1.1 hadvance)]
          simp only [hload, hread, hadvance]
          cases i.memoryRequestReady <;> simp [owedBy]
      | true =>
          rw [hfire] at hadvance
          have hcleared : (c.step i).lookup.mmioReadSent = false := by
            change (c.nextLookup i).mmioReadSent = false
            rw [nextLookup]
            split
            · rfl
            · simp [hread, hadvance]
          rw [hcleared]
          cases i.memoryRequestReady <;> simp [owedBy]

theorem refillRequest_owed (hc : c.Control) (word : LineWord) :
    owedBy b t.sent (some (c.refillRequest word)) =
      [memoryWord b t.sent (lineIndex c.mshr.tag c.mshr.set word)] := by
  rw [hc.missTag, hc.missSet, memoryWord, ← lineAddress_eq]
  rfl

theorem Ledger.step_pending (hg : Ledger b c t) (hc : c.Control) :
    (c.observe b i t).pending = (c.step i).owed b (c.observe b i t).sent := by
  cases hload : c.lookupMmioLoad with
  | true => exact hg.step_pending_mmio hc hload
  | false =>
      have hread := hc.not_reading hload
      have hread' := step_mmioReadSent (i := i) hload hread
      have hpending := hg.pending
      have hsent (hbusy : c.mshr.valid = true) :
          t.sent ++ sentBy (c.memoryAccepts i) = t.sent := by
        rw [hc.sent_busy hbusy, List.append_nil]
      have hnone (hstate : c.mshr.refillState = .idle) :
          c.memoryResponseFire i = false := by
        rw [memoryResponseFire, memoryResponseReady, hstate, hload]
        simp
      change (if c.memoryResponseFire i then t.pending.tail else t.pending) ++
          owedBy b t.sent (c.memoryAccepts i) =
        (c.step i).owed b (t.sent ++ sentBy (c.memoryAccepts i))
      have hmshr : (c.step i).mshr = c.nextMshr i := rfl
      rw [owed] at hpending
      rw [owed, hread', hmshr]
      have hstep := hc.refillStep i
      generalize c.nextMshr i = m at hstep
      cases hstep with
      | rest hstate _ =>
          rw [hstate, hread] at hpending
          rw [hnone hstate, hpending, memoryRequest_idle hstate hload, hstate]
          rfl
      | allocate hstate hmiss =>
          rw [hstate, hread] at hpending
          rw [hnone hstate, hpending, memoryRequest_idle hstate hload,
            allocated, if_pos hmiss]
          rfl
      | hold hstate hready =>
          rw [hstate] at hpending
          rw [hpending, memoryAccepts, hready, hstate]
          simp [owedBy]
      | ask hstate hready =>
          have hbusy : c.mshr.valid = true := hc.busy.mpr (by simp [hstate])
          have hask : c.memoryAccepts i =
              some (c.refillRequest c.mshr.refillWord) := by
            simp [memoryAccepts, hready, memoryRequest, hstate]
          rw [hstate] at hpending
          rw [hsent hbusy, hpending, hask, refillRequest_owed hc]
          simp
      | wait hstate hfire =>
          have hbusy : c.mshr.valid = true := hc.busy.mpr (by simp [hstate])
          have hask : c.memoryAccepts i = none := by
            simp [memoryAccepts, memoryRequest, hstate, hfire]
          rw [hstate] at hpending
          rw [hsent hbusy, hpending, hask, hfire, hstate]
          simp [owedBy]
      | last hstate hfire hcount =>
          have hask : c.memoryAccepts i = none := by
            simp [memoryAccepts, memoryRequest, hstate, hcount]
          rw [hstate] at hpending
          rw [hpending, hask, hfire]
          rfl
      | beat hstate hfire hcount =>
          have hbusy : c.mshr.valid = true := hc.busy.mpr (by simp [hstate])
          have hask : c.memoryAccepts i = if i.memoryRequestReady then
              some (c.refillRequest (c.mshr.refillWord + 1)) else none := by
            rw [memoryAccepts, memoryRequest, hstate]
            simp only [hfire, ne_eq, hcount, not_false_eq_true, decide_true,
              Bool.and_self, if_true]
          rw [hstate] at hpending
          rw [hsent hbusy, hpending, hask, hfire]
          cases i.memoryRequestReady with
          | true =>
              simp only [if_true, List.tail_cons, List.nil_append]
              rw [refillRequest_owed hc]
          | false => rfl

variable (hg : Ledger b c t) (hc : c.Control)

include hg

theorem Ledger.step_aligned (ho : Offers i t) :
    ∀ q ∈ (c.observe b i t).accepted, q.Aligned := by
  intro q hq
  rcases List.mem_append.mp hq with hq | hq
  · exact hg.aligned q hq
  · split at hq
    · next hfire =>
      rw [List.mem_singleton] at hq
      subst hq
      exact ho.aligned (requestFire_cases hfire).1
    · cases hq

theorem Ledger.step_lookup (hstage : (c.step i).lookup.stageValid = true) :
    (c.observe b i t).accepted[(c.observe b i t).lookupAt]? =
        some (c.step i).lookup.request ∧
      (c.observe b i t).lookupAt + 1 = (c.observe b i t).accepted.length := by
  change (t.accepted ++ if c.requestFire i then [i.request] else [])[
      if c.requestFire i then t.accepted.length else t.lookupAt]? = _ ∧
    (if c.requestFire i then t.accepted.length else t.lookupAt) + 1 =
      (t.accepted ++ if c.requestFire i then [i.request] else []).length
  cases hfire : c.requestFire i with
  | true =>
      have hrequest : (c.step i).lookup.request = i.request := by
        change (c.nextLookup i).request = _
        rw [nextLookup, if_pos hfire]
      rw [hrequest]
      simp
  | false =>
      rw [lookup_stays hfire] at hstage ⊢
      rw [Bool.and_eq_true] at hstage
      simpa using hg.lookup hstage.1

include hc

theorem Ledger.step_stores :
    storesIn (c.observe b i t).accepted = (c.observe b i t).sent ++
      if (c.step i).storing then [(c.step i).lookup.request.store]
      else [] := by
  change storesIn (t.accepted ++ if c.requestFire i then [i.request] else []) =
    t.sent ++ sentBy (c.memoryAccepts i) ++ _
  have hentered (hfire : c.requestFire i = true) :
      (if (c.step i).storing then [(c.step i).lookup.request.store]
        else []) = storesIn [i.request] := by
    have hlookup : (c.step i).lookup.request = i.request ∧
        (c.step i).lookup.stageValid = true := by
      change (c.nextLookup i).request = _ ∧ (c.nextLookup i).stageValid = _
      rw [nextLookup, if_pos hfire]
      exact ⟨rfl, rfl⟩
    rw [storing, hlookup.1, hlookup.2]
    cases hwrite : i.request.write <;>
      simp [storesIn, CacheRequest.store?, hwrite]
  rw [storesIn_append, hg.stores, hc.sent_eq]
  cases hstore : c.storing with
  | true =>
      have hadvance := (hc.storing_request (i := i) hstore).2
      cases hready : i.memoryRequestReady with
      | true =>
          cases hfire : c.requestFire i with
          | true =>
              rw [hentered hfire]
              simp
          | false =>
              rw [storing, lookup_stays hfire]
              simp [hadvance, hready, storesIn]
      | false =>
          rw [hready] at hadvance
          have hstage := hstore
          rw [storing, Bool.and_eq_true] at hstage
          have hfire := not_fire_of_stays hstage.1 hadvance
          rw [storing, lookup_stays hfire, hfire]
          simp [hadvance, hstage.1, hstage.2, storesIn]
  | false =>
      cases hfire : c.requestFire i with
      | true =>
          rw [hentered hfire]
          simp
      | false =>
          have hnone : (c.step i).storing = false := by
            rw [storing, lookup_stays hfire, Bool.and_right_comm]
            change (c.storing && _) = false
            rw [hstore]
            rfl
          rw [hnone]
          simp [storesIn]

/-- What the miss register holds after the edge: the load it held, or the one
that missed in the lookup stage. -/
theorem Ledger.step_miss (hbusy : (c.step i).mshr.valid = true) :
    (∃ q, (c.observe b i t).accepted[(c.observe b i t).mshrAt]? = some q ∧
        (c.step i).mshr.Holds q) ∧
      storesIn ((c.observe b i t).accepted.take (c.observe b i t).mshrAt) =
        (c.observe b i t).sent := by
  have hkept (hold : c.mshr.valid = true) :
      (∃ q, (c.observe b i t).accepted[(c.observe b i t).mshrAt]? = some q ∧
        c.mshr.Holds q) ∧
      storesIn ((c.observe b i t).accepted.take (c.observe b i t).mshrAt) =
        (c.observe b i t).sent := by
    have hmiss := hc.not_miss (hc.busy.mp hold)
    obtain ⟨q, hq, hload⟩ := hg.miss hold
    have hk : t.mshrAt < t.accepted.length :=
      (List.getElem?_eq_some_iff.mp hq).1
    have hat : (c.observe b i t).mshrAt = t.mshrAt := by
      change (if c.lookupMissAllocate then t.lookupAt else t.mshrAt) = _
      rw [hmiss]
      rfl
    have hsent : (c.observe b i t).sent = t.sent := by
      change t.sent ++ sentBy (c.memoryAccepts i) = t.sent
      rw [hc.sent_eq, hc.not_storing_busy hold]
      simp
    rw [hat, hsent]
    refine ⟨⟨q, ?_, hload⟩, ?_⟩
    · change (t.accepted ++ _)[t.mshrAt]? = some q
      rw [List.getElem?_append_left hk]
      exact hq
    · change storesIn ((t.accepted ++ _).take t.mshrAt) = t.sent
      rw [List.take_append_of_le_length (Nat.le_of_lt hk)]
      exact hg.missStores hold
  change (c.nextMshr i).valid = true at hbusy
  change (∃ q, _ ∧ (c.nextMshr i).Holds q) ∧ _
  have hstep := hc.refillStep i
  generalize c.nextMshr i = m at hstep hbusy
  cases hstep with
  | rest hstate _ => exact absurd hstate (hc.busy.mp hbusy)
  | allocate hstate hmiss =>
      have hload := hmiss
      simp only [lookupMissAllocate, lookupCachedLoad, Bool.and_eq_true,
        Bool.not_eq_true'] at hload
      obtain ⟨⟨⟨⟨hstage, hread⟩, -⟩, -⟩, -⟩ := hload
      obtain ⟨hstores, hnone⟩ := hg.lookup_stores hstage hread
      obtain ⟨hq, -⟩ := hg.lookup hstage
      have hk : t.lookupAt < t.accepted.length :=
        (List.getElem?_eq_some_iff.mp hq).1
      have hat : (c.observe b i t).mshrAt = t.lookupAt := by
        change (if c.lookupMissAllocate then t.lookupAt else t.mshrAt) = _
        rw [hmiss]
        rfl
      rw [hat, allocated, if_pos hmiss]
      refine ⟨⟨c.lookup.request, ?_, hread, rfl, rfl, rfl⟩, ?_⟩
      · change (t.accepted ++ _)[t.lookupAt]? = _
        rw [List.getElem?_append_left hk]
        exact hq
      · change storesIn ((t.accepted ++ _).take t.lookupAt) =
          t.sent ++ sentBy (c.memoryAccepts i)
        rw [List.take_append_of_le_length (Nat.le_of_lt hk), hstores,
          hc.sent_eq, hnone]
        simp
  | hold | ask | wait | beat => exact hkept hbusy
  | last => cases hbusy

omit hg in
/-- A refill that no miss started was running before. -/
theorem Control.busy_before (hbusy : (c.step i).mshr.valid = true)
    (hmiss : c.lookupMissAllocate = false) : c.mshr.valid = true := by
  by_contra hidle
  have hstate : c.mshr.refillState = .idle := by
    by_contra hstate
    exact hidle (hc.busy.mpr hstate)
  change (c.nextMshr i).valid = true at hbusy
  rw [nextMshr, hstate] at hbusy
  simp only [allocated, hmiss, Bool.false_eq_true, if_false] at hbusy
  exact hidle hbusy

theorem Ledger.step_order (hbusy : (c.step i).mshr.valid = true)
    (hstage : (c.step i).lookup.stageValid = true) :
    (c.observe b i t).mshrAt < (c.observe b i t).lookupAt := by
  change (if c.lookupMissAllocate then t.lookupAt else t.mshrAt) <
    if c.requestFire i then t.accepted.length else t.lookupAt
  cases hfire : c.requestFire i with
  | true =>
      have hmiss := (requestFire_cases hfire).2.1
      rw [hmiss, if_pos rfl, if_neg Bool.false_ne_true]
      obtain ⟨q, hq, -⟩ := hg.miss (hc.busy_before hbusy hmiss)
      exact (List.getElem?_eq_some_iff.mp hq).1
  | false =>
      rw [lookup_stays hfire, Bool.and_eq_true, Bool.not_eq_true'] at hstage
      have hmiss : c.lookupMissAllocate = false := by
        by_contra hmiss
        rw [Bool.not_eq_false] at hmiss
        rw [miss_advance hmiss] at hstage
        cases hstage.2
      rw [hmiss, if_neg Bool.false_ne_true, if_neg Bool.false_ne_true]
      exact hg.order (hc.busy_before hbusy hmiss) hstage.1

omit hg hc in
/-- The formatted word is the memory's answer to the load. -/
theorem formatLoad_read {q : CacheRequest} (haligned : q.Aligned)
    (hload : q.write = false) (sent : List StoreRequest) :
    formatLoad (memoryWord b sent (wordIndex q.address)) q.access
      (byteOffset q.address) = b.read sent q.address q.access := by
  rw [CacheRequest.Aligned, hload, if_neg Bool.false_ne_true] at haligned
  exact (b.format sent q.address q.access haligned).symm

omit hg hc in
/-- A response comes from the miss register or from the lookup stage. -/
theorem mem_answered {e : Nat × CacheResponse} (he : e ∈ c.answered i t) :
    (c.criticalResponseValid i = true ∧ i.responseReady = true ∧
      e = (t.mshrAt, ⟨formatLoad i.memoryResponseData c.mshr.access
        (byteOffset c.mshr.address), c.mshr.id⟩)) ∨
    (c.lookupResponseFire i = true ∧ e.1 = t.lookupAt ∧
      ((c.lookupMmioResponseValid i = true ∧
          e.2 = ⟨i.memoryResponseData, c.lookup.request.id⟩) ∨
        (c.lookupLoadHitResponseValid = true ∧
          e.2 = ⟨formatLoad c.lookup.data c.lookup.request.access
            (byteOffset c.lookup.request.address),
            c.lookup.request.id⟩))) := by
  rw [answered] at he
  split at he
  · next hready =>
    obtain ⟨r, hr, rfl⟩ := List.mem_map.mp he
    rw [Option.mem_toList] at hr
    change c.response i = some r at hr
    rw [response] at hr
    cases hcritical : c.criticalResponseValid i with
    | true =>
        rw [hcritical, if_pos rfl] at hr
        left
        exact ⟨rfl, hready, by rw [if_pos rfl, ← Option.some.inj hr]⟩
    | false =>
        rw [hcritical, if_neg Bool.false_ne_true] at hr
        right
        have hselected (hone : (c.lookupMmioResponseValid i ||
            c.lookupLoadHitResponseValid) = true) :
            c.lookupResponseFire i = true := by
          rw [lookupResponseFire, lookupResponseSelected, hcritical, hone,
            hready]
          rfl
        split at hr
        · next hmmio =>
          refine ⟨hselected (by simp [hmmio]), by simp, Or.inl ⟨hmmio, ?_⟩⟩
          exact (Option.some.inj hr).symm
        · split at hr
          · next hhit =>
            refine ⟨hselected (by simp [hhit]), by simp, Or.inr ⟨hhit, ?_⟩⟩
            exact (Option.some.inj hr).symm
          · cases hr
  · cases he

/-- Every response answers the load at its position. -/
theorem Ledger.answered_correct (hl : Lines b c t.sent) (ho : Offers i t)
    {e : Nat × CacheResponse} (he : e ∈ c.answered i t) :
    Answers b t.accepted e.1 e.2 ∧ c.Waits t e.1 := by
  rcases mem_answered he with ⟨hcritical, -, rfl⟩ | ⟨hfire, hat, hkind⟩
  · simp only [criticalResponseValid, Bool.and_eq_true, beq_iff_eq,
      Bool.not_eq_true'] at hcritical
    obtain ⟨⟨⟨hbusy, hstate⟩, hfirst⟩, hvalid⟩ := hcritical
    obtain ⟨q, hq, hload, haddress, haccess, hid⟩ := hg.miss hbusy
    have hcount : c.mshr.refillCount = 0 := by
      by_contra hcount
      rw [(hc.critical hbusy).mpr hcount] at hfirst
      cases hfirst
    have hdata := ho.answer hvalid
    rw [hg.pending, owed, hstate] at hdata
    have hword : lineIndex c.mshr.tag c.mshr.set c.mshr.refillWord =
        wordIndex q.address := by
      rw [hc.missTag, hc.missSet, hc.refillWord, hcount, haddress,
        wordIndex_eq_lineIndex]
      congr 1
      exact BitVec.add_zero _
    rw [hword] at hdata
    refine ⟨⟨q, hq, hload, ?_⟩, Or.inr ⟨hbusy, hfirst, rfl⟩⟩
    rw [hg.missStores hbusy, ← formatLoad_read
      (hg.aligned q (List.mem_of_getElem? hq)) hload, ← haddress, ← haccess,
      hid, Option.some.inj hdata]
  · have hstage : c.lookup.stageValid = true ∧
        c.lookup.request.write = false := by
      rcases hkind with ⟨hmmio, -⟩ | ⟨hhit, -⟩
      · simp only [lookupMmioResponseValid, lookupMmioLoad, Bool.and_eq_true,
          Bool.not_eq_true'] at hmmio
        exact hmmio.1.1.1
      · simp only [lookupLoadHitResponseValid, lookupCachedLoad,
          Bool.and_eq_true, Bool.not_eq_true'] at hhit
        exact hhit.1.1
    obtain ⟨hstage, hload⟩ := hstage
    refine ⟨⟨c.lookup.request, ?_, hload, ?_⟩, Or.inl ⟨hstage, hat⟩⟩
    · rw [hat]
      exact (hg.lookup hstage).1
    · rw [hat, (hg.lookup_stores hstage hload).1]
      rcases hkind with ⟨hmmio, hr⟩ | ⟨hhit, hr⟩
      · simp only [lookupMmioResponseValid, Bool.and_eq_true] at hmmio
        have hdata := ho.answer hmmio.2
        obtain ⟨hidle, -⟩ := hc.mmio_signals (i := i) hmmio.1.1
        rw [hg.pending, owed, hidle, hmmio.1.2] at hdata
        rw [hr, ← Option.some.inj hdata]
      · simp only [lookupLoadHitResponseValid, lookupCachedLoad,
          Bool.and_eq_true, Bool.not_eq_true'] at hhit
        obtain ⟨⟨-, hcached⟩, hhit⟩ := hhit
        have hline := hhit
        rw [lookupHit, hl.lineValid hstage hcached, hl.arrayTag hstage hcached,
          Bool.and_eq_true, decide_eq_true_eq] at hline
        have hword : c.lookup.data = memoryWord b t.sent
            (wordIndex c.lookup.request.address) := by
          rw [hl.data hstage hcached hhit, hl.valid _ _ hline.1, hline.2,
            hc.tag, hc.set, hc.word, wordIndex_eq_lineIndex]
        rw [hr, hword, formatLoad_read (hg.lookup_aligned hstage) hload]

omit hg hc in
theorem answered_positions : (c.answered i t).map Prod.fst =
    if c.criticalResponseValid i && i.responseReady then [t.mshrAt]
    else if c.lookupResponseFire i then [t.lookupAt] else [] := by
  rw [answered, response, lookupResponseFire, lookupResponseSelected]
  cases i.responseReady <;> cases c.criticalResponseValid i <;>
    cases c.lookupMmioResponseValid i <;>
    cases c.lookupLoadHitResponseValid <;> rfl

omit hg hc in
theorem mem_answered_positions {k : Nat} :
    k ∈ (c.answered i t).map Prod.fst ↔
      (c.criticalResponseValid i = true ∧ i.responseReady = true ∧
        k = t.mshrAt) ∨ (c.lookupResponseFire i = true ∧ k = t.lookupAt) := by
  rw [answered_positions]
  cases hcritical : c.criticalResponseValid i with
  | false => cases c.lookupResponseFire i <;> simp
  | true =>
      have hnone : c.lookupResponseFire i = false := by
        simp [lookupResponseFire, lookupResponseSelected, hcritical]
      rw [hnone]
      cases i.responseReady <;> simp

omit hg in
/-- A load leaves the lookup stage for the miss register or with its
response. -/
theorem Control.load_advance (hstage : c.lookup.stageValid = true)
    (hload : c.lookup.request.write = false) :
    c.lookupStageAdvance i =
      (c.lookupMissAllocate || c.lookupResponseFire i) := by
  cases hmmio : c.lookup.mmio with
  | true =>
      have hkind : c.lookupMmioLoad = true := by
        simp [lookupMmioLoad, hstage, hload, hmmio]
      obtain ⟨-, -, hmiss, -⟩ := hc.mmio_signals (i := i) hkind
      rw [mmioLoad_advance hkind, hmiss]
      simp only [lookupMmioResponseFire, lookupResponseFire,
        lookupResponseSelected, lookupLoadHitResponseValid, lookupCachedLoad,
        lookupMmioResponseValid, hmmio]
      cases c.lookup.mmioReadSent <;> cases c.criticalResponseValid i <;>
        simp
  | false =>
      have hkind : c.lookupCachedLoad = true := by
        simp [lookupCachedLoad, hstage, hload, hmmio]
      rw [lookupStageAdvance, if_pos hkind]
      cases hhit : c.lookupHit <;>
        simp [lookupMissAllocate, lookupResponseFire, lookupResponseSelected,
          lookupLoadHitResponseValid, lookupMmioResponseValid, lookupMmioLoad,
          hkind, hmmio, hhit]

omit hg in
/-- Who waits in the miss register after the edge. -/
theorem Control.step_waits_miss {k : Nat} :
    ((c.step i).mshr.valid = true ∧
        (c.step i).mshr.criticalReturned = false ∧
        k = (c.observe b i t).mshrAt) ↔
      (c.lookupMissAllocate = true ∧ k = t.lookupAt) ∨
        (c.mshr.valid = true ∧ c.mshr.criticalReturned = false ∧
          ¬ (c.criticalResponseValid i = true ∧ i.responseReady = true) ∧
          k = t.mshrAt) := by
  have hnone (hstate : c.mshr.refillState ≠ .response) :
      c.criticalResponseValid i = false := by
    simp [criticalResponseValid, hstate]
  have hfires (hbusy : c.mshr.valid = true)
      (hstate : c.mshr.refillState = .response)
      (hfirst : c.mshr.criticalReturned = false) :
      (c.criticalResponseValid i = true ∧ i.responseReady = true) ↔
        c.memoryResponseFire i = true := by
    simp [criticalResponseValid, memoryResponseFire, memoryResponseReady,
      hbusy, hstate, hfirst]
  change ((c.nextMshr i).valid = true ∧
    (c.nextMshr i).criticalReturned = false ∧
    k = if c.lookupMissAllocate then t.lookupAt else t.mshrAt) ↔ _
  have hstep := hc.refillStep i
  generalize c.nextMshr i = m at hstep
  cases hstep with
  | rest hstate hmiss =>
      have hidle := hc.free_of_idle hstate
      simp [hidle, hmiss]
  | allocate hstate hmiss =>
      have hidle := hc.free_of_idle hstate
      simp [hidle, hmiss, allocated]
  | hold hstate _ | ask hstate _ =>
      have hmiss := hc.not_miss (by simp [hstate])
      simp [hmiss, hnone (by simp [hstate])]
  | wait hstate hfire =>
      have hmiss := hc.not_miss (by simp [hstate])
      have hbusy : c.mshr.valid = true := hc.busy.mpr (by simp [hstate])
      simp only [hmiss, hbusy, Bool.false_eq_true, if_false, false_and,
        false_or, true_and]
      constructor
      · rintro ⟨hfirst, hk⟩
        refine ⟨hfirst, ?_, hk⟩
        rw [hfires hbusy hstate hfirst, hfire]
        exact Bool.false_ne_true
      · rintro ⟨hfirst, -, hk⟩
        exact ⟨hfirst, hk⟩
  | last hstate hfire _ | beat hstate hfire _ =>
      have hmiss := hc.not_miss (by simp [hstate])
      have hbusy : c.mshr.valid = true := hc.busy.mpr (by simp [hstate])
      simp only [hmiss, hbusy, Bool.true_eq_false, false_and, and_false,
        Bool.false_eq_true, if_false, false_or, true_and, false_iff]
      rintro ⟨hfirst, hnot, -⟩
      exact hnot ((hfires hbusy hstate hfirst).mpr hfire)

/-- A load accepted earlier waits after the edge exactly when it waited before
and is not answered now. -/
theorem Ledger.step_waits {k : Nat} {q : CacheRequest}
    (hq : t.accepted[k]? = some q) (hload : q.write = false) :
    (c.step i).Waits (c.observe b i t) k ↔
      c.Waits t k ∧ k ∉ (c.answered i t).map Prod.fst := by
  have hk : k < t.accepted.length := (List.getElem?_eq_some_iff.mp hq).1
  have hstays : ((c.step i).lookup.stageValid = true ∧
      k = (c.observe b i t).lookupAt) ↔
      (c.lookup.stageValid = true ∧ c.lookupStageAdvance i = false ∧
        k = t.lookupAt) := by
    change ((c.step i).lookup.stageValid = true ∧
      k = if c.requestFire i then t.accepted.length else t.lookupAt) ↔ _
    cases hfire : c.requestFire i with
    | true =>
        constructor
        · rintro ⟨-, hat⟩
          rw [if_pos rfl] at hat
          omega
        · rintro ⟨hstage, hstays, -⟩
          rw [not_fire_of_stays hstage hstays] at hfire
          cases hfire
    | false =>
        rw [lookup_stays hfire, if_neg Bool.false_ne_true, Bool.and_eq_true,
          Bool.not_eq_true', and_assoc]
  have hheld (hstage : c.lookup.stageValid = true) (hat : k = t.lookupAt) :
      c.lookup.request.write = false := by
    have hrequest := (hg.lookup hstage).1
    rw [← hat, hq] at hrequest
    rw [← Option.some.inj hrequest]
    exact hload
  rw [Waits, hstays, hc.step_waits_miss, mem_answered_positions, Waits]
  constructor
  · rintro (⟨hstage, hstays, hat⟩ | ⟨hmiss, hat⟩ | ⟨hbusy, hfirst, hnot, hat⟩)
    · have hadvance := hc.load_advance (i := i) hstage (hheld hstage hat)
      rw [hstays, eq_comm, Bool.or_eq_false_iff] at hadvance
      refine ⟨Or.inl ⟨hstage, hat⟩, ?_⟩
      rintro (⟨hcritical, -, hat'⟩ | ⟨hfire, -⟩)
      · simp only [criticalResponseValid, Bool.and_eq_true] at hcritical
        have horder := hg.order hcritical.1.1.1 hstage
        omega
      · rw [hadvance.2] at hfire
        cases hfire
    · have hstage := lookupStageAdvance_valid (i := i) (miss_advance hmiss)
      simp only [lookupMissAllocate, Bool.and_eq_true,
        Bool.not_eq_true'] at hmiss
      refine ⟨Or.inl ⟨hstage, hat⟩, ?_⟩
      rintro (⟨hcritical, -, -⟩ | ⟨hfire, -⟩)
      · simp [criticalResponseValid, hmiss.2] at hcritical
      · simp only [lookupResponseFire, lookupResponseSelected,
          lookupLoadHitResponseValid, lookupMmioResponseValid, lookupMmioLoad,
          lookupCachedLoad, Bool.and_eq_true, Bool.or_eq_true,
          Bool.not_eq_true'] at hfire hmiss
        rcases hfire.1.2 with hmmio | hhit
        · rw [hmmio.1.1.2] at hmiss
          cases hmiss.1.1.2
        · rw [hhit.2] at hmiss
          cases hmiss.1.2
    · refine ⟨Or.inr ⟨hbusy, hfirst, hat⟩, ?_⟩
      rintro (⟨hcritical, hready, -⟩ | ⟨hfire, hat'⟩)
      · exact hnot ⟨hcritical, hready⟩
      · have horder := hg.order hbusy (lookupResponseFire_valid hfire)
        omega
  · rintro ⟨⟨hstage, hat⟩ | ⟨hbusy, hfirst, hat⟩, hnot⟩
    · have hadvance := hc.load_advance (i := i) hstage (hheld hstage hat)
      cases hadv : c.lookupStageAdvance i with
      | false => exact Or.inl ⟨hstage, rfl, hat⟩
      | true =>
          rw [hadv, eq_comm, Bool.or_eq_true] at hadvance
          rcases hadvance with hmiss | hfire
          · exact Or.inr (Or.inl ⟨hmiss, hat⟩)
          · exact absurd (Or.inr ⟨hfire, hat⟩) hnot
    · refine Or.inr (Or.inr ⟨hbusy, hfirst, ?_, hat⟩)
      rintro ⟨hcritical, hready⟩
      exact hnot (Or.inl ⟨hcritical, hready, hat⟩)

theorem Ledger.step_waiting {k : Nat} {q : CacheRequest}
    (hq : (c.observe b i t).accepted[k]? = some q) (hload : q.write = false) :
    k ∈ (c.observe b i t).responses.map Prod.fst ↔
      ¬ (c.step i).Waits (c.observe b i t) k := by
  change k ∈ (t.responses ++ c.answered i t).map Prod.fst ↔ _
  rw [List.map_append, List.mem_append]
  by_cases hk : k < t.accepted.length
  · have hold : t.accepted[k]? = some q := by
      change (t.accepted ++ _)[k]? = some q at hq
      rw [List.getElem?_append_left hk] at hq
      exact hq
    rw [hg.step_waits hc hold hload, hg.waiting k q hold hload]
    tauto
  · have hend := (List.getElem?_eq_some_iff.mp hq).1
    change k < (t.accepted ++ if c.requestFire i then [i.request]
      else []).length at hend
    have hfire : c.requestFire i = true := by
      by_contra hfire
      rw [Bool.not_eq_true] at hfire
      rw [hfire] at hend
      simp at hend
      omega
    have hnew : k = t.accepted.length := by
      rw [hfire] at hend
      simp at hend
      omega
    have hwaits : (c.step i).Waits (c.observe b i t) k := by
      left
      constructor
      · change (c.nextLookup i).stageValid = true
        rw [nextLookup, if_pos hfire]
      · change k = if c.requestFire i then t.accepted.length else t.lookupAt
        rw [hfire, if_pos rfl]
        exact hnew
    refine iff_of_false ?_ (not_not.mpr hwaits)
    rintro (hmem | hmem)
    · obtain ⟨e, he, rfl⟩ := List.mem_map.mp hmem
      obtain ⟨q', hq', -⟩ := hg.correct e he
      exact hk (List.getElem?_eq_some_iff.mp hq').1
    · rcases mem_answered_positions.mp hmem with
        ⟨hcritical, -, hat⟩ | ⟨hresponse, hat⟩
      · simp only [criticalResponseValid, Bool.and_eq_true] at hcritical
        obtain ⟨q', hq', -⟩ := hg.miss hcritical.1.1.1
        rw [← hat] at hq'
        exact hk (List.getElem?_eq_some_iff.mp hq').1
      · have hlast := (hg.lookup (lookupResponseFire_valid hresponse)).2
        omega

end Traffic

section Coherent

variable {b : Backing} {c : DataCache} {i : Inputs} {t : CacheTraffic}

/-- The beat of a refill is the word it asked for. -/
theorem Coherent.refill_data (h : Coherent b c t) (ho : Offers i t)
    (hwrite : c.arrayRefillWriteEnable i = true) :
    i.memoryResponseData = memoryWord b t.sent
      (lineIndex c.mshr.tag c.mshr.set c.mshr.refillWord) := by
  obtain ⟨hstate, hfire⟩ := refillWrite_state hwrite
  rw [memoryResponseFire, Bool.and_eq_true] at hfire
  have hdata := ho.answer hfire.1
  rw [h.ledger.pending, owed, hstate] at hdata
  exact (Option.some.inj hdata).symm

theorem Coherent.step_ledger (h : Coherent b c t) (ho : Offers i t) :
    Ledger b (c.step i) (c.observe b i t) where
  pending := h.ledger.step_pending h.control
  aligned := h.ledger.step_aligned ho
  lookup := h.ledger.step_lookup
  stores := h.ledger.step_stores h.control
  miss := fun hbusy => (h.ledger.step_miss h.control hbusy).1
  missStores := fun hbusy => (h.ledger.step_miss h.control hbusy).2
  order := h.ledger.step_order h.control
  correct := by
    intro e he
    rcases List.mem_append.mp he with he | he
    · exact (h.ledger.correct e he).append _
    · exact (h.ledger.answered_correct h.control h.lines ho he).1.append _
  once := by
    change ((t.responses ++ c.answered i t).map Prod.fst).Nodup
    rw [List.map_append, List.nodup_append]
    refine ⟨h.ledger.once, ?_, ?_⟩
    · rw [answered_positions]
      split
      · simp
      · split <;> simp
    · intro k hk k' hk' heq
      subst heq
      obtain ⟨e, he, rfl⟩ := List.mem_map.mp hk'
      obtain ⟨⟨q, hq, hload, -⟩, hwaits⟩ :=
        h.ledger.answered_correct h.control h.lines ho he
      exact (h.ledger.waiting e.1 q hq hload).mp hk hwaits
  waiting := fun _ _ => h.ledger.step_waiting h.control

theorem Coherent.step (h : Coherent b c t) (ho : Offers i t)
    (hu : c.Unaliased b i) : Coherent b (c.step i) (c.observe b i t) :=
  ⟨h.control.step,
    h.lines.step h.control hu h.ledger.store_aligned (h.refill_data ho),
    h.step_ledger ho⟩

theorem reset_coherent (b : Backing) (tagArray : CacheSet → CacheTag)
    (dataBank : LineWord → CacheSet → Word) :
    Coherent b (reset tagArray dataBank) {} where
  control := reset_control tagArray dataBank
  lines := by constructor <;> simp [reset]
  ledger := by constructor <;> simp [reset, owed, storesIn, storing]

end Coherent

end DataCache

end OoOCore
