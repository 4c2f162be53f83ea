/-
The control of the data cache: the traffic on its two ports, how the lookup
stage and the miss register move, and which cycle sends a store to the memory.
-/
import OoOCore.CacheMemory

namespace OoOCore

/-- The store of a write request. -/
def CacheRequest.store (q : CacheRequest) : StoreRequest where
  address := q.address
  data := q.writeData
  access := q.access

/-- The store, if the request is a write. -/
def CacheRequest.store? (q : CacheRequest) : Option StoreRequest :=
  if q.write then some q.store else none

/-- Naturally aligned, with a store mode for a store. -/
def CacheRequest.Aligned (q : CacheRequest) : Prop :=
  if q.write then q.store.Aligned
  else LoadStoreExecutionUnit.misaligned q.access q.address = false

/-- The stores among some requests. -/
def storesIn (requests : List CacheRequest) : List StoreRequest :=
  requests.filterMap CacheRequest.store?

/-- What has happened on the ports of the cache, and the answers its backing
memory still owes.  `lookupAt` and `mshrAt` are the positions of the requests
in the lookup stage and in the miss register. -/
structure CacheTraffic where
  accepted : List CacheRequest := []
  sent : List StoreRequest := []
  pending : List Word := []
  responses : List (Nat × CacheResponse) := []
  lookupAt : Nat := 0
  mshrAt : Nat := 0

namespace DataCache

section Observations

variable (b : Backing) (c : DataCache) (i : Inputs) (t : CacheTraffic)

/-- The request the backing memory accepts. -/
def memoryAccepts : Option BackingRequest :=
  if i.memoryRequestReady then c.memoryRequest i else none

/-- The store of an accepted write. -/
def sentBy (q : Option BackingRequest) : List StoreRequest :=
  (q.filter BackingRequest.write).toList.map fun q =>
    ⟨q.address, q.writeData, q.access⟩

/-- The answer to an accepted read. -/
def owedBy (sent : List StoreRequest) (q : Option BackingRequest) :
    List Word :=
  (q.filter fun q => !q.write).toList.map fun q =>
    b.read sent q.address q.access

/-- The response the CPU takes, with the position of its request. -/
def answered : List (Nat × CacheResponse) :=
  if i.responseReady then
    (c.response i).toList.map fun r =>
      (if c.criticalResponseValid i then t.mshrAt else t.lookupAt, r)
  else []

/-- The traffic after one more cycle. -/
def observe : CacheTraffic where
  accepted := t.accepted ++ if c.requestFire i then [i.request] else []
  sent := t.sent ++ sentBy (c.memoryAccepts i)
  pending := (if c.memoryResponseFire i then t.pending.tail else t.pending) ++
    owedBy b t.sent (c.memoryAccepts i)
  responses := t.responses ++ c.answered i t
  lookupAt := if c.requestFire i then t.accepted.length else t.lookupAt
  mshrAt := if c.lookupMissAllocate then t.lookupAt else t.mshrAt

/-- The inputs of a cycle respect both protocols: the memory answers the oldest
read it owes, and the CPU offers aligned accesses. -/
structure Offers : Prop where
  answer : i.memoryResponseValid = true →
    t.pending.head? = some i.memoryResponseData
  aligned : i.requestValid = true → i.request.Aligned

end Observations

/-- The index of a word of a line. -/
def lineIndex (tag : CacheTag) (set : CacheSet) (word : LineWord) :
    BitVec 30 :=
  tag ++ set ++ word

section Addresses

/-- `{tag, set}` is the line number. -/
theorem tagOf_append_setOf (address : Word) :
    tagOf address ++ setOf address = address.extractLsb' 4 28 :=
  BitVec.extractLsb'_append_extractLsb'_eq_extractLsb' rfl

theorem wordIndex_eq_lineIndex (address : Word) :
    wordIndex address =
      lineIndex (tagOf address) (setOf address) (wordOf address) := by
  rw [lineIndex, tagOf_append_setOf]
  symm
  change address.extractLsb' (2 + 2) 28 ++ address.extractLsb' 2 2 =
    address.extractLsb' 2 (28 + 2)
  exact BitVec.extractLsb'_append_extractLsb'_eq_extractLsb' rfl

theorem lineAddress_eq (address : Word) (word : LineWord) :
    lineAddress address word =
      wordAddress (lineIndex (tagOf address) (setOf address) word) := by
  rw [wordAddress, lineIndex, tagOf_append_setOf]
  rfl

theorem lineIndex_injective {tag tag' : CacheTag} {set set' : CacheSet}
    {word word' : LineWord}
    (h : lineIndex tag set word = lineIndex tag' set' word') :
    tag = tag' ∧ set = set' ∧ word = word' := by
  unfold lineIndex at h
  have hword := congrArg (BitVec.extractLsb' 0 2) h
  have hhigh := congrArg (BitVec.extractLsb' 2 28) h
  rw [BitVec.extractLsb'_append_eq_right, BitVec.extractLsb'_append_eq_right]
    at hword
  rw [BitVec.extractLsb'_append_eq_left, BitVec.extractLsb'_append_eq_left]
    at hhigh
  have hset := congrArg (BitVec.extractLsb' 0 6) hhigh
  have htag := congrArg (BitVec.extractLsb' 6 22) hhigh
  rw [BitVec.extractLsb'_append_eq_right, BitVec.extractLsb'_append_eq_right]
    at hset
  rw [BitVec.extractLsb'_append_eq_left, BitVec.extractLsb'_append_eq_left]
    at htag
  exact ⟨htag, hset, hword⟩

theorem lineIndex_fields (tag : CacheTag) (set : CacheSet) (word : LineWord) :
    tagOf (wordAddress (lineIndex tag set word)) = tag ∧
      setOf (wordAddress (lineIndex tag set word)) = set ∧
      wordOf (wordAddress (lineIndex tag set word)) = word := by
  have h := wordIndex_eq_lineIndex (wordAddress (lineIndex tag set word))
  rw [wordAddress, wordIndex_append] at h
  obtain ⟨htag, hset, hword⟩ := lineIndex_injective h
  exact ⟨htag.symm, hset.symm, hword.symm⟩

/-- The window of the MMIO registers. -/
theorem addressIsMmio_iff (y : Word) : addressIsMmio y = true ↔
    0xFFE0 ≤ y.toNat ∧ y.toNat ≤ 0xFFFF := by
  have hbase : mmioBaseAddr.toNat = 0xFFE0 := by decide
  have hlast : mmioLastAddr.toNat = 0xFFFF := by decide
  rw [addressIsMmio, Bool.and_eq_true, decide_eq_true_eq, decide_eq_true_eq,
    BitVec.le_def, BitVec.le_def, hbase, hlast]

/-- The MMIO window consists of whole lines. -/
theorem addressIsMmio_line {a x : Word} (htag : tagOf a = tagOf x)
    (hset : setOf a = setOf x) : addressIsMmio a = addressIsMmio x := by
  have hline (y : Word) : y.toNat / 16 =
      (tagOf y).toNat * 64 + (setOf y).toNat := by
    have hy := y.isLt
    simp only [tagOf, setOf, BitVec.extractLsb'_toNat,
      Nat.shiftRight_eq_div_pow]
    omega
  have ha := hline a
  rw [htag, hset, ← hline x] at ha
  rw [Bool.eq_iff_iff, addressIsMmio_iff, addressIsMmio_iff]
  omega

end Addresses

/-- The control registers fit together: the decoded fields are those of the
held addresses, and only loads to other sets enter during a refill. -/
structure Control (c : DataCache) : Prop where
  busy : c.mshr.valid = true ↔ c.mshr.refillState ≠ .idle
  set : c.lookup.set = setOf c.lookup.request.address
  tag : c.lookup.requestTag = tagOf c.lookup.request.address
  word : c.lookup.word = wordOf c.lookup.request.address
  mmio : c.lookup.mmio = addressIsMmio c.lookup.request.address
  missSet : c.mshr.set = setOf c.mshr.address
  missTag : c.mshr.tag = tagOf c.mshr.address
  refillWord : c.mshr.refillWord =
    wordOf c.mshr.address + c.mshr.refillCount
  beside : c.lookup.stageValid = true → c.mshr.valid = true →
    c.lookup.request.write = false ∧ c.lookup.mmio = false ∧
      c.lookup.set ≠ c.mshr.set
  critical : c.mshr.valid = true →
    (c.mshr.criticalReturned = true ↔ c.mshr.refillCount ≠ 0)
  reading : c.lookup.mmioReadSent = true → c.lookupMmioLoad = true

/-- What the edge can do to the miss register. -/
inductive RefillStep (c : DataCache) (i : Inputs) : Mshr → Prop
  | rest (hstate : c.mshr.refillState = .idle)
      (hmiss : c.lookupMissAllocate = false) : RefillStep c i c.mshr
  | allocate (hstate : c.mshr.refillState = .idle)
      (hmiss : c.lookupMissAllocate = true) : RefillStep c i c.allocated
  | hold (hstate : c.mshr.refillState = .request)
      (hready : i.memoryRequestReady = false) : RefillStep c i c.mshr
  | ask (hstate : c.mshr.refillState = .request)
      (hready : i.memoryRequestReady = true) :
      RefillStep c i { c.mshr with refillState := .response }
  | wait (hstate : c.mshr.refillState = .response)
      (hfire : c.memoryResponseFire i = false) : RefillStep c i c.mshr
  | last (hstate : c.mshr.refillState = .response)
      (hfire : c.memoryResponseFire i = true)
      (hcount : c.mshr.refillCount = 3) :
      RefillStep c i { c.mshr with
        criticalReturned := true, refillState := .idle, valid := false }
  | beat (hstate : c.mshr.refillState = .response)
      (hfire : c.memoryResponseFire i = true)
      (hcount : c.mshr.refillCount ≠ 3) :
      RefillStep c i { c.mshr with
        criticalReturned := true
        refillCount := c.mshr.refillCount + 1
        refillWord := c.mshr.refillWord + 1
        refillState := if i.memoryRequestReady then .response else .request }

section Control

variable {c : DataCache} {i : Inputs}

theorem Control.not_miss (hc : c.Control)
    (hstate : c.mshr.refillState ≠ .idle) : c.lookupMissAllocate = false := by
  rw [lookupMissAllocate, hc.busy.mpr hstate]
  simp

theorem Control.allocated_busy (hc : c.Control)
    (hstate : c.mshr.refillState ≠ .idle) : c.allocated = c.mshr := by
  rw [allocated, hc.not_miss hstate]
  rfl

theorem Control.refillStep (hc : c.Control) (i : Inputs) :
    c.RefillStep i (c.nextMshr i) := by
  rw [nextMshr]
  cases hstate : c.mshr.refillState with
  | idle =>
      cases hmiss : c.lookupMissAllocate with
      | true => exact .allocate hstate hmiss
      | false =>
          rw [show c.allocated = c.mshr by rw [allocated, hmiss]; rfl]
          exact .rest hstate hmiss
  | request =>
      have hbusy : c.mshr.refillState ≠ .idle := by simp [hstate]
      have hfire : c.memoryRequestFire i = i.memoryRequestReady := by
        simp [memoryRequestFire, memoryRequest, hstate]
      rw [hc.allocated_busy hbusy, hfire]
      cases hready : i.memoryRequestReady with
      | true => exact .ask hstate hready
      | false => exact .hold hstate hready
  | response =>
      have hbusy : c.mshr.refillState ≠ .idle := by simp [hstate]
      rw [hc.allocated_busy hbusy]
      cases hfire : c.memoryResponseFire i with
      | false => exact .wait hstate hfire
      | true =>
          by_cases hcount : c.mshr.refillCount = 3
          · simp only [if_true, if_pos hcount]
            exact .last hstate hfire hcount
          · have hask : c.memoryRequestFire i = i.memoryRequestReady := by
              rw [memoryRequestFire, memoryRequest, hstate]
              simp only [hfire, ne_eq, hcount, not_false_eq_true, decide_true,
                Bool.and_self, if_true, Option.isSome_some, Bool.true_and]
            simp only [if_true, if_neg hcount, hask]
            exact .beat hstate hfire hcount

/-- What is accepted during a refill is a load to another set, and nothing is
accepted when a miss moves to its register. -/
theorem requestFire_cases (hfire : c.requestFire i = true) :
    i.requestValid = true ∧ c.lookupMissAllocate = false ∧
      (c.lookup.stageValid = true → c.lookupStageAdvance i = true) ∧
      (c.mshr.valid = true → i.request.write = false ∧
        incomingMmio i = false ∧ setOf i.request.address ≠ c.mshr.set) := by
  simp only [requestFire, requestReady, lookupStageSlotAvailable,
    incomingAllowedDuringRefill, incomingCachedLoad, Bool.and_eq_true,
    Bool.or_eq_true, Bool.not_eq_true', decide_eq_true_eq] at hfire
  obtain ⟨hvalid, ⟨hslot, hmiss⟩, hrefill⟩ := hfire
  refine ⟨hvalid, hmiss, ?_, ?_⟩
  · intro hstage
    rcases hslot with hempty | hadvance
    · rw [hstage] at hempty
      cases hempty
    · exact hadvance
  · intro hbusy
    rcases hrefill with hidle | ⟨⟨hload, hmmio⟩, hset⟩
    · rw [hbusy] at hidle
      cases hidle
    · exact ⟨hload, hmmio, hset⟩

theorem lookupStageAdvance_valid (h : c.lookupStageAdvance i = true) :
    c.lookup.stageValid = true := by
  by_contra hempty
  rw [Bool.not_eq_true] at hempty
  simp [lookupStageAdvance, lookupCachedLoad, lookupCachedStore,
    lookupMmioStore, lookupMmioLoad, hempty] at h

theorem lookupResponseFire_valid (h : c.lookupResponseFire i = true) :
    c.lookup.stageValid = true := by
  by_contra hempty
  rw [Bool.not_eq_true] at hempty
  simp [lookupResponseFire, lookupResponseSelected,
    lookupLoadHitResponseValid, lookupMmioResponseValid, lookupMmioLoad,
    lookupCachedLoad, hempty] at h

theorem miss_advance (h : c.lookupMissAllocate = true) :
    c.lookupStageAdvance i = true := by
  have hmiss := h
  rw [lookupMissAllocate, Bool.and_eq_true, Bool.and_eq_true,
    Bool.not_eq_true'] at h
  rw [lookupStageAdvance, if_pos h.1.1, h.1.2]
  exact hmiss

theorem Control.step_beside (hc : c.Control)
    (hstage : (c.step i).lookup.stageValid = true)
    (hbusy : (c.step i).mshr.valid = true) :
    (c.step i).lookup.request.write = false ∧
      (c.step i).lookup.mmio = false ∧
      (c.step i).lookup.set ≠ (c.step i).mshr.set := by
  change (c.nextLookup i).stageValid = true at hstage
  change (c.nextMshr i).valid = true at hbusy
  change (c.nextLookup i).request.write = false ∧
    (c.nextLookup i).mmio = false ∧ (c.nextLookup i).set ≠ (c.nextMshr i).set
  have hstep := hc.refillStep i
  generalize c.nextMshr i = m at hstep hbusy ⊢
  cases hfire : c.requestFire i with
  | true =>
      obtain ⟨-, hmiss, -, hrefill⟩ := requestFire_cases hfire
      have hlookup : (c.nextLookup i).request = i.request ∧
          (c.nextLookup i).mmio = incomingMmio i ∧
          (c.nextLookup i).set = setOf i.request.address := by
        simp [nextLookup, hfire]
      rw [hlookup.1, hlookup.2.1, hlookup.2.2]
      cases hstep with
      | rest hstate _ =>
          exact absurd hstate (hc.busy.mp hbusy)
      | allocate _ hmiss' =>
          rw [hmiss] at hmiss'
          cases hmiss'
      | hold | ask | wait | beat =>
          exact hrefill hbusy
      | last => cases hbusy
  | false =>
      simp only [nextLookup, hfire, Bool.false_eq_true, if_false,
        Bool.and_eq_true, Bool.not_eq_true'] at hstage ⊢
      obtain ⟨hstage, hstays⟩ := hstage
      cases hstep with
      | rest hstate _ =>
          exact absurd hstate (hc.busy.mp hbusy)
      | allocate _ hmiss =>
          rw [miss_advance hmiss] at hstays
          cases hstays
      | hold | ask | wait | beat =>
          exact hc.beside hstage hbusy
      | last => cases hbusy

/-- The lookup stage when no request enters it. -/
theorem lookup_stays (hfire : c.requestFire i = false) : (c.step i).lookup =
    { c.lookup with
      stageValid := c.lookup.stageValid && !c.lookupStageAdvance i
      mmioReadSent :=
        (c.lookupMmioLoad && !c.lookup.mmioReadSent &&
          c.lookupMmioRequestFire i) ||
        (c.lookup.mmioReadSent && !c.lookupStageAdvance i) } := by
  change c.nextLookup i = _
  rw [nextLookup, hfire]
  rfl

theorem mmioLoad_advance (h : c.lookupMmioLoad = true) :
    c.lookupStageAdvance i =
      (c.lookup.mmioReadSent && c.lookupMmioResponseFire i) := by
  have hkind := h
  simp only [lookupMmioLoad, Bool.and_eq_true, Bool.not_eq_true'] at hkind
  simp [lookupStageAdvance, lookupCachedLoad, lookupCachedStore,
    lookupMmioStore, lookupMmioLoad, hkind.1.2, hkind.2, hkind.1.1]

theorem Control.step_reading (hc : c.Control)
    (hsent : (c.step i).lookup.mmioReadSent = true) :
    (c.step i).lookupMmioLoad = true := by
  change (c.nextLookup i).mmioReadSent = true at hsent
  change ((c.nextLookup i).stageValid && !(c.nextLookup i).request.write &&
    (c.nextLookup i).mmio) = true
  cases hfire : c.requestFire i with
  | true =>
      rw [nextLookup, if_pos hfire] at hsent
      cases hsent
  | false =>
      simp only [nextLookup, hfire, Bool.false_eq_true, if_false] at hsent ⊢
      have hload : c.lookupMmioLoad = true ∧
          c.lookupStageAdvance i = false := by
        rw [Bool.or_eq_true, Bool.and_eq_true, Bool.and_eq_true,
          Bool.not_eq_true', Bool.and_eq_true, Bool.not_eq_true'] at hsent
        rcases hsent with ⟨⟨hload, hnew⟩, -⟩ | ⟨hold, hstays⟩
        · rw [mmioLoad_advance hload, hnew]
          exact ⟨hload, rfl⟩
        · exact ⟨hc.reading hold, hstays⟩
      obtain ⟨hload, hstays⟩ := hload
      rw [hstays, Bool.not_false, Bool.and_true]
      exact hload

theorem Control.step (hc : c.Control) : (c.step i).Control := by
  have hlookup : (c.nextLookup i).set =
        setOf (c.nextLookup i).request.address ∧
      (c.nextLookup i).requestTag =
        tagOf (c.nextLookup i).request.address ∧
      (c.nextLookup i).word = wordOf (c.nextLookup i).request.address ∧
      (c.nextLookup i).mmio =
        addressIsMmio (c.nextLookup i).request.address := by
    rw [nextLookup]
    split
    · exact ⟨rfl, rfl, rfl, rfl⟩
    · exact ⟨hc.set, hc.tag, hc.word, hc.mmio⟩
  have hmshr : ((c.nextMshr i).valid = true ↔
        (c.nextMshr i).refillState ≠ .idle) ∧
      (c.nextMshr i).set = setOf (c.nextMshr i).address ∧
      (c.nextMshr i).tag = tagOf (c.nextMshr i).address ∧
      (c.nextMshr i).refillWord =
        wordOf (c.nextMshr i).address + (c.nextMshr i).refillCount ∧
      ((c.nextMshr i).valid = true →
        ((c.nextMshr i).criticalReturned = true ↔
          (c.nextMshr i).refillCount ≠ 0)) := by
    have hstep := hc.refillStep i
    generalize c.nextMshr i = m at hstep
    cases hstep with
    | rest | hold | wait =>
        exact ⟨hc.busy, hc.missSet, hc.missTag, hc.refillWord, hc.critical⟩
    | allocate _ hmiss =>
        rw [allocated, if_pos hmiss]
        refine ⟨by simp, hc.set, hc.tag, ?_, by simp⟩
        change c.lookup.word = wordOf c.lookup.request.address + 0
        rw [hc.word]
        exact (BitVec.add_zero _).symm
    | ask hstate _ =>
        have hbusy : c.mshr.valid = true := hc.busy.mpr (by simp [hstate])
        exact ⟨by simp [hbusy], hc.missSet, hc.missTag, hc.refillWord,
          hc.critical⟩
    | last => exact ⟨by simp, hc.missSet, hc.missTag, hc.refillWord, by simp⟩
    | beat hstate _ hcount =>
        have hbusy : c.mshr.valid = true := hc.busy.mpr (by simp [hstate])
        refine ⟨?_, hc.missSet, hc.missTag, ?_, ?_⟩
        · simp only [hbusy, true_iff]
          split <;> simp
        · change c.mshr.refillWord + 1 =
            wordOf c.mshr.address + (c.mshr.refillCount + 1)
          rw [hc.refillWord, BitVec.add_assoc]
        · intro _
          have hnext : ∀ k : LineWord, k ≠ 3 → k + 1 ≠ 0 := by decide
          exact iff_of_true rfl (hnext _ hcount)
  exact ⟨hmshr.1, hlookup.1, hlookup.2.1, hlookup.2.2.1, hlookup.2.2.2,
    hmshr.2.1, hmshr.2.2.1, hmshr.2.2.2.1, hc.step_beside, hmshr.2.2.2.2,
    hc.step_reading⟩

theorem reset_control (tagArray : CacheSet → CacheTag)
    (dataBank : LineWord → CacheSet → Word) :
    (reset tagArray dataBank).Control where
  busy := by simp [reset]
  set := (by decide : (0 : CacheSet) = setOf 0)
  tag := (by decide : (0 : CacheTag) = tagOf 0)
  word := (by decide : (0 : LineWord) = wordOf 0)
  mmio := (by decide : false = addressIsMmio 0)
  missSet := (by decide : (0 : CacheSet) = setOf 0)
  missTag := (by decide : (0 : CacheTag) = tagOf 0)
  refillWord := (by decide : (0 : LineWord) = wordOf 0 + 0)
  beside := by simp [reset]
  critical := by simp [reset]
  reading := by simp [reset]

end Control

section Stores

variable {c : DataCache} {i : Inputs}

/-- The lookup stage holds a store. -/
def storing (c : DataCache) : Bool :=
  c.lookup.stageValid && c.lookup.request.write

theorem Control.storing_idle (hc : c.Control) (hstore : c.storing = true) :
    c.mshr.refillState = .idle ∧ c.lookup.mmioReadSent = false := by
  rw [storing, Bool.and_eq_true] at hstore
  constructor
  · by_contra hstate
    have hload := (hc.beside hstore.1 (hc.busy.mpr hstate)).1
    rw [hstore.2] at hload
    cases hload
  · by_contra hsent
    rw [Bool.not_eq_false] at hsent
    have hload := hc.reading hsent
    simp [lookupMmioLoad, hstore.2] at hload

/-- A store goes to the backing memory as it leaves the lookup stage. -/
theorem Control.storing_request (hc : c.Control) (hstore : c.storing = true) :
    c.memoryRequest i = some c.lookupRequest ∧
      c.lookupStageAdvance i = i.memoryRequestReady := by
  obtain ⟨hidle, hsent⟩ := hc.storing_idle hstore
  rw [storing, Bool.and_eq_true] at hstore
  have hrequest : c.memoryRequest i = some c.lookupRequest := by
    cases hmmio : c.lookup.mmio <;>
      simp [memoryRequest, hidle, lookupCachedStore, lookupMmioStore,
        hstore.1, hstore.2, hmmio, hsent]
  refine ⟨hrequest, ?_⟩
  cases hmmio : c.lookup.mmio <;>
    simp [lookupStageAdvance, lookupCachedLoad, lookupCachedStore,
      lookupMmioStore, lookupStoreFire, lookupMmioRequestFire,
      memoryRequestFire, hrequest, hstore.1, hstore.2, hmmio, hidle]

/-- Only a store in the lookup stage is written to the memory. -/
theorem Control.sent_eq (hc : c.Control) : sentBy (c.memoryAccepts i) =
    if c.storing && i.memoryRequestReady then [c.lookup.request.store]
    else [] := by
  unfold memoryAccepts
  cases hready : i.memoryRequestReady with
  | false =>
      rw [Bool.and_false]
      rfl
  | true =>
      rw [Bool.and_true, if_pos rfl]
      cases hstore : c.storing with
      | true =>
          rw [(hc.storing_request hstore).1]
          rw [storing, Bool.and_eq_true] at hstore
          simp [sentBy, lookupRequest, hstore.2, CacheRequest.store]
      | false =>
          have hread : ∀ q, c.memoryRequest i = some q → q.write = false := by
            intro q hq
            rw [memoryRequest] at hq
            split at hq
            · cases hq
              rfl
            · split at hq
              · cases hq
                rfl
              · cases hq
            · have hload : c.lookup.stageValid = true →
                  c.lookup.request.write = false := by
                intro hstage
                rw [storing, hstage, Bool.true_and] at hstore
                exact hstore
              simp only [lookupCachedStore, lookupMmioStore,
                lookupMmioLoad] at hq
              cases hstage : c.lookup.stageValid with
              | false => simp [hstage] at hq
              | true =>
                  simp only [hstage, hload hstage, Bool.and_false,
                    Bool.false_and, Bool.false_eq_true, if_false] at hq
                  split at hq
                  · cases hq
                    exact hload hstage
                  · cases hq
          unfold sentBy
          cases hrequest : c.memoryRequest i with
          | none => rfl
          | some q => simp [hread q hrequest]

/-- The cached store that leaves writes its word when it hit. -/
theorem Control.storeWrite_eq (hc : c.Control) : c.arrayStoreWriteEnable i =
    (c.storing && !c.lookup.mmio && i.memoryRequestReady &&
      c.lookupHit) := by
  cases hstore : c.storing with
  | true =>
      obtain ⟨hidle, -⟩ := hc.storing_idle hstore
      have hrequest := (hc.storing_request (i := i) hstore).1
      rw [storing, Bool.and_eq_true] at hstore
      simp [arrayStoreWriteEnable, lookupStoreFire, lookupCachedStore,
        memoryRequestFire, hrequest, hidle, hstore.1, hstore.2]
  | false =>
      have hnone : c.lookupCachedStore = false := by
        rw [lookupCachedStore]
        change (c.storing && !c.lookup.mmio) = false
        rw [hstore]
        rfl
      simp [arrayStoreWriteEnable, lookupStoreFire, hnone]

theorem refillWrite_state (h : c.arrayRefillWriteEnable i = true) :
    c.mshr.refillState = .response ∧ c.memoryResponseFire i = true := by
  rw [arrayRefillWriteEnable, Bool.and_eq_true, beq_iff_eq] at h
  exact h

theorem Control.busy_of_write (hc : c.Control)
    (h : c.arrayRefillWriteEnable i = true) : c.mshr.valid = true := by
  rw [hc.busy, (refillWrite_state h).1]
  simp

theorem Control.free_of_idle (hc : c.Control)
    (hidle : c.mshr.refillState = .idle) : c.mshr.valid = false := by
  by_contra hbusy
  rw [Bool.not_eq_false] at hbusy
  exact hc.busy.mp hbusy hidle

theorem Control.not_storing_busy (hc : c.Control)
    (hbusy : c.mshr.valid = true) : c.storing = false := by
  by_contra hstore
  rw [Bool.not_eq_false] at hstore
  exact hc.busy.mp hbusy (hc.storing_idle hstore).1

/-- Nothing is written to the memory during a refill. -/
theorem Control.sent_busy (hc : c.Control) (hbusy : c.mshr.valid = true) :
    sentBy (c.memoryAccepts i) = [] := by
  rw [hc.sent_eq, hc.not_storing_busy hbusy]
  simp

/-- The two writers of the data banks never meet. -/
theorem Control.not_storing (hc : c.Control)
    (h : c.arrayRefillWriteEnable i = true) : c.storing = false :=
  hc.not_storing_busy (hc.busy_of_write h)

end Stores

end DataCache

end OoOCore
