/-
The drain point.  A store is in the store buffer, in the lookup stage of the
data cache or in the data memory, and a load the LSU waits for is in the lookup
stage or in the miss register, so the empty flags together say that nothing is
under way.
-/
import OoOCore.CachedMemory
import OoOCore.FetchOrder
import OoOCore.LoadValues
import OoOCore.Serialization
import OoOCore.TopCpu

namespace OoOCore

namespace DataCache

/-- The lookup stage or the miss register holds a load with this id that has
no response yet. -/
def Carries (c : DataCache) (id : RobTag) : Prop :=
  (c.lookup.stageValid = true ∧ c.lookup.request.write = false ∧
      c.lookup.request.id = id) ∨
    (c.mshr.valid = true ∧ c.mshr.criticalReturned = false ∧ c.mshr.id = id)

/-- The store in the lookup stage. -/
def inTransit (c : DataCache) : List StoreRequest :=
  if c.storing then [c.lookup.request.store] else []

section Traffic

variable {c : DataCache} {i : Inputs} {id : RobTag}

theorem not_carries_of_idle (hidle : c.idle = true) : ¬ c.Carries id := by
  simp only [idle, Bool.and_eq_true, Bool.not_eq_true'] at hidle
  rintro (⟨hstage, -⟩ | ⟨hbusy, -⟩)
  · exact absurd (hidle.2.symm.trans hstage) Bool.false_ne_true
  · exact absurd (hidle.1.1.symm.trans hbusy) Bool.false_ne_true

/-- An accepted load is carried. -/
theorem carries_of_fire (hfire : c.requestFire i = true)
    (hload : i.request.write = false) :
    (c.step i).Carries i.request.id := by
  have hlookup : (c.step i).lookup.stageValid = true ∧
      (c.step i).lookup.request = i.request := by
    change (c.nextLookup i).stageValid = true ∧ (c.nextLookup i).request = _
    rw [nextLookup, if_pos hfire]
    exact ⟨rfl, rfl⟩
  left
  rw [hlookup.2]
  exact ⟨hlookup.1, hload, rfl⟩

/-- What the miss register carries it keeps until it responds. -/
theorem Control.miss_carries (hc : c.Control) (hbusy : c.mshr.valid = true)
    (hwaits : c.mshr.criticalReturned = false)
    (hnone : (c.criticalResponseValid i && i.responseReady) = false) :
    (c.step i).Carries c.mshr.id := by
  have hstate := hc.busy.mp hbusy
  have hquiet : c.mshr.refillState = .response →
      c.memoryResponseFire i = false := by
    intro hresponse
    simpa [criticalResponseValid, memoryResponseFire, memoryResponseReady,
      hbusy, hresponse, hwaits] using hnone
  right
  change (c.nextMshr i).valid = true ∧
    (c.nextMshr i).criticalReturned = false ∧ (c.nextMshr i).id = c.mshr.id
  have hstep := hc.refillStep i
  generalize c.nextMshr i = m at hstep
  cases hstep with
  | rest hidle | allocate hidle => exact absurd hidle hstate
  | hold | ask | wait => exact ⟨hbusy, hwaits, rfl⟩
  | last hresponse hfire | beat hresponse hfire =>
      exact absurd ((hquiet hresponse).symm.trans hfire) Bool.false_ne_true

/-- What the lookup stage carries stays or moves to the miss register until it
is answered. -/
theorem Control.lookup_carries (hc : c.Control)
    (hstage : c.lookup.stageValid = true)
    (hload : c.lookup.request.write = false)
    (hnone : c.lookupResponseFire i = false) :
    (c.step i).Carries c.lookup.request.id := by
  have hadvance := hc.load_advance (i := i) hstage hload
  rw [hnone, Bool.or_false] at hadvance
  cases hmiss : c.lookupMissAllocate with
  | true =>
      have hidle : c.mshr.refillState = .idle := by
        by_contra hbusy
        exact absurd ((hc.not_miss hbusy).symm.trans hmiss) Bool.false_ne_true
      have hallocated : (c.step i).mshr = c.allocated := by
        change c.nextMshr i = _
        rw [nextMshr, hidle]
      right
      rw [hallocated, allocated, if_pos hmiss]
      exact ⟨rfl, rfl, rfl⟩
  | false =>
      have hstays : c.requestFire i = false := by
        by_contra hfire
        rw [Bool.not_eq_false] at hfire
        have hleaves := (requestFire_cases hfire).2.2.1 hstage
        exact absurd (hmiss.symm.trans (hadvance.symm.trans hleaves))
          Bool.false_ne_true
      left
      rw [lookup_stays hstays, hadvance, hmiss, hstage]
      exact ⟨rfl, hload, rfl⟩

/-- A carried load stays carried until the CPU takes its response. -/
theorem Control.step_carries (hc : c.Control) (hcarries : c.Carries id) :
    (c.step i).Carries id ∨
      ∃ r, c.response i = some r ∧ r.id = id ∧ i.responseReady = true := by
  rcases hcarries with ⟨hstage, hload, rfl⟩ | ⟨hbusy, hwaits, rfl⟩
  · cases hfire : c.lookupResponseFire i with
    | false => exact Or.inl (hc.lookup_carries hstage hload hfire)
    | true =>
        simp only [lookupResponseFire, lookupResponseSelected,
          Bool.and_eq_true, Bool.not_eq_true'] at hfire
        obtain ⟨⟨hcritical, hlookup⟩, hready⟩ := hfire
        right
        rw [response, hcritical, if_neg Bool.false_ne_true]
        cases hmmio : c.lookupMmioResponseValid i with
        | true => exact ⟨_, rfl, rfl, hready⟩
        | false =>
            rw [hmmio, Bool.false_or] at hlookup
            rw [hlookup]
            exact ⟨_, rfl, rfl, hready⟩
  · cases hfire : c.criticalResponseValid i && i.responseReady with
    | false => exact Or.inl (hc.miss_carries hbusy hwaits hfire)
    | true =>
        rw [Bool.and_eq_true] at hfire
        right
        rw [response, if_pos hfire.1]
        exact ⟨_, rfl, rfl, hfire.2⟩

/-- The stores given to the memory on an edge, and then the one in the lookup
stage after it, are the one before it and then an accepted one. -/
theorem Control.step_inTransit (hc : c.Control) :
    sentBy (c.memoryAccepts i) ++ (c.step i).inTransit =
      c.inTransit ++
        if c.requestFire i && i.request.write then [i.request.store] else [] := by
  rw [hc.sent_eq, inTransit, inTransit]
  cases hfire : c.requestFire i with
  | true =>
      have hnext : (c.step i).storing = i.request.write ∧
          (c.step i).lookup.request = i.request := by
        change ((c.nextLookup i).stageValid && (c.nextLookup i).request.write) =
          _ ∧ (c.nextLookup i).request = _
        rw [nextLookup, if_pos hfire]
        exact ⟨Bool.true_and _, rfl⟩
      have hsent : (c.storing && i.memoryRequestReady) = c.storing := by
        cases hstoring : c.storing with
        | false => rfl
        | true =>
            have hstage := hstoring
            rw [storing, Bool.and_eq_true] at hstage
            have hleaves := (requestFire_cases hfire).2.2.1 hstage.1
            rw [(hc.storing_request hstoring).2] at hleaves
            exact hleaves
      rw [hnext.1, hnext.2, hsent, Bool.true_and]
  | false =>
      have hnext : (c.step i).storing =
            (c.storing && !c.lookupStageAdvance i) ∧
          (c.step i).lookup.request = c.lookup.request := by
        rw [storing, lookup_stays hfire]
        refine ⟨?_, rfl⟩
        change ((c.lookup.stageValid && _) && c.lookup.request.write) = _
        rw [storing]
        cases c.lookup.stageValid <;> cases c.lookup.request.write <;> simp
      rw [hnext.1, hnext.2, Bool.false_and, if_neg Bool.false_ne_true,
        List.append_nil]
      cases hstoring : c.storing with
      | false => rfl
      | true =>
          rw [(hc.storing_request hstoring).2]
          cases i.memoryRequestReady <;> rfl

/-- A word that the cache has asked for is on its way. -/
def Reading (c : DataCache) : Prop :=
  c.mshr.refillState = .response ∨ c.lookup.mmioReadSent = true

/-- The cache waits for what it asks for, until it takes it. -/
theorem Control.step_reading_new (hc : c.Control) {q : BackingRequest}
    (hq : c.memoryAccepts i = some q) (hread : q.write = false) :
    (c.step i).Reading := by
  have haccepts : i.memoryRequestReady = true ∧ c.memoryRequest i = some q := by
    rw [memoryAccepts] at hq
    split at hq
    · next hready => exact ⟨hready, hq⟩
    · cases hq
  obtain ⟨hready, hrequest⟩ := haccepts
  have hstep := hc.refillStep i
  change (c.nextMshr i).refillState = _ ∨ _
  cases hstate : c.mshr.refillState with
  | request =>
      left
      generalize c.nextMshr i = m at hstep
      cases hstep with
      | rest h | allocate h | wait h | last h | beat h =>
          exact absurd (hstate.symm.trans h) (by decide)
      | hold _ h => exact absurd (h.symm.trans hready) Bool.false_ne_true
      | ask => rfl
  | response =>
      left
      rw [memoryRequest, hstate] at hrequest
      have hbeat : c.memoryResponseFire i = true ∧ c.mshr.refillCount ≠ 3 := by
        dsimp only at hrequest
        split at hrequest
        · next hbeat =>
            rwa [Bool.and_eq_true, decide_eq_true_eq] at hbeat
        · cases hrequest
      generalize c.nextMshr i = m at hstep
      cases hstep with
      | rest h | allocate h | hold h | ask h =>
          exact absurd (hstate.symm.trans h) (by decide)
      | wait _ h => exact absurd (h.symm.trans hbeat.1) Bool.false_ne_true
      | last _ _ h => exact absurd h hbeat.2
      | beat => rw [hready, if_pos rfl]
  | idle =>
      right
      have hload : c.lookupMmioLoad = true := by
        by_contra hother
        rw [Bool.not_eq_true] at hother
        rw [memoryRequest, hstate, hother, Bool.or_false] at hrequest
        have hstore : c.lookup.request.write = true ∧ c.lookupRequest = q := by
          dsimp only at hrequest
          split at hrequest
          · next hcached =>
              simp only [lookupCachedStore, Bool.and_eq_true] at hcached
              exact ⟨hcached.1.2, Option.some.inj hrequest⟩
          · split at hrequest
            · next hmmio =>
                simp only [lookupMmioStore, Bool.and_eq_true] at hmmio
                exact ⟨hmmio.1.1.2, Option.some.inj hrequest⟩
            · cases hrequest
        rw [← hstore.2] at hread
        exact absurd (hread.symm.trans hstore.1) Bool.false_ne_true
      obtain ⟨-, -, -, -, hasks, hadvance, hsends⟩ :=
        hc.mmio_signals (i := i) hload
      have hunsent : c.lookup.mmioReadSent = false := by
        cases hsent : c.lookup.mmioReadSent with
        | false => rfl
        | true =>
            rw [hasks, hsent] at hrequest
            cases hrequest
      rw [hunsent, Bool.false_and] at hadvance
      have hstage := hload
      rw [lookupMmioLoad, Bool.and_eq_true, Bool.and_eq_true] at hstage
      rw [lookup_stays (not_fire_of_stays hstage.1.1 hadvance), hload, hsends,
        hunsent, hready]
      rfl

theorem Control.step_reading_kept (hc : c.Control) (hwaits : c.Reading)
    (hready : c.memoryResponseReady i = false) : (c.step i).Reading := by
  have hfire : c.memoryResponseFire i = false := by
    rw [memoryResponseFire, hready, Bool.and_false]
  rcases hwaits with hstate | hsent
  · left
    have hstep := hc.refillStep i
    change (c.nextMshr i).refillState = _
    generalize c.nextMshr i = m at hstep
    cases hstep with
    | rest h | allocate h | hold h | ask h =>
        exact absurd (hstate.symm.trans h) (by decide)
    | wait => exact hstate
    | last _ h | beat _ h => exact absurd (hfire.symm.trans h) Bool.false_ne_true
  · right
    have hload := hc.reading hsent
    obtain ⟨-, -, -, hanswer, -, hadvance, -⟩ := hc.mmio_signals (i := i) hload
    have hstays : c.lookupStageAdvance i = false :=
      hadvance.trans (hanswer.symm.trans hfire)
    have hstage := hload
    rw [lookupMmioLoad, Bool.and_eq_true, Bool.and_eq_true] at hstage
    rw [lookup_stays (not_fire_of_stays hstage.1.1 hstays), hsent, hstays]
    exact Bool.or_true _

end Traffic

end DataCache

namespace DataMem

/-- What stores leave behind: the RAM, the `tohost` register and the bytes the
UART has got. -/
structure Image where
  mem : BitVec 14 → Word
  toHost : Word
  uart : List (BitVec 8)

/-- A store to the RAM or to its register.  A store to `fromhost` is lost. -/
def Image.store (m : Image) (r : StoreRequest) : Image :=
  if toHostHit r.address then
    { m with
      toHost := mergeStore m.toHost
        (alignStoreData r.data r.access (byteOffset r.address))
        (storeByteMask r.access (byteOffset r.address)) }
  else if uartHit r.address then
    { m with uart := m.uart ++ [r.data.setWidth 8] }
  else if fromHostHit r.address then m
  else { m with mem := stored m.mem r }

section Image

variable {d : DataMem} {i : Inputs} {uart : List (BitVec 8)}

/-- The byte on `uartData_o`, while `uartValid_o` is up. -/
def uartByte (d : DataMem) : List (BitVec 8) :=
  if d.uartValid then [d.uartData] else []

def image (d : DataMem) (uart : List (BitVec 8)) : Image :=
  ⟨d.mem, d.toHostReg, uart⟩

/-- An accepted write is a store, and nothing else changes the image. -/
theorem step_image :
    (d.step i).image (uart ++ (d.step i).uartByte) =
      if d.requestFire i && i.request.write then
        (d.image uart).store
          ⟨i.request.address, i.request.writeData, i.request.access⟩
      else d.image uart := by
  change Image.mk (d.nextMem i) (d.nextToHostReg i)
    (uart ++ if d.uartFire i then [if d.uartFire i then _ else _] else []) = _
  cases hstore : d.requestFire i && i.request.write with
  | false =>
      rw [nextMem, nextToHostReg, uartFire, hstore]
      simp [image]
  | true =>
      rw [nextMem, nextToHostReg, uartFire, hstore, if_pos rfl, Image.store]
      cases htohost : toHostHit i.request.address with
      | true => simp [image, shiftedWriteData, writeByteEnable]
      | false =>
          cases huart : uartHit i.request.address with
          | true => simp [image]
          | false =>
              cases hfromhost : fromHostHit i.request.address with
              | true => simp [image]
              | false =>
                  simp [image, stored, shiftedWriteData, writeByteEnable]

end Image

end DataMem

namespace MemStages

open DataCache DataMem

section Memory

variable {m : MemStages} {i : Inputs} {uart : List (BitVec 8)}

/-- The memory takes in the stores that leave the lookup stage. -/
theorem step_image : (m.step i).dataMem.image
      (uart ++ (m.step i).dataMem.uartByte) =
    (sentBy (m.dataCache.memoryAccepts (m.cacheInputs i))).foldl Image.store
      (m.dataMem.image uart) := by
  have hfire := requestFire_eq (m := m) (i := i)
  refine DataMem.step_image.trans ?_
  rw [hfire]
  cases hq : m.dataCache.memoryAccepts (m.cacheInputs i) with
  | none => rfl
  | some q =>
      rw [(accepts_request hq).2, Option.isSome_some, Bool.true_and]
      cases hwrite : q.write with
      | true => simp [sentBy, Option.filter, hwrite]
      | false => simp [sentBy, Option.filter, hwrite]

/-- The response register of the memory is only occupied while the cache waits
for a word. -/
def Awaited (m : MemStages) : Prop :=
  m.dataMem.responseValidReg = true → m.dataCache.Reading

theorem Awaited.step (h : m.Awaited) (hc : m.dataCache.Control) :
    (m.step i).Awaited := by
  intro hvalid
  change (_ && _ || _ && !m.dataCache.memoryResponseReady _) = true at hvalid
  rw [Bool.or_eq_true, Bool.and_eq_true, Bool.and_eq_true,
    requestFire_eq, Option.isSome_iff_exists, Bool.not_eq_true',
    Bool.not_eq_true'] at hvalid
  rcases hvalid with ⟨⟨q, hq⟩, hread⟩ | ⟨hold, hready⟩
  · rw [(accepts_request hq).2] at hread
    exact hc.step_reading_new hq hread
  · exact hc.step_reading_kept (h hold) hready

end Memory

end MemStages

namespace Backend

section Bus

variable {s : Backend} {i : Inputs}

/-- What the port carries for a store and for a load. -/
theorem memoryBus_store {r : StoreRequest}
    (h : s.memoryRequest i = some (.store r)) :
    (s.memoryBus i).write = true ∧ (s.memoryBus i).store = r := by
  rw [memoryRequest] at h
  cases hmmio : s.mmioStoreRequest i with
  | true =>
      rw [hmmio, if_pos rfl, Option.map_eq_some_iff] at h
      obtain ⟨r', hstore, heq⟩ := h
      cases heq
      simp [memoryBus, CacheRequest.store, hmmio, hstore]
  | false =>
      rw [hmmio, if_neg Bool.false_ne_true] at h
      cases hdrain : s.selectStoreBufferDrain i with
      | true =>
          rw [hdrain, if_pos rfl] at h
          cases h
          simp [memoryBus, CacheRequest.store, hmmio, hdrain]
      | false =>
          rw [hdrain, if_neg Bool.false_ne_true] at h
          split at h <;> cases h

theorem memoryBus_load {tag : RobTag} {address : Word} {access : MemAccess}
    (h : s.memoryRequest i = some (.load tag address access)) :
    (s.memoryBus i).write = false ∧ (s.memoryBus i).id = tag := by
  have hselect := (memoryRequest_load h).2.2.2
  have htag := (memoryRequest_load h).1
  have hload := hselect
  simp only [selectLoadRequest, Bool.and_eq_true, Bool.not_eq_true'] at hload
  obtain ⟨⟨⟨hread, hmmio⟩, hcommit⟩, hforce⟩ := hload
  have hdrain : s.selectStoreBufferDrain i = false := by
    simp [selectStoreBufferDrain, hcommit, hforce, hread]
  simp [memoryBus, hmmio, hdrain, hselect, htag]

/-- The stores the port accepts are the writes on its wires. -/
theorem acceptedStores_bus : s.acceptedStores i =
    if ((s.memoryRequest i).isSome && i.memoryRequestReady) &&
        (s.memoryBus i).write then
      [(s.memoryBus i).store]
    else [] := by
  rw [acceptedStores]
  cases i.memoryRequestReady with
  | false => simp
  | true =>
      cases hreq : s.memoryRequest i with
      | none => rfl
      | some request =>
          cases request with
          | store r =>
              obtain ⟨hwrite, hstore⟩ := memoryBus_store hreq
              rw [hwrite, hstore]
              rfl
          | load tag address access =>
              rw [(memoryBus_load hreq).1]
              rfl

end Bus

end Backend

namespace TopCpu

open DataCache DataMem

/-- The data memory before the first store. -/
def Boot.image (b : Boot) : Image := ⟨b.dataMem, 0, []⟩

/-- The states reached from reset, with the history of the backend and the
bytes the UART has got. -/
inductive Traced (b : Boot) : TopCpu → History → List (BitVec 8) → Prop
  | boot : Traced b (boot b) {} []
  | step {c : TopCpu} {h : History} {uart : List (BitVec 8)}
      (ht : Traced b c h uart) (fromHost : Word) :
      Traced b (c.step fromHost) (c.backend.observe (c.inputs fromHost) h)
        (uart ++ (c.step fromHost).memStage.dataMem.uartByte)

section Drain

variable {b : Boot} {c : TopCpu} {h : History} {uart : List (BitVec 8)}
  {fromHost : Word}

theorem Traced.backend (ht : Traced b c h uart) : c.backend.Traced h := by
  induction ht with
  | boot => exact Backend.Traced.reset
  | step _ fromHost ih => exact ih.step _

/-- The two ends of the memory port shake hands together. -/
theorem requestFire_eq :
    c.memStage.dataCache.requestFire
        (c.memStage.cacheInputs (c.memoryInputs fromHost)) =
      ((c.backend.memoryRequest (c.inputs fromHost)).isSome &&
        (c.inputs fromHost).memoryRequestReady) := by
  rw [inputs, memoryRequest_ports]
  rfl

theorem acceptedStores_eq :
    c.backend.acceptedStores (c.inputs fromHost) =
      if c.memStage.dataCache.requestFire
            (c.memStage.cacheInputs (c.memoryInputs fromHost)) &&
          (c.memoryInputs fromHost).request.write then
        [(c.memoryInputs fromHost).request.store]
      else [] := by
  rw [requestFire_eq, Backend.acceptedStores_bus, inputs, memoryBus_ports]
  rfl

/-- What is under way between the backend and the data memory. -/
structure Flowing (b : Boot) (c : TopCpu) (h : History)
    (uart : List (BitVec 8)) : Prop where
  control : c.memStage.dataCache.Control
  awaited : c.memStage.Awaited
  carried : ∀ tag, c.backend.exec.memory.pendingValid tag = true →
    c.memStage.dataCache.Carries tag
  stores : ∃ written,
    h.accepted = written ++ c.memStage.dataCache.inTransit ∧
      c.memStage.dataMem.image uart = written.foldl Image.store b.image

theorem Flowing.boot : Flowing b (boot b) {} [] where
  control := reset_control _ _
  awaited := fun hvalid => absurd hvalid Bool.false_ne_true
  carried := fun _ hvalid => absurd hvalid Bool.false_ne_true
  stores := ⟨[], rfl, rfl⟩

/-- The response the LSU sees is the one the cache gives. -/
theorem response_eq {r : CacheResponse}
    (hr : c.memStage.dataCache.response
      (c.memStage.cacheInputs (c.memoryInputs fromHost)) = some r) :
    (c.inputs fromHost).response = ⟨true, r.id, r.data⟩ := by
  have hports : c.memStage.dataCache.response
      (c.memStage.cachePorts ⟨false, {}, false, 0⟩ false) = some r := hr
  change c.memStage.response = _
  rw [MemStages.response, hports]

/-- A slot of the LSU is taken by a load that the cache accepts, and given back
with its response. -/
theorem Flowing.step_carried (hf : Flowing b c h uart) (tag : RobTag)
    (hpending : (c.step fromHost).backend.exec.memory.pendingValid tag = true) :
    (c.step fromHost).memStage.dataCache.Carries tag := by
  by_cases hnew : c.backend.exec.memory.startsLoad
        (c.backend.lsuInputs (c.inputs fromHost)) = true ∧
      tag = (c.backend.issueUop 0).robTag
  · obtain ⟨hstart, rfl⟩ := hnew
    obtain ⟨hready, hrequest⟩ := Backend.startsLoad_accepted hstart
    have hfire := @requestFire_eq c fromHost
    rw [hrequest, hready] at hfire
    obtain ⟨hload, hid⟩ := Backend.memoryBus_load hrequest
    rw [inputs, memoryBus_ports] at hload hid
    rw [← hid]
    exact carries_of_fire hfire hload
  · have hold : c.backend.exec.memory.pendingValid tag = true ∧
        ¬ (c.backend.exec.memory.responseFire
            (c.backend.lsuInputs (c.inputs fromHost)) = true ∧
          (c.inputs fromHost).response.id = tag) := by
      have hslot := (LoadStoreExecutionUnit.step_pending_other
        c.backend.exec.memory (c.backend.lsuInputs (c.inputs fromHost))
        fun hstart htag => hnew ⟨hstart, htag⟩).2.2.1
      obtain ⟨hheld, hkept⟩ := Bool.and_eq_true_iff.mp (hslot.symm.trans hpending)
      refine ⟨hheld, fun hfreed => ?_⟩
      rw [hfreed.1, Bool.true_and, Bool.not_eq_true',
        decide_eq_false_iff_not] at hkept
      exact hkept hfreed.2
    rcases hf.control.step_carries (hf.carried tag hold.1) with hkept | hgiven
    · exact hkept
    · obtain ⟨r, hr, rfl, -⟩ := hgiven
      have hresponse := response_eq hr
      refine absurd ⟨?_, ?_⟩ hold.2
      · rw [LoadStoreExecutionUnit.responseFire]
        change ((c.inputs fromHost).response.valid &&
          c.backend.exec.memory.pendingValid
            (c.inputs fromHost).response.id) = true
        rw [hresponse, hold.1]
        rfl
      · rw [hresponse]

theorem Flowing.step (hf : Flowing b c h uart) :
    Flowing b (c.step fromHost) (c.backend.observe (c.inputs fromHost) h)
      (uart ++ (c.step fromHost).memStage.dataMem.uartByte) where
  control := hf.control.step
  awaited := hf.awaited.step hf.control
  carried := fun tag hpending => hf.step_carried tag hpending
  stores := by
    obtain ⟨written, haccepted, himage⟩ := hf.stores
    have hflow := hf.control.step_inTransit
      (i := c.memStage.cacheInputs (c.memoryInputs fromHost))
    refine ⟨written ++ sentBy (c.memStage.dataCache.memoryAccepts
      (c.memStage.cacheInputs (c.memoryInputs fromHost))), ?_, ?_⟩
    · change h.accepted ++ c.backend.acceptedStores (c.inputs fromHost) =
        _ ++ (c.memStage.dataCache.step _).inTransit
      rw [List.append_assoc, hflow, haccepted, acceptedStores_eq,
        List.append_assoc]
      rfl
    · rw [List.foldl_append, ← himage]
      exact MemStages.step_image

theorem Traced.flowing (ht : Traced b c h uart) : Flowing b c h uart := by
  induction ht with
  | boot => exact Flowing.boot
  | step _ fromHost ih => exact ih.step

/-- Nothing is under way: every retired store is in the data memory, and no
queue, pending slot or cache register holds anything. -/
structure Drained (b : Boot) (c : TopCpu) (h : History)
    (uart : List (BitVec 8)) : Prop where
  written : c.memStage.dataMem.image uart = h.stores.foldl Image.store b.image
  rob : c.backend.rob.window = []
  iq : ∀ j, (c.backend.iq.entries j).valid = false
  lsq : c.backend.lsq.window = []
  storeBuffer : c.backend.storeBuffer.contents = []
  pending : ∀ tag, c.backend.exec.memory.pendingValid tag = false
  lookup : c.memStage.dataCache.lookup.stageValid = false
  refill : c.memStage.dataCache.mshr.valid = false ∧
    c.memStage.dataCache.mshr.refillState = .idle
  response : c.memStage.dataMem.responseValidReg = false

theorem Traced.drained (ht : Traced b c h uart)
    (hdrained : c.backend.backendDrained (c.inputs fromHost) = true) :
    Drained b c h uart := by
  have hf := ht.flowing
  have hrob := Backend.backendDrained_window hdrained
  simp only [Backend.backendDrained, Backend.issueEmpty, Bool.and_eq_true,
    decide_eq_true_eq] at hdrained
  obtain ⟨⟨⟨⟨-, hiq⟩, hlsq⟩, hbuffer⟩, hidle⟩ := hdrained
  change c.memStage.dataCache.idle = true at hidle
  have hcache := hidle
  simp only [idle, Bool.and_eq_true, Bool.not_eq_true', beq_iff_eq] at hcache
  obtain ⟨⟨hbusy, hstate⟩, hstage⟩ := hcache
  have hnone := (c.backend.storeBuffer.empty_iff).mp hbuffer
  have hload : c.memStage.dataCache.lookupMmioLoad = false := by
    rw [lookupMmioLoad, hstage, Bool.false_and, Bool.false_and]
  constructor
  case written =>
    obtain ⟨written, haccepted, himage⟩ := hf.stores
    have hstores := ht.backend.accepted_append
    have htransit : c.memStage.dataCache.inTransit = [] := by
      rw [inTransit, storing, hstage, Bool.false_and, if_neg Bool.false_ne_true]
    rw [htransit, List.append_nil] at haccepted
    rw [hnone, List.append_nil, haccepted] at hstores
    rw [himage, hstores]
  case rob => exact hrob
  case iq =>
    rw [IssueQueue.occupiedCount, List.countP_eq_zero] at hiq
    intro j
    simpa using hiq j (List.mem_finRange j)
  case lsq =>
    rw [LoadStoreQueue.window, hlsq]
    rfl
  case storeBuffer => exact hnone
  case pending =>
    intro tag
    by_contra hpending
    rw [Bool.not_eq_false] at hpending
    exact not_carries_of_idle hidle (hf.carried tag hpending)
  case lookup => exact hstage
  case refill => exact ⟨hbusy, hstate⟩
  case response =>
    by_contra hvalid
    rw [Bool.not_eq_false] at hvalid
    rcases hf.awaited hvalid with hresponse | hsent
    · exact absurd (hstate.symm.trans hresponse) (by decide)
    · exact absurd ((hf.control.not_reading hload).symm.trans hsent)
        Bool.false_ne_true

/-- In every run of the core, a serializing instruction is accepted in lane 0
only while nothing older is under way. -/
theorem Traced.drained_at_serialization (ht : Traced b c h uart)
    (fromHost : Word)
    (haccept : c.backend.robAllocValid (c.inputs fromHost) 0 = true)
    (hserial : Isa.serializes (c.front.decodePacket 0).insn = true) :
    Drained b c h uart :=
  ht.drained (Backend.serializing_accepted haccept hserial).2

/-- The core with its history some cycles after reset, the host silent. -/
def run (b : Boot) : Nat → TopCpu × History × List (BitVec 8)
  | 0 => (boot b, {}, [])
  | n + 1 =>
      ((run b n).1.step 0,
        (run b n).1.backend.observe ((run b n).1.inputs 0) (run b n).2.1,
        (run b n).2.2 ++ ((run b n).1.step 0).memStage.dataMem.uartByte)

theorem traced_run (b : Boot) (n : Nat) :
    Traced b (run b n).1 (run b n).2.1 (run b n).2.2 := by
  induction n with
  | zero => exact Traced.boot
  | succ n ih => exact ih.step 0

end Drain

/-- Cleared memories behind a program. -/
def coldBoot (program : BitVec 14 → Word) : Boot where
  toBoot := FrontEnd.coldBoot program
  dataTagArray := fun _ => 0
  dataBank := fun _ _ => 0
  dataMem := fun _ => 0
  readWord := 0

/-- `sw x1, 0(x0)` and then `fence` for ever. -/
def storeFence : Boot := coldBoot fun a => if a = 0 then 0x00102023 else 0x0000000F

theorem drained_at_serialization_storeFence :
    (run storeFence 15).2.1.stores = [⟨0, 0, .word⟩] ∧
      Drained storeFence (run storeFence 15).1 (run storeFence 15).2.1
        (run storeFence 15).2.2 := by
  have hstate : (run storeFence 15).2.1.stores = [⟨0, 0, .word⟩] ∧
      (run storeFence 15).1.backend.robAllocValid
          ((run storeFence 15).1.inputs 0) 0 = true ∧
      Isa.serializes ((run storeFence 15).1.front.decodePacket 0).insn =
        true := by
    decide +kernel
  obtain ⟨hstores, haccept, hserial⟩ := hstate
  exact ⟨hstores, (traced_run storeFence 15).drained_at_serialization 0
    haccept hserial⟩

end TopCpu

end OoOCore
