/-
The data memory below the MMIO window.  The data RAM holds what a flat memory
would hold there, the twin of the cache is coherent with that flat memory, and
so the loads of the RAM are answered as by it, whatever the other accesses do.
-/
import OoOCore.CacheTwin
import OoOCore.Drain

namespace OoOCore

open DataCache DataMem

/-- The bytes of the data RAM. -/
def DataMem.bytes (mem : BitVec 14 → Word) : Word → BitVec 8 :=
  fun a => laneByte (mem (wordAddr a)) a

theorem memoryWord_bytes (mem : BitVec 14 → Word) (k : BitVec 30) :
    memoryWord (Backing.flat (bytes mem)) [] k = mem (k.setWidth 14) := by
  apply word_ext (k := k)
  intro x hx
  change laneByte (loadValue (Overwrite.after (bytes mem) []) (k ++ 0#2) .word)
    x = _
  rw [laneByte_loadValue hx, Overwrite.after_nil, bytes, wordAddr_eq, hx]

section Stores

variable {init : Word → BitVec 8} {image : Image} {sent : List StoreRequest}
  {r : StoreRequest} {k : BitVec 30}

/-- Below 0x10000 the RAM keeps words apart. -/
theorem wordAddr_ne (hlow : r.address.toNat < 0x10000)
    (hram : inRam (wordAddress k) = true) (hne : wordIndex r.address ≠ k) :
    k.setWidth 14 ≠ wordAddr r.address := by
  intro heq
  apply hne
  rw [inRam, decide_eq_true_eq, wordAddress, append_toNat] at hram
  have hnat := congrArg BitVec.toNat heq
  have hindex := wordIndex_toNat r.address
  rw [wordAddr_eq, BitVec.toNat_setWidth, BitVec.toNat_setWidth, hindex] at hnat
  apply BitVec.eq_of_toNat_eq
  rw [hindex]
  simp at hram
  omega

/-- A register of the MMIO window is outside the RAM. -/
theorem wordIndex_ne (hmmio : addressIsMmio r.address = true)
    (hram : inRam (wordAddress k) = true) : wordIndex r.address ≠ k := by
  rintro rfl
  have hwindow := ((addressIsMmio_iff _).mp hmmio).1
  rw [inRam, decide_eq_true_eq, wordAddress, append_toNat,
    wordIndex_toNat] at hram
  simp at hram
  omega

/-- A store below 0x10000 changes a word of the RAM as it changes the flat
memory. -/
theorem Image.store_ram (hr : r.Aligned) (hlow : r.address.toNat < 0x10000)
    (hram : inRam (wordAddress k) = true)
    (h : image.mem (k.setWidth 14) = memoryWord (Backing.flat init) sent k) :
    (image.store r).mem (k.setWidth 14) =
      memoryWord (Backing.flat init) (sent ++ [r]) k := by
  have hstored (hne : wordIndex r.address ≠ k) :
      stored image.mem r (k.setWidth 14) =
        memoryWord (Backing.flat init) (sent ++ [r]) k := by
    have hapart := (Backing.flat init).apart sent r k hr hne
    rw [stored, Function.update_of_ne (wordAddr_ne hlow hram hne), h]
    exact hapart.symm
  cases hmmio : addressIsMmio r.address with
  | true =>
      have hne := wordIndex_ne hmmio hram
      have hkept : image.mem (k.setWidth 14) =
          memoryWord (Backing.flat init) (sent ++ [r]) k :=
        h.trans ((Backing.flat init).apart sent r k hr hne).symm
      rw [Image.store]
      split
      · exact hkept
      · split
        · exact hkept
        · split
          · exact hkept
          · exact hstored hne
  | false =>
      obtain ⟨htohost, huart, hfromhost⟩ := hits_of_plain hmmio
      rw [Image.store, htohost, huart, hfromhost]
      change stored image.mem r (k.setWidth 14) = _
      by_cases hk : wordIndex r.address = k
      · subst hk
        have hmerge := (Backing.flat init).merge sent r hr
        rw [← wordAddr_eq] at h ⊢
        rw [stored, Function.update_self, h, mergeStore_eq hr]
        exact hmerge.symm
      · exact hstored hk

/-- So do some stores. -/
theorem Image.stores_ram {more : List StoreRequest}
    (hmore : ∀ r ∈ more, r.Aligned ∧ r.address.toNat < 0x10000)
    (hram : inRam (wordAddress k) = true)
    (h : image.mem (k.setWidth 14) = memoryWord (Backing.flat init) sent k) :
    (more.foldl Image.store image).mem (k.setWidth 14) =
      memoryWord (Backing.flat init) (sent ++ more) k := by
  induction more generalizing image sent with
  | nil =>
      rw [List.append_nil]
      exact h
  | cons r rest ih =>
      obtain ⟨haligned, hlow⟩ := hmore r List.mem_cons_self
      have hfirst := Image.store_ram haligned hlow hram h
      rw [List.foldl_cons, ← List.singleton_append, ← List.append_assoc]
      exact ih (fun x hx => hmore x (List.mem_cons_of_mem r hx)) hfirst

end Stores

/-- The memory behind the cache owes a word that the cache has asked for. -/
theorem DataCache.Control.owed_reading {c : DataCache} (hc : c.Control)
    (h : c.Reading) (b : Backing) (sent : List StoreRequest) :
    ∃ word, c.owed b sent = [word] := by
  rcases h with hstate | hsent
  · rw [owed, hstate]
    exact ⟨_, rfl⟩
  · have hidle := (hc.mmio_signals (i := ⟨false, {}, false, false, false, 0⟩)
      (hc.reading hsent)).1
    rw [owed, hidle, hsent]
    exact ⟨_, rfl⟩

/-- The position of the load that a response answers. -/
def DataCache.servedAt (c : DataCache) (i : DataCache.Inputs)
    (t : CacheTraffic) : Nat :=
  if c.criticalResponseValid i then t.mshrAt else t.lookupAt

/-- The response goes to the accepted load at its position, and if that is a
load of the RAM it carries the bytes that the stores before it leave. -/
def RamAnswer (init : Word → BitVec 8) (accepted : List CacheRequest)
    (e : Nat × CacheResponse) : Prop :=
  ∃ q, accepted[e.1]? = some q ∧ q.write = false ∧ e.2.id = q.id ∧
    (inRam q.address = true → e.2.data = (Backing.flat init).read
      (storesIn (accepted.take e.1)) q.address q.access)

theorem RamAnswer.append {init : Word → BitVec 8}
    {accepted : List CacheRequest} {e : Nat × CacheResponse}
    (h : RamAnswer init accepted e)
    (more : List CacheRequest) : RamAnswer init (accepted ++ more) e := by
  obtain ⟨q, hq, hload, hid, hdata⟩ := h
  have hk : e.1 < accepted.length := (List.getElem?_eq_some_iff.mp hq).1
  refine ⟨q, ?_, hload, hid, ?_⟩
  · rw [List.getElem?_append_left hk]
    exact hq
  · rw [List.take_append_of_le_length (Nat.le_of_lt hk)]
    exact hdata

namespace MemStages

variable {init : Word → BitVec 8} {m : MemStages} {i : MemStages.Inputs}
  {bank : LineWord → CacheSet → Word} {data : Word} {t : CacheTraffic}

/-- The inputs of the twin, which gets the words that the flat memory owes. -/
def twinInputs (m : MemStages) (i : Inputs) (t : CacheTraffic) :
    DataCache.Inputs :=
  (m.cacheInputs i).withAnswer (t.pending.headD 0)

/-- The memory stages with a twin of their cache in front of a flat memory that
started with the bytes `init`. -/
structure Behind (init : Word → BitVec 8) (m : MemStages)
    (bank : LineWord → CacheSet → Word) (data : Word) (t : CacheTraffic) :
    Prop where
  twin : Twin m.dataCache bank data
  coherent : Coherent (Backing.flat init) (m.dataCache.withData bank data) t
  awaited : m.Awaited
  ram : ∀ k, inRam (wordAddress k) = true →
    m.dataMem.mem (k.setWidth 14) = memoryWord (Backing.flat init) t.sent k
  answer : m.dataMem.responseValidReg = true →
    m.dataCache.mshr.refillState = .response →
      ramLine m.dataCache.mshr.tag m.dataCache.mshr.set = true →
        m.dataMem.responseData = memoryWord (Backing.flat init) t.sent
          (lineIndex m.dataCache.mshr.tag m.dataCache.mshr.set
            m.dataCache.mshr.refillWord)

section Step

variable (h : Behind init m bank data t)

include h

theorem Behind.control : m.dataCache.Control := by
  have hc := h.coherent.control
  exact ⟨hc.busy, hc.set, hc.tag, hc.word, hc.mmio, hc.missSet, hc.missTag,
    hc.refillWord, hc.beside, hc.critical, hc.reading⟩

/-- The flat memory owes a word when the RAM answers. -/
theorem Behind.pending (hvalid : m.dataMem.responseValidReg = true) :
    t.pending = [t.pending.headD 0] := by
  have hreading : (m.dataCache.withData bank data).Reading := h.awaited hvalid
  obtain ⟨word, howed⟩ := h.coherent.control.owed_reading hreading
    (Backing.flat init) t.sent
  rw [h.coherent.ledger.pending, howed]
  rfl

theorem Behind.offers (haligned : i.requestValid = true → i.request.Aligned) :
    Offers (m.twinInputs i t) t where
  answer := by
    intro hvalid
    rw [h.pending hvalid]
    rfl
  aligned := haligned

/-- The RAM answers a refill of one of its lines as the flat memory. -/
theorem Behind.sameAnswer :
    SameAnswer m.dataCache (m.cacheInputs i) (t.pending.headD 0) := by
  intro hstate hvalid hram
  have howed : t.pending = [memoryWord (Backing.flat init) t.sent
      (lineIndex m.dataCache.mshr.tag m.dataCache.mshr.set
        m.dataCache.mshr.refillWord)] := by
    have hstate' : (m.dataCache.withData bank data).mshr.refillState =
      .response := hstate
    rw [h.coherent.ledger.pending, owed, hstate']
    rfl
  rw [howed]
  exact h.answer hvalid hstate hram

/-- What the cache sends to the RAM. -/
theorem Behind.sent (hlow : ∀ r ∈ storesIn t.accepted,
      r.address.toNat < 0x10000) {r : StoreRequest}
    (hr : r ∈ sentBy (m.dataCache.memoryAccepts (m.cacheInputs i))) :
    r.Aligned ∧ r.address.toNat < 0x10000 := by
  rw [h.control.sent_eq] at hr
  split at hr
  · next hstore =>
    rw [Bool.and_eq_true] at hstore
    rw [List.mem_singleton] at hr
    subst hr
    refine ⟨h.coherent.ledger.store_aligned hstore.1, hlow _ ?_⟩
    have hstores := h.coherent.ledger.stores
    have hstoring : (m.dataCache.withData bank data).storing = true := hstore.1
    rw [hstoring, if_pos rfl] at hstores
    rw [hstores]
    exact List.mem_append_right _ (List.mem_singleton_self _)
  · cases hr

theorem Behind.step_ram (hlow : ∀ r ∈ storesIn t.accepted,
      r.address.toNat < 0x10000) (k : BitVec 30)
    (hram : inRam (wordAddress k) = true) :
    (m.step i).dataMem.mem (k.setWidth 14) = memoryWord (Backing.flat init)
      (t.sent ++ sentBy (m.dataCache.memoryAccepts (m.cacheInputs i))) k := by
  have himage : (m.step i).dataMem.mem =
      ((sentBy (m.dataCache.memoryAccepts (m.cacheInputs i))).foldl Image.store
        (m.dataMem.image [])).mem := congrArg Image.mem step_image
  rw [himage]
  exact Image.stores_ram (fun r hr => h.sent hlow hr) hram (h.ram k hram)

/-- A word of a line of the RAM that the cache has asked for. -/
theorem Behind.read_line {w : LineWord}
    (hasks : m.dataCache.memoryAccepts (m.cacheInputs i) =
      some (m.dataCache.refillRequest w))
    (hram : ramLine m.dataCache.mshr.tag m.dataCache.mshr.set = true) :
    (m.step i).dataMem.responseData = memoryWord (Backing.flat init) t.sent
      (lineIndex m.dataCache.mshr.tag m.dataCache.mshr.set w) := by
  have hc := h.control
  obtain ⟨-, hinput⟩ := accepts_request hasks
  have hfire := requestFire_eq (m := m) (i := i)
  rw [hasks, Option.isSome_some] at hfire
  have haddress : (m.dataCache.refillRequest w).address = wordAddress
      (lineIndex m.dataCache.mshr.tag m.dataCache.mshr.set w) := by
    rw [hc.missTag, hc.missSet, ← lineAddress_eq]
    rfl
  have hword := (inRam_lineIndex _ _ w).trans hram
  have hplain : addressIsMmio (m.memoryInputs i).request.address = false := by
    rw [hinput, haddress]
    by_contra hmmio
    rw [Bool.not_eq_false] at hmmio
    have hwindow := ((addressIsMmio_iff _).mp hmmio).1
    rw [inRam, decide_eq_true_eq] at hword
    exact absurd hword (Nat.not_lt.mpr hwindow)
  have hresponse := (step_response hplain (by rw [hfire, hinput]; rfl)).2
  change (m.dataMem.step (m.memoryInputs i)).responseData = _
  rw [hresponse, hinput, haddress, wordAddr_wordAddress, h.ram _ hword]
  have hzero : byteOffset (wordAddress (lineIndex m.dataCache.mshr.tag
      m.dataCache.mshr.set w)) = 0 := by
    rw [byteOffset, wordAddress]
    exact BitVec.extractLsb'_append_eq_right
  rw [hzero]
  rfl

theorem Behind.step_answer
    (hvalid : (m.step i).dataMem.responseValidReg = true)
    (hstate : (m.step i).dataCache.mshr.refillState = .response)
    (hram : ramLine (m.step i).dataCache.mshr.tag
      (m.step i).dataCache.mshr.set = true) :
    (m.step i).dataMem.responseData = memoryWord (Backing.flat init)
      (t.sent ++ sentBy (m.dataCache.memoryAccepts (m.cacheInputs i)))
      (lineIndex (m.step i).dataCache.mshr.tag (m.step i).dataCache.mshr.set
        (m.step i).dataCache.mshr.refillWord) := by
  have hc := h.control
  have hbusy (hold : m.dataCache.mshr.refillState ≠ .idle) :
      t.sent ++ sentBy (m.dataCache.memoryAccepts (m.cacheInputs i)) =
        t.sent := by
    rw [hc.sent_busy (hc.busy.mpr hold), List.append_nil]
  have hstep := hc.refillStep (m.cacheInputs i)
  change (m.dataCache.nextMshr (m.cacheInputs i)).refillState = _ at hstate
  change ramLine (m.dataCache.nextMshr (m.cacheInputs i)).tag
    (m.dataCache.nextMshr (m.cacheInputs i)).set = true at hram
  change (m.step i).dataMem.responseData = memoryWord _ _
    (lineIndex (m.dataCache.nextMshr (m.cacheInputs i)).tag
      (m.dataCache.nextMshr (m.cacheInputs i)).set
      (m.dataCache.nextMshr (m.cacheInputs i)).refillWord)
  generalize m.dataCache.nextMshr (m.cacheInputs i) = next at hstep hstate hram
  cases hstep with
  | rest hidle | hold hidle => exact absurd (hidle.symm.trans hstate) (by decide)
  | allocate hidle hmiss =>
      rw [allocated, if_pos hmiss] at hstate
      cases hstate
  | ask hask hready =>
      rw [hbusy (by rw [hask]; decide)]
      apply h.read_line _ hram
      rw [memoryAccepts, if_pos hready, DataCache.memoryRequest, hask]
  | wait hwait hfire =>
      rw [hbusy (by rw [hwait]; decide)]
      have hnone : m.dataCache.memoryAccepts (m.cacheInputs i) = none := by
        rw [memoryAccepts, DataCache.memoryRequest, hwait]
        dsimp only
        rw [hfire]
        exact ite_self _
      have hquiet := requestFire_eq (m := m) (i := i)
      rw [hnone, Option.isSome_none] at hquiet
      have hkept : (m.step i).dataMem.responseData = m.dataMem.responseData := by
        change (m.dataMem.step (m.memoryInputs i)).responseData = _
        simp only [DataMem.responseData, DataMem.step, nextReadWordReg, hquiet,
          Bool.false_and, Bool.false_eq_true, if_false]
      change (_ && _ || m.dataMem.responseValidReg && _) = true at hvalid
      rw [hquiet, Bool.false_and, Bool.false_or, Bool.and_eq_true] at hvalid
      rw [hkept]
      exact h.answer hvalid.1 hwait hram
  | last => cases hstate
  | beat hbeat hfire hcount =>
      rw [hbusy (by rw [hbeat]; decide)]
      apply h.read_line _ hram
      cases hready : (m.cacheInputs i).memoryRequestReady with
      | false =>
          rw [hready] at hstate
          cases hstate
      | true =>
          rw [memoryAccepts, if_pos hready, DataCache.memoryRequest, hbeat]
          dsimp only
          rw [hfire, decide_eq_true hcount]
          rfl

/-- The twin stays behind the RAM as long as the CPU stores below 0x10000. -/
theorem Behind.step (haligned : i.requestValid = true → i.request.Aligned)
    (hlow : ∀ r ∈ storesIn t.accepted, r.address.toNat < 0x10000) :
    Behind init (m.step i)
      ((m.dataCache.withData bank data).nextDataBank (m.twinInputs i t))
      ((m.dataCache.withData bank data).nextLookup (m.twinInputs i t)).data
      ((m.dataCache.withData bank data).observe (Backing.flat init)
        (m.twinInputs i t) t) where
  twin := h.twin.step h.control h.coherent.lines h.sameAnswer
  coherent := by
    have hstep := h.coherent.step (h.offers haligned) (flat_unaliased _)
    rw [twinInputs, step_withData] at hstep
    exact hstep
  awaited := h.awaited.step h.control
  ram := fun k hram => h.step_ram hlow k hram
  answer := fun hvalid hstate hram => h.step_answer hvalid hstate hram

/-- A response of the cache answers the load that waits for it, and with the
bytes of the flat memory if that load is in the RAM. -/
theorem Behind.response (haligned : i.requestValid = true → i.request.Aligned)
    {r : CacheResponse} (hr : m.dataCache.response (m.cacheInputs i) = some r) :
    m.dataCache.Waits t (m.dataCache.servedAt (m.cacheInputs i) t) ∧
      RamAnswer init t.accepted
        (m.dataCache.servedAt (m.cacheInputs i) t, r) := by
  have hg := h.coherent.ledger
  obtain ⟨r', hr', hid, hdata⟩ := h.twin.response h.sameAnswer h.control hr
  -- Whether the CPU takes the response is left to it.
  have ho : Offers { m.twinInputs i t with responseReady := true } t :=
    ⟨(h.offers haligned).answer, haligned⟩
  have htaken : (m.dataCache.servedAt (m.cacheInputs i) t, r') ∈
      (m.dataCache.withData bank data).answered
        { m.twinInputs i t with responseReady := true } t := by
    have hgiven : (m.dataCache.withData bank data).response
      { m.twinInputs i t with responseReady := true } = some r' := hr'
    rw [answered, if_pos rfl, hgiven]
    exact List.mem_singleton_self _
  obtain ⟨⟨q, hq, hload, hanswer⟩, hwaits⟩ :=
    hg.answered_correct h.coherent.control h.coherent.lines ho htaken
  have hserved : (if m.dataCache.criticalResponseValid (m.cacheInputs i)
      then m.dataCache.mshr.address
      else m.dataCache.lookup.request.address) = q.address := by
    cases hcritical : m.dataCache.criticalResponseValid (m.cacheInputs i) with
    | true =>
        rw [servedAt, hcritical, if_pos rfl] at hq
        simp only [criticalResponseValid, Bool.and_eq_true] at hcritical
        obtain ⟨held, hheld, -, haddress, -⟩ := hg.miss hcritical.1.1.1
        rw [if_pos rfl, ← Option.some.inj (hheld.symm.trans hq)]
        exact haddress.symm
    | false =>
        rcases mem_answered htaken with ⟨hcritical', -⟩ | ⟨hfire, -⟩
        · exact absurd (hcritical.symm.trans hcritical') Bool.false_ne_true
        · rw [servedAt, hcritical, if_neg Bool.false_ne_true,
            (hg.lookup (lookupResponseFire_valid hfire)).1,
            Option.some.injEq] at hq
          rw [if_neg Bool.false_ne_true, ← hq]
          rfl
  refine ⟨hwaits, q, hq, hload, ?_, ?_⟩
  · change r.id = q.id
    rw [← hid]
    exact congrArg CacheResponse.id hanswer
  · intro hram
    rw [← hserved] at hram
    change r.data = _
    rw [← hdata hram]
    exact congrArg CacheResponse.data hanswer

end Step

section Runs

variable {tagArray : CacheSet → CacheTag}
  {dataBank : LineWord → CacheSet → Word} {mem : BitVec 14 → Word}
  {readWord : Word} {is : Nat → MemStages.Inputs}

theorem Behind.reset (tagArray : CacheSet → CacheTag)
    (dataBank : LineWord → CacheSet → Word) (mem : BitVec 14 → Word)
    (readWord : Word) : Behind (bytes mem)
      (reset tagArray dataBank mem readWord) dataBank 0 {} where
  twin := Twin.refl _
  coherent := reset_coherent _ _ _
  awaited := fun hvalid => absurd hvalid Bool.false_ne_true
  ram := fun k _ => (memoryWord_bytes mem k).symm
  answer := fun hvalid => absurd hvalid Bool.false_ne_true

/-- The same requests have been accepted and the same ones answered. -/
structure Tracks (t t' : CacheTraffic) : Prop where
  accepted : t'.accepted = t.accepted
  lookupAt : t'.lookupAt = t.lookupAt
  mshrAt : t'.mshrAt = t.mshrAt
  answered : t'.responses.map Prod.fst = t.responses.map Prod.fst

/-- The traffic of the twin tracks the one of the cache. -/
theorem Tracks.observe {t t' : CacheTraffic} (h : Tracks t t') (b b' : Backing)
    (c : DataCache) (i : DataCache.Inputs) (word : Word) :
    Tracks (c.observe b i t)
      ((c.withData bank data).observe b' (i.withAnswer word) t') where
  accepted := congrArg (· ++ if c.requestFire i then [i.request] else [])
    h.accepted
  lookupAt := by
    change (if c.requestFire i then t'.accepted.length else t'.lookupAt) =
      if c.requestFire i then t.accepted.length else t.lookupAt
    rw [h.accepted, h.lookupAt]
  mshrAt := by
    change (if c.lookupMissAllocate then t'.lookupAt else t'.mshrAt) =
      if c.lookupMissAllocate then t.lookupAt else t.mshrAt
    rw [h.lookupAt, h.mshrAt]
  answered := by
    change (t'.responses ++ (c.withData bank data).answered
        (i.withAnswer word) t').map Prod.fst =
      (t.responses ++ c.answered i t).map Prod.fst
    rw [List.map_append, List.map_append, h.answered, answered_positions,
      answered_positions, h.lookupAt, h.mshrAt]
    rfl

/-- The CPU offers aligned accesses and stores below 0x10000. -/
structure Inputs.Low (i : MemStages.Inputs) : Prop where
  aligned : i.requestValid = true → i.request.Aligned
  low : i.requestValid = true → i.request.write = true →
    i.request.address.toNat < 0x10000

/-- The memory stages with the traffic at their port. -/
structure RamServed (init : Word → BitVec 8) (m : MemStages)
    (t : CacheTraffic) : Prop where
  behind : ∃ bank data t', Behind init m bank data t' ∧ Tracks t t'
  low : ∀ r ∈ storesIn t.accepted, r.address.toNat < 0x10000
  answers : ∀ e ∈ t.responses, RamAnswer init t.accepted e

theorem RamServed.step (h : RamServed init m t) (hi : i.Low) (b : Backing) :
    RamServed init (m.step i)
      (m.dataCache.observe b (m.cacheInputs i) t) where
  behind := by
    obtain ⟨bank, data, t', hbehind, htracks⟩ := h.behind
    have hlow := h.low
    rw [← htracks.accepted] at hlow
    exact ⟨_, _, _, hbehind.step hi.aligned hlow, htracks.observe b _ _ _ _⟩
  low := by
    intro r hr
    change r ∈ storesIn (t.accepted ++ if _ then _ else _) at hr
    rw [storesIn_append, List.mem_append] at hr
    rcases hr with hold | hnew
    · exact h.low r hold
    · split at hnew
      · next hfire =>
        rw [DataCache.requestFire, Bool.and_eq_true] at hfire
        obtain ⟨q, hq, hstore⟩ := List.mem_filterMap.mp hnew
        rw [List.mem_singleton] at hq
        subst hq
        rw [CacheRequest.store?] at hstore
        split at hstore
        · next hwrite =>
          cases hstore
          exact hi.low hfire.1 hwrite
        · cases hstore
      · cases hnew
  answers := by
    intro e he
    change e ∈ t.responses ++ m.dataCache.answered (m.cacheInputs i) t at he
    rcases List.mem_append.mp he with hold | hnew
    · exact (h.answers e hold).append _
    · obtain ⟨bank, data, t', hbehind, htracks⟩ := h.behind
      rw [answered] at hnew
      split at hnew
      · obtain ⟨r, hr, rfl⟩ := List.mem_map.mp hnew
        have hanswer := (hbehind.response hi.aligned
          (Option.mem_toList.mp hr)).2
        rw [servedAt, htracks.accepted, htracks.lookupAt, htracks.mshrAt]
          at hanswer
        exact hanswer.append _
      · cases hnew

theorem RamServed.once (h : RamServed init m t) :
    (t.responses.map Prod.fst).Nodup := by
  obtain ⟨bank, data, t', hbehind, htracks⟩ := h.behind
  rw [← htracks.answered]
  exact hbehind.coherent.ledger.once

theorem run_ramServed (hlow : ∀ n, (is n).Low) (n : Nat) :
    RamServed (bytes mem) (run (reset tagArray dataBank mem readWord) is n).1
      (run (reset tagArray dataBank mem readWord) is n).2 := by
  induction n with
  | zero =>
      refine ⟨⟨_, _, _, Behind.reset tagArray dataBank mem readWord,
        rfl, rfl, rfl, rfl⟩, ?_, ?_⟩
      · intro r hr
        cases hr
      · intro e he
        cases he
  | succ n ih => exact ih.step (hlow n) _

/-- The RAM is an ordinary memory below the MMIO window, whatever is accessed
beside it: registers, or loads from anywhere.  Every response goes to an
accepted load that had none, and what a load of the RAM gets are the bytes that
the stores accepted before it leave. -/
theorem ram_served (tagArray : CacheSet → CacheTag)
    (dataBank : LineWord → CacheSet → Word) (mem : BitVec 14 → Word)
    (readWord : Word) (hlow : ∀ n, (is n).Low) (n : Nat) :
    (∀ e ∈ (run (reset tagArray dataBank mem readWord) is n).2.responses,
      RamAnswer (bytes mem)
        (run (reset tagArray dataBank mem readWord) is n).2.accepted e) ∧
      ((run (reset tagArray dataBank mem readWord) is n).2.responses.map
        Prod.fst).Nodup :=
  ⟨(run_ramServed hlow n).answers, (run_ramServed hlow n).once⟩

/-- A load of 0, a store to `tohost`, a load of 0x10004, a load of `tohost`, a
store to 4 and a load of 4. -/
def mixed : Nat → MemStages.Inputs
  | 0 => offer (some { address := 0, id := 1 })
  | 8 => offer (some
      { write := true, address := toHostAddr, writeData := 5 })
  | 9 => offer (some { address := 0x10004, id := 2 })
  | 18 => offer (some { address := toHostAddr, id := 3 })
  | 22 => offer (some { write := true, address := 4, writeData := 7 })
  | 23 => offer (some { address := 4, id := 4 })
  | _ => offer none

theorem mixed_low (n : Nat) : (mixed n).Low := by
  have haligned : toHostAddr.toNat % 4 = 0 := by decide
  unfold mixed
  split
  · exact ⟨fun _ => rfl, fun _ h => (nomatch h)⟩
  · exact ⟨fun _ => haligned, fun _ _ => by decide⟩
  · exact ⟨fun _ => rfl, fun _ h => (nomatch h)⟩
  · exact ⟨fun _ => rfl, fun _ h => (nomatch h)⟩
  · exact ⟨fun _ => rfl, fun _ _ => by decide⟩
  · exact ⟨fun _ => rfl, fun _ h => (nomatch h)⟩
  · exact ⟨fun h => (nomatch h), fun h => (nomatch h)⟩

/-- The cached memory after these, from cleared arrays. -/
def mixedRun : Nat → MemStages × CacheTraffic :=
  run (reset (fun _ => 0) (fun _ _ => 0) (fun _ => 0) 0) mixed

theorem ram_served_mixed :
    (mixedRun 34).2.responses =
        [(0, ⟨0, 1⟩), (2, ⟨0, 2⟩), (3, ⟨5, 3⟩), (5, ⟨7, 4⟩)] ∧
      RamAnswer (bytes fun _ => 0) (mixedRun 34).2.accepted (5, ⟨7, 4⟩) := by
  have hresponses : (mixedRun 34).2.responses =
      [(0, ⟨0, 1⟩), (2, ⟨0, 2⟩), (3, ⟨5, 3⟩), (5, ⟨7, 4⟩)] := by
    decide +kernel
  have hserved := (ram_served (fun _ => 0) (fun _ _ => 0) (fun _ => 0) 0
    mixed_low 34).1
  refine ⟨hresponses, hserved _ ?_⟩
  change _ ∈ (mixedRun 34).2.responses
  rw [hresponses]
  decide

end Runs

end MemStages

end OoOCore
