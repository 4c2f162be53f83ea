/-
The data cache decides by addresses and handshakes, never by data.  So a twin
that holds other data moves in step with it, and where the two agree on the
lines of the RAM they go on to agree.
-/
import OoOCore.CacheResponses

namespace OoOCore

/-- The RAM below the MMIO window. -/
def inRam (a : Word) : Bool := decide (a.toNat < 0xFFE0)

namespace DataCache

/-- The RAM consists of whole lines. -/
theorem inRam_line {a x : Word} (htag : tagOf a = tagOf x)
    (hset : setOf a = setOf x) : inRam a = inRam x := by
  have hline (y : Word) : y.toNat / 16 =
      (tagOf y).toNat * 64 + (setOf y).toNat := by
    have hy := y.isLt
    simp only [tagOf, setOf, BitVec.extractLsb'_toNat,
      Nat.shiftRight_eq_div_pow]
    omega
  have ha := hline a
  rw [htag, hset, ← hline x] at ha
  rw [Bool.eq_iff_iff, inRam, inRam, decide_eq_true_eq, decide_eq_true_eq]
  omega

/-- The line is one of the RAM. -/
def ramLine (tag : CacheTag) (set : CacheSet) : Bool :=
  inRam (wordAddress (lineIndex tag set 0))

theorem inRam_eq {a : Word} {tag : CacheTag} {set : CacheSet}
    (htag : tagOf a = tag) (hset : setOf a = set) :
    inRam a = ramLine tag set := by
  obtain ⟨htag', hset', -⟩ := lineIndex_fields tag set 0
  exact inRam_line (htag.trans htag'.symm) (hset.trans hset'.symm)

theorem inRam_lineIndex (tag : CacheTag) (set : CacheSet) (w : LineWord) :
    inRam (wordAddress (lineIndex tag set w)) = ramLine tag set := by
  obtain ⟨htag, hset, -⟩ := lineIndex_fields tag set w
  exact inRam_eq htag hset

/-- The cache with other data in its banks and in its lookup stage. -/
def withData (c : DataCache) (bank : LineWord → CacheSet → Word)
    (data : Word) : DataCache :=
  { c with dataBank := bank, lookup := { c.lookup with data := data } }

/-- The same cycle with another word from the memory. -/
def Inputs.withAnswer (i : Inputs) (word : Word) : Inputs :=
  { i with memoryResponseData := word }

/-- The twin agrees with the cache on the lines of the RAM. -/
structure Twin (c : DataCache) (bank : LineWord → CacheSet → Word)
    (data : Word) : Prop where
  valid : ∀ s w, c.validArray s = true →
    ramLine (c.tagArray s) s = true → c.dataBank w s = bank w s
  refilled : c.mshr.valid = true →
    ramLine c.mshr.tag c.mshr.set = true → ∀ k, k < c.mshr.refillCount →
      c.dataBank (wordOf c.mshr.address + k) c.mshr.set =
        bank (wordOf c.mshr.address + k) c.mshr.set
  data : c.lookup.stageValid = true → c.lookup.mmio = false →
    c.lookupHit = true → ramLine c.lookup.requestTag c.lookup.set = true →
      c.lookup.data = data

/-- The memory behind the cache gives the twin the same word of a line of the
RAM. -/
def SameAnswer (c : DataCache) (i : Inputs) (word : Word) : Prop :=
  c.mshr.refillState = .response → i.memoryResponseValid = true →
    ramLine c.mshr.tag c.mshr.set = true → i.memoryResponseData = word

section Twins

variable {c : DataCache} {i : Inputs} {bank : LineWord → CacheSet → Word}
  {data word : Word}

theorem Twin.refl (c : DataCache) : Twin c c.dataBank c.lookup.data where
  valid := fun _ _ _ _ => rfl
  refilled := fun _ _ _ _ => rfl
  data := fun _ _ _ _ => rfl

/-- The twin moves in step. -/
theorem step_withData :
    (c.withData bank data).step (i.withAnswer word) =
      (c.step i).withData
        ((c.withData bank data).nextDataBank (i.withAnswer word))
        ((c.withData bank data).nextLookup (i.withAnswer word)).data := by
  have hlookup : (c.withData bank data).nextLookup (i.withAnswer word) =
      { c.nextLookup i with
        data := ((c.withData bank data).nextLookup
          (i.withAnswer word)).data } := by
    have hfire : (c.withData bank data).requestFire (i.withAnswer word) =
        c.requestFire i := rfl
    rw [nextLookup, nextLookup, hfire]
    cases c.requestFire i <;> rfl
  change DataCache.mk _ _ _ _ _ = DataCache.mk _ _ _ _ _
  rw [hlookup]
  rfl

/-- The data banks of the twin after the edge. -/
theorem twin_dataBank (w : LineWord) (s : CacheSet) :
    (c.withData bank data).nextDataBank (i.withAnswer word) w s =
      if c.arrayRefillWriteEnable i then
        if w = c.mshr.refillWord ∧ s = c.mshr.set then word else bank w s
      else if c.arrayStoreWriteEnable i then
        if w = c.lookup.word ∧ s = c.lookup.set then
          (c.withData bank data).mergedStoreData
        else bank w s
      else bank w s :=
  step_dataBank (c := c.withData bank data) (i := i.withAnswer word) w s

variable {b : Backing} {sent : List StoreRequest} (h : Twin c bank data)

include h

/-- A store that hits a line of the RAM merges with the same word. -/
theorem Twin.merged (hc : c.Control) (hwrite : c.arrayStoreWriteEnable i = true)
    (hram : ramLine c.lookup.requestTag c.lookup.set = true) :
    c.mergedStoreData = (c.withData bank data).mergedStoreData := by
  rw [hc.storeWrite_eq] at hwrite
  simp only [Bool.and_eq_true, Bool.not_eq_true'] at hwrite
  obtain ⟨⟨⟨hstore, hmmio⟩, -⟩, hhit⟩ := hwrite
  rw [storing, Bool.and_eq_true] at hstore
  rw [mergedStoreData, h.data hstore.1 hmmio hhit hram]
  rfl

variable (hc : c.Control) (hl : Lines b (c.withData bank data) sent)
  (ha : SameAnswer c i word)

include hc hl

/-- The set of a valid line of the RAM, outside a refill. -/
theorem Twin.step_bank {s : CacheSet} (hvalid : c.validArray s = true)
    (hram : ramLine (c.tagArray s) s = true) (w : LineWord) :
    (c.step i).dataBank w s =
      (c.withData bank data).nextDataBank (i.withAnswer word) w s := by
  rw [step_dataBank, twin_dataBank, h.valid s w hvalid hram]
  split
  · next hwrite =>
    have hne : ¬ (w = c.mshr.refillWord ∧ s = c.mshr.set) := by
      rintro ⟨-, rfl⟩
      have hmissed := (hl.missed (hc.busy_of_write hwrite)).1
      change c.validArray c.mshr.set = false at hmissed
      rw [hvalid] at hmissed
      cases hmissed
    rw [if_neg hne, if_neg hne]
  · split
    · next hwrite =>
      split
      · next hat =>
        obtain ⟨-, rfl⟩ := hat
        have hstore := hwrite
        rw [hc.storeWrite_eq] at hstore
        simp only [Bool.and_eq_true, Bool.not_eq_true'] at hstore
        obtain ⟨⟨⟨hstoring, hmmio⟩, -⟩, hhit⟩ := hstore
        rw [storing, Bool.and_eq_true] at hstoring
        have htag := hl.arrayTag hstoring.1 hmmio
        change c.lookup.arrayTag = c.tagArray c.lookup.set at htag
        rw [lookupHit, Bool.and_eq_true, decide_eq_true_eq, htag] at hhit
        rw [hhit.2] at hram
        exact h.merged hc hwrite hram
      · rfl
    · rfl

include ha

theorem Twin.step_valid {s : CacheSet}
    (hvalid : (c.step i).validArray s = true)
    (hram : ramLine ((c.step i).tagArray s) s = true) (w : LineWord) :
    (c.step i).dataBank w s =
      (c.withData bank data).nextDataBank (i.withAnswer word) w s := by
  rw [step_validArray] at hvalid
  rw [step_tagArray] at hram
  by_cases hlast : c.refillLast i = true ∧ s = c.mshr.set
  · -- The last beat completes the words that the refill has copied.
    rw [if_pos hlast] at hram
    obtain ⟨hlast, rfl⟩ := hlast
    obtain ⟨hwrite, hcount⟩ := refillLast_write hlast
    obtain ⟨hstate, hfire⟩ := refillWrite_state hwrite
    rw [memoryResponseFire, Bool.and_eq_true] at hfire
    rw [step_dataBank, twin_dataBank, hwrite, if_pos rfl, if_pos rfl]
    by_cases hw : w = c.mshr.refillWord
    · rw [if_pos ⟨hw, rfl⟩, if_pos ⟨hw, rfl⟩]
      exact ha hstate hfire.1 hram
    · rw [if_neg fun h => hw h.1, if_neg fun h => hw h.1]
      rw [hc.refillWord, hcount] at hw
      obtain ⟨k, hk, rfl⟩ := refill_order _ _ hw
      exact h.refilled (hc.busy_of_write hwrite) hram k (by
        rw [hcount]
        exact hk)
  · rw [if_neg hlast] at hvalid hram
    by_cases hmiss : c.lookupMissAllocate = true ∧ s = c.lookup.set
    · rw [if_pos hmiss] at hvalid
      cases hvalid
    · rw [if_neg hmiss] at hvalid
      exact h.step_bank hc hl hvalid hram w

omit hl in
theorem Twin.step_refilled (hbusy : (c.step i).mshr.valid = true)
    (hram : ramLine (c.step i).mshr.tag (c.step i).mshr.set = true)
    {k : LineWord} (hk : k < (c.step i).mshr.refillCount) :
    (c.step i).dataBank (wordOf (c.step i).mshr.address + k)
        (c.step i).mshr.set =
      (c.withData bank data).nextDataBank (i.withAnswer word)
        (wordOf (c.step i).mshr.address + k) (c.step i).mshr.set := by
  have hkept (hold : c.mshr.valid = true)
      (hquiet : c.arrayRefillWriteEnable i = false) (w : LineWord)
      (hw : c.dataBank w c.mshr.set = bank w c.mshr.set) :
      (c.step i).dataBank w c.mshr.set =
        (c.withData bank data).nextDataBank (i.withAnswer word) w
          c.mshr.set := by
    have hstore : c.arrayStoreWriteEnable i = false := by
      rw [hc.storeWrite_eq, hc.not_storing_busy hold]
      rfl
    rw [step_dataBank, twin_dataBank, hquiet, hstore]
    exact hw
  have hquiet : c.mshr.refillState ≠ .response →
      c.arrayRefillWriteEnable i = false := by
    intro hstate
    simp [arrayRefillWriteEnable, hstate]
  change (c.nextMshr i).valid = true at hbusy
  change ramLine (c.nextMshr i).tag (c.nextMshr i).set = true at hram
  change k < (c.nextMshr i).refillCount at hk
  change (c.step i).dataBank (wordOf (c.nextMshr i).address + k)
      (c.nextMshr i).set =
    (c.withData bank data).nextDataBank (i.withAnswer word)
      (wordOf (c.nextMshr i).address + k) (c.nextMshr i).set
  have hstep := hc.refillStep i
  generalize c.nextMshr i = m at hstep hbusy hram hk
  cases hstep with
  | rest hstate _ => exact absurd hstate (hc.busy.mp hbusy)
  | allocate hstate hmiss =>
      rw [allocated, if_pos hmiss] at hk
      exact absurd hk (by simp)
  | hold hstate _ | ask hstate _ =>
      exact hkept hbusy (hquiet (by simp [hstate])) _
        (h.refilled hbusy hram k hk)
  | wait hstate hfire =>
      exact hkept hbusy (by simp [arrayRefillWriteEnable, hfire]) _
        (h.refilled hbusy hram k hk)
  | last => cases hbusy
  | beat hstate hfire hcount =>
      have hwrite : c.arrayRefillWriteEnable i = true := by
        simp [arrayRefillWriteEnable, hstate, hfire]
      rw [memoryResponseFire, Bool.and_eq_true] at hfire
      change k < c.mshr.refillCount + 1 at hk
      change (c.step i).dataBank (wordOf c.mshr.address + k) c.mshr.set =
        (c.withData bank data).nextDataBank (i.withAnswer word)
          (wordOf c.mshr.address + k) c.mshr.set
      rw [step_dataBank, twin_dataBank, hwrite, if_pos rfl, if_pos rfl]
      rcases refill_next (wordOf c.mshr.address) _ k hcount hk with
        rfl | ⟨hlt, hne⟩
      · rw [← hc.refillWord, if_pos ⟨rfl, rfl⟩, if_pos ⟨rfl, rfl⟩]
        exact ha hstate hfire.1 hram
      · rw [← hc.refillWord] at hne
        rw [if_neg fun h => hne h.1, if_neg fun h => hne h.1]
        exact h.refilled hbusy hram k hlt

omit ha hl in
/-- A request that enters the lookup stage reads the same word of a valid line
of the RAM. -/
theorem Twin.step_read (hfire : c.requestFire i = true)
    (hmmio : incomingMmio i = false) (hhit : (c.step i).lookupHit = true)
    (hram : ramLine (tagOf i.request.address) (setOf i.request.address) =
      true) :
    (c.step i).lookup.data = ((c.withData bank data).nextLookup
      (i.withAnswer word)).data := by
  have hfire' : (c.withData bank data).requestFire (i.withAnswer word) =
      true := hfire
  change ((c.nextLookup i).lineValid &&
    decide ((c.nextLookup i).arrayTag = (c.nextLookup i).requestTag)) = true
    at hhit
  change (c.nextLookup i).data = _
  rw [nextLookup, if_pos hfire] at hhit ⊢
  rw [nextLookup, if_pos hfire']
  simp only [hmmio, Bool.false_eq_true, if_false, Bool.and_eq_true,
    decide_eq_true_eq] at hhit ⊢
  change (if c.incomingStoreBypass i then _ else _) =
    if incomingMmio i then _ else if c.incomingStoreBypass i then
      (c.withData bank data).mergedStoreData
    else bank (wordOf i.request.address) (setOf i.request.address)
  rw [hmmio, if_neg Bool.false_ne_true]
  split
  · next hbypass =>
    simp only [incomingStoreBypass, Bool.and_eq_true,
      decide_eq_true_eq] at hbypass
    obtain ⟨⟨⟨hwrite, hset⟩, htag⟩, -⟩ := hbypass
    rw [htag, hset] at hram
    exact h.merged hc hwrite hram
  · apply h.valid _ _ hhit.1
    rw [hhit.2]
    exact hram

omit ha hl in
theorem Twin.step_lookup (hstage : (c.step i).lookup.stageValid = true)
    (hmmio : (c.step i).lookup.mmio = false)
    (hhit : (c.step i).lookupHit = true)
    (hram : ramLine (c.step i).lookup.requestTag (c.step i).lookup.set =
      true) :
    (c.step i).lookup.data = ((c.withData bank data).nextLookup
      (i.withAnswer word)).data := by
  cases hfire : c.requestFire i with
  | true =>
      have hlookup : (c.step i).lookup.set = setOf i.request.address ∧
          (c.step i).lookup.requestTag = tagOf i.request.address ∧
          (c.step i).lookup.mmio = incomingMmio i := by
        change (c.nextLookup i).set = _ ∧ (c.nextLookup i).requestTag = _ ∧
          (c.nextLookup i).mmio = _
        rw [nextLookup, if_pos hfire]
        exact ⟨rfl, rfl, rfl⟩
      rw [hlookup.1, hlookup.2.1] at hram
      rw [hlookup.2.2] at hmmio
      exact h.step_read hc hfire hmmio hhit hram
  | false =>
      have hfire' : (c.withData bank data).requestFire (i.withAnswer word) =
          false := hfire
      have hlookup := lookup_stays hfire
      rw [lookupHit] at hhit
      rw [hlookup] at hstage hmmio hhit hram ⊢
      rw [Bool.and_eq_true] at hstage
      rw [nextLookup, hfire', if_neg Bool.false_ne_true]
      exact h.data hstage.1 hmmio hhit hram

theorem Twin.step : Twin (c.step i)
    ((c.withData bank data).nextDataBank (i.withAnswer word))
    ((c.withData bank data).nextLookup (i.withAnswer word)).data where
  valid := fun _ w hvalid hram => h.step_valid hc hl ha hvalid hram w
  refilled := fun hbusy hram _ hk => h.step_refilled hc ha hbusy hram hk
  data := fun hstage hmmio hhit hram => h.step_lookup hc hstage hmmio hhit hram

omit hc hl in
/-- The twin responds when the cache does, to the same load, and with the same
data if that load is in the RAM. -/
theorem Twin.response (hc : c.Control) {r : CacheResponse}
    (hr : c.response i = some r) :
    ∃ r', (c.withData bank data).response (i.withAnswer word) = some r' ∧
      r'.id = r.id ∧
      (inRam (if c.criticalResponseValid i then c.mshr.address
          else c.lookup.request.address) = true → r'.data = r.data) := by
  have hcritical' : (c.withData bank data).criticalResponseValid
      (i.withAnswer word) = c.criticalResponseValid i := rfl
  have hmmio' : (c.withData bank data).lookupMmioResponseValid
      (i.withAnswer word) = c.lookupMmioResponseValid i := rfl
  have hhit' : (c.withData bank data).lookupLoadHitResponseValid =
      c.lookupLoadHitResponseValid := rfl
  rw [DataCache.response] at hr
  rw [DataCache.response, hcritical', hmmio', hhit']
  cases hcritical : c.criticalResponseValid i with
  | true =>
      rw [hcritical, if_pos rfl] at hr
      cases hr
      refine ⟨_, rfl, rfl, ?_⟩
      intro hram
      simp only [criticalResponseValid, Bool.and_eq_true, beq_iff_eq]
        at hcritical
      rw [if_pos rfl, inRam_eq hc.missTag.symm hc.missSet.symm] at hram
      rw [ha hcritical.1.1.2 hcritical.2 hram]
      rfl
  | false =>
      rw [hcritical, if_neg Bool.false_ne_true] at hr
      rw [if_neg Bool.false_ne_true]
      cases hmmio : c.lookupMmioResponseValid i with
      | true =>
          rw [hmmio, if_pos rfl] at hr
          cases hr
          refine ⟨_, rfl, rfl, ?_⟩
          intro hram
          simp only [lookupMmioResponseValid, lookupMmioLoad,
            Bool.and_eq_true, hc.mmio] at hmmio
          have hwindow := (addressIsMmio_iff _).mp hmmio.1.1.2
          rw [if_neg Bool.false_ne_true, inRam, decide_eq_true_eq] at hram
          exact absurd hram (Nat.not_lt.mpr hwindow.1)
      | false =>
          rw [hmmio, if_neg Bool.false_ne_true] at hr
          rw [if_neg Bool.false_ne_true]
          split at hr
          · next hhit =>
            cases hr
            rw [if_pos hhit]
            refine ⟨_, rfl, rfl, ?_⟩
            intro hram
            simp only [lookupLoadHitResponseValid, lookupCachedLoad,
              Bool.and_eq_true, Bool.not_eq_true'] at hhit
            rw [if_neg Bool.false_ne_true,
              inRam_eq hc.tag.symm hc.set.symm] at hram
            rw [h.data hhit.1.1.1 hhit.1.2 hhit.2 hram]
            rfl
          · cases hr

end Twins

end DataCache

end OoOCore
