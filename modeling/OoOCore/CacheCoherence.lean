/-
The data cache is coherent with the memory behind it: every valid line holds
what that memory answers after the stores it has accepted, through hits, misses,
refills and store hits.
-/
import OoOCore.CacheControl

namespace OoOCore

namespace DataCache

/-- The word with the index in the memory behind the cache. -/
def memoryWord (b : Backing) (sent : List StoreRequest) (k : BitVec 30) :
    Word :=
  b.read sent (wordAddress k) .word

/-- Every valid line holds the words of the memory, the lookup stage holds what
the arrays have for its request, and a refill has copied its words so far. -/
structure Lines (b : Backing) (c : DataCache) (sent : List StoreRequest) :
    Prop where
  valid : ∀ s w, c.validArray s = true →
    c.dataBank w s = memoryWord b sent (lineIndex (c.tagArray s) s w)
  cacheable : ∀ s w, c.validArray s = true →
    addressIsMmio (wordAddress (lineIndex (c.tagArray s) s w)) = false
  lineValid : c.lookup.stageValid = true → c.lookup.mmio = false →
    c.lookup.lineValid = c.validArray c.lookup.set
  arrayTag : c.lookup.stageValid = true → c.lookup.mmio = false →
    c.lookup.arrayTag = c.tagArray c.lookup.set
  data : c.lookup.stageValid = true → c.lookup.mmio = false →
    c.lookupHit = true → c.lookup.data = c.dataBank c.lookup.word c.lookup.set
  missed : c.mshr.valid = true → c.validArray c.mshr.set = false ∧
    addressIsMmio c.mshr.address = false
  refilled : c.mshr.valid = true → ∀ k, k < c.mshr.refillCount →
    c.dataBank (wordOf c.mshr.address + k) c.mshr.set =
      memoryWord b sent (lineIndex c.mshr.tag c.mshr.set
        (wordOf c.mshr.address + k))

/-- The answers the backing memory owes in a state. -/
def owed (b : Backing) (c : DataCache) (sent : List StoreRequest) :
    List Word :=
  match c.mshr.refillState with
  | .request => []
  | .response => [memoryWord b sent (lineIndex c.mshr.tag c.mshr.set
      c.mshr.refillWord)]
  | .idle =>
      if c.lookup.mmioReadSent then
        [b.read sent c.lookup.request.address c.lookup.request.access]
      else []

/-- No store of this cycle changes a cell that a valid line holds under another
address. -/
def Unaliased (b : Backing) (c : DataCache) (i : Inputs) : Prop :=
  ∀ r ∈ sentBy (c.memoryAccepts i), ∀ s w, c.validArray s = true →
    b.index (wordIndex r.address) =
        b.index (lineIndex (c.tagArray s) s w) →
      wordIndex r.address = lineIndex (c.tagArray s) s w

section Arrays

variable {b : Backing} {c : DataCache} {i : Inputs} {sent : List StoreRequest}

theorem step_dataBank (w : LineWord) (s : CacheSet) :
    (c.step i).dataBank w s =
      if c.arrayRefillWriteEnable i then
        if w = c.mshr.refillWord ∧ s = c.mshr.set then i.memoryResponseData
        else c.dataBank w s
      else if c.arrayStoreWriteEnable i then
        if w = c.lookup.word ∧ s = c.lookup.set then c.mergedStoreData
        else c.dataBank w s
      else c.dataBank w s := by
  have hwrite (word : LineWord) (set : CacheSet) (d : Word) :
      Function.update c.dataBank word
          (Function.update (c.dataBank word) set d) w s =
        if w = word ∧ s = set then d else c.dataBank w s := by
    by_cases hw : w = word
    · subst hw
      rw [Function.update_self]
      by_cases hs : s = set
      · subst hs
        rw [Function.update_self, if_pos ⟨rfl, rfl⟩]
      · rw [Function.update_of_ne hs, if_neg (fun h => hs h.2)]
    · rw [Function.update_of_ne hw, if_neg (fun h => hw h.1)]
  change c.nextDataBank i w s = _
  rw [nextDataBank]
  split
  · exact hwrite _ _ _
  · split
    · exact hwrite _ _ _
    · rfl

theorem step_validArray (s : CacheSet) : (c.step i).validArray s =
    if c.refillLast i ∧ s = c.mshr.set then true
    else if c.lookupMissAllocate ∧ s = c.lookup.set then false
    else c.validArray s := by
  change c.nextValidArray i s = _
  rw [nextValidArray]
  cases c.refillLast i <;> cases c.lookupMissAllocate <;>
    simp [Function.update_apply]

theorem step_tagArray (s : CacheSet) : (c.step i).tagArray s =
    if c.refillLast i ∧ s = c.mshr.set then c.mshr.tag
    else c.tagArray s := by
  change c.nextTagArray i s = _
  rw [nextTagArray]
  cases c.refillLast i <;> simp [Function.update_apply]

theorem refillLast_write (h : c.refillLast i = true) :
    c.arrayRefillWriteEnable i = true ∧ c.mshr.refillCount = 3 := by
  rw [refillLast, Bool.and_eq_true, decide_eq_true_eq] at h
  exact h

/-- A set that the edge does not write is untouched. -/
theorem step_arrays {s : CacheSet}
    (hrefill : c.arrayRefillWriteEnable i = true → s ≠ c.mshr.set)
    (hstore : c.arrayStoreWriteEnable i = true → s ≠ c.lookup.set)
    (hmiss : c.lookupMissAllocate = true → s ≠ c.lookup.set) :
    (c.step i).validArray s = c.validArray s ∧
      (c.step i).tagArray s = c.tagArray s ∧
      ∀ w, (c.step i).dataBank w s = c.dataBank w s := by
  have hlast : ¬ (c.refillLast i = true ∧ s = c.mshr.set) :=
    fun h => hrefill (refillLast_write h.1).1 h.2
  refine ⟨?_, ?_, ?_⟩
  · rw [step_validArray, if_neg hlast, if_neg (fun h => hmiss h.1 h.2)]
  · rw [step_tagArray, if_neg hlast]
  · intro w
    rw [step_dataBank]
    split
    · next h => rw [if_neg (fun hw => hrefill h hw.2)]
    · split
      · next h => rw [if_neg (fun hw => hstore h hw.2)]
      · rfl

/-- A leaving store keeps every valid line up to date. -/
theorem Lines.step_store (hl : Lines b c sent) (hc : c.Control)
    (hu : c.Unaliased b i) (haligned : c.lookup.request.store.Aligned)
    (hstore : (c.storing && i.memoryRequestReady) = true) {s : CacheSet}
    {w : LineWord} (hvalid : c.validArray s = true) :
    (c.step i).dataBank w s =
      memoryWord b (sent ++ [c.lookup.request.store])
        (lineIndex (c.tagArray s) s w) := by
  have hold := hl.valid s w hvalid
  rw [Bool.and_eq_true] at hstore
  have hrefill : c.arrayRefillWriteEnable i = false := by
    by_contra h
    rw [Bool.not_eq_false] at h
    rw [hc.not_storing h] at hstore
    cases hstore.1
  have hstage := hstore.1
  rw [storing, Bool.and_eq_true] at hstage
  have hindex : wordIndex c.lookup.request.address =
      lineIndex c.lookup.requestTag c.lookup.set c.lookup.word := by
    rw [hc.set, hc.tag, hc.word, wordIndex_eq_lineIndex]
  by_cases hsame : wordIndex c.lookup.request.address =
      lineIndex (c.tagArray s) s w
  · obtain ⟨htag, rfl, rfl⟩ := lineIndex_injective (hindex.symm.trans hsame)
    have hmmio : c.lookup.mmio = false := by
      rw [hc.mmio, ← hl.cacheable c.lookup.set c.lookup.word hvalid]
      obtain ⟨htag', hset', -⟩ := lineIndex_fields
        (c.tagArray c.lookup.set) c.lookup.set c.lookup.word
      apply addressIsMmio_line
      · rw [htag', ← hc.tag, htag]
      · rw [hset', ← hc.set]
    have hhit : c.lookupHit = true := by
      rw [lookupHit, hl.lineValid hstage.1 hmmio, hvalid,
        hl.arrayTag hstage.1 hmmio, ← htag]
      simp
    rw [step_dataBank, hrefill, hc.storeWrite_eq, hstore.1, hstore.2, hmmio,
      hhit]
    simp only [Bool.false_eq_true, if_false, Bool.not_false, Bool.and_self,
      if_true, and_self]
    rw [mergedStoreData, hl.data hstage.1 hmmio hhit, hold, ← hsame]
    exact (b.merge sent c.lookup.request.store haligned).symm
  · have hkept : (c.step i).dataBank w s = c.dataBank w s := by
      rw [step_dataBank, hrefill]
      simp only [Bool.false_eq_true, if_false]
      split
      · next hwrite =>
        rw [hc.storeWrite_eq] at hwrite
        simp only [Bool.and_eq_true, Bool.not_eq_true'] at hwrite
        have hhit := hwrite.2
        rw [lookupHit, Bool.and_eq_true, decide_eq_true_eq,
          hl.arrayTag hstage.1 hwrite.1.1.2] at hhit
        apply if_neg
        rintro ⟨rfl, rfl⟩
        rw [hhit.2] at hsame
        exact hsame hindex
      · rfl
    rw [hkept, hold]
    symm
    apply b.apart sent c.lookup.request.store _ haligned
    intro hcell
    apply hsame
    apply hu c.lookup.request.store _ s w hvalid hcell
    rw [hc.sent_eq, hstore.1, hstore.2]
    exact List.mem_singleton_self _

/-- The words of a line, counted from the missed one. -/
theorem refill_order (base w : LineWord) (hw : w ≠ base + 3) :
    ∃ k : LineWord, k < 3 ∧ w = base + k := by
  revert base w
  decide

theorem refill_next (base count k : LineWord) (hcount : count ≠ 3)
    (hk : k < count + 1) :
    k = count ∨ (k < count ∧ base + k ≠ base + count) := by
  revert base count k
  decide

/-- The last beat of a refill makes its line a copy of the memory's. -/
theorem Lines.step_last (hl : Lines b c sent) (hc : c.Control)
    (hdata : i.memoryResponseData =
      memoryWord b sent (lineIndex c.mshr.tag c.mshr.set c.mshr.refillWord))
    (hlast : c.refillLast i = true) (w : LineWord) :
    (c.step i).dataBank w c.mshr.set =
        memoryWord b sent (lineIndex c.mshr.tag c.mshr.set w) ∧
      addressIsMmio (wordAddress (lineIndex c.mshr.tag c.mshr.set w)) =
        false := by
  obtain ⟨hwrite, hcount⟩ := refillLast_write hlast
  have hbusy := hc.busy_of_write hwrite
  constructor
  · rw [step_dataBank, hwrite, if_pos rfl]
    by_cases hw : w = c.mshr.refillWord
    · rw [if_pos ⟨hw, rfl⟩, hdata, hw]
    · rw [if_neg (fun h => hw h.1)]
      have hrefill := hc.refillWord
      rw [hcount] at hrefill
      rw [hrefill] at hw
      obtain ⟨k, hk, rfl⟩ := refill_order _ _ hw
      exact hl.refilled hbusy k (by rw [hcount]; exact hk)
  · rw [← (hl.missed hbusy).2]
    obtain ⟨htag, hset, -⟩ := lineIndex_fields c.mshr.tag c.mshr.set w
    apply addressIsMmio_line
    · rw [htag, hc.missTag]
    · rw [hset, hc.missSet]

variable (hl : Lines b c sent) (hc : c.Control)

include hl hc

theorem Lines.step_valid (hu : c.Unaliased b i)
    (haligned : c.storing = true → c.lookup.request.store.Aligned)
    (hdata : c.arrayRefillWriteEnable i = true → i.memoryResponseData =
      memoryWord b sent (lineIndex c.mshr.tag c.mshr.set c.mshr.refillWord))
    {s : CacheSet} (hvalid : (c.step i).validArray s = true) (w : LineWord) :
    (c.step i).dataBank w s =
        memoryWord b (sent ++ sentBy (c.memoryAccepts i))
          (lineIndex ((c.step i).tagArray s) s w) ∧
      addressIsMmio (wordAddress
        (lineIndex ((c.step i).tagArray s) s w)) = false := by
  rw [step_validArray] at hvalid
  rw [step_tagArray]
  by_cases hlast : c.refillLast i = true ∧ s = c.mshr.set
  · obtain ⟨hlast, rfl⟩ := hlast
    have hwrite := (refillLast_write hlast).1
    rw [if_pos ⟨hlast, rfl⟩, hc.sent_eq, hc.not_storing hwrite]
    simp only [Bool.false_and, Bool.false_eq_true, if_false, List.append_nil]
    exact hl.step_last hc (hdata hwrite) hlast w
  · rw [if_neg hlast] at hvalid ⊢
    by_cases hmiss : c.lookupMissAllocate = true ∧ s = c.lookup.set
    · rw [if_pos hmiss] at hvalid
      cases hvalid
    · rw [if_neg hmiss] at hvalid
      refine ⟨?_, hl.cacheable s w hvalid⟩
      rw [hc.sent_eq]
      cases hstore : c.storing && i.memoryRequestReady with
      | true =>
          rw [if_pos rfl]
          have hstoring := hstore
          rw [Bool.and_eq_true] at hstoring
          exact hl.step_store hc hu (haligned hstoring.1) hstore hvalid
      | false =>
          have hquiet : c.arrayStoreWriteEnable i = false := by
            rw [hc.storeWrite_eq, Bool.and_right_comm c.storing, hstore]
            rfl
          simp only [Bool.false_eq_true, if_false, List.append_nil]
          rw [← hl.valid s w hvalid, step_dataBank, hquiet]
          simp only [Bool.false_eq_true, if_false]
          split
          · next hwrite =>
            apply if_neg
            rintro ⟨-, rfl⟩
            rw [(hl.missed (hc.busy_of_write hwrite)).1] at hvalid
            cases hvalid
          · rfl

omit hl in
/-- A request that stays in the lookup stage keeps its set as it was. -/
theorem Control.step_stay (hstage : c.lookup.stageValid = true)
    (hstays : c.lookupStageAdvance i = false) :
    (c.step i).validArray c.lookup.set = c.validArray c.lookup.set ∧
      (c.step i).tagArray c.lookup.set = c.tagArray c.lookup.set ∧
      ∀ w, (c.step i).dataBank w c.lookup.set = c.dataBank w c.lookup.set := by
  apply step_arrays
  · intro hwrite
    exact (hc.beside hstage (hc.busy_of_write hwrite)).2.2
  · intro hwrite
    rw [hc.storeWrite_eq] at hwrite
    simp only [Bool.and_eq_true] at hwrite
    rw [(hc.storing_request hwrite.1.1.1).2, hwrite.1.2] at hstays
    cases hstays
  · intro hmiss
    rw [miss_advance hmiss] at hstays
    cases hstays

omit hl in
/-- No set that a new request reads is being refilled or cleared. -/
theorem Control.step_enter (hfire : c.requestFire i = true) :
    (c.step i).validArray (setOf i.request.address) =
        c.validArray (setOf i.request.address) ∧
      (c.step i).tagArray (setOf i.request.address) =
        c.tagArray (setOf i.request.address) ∧
      (c.arrayRefillWriteEnable i = true →
        setOf i.request.address ≠ c.mshr.set) := by
  obtain ⟨-, hmiss, -, hrefill⟩ := requestFire_cases hfire
  have hset : c.arrayRefillWriteEnable i = true →
      setOf i.request.address ≠ c.mshr.set := by
    intro hwrite
    exact (hrefill (hc.busy_of_write hwrite)).2.2
  have hlast : ¬ (c.refillLast i = true ∧
      setOf i.request.address = c.mshr.set) :=
    fun h => hset (refillLast_write h.1).1 h.2
  refine ⟨?_, ?_, hset⟩
  · rw [step_validArray, if_neg hlast, hmiss]
    simp
  · rw [step_tagArray, if_neg hlast]

/-- What a new request reads is what the arrays hold after the edge: the bypass
gives it the word a leaving store writes. -/
theorem Lines.step_read (hfire : c.requestFire i = true)
    (hmmio : incomingMmio i = false)
    (hhit : (c.step i).lookupHit = true) :
    (c.step i).lookup.data = (c.step i).dataBank
      (wordOf i.request.address) (setOf i.request.address) := by
  obtain ⟨-, -, hrefill⟩ := hc.step_enter hfire
  change ((c.nextLookup i).lineValid &&
    decide ((c.nextLookup i).arrayTag = (c.nextLookup i).requestTag)) = true
    at hhit
  change (c.nextLookup i).data = _
  rw [nextLookup, if_pos hfire] at hhit ⊢
  simp only [hmmio, Bool.false_eq_true, if_false, Bool.and_eq_true,
    decide_eq_true_eq] at hhit ⊢
  have hbanks : ¬ (c.arrayRefillWriteEnable i = true) →
      (c.step i).dataBank (wordOf i.request.address)
        (setOf i.request.address) =
      if c.arrayStoreWriteEnable i then
        if wordOf i.request.address = c.lookup.word ∧
            setOf i.request.address = c.lookup.set then c.mergedStoreData
        else c.dataBank (wordOf i.request.address) (setOf i.request.address)
      else c.dataBank (wordOf i.request.address)
        (setOf i.request.address) := by
    intro hquiet
    rw [step_dataBank, if_neg hquiet]
  cases hwrite : c.arrayStoreWriteEnable i with
  | false =>
      rw [incomingStoreBypass, hwrite]
      simp only [Bool.false_and, Bool.false_eq_true, if_false]
      rw [step_dataBank, hwrite]
      simp only [Bool.false_eq_true, if_false]
      split
      · next hrefills => rw [if_neg (fun h => hrefill hrefills h.2)]
      · rfl
  | true =>
      have hstore := hwrite
      rw [hc.storeWrite_eq] at hstore
      simp only [Bool.and_eq_true, Bool.not_eq_true'] at hstore
      obtain ⟨⟨⟨hstoring, hcached⟩, -⟩, hheld⟩ := hstore
      have hquiet : ¬ (c.arrayRefillWriteEnable i = true) := by
        intro h
        rw [hc.not_storing h] at hstoring
        cases hstoring
      rw [hbanks hquiet, hwrite, if_pos rfl, incomingStoreBypass, hwrite]
      by_cases hsame : wordOf i.request.address = c.lookup.word ∧
          setOf i.request.address = c.lookup.set
      · have hstage := hstoring
        rw [storing, Bool.and_eq_true] at hstage
        rw [lookupHit, Bool.and_eq_true, decide_eq_true_eq,
          hl.arrayTag hstage.1 hcached, ← hsame.2] at hheld
        have htag : tagOf i.request.address = c.lookup.requestTag :=
          hhit.2.symm.trans hheld.2
        simp [hsame, htag]
      · rw [if_neg hsame, if_neg]
        simp only [Bool.true_and, Bool.and_eq_true, decide_eq_true_eq]
        exact fun h => hsame ⟨h.2, h.1.1⟩

/-- The lookup stage agrees with the arrays after the edge. -/
theorem Lines.step_snapshot (hstage : (c.step i).lookup.stageValid = true)
    (hmmio : (c.step i).lookup.mmio = false) :
    (c.step i).lookup.lineValid =
        (c.step i).validArray (c.step i).lookup.set ∧
      (c.step i).lookup.arrayTag =
        (c.step i).tagArray (c.step i).lookup.set ∧
      ((c.step i).lookupHit = true → (c.step i).lookup.data =
        (c.step i).dataBank (c.step i).lookup.word (c.step i).lookup.set) := by
  cases hfire : c.requestFire i with
  | true =>
      have hlookup : (c.step i).lookup.set = setOf i.request.address ∧
          (c.step i).lookup.word = wordOf i.request.address ∧
          (c.step i).lookup.mmio = incomingMmio i := by
        change (c.nextLookup i).set = _ ∧ (c.nextLookup i).word = _ ∧
          (c.nextLookup i).mmio = _
        rw [nextLookup, if_pos hfire]
        exact ⟨rfl, rfl, rfl⟩
      rw [hlookup.2.2] at hmmio
      obtain ⟨hvalid, htag, -⟩ := hc.step_enter hfire
      rw [hlookup.1, hlookup.2.1, hvalid, htag]
      refine ⟨?_, ?_, hl.step_read hc hfire hmmio⟩
      · change (c.nextLookup i).lineValid = _
        rw [nextLookup, if_pos hfire]
        simp only [hmmio, Bool.false_eq_true, if_false]
      · change (c.nextLookup i).arrayTag = _
        rw [nextLookup, if_pos hfire]
        simp only [hmmio, Bool.false_eq_true, if_false]
  | false =>
      have hlookup := lookup_stays hfire
      rw [lookupHit]
      rw [hlookup] at hstage hmmio ⊢
      simp only [Bool.and_eq_true, Bool.not_eq_true'] at hstage hmmio
      obtain ⟨hvalid, htag, hbanks⟩ := hc.step_stay hstage.1 hstage.2
      simp only [hvalid, htag, hbanks]
      exact ⟨hl.lineValid hstage.1 hmmio, hl.arrayTag hstage.1 hmmio,
        hl.data hstage.1 hmmio⟩

theorem Lines.step_missed (hbusy : (c.step i).mshr.valid = true) :
    (c.step i).validArray (c.step i).mshr.set = false ∧
      addressIsMmio (c.step i).mshr.address = false := by
  have hkept (hold : c.mshr.valid = true) (hlast : c.refillLast i = false) :
      (c.step i).validArray c.mshr.set = false := by
    have hmiss := hc.not_miss (hc.busy.mp hold)
    rw [step_validArray, hlast, hmiss]
    simpa using (hl.missed hold).1
  have hnone : c.mshr.refillState ≠ .response → c.refillLast i = false := by
    intro hstate
    simp [refillLast, arrayRefillWriteEnable, hstate]
  change (c.nextMshr i).valid = true at hbusy
  change (c.step i).validArray (c.nextMshr i).set = false ∧
    addressIsMmio (c.nextMshr i).address = false
  have hstep := hc.refillStep i
  generalize c.nextMshr i = m at hstep hbusy
  cases hstep with
  | rest hstate _ => exact absurd hstate (hc.busy.mp hbusy)
  | allocate hstate hmiss =>
      have hload := hmiss
      simp only [lookupMissAllocate, lookupCachedLoad, Bool.and_eq_true,
        Bool.not_eq_true'] at hload
      rw [allocated, if_pos hmiss]
      constructor
      · rw [step_validArray, hnone (by simp [hstate]), hmiss]
        simp
      · rw [← hc.mmio]
        exact hload.1.1.2
  | hold hstate _ | ask hstate _ =>
      exact ⟨hkept hbusy (hnone (by simp [hstate])), (hl.missed hbusy).2⟩
  | wait hstate hfire =>
      refine ⟨hkept hbusy ?_, (hl.missed hbusy).2⟩
      simp [refillLast, arrayRefillWriteEnable, hfire]
  | last => cases hbusy
  | beat hstate hfire hcount =>
      refine ⟨hkept hbusy ?_, (hl.missed hbusy).2⟩
      rw [refillLast, decide_eq_false hcount, Bool.and_false]

theorem Lines.step_refilled
    (hdata : c.arrayRefillWriteEnable i = true → i.memoryResponseData =
      memoryWord b sent (lineIndex c.mshr.tag c.mshr.set c.mshr.refillWord))
    (hbusy : (c.step i).mshr.valid = true) {k : LineWord}
    (hk : k < (c.step i).mshr.refillCount) :
    (c.step i).dataBank (wordOf (c.step i).mshr.address + k)
        (c.step i).mshr.set =
      memoryWord b (sent ++ sentBy (c.memoryAccepts i))
        (lineIndex (c.step i).mshr.tag (c.step i).mshr.set
          (wordOf (c.step i).mshr.address + k)) := by
  have hsent (hold : c.mshr.valid = true) :
      sent ++ sentBy (c.memoryAccepts i) = sent := by
    rw [hc.sent_busy hold, List.append_nil]
  have hkept (hold : c.mshr.valid = true)
      (hquiet : c.arrayRefillWriteEnable i = false) (w : LineWord) :
      (c.step i).dataBank w c.mshr.set = c.dataBank w c.mshr.set := by
    rw [step_dataBank, hquiet, hc.storeWrite_eq,
      hc.not_storing_busy hold]
    simp
  have hquiet : c.mshr.refillState ≠ .response →
      c.arrayRefillWriteEnable i = false := by
    intro hstate
    simp [arrayRefillWriteEnable, hstate]
  change (c.nextMshr i).valid = true at hbusy
  change k < (c.nextMshr i).refillCount at hk
  change (c.step i).dataBank (wordOf (c.nextMshr i).address + k)
      (c.nextMshr i).set =
    memoryWord b _ (lineIndex (c.nextMshr i).tag (c.nextMshr i).set
      (wordOf (c.nextMshr i).address + k))
  have hstep := hc.refillStep i
  generalize c.nextMshr i = m at hstep hbusy hk
  cases hstep with
  | rest hstate _ => exact absurd hstate (hc.busy.mp hbusy)
  | allocate hstate hmiss =>
      rw [allocated, if_pos hmiss] at hk
      exact absurd hk (by simp)
  | hold hstate _ | ask hstate _ =>
      rw [hsent hbusy, hkept hbusy (hquiet (by simp [hstate]))]
      exact hl.refilled hbusy k hk
  | wait hstate hfire =>
      rw [hsent hbusy, hkept hbusy (by
        simp [arrayRefillWriteEnable, hfire])]
      exact hl.refilled hbusy k hk
  | last => cases hbusy
  | beat hstate hfire hcount =>
      have hwrite : c.arrayRefillWriteEnable i = true := by
        simp [arrayRefillWriteEnable, hstate, hfire]
      change k < c.mshr.refillCount + 1 at hk
      rw [hsent hbusy, step_dataBank, hwrite, if_pos rfl]
      rcases refill_next (wordOf c.mshr.address) _ k hcount hk with
        rfl | ⟨hlt, hne⟩
      · rw [← hc.refillWord, if_pos ⟨rfl, rfl⟩]
        exact hdata hwrite
      · rw [← hc.refillWord] at hne
        rw [if_neg (fun h => hne h.1)]
        exact hl.refilled hbusy k hlt

theorem Lines.step (hu : c.Unaliased b i)
    (haligned : c.storing = true → c.lookup.request.store.Aligned)
    (hdata : c.arrayRefillWriteEnable i = true → i.memoryResponseData =
      memoryWord b sent (lineIndex c.mshr.tag c.mshr.set c.mshr.refillWord)) :
    Lines b (c.step i) (sent ++ sentBy (c.memoryAccepts i)) where
  valid := fun _ w hvalid =>
    (hl.step_valid hc hu haligned hdata hvalid w).1
  cacheable := fun _ w hvalid =>
    (hl.step_valid hc hu haligned hdata hvalid w).2
  lineValid := fun hstage hmmio => (hl.step_snapshot hc hstage hmmio).1
  arrayTag := fun hstage hmmio => (hl.step_snapshot hc hstage hmmio).2.1
  data := fun hstage hmmio => (hl.step_snapshot hc hstage hmmio).2.2
  missed := hl.step_missed hc
  refilled := fun hbusy _ hk => hl.step_refilled hc hdata hbusy hk

end Arrays

end DataCache

end OoOCore
