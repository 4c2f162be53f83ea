/-
The contents of the instruction cache.  In every reachable state a valid line
holds the words of the instruction memory, a refill has collected a part of its
line, and a lookup that is on its way ends in a hit.
-/
import OoOCore.InstructionCache

namespace OoOCore

namespace InstructionCache

section Addresses

variable {a b : Word}

theorem toNat_lineBase (a : Word) : (lineBase a).toNat = a.toNat / 16 * 16 := by
  have ha := a.isLt
  rw [lineBase, BitVec.toNat_append, BitVec.extractLsb'_toNat]
  simp only [Nat.shiftRight_eq_div_pow, Nat.shiftLeft_eq, BitVec.toNat_ofNat,
    Nat.zero_mod, Nat.or_zero]
  omega

theorem toNat_lineIndex (a : Word) :
    (lineIndex a).toNat = a.toNat / 16 % 256 := by
  rw [lineIndex, BitVec.extractLsb'_toNat, Nat.shiftRight_eq_div_pow]

theorem toNat_lineTag (a : Word) : (lineTag a).toNat = a.toNat / 4096 := by
  have ha := a.isLt
  rw [lineTag, BitVec.extractLsb'_toNat, Nat.shiftRight_eq_div_pow]
  omega

theorem toNat_responseWordIndex (a : Word) :
    (responseWordIndex a).toNat = a.toNat / 4 % 4 := by
  rw [responseWordIndex, BitVec.extractLsb'_toNat, Nat.shiftRight_eq_div_pow]

@[simp] theorem lineBase_lineBase (a : Word) :
    lineBase (lineBase a) = lineBase a := by
  apply BitVec.eq_of_toNat_eq
  simp only [toNat_lineBase]
  omega

@[simp] theorem lineIndex_lineBase (a : Word) :
    lineIndex (lineBase a) = lineIndex a := by
  apply BitVec.eq_of_toNat_eq
  simp only [toNat_lineBase, toNat_lineIndex]
  omega

@[simp] theorem lineTag_lineBase (a : Word) :
    lineTag (lineBase a) = lineTag a := by
  apply BitVec.eq_of_toNat_eq
  simp only [toNat_lineBase, toNat_lineTag]
  omega

/-- A line is named by its set and its tag. -/
theorem lineBase_eq (hindex : lineIndex a = lineIndex b)
    (htag : lineTag a = lineTag b) : lineBase a = lineBase b := by
  have hindex := congrArg BitVec.toNat hindex
  have htag := congrArg BitVec.toNat htag
  apply BitVec.eq_of_toNat_eq
  simp only [toNat_lineIndex, toNat_lineTag, toNat_lineBase] at *
  omega

/-- The lines of a fetch pair do not share a set. -/
theorem lineBase_of_pair (h : lineIndex (a + 4) = lineIndex a) :
    lineBase (a + 4) = lineBase a := by
  have hindex := congrArg BitVec.toNat h
  have ha := a.isLt
  apply BitVec.eq_of_toNat_eq
  have hfour : (4 : Word).toNat = 4 := rfl
  simp only [toNat_lineIndex, toNat_lineBase, BitVec.toNat_add, hfour] at *
  omega

/-- Word `k` of the line at a base address. -/
def lineWord (mem : BitVec 14 → Word) (base : Word) (k : Nat) : Word :=
  InsnMem.wordAt mem (base + BitVec.ofNat 32 (4 * k))

/-- The word of an address in its line. -/
theorem lineWord_lineBase (mem : BitVec 14 → Word) (pc : Word) :
    lineWord mem (lineBase pc) (responseWordIndex pc).toNat =
      InsnMem.wordAt mem pc := by
  have hpc := pc.isLt
  have haddr : InsnMem.requestWordAddr (lineBase pc +
      BitVec.ofNat 32 (4 * (responseWordIndex pc).toNat)) =
      InsnMem.requestWordAddr pc := by
    apply BitVec.eq_of_toNat_eq
    simp only [InsnMem.requestWordAddr, BitVec.extractLsb'_toNat,
      Nat.shiftRight_eq_div_pow, BitVec.toNat_add, BitVec.toNat_ofNat,
      toNat_lineBase, toNat_responseWordIndex]
    omega
  rw [lineWord, InsnMem.wordAt, haddr, InsnMem.wordAt]

end Addresses

/-- The line of an address is in the arrays. -/
def Present (c : InstructionCache) (pc : Word) : Prop :=
  c.validArray (lineIndex pc) = true ∧ c.tagArray (lineIndex pc) = lineTag pc

/-- A request is looked up, refilled for or about to be retried. -/
def busy (c : InstructionCache) : Bool :=
  c.lookupValid || c.refill.active || c.retryPending

/-- An active refill beside the memory it reads: one word is requested in every
cycle and arrives in the next. -/
structure Refilling (mem : BitVec 14 → Word) (c : InstructionCache)
    (m : InsnMem) : Prop where
  index : c.refill.index = lineIndex c.refill.lineBase
  tag : c.refill.tag = lineTag c.refill.lineBase
  own : ∃ lane, c.refill.lineBase = lineBase (c.lookup lane).pc
  issued : c.refill.issuedCount.toNat ≤ 4
  received : c.refill.receivedCount.toNat = c.refill.issuedCount.toNat - 1
  responseValid : m.responseValid = decide (0 < c.refill.issuedCount.toNat)
  responseWord : 0 < c.refill.issuedCount.toNat → m.responseWord =
    lineWord mem c.refill.lineBase c.refill.receivedCount.toNat
  buffer : ∀ k : BitVec 2, k.toNat < c.refill.receivedCount.toNat →
    c.refill.buffer k = lineWord mem c.refill.lineBase k.toNat
  second : c.refill.secondPending = true →
    c.refill.secondLineBase = lineBase (c.lookup 1).pc
  /-- What is missing of the fetch pair is on its way. -/
  wanted : ∀ lane, c.Present (c.lookup lane).pc ∨
    c.refill.lineBase = lineBase (c.lookup lane).pc ∨
    (c.refill.secondPending = true ∧
      c.refill.secondLineBase = lineBase (c.lookup lane).pc)

/-- The invariant of the cache and the memory behind it. -/
structure Lined (mem : BitVec 14 → Word) (c : InstructionCache)
    (m : InsnMem) : Prop where
  image : m.mem = mem
  lines : ∀ pc, c.Present pc → ∀ k,
    c.dataArray (lineIndex pc) k = lineWord mem (lineBase pc) k.toNat
  tag : ∀ lane, (c.lookup lane).tag = lineTag (c.lookup lane).pc
  /-- The read registers of a lookup show the arrays as they are. -/
  mirror : c.lookupValid = true → ∀ lane,
    (c.lookup lane).readValid = c.validArray (lineIndex (c.lookup lane).pc) ∧
    (c.lookup lane).readTag = c.tagArray (lineIndex (c.lookup lane).pc) ∧
    (c.lookup lane).readLine = c.dataArray (lineIndex (c.lookup lane).pc)
  lookup_alone : c.lookupValid = true →
    c.retryPending = false ∧ c.refill.active = false
  refill_alone : c.refill.active = true → c.retryPending = false
  quiet : c.refill.active = false → m.responseValid = false
  pair : c.busy = true → (c.lookup 1).pc = (c.lookup 0).pc + 4
  refilling : c.refill.active = true → Refilling mem c m
  retry : c.retryPending = true → ∀ lane, c.Present (c.lookup lane).pc

/-- The cache reads its memory and is asked for pairs. -/
structure Fed (m : InsnMem) (i : Inputs) : Prop where
  valid : i.backingResponseValid = m.responseValid
  word : i.backingResponseWord = m.responseWord
  pair : i.requestPc 1 = i.requestPc 0 + 4

/-- The memory after the edge. -/
def nextMem (c : InstructionCache) (i : Inputs) (m : InsnMem) : InsnMem :=
  m.step (c.backingRequestValid i.flush) c.backingRequestAddr

section Hits

variable {mem : BitVec 14 → Word} {c : InstructionCache} {m : InsnMem}

theorem lookupHit_of_response {flush : Bool}
    (hresponse : c.responseValid flush = true) (lane : Lane) :
    c.lookupHit lane = true := by
  rw [responseValid, Bool.and_eq_true, Bool.and_eq_true] at hresponse
  match lane with
  | 0 => exact hresponse.1.2
  | 1 => exact hresponse.2

/-- A response is offered from the lookup stage. -/
theorem lookupValid_of_response {flush : Bool}
    (hresponse : c.responseValid flush = true) : c.lookupValid = true := by
  have hhit := lookupHit_of_response hresponse 0
  rw [lookupHit, Bool.and_eq_true, Bool.and_eq_true] at hhit
  exact hhit.1.1

theorem Lined.lookupHit_iff (h : Lined mem c m) (hvalid : c.lookupValid = true)
    (lane : Lane) :
    c.lookupHit lane = true ↔ c.Present (c.lookup lane).pc := by
  obtain ⟨hread, htag, _⟩ := h.mirror hvalid lane
  rw [lookupHit, hvalid, hread, htag, h.tag lane, Present]
  simp only [Bool.true_and, Bool.and_eq_true, decide_eq_true_eq]

/-- The words of a response are those of the instruction memory. -/
theorem Lined.responseInsn_eq (h : Lined mem c m) {flush : Bool}
    (hresponse : c.responseValid flush = true) (lane : Lane) :
    c.responseInsn flush lane = InsnMem.wordAt mem (c.lookup lane).pc := by
  have hvalid := lookupValid_of_response hresponse
  have hpresent := (h.lookupHit_iff hvalid lane).mp
    (lookupHit_of_response hresponse lane)
  rw [responseInsn, if_pos hresponse, (h.mirror hvalid lane).2.2,
    h.lines _ hpresent, lineWord_lineBase]

end Hits

section Step

variable {mem : BitVec 14 → Word} {c : InstructionCache} {m : InsnMem}
  {i : Inputs}

theorem Lined.reset (tagArray : BitVec 8 → BitVec 20)
    (dataArray : BitVec 8 → InsnLine) (readTag : Lane → BitVec 20)
    (readLine : Lane → InsnLine) (responseWord : Word) :
    Lined mem (reset tagArray dataArray readTag readLine)
      ⟨mem, false, responseWord⟩ where
  image := rfl
  lines := fun _ h => absurd h.1 Bool.false_ne_true
  tag := fun _ => show (0 : BitVec 20) = lineTag 0 by decide
  mirror := fun h => absurd h Bool.false_ne_true
  lookup_alone := fun h => absurd h Bool.false_ne_true
  refill_alone := fun h => absurd h Bool.false_ne_true
  quiet := fun _ => rfl
  pair := fun h => absurd h Bool.false_ne_true
  refilling := fun h => absurd h Bool.false_ne_true
  retry := fun h => absurd h Bool.false_ne_true

/-- Without a write, lines stay where they are. -/
theorem present_step (hwrite : c.arrayWriteEnable i = false) (pc : Word) :
    (c.step i).Present pc ↔ c.Present pc := by
  simp only [Present, step, hwrite, Bool.false_eq_true, if_false]

theorem Lined.lines_step (h : Lined mem c m)
    (hwrite : c.arrayWriteEnable i = false) (pc : Word)
    (hpresent : (c.step i).Present pc) (k : BitVec 2) :
    (c.step i).dataArray (lineIndex pc) k =
      lineWord mem (lineBase pc) k.toNat := by
  have hdata : (c.step i).dataArray = c.dataArray := by
    simp only [step, hwrite, Bool.false_eq_true, if_false]
  rw [hdata]
  exact h.lines pc ((present_step hwrite pc).mp hpresent) k

/-- An edge that leaves no refill behind: what remains to be shown. -/
theorem Lined.step_quiet (h : Lined mem c m)
    (hwrite : c.arrayWriteEnable i = false)
    (hrequest : c.backingRequestValid i.flush = false)
    (htag : ∀ lane, (c.nextLookup i lane).tag = lineTag (c.nextLookup i lane).pc)
    (hmirror : c.nextLookupValid i = true → ∀ lane,
      (c.nextLookup i lane).readValid =
        c.validArray (lineIndex (c.nextLookup i lane).pc) ∧
      (c.nextLookup i lane).readTag =
        c.tagArray (lineIndex (c.nextLookup i lane).pc) ∧
      (c.nextLookup i lane).readLine =
        c.dataArray (lineIndex (c.nextLookup i lane).pc))
    (hretry : c.nextRetryPending i = false)
    (hactive : (c.nextRefill i).active = false)
    (hpair : c.nextLookupValid i = true →
      (c.nextLookup i 1).pc = (c.nextLookup i 0).pc + 4) :
    Lined mem (c.step i) (c.nextMem i m) where
  image := h.image
  lines := h.lines_step hwrite
  tag := htag
  mirror := by
    simp only [step, hwrite, Bool.false_eq_true, if_false]
    exact hmirror
  lookup_alone := fun _ => ⟨hretry, hactive⟩
  refill_alone := fun _ => hretry
  quiet := fun _ => hrequest
  pair := by
    intro hbusy
    apply hpair
    simpa [busy, step, hretry, hactive] using hbusy
  refilling := fun hnext => absurd (hactive.symm.trans hnext) Bool.false_ne_true
  retry := fun hnext => absurd (hretry.symm.trans hnext) Bool.false_ne_true

/-- An edge after which the lookup waits for its lines: what remains to be
shown. -/
theorem Lined.step_waiting (h : Lined mem c m) (hbusy : c.busy = true)
    (hlookup : ∀ lane, (c.step i).lookup lane = c.lookup lane)
    (hidle : (c.step i).lookupValid = false)
    (hlines : ∀ pc, (c.step i).Present pc → ∀ k,
      (c.step i).dataArray (lineIndex pc) k =
        lineWord mem (lineBase pc) k.toNat)
    (hrefill : (c.step i).refill.active = true →
      (c.step i).retryPending = false ∧ Refilling mem (c.step i) (c.nextMem i m))
    (hquiet : (c.step i).refill.active = false →
      c.backingRequestValid i.flush = false)
    (hretry : (c.step i).retryPending = true →
      ∀ lane, (c.step i).Present (c.lookup lane).pc) :
    Lined mem (c.step i) (c.nextMem i m) where
  image := h.image
  lines := hlines
  tag := by
    intro lane
    rw [hlookup]
    exact h.tag lane
  mirror := fun hnext => absurd (hidle.symm.trans hnext) Bool.false_ne_true
  lookup_alone := fun hnext =>
    absurd (hidle.symm.trans hnext) Bool.false_ne_true
  refill_alone := fun hnext => (hrefill hnext).1
  quiet := hquiet
  pair := by
    intro _
    rw [hlookup, hlookup]
    exact h.pair hbusy
  refilling := fun hnext => (hrefill hnext).2
  retry := by
    intro hnext lane
    rw [hlookup]
    exact hretry hnext lane

/-- A request is accepted on a redirect, or when nothing is left to do for the
last one. -/
theorem requestFire_cases (hfire : c.requestFire i = true) :
    i.flush = true ∨ (i.flush = false ∧ c.refill.active = false ∧
      c.retryPending = false ∧ (c.lookupValid && !c.responseValid i.flush) =
        false) := by
  simp only [requestFire, requestReady, Bool.and_eq_true, Bool.or_eq_true,
    Bool.not_eq_true'] at hfire
  cases hflush : i.flush with
  | true => exact Or.inl rfl
  | false =>
      rcases hfire.2 with hready | ⟨⟨hactive, hretry⟩, hlookup⟩
      · exact absurd (hflush.symm.trans hready) Bool.false_ne_true
      · refine Or.inr ⟨rfl, hactive, hretry, ?_⟩
        rcases hlookup with hidle | ⟨hresponse, _⟩
        · rw [hidle, Bool.false_and]
        · rw [hflush] at hresponse
          rw [hresponse, Bool.not_true, Bool.and_false]

theorem quiet_of_requestFire (hfire : c.requestFire i = true) :
    c.arrayWriteEnable i = false ∧ c.backingRequestValid i.flush = false ∧
      (c.nextRefill i).active = false := by
  rcases requestFire_cases hfire with hflush | ⟨hflush, hactive, hretry, hlookup⟩
  · simp [arrayWriteEnable, backingRequestValid, nextRefill, hflush]
  · rw [hflush] at hlookup
    simp [arrayWriteEnable, backingRequestValid, nextRefill, hflush, hactive,
      hretry, hlookup]

theorem Lined.step_fire (h : Lined mem c m) (hfed : Fed m i)
    (hfire : c.requestFire i = true) :
    Lined mem (c.step i) (c.nextMem i m) := by
  obtain ⟨hwrite, hrequest, hactive⟩ := quiet_of_requestFire hfire
  have hretry : c.nextRetryPending i = false := by
    rcases requestFire_cases hfire with hflush | ⟨hflush, hrefill, _⟩
    · simp [nextRetryPending, hwrite, hflush]
    · simp [nextRetryPending, hwrite, hflush, hrefill]
  apply h.step_quiet hwrite hrequest _ _ hretry hactive
  · intro _
    simp only [nextLookup, hfire, if_true]
    exact hfed.pair
  · intro lane
    simp only [nextLookup, hfire, if_true]
  · intro _ lane
    simp [nextLookup, hfire, hwrite, arrayReadEnable, arrayReadIndex]

theorem Lined.step_flush (h : Lined mem c m) (hflush : i.flush = true)
    (hfire : c.requestFire i = false) :
    Lined mem (c.step i) (c.nextMem i m) := by
  have hwrite : c.arrayWriteEnable i = false := by
    simp [arrayWriteEnable, hflush]
  have hidle : c.nextLookupValid i = false := by
    simp [nextLookupValid, hfire, hflush]
  apply h.step_quiet hwrite
  · simp [backingRequestValid, hflush]
  · intro lane
    simp only [nextLookup, hfire, Bool.false_eq_true, if_false]
    exact h.tag lane
  · intro hvalid
    exact absurd (hidle.symm.trans hvalid) Bool.false_ne_true
  · simp [nextRetryPending, hfire, hflush]
  · simp [nextRefill, hflush]
  · intro hvalid
    exact absurd (hidle.symm.trans hvalid) Bool.false_ne_true

/-- Neither a request nor a refill: the contexts stay, and a retry reads them
again. -/
theorem Lined.step_hold (h : Lined mem c m) (hflush : i.flush = false)
    (hfire : c.requestFire i = false) (hactive : c.refill.active = false)
    (hhit : c.retryPending = false →
      (c.lookupValid && !c.responseValid i.flush) = false) :
    Lined mem (c.step i) (c.nextMem i m) := by
  have hwrite : c.arrayWriteEnable i = false := by
    simp [arrayWriteEnable, hactive]
  have hpc (lane : Lane) : (c.nextLookup i lane).pc = (c.lookup lane).pc := by
    simp [nextLookup, hfire]
  have hbusy : c.nextLookupValid i = true → c.busy = true := by
    cases hretry : c.retryPending with
    | true => simp [busy, hretry]
    | false =>
        simp only [nextLookupValid, hfire, hflush, hactive, hretry,
          Bool.false_eq_true, if_false, Bool.and_eq_true, busy]
        intro hnext
        rw [hnext.1.1, Bool.true_or, Bool.true_or]
  apply h.step_quiet hwrite
  · simp [backingRequestValid, hactive]
  · intro lane
    rw [hpc]
    simpa [nextLookup, hfire] using h.tag lane
  · intro hvalid lane
    rw [hpc]
    cases hretry : c.retryPending with
    | true =>
        simp [nextLookup, hfire, hflush, hactive, hretry, hwrite,
          arrayReadEnable, arrayReadIndex]
    | false =>
        simp only [nextLookupValid, hfire, hflush, hactive, hretry,
          Bool.false_eq_true, if_false, Bool.and_eq_true] at hvalid
        simpa [nextLookup, hfire, hretry, arrayReadEnable] using
          h.mirror hvalid.1.1 lane
  · simp [nextRetryPending, hfire, hflush, hactive]
  · cases hretry : c.retryPending with
    | true => simp [nextRefill, hflush, hactive, hretry]
    | false =>
        have hlookup := hhit hretry
        rw [hflush] at hlookup
        simp [nextRefill, hflush, hactive, hretry, hlookup]
  · intro hvalid
    rw [hpc, hpc]
    exact h.pair (hbusy hvalid)

/-- A refill that has requested nothing yet. -/
theorem Refilling.fresh
    (hindex : c.refill.index = lineIndex c.refill.lineBase)
    (htag : c.refill.tag = lineTag c.refill.lineBase)
    (hissued : c.refill.issuedCount = 0) (hreceived : c.refill.receivedCount = 0)
    (hquiet : m.responseValid = false)
    (hown : ∃ lane, c.refill.lineBase = lineBase (c.lookup lane).pc)
    (hsecond : c.refill.secondPending = true →
      c.refill.secondLineBase = lineBase (c.lookup 1).pc)
    (hwanted : ∀ lane, c.Present (c.lookup lane).pc ∨
      c.refill.lineBase = lineBase (c.lookup lane).pc ∨
      (c.refill.secondPending = true ∧
        c.refill.secondLineBase = lineBase (c.lookup lane).pc)) :
    Refilling mem c m where
  index := hindex
  tag := htag
  own := hown
  issued := by
    rw [hissued]
    decide
  received := by
    rw [hissued, hreceived]
    decide
  responseValid := by
    rw [hissued, hquiet]
    decide
  responseWord := by
    rw [hissued]
    exact fun hlt => absurd hlt (by decide)
  buffer := by
    rw [hreceived]
    exact fun k hk => absurd hk (Nat.not_lt_zero _)
  second := hsecond
  wanted := hwanted

/-- The refill a miss starts wants exactly the missing lines. -/
theorem Lined.startRefill_wanted (h : Lined mem c m)
    (hvalid : c.lookupValid = true) (lane : Lane) :
    c.Present (c.lookup lane).pc ∨
      c.startRefill.lineBase = lineBase (c.lookup lane).pc ∨
      (c.startRefill.secondPending = true ∧
        c.startRefill.secondLineBase = lineBase (c.lookup lane).pc) := by
  cases hhit : c.lookupHit lane with
  | true => exact Or.inl ((h.lookupHit_iff hvalid lane).mp hhit)
  | false =>
      refine Or.inr ?_
      match lane with
      | 0 => exact Or.inl (by simp [startRefill, hhit])
      | 1 =>
          cases hfirst : c.lookupHit 0 with
          | true => exact Or.inl (by simp [startRefill, hfirst])
          | false =>
              by_cases hline : lineBase (c.lookup 1).pc = lineBase (c.lookup 0).pc
              · exact Or.inl (by simp [startRefill, hfirst, hline])
              · exact Or.inr (by simp [startRefill, hfirst, hline, hhit])

theorem startRefill_fields (c : InstructionCache) :
    c.startRefill.active = true ∧
      c.startRefill.index = lineIndex c.startRefill.lineBase ∧
      c.startRefill.tag = lineTag c.startRefill.lineBase ∧
      c.startRefill.issuedCount = 0 ∧ c.startRefill.receivedCount = 0 ∧
      (∃ lane, c.startRefill.lineBase = lineBase (c.lookup lane).pc) ∧
      (c.startRefill.secondPending = true →
        c.startRefill.secondLineBase = lineBase (c.lookup 1).pc) := by
  cases hfirst : c.lookupHit 0 with
  | true =>
      refine ⟨?_, ?_, ?_, ?_, ?_, ⟨1, ?_⟩, ?_⟩ <;> simp [startRefill, hfirst]
  | false =>
      refine ⟨?_, ?_, ?_, ?_, ?_, ⟨0, ?_⟩, ?_⟩ <;> simp [startRefill, hfirst]

/-- A miss starts a refill and keeps its lookup. -/
theorem Lined.miss_frame (h : Lined mem c m) (hflush : i.flush = false)
    (hvalid : c.lookupValid = true) (hmiss : c.responseValid false = false) :
    (∀ lane, (c.step i).lookup lane = c.lookup lane) ∧
      (c.step i).lookupValid = false ∧ (c.step i).refill = c.startRefill ∧
      (c.step i).retryPending = false := by
  obtain ⟨hretry, hactive⟩ := h.lookup_alone hvalid
  have hfire : c.requestFire i = false := by
    simp [requestFire, requestReady, hflush, hvalid, hmiss]
  refine ⟨?_, ?_, ?_, ?_⟩
  · intro lane
    simp [step, nextLookup, hfire, hretry, arrayReadEnable]
  · simp [step, nextLookupValid, hfire, hflush, hactive, hretry, hmiss]
  · simp [step, nextRefill, hflush, hactive, hretry, hvalid, hmiss]
  · simp [step, nextRetryPending, hfire, hflush, hactive]

theorem Lined.step_miss (h : Lined mem c m) (hflush : i.flush = false)
    (hvalid : c.lookupValid = true) (hmiss : c.responseValid false = false) :
    Lined mem (c.step i) (c.nextMem i m) := by
  obtain ⟨_, hactive⟩ := h.lookup_alone hvalid
  obtain ⟨hlookup, hidle, hrefill, hrest⟩ :=
    h.miss_frame (i := i) hflush hvalid hmiss
  have hwrite : c.arrayWriteEnable i = false := by
    simp [arrayWriteEnable, hactive]
  have hrequest : c.backingRequestValid i.flush = false := by
    simp [backingRequestValid, hactive]
  obtain ⟨_, hindex, htag, hissued, hreceived, hown, hsecond⟩ :=
    startRefill_fields c
  apply h.step_waiting (by simp [busy, hvalid]) hlookup hidle
    (h.lines_step hwrite)
  · intro _
    refine ⟨hrest, ?_⟩
    apply Refilling.fresh
    · rw [hrefill, hindex]
    · rw [hrefill, htag]
    · rw [hrefill, hissued]
    · rw [hrefill, hreceived]
    · exact hrequest
    · simp only [hrefill, hlookup]
      exact hown
    · rw [hrefill, hlookup]
      exact hsecond
    · intro lane
      rw [hrefill, hlookup, present_step hwrite]
      exact h.startRefill_wanted hvalid lane
  · exact fun _ => hrequest
  · intro hnext
    exact absurd (hrest.symm.trans hnext) Bool.false_ne_true

theorem Lined.idle_of_refill (h : Lined mem c m)
    (hactive : c.refill.active = true) : c.lookupValid = false := by
  by_contra hvalid
  rw [Bool.not_eq_false] at hvalid
  exact absurd ((h.lookup_alone hvalid).2.symm.trans hactive)
    Bool.false_ne_true

/-- What an active refill leaves alone. -/
theorem Lined.refill_frame (h : Lined mem c m) (hflush : i.flush = false)
    (hactive : c.refill.active = true) :
    (∀ lane, (c.step i).lookup lane = c.lookup lane) ∧
      (c.step i).lookupValid = false ∧
      (c.step i).refill = c.advanceRefill i ∧
      (c.step i).retryPending =
        (c.arrayWriteEnable i && !c.refill.secondPending) := by
  have hretry := h.refill_alone hactive
  have hfire : c.requestFire i = false := by
    simp [requestFire, requestReady, hflush, hactive]
  have hidle := h.idle_of_refill hactive
  refine ⟨?_, ?_, ?_, ?_⟩
  · intro lane
    simp [step, nextLookup, hfire, hretry, arrayReadEnable]
  · simp [step, nextLookupValid, hfire, hflush, hactive, hidle]
  · simp [step, nextRefill, hflush, hactive]
  · simp [step, nextRetryPending, hfire, hflush, hactive, hretry]

theorem backingRequestAddr_eq (c : InstructionCache) : c.backingRequestAddr =
    c.refill.lineBase + BitVec.ofNat 32 (4 * c.refill.issuedCount.toNat) := by
  have hissued := c.refill.issuedCount.isLt
  rw [backingRequestAddr]
  congr 1
  apply BitVec.eq_of_toNat_eq
  rw [BitVec.toNat_shiftLeft, BitVec.toNat_setWidth, BitVec.toNat_ofNat,
    Nat.shiftLeft_eq]
  omega

theorem backingRequestValid_active (hactive : c.refill.active = true) :
    c.backingRequestValid false = decide (c.refill.issuedCount.toNat < 4) := by
  rw [backingRequestValid, hactive, Bool.not_false, Bool.true_and,
    Bool.true_and]
  exact decide_eq_decide.mpr BitVec.lt_def

/-- The last word comes in when all four have been requested. -/
theorem Refilling.receivedCount_eq_three (h : Refilling mem c m) :
    c.refill.receivedCount = 3 ↔ c.refill.issuedCount.toNat = 4 := by
  have hreceived := h.received
  have hissued := h.issued
  have hthree : (3 : BitVec 3).toNat = 3 := rfl
  constructor
  · intro heq
    rw [heq] at hreceived
    omega
  · intro heq
    apply BitVec.eq_of_toNat_eq
    omega

/-- The buffer with the word that comes in. -/
theorem Refilling.buffer_with_response (h : Refilling mem c m) (hfed : Fed m i)
    (hpos : 0 < c.refill.issuedCount.toNat) (k : BitVec 2)
    (hk : k.toNat < c.refill.issuedCount.toNat) :
    c.refillBufferWithResponse i k =
      lineWord mem c.refill.lineBase k.toNat := by
  have hreceived := h.received
  have hbits := k.isLt
  have hwidth : (k.setWidth 3).toNat = k.toNat := by
    rw [BitVec.toNat_setWidth]
    omega
  unfold refillBufferWithResponse
  by_cases hword : c.refill.receivedCount = k.setWidth 3
  · have hnat := congrArg BitVec.toNat hword
    rw [hwidth] at hnat
    rw [if_pos hword, hfed.word, h.responseWord hpos, hnat]
  · rw [if_neg hword]
    apply h.buffer k
    have hne : c.refill.receivedCount.toNat ≠ k.toNat := by
      intro heq
      exact hword (BitVec.eq_of_toNat_eq (heq.trans hwidth.symm))
    omega

theorem toNat_issuedCount_succ (hmore : c.refill.issuedCount.toNat < 4) :
    (c.refill.issuedCount + 1).toNat = c.refill.issuedCount.toNat + 1 := by
  have hone : (1 : BitVec 3).toNat = 1 := rfl
  rw [BitVec.toNat_add, hone]
  omega

/-- A refill cycle before the last: one word comes in and the next is
requested. -/
theorem Refilling.advance (h : Refilling mem c m) (hfed : Fed m i)
    (hflush : i.flush = false) (hactive : c.refill.active = true)
    (hmore : c.refill.issuedCount.toNat < 4) :
    ∃ buffer : InsnLine, c.advanceRefill i =
        { c.refill with
          issuedCount := c.refill.issuedCount + 1
          receivedCount := BitVec.ofNat 3 c.refill.issuedCount.toNat
          buffer := buffer } ∧
      ∀ k : BitVec 2, k.toNat < c.refill.issuedCount.toNat →
        buffer k = lineWord mem c.refill.lineBase k.toNat := by
  have hreceived := h.received
  have hnot : c.refill.receivedCount ≠ 3 := by
    rw [Ne, h.receivedCount_eq_three]
    omega
  have hrequest : c.backingRequestValid false = true := by
    rw [backingRequestValid_active hactive, decide_eq_true hmore]
  by_cases hzero : c.refill.issuedCount.toNat = 0
  · -- The first word is only requested.
    have hvalid : i.backingResponseValid = false := by
      rw [hfed.valid, h.responseValid, hzero]
      rfl
    have hnone : c.refill.receivedCount = BitVec.ofNat 3 0 := by
      apply BitVec.eq_of_toNat_eq
      rw [hreceived, hzero]
      rfl
    refine ⟨c.refill.buffer, ?_, ?_⟩
    · rw [advanceRefill, hflush, hvalid, hrequest, hzero, ← hnone]
      rfl
    · intro k hk
      omega
  · have hpos : 0 < c.refill.issuedCount.toNat := by omega
    have hvalid : i.backingResponseValid = true := by
      rw [hfed.valid, h.responseValid, decide_eq_true hpos]
    have hcount : c.refill.receivedCount + 1 =
        BitVec.ofNat 3 c.refill.issuedCount.toNat := by
      apply BitVec.eq_of_toNat_eq
      have hone : (1 : BitVec 3).toNat = 1 := rfl
      rw [BitVec.toNat_add, BitVec.toNat_ofNat, hreceived, hone]
      omega
    refine ⟨c.refillBufferWithResponse i, ?_, ?_⟩
    · rw [advanceRefill, hflush, hvalid, hrequest, if_pos rfl, if_neg hnot,
        hcount]
      rfl
    · exact h.buffer_with_response hfed hpos

theorem Lined.step_refill_more (h : Lined mem c m) (hfed : Fed m i)
    (hflush : i.flush = false) (hactive : c.refill.active = true)
    (hmore : c.refill.issuedCount.toNat < 4) :
    Lined mem (c.step i) (c.nextMem i m) := by
  have hr := h.refilling hactive
  obtain ⟨hlookup, hidle, hrefill, hretry⟩ := h.refill_frame hflush hactive
  obtain ⟨buffer, hadvance, hbuffer⟩ := hr.advance hfed hflush hactive hmore
  have hwrite : c.arrayWriteEnable i = false := by
    have hnot : c.refill.receivedCount ≠ 3 := by
      rw [Ne, hr.receivedCount_eq_three]
      omega
    rw [arrayWriteEnable, decide_eq_false hnot, Bool.and_false]
  rw [hwrite, Bool.false_and] at hretry
  have hrequest : c.backingRequestValid i.flush = true := by
    rw [hflush, backingRequestValid_active hactive, decide_eq_true hmore]
  rw [hadvance] at hrefill
  have hissued := toNat_issuedCount_succ hmore
  have hcount : (BitVec.ofNat 3 c.refill.issuedCount.toNat).toNat =
      c.refill.issuedCount.toNat := by
    rw [BitVec.toNat_ofNat]
    omega
  apply h.step_waiting (by simp [busy, hactive]) hlookup hidle
    (h.lines_step hwrite)
  · intro _
    refine ⟨hretry, ?_⟩
    constructor
    · rw [hrefill]
      exact hr.index
    · rw [hrefill]
      exact hr.tag
    · simp only [hrefill, hlookup]
      exact hr.own
    · rw [hrefill]
      change (c.refill.issuedCount + 1).toNat ≤ 4
      omega
    · rw [hrefill]
      change (BitVec.ofNat 3 _).toNat = (c.refill.issuedCount + 1).toNat - 1
      omega
    · rw [hrefill]
      change c.backingRequestValid i.flush =
        decide (0 < (c.refill.issuedCount + 1).toNat)
      rw [hrequest, hissued, decide_eq_true (Nat.succ_pos _)]
    · intro _
      rw [hrefill]
      change (if c.backingRequestValid i.flush then
          InsnMem.wordAt m.mem c.backingRequestAddr else m.responseWord) =
        lineWord mem c.refill.lineBase (BitVec.ofNat 3 _).toNat
      rw [if_pos hrequest, hcount, backingRequestAddr_eq, h.image, lineWord]
    · rw [hrefill]
      intro k hk
      change k.toNat < (BitVec.ofNat 3 _).toNat at hk
      exact hbuffer k (by omega)
    · rw [hrefill, hlookup]
      exact hr.second
    · intro lane
      rw [hrefill, hlookup, present_step hwrite]
      exact hr.wanted lane
  · intro hnext
    rw [hrefill] at hnext
    exact absurd (hnext.symm.trans hactive) Bool.false_ne_true
  · intro hnext
    exact absurd (hretry.symm.trans hnext) Bool.false_ne_true

/-- Two lanes of a fetch pair in one set are in one line. -/
theorem pair_line (hpair : (c.lookup 1).pc = (c.lookup 0).pc + 4) {a b : Lane}
    (hindex : lineIndex (c.lookup a).pc = lineIndex (c.lookup b).pc) :
    lineBase (c.lookup a).pc = lineBase (c.lookup b).pc := by
  match a, b with
  | 0, 0 => rfl
  | 1, 1 => rfl
  | 0, 1 =>
      rw [hpair] at hindex ⊢
      exact (lineBase_of_pair hindex.symm).symm
  | 1, 0 =>
      rw [hpair] at hindex ⊢
      exact lineBase_of_pair hindex

theorem Refilling.lineBase_eq_self (h : Refilling mem c m) :
    lineBase c.refill.lineBase = c.refill.lineBase := by
  obtain ⟨lane, hown⟩ := h.own
  rw [hown, lineBase_lineBase]

/-- An installed line is present, and it evicts no line of the fetch pair. -/
theorem Refilling.present_write (h : Refilling mem c m)
    (hpair : (c.lookup 1).pc = (c.lookup 0).pc + 4)
    (hwrite : c.arrayWriteEnable i = true) {lane : Lane}
    (hlane : c.Present (c.lookup lane).pc ∨
      c.refill.lineBase = lineBase (c.lookup lane).pc) :
    (c.step i).Present (c.lookup lane).pc := by
  simp only [Present, step, hwrite, if_true]
  by_cases hindex : lineIndex (c.lookup lane).pc = c.refill.index
  · obtain ⟨other, hown⟩ := h.own
    have hline : lineBase (c.lookup lane).pc = c.refill.lineBase := by
      rw [hown]
      apply pair_line hpair
      rw [hindex, h.index, hown, lineIndex_lineBase]
    rw [hindex, Function.update_self, Function.update_self, h.tag, ← hline,
      lineTag_lineBase]
    exact ⟨rfl, rfl⟩
  · rw [Function.update_of_ne hindex, Function.update_of_ne hindex]
    rcases hlane with hpresent | hline
    · exact hpresent
    · rw [h.index, hline, lineIndex_lineBase] at hindex
      exact absurd rfl hindex

theorem Lined.lines_write (h : Lined mem c m) (hfed : Fed m i)
    (hactive : c.refill.active = true)
    (hlast : c.refill.issuedCount.toNat = 4)
    (hwrite : c.arrayWriteEnable i = true) (pc : Word)
    (hpresent : (c.step i).Present pc) (k : BitVec 2) :
    (c.step i).dataArray (lineIndex pc) k =
      lineWord mem (lineBase pc) k.toNat := by
  have hr := h.refilling hactive
  simp only [Present, step, hwrite, if_true] at hpresent ⊢
  by_cases hindex : lineIndex pc = c.refill.index
  · rw [hindex, Function.update_self, Function.update_self] at hpresent
    have hline : lineBase pc = c.refill.lineBase := by
      rw [← hr.lineBase_eq_self]
      apply lineBase_eq
      · rw [hindex, hr.index]
      · rw [← hpresent.2, hr.tag]
    rw [hindex, Function.update_self, hline]
    exact hr.buffer_with_response hfed (by omega) k (by omega)
  · rw [Function.update_of_ne hindex, Function.update_of_ne hindex] at hpresent
    rw [Function.update_of_ne hindex]
    exact h.lines pc hpresent k

/-- The last word of a line comes in and is installed. -/
theorem Refilling.write_last (h : Refilling mem c m) (hfed : Fed m i)
    (hflush : i.flush = false) (hactive : c.refill.active = true)
    (hlast : c.refill.issuedCount.toNat = 4) :
    i.backingResponseValid = true ∧ c.refill.receivedCount = 3 ∧
      c.arrayWriteEnable i = true := by
  have hvalid : i.backingResponseValid = true := by
    rw [hfed.valid, h.responseValid, hlast]
    rfl
  have hcount : c.refill.receivedCount = 3 :=
    h.receivedCount_eq_three.mpr hlast
  refine ⟨hvalid, hcount, ?_⟩
  rw [arrayWriteEnable, hflush, hactive, hvalid, decide_eq_true hcount]
  rfl

/-- The last word of a line: it is installed, and either the other line follows
or the lookup is retried. -/
theorem Lined.step_refill_last (h : Lined mem c m) (hfed : Fed m i)
    (hflush : i.flush = false) (hactive : c.refill.active = true)
    (hlast : c.refill.issuedCount.toNat = 4) :
    Lined mem (c.step i) (c.nextMem i m) := by
  have hr := h.refilling hactive
  obtain ⟨hlookup, hidle, hrefill, hretry⟩ := h.refill_frame hflush hactive
  have hbusy : c.busy = true := by simp [busy, hactive]
  have hpair := h.pair hbusy
  obtain ⟨hvalid, hcount, hwrite⟩ := hr.write_last hfed hflush hactive hlast
  rw [hwrite, Bool.true_and] at hretry
  have hrequest : c.backingRequestValid i.flush = false := by
    rw [hflush, backingRequestValid_active hactive]
    exact decide_eq_false (by omega)
  have hpresent {lane : Lane} (hlane : c.Present (c.lookup lane).pc ∨
      c.refill.lineBase = lineBase (c.lookup lane).pc) :
      (c.step i).Present (c.lookup lane).pc := hr.present_write hpair hwrite hlane
  cases hsecond : c.refill.secondPending with
  | false =>
      have hnext : (c.step i).refill.active = false := by
        rw [hrefill, advanceRefill, hvalid, if_pos rfl, if_pos hcount, hsecond]
        rfl
      apply h.step_waiting hbusy hlookup hidle
        (h.lines_write hfed hactive hlast hwrite)
      · intro hra
        exact absurd (hnext.symm.trans hra) Bool.false_ne_true
      · exact fun _ => hrequest
      · intro _ lane
        apply hpresent
        rcases hr.wanted lane with hin | hline | ⟨hpending, _⟩
        · exact Or.inl hin
        · exact Or.inr hline
        · exact absurd (hsecond.symm.trans hpending) Bool.false_ne_true
  | true =>
      have hline := hr.second hsecond
      have hnext : (c.step i).refill =
          { active := true
            lineBase := c.refill.secondLineBase
            index := lineIndex c.refill.secondLineBase
            tag := lineTag c.refill.secondLineBase
            secondLineBase := c.refill.secondLineBase } := by
        rw [hrefill, advanceRefill, hvalid, if_pos rfl, if_pos hcount, hsecond,
          if_pos rfl]
      have hrest : (c.step i).retryPending = false := by
        rw [hretry, hsecond]
        rfl
      apply h.step_waiting hbusy hlookup hidle
        (h.lines_write hfed hactive hlast hwrite)
      · intro _
        refine ⟨hrest, ?_⟩
        apply Refilling.fresh
        · rw [hnext]
        · rw [hnext]
        · rw [hnext]
        · rw [hnext]
        · exact hrequest
        · rw [hnext]
          exact ⟨1, by rw [hlookup]; exact hline⟩
        · rw [hnext]
          exact fun hpending => absurd hpending Bool.false_ne_true
        · intro lane
          rw [hnext, hlookup]
          rcases hr.wanted lane with hin | hfirst | ⟨_, hother⟩
          · exact Or.inl (hpresent (Or.inl hin))
          · exact Or.inl (hpresent (Or.inr hfirst))
          · exact Or.inr (Or.inl hother)
      · exact fun _ => hrequest
      · intro hrp
        exact absurd (hrest.symm.trans hrp) Bool.false_ne_true

/-- The invariant is kept by every edge. -/
theorem Lined.step (h : Lined mem c m) (hfed : Fed m i) :
    Lined mem (c.step i) (c.nextMem i m) := by
  cases hfire : c.requestFire i with
  | true => exact h.step_fire hfed hfire
  | false =>
      cases hflush : i.flush with
      | true => exact h.step_flush hflush hfire
      | false =>
          cases hactive : c.refill.active with
          | true =>
              have hissued := (h.refilling hactive).issued
              by_cases hlast : c.refill.issuedCount.toNat = 4
              · exact h.step_refill_last hfed hflush hactive hlast
              · exact h.step_refill_more hfed hflush hactive (by omega)
          | false =>
              by_cases hhit : c.retryPending = false →
                  (c.lookupValid && !c.responseValid i.flush) = false
              · exact h.step_hold hflush hfire hactive hhit
              · push Not at hhit
                obtain ⟨_, hmiss⟩ := hhit
                rw [ne_eq, Bool.not_eq_false, Bool.and_eq_true,
                  Bool.not_eq_true', hflush] at hmiss
                exact h.step_miss hflush hmiss.1 hmiss.2

end Step

section Progress

variable {mem : BitVec 14 → Word} {c : InstructionCache} {m : InsnMem}
  {i : Inputs}

/-- The cycles left until the request in the cache has its response. -/
def rank (c : InstructionCache) : Nat :=
  if c.lookupValid then if c.lookupHit 0 && c.lookupHit 1 then 0 else 12
  else if c.refill.active then
    6 - c.refill.issuedCount.toNat + if c.refill.secondPending then 5 else 0
  else if c.retryPending then 1
  else 0

theorem rank_le (c : InstructionCache) : c.rank ≤ 12 := by
  unfold rank
  repeat' split
  all_goals omega

theorem rank_lookup (hvalid : c.lookupValid = true) :
    c.rank = if c.lookupHit 0 && c.lookupHit 1 then 0 else 12 := by
  rw [rank, hvalid, if_pos rfl]

theorem rank_refill (hidle : c.lookupValid = false)
    (hactive : c.refill.active = true) :
    c.rank = 6 - c.refill.issuedCount.toNat +
      if c.refill.secondPending then 5 else 0 := by
  rw [rank, hidle, hactive, if_neg Bool.false_ne_true, if_pos rfl]

theorem rank_retry (hidle : c.lookupValid = false)
    (hactive : c.refill.active = false) (hretry : c.retryPending = true) :
    c.rank = 1 := by
  rw [rank, hidle, hactive, hretry, if_neg Bool.false_ne_true,
    if_neg Bool.false_ne_true, if_pos rfl]

/-- A request with no cycles left has its response. -/
theorem Lined.responseValid_of_rank (h : Lined mem c m) (hbusy : c.busy = true)
    (hrank : c.rank = 0) : c.responseValid false = true := by
  cases hvalid : c.lookupValid with
  | true =>
      rw [rank_lookup hvalid] at hrank
      cases hhit : c.lookupHit 0 && c.lookupHit 1 with
      | true => rw [responseValid, Bool.not_false, Bool.true_and, hhit]
      | false =>
          rw [hhit] at hrank
          exact absurd hrank (by decide)
  | false =>
      cases hactive : c.refill.active with
      | true =>
          have hissued := (h.refilling hactive).issued
          rw [rank_refill hvalid hactive] at hrank
          omega
      | false =>
          simp only [busy, hvalid, hactive, Bool.false_or] at hbusy
          rw [rank_retry hvalid hactive hbusy] at hrank
          exact absurd hrank (by decide)

/-- An edge that keeps the request and brings its response nearer. -/
structure Nearer (c c' : InstructionCache) : Prop where
  rank : c'.rank < c.rank
  busy : c'.busy = true
  pc : ∀ lane, (c'.lookup lane).pc = (c.lookup lane).pc

theorem Lined.nearer_miss (h : Lined mem c m) (hflush : i.flush = false)
    (hvalid : c.lookupValid = true)
    (hmiss : (c.lookupHit 0 && c.lookupHit 1) = false) :
    Nearer c (c.step i) := by
  have hresponse : c.responseValid false = false := by
    rw [responseValid, Bool.not_false, Bool.true_and, hmiss]
  obtain ⟨hlookup, hidle, hrefill, _⟩ :=
    h.miss_frame (i := i) hflush hvalid hresponse
  obtain ⟨hstart, _, _, hissued, _⟩ := startRefill_fields c
  have hnext : (c.step i).refill.active = true := by rw [hrefill, hstart]
  constructor
  · rw [rank_lookup hvalid, hmiss, rank_refill hidle hnext, hrefill, hissued]
    cases c.startRefill.secondPending <;> decide
  · rw [InstructionCache.busy, hnext, Bool.or_true, Bool.true_or]
  · intro lane
    rw [hlookup]

theorem Lined.nearer_refill (h : Lined mem c m) (hfed : Fed m i)
    (hflush : i.flush = false) (hactive : c.refill.active = true) :
    Nearer c (c.step i) := by
  have hr := h.refilling hactive
  have hissued := hr.issued
  obtain ⟨hlookup, hidle, hrefill, hretry⟩ :=
    h.refill_frame (i := i) hflush hactive
  have hnow := rank_refill (h.idle_of_refill hactive) hactive
  by_cases hlast : c.refill.issuedCount.toNat = 4
  · obtain ⟨hresponse, hcount, hwrite⟩ :=
      hr.write_last hfed hflush hactive hlast
    rw [advanceRefill, hresponse, if_pos rfl, if_pos hcount] at hrefill
    rw [hwrite, Bool.true_and] at hretry
    cases hsecond : c.refill.secondPending with
    | true =>
        rw [hsecond, if_pos rfl] at hrefill
        have hnext : (c.step i).refill.active = true := by rw [hrefill]
        refine ⟨?_, ?_, fun lane => by rw [hlookup]⟩
        · rw [rank_refill hidle hnext, hnow, hlast, hsecond, hrefill]
          change 6 - 0 + 0 < 6 - 4 + 5
          decide
        · rw [InstructionCache.busy, hnext, Bool.or_true, Bool.true_or]
    | false =>
        rw [hsecond, if_neg Bool.false_ne_true] at hrefill
        have hnext : (c.step i).refill.active = false := by rw [hrefill]
        rw [hsecond] at hretry
        refine ⟨?_, ?_, fun lane => by rw [hlookup]⟩
        · rw [rank_retry hidle hnext hretry, hnow, hlast, hsecond]
          decide
        · rw [InstructionCache.busy, hretry, Bool.not_false, Bool.or_true]
  · have hmore : c.refill.issuedCount.toNat < 4 := by omega
    obtain ⟨buffer, hadvance, _⟩ := hr.advance hfed hflush hactive hmore
    rw [hadvance] at hrefill
    have hnext : (c.step i).refill.active = true := by
      rw [hrefill]
      exact hactive
    have hcount : (c.step i).refill.issuedCount.toNat =
        c.refill.issuedCount.toNat + 1 := by
      rw [hrefill]
      exact toNat_issuedCount_succ hmore
    have hsecond : (c.step i).refill.secondPending =
        c.refill.secondPending := by rw [hrefill]
    refine ⟨?_, ?_, fun lane => by rw [hlookup]⟩
    · rw [rank_refill hidle hnext, hnow, hcount, hsecond]
      exact Nat.add_lt_add_right (by omega) _
    · rw [InstructionCache.busy, hnext, Bool.or_true, Bool.true_or]

theorem Lined.nearer_retry (h : Lined mem c m) (hflush : i.flush = false)
    (hvalid : c.lookupValid = false) (hactive : c.refill.active = false)
    (hretry : c.retryPending = true) : Nearer c (c.step i) := by
  have hfire : c.requestFire i = false := by
    simp [requestFire, requestReady, hflush, hactive, hretry]
  have hlined := h.step_hold hflush hfire hactive
    fun hno => absurd (hno.symm.trans hretry) Bool.false_ne_true
  have hnext : (c.step i).lookupValid = true := by
    simp [InstructionCache.step, nextLookupValid, hfire, hflush, hactive, hretry]
  have hwrite : c.arrayWriteEnable i = false := by
    simp [arrayWriteEnable, hactive]
  have hpc (lane : Lane) :
      ((c.step i).lookup lane).pc = (c.lookup lane).pc := by
    simp [InstructionCache.step, nextLookup, hfire]
  have hhit (lane : Lane) : (c.step i).lookupHit lane = true := by
    rw [hlined.lookupHit_iff hnext, present_step hwrite, hpc]
    exact h.retry hretry lane
  refine ⟨?_, ?_, hpc⟩
  · rw [rank_lookup hnext, hhit, hhit, rank_retry hvalid hactive hretry]
    decide
  · rw [InstructionCache.busy, hnext, Bool.true_or, Bool.true_or]

/-- Every cycle without a redirect brings the response nearer. -/
theorem Lined.nearer (h : Lined mem c m) (hfed : Fed m i)
    (hflush : i.flush = false) (hbusy : c.busy = true) (hrank : 0 < c.rank) :
    Nearer c (c.step i) := by
  cases hvalid : c.lookupValid with
  | true =>
      apply h.nearer_miss hflush hvalid
      by_contra hhit
      rw [Bool.not_eq_false] at hhit
      rw [rank_lookup hvalid, if_pos hhit] at hrank
      exact absurd hrank (Nat.lt_irrefl 0)
  | false =>
      cases hactive : c.refill.active with
      | true => exact h.nearer_refill hfed hflush hactive
      | false =>
          apply h.nearer_retry hflush hvalid hactive
          simpa [InstructionCache.busy, hvalid, hactive] using hbusy

end Progress

end InstructionCache

end OoOCore
