/-
Runs against a memory port that behaves as a memory: a load it accepts returns
the state after the stores it accepted before.  In every such run a cacheable
load completes with the bytes of the youngest older stores.
-/
import OoOCore.LoadOrder
import OoOCore.Values

namespace OoOCore

namespace Backend

section Units

variable {s : Backend} {i : Inputs}

/-- What a unit other than the LSU accepts is no memory operation. -/
theorem moves_class {j : IqIndex}
    (hmoves : s.moves i (.iq j) = some .primary ∨
      s.moves i (.iq j) = some .secondary) :
    (s.iq.entries j).fuClass ≠ .memory := by
  intro hclass
  obtain ⟨q, hq, hplace⟩ : ∃ q, s.moves i (.iq j) = some q ∧
      (q = .primary ∨ q = .secondary) := by
    rcases hmoves with h | h
    · exact ⟨_, h, Or.inl rfl⟩
    · exact ⟨_, h, Or.inr rfl⟩
  rcases s.moves_iq_cases i hq with ⟨-, -, -, rfl⟩ | ⟨hj, -, hmem, -⟩ |
    ⟨hj, -, -⟩ | ⟨hj, -, -⟩ | ⟨rfl, -⟩
  · split at hplace <;> rcases hplace with h | h <;> cases h
  · have hvalid : s.issueValid 0 = true := by
      rw [issueValid, hj]
      rfl
    rw [candidate0IsMemory, hvalid, s.issueUop_of_choice hj] at hmem
    rw [Bool.true_and, beq_eq_false_iff_ne] at hmem
    exact hmem hclass
  · have hport := (s.iq.select_port1_candidate _ hj).2
    rw [hclass] at hport
    rcases hport with h | h <;> cases h
  · have hport := (s.iq.select_fallback_candidate _ hj).2
    rw [hclass] at hport
    cases hport
  · rcases hplace with h | h <;> cases h

/-- The integer units hold no memory operation. -/
def IntegerUnits (s : Backend) : Prop :=
  ∀ p h, s.heldAt p = some h → p = .primary ∨ p = .secondary →
    s.isMemoryTag h.robTag = false

theorem IntegerUnits.step (hi : s.IntegerUnits) (hs : s.InFlight)
    (hc : s.Countable) : (s.step i).IntegerUnits := by
  intro p h' hheld hp
  have htrap := not_trap_of_held hheld
  have hmoved : s.MovedTo i p h' := by
    rcases hp with rfl | rfl
    · exact movedTo_primary htrap hheld
    · exact movedTo_secondary htrap hheld
  obtain ⟨hold, hnew, -⟩ := hs.moved hc htrap hmoved
  rw [hs.robReady.step_isMemory hc htrap hold hnew]
  obtain ⟨p0, h0, hheld0, hmoves, hfollows, -⟩ := hmoved
  rw [hfollows.robTag]
  match p0 with
  | .iq j =>
      rw [heldAt] at hheld0
      split at hheld0
      · next hvalid =>
        cases hheld0
        have hclass : (s.iq.entries j).fuClass ≠ .memory := by
          apply moves_class (i := i)
          rcases hp with rfl | rfl
          · exact Or.inl hmoves
          · exact Or.inr hmoves
        change s.isMemoryTag (s.iq.entries j).robTag = false
        rw [isMemoryTag, (hs.paired j hvalid).memory.1]
        simpa using hclass
      · cases hheld0
  | .primary => exact hi .primary h0 hheld0 (Or.inl rfl)
  | .secondary => cases hmoves
  | .lsu => cases hmoves
  | .pending tag =>
      rw [moves] at hmoves
      split at hmoves <;> cases hmoves <;> rcases hp with h | h <;> cases h

theorem Reachable.integerUnits {s : Backend} (h : s.Reachable) :
    s.IntegerUnits := by
  induction h with
  | reset =>
      intro p h hheld
      rw [reset_heldAt] at hheld
      cases hheld
  | step h i ih => exact ih.step h.inFlight h.countable

/-- A completion lane shows the register it is driven by. -/
theorem complete_at {l : Lane} (hvalid : (s.robComplete l).valid = true) :
    ∃ p, s.completionAt p = some (s.robComplete l) := by
  have hlane {c : Completion} (hsource : s.exec.laneSource l = c)
      (hvis : s.exec.visible c = true) : s.robComplete l = c := by
    have hcvalid : c.valid = true := by
      rw [BackendExecuteStage.visible, Bool.and_eq_true] at hvis
      exact hvis.1
    rw [robComplete, BackendExecuteStage.completion, hsource, hvis]
    cases c
    cases hcvalid
    rfl
  have hvis : s.exec.visible (s.exec.laneSource l) = true := hvalid
  rcases lane_cases l with rfl | rfl
  · cases hmemory : s.exec.visible s.exec.memory.completion with
    | true =>
        refine ⟨.lsu, ?_⟩
        rw [hlane (if_pos hmemory) hmemory]
        exact if_pos hmemory
    | false =>
        have hsource : s.exec.laneSource 0 = s.exec.primary := by
          rw [BackendExecuteStage.laneSource, hmemory,
            if_neg Bool.false_ne_true]
        rw [hsource] at hvis
        refine ⟨.primary, ?_⟩
        rw [hlane hsource hvis]
        exact if_pos hvis
  · refine ⟨.secondary, ?_⟩
    rw [hlane rfl hvis]
    exact if_pos hvis

/-- A memory operation completes from the register of the LSU. -/
theorem IntegerUnits.complete_lsu (hi : s.IntegerUnits) {l : Lane}
    (hvalid : (s.robComplete l).valid = true)
    (hmem : s.isMemoryTag (s.robComplete l).robTag = true) :
    s.completionAt .lsu = some (s.robComplete l) := by
  obtain ⟨p, hp⟩ := complete_at hvalid
  have hinteger (hunit : p = .primary ∨ p = .secondary) : False := by
    have hno := hi p _ (completionAt_held hp) hunit
    exact absurd (hno.symm.trans hmem) Bool.false_ne_true
  match p with
  | .lsu => exact hp
  | .primary => exact absurd (Or.inl rfl) hinteger
  | .secondary => exact absurd (Or.inr rfl) hinteger
  | .iq j => cases hp
  | .pending tag => cases hp

end Units

section Port

variable {s : Backend} {i : Inputs}

/-- The values the memory port owes, by the tag of the load. -/
abbrev Promises := RobTag → Option Word

/-- What the port owes once it has accepted a request: a cacheable load is
going to return the state after the stores accepted before, and nothing
particular is owed for an MMIO load. -/
def owes (init : Word → BitVec 8) (accepted : List StoreRequest)
    (p : Promises) : Option MemoryRequest → Promises
  | some (.load tag address access) =>
      Function.update p tag
        (if addressIsMmio address then none
        else some (loadValue
          (Overwrite.after init (accepted.map StoreRequest.byte))
          address access))
  | _ => p

/-- What the port owes after a cycle. -/
def promise (s : Backend) (i : Inputs) (init : Word → BitVec 8) (h : History)
    (p : Promises) : Promises :=
  if i.memoryRequestReady then owes init h.accepted p (s.memoryRequest i)
  else p

/-- The response of a cycle is what the port owes the waiting load. -/
def Answered (s : Backend) (i : Inputs) (p : Promises) : Prop :=
  i.response.valid = true →
    s.exec.memory.pendingValid i.response.id = true →
      ∀ value, p i.response.id = some value → i.response.data = value

/-- The runs against a memory port that starts with the bytes `init` and
behaves as a memory. -/
inductive MemoryRun (init : Word → BitVec 8) :
    Backend → History → Promises → Prop
  | reset : MemoryRun init reset {} fun _ => none
  | step {s : Backend} {h : History} {p : Promises}
      (hr : MemoryRun init s h p) (i : Inputs) (ha : s.Answered i p) :
      MemoryRun init (s.step i) (s.observe i h) (s.promise i init h p)

theorem MemoryRun.traced {init : Word → BitVec 8} {h : History} {p : Promises}
    (hr : MemoryRun init s h p) : s.Traced h := by
  induction hr with
  | reset => exact Traced.reset
  | step _ i _ ih => exact ih.step i

/-- A load that takes a pending slot is the request the port accepts. -/
theorem startsLoad_accepted
    (hstart : s.exec.memory.startsLoad (s.lsuInputs i) = true) :
    i.memoryRequestReady = true ∧ s.memoryRequest i =
      some (.load (s.issueUop 0).robTag s.lsuAddress s.lsuMemoryAccess) := by
  obtain ⟨hfire, hnormal, hpending, -⟩ := startsLoad_pending hstart
  simp only [LoadStoreExecutionUnit.issueFire,
    LoadStoreExecutionUnit.issueReady, hnormal, if_true,
    Bool.and_eq_true] at hfire
  obtain ⟨hissue, hbase, -, hready⟩ := hfire
  have hread : s.lsuLoadReadValid i = true := by
    simp only [lsuLoadReadValid, LoadStoreExecutionUnit.loadReadValid,
      hissue, hbase, hnormal, Bool.true_and, Bool.not_eq_true']
    exact hpending
  change s.loadCacheRequestReady i = true at hready
  simp only [loadCacheRequestReady, Bool.and_eq_true, Bool.not_eq_true']
    at hready
  obtain ⟨⟨hport, hstore⟩, hforce⟩ := hready
  have hmmio : s.mmioStoreRequest i = false := by
    rw [mmioStoreRequest, hstore, Bool.false_and]
  have hdrain : s.selectStoreBufferDrain i = false := by
    simp [selectStoreBufferDrain, hstore, hforce, hread]
  have hselect : s.selectLoadRequest i = true := by
    simp [selectLoadRequest, hread, hmmio, hstore, hforce]
  refine ⟨hport, ?_⟩
  rw [memoryRequest, hmmio, hdrain, hselect, if_neg Bool.false_ne_true,
    if_neg Bool.false_ne_true, if_pos rfl]

/-- The port accepts a load only into a free slot. -/
theorem accepted_free {tag : RobTag} {address : Word} {access : MemAccess}
    (hreq : s.memoryRequest i = some (.load tag address access)) :
    s.exec.memory.pendingValid tag = false := by
  obtain ⟨rfl, -, -, hselect⟩ := memoryRequest_load hreq
  simp only [selectLoadRequest, Bool.and_eq_true] at hselect
  have hread := hselect.1.1.1
  simp only [lsuLoadReadValid, LoadStoreExecutionUnit.loadReadValid,
    Bool.and_eq_true, Bool.not_eq_true'] at hread
  exact hread.2

theorem promise_pending {init : Word → BitVec 8} {h : History} {p : Promises}
    {tag : RobTag} (hpending : s.exec.memory.pendingValid tag = true) :
    s.promise i init h p tag = p tag := by
  rw [promise]
  split
  · cases hreq : s.memoryRequest i with
    | none => rfl
    | some request =>
        cases request with
        | store r => rfl
        | load tag' address access =>
            have hfree := accepted_free hreq
            have hne : tag ≠ tag' := by
              rintro rfl
              rw [hpending] at hfree
              cases hfree
            exact Function.update_of_ne hne _ _
  · rfl

end Port

section Loads

variable {s : Backend} {i : Inputs} {init : Word → BitVec 8} {h : History}

theorem RobReady.survivor_unmasked (hs : s.RobReady i)
    (htrap : s.trapValid i = false) {tag : RobTag}
    (hnew : tag ∈ (s.step i).rob.window) :
    s.recoveryYoungerMask i tag = false := by
  cases hrec : s.recoveryValid i with
  | true => exact ((hs.mem_step_window_recover htrap hrec tag).mp hnew).2
  | false => exact recoveryYoungerMask_of_normal hrec tag

/-- The LSQ records the access of the memory operation that issues. -/
theorem issued_access (hreach : s.Reachable) (htrap : s.trapValid i = false)
    (hport : (s.lsqUpdate i).addressValid = true)
    (hnew : (s.issueUop 0).robTag ∈ (s.step i).rob.window) :
    ((s.step i).accessOf (s.issueUop 0).robTag).addressReady = true ∧
      ((s.step i).accessOf (s.issueUop 0).robTag).address = s.lsuAddress ∧
      ((s.step i).accessOf (s.issueUop 0).robTag).memCtr =
        s.lsuMemoryAccess := by
  have hs := hreach.inFlight
  have hm := hreach.memoryOrder
  have hunmasked := hs.robReady.survivor_unmasked htrap hnew
  obtain ⟨j, hj, hclass, htag, -⟩ := lsqUpdate_source hport
  have hvalid := s.issueChoice_valid hj
  have haccess : s.lsuMemoryAccess = (s.iq.entries j).memCtr := by
    rw [lsuMemoryAccess, s.issueUop_of_choice hj]
    rfl
  rw [s.issueUop_robTag hj] at hnew hunmasked ⊢
  obtain ⟨hlive, hmem, hslot, hwindow, howner⟩ := hm.iq_slot hs hvalid hclass
  obtain ⟨-, hwindow', hslot'⟩ :=
    hm.slot_step hs.robReady hreach.countable htrap hlive hnew hmem
  rw [hslot] at hwindow'
  have hnamed : ((s.lsqUpdate i).addressValid && s.lsq.updates
      (s.recoveryYoungerMask i) (s.lsqUpdate i) (s.iq.entries j).lsqTag) =
        true := by
    have htarget : (s.lsqUpdate i).tag = (s.iq.entries j).lsqTag := htag
    have howned : s.recoveryYoungerMask i
        (s.lsq.entries (s.iq.entries j).lsqTag).robTag = false := by
      change s.recoveryYoungerMask i (s.lsqOwner _) = false
      rw [howner]
      exact hunmasked
    rw [hport, LoadStoreQueue.updates, LoadStoreQueue.updateTarget, htarget,
      (hm.wf.valid_iff _).mpr hwindow, howned]
    simp
  have hframe := (hm.step_owner hs.robReady htrap hwindow hwindow').1
  have hsize := congrArg LsqEntry.memCtr hframe
  change ((s.step i).lsq.entries _).memCtr = _ at hsize
  rw [accessOf, hslot', hslot, hsize]
  rw [hm.step_survivor hs.robReady htrap hwindow hwindow']
  obtain ⟨hready, haddress⟩ := LoadStoreQueue.captured_named
    (w := s.prfWriteback) (e := s.lsq.entries (s.iq.entries j).lsqTag) hnamed
  refine ⟨hready, haddress, ?_⟩
  rw [haccess, ← hm.iq_access hs hvalid hclass]
  rfl

/-- The memory operation at the tag has its address, and if that is cacheable
the value is settled. -/
structure SettledAt (init : Word → BitVec 8) (s : Backend) (h : History)
    (tag : RobTag) (value : Word) : Prop where
  live : tag ∈ s.rob.window
  memory : s.isMemoryTag tag = true
  ready : (s.accessOf tag).addressReady = true
  settled : addressIsMmio (s.accessOf tag).address = false →
    s.Settled init h tag (s.accessOf tag).address (s.accessOf tag).memCtr
      value

theorem SettledAt.step {tag : RobTag} {value : Word}
    (hset : SettledAt init s h tag value) (hreach : s.Reachable)
    (htrap : s.trapValid i = false) (hnew : tag ∈ (s.step i).rob.window) :
    SettledAt init (s.step i) (s.observe i h) tag value ∧
      ((s.step i).accessOf tag).address = (s.accessOf tag).address ∧
      ((s.step i).accessOf tag).memCtr = (s.accessOf tag).memCtr := by
  have hs := hreach.inFlight.robReady (i := i)
  have hc := hreach.countable
  have hm := hreach.memoryOrder
  obtain ⟨hwindow, hwindow', hslot⟩ :=
    hm.slot_step hs hc htrap hset.live hnew hset.memory
  obtain ⟨hready, haddress, haccess, -⟩ :=
    hreach.memoryEntries.step_known hm hs htrap hwindow hwindow' hset.ready
  have hentry : (s.step i).accessOf tag =
      (s.step i).lsq.entries (s.rob.entries tag).lsqTag := by
    rw [accessOf, hslot]
  rw [← hentry] at hready haddress haccess
  refine ⟨⟨hnew, ?_, hready, ?_⟩, haddress, haccess⟩
  · rw [hs.step_isMemory hc htrap hset.live hnew]
    exact hset.memory
  · intro hcacheable
    rw [haddress] at hcacheable ⊢
    rw [haccess]
    exact (hset.settled hcacheable).step hreach.memoryEntries hm hs hc htrap
      hset.live hnew

/-- Issued loads: a pending slot is going to receive a settled value, and the
completion register of the LSU holds one. -/
structure LoadsSettled (init : Word → BitVec 8) (s : Backend) (h : History)
    (p : Promises) : Prop where
  pending : ∀ tag held, s.heldAt (.pending tag) = some held →
    ∃ value, SettledAt init s h tag value ∧
      (addressIsMmio (s.accessOf tag).address = false → p tag = some value)
  completed : ∀ c, s.completionAt .lsu = some c → c.exception = false →
    s.isStoreTag c.robTag = false →
      SettledAt init s h c.robTag c.writebackData

/-- What holds when the LSU accepts a load that does not fault. -/
theorem issued_load
    (hfire : s.exec.memory.issueFire (s.lsuInputs i) = true)
    (hclass : LoadStoreExecutionUnit.selectedIsLoad (s.issueUop 0) = true)
    (haligned : LoadStoreExecutionUnit.addressMisaligned (s.lsuInputs i) =
      false)
    (hdecoded : (s.issueUop 0).decodeException = false) :
    (s.lsqUpdate i).addressValid = true ∧ s.candidate0IsMemory = true ∧
      s.lsuIsStore = false ∧ s.combinedLsqIssueReady = true := by
  have hport : (s.lsqUpdate i).addressValid = true := by
    change s.exec.memory.executeValid (s.lsuInputs i) = true
    simp only [LoadStoreExecutionUnit.executeValid, hfire, haligned]
    change (!(s.issueUop 0).decodeException &&
      (LoadStoreExecutionUnit.selectedIsLoad (s.issueUop 0) || _)) = true
    rw [hdecoded, hclass]
    rfl
  simp only [LoadStoreExecutionUnit.issueFire,
    LoadStoreExecutionUnit.issueReady, LoadStoreExecutionUnit.baseIssueReady,
    Bool.and_eq_true] at hfire
  have hissue : s.candidate0IsMemory = true ∧ s.fallbackActive = false := by
    simpa [lsuInputs] using hfire.1
  refine ⟨hport, hissue.1, ?_, hfire.2.1.1.1⟩
  simp only [LoadStoreExecutionUnit.selectedIsLoad, Bool.and_eq_true,
    Bool.not_eq_true'] at hclass
  rw [lsuIsStore, LoadStoreExecutionUnit.selectedIsStore, hclass.2,
    Bool.and_false]

/-- An issued load with a settled value is settled one cycle later. -/
theorem Settled.issued (hreach : s.Reachable) (htrap : s.trapValid i = false)
    (hport : (s.lsqUpdate i).addressValid = true)
    (hcandidate : s.candidate0IsMemory = true) {value : Word}
    (hset : s.Settled init h (s.issueUop 0).robTag s.lsuAddress
      s.lsuMemoryAccess value)
    (hnew : (s.issueUop 0).robTag ∈ (s.step i).rob.window) :
    SettledAt init (s.step i) (s.observe i h) (s.issueUop 0).robTag value := by
  have hs := hreach.inFlight
  have hc := hreach.countable
  obtain ⟨hlive, hmem, -⟩ := hs.candidate_entry hcandidate
  obtain ⟨hready, haddress, haccess⟩ := issued_access hreach htrap hport hnew
  refine ⟨hnew, ?_, hready, ?_⟩
  · rw [hs.robReady.step_isMemory hc htrap hlive hnew]
    exact hmem
  · intro _
    rw [haddress, haccess]
    exact hset.step hreach.memoryEntries hreach.memoryOrder hs.robReady hc
      htrap hlive hnew

theorem pending_valid {tag : RobTag} {held : Held}
    (hheld : s.heldAt (.pending tag) = some held) :
    s.exec.memory.pendingValid tag = true := by
  rw [heldAt] at hheld
  split at hheld
  · next hslot =>
    rw [Bool.and_eq_true] at hslot
    exact hslot.1
  · cases hheld

/-- A memory operation that is no store in the ROB is a load at issue. -/
theorem lsu_load_class (hs : s.InFlight) (hc : s.Countable)
    (htrap : s.trapValid i = false)
    (hfire : s.exec.memory.issueFire (s.lsuInputs i) = true)
    (hnew : (s.issueUop 0).robTag ∈ (s.step i).rob.window)
    (hkind : (s.step i).isStoreTag (s.issueUop 0).robTag = false) :
    LoadStoreExecutionUnit.selectedIsLoad (s.issueUop 0) = true := by
  have hcandidate : s.candidate0IsMemory = true := by
    simp only [LoadStoreExecutionUnit.issueFire, Bool.and_eq_true] at hfire
    have hissue : s.candidate0IsMemory = true ∧ s.fallbackActive = false := by
      simpa [lsuInputs] using hfire.1
    exact hissue.1
  obtain ⟨hlive, hmem, -, hstore⟩ := hs.candidate_entry hcandidate
  rw [hs.robReady.step_isStoreTag hc htrap hlive hnew, isStoreTag,
    show (s.rob.entries (s.issueUop 0).robTag).isMemory = true from hmem,
    Bool.true_and, hstore] at hkind
  simp only [candidate0IsMemory, Bool.and_eq_true] at hcandidate
  rw [LoadStoreExecutionUnit.selectedIsLoad, hcandidate.2, hkind]
  rfl

theorem LoadsSettled.step_pending {p : Promises}
    (hl : LoadsSettled init s h p) (ht : s.Traced h)
    (htrap : s.trapValid i = false) {tag : RobTag} {held : Held}
    (hheld : (s.step i).heldAt (.pending tag) = some held) :
    ∃ value, SettledAt init (s.step i) (s.observe i h) tag value ∧
      (addressIsMmio ((s.step i).accessOf tag).address = false →
        s.promise i init h p tag = some value) := by
  have hreach := ht.reachable
  have hs' := (hreach.step i).inFlight
  have hnew : tag ∈ (s.step i).rob.window := by
    rw [← pending_robTag hheld]
    exact hs'.live _ _ hheld
  rcases pending_cases hheld with ⟨hstart, rfl, -⟩ | ⟨hold, -, -⟩
  · -- The port has just accepted the load.
    obtain ⟨hfire, hnormal, -⟩ := startsLoad_pending hstart
    simp only [LoadStoreExecutionUnit.normalCacheLoad, Bool.and_eq_true,
      Bool.not_eq_true'] at hnormal
    obtain ⟨⟨⟨hclass, hforward⟩, haligned⟩, hdecoded⟩ := hnormal
    obtain ⟨hport, hcandidate, hload, hready⟩ :=
      issued_load hfire hclass haligned hdecoded
    have hset := memory_settled ht hcandidate hload hready haligned hforward
      init
    refine ⟨_, hset.issued hreach htrap hport hcandidate hnew, ?_⟩
    intro hcacheable
    rw [(issued_access hreach htrap hport hnew).2.1] at hcacheable
    obtain ⟨hack, hreq⟩ := startsLoad_accepted hstart
    rw [promise, hack, if_pos rfl, hreq, owes, Function.update_self,
      hcacheable, if_neg Bool.false_ne_true]
  · obtain ⟨value, hset, hpromise⟩ := hl.pending tag held hold
    obtain ⟨hset', haddress, -⟩ := hset.step hreach htrap hnew
    refine ⟨value, hset', ?_⟩
    intro hcacheable
    have hvalid := pending_valid hold
    rw [haddress] at hcacheable
    rw [promise_pending hvalid]
    exact hpromise hcacheable

theorem LoadsSettled.step_completed {p : Promises}
    (hl : LoadsSettled init s h p) (ht : s.Traced h) (ha : s.Answered i p)
    (htrap : s.trapValid i = false) {c : Completion}
    (hlsu : (s.step i).completionAt .lsu = some c)
    (hclean : c.exception = false)
    (hkind : (s.step i).isStoreTag c.robTag = false) :
    SettledAt init (s.step i) (s.observe i h) c.robTag c.writebackData := by
  have hreach := ht.reachable
  have hs := hreach.inFlight
  have hnew : c.robTag ∈ (s.step i).rob.window :=
    (hreach.step i).inFlight.live _ _ (completionAt_held hlsu)
  obtain ⟨hvis, rfl⟩ := completionAt_lsu hlsu
  rcases lsu_cases htrap hvis with ⟨hlocal, heq⟩ | ⟨hresp, hpending, heq⟩
  · -- The LSQ forwards.
    rw [heq] at hclean hkind hnew ⊢
    simp only [LoadStoreExecutionUnit.completesLocally, Bool.and_eq_true,
      Bool.not_eq_true'] at hlocal
    obtain ⟨⟨hfire, -⟩, hnormal⟩ := hlocal
    change ((s.issueUop 0).decodeException ||
      LoadStoreExecutionUnit.addressMisaligned (s.lsuInputs i)) = false
        at hclean
    rw [Bool.or_eq_false_iff] at hclean
    have hclass := lsu_load_class hs hreach.countable htrap hfire hnew hkind
    obtain ⟨hport, hcandidate, hload, hready⟩ :=
      issued_load hfire hclass hclean.2 hclean.1
    have hforward : s.lsqQuery.forwardValid = true := by
      by_contra hno
      rw [Bool.not_eq_true] at hno
      change (LoadStoreExecutionUnit.selectedIsLoad (s.issueUop 0) &&
        !s.lsqQuery.forwardValid &&
        !LoadStoreExecutionUnit.addressMisaligned (s.lsuInputs i) &&
        !(s.issueUop 0).decodeException) = false at hnormal
      rw [hclass, hno, hclean.1, hclean.2] at hnormal
      cases hnormal
    exact (forward_settled hreach hcandidate hload hready hclean.2 hforward
      init h).issued hreach htrap hport hcandidate hnew
  · rw [heq] at hnew ⊢
    obtain ⟨value, hset, hpromise⟩ := hl.pending i.response.id _ hpending
    obtain ⟨hset', haddress, -⟩ := hset.step hreach htrap hnew
    refine ⟨hset'.live, hset'.memory, hset'.ready, ?_⟩
    intro hcacheable
    have hvalid := pending_valid hpending
    have hdata : i.response.data = value := by
      apply ha hresp hvalid
      apply hpromise
      rw [← haddress]
      exact hcacheable
    have hsettled := hset'.settled hcacheable
    rw [← hdata] at hsettled
    exact hsettled

theorem MemoryRun.loadsSettled {p : Promises} (hr : MemoryRun init s h p) :
    LoadsSettled init s h p := by
  induction hr with
  | reset =>
      constructor
      · intro tag held hheld
        rw [reset_heldAt] at hheld
        cases hheld
      · intro c hc
        have hheld := completionAt_held hc
        rw [reset_heldAt] at hheld
        cases hheld
  | @step s h p hr i ha ih =>
      constructor
      · intro tag held hheld
        exact ih.step_pending hr.traced (not_trap_of_held hheld) hheld
      · intro c hc hclean hkind
        have htrap := not_trap_of_held (completionAt_held hc)
        exact ih.step_completed hr.traced ha htrap hc hclean hkind

/-- The instruction in a slot was there before, if it is not new. -/
theorem Traced.slot_origin (ht : s.Traced h) (inputs : List Inputs)
    {tag : RobTag} {uid : Nat} (hold : uid < s.nextUid)
    (hlive : tag ∈ (s.trace h inputs).1.rob.window)
    (huid : (s.trace h inputs).1.uidAt tag = uid) :
    tag ∈ s.rob.window ∧ s.uidAt tag = uid := by
  induction inputs generalizing s h with
  | nil => exact ⟨hlive, huid⟩
  | cons i rest ih =>
      obtain ⟨hnext, hsame⟩ := ih (ht.step i)
        (Nat.lt_of_lt_of_le hold nextUid_le) hlive huid
      rcases ht.reachable.inFlight.robReady.live_cases
        ht.reachable.countable hnext with ⟨hmem, horigin⟩ | ⟨l, -, -, hl, hge, -⟩
      · refine ⟨hmem, ?_⟩
        rw [← hsame, uidAt, uidAt, horigin]
      · rw [uidAt, hl] at hsame
        omega

/-- A settled value stays settled as long as the load is live. -/
theorem SettledAt.trace {tag : RobTag} {value : Word}
    (hset : SettledAt init s h tag value) (ht : s.Traced h)
    (inputs : List Inputs)
    (hlive : tag ∈ (s.trace h inputs).1.rob.window)
    (huid : (s.trace h inputs).1.uidAt tag = s.uidAt tag) :
    SettledAt init (s.trace h inputs).1 (s.trace h inputs).2 tag value ∧
      ((s.trace h inputs).1.accessOf tag).address =
        (s.accessOf tag).address ∧
      ((s.trace h inputs).1.accessOf tag).memCtr = (s.accessOf tag).memCtr := by
  induction inputs generalizing s h with
  | nil => exact ⟨hset, rfl, rfl⟩
  | cons i rest ih =>
      have hlt := ht.reachable.uidOrder.lt_next tag hset.live
      obtain ⟨hnew, hsame⟩ := (ht.step i).slot_origin rest
        (Nat.lt_of_lt_of_le hlt nextUid_le) hlive huid
      have htrap := not_trap_of_live hnew
      obtain ⟨hset', haddress, haccess⟩ := hset.step ht.reachable htrap hnew
      rw [← haddress, ← haccess]
      exact ih hset' (ht.step i) hlive (huid.trans hsame.symm)

/-- Load values respect program order.  When a cacheable load completes without
a fault, the older live stores have their addresses, those that write its bytes
have their data, and each byte it reads is that of the youngest older store
that covers it, retired or live, or else the initial one.  This stays so in
every later state in which the load is live. -/
theorem MemoryRun.load_value {p : Promises} (hr : MemoryRun init s h p)
    {l : Lane} (hvalid : (s.robComplete l).valid = true)
    (hclean : (s.robComplete l).exception = false)
    (hmem : s.isMemoryTag (s.robComplete l).robTag = true)
    (hload : s.isStoreTag (s.robComplete l).robTag = false)
    (hcacheable : addressIsMmio
      (s.accessOf (s.robComplete l).robTag).address = false) :
    s.Settled init h (s.robComplete l).robTag
        (s.accessOf (s.robComplete l).robTag).address
        (s.accessOf (s.robComplete l).robTag).memCtr
        (s.robComplete l).writebackData ∧
      ∀ inputs, (s.robComplete l).robTag ∈ (s.trace h inputs).1.rob.window →
        (s.trace h inputs).1.uidAt (s.robComplete l).robTag =
          s.uidAt (s.robComplete l).robTag →
        (s.trace h inputs).1.Settled init (s.trace h inputs).2
          (s.robComplete l).robTag
          (s.accessOf (s.robComplete l).robTag).address
          (s.accessOf (s.robComplete l).robTag).memCtr
          (s.robComplete l).writebackData := by
  have ht := hr.traced
  have hlsu := ht.reachable.integerUnits.complete_lsu hvalid hmem
  have hset := hr.loadsSettled.completed _ hlsu hclean hload
  refine ⟨hset.settled hcacheable, ?_⟩
  intro inputs hlive huid
  obtain ⟨hset', haddress, haccess⟩ := hset.trace ht inputs hlive huid
  have hsettled := hset'.settled (by rw [haddress]; exact hcacheable)
  rw [haddress, haccess] at hsettled
  exact hsettled

/-- A run in which the port does not respond. -/
theorem MemoryRun.quiet {p : Promises} (hr : MemoryRun init s h p)
    {inputs : List Inputs}
    (hquiet : ∀ i ∈ inputs, i.response.valid = false) :
    ∃ p', MemoryRun init (s.trace h inputs).1 (s.trace h inputs).2 p' := by
  induction inputs generalizing s h p with
  | nil => exact ⟨p, hr⟩
  | cons i rest ih =>
      have ha : s.Answered i p := by
        intro hvalid
        rw [hquiet i List.mem_cons_self] at hvalid
        cases hvalid
      apply ih (hr.step i ha)
      intro i' hi'
      exact hquiet i' (List.mem_cons_of_mem _ hi')

/-- A word store to address 0 and the load behind it: dispatched together, then
issued one after the other; the port is never asked. -/
def forwardedLoad : List Inputs :=
  [offerPair 0x00002023 0x00002103, offerPair 0 0, offerPair 0 0]

theorem load_value_forwardedLoad :
    ((reset.trace {} forwardedLoad).1.robComplete 0).writebackData = 0 ∧
      (reset.trace {} forwardedLoad).1.Settled (fun _ => 0xff)
        (reset.trace {} forwardedLoad).2 1 0 .word 0 := by
  have hstart : MemoryRun (fun _ => 0xff) reset {} fun _ => none :=
    MemoryRun.reset
  have hquiet : ∀ i ∈ forwardedLoad, i.response.valid = false := by decide
  obtain ⟨p, hr⟩ := hstart.quiet hquiet
  have htag : ((reset.trace {} forwardedLoad).1.robComplete 0).robTag = 1 := by
    decide +kernel
  have hdata : ((reset.trace {} forwardedLoad).1.robComplete
      0).writebackData = 0 := by decide +kernel
  have haddress : ((reset.trace {} forwardedLoad).1.accessOf 1).address =
      0 := by decide +kernel
  have haccess : ((reset.trace {} forwardedLoad).1.accessOf 1).memCtr =
      .word := by decide +kernel
  have hvalue := hr.load_value (l := 0) (by decide +kernel)
    (by decide +kernel) (by rw [htag]; decide +kernel)
    (by rw [htag]; decide +kernel) (by rw [htag, haddress]; decide)
  rw [htag, haddress, haccess, hdata] at hvalue
  exact ⟨hdata, hvalue.1⟩

end Loads

end Backend

end OoOCore
