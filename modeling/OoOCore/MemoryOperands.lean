/-
Memory operations: an access goes to the address that its base register and its
immediate name, where the base is what the program-order producer of the
register wrote back, and it faults exactly when this address or its encoding
does.
-/
import OoOCore.Dataflow
import OoOCore.LoadValues

namespace OoOCore

/-- The fault of a memory instruction that names an address. -/
def Decoded.accessFault (d : Decoded) (address : Word) :
    Option (Cause × Word) :=
  if d.decodeException then some (d.decodeExceptionCause, d.exceptionValue)
  else if LoadStoreExecutionUnit.misaligned d.memCtr address then
    some (if d.dataWriteEnable then excStoreAddrMisaligned
      else excLoadAddrMisaligned, address)
  else none

theorem Decoded.accessFault_eq_none {d : Decoded} {address : Word} :
    d.accessFault address = none ↔ d.decodeException = false ∧
      LoadStoreExecutionUnit.misaligned d.memCtr address = false := by
  rw [accessFault]
  cases d.decodeException <;>
    cases LoadStoreExecutionUnit.misaligned d.memCtr address <;> simp

/-- A memory instruction reads its base register. -/
theorem decoder_memory_useRs1 {insn : Word}
    (h : ((decoder insn).dataWriteEnable ||
      (decoder insn).wbSelect == .mem) = true) :
    (decoder insn).useRs1 = true := by
  have harm := decoder_arm insn
  generalize decoder insn = d at harm h ⊢
  cases harm with
  | op | opImm | load | store | branch => rfl
  | jal | lui | auipc | fence | other => cases h
  | jalr =>
      unfold decodeJalr at h
      split at h <;> cases h
  | system =>
      unfold decodeSystem decodePrivileged at h
      repeat' split at h
      all_goals cases h

/-- The uop carries the access of a decoded memory instruction. -/
structure Uop.Accesses (u : Uop) (d : Decoded) : Prop where
  useRs1 : u.useRs1 = d.useRs1
  immediate : u.immediate = d.immediate
  memCtr : u.memCtr = d.memCtr
  dataWriteEnable : u.dataWriteEnable = d.dataWriteEnable
  decodeException : u.decodeException = d.decodeException
  cause : u.decodeExceptionCause = d.decodeExceptionCause
  value : u.exceptionValue = d.exceptionValue

theorem Uop.Paired.accesses {u : Uop} {e : RobEntry} (h : u.Paired e) :
    u.Accesses (decoder e.origin.insn) := by
  obtain ⟨packet, ctx, r1, r2, rfl, he, -⟩ := h
  have horigin := congrArg RobEntry.origin he
  change e.origin = ⟨ctx.uid, packet.insn⟩ at horigin
  rw [horigin]
  exact ⟨rfl, rfl, rfl, rfl, rfl, rfl, rfl⟩

/-- A memory uop reads its base register. -/
theorem Uop.Paired.memory_useRs1 {u : Uop} {e : RobEntry} (h : u.Paired e)
    (hclass : u.fuClass = .memory) : u.useRs1 = true := by
  obtain ⟨packet, ctx, r1, r2, rfl, -, -⟩ := h
  have hmemory : (RenameStage.fuClassOf (idStage packet) == .memory) =
      true := beq_iff_eq.mpr hclass
  rw [fuClassOf_memory] at hmemory
  exact decoder_memory_useRs1 hmemory

namespace LoadStoreExecutionUnit

variable {x : LsuInputs} {d : Decoded}

/-- The fault of what completes without the memory port. -/
theorem localCompletion_fault (hclass : x.uop.fuClass = .memory)
    (ha : x.uop.Accesses d) :
    (localCompletion x).fault = d.accessFault (x.sourceA + d.immediate) := by
  have haddress : address x = x.sourceA + d.immediate := by
    rw [address, ha.immediate]
  have hmisaligned : addressMisaligned x =
      misaligned d.memCtr (x.sourceA + d.immediate) := by
    rw [addressMisaligned, haddress, ha.memCtr]
  simp only [localCompletion, Completion.fault, Decoded.accessFault,
    selectedIsStore, hclass, ha.decodeException, ha.dataWriteEnable, ha.cause,
    ha.value, hmisaligned, haddress]
  cases d.decodeException <;>
    cases misaligned d.memCtr (x.sourceA + d.immediate) <;> simp

/-- A load that goes to the memory port has no fault. -/
theorem normalCacheLoad_fault (hnormal : normalCacheLoad x = true)
    (ha : x.uop.Accesses d) :
    d.accessFault (x.sourceA + d.immediate) = none := by
  simp only [normalCacheLoad, Bool.and_eq_true, Bool.not_eq_true'] at hnormal
  rw [Decoded.accessFault_eq_none, ← ha.decodeException, ← ha.memCtr,
    ← ha.immediate]
  exact ⟨hnormal.2, hnormal.1.2⟩

/-- An access without a fault reports its address. -/
theorem executeValid_of_clean {u : LoadStoreExecutionUnit}
    (hfire : u.issueFire x = true) (hclass : x.uop.fuClass = .memory)
    (ha : x.uop.Accesses d)
    (hclean : d.accessFault (x.sourceA + d.immediate) = none) :
    u.executeValid x = true := by
  rw [Decoded.accessFault_eq_none, ← ha.decodeException, ← ha.memCtr,
    ← ha.immediate] at hclean
  have haligned : addressMisaligned x = false := hclean.2
  simp only [executeValid, hfire, haligned, hclean.1, selectedIsLoad,
    selectedIsStore, hclass]
  cases x.uop.dataWriteEnable <;> rfl

end LoadStoreExecutionUnit

namespace Backend

/-- The decoded instruction of an entry. -/
def decodedAt (s : Backend) (tag : RobTag) : Decoded :=
  decoder (s.rob.entries tag).origin.insn

/-- The address of an access, given its base. -/
def target (s : Backend) (tag : RobTag) (base : Word) : Word :=
  base + (s.decodedAt tag).immediate

/-- The fault of an access, given its base. -/
def faultAt (s : Backend) (tag : RobTag) (base : Word) :
    Option (Cause × Word) :=
  (s.decodedAt tag).accessFault (s.target tag base)

/-- What the core keeps of the memory operation at a tag belongs to its
address. -/
structure Accessed (s : Backend) (h : History) (tag : RobTag)
    (base : Word) : Prop where
  source : Produced h.result base (s.producerOf h tag (s.decodedAt tag).rs1)
  known : s.faultAt tag base = none →
    (s.accessOf tag).addressReady = true ∧
      (s.accessOf tag).address = s.target tag base
  pending : ∀ held, s.heldAt (.pending tag) = some held →
    s.faultAt tag base = none
  completion : ∀ c, s.completionAt .lsu = some c → c.robTag = tag →
    c.fault = s.faultAt tag base
  fault : (s.rob.entries tag).complete = true →
    (s.rob.entries tag).fault = s.faultAt tag base

section Survivors

variable {s : Backend} {i : Inputs} {h : History} {tag : RobTag}

theorem RobReady.step_decodedAt (hs : s.RobReady i) (hc : s.Countable)
    (htrap : s.trapValid i = false) (hold : tag ∈ s.rob.window)
    (hnew : tag ∈ (s.step i).rob.window) :
    (s.step i).decodedAt tag = s.decodedAt tag := by
  have hframe := (hs.step_survivor hc htrap hold hnew).1
  have horigin := congrArg RobEntry.origin hframe
  change ((s.step i).rob.entries tag).origin =
    (s.rob.entries tag).origin at horigin
  rw [decodedAt, horigin, decodedAt]

theorem RobReady.step_target (hs : s.RobReady i) (hc : s.Countable)
    (htrap : s.trapValid i = false) (hold : tag ∈ s.rob.window)
    (hnew : tag ∈ (s.step i).rob.window) (base : Word) :
    (s.step i).target tag base = s.target tag base ∧
      (s.step i).faultAt tag base = s.faultAt tag base := by
  have hdecoded := hs.step_decodedAt hc htrap hold hnew
  have htarget : (s.step i).target tag base = s.target tag base := by
    rw [target, hdecoded, target]
  refine ⟨htarget, ?_⟩
  rw [faultAt, hdecoded, htarget, faultAt]

/-- The producer of the base register stays that of the instruction. -/
theorem Traced.step_base (ht : s.Traced h) (htrap : s.trapValid i = false)
    (hold : tag ∈ s.rob.window) (hnew : tag ∈ (s.step i).rob.window)
    {base : Word} (hbase : Produced (s.observe i h).result base
      (s.producerOf h tag (s.decodedAt tag).rs1)) :
    Produced (s.observe i h).result base
      ((s.step i).producerOf (s.observe i h) tag
        ((s.step i).decodedAt tag).rs1) := by
  have hs : s.RobReady i := ht.reachable.inFlight.robReady
  have hc := ht.reachable.countable
  rw [hs.step_producerOf hc htrap hold hnew,
    hs.step_decodedAt hc htrap hold hnew]
  exact hbase

/-- The memory uop that fires is the one at the head of port 0. -/
theorem lsu_fires (hready : s.issueReady i 0 = true)
    (hmem : s.candidate0IsMemory = true) :
    s.exec.memory.issueFire (s.lsuInputs i) = true := by
  rw [issueReady, hmem, if_pos rfl, Bool.and_eq_true, Bool.not_eq_true']
    at hready
  have hvalid : (s.lsuInputs i).issueValid = true := by
    change (s.candidate0IsMemory && !s.fallbackActive) = true
    rw [hmem, hready.1]
    rfl
  rw [LoadStoreExecutionUnit.issueFire, hvalid, hready.2]
  rfl

/-- Only what waits in the queue issues. -/
theorem issueFire_waiting
    (hfire : s.exec.memory.issueFire (s.lsuInputs i) = true) :
    s.Waiting (s.issueUop 0).robTag := by
  obtain ⟨j, hj, -⟩ := s.lsu_issueFire_source i hfire
  exact ⟨j, s.issueChoice_valid hj, (s.issueUop_robTag hj).symm⟩

end Survivors

section Leaving

variable {s : Backend} {i : Inputs} {h : History}

/-- A memory operation that leaves the queue has the address of its base. -/
theorem Traced.accessed_leaving (ht : s.Traced h)
    (htrap : s.trapValid i = false) {j : IqIndex} {q : Place}
    (hvalid : (s.iq.entries j).valid = true)
    (hmoves : s.moves i (.iq j) = some q) (hleaves : q ≠ .iq j)
    (hclass : (s.iq.entries j).fuClass = .memory)
    (hnew : (s.iq.entries j).robTag ∈ (s.step i).rob.window) :
    (s.step i).Accessed (s.observe i h) (s.iq.entries j).robTag
      (s.executeSourceA 0) := by
  have hreach := ht.reachable
  have hs := hreach.inFlight
  have hc := hreach.countable
  have hheld := s.heldAt_iq hvalid
  have hold : (s.iq.entries j).robTag ∈ s.rob.window := hs.live _ _ hheld
  obtain ⟨hj, hready, hmem⟩ : s.issueChoice 0 = some j ∧
      s.issueReady i 0 = true ∧ s.candidate0IsMemory = true := by
    rcases s.moves_iq_cases i hmoves with ⟨hj, hready, hmem, -⟩ |
      ⟨-, -, -, rfl⟩ | ⟨-, -, rfl⟩ | ⟨-, -, rfl⟩ | ⟨rfl, -⟩
    · exact ⟨hj, hready, hmem⟩
    · exact absurd hclass (moves_class (Or.inl hmoves))
    · exact absurd hclass (moves_class (Or.inr hmoves))
    · exact absurd hclass (moves_class (Or.inl hmoves))
    · exact absurd rfl hleaves
  have haccepts := Accepts.port (s := s) (i := i) 0 j hj hready
  obtain ⟨hpaired, htag, -⟩ := hs.accepts_entry haccepts
  change (s.issueUop 0).robTag = _ at htag
  have haccesses : (s.issueUop 0).Accesses
      (s.decodedAt (s.iq.entries j).robTag) := hpaired.accesses
  have hissueClass : (s.issueUop 0).fuClass = .memory := by
    rw [s.issueUop_of_choice hj]
    exact hclass
  have hfire := lsu_fires hready hmem
  obtain ⟨htarget, hfault⟩ :=
    hs.robReady.step_target hc htrap hold hnew (s.executeSourceA 0)
  have hlocal : (LoadStoreExecutionUnit.localCompletion
      (s.lsuInputs i)).fault =
        s.faultAt (s.iq.entries j).robTag (s.executeSourceA 0) := by
    rw [LoadStoreExecutionUnit.localCompletion_fault hissueClass haccesses]
    rfl
  -- The queue was the only place of the instruction.
  have hmoved : ∀ tag held, s.heldAt (.pending tag) = some held →
      tag ≠ (s.iq.entries j).robTag := by
    rintro _ held hpending rfl
    have hplace := hs.distinct _ _ _ _ hpending hheld (pending_robTag hpending)
    cases hplace
  have hopen := hs.incomplete_of_moves hheld hmoves
  constructor
  · apply ht.step_base htrap hold hnew
    apply ht.accepts_source1 haccepts
    exact hpaired.memory_useRs1 hissueClass
  · rw [hfault, htarget]
    intro hclean
    have hport := LoadStoreExecutionUnit.executeValid_of_clean hfire
      hissueClass haccesses hclean
    rw [← htag] at hnew ⊢
    obtain ⟨haddress, hvalue, -⟩ := issued_access hreach htrap hport hnew
    refine ⟨haddress, ?_⟩
    rw [hvalue, lsuAddress, haccesses.immediate, target, htag]
  · rw [hfault]
    intro held hpending
    rcases pending_cases hpending with ⟨hstart, -, -⟩ | ⟨hbefore, -, -⟩
    · have hnone := LoadStoreExecutionUnit.normalCacheLoad_fault
        (startsLoad_pending hstart).2.1 haccesses
      exact hnone
    · exact absurd rfl (hmoved _ held hbefore)
  · rw [hfault]
    intro c hcompletion hctag
    obtain ⟨hvis, rfl⟩ := completionAt_lsu hcompletion
    rcases lsu_cases htrap hvis with ⟨-, heq⟩ | ⟨-, hpending, heq⟩
    · rw [heq]
      exact hlocal
    · rw [heq] at hctag
      exact absurd hctag (hmoved _ _ hpending)
  · intro hdone
    rcases ((hs.robReady (i := i)).step_survivor hc htrap hold hnew).2.mp hdone
      with hbefore | hlane | ⟨hrec, hown⟩
    · exact absurd (hopen.symm.trans hbefore) Bool.false_ne_true
    · exact absurd hlane (hs.not_completed hheld hmoves)
    · obtain ⟨rfl, -⟩ := hs.resolves_moved hvalid hmoves
        (s.recovery_resolved i hrec) hown.symm
      exact absurd hclass (moves_class (Or.inr hmoves))

end Leaving

section Staying

variable {s : Backend} {i : Inputs} {h : History} {tag : RobTag}
  {base : Word}

/-- A memory operation past the queue keeps its address and its fault. -/
theorem Accessed.step (ha : s.Accessed h tag base) (ht : s.Traced h)
    (htrap : s.trapValid i = false) (hold : tag ∈ s.rob.window)
    (hnew : tag ∈ (s.step i).rob.window)
    (hmemory : s.isMemoryTag tag = true) (hleft : ¬ s.Waiting tag) :
    (s.step i).Accessed (s.observe i h) tag base := by
  have hreach := ht.reachable
  have hs := hreach.inFlight
  have hc := hreach.countable
  have hready : s.RobReady i := hs.robReady
  obtain ⟨htarget, hfault⟩ := hready.step_target hc htrap hold hnew base
  constructor
  · exact ht.step_base htrap hold hnew (ht.produced_kept ha.source)
  · rw [hfault, htarget]
    intro hclean
    obtain ⟨haddress, hvalue⟩ := ha.known hclean
    have hm := hreach.memoryOrder
    obtain ⟨hslot, hslot', hsame⟩ :=
      hm.slot_step hready hc htrap hold hnew hmemory
    obtain ⟨hready', hvalue', -⟩ := hreach.memoryEntries.step_known hm hready
      htrap hslot hslot' haddress
    rw [accessOf, hsame]
    exact ⟨hready', hvalue'.trans hvalue⟩
  · rw [hfault]
    intro held hpending
    rcases pending_cases hpending with ⟨hstart, rfl, -⟩ | ⟨hbefore, -, -⟩
    · exact absurd (issueFire_waiting (startsLoad_pending hstart).1) hleft
    · exact ha.pending held hbefore
  · rw [hfault]
    intro c hcompletion hctag
    obtain ⟨hvis, rfl⟩ := completionAt_lsu hcompletion
    rcases lsu_cases htrap hvis with ⟨hlocal, heq⟩ | ⟨-, hpending, heq⟩
    · rw [heq] at hctag
      simp only [LoadStoreExecutionUnit.completesLocally, Bool.and_eq_true]
        at hlocal
      have hwaits := issueFire_waiting hlocal.1.1
      rw [show (s.issueUop 0).robTag = tag from hctag] at hwaits
      exact absurd hwaits hleft
    · rw [heq] at hctag ⊢
      change i.response.id = tag at hctag
      rw [hctag] at hpending
      exact (ha.pending _ hpending).symm
  · rw [hfault]
    intro hdone
    rcases hready.step_fault hc htrap hold hnew with
      ⟨l, hvalid, hltag, hlane⟩ | ⟨hnone, hkept⟩
    · have hlsu := hreach.integerUnits.complete_lsu hvalid
        (by rw [hltag]; exact hmemory)
      rw [hlane]
      exact ha.completion _ hlsu hltag
    · rw [hkept]
      rcases (hready.step_survivor hc htrap hold hnew).2.mp hdone with
        hbefore | ⟨l, hl⟩ | ⟨hrec, hown⟩
      · exact ha.fault hbefore
      · exact absurd hl (hnone l)
      · exact absurd ⟨s.recovery_resolved i hrec, hown⟩
          (not_resolving hleft)

end Staying

section Runs

variable {s : Backend} {h : History}

/-- Every live memory operation past the queue has the address of its base. -/
def AccessesLive (s : Backend) (h : History) : Prop :=
  ∀ tag ∈ s.rob.window, s.isMemoryTag tag = true → ¬ s.Waiting tag →
    ∃ base, s.Accessed h tag base

theorem Traced.accessesLive (ht : s.Traced h) : s.AccessesLive h := by
  induction ht with
  | reset =>
      intro tag hlive
      cases hlive
  | @step s h ht i ih =>
      intro tag hnew hmemory hleft
      have hreach := ht.reachable
      have hs := hreach.inFlight
      have hc := hreach.countable
      have htrap := not_trap_of_live hnew
      by_cases hold : tag ∈ s.rob.window
      · rw [hs.robReady.step_isMemory hc htrap hold hnew] at hmemory
        by_cases hwait : s.Waiting tag
        · obtain ⟨j, hvalid, rfl⟩ := hwait
          obtain ⟨q, hmoves, hleaves⟩ := hs.leaves htrap hvalid hnew hleft
          have hclass : (s.iq.entries j).fuClass = .memory := by
            rw [isMemoryTag, (hs.paired j hvalid).memory.1] at hmemory
            exact beq_iff_eq.mp hmemory
          exact ⟨_, ht.accessed_leaving htrap hvalid hmoves hleaves hclass
            hnew⟩
        · obtain ⟨base, ha⟩ := ih tag hold hmemory hwait
          exact ⟨base, ha.step ht htrap hold hnew hmemory hwait⟩
      · exact absurd (hreach.waiting_new hold hnew) hleft

end Runs

end Backend

end OoOCore
