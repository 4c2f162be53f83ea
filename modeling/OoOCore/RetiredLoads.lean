/-
Runs against a memory port that behaves as a memory on some of the addresses,
and what the retired loads of these addresses returned: the bytes that the
stores retired before them leave.
-/
import OoOCore.RetiredMemory

namespace OoOCore

open Rv32

namespace Backend

section Port

/-- What a port that serves the `covered` addresses owes once it has accepted a
request. -/
def owesCovered (covered : Word → Bool) (init : Word → BitVec 8)
    (accepted : List StoreRequest) (p : Promises) :
    Option MemoryRequest → Promises
  | some (.load tag address access) =>
      Function.update p tag
        (if covered address then
          some (loadValue
            (Overwrite.after init (accepted.map StoreRequest.byte))
            address access)
        else none)
  | _ => p

/-- What that port owes after a cycle. -/
def promiseCovered (covered : Word → Bool) (s : Backend) (i : Inputs)
    (init : Word → BitVec 8) (h : History) (p : Promises) : Promises :=
  if i.memoryRequestReady then
    owesCovered covered init h.accepted p (s.memoryRequest i)
  else p

/-- The runs against a memory port that starts with the bytes `init` and
behaves as a memory on the covered addresses. -/
inductive PortRun (covered : Word → Bool) (init : Word → BitVec 8) :
    Backend → History → Promises → Prop
  | reset : PortRun covered init reset {} fun _ => none
  | step {s : Backend} {h : History} {p : Promises}
      (hr : PortRun covered init s h p) (i : Inputs) (ha : s.Answered i p) :
      PortRun covered init (s.step i) (s.observe i h)
        (s.promiseCovered covered i init h p)

variable {covered : Word → Bool} {init : Word → BitVec 8} {s : Backend}
  {i : Inputs} {h : History} {p : Promises}

theorem PortRun.traced (hr : PortRun covered init s h p) : s.Traced h := by
  induction hr with
  | reset => exact Traced.reset
  | step _ i _ ih => exact ih.step i

/-- A port that serves every cacheable address serves these. -/
theorem MemoryRun.portRun (hr : MemoryRun init s h p) :
    PortRun (fun a => !addressIsMmio a) init s h p := by
  induction hr with
  | reset => exact PortRun.reset
  | @step s h p hr i ha ih =>
      have hpromise : s.promiseCovered (fun a => !addressIsMmio a) i init h p =
          s.promise i init h p := by
        rw [promiseCovered, promise]
        split
        · cases s.memoryRequest i with
          | none => rfl
          | some request =>
              cases request with
              | store r => rfl
              | load tag address access =>
                  rw [owesCovered, owes]
                  by_cases hmmio : addressIsMmio address = true
                  · simp [hmmio]
                  · simp [hmmio]
        · rfl
      rw [← hpromise]
      exact ih.step i ha

theorem promiseCovered_pending {tag : RobTag}
    (hpending : s.exec.memory.pendingValid tag = true) :
    s.promiseCovered covered i init h p tag = p tag := by
  rw [promiseCovered]
  split
  · cases hreq : s.memoryRequest i with
    | none => rfl
    | some request =>
        cases request with
        | store r => rfl
        | load tag' address access =>
            have hfree := accepted_free hreq
            have hne : tag ≠ tag' := by
              rintro rfl
              rw [hpending] at hfree
              cases hfree
            exact Function.update_of_ne hne _ _
  · rfl

end Port

section Loads

variable {covered : Word → Bool} {init : Word → BitVec 8} {s : Backend}
  {i : Inputs} {h : History} {p : Promises}

/-- The memory operation at the tag has its address, and if that is covered the
value is settled. -/
structure SettledOn (covered : Word → Bool) (init : Word → BitVec 8)
    (s : Backend) (h : History) (tag : RobTag) (value : Word) : Prop where
  live : tag ∈ s.rob.window
  memory : s.isMemoryTag tag = true
  ready : (s.accessOf tag).addressReady = true
  settled : covered (s.accessOf tag).address = true →
    s.Settled init h tag (s.accessOf tag).address (s.accessOf tag).memCtr
      value

theorem SettledOn.step {tag : RobTag} {value : Word}
    (hset : SettledOn covered init s h tag value) (hreach : s.Reachable)
    (htrap : s.trapValid i = false) (hnew : tag ∈ (s.step i).rob.window) :
    SettledOn covered init (s.step i) (s.observe i h) tag value ∧
      ((s.step i).accessOf tag).address = (s.accessOf tag).address := by
  have hs := hreach.inFlight.robReady (i := i)
  have hc := hreach.countable
  have hm := hreach.memoryOrder
  obtain ⟨hwindow, hwindow', hslot⟩ :=
    hm.slot_step hs hc htrap hset.live hnew hset.memory
  obtain ⟨hready, haddress, haccess, -⟩ :=
    hreach.memoryEntries.step_known hm hs htrap hwindow hwindow' hset.ready
  have hentry : (s.step i).accessOf tag =
      (s.step i).lsq.entries (s.rob.entries tag).lsqTag := by
    rw [accessOf, hslot]
  rw [← hentry] at hready haddress haccess
  refine ⟨⟨hnew, ?_, hready, ?_⟩, haddress⟩
  · rw [hs.step_isMemory hc htrap hset.live hnew]
    exact hset.memory
  · intro hcovered
    rw [haddress] at hcovered ⊢
    rw [haccess]
    exact (hset.settled hcovered).step hreach.memoryEntries hm hs hc htrap
      hset.live hnew

/-- An issued load with a settled value is settled one cycle later. -/
theorem Settled.issuedOn (hreach : s.Reachable)
    (htrap : s.trapValid i = false)
    (hport : (s.lsqUpdate i).addressValid = true)
    (hcandidate : s.candidate0IsMemory = true) {value : Word}
    (hset : s.Settled init h (s.issueUop 0).robTag s.lsuAddress
      s.lsuMemoryAccess value)
    (hnew : (s.issueUop 0).robTag ∈ (s.step i).rob.window) :
    SettledOn covered init (s.step i) (s.observe i h) (s.issueUop 0).robTag
      value := by
  have hs := hreach.inFlight
  have hc := hreach.countable
  obtain ⟨hlive, hmem, -⟩ := hs.candidate_entry hcandidate
  obtain ⟨hready, haddress, haccess⟩ := issued_access hreach htrap hport hnew
  refine ⟨hnew, ?_, hready, ?_⟩
  · rw [hs.robReady.step_isMemory hc htrap hlive hnew]
    exact hmem
  · intro _
    rw [haddress, haccess]
    exact hset.step hreach.memoryEntries hreach.memoryOrder hs.robReady hc
      htrap hlive hnew

/-- Loads of covered addresses: a pending slot is going to receive the settled
value, the completion register of the LSU holds it, and so does what a live
load wrote back. -/
structure LoadsCovered (covered : Word → Bool) (init : Word → BitVec 8)
    (s : Backend) (h : History) (p : Promises) : Prop where
  pending : ∀ tag held, s.heldAt (.pending tag) = some held →
    ∃ value, SettledOn covered init s h tag value ∧
      (covered (s.accessOf tag).address = true → p tag = some value)
  completed : ∀ c, s.completionAt .lsu = some c → c.exception = false →
    s.isStoreTag c.robTag = false →
      SettledOn covered init s h c.robTag c.writebackData
  written : ∀ tag ∈ s.rob.window, s.isMemoryTag tag = true →
    s.isStoreTag tag = false → (s.rob.entries tag).complete = true →
    (s.rob.entries tag).exception = false →
      ∀ value, h.result (s.uidAt tag) = some value →
        SettledOn covered init s h tag value

theorem LoadsCovered.step_pending (hl : LoadsCovered covered init s h p)
    (ht : s.Traced h) (htrap : s.trapValid i = false) {tag : RobTag}
    {held : Held}
    (hheld : (s.step i).heldAt (.pending tag) = some held) :
    ∃ value, SettledOn covered init (s.step i) (s.observe i h) tag value ∧
      (covered ((s.step i).accessOf tag).address = true →
        s.promiseCovered covered i init h p tag = some value) := by
  have hreach := ht.reachable
  have hs' := (hreach.step i).inFlight
  have hnew : tag ∈ (s.step i).rob.window := by
    rw [← pending_robTag hheld]
    exact hs'.live _ _ hheld
  rcases pending_cases hheld with ⟨hstart, rfl, -⟩ | ⟨hold, -, -⟩
  · -- The port has just accepted the load.
    obtain ⟨hfire, hnormal, -⟩ := startsLoad_pending hstart
    simp only [LoadStoreExecutionUnit.normalCacheLoad, Bool.and_eq_true,
      Bool.not_eq_true'] at hnormal
    obtain ⟨⟨⟨hclass, hforward⟩, haligned⟩, hdecoded⟩ := hnormal
    obtain ⟨hport, hcandidate, hload, hready⟩ :=
      issued_load hfire hclass haligned hdecoded
    have hset := memory_settled ht hcandidate hload hready haligned hforward
      init
    refine ⟨_, hset.issuedOn hreach htrap hport hcandidate hnew, ?_⟩
    intro hcovered
    rw [(issued_access hreach htrap hport hnew).2.1] at hcovered
    obtain ⟨hack, hreq⟩ := startsLoad_accepted hstart
    rw [promiseCovered, hack, if_pos rfl, hreq, owesCovered,
      Function.update_self, hcovered, if_pos rfl]
  · obtain ⟨value, hset, hpromise⟩ := hl.pending tag held hold
    obtain ⟨hset', haddress⟩ := hset.step hreach htrap hnew
    refine ⟨value, hset', ?_⟩
    intro hcovered
    rw [haddress] at hcovered
    rw [promiseCovered_pending (pending_valid hold)]
    exact hpromise hcovered

theorem LoadsCovered.step_completed (hl : LoadsCovered covered init s h p)
    (ht : s.Traced h) (ha : s.Answered i p) (htrap : s.trapValid i = false)
    {c : Completion} (hlsu : (s.step i).completionAt .lsu = some c)
    (hclean : c.exception = false)
    (hkind : (s.step i).isStoreTag c.robTag = false) :
    SettledOn covered init (s.step i) (s.observe i h) c.robTag
      c.writebackData := by
  have hreach := ht.reachable
  have hs := hreach.inFlight
  have hnew : c.robTag ∈ (s.step i).rob.window :=
    (hreach.step i).inFlight.live _ _ (completionAt_held hlsu)
  obtain ⟨hvis, rfl⟩ := completionAt_lsu hlsu
  rcases lsu_cases htrap hvis with ⟨hlocal, heq⟩ | ⟨hresp, hpending, heq⟩
  · -- The LSQ forwards.
    rw [heq] at hclean hkind hnew ⊢
    simp only [LoadStoreExecutionUnit.completesLocally, Bool.and_eq_true,
      Bool.not_eq_true'] at hlocal
    obtain ⟨⟨hfire, -⟩, hnormal⟩ := hlocal
    change ((s.issueUop 0).decodeException ||
      LoadStoreExecutionUnit.addressMisaligned (s.lsuInputs i)) = false
        at hclean
    rw [Bool.or_eq_false_iff] at hclean
    have hclass := lsu_load_class hs hreach.countable htrap hfire hnew hkind
    obtain ⟨hport, hcandidate, hload, hready⟩ :=
      issued_load hfire hclass hclean.2 hclean.1
    have hforward : s.lsqQuery.forwardValid = true := by
      by_contra hno
      rw [Bool.not_eq_true] at hno
      change (LoadStoreExecutionUnit.selectedIsLoad (s.issueUop 0) &&
        !s.lsqQuery.forwardValid &&
        !LoadStoreExecutionUnit.addressMisaligned (s.lsuInputs i) &&
        !(s.issueUop 0).decodeException) = false at hnormal
      rw [hclass, hno, hclean.1, hclean.2] at hnormal
      cases hnormal
    exact (forward_settled hreach hcandidate hload hready hclean.2 hforward
      init h).issuedOn hreach htrap hport hcandidate hnew
  · rw [heq] at hnew ⊢
    obtain ⟨value, hset, hpromise⟩ := hl.pending i.response.id _ hpending
    obtain ⟨hset', haddress⟩ := hset.step hreach htrap hnew
    refine ⟨hset'.live, hset'.memory, hset'.ready, ?_⟩
    intro hcovered
    have hdata : i.response.data = value := by
      apply ha hresp (pending_valid hpending)
      apply hpromise
      rw [← haddress]
      exact hcovered
    have hsettled := hset'.settled hcovered
    rw [← hdata] at hsettled
    exact hsettled

theorem LoadsCovered.step_written (hl : LoadsCovered covered init s h p)
    (ht : s.Traced h) (htrap : s.trapValid i = false) {tag : RobTag}
    (hnew : tag ∈ (s.step i).rob.window)
    (hmemory : (s.step i).isMemoryTag tag = true)
    (hkind : (s.step i).isStoreTag tag = false)
    (hdone : ((s.step i).rob.entries tag).complete = true)
    (hclean : ((s.step i).rob.entries tag).exception = false) {value : Word}
    (hresult : (s.observe i h).result ((s.step i).uidAt tag) = some value) :
    SettledOn covered init (s.step i) (s.observe i h) tag value := by
  have hreach := ht.reachable
  have hs := hreach.inFlight
  have hc := hreach.countable
  have hready : s.RobReady i := hs.robReady
  by_cases hold : tag ∈ s.rob.window
  · rw [hready.step_isMemory hc htrap hold hnew] at hmemory
    rw [hready.step_isStoreTag hc htrap hold hnew] at hkind
    rw [uidAt, hready.step_uid hc htrap hold hnew] at hresult
    change (s.written (s.uidAt tag)).or (h.result (s.uidAt tag)) = some value
      at hresult
    have hlsu : ∀ l, (s.robComplete l).valid = true →
        (s.robComplete l).robTag = tag →
          s.completionAt .lsu = some (s.robComplete l) := by
      intro l hvalid hltag
      exact hreach.integerUnits.complete_lsu hvalid
        (by rw [hltag]; exact hmemory)
    rw [Option.or_eq_some_iff] at hresult
    rcases hresult with hnow | ⟨hquiet, hbefore⟩
    · -- The load completes in this cycle, so the entry has its fault.
      obtain ⟨l, hlane⟩ := written_source hnow
      obtain ⟨hvalid, howner, huid⟩ := hreach.laneResult_source hlane
      have hltag : (s.robComplete l).robTag = tag :=
        hreach.uidOrder.injective _ howner _ hold huid
      have hplace := hlsu l hvalid hltag
      rcases hready.step_fault hc htrap hold hnew with
        ⟨l', hvalid', hltag', hfault⟩ | ⟨hnone, -⟩
      · have hsame := (hlsu l' hvalid' hltag').symm.trans hplace
        rw [Option.some.inj hsame, RobEntry.fault_eq_none.mpr hclean] at hfault
        have hset := hl.completed _ hplace
          (Completion.fault_eq_none.mp hfault.symm) (by rw [hltag]; exact hkind)
        rw [laneResult] at hlane
        split at hlane
        · have hdata : (s.robComplete l).writebackData = value :=
            Option.some.inj hlane
          rw [hltag, hdata] at hset
          exact (hset.step hreach htrap hnew).1
        · cases hlane
      · exact absurd ⟨hvalid, hltag⟩ (hnone l)
    · -- What has written back has completed.
      have hcomplete : (s.rob.entries tag).complete = true := by
        by_contra hopen
        rw [Bool.not_eq_true] at hopen
        obtain ⟨q, g, hheld, hgtag⟩ := hs.held tag hold hopen
        rw [← hgtag, ht.unwritten.held _ _ hheld] at hbefore
        cases hbefore
      have hfault : (s.rob.entries tag).exception = false := by
        rcases hready.step_fault hc htrap hold hnew with
          ⟨l, hvalid, hltag, -⟩ | ⟨-, hkept⟩
        · have hheld := completionAt_held (hlsu l hvalid hltag)
          have hfree := ht.unwritten.held _ _ hheld
          change h.result (s.uidAt (s.robComplete l).robTag) = none at hfree
          rw [hltag, hbefore] at hfree
          cases hfree
        · rw [← RobEntry.fault_eq_none, ← hkept, RobEntry.fault_eq_none]
          exact hclean
      exact ((hl.written tag hold hmemory hkind hcomplete hfault value
        hbefore).step hreach htrap hnew).1
  · obtain ⟨hrec, l, hlane, rfl⟩ := hready.step_new hc hold hnew
    rw [(hready.step_dispatched hc htrap hrec hlane).2.2] at hdone
    cases hdone

theorem PortRun.loadsCovered (hr : PortRun covered init s h p) :
    LoadsCovered covered init s h p := by
  induction hr with
  | reset =>
      constructor
      · intro tag held hheld
        rw [reset_heldAt] at hheld
        cases hheld
      · intro c hc
        have hheld := completionAt_held hc
        rw [reset_heldAt] at hheld
        cases hheld
      · intro tag hlive
        cases hlive
  | @step s h p hr i ha ih =>
      have ht := hr.traced
      constructor
      · intro tag held hheld
        exact ih.step_pending ht (not_trap_of_held hheld) hheld
      · intro c hc hclean hkind
        exact ih.step_completed ht ha
          (not_trap_of_held (completionAt_held hc)) hc hclean hkind
      · intro tag hnew hmemory hkind hdone hclean value hresult
        exact ih.step_written ht (not_trap_of_live hnew) hnew hmemory hkind
          hdone hclean hresult

/-- A complete memory operation has written back. -/
theorem Reachable.written_complete (hreach : s.Reachable) {tag : RobTag}
    (hlive : tag ∈ s.rob.window) (hmemory : s.isMemoryTag tag = true)
    (hdone : (s.rob.entries tag).complete = true) :
    s.written (s.uidAt tag) = none := by
  by_contra hsome
  obtain ⟨value, hvalue⟩ := Option.ne_none_iff_exists'.mp hsome
  obtain ⟨l, hlane⟩ := written_source hvalue
  obtain ⟨hvalid, howner, huid⟩ := hreach.laneResult_source hlane
  have htag : (s.robComplete l).robTag = tag :=
    hreach.uidOrder.injective _ howner _ hlive huid
  have hlsu := hreach.integerUnits.complete_lsu hvalid
    (by rw [htag]; exact hmemory)
  obtain ⟨hplace, -⟩ := hreach.inFlight.incomplete .lsu _
    (completionAt_held hlsu) (by
      change (s.rob.entries (s.robComplete l).robTag).complete = true
      rw [htag]
      exact hdone)
  cases hplace

/-- The memory that some retired instructions leave. -/
def memoryAfter (init : Word → BitVec 8) (retired : List Retired) :
    Word → BitVec 8 :=
  Overwrite.after init
    ((retired.filterMap Retired.store).map StoreRequest.byte)

/-- A retired load of a covered address returned the bytes that the stores
retired before it leave. -/
structure LoadedFrom (covered : Word → Bool) (init : Word → BitVec 8)
    (h : History) (older : List Retired) (r : Retired) (base : Word) :
    Prop where
  accessed : AccessedFrom h older r base
  value : r.entry.isStore = false →
    covered (base + (decoder r.entry.origin.insn).immediate) = true →
      ∀ value, h.result r.entry.origin.uid = some value →
        value = loadValue (memoryAfter init older)
          (base + (decoder r.entry.origin.insn).immediate)
          (decoder r.entry.origin.insn).memCtr

theorem PortRun.loadedFrom_retiring (hr : PortRun covered init s h p)
    {older younger : List RobTag} {tag : RobTag}
    (hwindow : s.rob.window = older ++ tag :: younger)
    (htag : tag ∈ s.rob.window.take (s.retireCount i))
    (hmemory : s.isMemoryTag tag = true) :
    ∃ base, LoadedFrom covered init (s.observe i h)
      (h.retired ++ older.map fun t => s.retire (s.rob.entries t))
      (s.retire (s.rob.entries tag)) base := by
  have ht := hr.traced
  have hs := ht.reachable.inFlight
  have hm := ht.reachable.memoryOrder
  have hlive := List.mem_of_mem_take htag
  obtain ⟨hdone, hclean⟩ := retired_complete htag
  obtain ⟨base, hbase⟩ := ht.accessedFrom_retiring hwindow htag hmemory
  refine ⟨base, hbase, ?_⟩
  intro hkind hcovered value hresult
  have hstore : s.isStoreTag tag = false := by
    rw [isStoreTag, show (s.rob.entries tag).isStore = false from hkind,
      Bool.and_false]
  have hbefore : h.result (s.uidAt tag) = some value := by
    change (s.written (s.uidAt tag)).or (h.result (s.uidAt tag)) =
      some value at hresult
    rw [ht.reachable.written_complete hlive hmemory hdone] at hresult
    exact hresult
  have hset := hr.loadsCovered.written tag hlive hmemory hstore hdone hclean
    value hbefore
  -- The address in the LSQ is the one of the base.
  obtain ⟨base', ha⟩ := ht.accessesLive tag hlive hmemory
    (hs.not_waiting hdone)
  have hfault : s.faultAt tag base' = none := by
    rw [← ha.fault hdone]
    exact RobEntry.fault_eq_none.mpr hclean
  have hsource := ht.produced_kept (i := i) ha.source
  rw [producerOf_retiring hs.rob hwindow] at hsource
  have hsame : base' = base := Produced.unique hsource hbase.source
  subst hsame
  obtain ⟨hslot, howner⟩ := hm.slot_of_live hlive hmemory
  have haccess : (s.accessOf tag).memCtr = (s.decodedAt tag).memCtr := by
    have hpaired := hm.paired _ hslot
    rw [howner] at hpaired
    exact hpaired.decoded.1
  have haddress := (ha.known hfault).2
  have hsettled := (hset.settled (by rw [haddress]; exact hcovered)).value
  rw [haddress, haccess, memoryBefore, olderThan_eq hs.rob hwindow]
    at hsettled
  rw [hsettled, memoryAfter, List.filterMap_append, List.filterMap_map]
  rfl

/-- Every retired load of a covered address returned what program order asks. -/
theorem PortRun.loadedFrom (hr : PortRun covered init s h p)
    {older younger : List Retired} {r : Retired}
    (hsplit : h.retired = older ++ r :: younger)
    (hmemory : r.entry.isMemory = true) :
    ∃ base, LoadedFrom covered init h older r base := by
  induction hr generalizing older younger r with
  | reset => exact absurd hsplit (by simp)
  | @step s h p hr i ha ih =>
      have ht := hr.traced
      rcases retired_split hsplit with
        ⟨rest, hold⟩ | ⟨before, tag, behind, hwindow, htag, rfl, rfl⟩
      · obtain ⟨base, hl⟩ := ih hold hmemory
        obtain ⟨base', hbase⟩ := (ht.step i).accessedFrom hsplit hmemory
        have hsame : base' = base :=
          Produced.unique hbase.source (ht.produced_kept hl.accessed.source)
        subst hsame
        refine ⟨base', hbase, ?_⟩
        intro hkind hcovered value hresult
        have hr' : r ∈ h.retired := by
          rw [hold]
          exact List.mem_append_right _ List.mem_cons_self
        rw [ht.result_final hr'] at hresult
        exact hl.value hkind hcovered value hresult
      · exact hr.loadedFrom_retiring hwindow htag hmemory

end Loads

end Backend

end OoOCore
