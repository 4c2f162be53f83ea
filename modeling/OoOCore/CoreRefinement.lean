/-
The whole core against the ISA.  In every run of the core the instructions it
retires and the traps it takes are those of the ISA's machine, started on the
same program and the same RAM, until the machine leaves the platform.
-/
import OoOCore.PortMemory
import OoOCore.RetiredRuns

namespace OoOCore

open Rv32

namespace Backend

variable {s : Backend} {i : Inputs} {h : History}

/-- The machine behind the retired instructions stays as the run goes on. -/
theorem Traced.machineAfter_kept (ht : s.Traced h) (init : Word → BitVec 8)
    (pc : Word) : (s.observe i h).machineAfter init h.retired pc =
      h.machineAfter init h.retired pc := by
  rw [History.machineAfter, History.machineAfter, History.registersAfter,
    foldl_write_congr fun r hr => ht.result_final hr]
  rfl

end Backend

namespace TopCpu

open FrontEnd (Feeds)

/-- What a cycle of the core shows: the instructions it retires, and a trap. -/
def labelsNow (c : TopCpu) (fromHost : Word) (h : History) : List Label :=
  Backend.labelsOf (c.backend.observe (c.inputs fromHost) h).result
      (c.backend.retiredNow (c.inputs fromHost)) ++
    if c.backend.trapValid (c.inputs fromHost) then
      [.traps (c.backend.trap (c.inputs fromHost)).pc
        (c.backend.trap (c.inputs fromHost)).cause
        (c.backend.trap (c.inputs fromHost)).value c.csrFile.trapVector]
    else []

/-- The states reached from reset, with the history of the backend and all that
the core has shown. -/
inductive Shown (b : Boot) : TopCpu → History → List Label → Prop
  | boot : Shown b (boot b) {} []
  | step {c : TopCpu} {h : History} {labels : List Label}
      (hs : Shown b c h labels) (fromHost : Word) :
      Shown b (c.step fromHost) (c.backend.observe (c.inputs fromHost) h)
        (labels ++ c.labelsNow fromHost h)

/-- The ISA's machine at the reset vector, over the data RAM. -/
def Boot.machine (b : Boot) : Machine where
  pc := resetVector
  regs := fun _ => 0
  mem := DataMem.bytes b.dataMem

/-- The core is abreast of the machine, which is at `pc`: the live instructions
lead from there to `next`, and the front end goes on from `next`. -/
structure Abreast (b : Boot) (c : TopCpu) (h : History) (labels : List Label)
    (pc next : Word) : Prop where
  runs : b.machine.Runs (platform b.mem) labels
    (h.machineAfter (DataMem.bytes b.dataMem) h.retired pc)
  port : ∃ p bank data t,
    Backend.PortRun inRam (DataMem.bytes b.dataMem) c.backend h p ∧
      Ported (DataMem.bytes b.dataMem) c h p bank data t
  path : ∃ o, Backend.OnPath b.mem c.backend o pc next
  feeds : Feeds b.mem c.front next
  low : ∀ r ∈ h.stores, r.address.toNat < 0x10000

section Steps

variable {b : Boot} {c : TopCpu} {h : History} {labels : List Label}
  {pc next fromHost : Word}

theorem Abreast.boot (b : Boot) :
    Abreast b (boot b) {} [] resetVector resetVector where
  runs := .start
  port := ⟨_, _, _, _, Backend.PortRun.reset, Ported.boot b⟩
  path := ⟨_, Backend.OnPath.reset b.mem resetVector⟩
  feeds := Feeds.boot b.toBoot
  low := fun _ hr => absurd hr List.not_mem_nil

theorem issues (c : TopCpu) (fromHost : Word) :
    FrontEnd.Issues c.front (c.frontInputs fromHost) :=
  .of_dispatch (s := c.backend) (x := c.inputs fromHost) rfl rfl

/-- What the backend takes from the front end is what it dispatches. -/
theorem issued_lanes (c : TopCpu) (fromHost : Word) :
    c.front.issued (c.frontInputs fromHost) =
      (c.backend.newLanes (c.inputs fromHost)).map
        (c.inputs fromHost).packet := by
  change (if c.backend.dispatchAccept (c.inputs fromHost) 0 then _ else _) ++
    (if c.backend.dispatchAccept (c.inputs fromHost) 1 then _ else _) = _
  rw [Backend.newLanes, List.filter_cons, List.filter_cons, List.filter_nil,
    Backend.robAllocValid_eq, Backend.robAllocValid_eq]
  cases c.backend.dispatchAccept (c.inputs fromHost) 0 <;>
    cases c.backend.dispatchAccept (c.inputs fromHost) 1 <;> rfl

/-- The front end is redirected by a trap and by a recovery. -/
theorem jump_enable (c : TopCpu) (fromHost : Word) :
    (FrontEnd.jump (c.frontInputs fromHost)).enable =
      (c.backend.trapValid (c.inputs fromHost) ||
        c.backend.recoveryValid (c.inputs fromHost)) := by
  have hresolved := c.backend.recovery_resolved (c.inputs fromHost)
  change (_ || ((c.backend.branch (c.inputs fromHost)).resolved &&
    c.backend.recoveryValid (c.inputs fromHost))) = _
  cases hrec : c.backend.recoveryValid (c.inputs fromHost) with
  | false =>
      rw [Bool.and_false]
      rfl
  | true =>
      rw [hresolved hrec, Bool.and_true]
      rfl

/-- Where the backend is led to by a cycle. -/
theorem leadsTo_eq (c : TopCpu) (fromHost : Word) (next : Word) :
    c.front.leadsTo (c.frontInputs fromHost) next =
      if c.backend.trapValid (c.inputs fromHost) then c.csrFile.trapVector
      else if c.backend.recoveryValid (c.inputs fromHost) then
        (c.backend.branch (c.inputs fromHost)).redirect
      else Link.endOf next ((c.backend.newLanes (c.inputs fromHost)).map
        fun l => ((c.inputs fromHost).packet l).link) := by
  rw [FrontEnd.leadsTo, jump_enable, issued_lanes, List.map_map]
  cases htrap : c.backend.trapValid (c.inputs fromHost) with
  | true =>
      change (if _ then (if c.backend.trapValid (c.inputs fromHost) then
        c.csrFile.trapVector else _) else _) = _
      rw [htrap, Bool.true_or, if_pos rfl, if_pos rfl, if_pos rfl]
  | false =>
      change (if _ then (if c.backend.trapValid (c.inputs fromHost) then _ else
        (c.backend.branch (c.inputs fromHost)).redirect) else _) = _
      rw [htrap, Bool.false_or, if_neg Bool.false_ne_true,
        if_neg Bool.false_ne_true]
      rfl

/-- A cycle retires along the path and dispatches behind it. -/
theorem Abreast.step_path (ha : Abreast b c h labels pc next)
    (fromHost : Word) :
    Link.Follows (InsnMem.Blank b.mem) pc
        ((c.backend.retiredNow (c.inputs fromHost)).map Retired.link) ∧
      ∃ o, Backend.OnPath b.mem (c.step fromHost).backend o
        (if c.backend.trapValid (c.inputs fromHost) then c.csrFile.trapVector
        else Link.endOf pc
          ((c.backend.retiredNow (c.inputs fromHost)).map Retired.link))
        (c.front.leadsTo (c.frontInputs fromHost) next) := by
  obtain ⟨p, bank, data, t, hport, -⟩ := ha.port
  obtain ⟨o, hpath⟩ := ha.path
  have ht := hport.traced
  rw [leadsTo_eq]
  cases htrap : c.backend.trapValid (c.inputs fromHost) with
  | true =>
      rw [Backend.retiredNow_of_squash (Or.inl htrap), if_pos rfl, if_pos rfl]
      exact ⟨trivial, _, hpath.step_trap ht.reachable htrap _⟩
  | false =>
      rw [if_neg Bool.false_ne_true, if_neg Bool.false_ne_true]
      cases hrec : c.backend.recoveryValid (c.inputs fromHost) with
      | true =>
          rw [Backend.retiredNow_of_squash (Or.inr hrec), if_pos rfl]
          exact ⟨trivial, _, hpath.step_recover ht.reachable htrap hrec⟩
      | false =>
          rw [if_neg Bool.false_ne_true]
          obtain ⟨hnew, hfetched⟩ := ha.feeds.issued_path (c.issues fromHost)
          rw [issued_lanes, List.map_map] at hnew
          obtain ⟨hretired, hstep⟩ := hpath.step_normal ht htrap hrec hnew (by
            intro l hl
            apply hfetched
            rw [issued_lanes]
            exact List.mem_map_of_mem ((Backend.mem_newLanes _ _).mpr hl))
          exact ⟨hretired, _, hstep⟩

/-- What retires was fetched from the program. -/
theorem Abreast.retired_fetched (ha : Abreast b c h labels pc next)
    {r : Retired} (hr : r ∈ c.backend.retiredNow (c.inputs fromHost)) :
    r.entry.Fetched b.mem := by
  obtain ⟨o, hpath⟩ := ha.path
  rw [Backend.retiredNow_eq] at hr
  obtain ⟨tag, htag, rfl⟩ := List.mem_map.mp hr
  exact hpath.fetched tag (List.mem_of_mem_take htag)

/-- A trap is a label of the machine, unless the machine leaves the platform
there. -/
theorem Abreast.trapped (ha : Abreast b c h labels pc next)
    (htrap : c.backend.trapValid (c.inputs fromHost) = true) (vector : Word) :
    b.machine.Runs (platform b.mem) (labels ++ [.traps
        (c.backend.trap (c.inputs fromHost)).pc
        (c.backend.trap (c.inputs fromHost)).cause
        (c.backend.trap (c.inputs fromHost)).value vector])
        (h.machineAfter (DataMem.bytes b.dataMem) h.retired vector) ∨
      b.machine.Departs (platform b.mem) labels := by
  obtain ⟨p, bank, data, t, hport, -⟩ := ha.port
  obtain ⟨o, hpath⟩ := ha.path
  obtain ⟨tag, younger, hwindow, -, hentry, -⟩ := Backend.trap_head_fault htrap
  by_cases hblank : InsnMem.Blank b.mem pc
  · exact Or.inr (ha.runs.departs (leaves_of_blank hblank))
  have hplace : (c.backend.trap (c.inputs fromHost)).pc = pc := by
    have hlinks := hpath.path
    rw [Backend.links, hwindow] at hlinks
    change (c.backend.rob.commitEntry 0).pc = pc
    rw [hentry]
    exact hlinks.1.resolve_right hblank
  have hword := (hpath.fetched tag (by
    rw [hwindow]
    exact List.mem_cons_self)).word
  rw [← hentry] at hword
  have htakes := hport.traced.trap_takes htrap (DataMem.bytes b.dataMem) vector
    hword.symm
  rw [hplace] at htakes ⊢
  exact Or.inl (ha.runs.snoc (decide_eq_true hblank) htakes)

/-- In every cycle the core stays abreast of the machine, unless the machine
leaves the platform. -/
theorem Abreast.step (ha : Abreast b c h labels pc next) :
    (∃ pc' next', Abreast b (c.step fromHost)
      (c.backend.observe (c.inputs fromHost) h)
      (labels ++ c.labelsNow fromHost h) pc' next') ∨
    b.machine.Departs (platform b.mem)
      (labels ++ c.labelsNow fromHost h) := by
  obtain ⟨p, bank, data, t, hport, hported⟩ := ha.port
  have ht := hport.traced
  have hport' := hport.step (c.inputs fromHost) (hported.answered ht.reachable)
  obtain ⟨hfollows, hpath⟩ := ha.step_path fromHost
  have hruns := ha.runs
  rw [← ht.machineAfter_kept (i := c.inputs fromHost)] at hruns
  have haccepted : ∀ r ∈ h.accepted, r.address.toNat < 0x10000 := by
    intro r hr
    apply ha.low
    rw [← ht.accepted_append]
    exact List.mem_append_left _ hr
  have hported' := hported.step fromHost ht.reachable haccepted
  have hfeeds := ha.feeds.step (c.issues fromHost)
  rw [labelsNow]
  cases htrap : c.backend.trapValid (c.inputs fromHost) with
  | true =>
      have hnone := Backend.retiredNow_of_squash (Or.inl htrap)
      rw [htrap, if_pos rfl] at hpath
      rw [hnone, if_pos rfl]
      rcases ha.trapped htrap c.csrFile.trapVector with hrun | hdeparts
      · left
        have hretired : (c.backend.observe (c.inputs fromHost) h).retired =
            h.retired := by
          change h.retired ++ c.backend.retiredNow (c.inputs fromHost) = _
          rw [hnone, List.append_nil]
        refine ⟨_, _, ?_, ⟨_, _, _, _, hport', hported'⟩, hpath, hfeeds, ?_⟩
        · rw [hretired, ht.machineAfter_kept]
          exact hrun
        · rw [History.stores, hretired]
          exact ha.low
      · right
        exact hdeparts.append _
  | false =>
      rw [htrap, if_neg Bool.false_ne_true] at hpath
      rw [if_neg Bool.false_ne_true, List.append_nil]
      have hsplit : (c.backend.observe (c.inputs fromHost) h).retired =
          h.retired ++ (c.backend.retiredNow (c.inputs fromHost) ++ []) := by
        rw [List.append_nil]
        rfl
      rcases hport'.retired_runs hsplit hruns hfollows
        (fun r hr => ha.retired_fetched hr) with
        ⟨hrun, hlow⟩ | hdeparts
      · left
        refine ⟨_, _, hrun, ⟨_, _, _, _, hport', hported'⟩, hpath, hfeeds, ?_⟩
        intro r hr
        rw [Backend.observe_stores, List.mem_append] at hr
        rcases hr with hold | hnew
        · exact ha.low r hold
        · obtain ⟨r', hr', hstore⟩ := List.mem_filterMap.mp hnew
          exact hlow r' hr' r hstore
      · right
        exact hdeparts

theorem Shown.abreast (hs : Shown b c h labels) :
    (∃ pc next, Abreast b c h labels pc next) ∨
      b.machine.Departs (platform b.mem) labels := by
  induction hs with
  | boot => exact Or.inl ⟨_, _, Abreast.boot b⟩
  | step hs fromHost ih =>
      rcases ih with ⟨pc, next, ha⟩ | hdeparts
      · exact ha.step
      · exact Or.inr (hdeparts.append _)

/-- Once every store has reached the data memory, the RAM holds what the
retired stores leave. -/
theorem Abreast.ram (ha : Abreast b c h labels pc next)
    (hbuffer : c.backend.storeBuffer.contents = [])
    (hcache : c.memStage.dataCache.idle = true) {a : Word}
    (hram : inRam a = true) : DataMem.bytes c.memStage.dataMem.mem a =
      Backend.memoryAfter (DataMem.bytes b.dataMem) h.retired a := by
  obtain ⟨p, bank, data, t, hport, hported⟩ := ha.port
  have haccepted := hport.traced.accepted_append
  rw [hbuffer, List.append_nil] at haccepted
  have hsent : t.sent = h.stores := by
    have hstores := hported.behind.coherent.ledger.stores
    have hnone : (c.memStage.dataCache.withData bank data).storing = false := by
      simp only [DataCache.idle, Bool.and_eq_true, Bool.not_eq_true'] at hcache
      change (c.memStage.dataCache.lookup.stageValid && _) = false
      rw [hcache.2, Bool.false_and]
    rw [hnone, if_neg Bool.false_ne_true, List.append_nil, hported.stores,
      haccepted] at hstores
    exact hstores.symm
  have hword : inRam (wordAddress (wordIndex a)) = true := by
    rw [inRam, decide_eq_true_eq] at hram ⊢
    rw [wordAddress, append_toNat, wordIndex_toNat]
    simp
    omega
  rw [DataMem.bytes, DataMem.wordAddr_eq, hported.behind.ram _ hword, hsent]
  exact laneByte_loadValue rfl

/-- The committed registers are the machine's, and the drained RAM is its
memory. -/
theorem Abreast.agrees (ha : Abreast b c h labels pc next) :
    (∀ r, c.backend.prf.registers
      (c.backend.rename.mapTable.committedMap r) =
        (h.machineAfter (DataMem.bytes b.dataMem) h.retired pc).regs r) ∧
      (c.backend.storeBuffer.contents = [] →
        c.memStage.dataCache.idle = true → ∀ a, inRam a = true →
          DataMem.bytes c.memStage.dataMem.mem a =
            (h.machineAfter (DataMem.bytes b.dataMem) h.retired pc).mem a) := by
  obtain ⟨p, bank, data, t, hport, -⟩ := ha.port
  refine ⟨hport.traced.valued.committed, ?_⟩
  intro hbuffer hcache a hram
  exact ha.ram hbuffer hcache hram

/-- The core refines the ISA.  In every run of the core, whatever the program,
the host and the power-on contents of its memories, the instructions retired
and the traps taken are a run of the ISA's machine, and they fix where it is.
The committed registers are the machine's, and so is the RAM once no store is
under way.  All this until the machine leaves the platform. -/
theorem Shown.refines (hs : Shown b c h labels) :
    (∃ m, b.machine.Runs (platform b.mem) labels m ∧
      (∀ m', b.machine.Runs (platform b.mem) labels m' → m' = m) ∧
      (∀ r, c.backend.prf.registers
        (c.backend.rename.mapTable.committedMap r) = m.regs r) ∧
      (c.backend.storeBuffer.contents = [] →
        c.memStage.dataCache.idle = true → ∀ a, inRam a = true →
          DataMem.bytes c.memStage.dataMem.mem a = m.mem a)) ∨
    b.machine.Departs (platform b.mem) labels := by
  rcases hs.abreast with ⟨pc, next, ha⟩ | hdeparts
  · exact Or.inl ⟨_, ha.runs, fun _ => ha.runs.unique, ha.agrees⟩
  · exact Or.inr hdeparts

/-- The core some cycles after reset, the host silent, with what it has shown. -/
def shownRun (b : Boot) : Nat → TopCpu × History × List Label
  | 0 => (boot b, {}, [])
  | n + 1 =>
      ((shownRun b n).1.step 0,
        (shownRun b n).1.backend.observe ((shownRun b n).1.inputs 0)
          (shownRun b n).2.1,
        (shownRun b n).2.2 ++ (shownRun b n).1.labelsNow 0 (shownRun b n).2.1)

theorem shown_shownRun (b : Boot) (n : Nat) :
    Shown b (shownRun b n).1 (shownRun b n).2.1 (shownRun b n).2.2 := by
  induction n with
  | zero => exact Shown.boot
  | succ n ih => exact ih.step 0

/-- `addi x1, x0, 5`, `sw x1, 0(x0)`, `lw x2, 0(x0)`, and then `ecall`. -/
def storeLoadCall : Boot := coldBoot fun a =>
  if a = 0 then 0x00500093 else if a = 1 then 0x00102023
  else if a = 2 then 0x00002103 else 0x00000073

/-- The load retires with the stored word, and the call traps. -/
theorem refines_storeLoadCall :
    (shownRun storeLoadCall 19).2.2 =
        [.performs ⟨0, some (1, 5), none⟩,
          .performs ⟨4, none, some ⟨.sw, 0, 5⟩⟩,
          .performs ⟨8, some (2, 5), none⟩,
          .traps 12 excEcallMmode 0 0] ∧
      ((∃ m, storeLoadCall.machine.Runs (platform storeLoadCall.mem)
          (shownRun storeLoadCall 19).2.2 m ∧
        (∀ m', storeLoadCall.machine.Runs (platform storeLoadCall.mem)
          (shownRun storeLoadCall 19).2.2 m' → m' = m) ∧
        (∀ r, (shownRun storeLoadCall 19).1.backend.prf.registers
          ((shownRun storeLoadCall 19).1.backend.rename.mapTable.committedMap
            r) = m.regs r) ∧
        ((shownRun storeLoadCall 19).1.backend.storeBuffer.contents = [] →
          (shownRun storeLoadCall 19).1.memStage.dataCache.idle = true →
          ∀ a, inRam a = true → DataMem.bytes
            (shownRun storeLoadCall 19).1.memStage.dataMem.mem a = m.mem a)) ∨
        storeLoadCall.machine.Departs (platform storeLoadCall.mem)
          (shownRun storeLoadCall 19).2.2) := by
  refine ⟨?_, (shown_shownRun storeLoadCall 19).refines⟩
  decide +kernel

/-- As far as both go, the core shows the events of the ISA's run. -/
theorem Shown.take_eq (hs : Shown b c h labels) {n : Nat}
    {events : List Event} {m : Machine}
    (hrun : b.machine.run (platform b.mem).toPlatform n = some (events, m)) :
    labels.take n = (events.map .performs).take labels.length := by
  rcases hs.abreast with ⟨pc, next, ha⟩ | hdeparts
  · exact ha.runs.agrees (platform_regular b.mem) hrun
  · exact hdeparts.agrees (platform_regular b.mem) hrun

/-- A program that runs in the plain memory runs on the core.  As far as both
go, the core shows the events of the ISA's run, whatever the predictions, the
caches and the host.  When it has shown them all, it has the registers of the
machine behind them, and the RAM once no store is under way. -/
theorem Shown.follows_program (hs : Shown b c h labels) {n : Nat}
    {events : List Event} {m : Machine}
    (hrun : b.machine.run (platform b.mem).toPlatform n = some (events, m)) :
    labels.take n = (events.map .performs).take labels.length ∧
      (labels.length = n → ¬ m.Leaves (platform b.mem) →
        (∀ r, c.backend.prf.registers
          (c.backend.rename.mapTable.committedMap r) = m.regs r) ∧
        (c.backend.storeBuffer.contents = [] →
          c.memStage.dataCache.idle = true → ∀ a, inRam a = true →
            DataMem.bytes c.memStage.dataMem.mem a = m.mem a)) := by
  have hregular := platform_regular b.mem
  refine ⟨hs.take_eq hrun, ?_⟩
  intro hlength hstays
  rcases hs.abreast with ⟨pc, next, ha⟩ | hdeparts
  · obtain ⟨es, hes, -⟩ :=
      ha.runs.along hregular hrun (Nat.le_of_eq hlength)
    rw [hlength, hrun] at hes
    cases hes
    exact ha.agrees
  · exact absurd (hdeparts.leaves hregular hrun hlength) hstays

/-- What `storeLoadCall` does up to the call. -/
def storeLoadEvents : List Event :=
  [⟨0, some (1, 5), none⟩, ⟨4, none, some ⟨.sw, 0, 5⟩⟩, ⟨8, some (2, 5), none⟩]

theorem follows_program_storeLoadCall :
    ∃ m, storeLoadCall.machine.run (platform storeLoadCall.mem).toPlatform 3 =
        some (storeLoadEvents, m) ∧
      (shownRun storeLoadCall 17).2.2 = storeLoadEvents.map .performs ∧
      (∀ r, (shownRun storeLoadCall 17).1.backend.prf.registers
        ((shownRun storeLoadCall 17).1.backend.rename.mapTable.committedMap
          r) = m.regs r) ∧
      ∀ a, inRam a = true → DataMem.bytes
        (shownRun storeLoadCall 17).1.memStage.dataMem.mem a = m.mem a := by
  have hevents : (storeLoadCall.machine.run
      (platform storeLoadCall.mem).toPlatform 3).map (fun r => (r.1, r.2.pc)) =
        some (storeLoadEvents, 12) := by
    decide +kernel
  obtain ⟨⟨es, m⟩, hrun, hpair⟩ := Option.map_eq_some_iff.mp hevents
  change (es, m.pc) = _ at hpair
  rw [Prod.mk.injEq] at hpair
  obtain ⟨rfl, hpc⟩ := hpair
  have hstays : ¬ m.Leaves (platform storeLoadCall.mem) := by
    have hcall : decode ((platform storeLoadCall.mem).fetch 12) =
        some .ecall := by
      decide
    rintro (hblank | ⟨i, hdecode, hstrays⟩)
    · rw [hpc] at hblank
      exact absurd hblank (by decide)
    · rw [hpc] at hdecode
      cases hcall.symm.trans hdecode
      exact hstrays
  have hstate : (shownRun storeLoadCall 17).2.2.length = 3 ∧
      (shownRun storeLoadCall 17).1.backend.storeBuffer.contents.isEmpty ∧
      (shownRun storeLoadCall 17).1.memStage.dataCache.idle = true := by
    decide +kernel
  obtain ⟨hlength, hbuffer, hcache⟩ := hstate
  obtain ⟨hagrees, hend⟩ :=
    (shown_shownRun storeLoadCall 17).follows_program hrun
  obtain ⟨hregs, hram⟩ := hend hlength hstays
  refine ⟨m, hrun, ?_, hregs, hram (List.isEmpty_iff.mp hbuffer) hcache⟩
  rw [hlength, List.take_of_length_le (Nat.le_of_eq hlength)] at hagrees
  exact hagrees

end Steps

end TopCpu

end OoOCore
