/-
What the core reports at retirement, against a sequential interpreter on the
same images.  As long as the interpreter goes on, the commit outputs report its
instructions one after the other, and the retired stores are its stores.
-/
import OoOCore.CoreRefinement

namespace OoOCore

open Rv32

/-- What a lane of the commit outputs reports. -/
structure Commit where
  pc : Word
  archRd : ArchReg
  data : Word
deriving DecidableEq

/-- How an event is reported: without a result it names register 0. -/
def Commit.ofEvent (e : Event) : Commit where
  pc := e.pc
  archRd := (e.write.map Prod.fst).getD 0
  data := (e.write.map Prod.snd).getD 0

namespace Backend

variable {s : Backend} {i : Inputs} {h : History}

/-- `commitPc_o`, `commitArchRd_o` and `commitData_o` of the lanes that
`commitValid_o` marks. -/
def commits (s : Backend) (i : Inputs) : List Commit :=
  (s.retiredLanes i).map fun l =>
    ⟨(s.rob.commitEntry l).pc, s.commitArchRd l, s.commitData l⟩

/-- A retiring lane reports what its instruction did. -/
theorem Traced.commits_eq (ht : s.Traced h) : s.commits i =
    (s.retiredNow i).map fun r =>
      Commit.ofEvent (r.event (s.observe i h).result) := by
  rw [commits, retiredNow, List.map_map]
  apply List.map_congr_left
  intro l hl
  have htag : s.commitSlot l ∈ s.rob.window.take (s.retireCount i) := by
    rw [take_retireCount]
    exact List.mem_map_of_mem hl
  have hentry : s.rob.commitEntry l = s.rob.entries (s.commitSlot l) :=
    (s.commitValid_entry (s.robRetireValid_base i
      (mem_retiredLanes.mp hl)).2.1).2.2
  change _ = Commit.ofEvent ⟨(s.rob.commitEntry l).pc,
    (s.retire (s.rob.commitEntry l)).wrote (s.observe i h).result, _⟩
  rw [commitArchRd, commitData, hentry, Retired.wrote, retire]
  cases hwrites : (s.rob.entries (s.commitSlot l)).writesRd with
  | false => rfl
  | true =>
      have hresult := ht.valued.retiring (i := i) ht.reachable htag hwrites
      change (s.observe i h).result
        (s.rob.entries (s.commitSlot l)).origin.uid = _ at hresult
      simp only [if_true, hresult]
      rfl

/-- The labels of a cycle say what its retired instructions did. -/
theorem Traced.labelsOf_events (ht : s.Traced h) {older more : List Retired}
    (hsplit : h.retired = older ++ more) :
    (labelsOf h.result more).filterMap Label.event? =
      more.map (Retired.event h.result) := by
  rw [labelsOf, List.filterMap_map, ← List.filterMap_eq_map]
  apply List.filterMap_congr
  intro r hr
  obtain ⟨before, after, rfl⟩ := List.append_of_mem hr
  rw [← List.append_assoc] at hsplit
  exact ht.label_event? hsplit

end Backend

namespace TopCpu

/-- The sequential interpreter on the images of the core.  It performs `n`
instructions, unless one of them traps, is a SYSTEM instruction or accesses
data outside the cached range. -/
def Boot.interpret (b : Boot) (n : Nat) : Option (List Event × Machine) :=
  b.machine.run ⟨InsnMem.wordAt b.mem, inRam⟩ n

/-- The states reached from reset, with all that the commit outputs have
reported and all the retired stores. -/
inductive Committed (b : Boot) :
    TopCpu → List Commit → List StoreRequest → Prop
  | boot : Committed b (boot b) [] []
  | step {c : TopCpu} {commits : List Commit} {stores : List StoreRequest}
      (hc : Committed b c commits stores) (fromHost : Word) :
      Committed b (c.step fromHost)
        (commits ++ c.backend.commits (c.inputs fromHost))
        (stores ++ c.backend.retiredStores (c.inputs fromHost))

section Reports

variable {b : Boot} {c : TopCpu} {h : History} {labels : List Label}
  {commits : List Commit} {stores : List StoreRequest}

theorem Shown.traced (hs : Shown b c h labels) : c.backend.Traced h := by
  induction hs with
  | boot => exact Backend.Traced.reset
  | step hs fromHost ih => exact ih.step _

theorem labelsNow_events (ht : c.backend.Traced h) (fromHost : Word) :
    (c.labelsNow fromHost h).filterMap Label.event? =
      (c.backend.retiredNow (c.inputs fromHost)).map (Retired.event
        (c.backend.observe (c.inputs fromHost) h).result) := by
  have hsplit : (c.backend.observe (c.inputs fromHost) h).retired =
      h.retired ++ c.backend.retiredNow (c.inputs fromHost) := rfl
  have hnow := (ht.step (c.inputs fromHost)).labelsOf_events hsplit
  rw [labelsNow, List.filterMap_append, hnow]
  split
  · exact List.append_nil _
  · exact List.append_nil _

/-- The core reports and stores what its labels say. -/
theorem Committed.shown (hc : Committed b c commits stores) :
    ∃ h labels, Shown b c h labels ∧
      commits = (labels.filterMap Label.event?).map Commit.ofEvent ∧
      stores.map StoreRequest.event =
        (labels.filterMap Label.event?).filterMap Event.store := by
  induction hc with
  | boot => exact ⟨_, _, Shown.boot, rfl, rfl⟩
  | @step c commits stores hc fromHost ih =>
      obtain ⟨h, labels, hs, hcommits, hstores⟩ := ih
      have hnow := labelsNow_events hs.traced fromHost
      refine ⟨_, _, hs.step fromHost, ?_, ?_⟩
      · rw [List.filterMap_append, List.map_append, hnow, hcommits,
          hs.traced.commits_eq, List.map_map]
        rfl
      · rw [List.filterMap_append, List.filterMap_append, hnow,
          List.map_append, hstores, List.filterMap_map]
        congr 1
        exact List.map_filterMap

/-- The core refines the sequential interpreter.  While the core has reported
no more instructions than the interpreter has performed, its reports and its
retired stores are a prefix of the interpreter's; and the interpreter's are a
prefix of them from then on. -/
theorem Committed.follows_interpreter (hc : Committed b c commits stores)
    {n : Nat} {events : List Event} {m : Machine}
    (hrun : b.interpret n = some (events, m)) :
    (commits.length ≤ n → commits <+: events.map Commit.ofEvent ∧
        stores.map StoreRequest.event <+: events.filterMap Event.store) ∧
      (n ≤ commits.length → events.map Commit.ofEvent <+: commits ∧
        events.filterMap Event.store <+: stores.map StoreRequest.event) := by
  obtain ⟨h, labels, hs, rfl, hstores⟩ := hc.shown
  have hevents := Machine.run_length _ hrun
  have hcompare := events_of_take hevents (hs.take_eq hrun)
  rw [hstores, List.length_map, ← hevents]
  refine ⟨?_, ?_⟩
  · intro hlength
    have hbegins := begins_of_length hcompare hlength
    exact ⟨hbegins.map _, hbegins.filterMap _⟩
  · intro hlength
    have hbegins := begins_of_length hcompare.symm hlength
    exact ⟨hbegins.map _, hbegins.filterMap _⟩

/-- The core some cycles after reset, the host silent, with its reports. -/
def committedRun (b : Boot) : Nat → TopCpu × List Commit × List StoreRequest
  | 0 => (boot b, [], [])
  | n + 1 =>
      ((committedRun b n).1.step 0,
        (committedRun b n).2.1 ++
          (committedRun b n).1.backend.commits ((committedRun b n).1.inputs 0),
        (committedRun b n).2.2 ++ (committedRun b n).1.backend.retiredStores
          ((committedRun b n).1.inputs 0))

theorem committed_committedRun (b : Boot) (n : Nat) :
    Committed b (committedRun b n).1 (committedRun b n).2.1
      (committedRun b n).2.2 := by
  induction n with
  | zero => exact Committed.boot
  | succ n ih => exact ih.step 0

theorem follows_interpreter_storeLoadCall :
    (committedRun storeLoadCall 17).2.1 =
        [⟨0, 1, 5⟩, ⟨4, 0, 0⟩, ⟨8, 2, 5⟩] ∧
      (committedRun storeLoadCall 17).2.2 = [⟨0, 5, .word⟩] ∧
      (committedRun storeLoadCall 17).2.1 <+:
        storeLoadEvents.map Commit.ofEvent ∧
      (committedRun storeLoadCall 17).2.2.map StoreRequest.event <+:
        storeLoadEvents.filterMap Event.store := by
  have hreports : (committedRun storeLoadCall 17).2.1 =
        [⟨0, 1, 5⟩, ⟨4, 0, 0⟩, ⟨8, 2, 5⟩] ∧
      (committedRun storeLoadCall 17).2.2 = [⟨0, 5, .word⟩] := by
    decide +kernel
  have hevents : (storeLoadCall.interpret 3).map Prod.fst =
      some storeLoadEvents := by
    decide +kernel
  obtain ⟨⟨events, m⟩, hrun, rfl⟩ := Option.map_eq_some_iff.mp hevents
  have hlength : (committedRun storeLoadCall 17).2.1.length ≤ 3 := by
    rw [hreports.1]
    exact Nat.le_refl 3
  refine ⟨hreports.1, hreports.2, ?_⟩
  exact ((committed_committedRun storeLoadCall 17).follows_interpreter
    hrun).1 hlength

end Reports

end TopCpu

end OoOCore
