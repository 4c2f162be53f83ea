/-
What a run has done to the outside so far: the instructions it retired, the
value each dispatch wrote back, the stores it retired and those the memory port
accepted.  The hardware keeps none of this; a history only observes.
-/
import OoOCore.Isolation
import OoOCore.StoreFifo

namespace OoOCore

/-- A retired instruction: its ROB entry and the store it leaves behind. -/
structure Retired where
  entry : RobEntry
  store : Option StoreRequest

/-- The observations of a run, each list in the order of the events. -/
structure History where
  retired : List Retired := []
  result : Nat → Option Word := fun _ => none
  accepted : List StoreRequest := []

/-- The retired stores, in the order of retirement. -/
def History.stores (h : History) : List StoreRequest :=
  h.retired.filterMap Retired.store

/-- The dispatch numbers of the retired instructions. -/
def History.uids (h : History) : List Nat :=
  h.retired.map fun r => r.entry.origin.uid

namespace Backend

section Observations

variable (s : Backend) (i : Inputs)

/-- The request of the store in an LSQ slot. -/
def storeRequest (t : LsqTag) : StoreRequest where
  address := (s.lsq.entries t).address
  data := (s.lsq.entries t).storeData
  access := (s.lsq.entries t).memCtr

/-- What the retirement of a ROB entry leaves in the history. -/
def retire (e : RobEntry) : Retired where
  entry := e
  store := if e.isMemory && e.isStore then some (s.storeRequest e.lsqTag)
    else none

/-- The instructions this cycle retires, oldest first. -/
def retiredNow : List Retired :=
  (s.retiredLanes i).map fun l => s.retire (s.rob.commitEntry l)

/-- The stores this cycle retires. -/
def retiredStores : List StoreRequest :=
  (s.retiredNow i).filterMap Retired.store

/-- The memory port takes the request it is offered. -/
def accepts (r : MemoryRequest) : Prop :=
  s.memoryRequest i = some r ∧ i.memoryRequestReady = true

/-- The stores the memory port accepts in this cycle. -/
def acceptedStores : List StoreRequest :=
  if i.memoryRequestReady then
    match s.memoryRequest i with
    | some (.store r) => [r]
    | _ => []
  else []

/-- The value a write-back lane brings for a dispatch. -/
def laneResult (l : Lane) (uid : Nat) : Option Word :=
  if (s.prfWriteback l).valid && decide ((s.exec.laneSource l).origin.uid = uid)
  then some (s.prfWriteback l).data
  else none

/-- The value a dispatch writes back in this cycle. -/
def written (uid : Nat) : Option Word :=
  (s.laneResult 1 uid).or (s.laneResult 0 uid)

/-- The history one cycle later. -/
def observe (h : History) : History where
  retired := h.retired ++ s.retiredNow i
  result := fun uid => (s.written uid).or (h.result uid)
  accepted := h.accepted ++ s.acceptedStores i

theorem observe_stores (h : History) :
    (s.observe i h).stores = h.stores ++ s.retiredStores i :=
  List.filterMap_append

end Observations

/-- The states reached from reset, with the history of the run that reached
them. -/
inductive Traced : Backend → History → Prop
  | reset : Traced reset {}
  | step {s : Backend} {h : History} (ht : Traced s h) (i : Inputs) :
      Traced (s.step i) (s.observe i h)

theorem Traced.reachable {s : Backend} {h : History} (ht : s.Traced h) :
    s.Reachable := by
  induction ht with
  | reset => exact Reachable.reset
  | step _ i ih => exact ih.step i

section ProgramOrder

variable {s : Backend} {i : Inputs}

/-- What a cycle retires is the oldest part of the window. -/
theorem retiredNow_eq : s.retiredNow i =
    (s.rob.window.take (s.retireCount i)).map fun tag =>
      s.retire (s.rob.entries tag) := by
  rw [take_retireCount, retiredNow, List.map_map]
  apply List.map_congr_left
  intro l hl
  rw [(s.commitValid_entry (s.robRetireValid_base i
    (mem_retiredLanes.mp hl)).2.1).2.2]
  rfl

theorem retiredNow_of_squash
    (hedge : s.trapValid i = true ∨ s.recoveryValid i = true) :
    s.retiredNow i = [] := by
  have hnone := s.robRetireValid_of_squash i hedge
  simp [retiredNow, retiredLanes, hnone]

/-- The dispatch number of a live entry. -/
def uidAt (s : Backend) (tag : RobTag) : Nat := (s.rob.entries tag).origin.uid

/-- The dispatch numbers of the retired entries and then of the live ones. -/
def dispatchOrder (s : Backend) (h : History) : List Nat :=
  h.uids ++ s.rob.window.map s.uidAt

theorem newLanes_uids : (s.newLanes i).map (s.laneUid i) =
    List.range' s.nextUid ((s.step i).nextUid - s.nextUid) := by
  have hlength : (s.step i).nextUid - s.nextUid =
      (s.robAllocValid i 0).toNat + (s.robAllocValid i 1).toNat := by
    rw [step_nextUid]
    omega
  rw [newLanes, hlength]
  cases h0 : s.robAllocValid i 0 <;> cases h1 : s.robAllocValid i 1 <;>
    simp [h0, h1, laneUid, List.range'_succ]

/-- Without a flush or a recovery the order only grows at its end. -/
theorem RobReady.dispatchOrder_normal (hs : s.RobReady i) (hc : s.Countable)
    (htrap : s.trapValid i = false) (hrec : s.recoveryValid i = false)
    (h : History) : (s.step i).dispatchOrder (s.observe i h) =
      s.dispatchOrder h ++
        List.range' s.nextUid ((s.step i).nextUid - s.nextUid) := by
  have hkept : (s.rob.window.drop (s.retireCount i)).map (s.step i).uidAt =
      (s.rob.window.drop (s.retireCount i)).map s.uidAt := by
    apply List.map_congr_left
    intro tag htag
    have hnew : tag ∈ (s.step i).rob.window := by
      rw [hs.step_window_normal hc htrap hrec]
      exact List.mem_append_left _ htag
    rw [uidAt, hs.step_uid hc htrap (List.mem_of_mem_drop htag) hnew, uidAt]
  have hnew : ((s.newLanes i).map (s.robAllocTag i)).map (s.step i).uidAt =
      (s.newLanes i).map (s.laneUid i) := by
    rw [List.map_map]
    apply List.map_congr_left
    intro l hl
    exact (hs.new_uid hc htrap hrec ((mem_newLanes s i).mp hl)).1
  have hsplit : s.rob.window.map s.uidAt =
      (s.retiredNow i).map (fun r => r.entry.origin.uid) ++
        (s.rob.window.drop (s.retireCount i)).map s.uidAt := by
    rw [retiredNow_eq, List.map_map]
    conv_lhs => rw [← List.take_append_drop (s.retireCount i) s.rob.window]
    rw [List.map_append]
    rfl
  rw [dispatchOrder, dispatchOrder, hs.step_window_normal hc htrap hrec,
    List.map_append, hkept, hnew, newLanes_uids, hsplit]
  change (h.retired ++ s.retiredNow i).map _ ++ _ = _
  rw [List.map_append, ← List.append_assoc, ← List.append_assoc]
  rfl

/-- On a squashing edge nothing retires and the survivors keep their numbers. -/
theorem RobReady.dispatchOrder_kept (hs : s.RobReady i) (hc : s.Countable)
    (hedge : s.trapValid i = true ∨ s.recoveryValid i = true) (h : History) :
    (s.step i).dispatchOrder (s.observe i h) =
      h.uids ++ (s.step i).rob.window.map s.uidAt := by
  have hkept : (s.step i).rob.window.map (s.step i).uidAt =
      (s.step i).rob.window.map s.uidAt := by
    apply List.map_congr_left
    intro tag htag
    obtain ⟨htrap, hold⟩ := hs.squashing_old hedge htag
    rw [uidAt, hs.step_uid hc htrap hold htag, uidAt]
  rw [dispatchOrder, hkept]
  change (h.retired ++ s.retiredNow i).map _ ++ _ = _
  rw [retiredNow_of_squash hedge, List.append_nil]
  rfl

/-- A flush or a recovery cuts the end of the order. -/
theorem RobReady.dispatchOrder_squash (hs : s.RobReady i) (hc : s.Countable)
    (hedge : s.trapValid i = true ∨ s.recoveryValid i = true) (h : History) :
    (s.step i).dispatchOrder (s.observe i h) <+: s.dispatchOrder h := by
  obtain ⟨cut, hcut, -⟩ := hs.window_survivors hedge
  rw [hs.dispatchOrder_kept hc hedge, dispatchOrder, hcut, List.map_append,
    ← List.append_assoc]
  exact List.prefix_append _ _

/-- Instructions retire, and are live, in the order of their dispatch. -/
theorem Traced.programOrder {h : History} (ht : s.Traced h) :
    (s.dispatchOrder h).Pairwise (· < ·) ∧
      ∀ uid ∈ s.dispatchOrder h, uid < s.nextUid := by
  induction ht with
  | reset =>
      refine ⟨List.Pairwise.nil, ?_⟩
      intro uid huid
      cases huid
  | @step s h ht i ih =>
      have hs : s.RobReady i := ht.reachable.inFlight.robReady
      have hc := ht.reachable.countable
      by_cases hedge : s.trapValid i = true ∨ s.recoveryValid i = true
      · have hcut := hs.dispatchOrder_squash hc hedge h
        refine ⟨ih.1.sublist hcut.sublist, ?_⟩
        intro uid huid
        exact Nat.lt_of_lt_of_le (ih.2 uid (hcut.subset huid)) nextUid_le
      · rw [not_or, Bool.not_eq_true, Bool.not_eq_true] at hedge
        rw [hs.dispatchOrder_normal hc hedge.1 hedge.2 h]
        have hle : s.nextUid ≤ (s.step i).nextUid := nextUid_le
        constructor
        · rw [List.pairwise_append]
          refine ⟨ih.1, List.pairwise_lt_range', ?_⟩
          intro uid huid uid' huid'
          have hlt := ih.2 uid huid
          rw [List.mem_range'_1] at huid'
          omega
        · intro uid huid
          rw [List.mem_append, List.mem_range'_1] at huid
          rcases huid with huid | huid
          · have hlt := ih.2 uid huid
            omega
          · omega

end ProgramOrder

/-- Run a sequence of cycles and observe it. -/
def trace (s : Backend) (h : History) : List Inputs → Backend × History
  | [] => (s, h)
  | i :: rest => (s.step i).trace (s.observe i h) rest

theorem Traced.trace {s : Backend} {h : History} (ht : s.Traced h)
    (inputs : List Inputs) :
    (s.trace h inputs).1.Traced (s.trace h inputs).2 := by
  induction inputs generalizing s h with
  | nil => exact ht
  | cons i rest ih => exact ih (ht.step i)

end Backend

end OoOCore
