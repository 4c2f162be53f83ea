/-
Retired memory operations against the ISA: each one went to the address that
the instructions retired before it give, without a fault, and a store left the
value they give.
-/
import OoOCore.RetiredExecution
import OoOCore.MemoryOperands

namespace OoOCore

open Rv32

namespace Backend

section Retiring

variable {s : Backend} {i : Inputs} {h : History}

/-- A store that retires has its address and its data. -/
theorem retiring_store {tag : RobTag}
    (htag : tag ∈ s.rob.window.take (s.retireCount i))
    (hstore : s.isStoreTag tag = true) :
    (s.accessOf tag).addressReady = true ∧
      (s.accessOf tag).dataReady = true := by
  rw [take_retireCount] at htag
  obtain ⟨l, hl, rfl⟩ := List.mem_map.mp htag
  rw [mem_retiredLanes] at hl
  have hentry := (s.commitValid_entry (s.robRetireValid_base i hl).2.1).2.2
  change s.rob.commitEntry l = s.rob.entries (s.commitSlot l) at hentry
  have hpass := BackendCommitStage.passes_candidate hl
  have hlane : BackendCommitStage.storeLane (s.commitInputs i) l = true := by
    change ((s.rob.commitEntry l).isMemory && (s.rob.commitEntry l).isStore) =
      true
    rw [hentry]
    exact hstore
  have hmem := hlane
  rw [BackendCommitStage.storeLane, Bool.and_eq_true] at hmem
  obtain ⟨hvalid, hslot⟩ := BackendCommitStage.passes_head hpass hmem.1
  have hhead : BackendCommitStage.laneHead (s.commitInputs i) l =
      s.lsq.entries (s.rob.commitEntry l).lsqTag :=
    lsq_headEntry_eq hvalid hslot
  obtain ⟨haddress, hdata, -⟩ :=
    BackendCommitStage.passes_store_ready hpass hlane
  rw [hhead, hentry] at haddress hdata
  exact ⟨haddress, hdata⟩

/-- The request a live store is going to leave. -/
theorem Traced.store_request (ht : s.Traced h) {tag : RobTag}
    (hlive : tag ∈ s.rob.window) (hstore : s.isStoreTag tag = true)
    (hdata : (s.accessOf tag).dataReady = true) :
    (s.accessOf tag).memCtr = (s.decodedAt tag).memCtr ∧
      Produced h.result (s.accessOf tag).storeData
        (s.producerOf h tag (s.decodedAt tag).rs2) := by
  have hm := ht.reachable.memoryOrder
  have hkind := hstore
  rw [isStoreTag, Bool.and_eq_true] at hkind
  obtain ⟨hslot, howner⟩ := hm.slot_of_live hlive hkind.1
  have hpaired := hm.paired _ hslot
  rw [howner] at hpaired
  have hsource := ht.storeDataProduced _ hslot
    (hpaired.isStore.trans hkind.2) hdata
  rw [howner, dataRegister, hpaired.origin] at hsource
  exact ⟨hpaired.decoded.1, hsource⟩

end Retiring

/-- A retired memory operation went to the address of its base, and a store
left what the producer of its data wrote back. -/
structure AccessedFrom (h : History) (older : List Retired) (r : Retired)
    (base : Word) : Prop where
  source : Produced h.result base
    (producerAfter older (decoder r.entry.origin.insn).rs1)
  clean : (decoder r.entry.origin.insn).accessFault
    (base + (decoder r.entry.origin.insn).immediate) = none
  store : r.entry.isStore = true → ∃ value,
    Produced h.result value
        (producerAfter older (decoder r.entry.origin.insn).rs2) ∧
      r.store = some ⟨base + (decoder r.entry.origin.insn).immediate, value,
        (decoder r.entry.origin.insn).memCtr⟩

section Retired

variable {s : Backend} {i : Inputs} {h : History}

theorem Traced.accessedFrom_retiring (ht : s.Traced h)
    {older younger : List RobTag} {tag : RobTag}
    (hwindow : s.rob.window = older ++ tag :: younger)
    (htag : tag ∈ s.rob.window.take (s.retireCount i))
    (hmemory : s.isMemoryTag tag = true) :
    ∃ base, AccessedFrom (s.observe i h)
      (h.retired ++ older.map fun t => s.retire (s.rob.entries t))
      (s.retire (s.rob.entries tag)) base := by
  have hs := ht.reachable.inFlight
  have hlive := List.mem_of_mem_take htag
  obtain ⟨hdone, hclean⟩ := retired_complete htag
  obtain ⟨base, ha⟩ := ht.accessesLive tag hlive hmemory (hs.not_waiting hdone)
  have hfault : s.faultAt tag base = none := by
    rw [← ha.fault hdone]
    exact RobEntry.fault_eq_none.mpr hclean
  refine ⟨base, ?_, hfault, ?_⟩
  · rw [← producerOf_retiring hs.rob hwindow]
    exact ht.produced_kept ha.source
  · intro hkind
    have hstore : s.isStoreTag tag = true := by
      rw [isStoreTag, Bool.and_eq_true]
      exact ⟨hmemory, hkind⟩
    obtain ⟨-, hdata⟩ := retiring_store htag hstore
    obtain ⟨haccess, hvalue⟩ := ht.store_request hlive hstore hdata
    refine ⟨(s.accessOf tag).storeData, ?_, ?_⟩
    · rw [← producerOf_retiring hs.rob hwindow]
      exact ht.produced_kept hvalue
    · rw [retire_store, if_pos hstore, LsqEntry.request, haccess,
        (ha.known hfault).2]
      rfl

/-- Every retired memory operation went to the address that the last retired
writers of its sources give. -/
theorem Traced.accessedFrom (ht : s.Traced h) {older younger : List Retired}
    {r : Retired} (hsplit : h.retired = older ++ r :: younger)
    (hmemory : r.entry.isMemory = true) : ∃ base, AccessedFrom h older r base := by
  refine ht.retired_induction
    (P := fun h older r => r.entry.isMemory = true →
      ∃ base, AccessedFrom h older r base) ?_ ?_ older r younger hsplit hmemory
  · intro s h i older r ht _ hr hbefore hclass
    obtain ⟨base, ha⟩ := hbefore hclass
    refine ⟨base, ht.produced_kept ha.source, ha.clean, ?_⟩
    intro hkind
    obtain ⟨value, hvalue, hstore⟩ := ha.store hkind
    exact ⟨value, ht.produced_kept hvalue, hstore⟩
  · intro s h i older tag younger ht hwindow htag hclass
    exact ht.accessedFrom_retiring hwindow htag hclass

/-- Only a store leaves a request. -/
theorem Traced.retired_store_isSome (ht : s.Traced h)
    {older younger : List Retired} {r : Retired}
    (hsplit : h.retired = older ++ r :: younger) :
    r.store.isSome = (r.entry.isMemory && r.entry.isStore) := by
  refine ht.retired_induction (P := fun _ _ r =>
    r.store.isSome = (r.entry.isMemory && r.entry.isStore)) ?_ ?_ older r
      younger hsplit
  · intro s h i older r _ _ _ hbefore
    exact hbefore
  · intro s h i older tag younger _ _ _
    change (if (s.rob.entries tag).isMemory && (s.rob.entries tag).isStore then
      some (s.storeRequest (s.rob.entries tag).lsqTag) else none).isSome = _
    split
    · next hstore => exact hstore.symm
    · next hstore => exact (Bool.eq_false_iff.mpr hstore).symm

end Retired

end Backend

end OoOCore
