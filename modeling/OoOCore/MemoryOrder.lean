/-
Program order in the load/store queue: in every reachable state the LSQ holds
exactly the memory operations of the ROB, in the same order, and each side
names the other's slot.
-/
import OoOCore.InFlight

namespace OoOCore

/-- The LSQ entry and the ROB entry were made by one rename. -/
def LsqEntry.Paired (e : LsqEntry) (r : RobEntry) : Prop :=
  ∃ packet ctx,
    e.atDispatch = (RenameStage.lsqEntry (idStage packet) ctx).atDispatch ∧
      r.atDispatch = (RenameStage.robEntry (idStage packet) ctx).atDispatch

section Pairing

variable {e e' : LsqEntry} {r r' : RobEntry}

theorem LsqEntry.Paired.of_atDispatch (h : e.Paired r)
    (he : e'.atDispatch = e.atDispatch) (hr : r'.atDispatch = r.atDispatch) :
    e'.Paired r' := by
  obtain ⟨packet, ctx, h1, h2⟩ := h
  exact ⟨packet, ctx, he.trans h1, hr.trans h2⟩

theorem LsqEntry.Paired.isStore (h : e.Paired r) : e.isStore = r.isStore := by
  obtain ⟨packet, ctx, h1, h2⟩ := h
  have he := congrArg LsqEntry.isStore h1
  have hr := congrArg RobEntry.isStore h2
  exact he.trans hr.symm

theorem LsqEntry.Paired.origin (h : e.Paired r) : e.origin = r.origin := by
  obtain ⟨packet, ctx, h1, h2⟩ := h
  have he := congrArg LsqEntry.origin h1
  have hr := congrArg RobEntry.origin h2
  exact he.trans hr.symm

/-- What an LSQ entry takes from its instruction word. -/
theorem LsqEntry.Paired.decoded (h : e.Paired r) :
    e.memCtr = (decoder r.origin.insn).memCtr ∧
      e.isStore = (decoder r.origin.insn).dataWriteEnable := by
  obtain ⟨packet, ctx, he, hr⟩ := h
  have horigin : r.origin = ⟨ctx.uid, packet.insn⟩ :=
    congrArg RobEntry.origin hr
  have haccess : e.memCtr = (decoder packet.insn).memCtr :=
    congrArg LsqEntry.memCtr he
  have hstore : e.isStore = (decoder packet.insn).dataWriteEnable :=
    congrArg LsqEntry.isStore he
  rw [horigin]
  exact ⟨haccess, hstore⟩

/-- The class ladder agrees with the dispatch wires: a CSR access is never a
memory operation. -/
theorem fuClassOf_memory (packet : FetchPacket) :
    (RenameStage.fuClassOf (idStage packet) == FuClass.memory) =
      ((idStage packet).dataWriteEnable ||
        (idStage packet).wbSelect == .mem) := by
  have hcons := decoder_consistent packet.insn
  change (RenameStage.fuClassOf (idStage packet) == FuClass.memory) =
    ((decoder packet.insn).dataWriteEnable ||
      (decoder packet.insn).wbSelect == .mem)
  unfold RenameStage.fuClassOf
  change (ite ((decoder packet.insn).wbSelect = .csr) _ _ == _) = _
  split
  · next hcsr =>
    have hstore := (hcons.csr hcsr).1
    simp [hcsr, hstore]
  · split
    · next hmem =>
      change (decoder packet.insn).dataWriteEnable = true ∨
        (decoder packet.insn).wbSelect = .mem at hmem
      simp [hmem]
    · next hmem =>
      change ¬ ((decoder packet.insn).dataWriteEnable = true ∨
        (decoder packet.insn).wbSelect = .mem) at hmem
      push Not at hmem
      have hstore : (decoder packet.insn).dataWriteEnable = false := by
        simpa using hmem.1
      rw [hstore]
      have hload : ((decoder packet.insn).wbSelect == WbSelect.mem) =
          false := by simpa using hmem.2
      rw [hload]
      split <;> rfl

end Pairing

namespace Backend

/-- A ROB slot holds a memory operation. -/
def isMemoryTag (s : Backend) (tag : RobTag) : Bool :=
  (s.rob.entries tag).isMemory

/-- The ROB slot of an LSQ entry. -/
def lsqOwner (s : Backend) (t : LsqTag) : RobTag := (s.lsq.entries t).robTag

/-- The LSQ is the memory part of the ROB, in program order. -/
structure MemoryOrder (s : Backend) : Prop where
  wf : s.lsq.Wf
  owners : s.lsq.window.map s.lsqOwner = s.rob.window.filter s.isMemoryTag
  paired : ∀ t ∈ s.lsq.window,
    (s.lsq.entries t).Paired (s.rob.entries (s.lsqOwner t))
  slot : ∀ t ∈ s.lsq.window, (s.rob.entries (s.lsqOwner t)).lsqTag = t

theorem reset_memoryOrder : reset.MemoryOrder where
  wf := LoadStoreQueue.reset_wf
  owners := rfl
  paired := by
    intro t ht
    cases ht
  slot := by
    intro t ht
    cases ht

section Facts

variable {s : Backend}

theorem MemoryOrder.owner_live (h : s.MemoryOrder) {t : LsqTag}
    (ht : t ∈ s.lsq.window) : s.lsqOwner t ∈ s.rob.window ∧
      s.isMemoryTag (s.lsqOwner t) = true := by
  have hmem : s.lsqOwner t ∈ s.lsq.window.map s.lsqOwner :=
    List.mem_map_of_mem ht
  rw [h.owners, List.mem_filter] at hmem
  exact hmem

/-- Every live memory operation has its LSQ slot. -/
theorem MemoryOrder.slot_of_live (h : s.MemoryOrder) {tag : RobTag}
    (hlive : tag ∈ s.rob.window) (hmem : s.isMemoryTag tag = true) :
    (s.rob.entries tag).lsqTag ∈ s.lsq.window ∧
      s.lsqOwner (s.rob.entries tag).lsqTag = tag := by
  have hin : tag ∈ s.lsq.window.map s.lsqOwner := by
    rw [h.owners, List.mem_filter]
    exact ⟨hlive, hmem⟩
  obtain ⟨t, ht, rfl⟩ := List.mem_map.mp hin
  rw [h.slot t ht]
  exact ⟨ht, rfl⟩

end Facts

section Retire

variable {s : Backend} {i : Inputs}

/-- The LSQ pops one entry for every retired memory operation. -/
theorem lsqRetireCount_eq : s.lsqRetireCount i =
    ((s.rob.window.take (s.retireCount i)).filter s.isMemoryTag).length := by
  have hentry (l : Lane) (h : s.robRetireValid i l = true) :
      (s.rob.commitEntry l).isMemory = s.isMemoryTag (s.commitSlot l) := by
    rw [(s.commitValid_entry (s.robRetireValid_base i h).2.1).2.2]
    rfl
  have hcount : s.lsqRetireCount i =
      (s.robRetireValid i 0 && (s.rob.commitEntry 0).isMemory).toNat +
        (s.robRetireValid i 1 && (s.rob.commitEntry 1).isMemory).toNat := by
    rw [lsqRetireCount, BackendCommitStage.lsqRetireCount,
      BackendCommitStage.afterLane_memoryOffset, BackendCommitStage.scanAt,
      BackendCommitStage.afterLane_memoryOffset, Nat.zero_add]
    rfl
  rw [take_retireCount, retiredLanes, hcount]
  cases hv0 : s.robRetireValid i 0 <;> cases hv1 : s.robRetireValid i 1 <;>
    simp only [hv0, hv1, List.filter_cons, List.filter_nil, if_true,
      Bool.false_eq_true, if_false, List.map_cons, List.map_nil,
      Bool.true_and, Bool.false_and, Bool.toNat_false, Nat.add_zero,
      Nat.zero_add, List.length_nil]
  · rw [hentry 1 hv1]
    cases s.isMemoryTag (s.commitSlot 1) <;> simp
  · rw [hentry 0 hv0]
    cases s.isMemoryTag (s.commitSlot 0) <;> simp
  · rw [hentry 0 hv0, hentry 1 hv1]
    cases s.isMemoryTag (s.commitSlot 0) <;>
      cases s.isMemoryTag (s.commitSlot 1) <;> simp

theorem filter_drop {α : Type} (p : α → Bool) (l : List α) (k : Nat) :
    (l.drop k).filter p = (l.filter p).drop ((l.take k).filter p).length := by
  have hsplit : l.filter p = (l.take k).filter p ++ (l.drop k).filter p := by
    rw [← List.filter_append, List.take_append_drop]
  rw [hsplit, List.drop_left]

theorem MemoryOrder.retireAccepted_eq (h : s.MemoryOrder) :
    s.lsq.retireAccepted (s.lsqRetireCount i) = s.lsqRetireCount i := by
  have hle : s.lsqRetireCount i ≤ s.lsq.entryCount := by
    have hlen := congrArg List.length h.owners
    rw [List.length_map, LoadStoreQueue.window_length] at hlen
    rw [hlen, lsqRetireCount_eq]
    exact ((List.take_sublist _ _).filter _).length_le
  have htwo : s.lsqRetireCount i ≤ 2 := by
    rw [lsqRetireCount_eq]
    refine Nat.le_trans (List.length_filter_le _ _) ?_
    rw [List.length_take]
    have : s.retireCount i ≤ 2 := by
      rw [← s.commitAccepted_eq]
      exact (s.rob.commitAccepted_le _).2
    omega
  unfold LoadStoreQueue.retireAccepted
  omega

/-- After retirement the LSQ still is the memory part of the ROB. -/
theorem MemoryOrder.owners_drop (h : s.MemoryOrder) :
    (s.lsq.window.drop (s.lsqRetireCount i)).map s.lsqOwner =
      (s.rob.window.drop (s.retireCount i)).filter s.isMemoryTag := by
  rw [filter_drop, ← h.owners, ← lsqRetireCount_eq, List.map_drop]

end Retire

section Step

variable {s : Backend} {i : Inputs}

theorem step_lsq_flush (htrap : s.trapValid i = true) :
    (s.step i).lsq = LoadStoreQueue.reset := by
  change LoadStoreQueue.step _ (s.trapValid i) _ _ _ _ _ _ _ = _
  rw [htrap]
  rfl

theorem not_trap_of_queued {t : LsqTag}
    (hmem : t ∈ (s.step i).lsq.window) : s.trapValid i = false := by
  by_contra htrap
  rw [Bool.not_eq_false] at htrap
  rw [step_lsq_flush htrap] at hmem
  cases hmem

theorem step_lsq_recover (htrap : s.trapValid i = false)
    (hrec : s.recoveryValid i = true) :
    (s.step i).lsq = s.lsq.stepRecover (s.recoveryYoungerMask i)
      (s.lsqUpdate i) s.prfWriteback := by
  change LoadStoreQueue.step _ (s.trapValid i) (s.recoveryValid i) _ _ _ _ _
    _ = _
  rw [htrap, hrec]
  rfl

theorem step_lsq_normal (htrap : s.trapValid i = false)
    (hrec : s.recoveryValid i = false) :
    (s.step i).lsq = s.lsq.stepNormal (s.lsqAllocValid i)
      (s.renameLsqEntry i) (s.lsqUpdate i) s.prfWriteback
      (s.lsqRetireCount i) := by
  change LoadStoreQueue.step _ (s.trapValid i) (s.recoveryValid i) _ _ _ _ _
    _ = _
  rw [htrap, hrec]
  rfl

/-- The new LSQ lanes. -/
theorem Countable.lsqAllocLanes_eq (hc : s.Countable) :
    s.lsq.allocLanes (s.lsqAllocValid i) =
      (s.newLanes i).filter (laneIsMemory i) := by
  unfold LoadStoreQueue.allocLanes newLanes
  rw [List.filter_filter]
  apply List.filter_congr
  intro l _
  rw [hc.lsqAllocFire, lsqAllocValid, Bool.and_comm]

theorem renameRobEntry_isMemory (l : Lane) :
    (ReorderBuffer.allocWrite (s.renameRobEntry i l)).isMemory =
      laneIsMemory i l := by
  change (RenameStage.fuClassOf (decodeBus i l) == FuClass.memory) = _
  exact fuClassOf_memory (i.packet l)

/-- How recovery cuts both queues. -/
theorem MemoryOrder.recover_split (h : s.MemoryOrder) (hs : s.RobReady i)
    (htrap : s.trapValid i = false) (hrec : s.recoveryValid i = true) :
    ∃ kept cut, s.lsq.window = kept ++ cut ∧
      kept.map s.lsqOwner =
        (s.step i).rob.window.filter s.isMemoryTag ∧
      (∀ t ∈ kept, s.recoveryYoungerMask i (s.lsq.entries t).robTag = false) ∧
      ∀ t ∈ cut, s.recoveryYoungerMask i (s.lsq.entries t).robTag = true := by
  obtain ⟨older, younger, hwindow, hwindow'⟩ := hs.window_split htrap hrec
  have hsplit : s.rob.window = (s.step i).rob.window ++ younger := by
    rw [hwindow, hwindow', List.append_assoc]
    rfl
  have howners := h.owners
  rw [hsplit, List.filter_append] at howners
  obtain ⟨kept, cut, hlsq, hkept, hcut⟩ := List.map_eq_append_iff.mp howners
  refine ⟨kept, cut, hlsq, hkept, ?_, ?_⟩
  · intro t ht
    have hmem : s.lsqOwner t ∈ kept.map s.lsqOwner := List.mem_map_of_mem ht
    rw [hkept, List.mem_filter, hs.mem_step_window_recover htrap hrec] at hmem
    exact hmem.1.2
  · intro t ht
    have hmem : s.lsqOwner t ∈ cut.map s.lsqOwner := List.mem_map_of_mem ht
    rw [hcut, List.mem_filter] at hmem
    by_contra hmask
    rw [Bool.not_eq_true] at hmask
    have hlive : s.lsqOwner t ∈ s.rob.window := by
      rw [hsplit]
      exact List.mem_append_right _ hmem.1
    have hkeep := (hs.mem_step_window_recover htrap hrec _).mpr
      ⟨hlive, hmask⟩
    have hnodup := hs.wf.window_nodup
    rw [hsplit, List.nodup_append] at hnodup
    exact hnodup.2.2 _ hkeep _ hmem.1 rfl

/-- A surviving LSQ entry keeps what dispatch wrote. -/
theorem MemoryOrder.step_survivor (h : s.MemoryOrder) (hs : s.RobReady i)
    (htrap : s.trapValid i = false) {t : LsqTag} (hold : t ∈ s.lsq.window)
    (hnew : t ∈ (s.step i).lsq.window) :
    (s.step i).lsq.entries t = s.lsq.captured (s.recoveryYoungerMask i)
      (s.lsqUpdate i) s.prfWriteback t (s.lsq.entries t) := by
  cases hrec : s.recoveryValid i with
  | true =>
      obtain ⟨kept, cut, hlsq, -, hkept, hcut⟩ :=
        h.recover_split hs htrap hrec
      rw [step_lsq_recover htrap hrec] at hnew ⊢
      rw [h.wf.stepRecover_window _ _ _ hlsq hkept hcut] at hnew
      rw [LoadStoreQueue.stepRecover_entries, if_neg]
      rintro ⟨-, hmask⟩
      rw [hkept t hnew] at hmask
      exact absurd hmask (by decide)
  | false =>
      have hmask : s.recoveryYoungerMask i = fun _ => false :=
        funext (recoveryYoungerMask_of_normal hrec)
      rw [hmask]
      rw [step_lsq_normal htrap hrec] at hnew ⊢
      rw [h.wf.stepNormal_window, List.mem_append] at hnew
      rcases hnew with hdrop | hnew
      · exact h.wf.stepNormal_survivor _ _ _ _ _ hdrop
      · obtain ⟨l, hl, rfl⟩ := List.mem_map.mp hnew
        have hfire := (List.mem_filter.mp hl).2
        exact absurd hold (h.wf.allocTag_not_mem _ hfire)

theorem MemoryOrder.step_owner (h : s.MemoryOrder) (hs : s.RobReady i)
    (htrap : s.trapValid i = false) {t : LsqTag} (hold : t ∈ s.lsq.window)
    (hnew : t ∈ (s.step i).lsq.window) :
    ((s.step i).lsq.entries t).atDispatch = (s.lsq.entries t).atDispatch ∧
      (s.step i).lsqOwner t = s.lsqOwner t := by
  have hframe : ((s.step i).lsq.entries t).atDispatch =
      (s.lsq.entries t).atDispatch := by
    rw [h.step_survivor hs htrap hold hnew]
    exact (LoadStoreQueue.captured_frame _ _).1
  have howner := congrArg LsqEntry.robTag hframe
  exact ⟨hframe, howner⟩

theorem RobReady.step_isMemory (hs : s.RobReady i) (hc : s.Countable)
    (htrap : s.trapValid i = false) {tag : RobTag}
    (hold : tag ∈ s.rob.window) (hnew : tag ∈ (s.step i).rob.window) :
    (s.step i).isMemoryTag tag = s.isMemoryTag tag := by
  have hframe := (hs.step_survivor hc htrap hold hnew).1
  have hmem := congrArg RobEntry.isMemory hframe
  exact hmem

/-- The pairing of an LSQ entry whose owner survives. -/
theorem MemoryOrder.paired_survivor (h : s.MemoryOrder) (hs : s.RobReady i)
    (hc : s.Countable) (htrap : s.trapValid i = false) {t : LsqTag}
    (hold : t ∈ s.lsq.window) (hnew : t ∈ (s.step i).lsq.window)
    (hlive : s.lsqOwner t ∈ (s.step i).rob.window) :
    ((s.step i).lsq.entries t).Paired
        ((s.step i).rob.entries ((s.step i).lsqOwner t)) ∧
      ((s.step i).rob.entries ((s.step i).lsqOwner t)).lsqTag = t := by
  obtain ⟨hframe, howner⟩ := h.step_owner hs htrap hold hnew
  have hrob := (hs.step_survivor hc htrap (h.owner_live hold).1 hlive).1
  rw [howner]
  refine ⟨(h.paired t hold).of_atDispatch hframe hrob, ?_⟩
  have hslot := congrArg RobEntry.lsqTag hrob
  exact hslot.trans (h.slot t hold)

theorem MemoryOrder.step_recover (h : s.MemoryOrder) (hs : s.RobReady i)
    (hc : s.Countable) (htrap : s.trapValid i = false)
    (hrec : s.recoveryValid i = true) : (s.step i).MemoryOrder := by
  obtain ⟨kept, cut, hlsq, howners, hkept, hcut⟩ :=
    h.recover_split hs htrap hrec
  have hwindow : (s.step i).lsq.window = kept := by
    rw [step_lsq_recover htrap hrec]
    exact h.wf.stepRecover_window _ _ _ hlsq hkept hcut
  have hold (t : LsqTag) (ht : t ∈ (s.step i).lsq.window) :
      t ∈ s.lsq.window := by
    rw [hwindow] at ht
    rw [hlsq]
    exact List.mem_append_left _ ht
  have hlive (t : LsqTag) (ht : t ∈ (s.step i).lsq.window) :
      s.lsqOwner t ∈ (s.step i).rob.window := by
    rw [hs.mem_step_window_recover htrap hrec]
    refine ⟨(h.owner_live (hold t ht)).1, ?_⟩
    rw [hwindow] at ht
    exact hkept t ht
  refine ⟨?_, ?_, ?_, ?_⟩
  · rw [step_lsq_recover htrap hrec]
    exact h.wf.stepRecover_wf _ _ _ hlsq hkept hcut
  · calc (s.step i).lsq.window.map (s.step i).lsqOwner
        = (s.step i).lsq.window.map s.lsqOwner := by
          apply List.map_congr_left
          intro t ht
          exact (h.step_owner hs htrap (hold t ht) ht).2
      _ = (s.step i).rob.window.filter s.isMemoryTag := by
          rw [hwindow, howners]
      _ = (s.step i).rob.window.filter (s.step i).isMemoryTag := by
          apply List.filter_congr
          intro tag htag
          have hbefore := ((hs.mem_step_window_recover htrap hrec tag).mp
            htag).1
          exact (hs.step_isMemory hc htrap hbefore htag).symm
  · intro t ht
    exact (h.paired_survivor hs hc htrap (hold t ht) ht (hlive t ht)).1
  · intro t ht
    exact (h.paired_survivor hs hc htrap (hold t ht) ht (hlive t ht)).2

theorem MemoryOrder.step_window_normal (h : s.MemoryOrder) (hc : s.Countable)
    (htrap : s.trapValid i = false) (hrec : s.recoveryValid i = false) :
    (s.step i).lsq.window =
      s.lsq.window.drop (s.lsqRetireCount i) ++
        ((s.newLanes i).filter (laneIsMemory i)).map (s.lsqAllocTag i) := by
  rw [step_lsq_normal htrap hrec, h.wf.stepNormal_window,
    h.retireAccepted_eq, hc.lsqAllocLanes_eq]
  rfl

/-- What an accepted memory lane writes into the LSQ. -/
theorem MemoryOrder.step_new (h : s.MemoryOrder) (hc : s.Countable)
    (htrap : s.trapValid i = false) (hrec : s.recoveryValid i = false)
    {l : Lane} (hl : s.robAllocValid i l = true)
    (hmem : laneIsMemory i l = true) :
    (s.step i).lsq.entries (s.lsqAllocTag i l) =
      LoadStoreQueue.allocWrite (s.renameLsqEntry i l) := by
  have hfire : s.lsq.allocFire (s.lsqAllocValid i) l = true := by
    rw [hc.lsqAllocFire, lsqAllocValid, hl, hmem]
    rfl
  rw [step_lsq_normal htrap hrec]
  exact h.wf.stepNormal_new _ _ _ _ _ hfire

theorem MemoryOrder.new_owner (h : s.MemoryOrder) (hc : s.Countable)
    (htrap : s.trapValid i = false) (hrec : s.recoveryValid i = false)
    {l : Lane} (hl : s.robAllocValid i l = true)
    (hmem : laneIsMemory i l = true) :
    (s.step i).lsqOwner (s.lsqAllocTag i l) = s.robAllocTag i l := by
  rw [lsqOwner, h.step_new hc htrap hrec hl hmem]
  have howner := congrArg LsqEntry.robTag
    (LoadStoreQueue.allocWrite_atDispatch (s.renameLsqEntry i l))
  exact howner

/-- A slot that was not live is new: a memory lane was dispatched into it. -/
theorem MemoryOrder.step_window_new (h : s.MemoryOrder) (hs : s.RobReady i)
    (hc : s.Countable) (htrap : s.trapValid i = false) {t : LsqTag}
    (hold : t ∉ s.lsq.window) (hnew : t ∈ (s.step i).lsq.window) :
    s.recoveryValid i = false ∧ ∃ l, s.robAllocValid i l = true ∧
      laneIsMemory i l = true ∧ t = s.lsqAllocTag i l := by
  cases hrec : s.recoveryValid i with
  | true =>
      obtain ⟨kept, cut, hlsq, -, hkept, hcut⟩ :=
        h.recover_split hs htrap hrec
      rw [step_lsq_recover htrap hrec,
        h.wf.stepRecover_window _ _ _ hlsq hkept hcut] at hnew
      rw [hlsq] at hold
      exact absurd (List.mem_append_left _ hnew) hold
  | false =>
      refine ⟨rfl, ?_⟩
      rw [h.step_window_normal hc htrap hrec, List.mem_append] at hnew
      rcases hnew with hdrop | hlane
      · exact absurd (List.mem_of_mem_drop hdrop) hold
      · obtain ⟨l, hl, rfl⟩ := List.mem_map.mp hlane
        rw [List.mem_filter, mem_newLanes] at hl
        exact ⟨l, hl.1, hl.2, rfl⟩

theorem MemoryOrder.step_normal (h : s.MemoryOrder) (hs : s.RobReady i)
    (hc : s.Countable) (htrap : s.trapValid i = false)
    (hrec : s.recoveryValid i = false) : (s.step i).MemoryOrder := by
  have hlsq := h.step_window_normal hc htrap hrec
  have hrob := hs.step_window_normal hc htrap hrec
  have hkeep (t : LsqTag) (ht : t ∈ s.lsq.window.drop (s.lsqRetireCount i)) :
      t ∈ s.lsq.window ∧ t ∈ (s.step i).lsq.window ∧
        s.lsqOwner t ∈ s.rob.window.drop (s.retireCount i) := by
    refine ⟨List.mem_of_mem_drop ht, ?_, ?_⟩
    · rw [hlsq]
      exact List.mem_append_left _ ht
    · have hmem : s.lsqOwner t ∈
          (s.lsq.window.drop (s.lsqRetireCount i)).map s.lsqOwner :=
        List.mem_map_of_mem ht
      rw [h.owners_drop, List.mem_filter] at hmem
      exact hmem.1
  have hlane (l : Lane) (hl : l ∈ (s.newLanes i).filter (laneIsMemory i)) :
      s.robAllocValid i l = true ∧ laneIsMemory i l = true := by
    rw [List.mem_filter, mem_newLanes] at hl
    exact hl
  have hpair (t : LsqTag) (ht : t ∈ (s.step i).lsq.window) :
      ((s.step i).lsq.entries t).Paired
          ((s.step i).rob.entries ((s.step i).lsqOwner t)) ∧
        ((s.step i).rob.entries ((s.step i).lsqOwner t)).lsqTag = t := by
    rw [hlsq, List.mem_append] at ht
    rcases ht with ht | ht
    · obtain ⟨hold, hnew, howner⟩ := hkeep t ht
      have hlive : s.lsqOwner t ∈ (s.step i).rob.window := by
        rw [hrob]
        exact List.mem_append_left _ howner
      exact h.paired_survivor hs hc htrap hold hnew hlive
    · obtain ⟨l, hl, rfl⟩ := List.mem_map.mp ht
      obtain ⟨hvalid, hmem⟩ := hlane l hl
      have hentry := (hs.step_dispatched hc htrap hrec hvalid).2.2
      rw [h.new_owner hc htrap hrec hvalid hmem, hentry,
        h.step_new hc htrap hrec hvalid hmem]
      refine ⟨⟨i.packet l, s.laneContext i l, ?_, rfl⟩, rfl⟩
      exact LoadStoreQueue.allocWrite_atDispatch _
  refine ⟨?_, ?_, fun t ht => (hpair t ht).1, fun t ht => (hpair t ht).2⟩
  · rw [step_lsq_normal htrap hrec]
    exact h.wf.stepNormal_wf _ _ _ _ _
  · rw [hlsq, hrob, List.map_append, List.filter_append]
    congr 1
    · calc (s.lsq.window.drop (s.lsqRetireCount i)).map (s.step i).lsqOwner
          = (s.lsq.window.drop (s.lsqRetireCount i)).map s.lsqOwner := by
            apply List.map_congr_left
            intro t ht
            obtain ⟨hold, hnew, -⟩ := hkeep t ht
            exact (h.step_owner hs htrap hold hnew).2
        _ = (s.rob.window.drop (s.retireCount i)).filter s.isMemoryTag :=
            h.owners_drop
        _ = _ := by
            apply List.filter_congr
            intro tag htag
            refine (hs.step_isMemory hc htrap (List.mem_of_mem_drop htag)
              ?_).symm
            rw [hrob]
            exact List.mem_append_left _ htag
    · rw [List.map_map, List.filter_map]
      have hfilter : (s.newLanes i).filter
          ((s.step i).isMemoryTag ∘ s.robAllocTag i) =
          (s.newLanes i).filter (laneIsMemory i) := by
        apply List.filter_congr
        intro l hl
        rw [mem_newLanes] at hl
        have hentry := (hs.step_dispatched hc htrap hrec hl).2.2
        change ((s.step i).rob.entries (s.robAllocTag i l)).isMemory = _
        rw [hentry, renameRobEntry_isMemory]
      rw [hfilter]
      apply List.map_congr_left
      intro l hl
      obtain ⟨hvalid, hmem⟩ := hlane l hl
      exact h.new_owner hc htrap hrec hvalid hmem

theorem MemoryOrder.step (h : s.MemoryOrder) (hs : s.RobReady i)
    (hc : s.Countable) : (s.step i).MemoryOrder := by
  cases htrap : s.trapValid i with
  | true =>
      have hlsq := step_lsq_flush htrap
      have hrob := s.step_rob_flush i htrap
      refine ⟨?_, ?_, ?_, ?_⟩
      · rw [hlsq]
        exact LoadStoreQueue.reset_wf
      · rw [hlsq, hrob]
        rfl
      · intro t ht
        rw [hlsq] at ht
        cases ht
      · intro t ht
        rw [hlsq] at ht
        cases ht
  | false =>
      cases hrec : s.recoveryValid i with
      | true => exact h.step_recover hs hc htrap hrec
      | false => exact h.step_normal hs hc htrap hrec

theorem Reachable.memoryOrder {s : Backend} (h : s.Reachable) :
    s.MemoryOrder := by
  induction h with
  | reset => exact reset_memoryOrder
  | step hreach i ih => exact ih.step hreach.inFlight.robReady hreach.countable

end Step

section Commit

variable {s : Backend} {i : Inputs}

open BackendCommitStage

/-- The LSQ slots and their ROB tags are those of the live memory operations,
in program order. -/
theorem MemoryOrder.pairs_eq (h : s.MemoryOrder) :
    (s.lsq.window.map fun t => (t, s.lsqOwner t)) =
      (s.rob.window.filter s.isMemoryTag).map fun tag =>
        ((s.rob.entries tag).lsqTag, tag) := by
  rw [← h.owners, List.map_map]
  apply List.map_congr_left
  intro t ht
  rw [Function.comp_apply, h.slot t ht]

/-- The memory operation behind `k` others in the ROB is behind the memory
operations among them in the LSQ. -/
theorem MemoryOrder.window_at (h : s.MemoryOrder) {k : Nat} {tag : RobTag}
    (hk : s.rob.window[k]? = some tag) (hmem : s.isMemoryTag tag = true) :
    s.lsq.window[((s.rob.window.take k).filter s.isMemoryTag).length]? =
      some (s.rob.entries tag).lsqTag := by
  have hsplit : s.rob.window.filter s.isMemoryTag =
      (s.rob.window.take k).filter s.isMemoryTag ++
        tag :: (s.rob.window.drop (k + 1)).filter s.isMemoryTag := by
    rw [← List.filter_cons_of_pos hmem, ← List.filter_append]
    congr 1
    obtain ⟨hlt, hget⟩ := List.getElem?_eq_some_iff.mp hk
    rw [← hget, ← List.drop_eq_getElem_cons hlt, List.take_append_drop]
  have howner : (s.lsq.window.map s.lsqOwner)[
      ((s.rob.window.take k).filter s.isMemoryTag).length]? = some tag := by
    rw [h.owners, hsplit, List.getElem?_append_right (Nat.le_refl _),
      Nat.sub_self, List.getElem?_cons_zero]
  rw [List.getElem?_map, Option.map_eq_some_iff] at howner
  obtain ⟨t, ht, rfl⟩ := howner
  rw [ht, h.slot t (List.mem_of_getElem? ht)]

/-- The LSQ head that a commit lane looks at is the entry of its own ROB
entry. -/
theorem MemoryOrder.commit_head (h : s.MemoryOrder)
    {storeReady : LsqEntry → Bool} {l : Lane}
    (hfirst : (scanAt (s.commitInputs i) storeReady l).retirePrefix = true)
    (hvalid : s.rob.commitValid l = true)
    (hmem : (s.rob.commitEntry l).isMemory = true) :
    (s.lsq.headEntry
        (scanAt (s.commitInputs i) storeReady l).memoryOffset).valid = true ∧
      s.lsq.headTag (scanAt (s.commitInputs i) storeReady l).memoryOffset =
        (s.rob.commitEntry l).lsqTag := by
  obtain ⟨hlt, -, hentry⟩ := s.commitValid_entry hvalid
  have hslot : s.rob.window[l.val]? = some (s.commitSlot l) :=
    ReorderBuffer.window_getElem? hlt
  have hoffset : (scanAt (s.commitInputs i) storeReady l).memoryOffset =
      ((s.rob.window.take l.val).filter s.isMemoryTag).length := by
    match l with
    | 0 => rfl
    | 1 =>
        -- Lane 0 is in front, and it passes.
        have hzero : laneCanCommit (s.commitInputs i) storeReady {} 0 =
            true := by
          by_contra hno
          rw [scanAt, afterLane, if_neg hno] at hfirst
          cases hfirst
        have hvalid0 : s.rob.commitValid 0 = true :=
          (laneCanCommit_base hzero).2.2.1
        obtain ⟨hlt0, -, hentry0⟩ := s.commitValid_entry hvalid0
        have htake : s.rob.window.take 1 = [s.commitSlot 0] := by
          have hslot0 : s.rob.window[0]? = some (s.commitSlot 0) :=
            ReorderBuffer.window_getElem? hlt0
          rw [List.take_one, List.head?_eq_getElem?, hslot0]
          rfl
        have hmemory : (s.rob.commitEntry 0).isMemory =
            s.isMemoryTag (s.commitSlot 0) := by
          rw [hentry0]
          rfl
        rw [scanAt, afterLane_memoryOffset, hzero, Bool.true_and]
        change 0 + (s.rob.commitEntry 0).isMemory.toNat =
          ((s.rob.window.take 1).filter s.isMemoryTag).length
        rw [htake, hmemory]
        cases hkind : s.isMemoryTag (s.commitSlot 0) <;> simp [hkind]
  change s.rob.commitEntry l = s.rob.entries (s.commitSlot l) at hentry
  rw [hentry] at hmem ⊢
  have hwindow := h.window_at hslot hmem
  rw [← hoffset] at hwindow
  have hbound : (scanAt (s.commitInputs i) storeReady l).memoryOffset <
      s.lsq.entryCount := by
    obtain ⟨hlen, -⟩ := List.getElem?_eq_some_iff.mp hwindow
    rw [LoadStoreQueue.window_length] at hlen
    exact hlen
  have hvalidSlot := (h.wf.valid_iff _).mpr (List.mem_of_getElem? hwindow)
  rw [LoadStoreQueue.window_getElem? hbound, Option.some.injEq] at hwindow
  rw [LoadStoreQueue.headEntry, LoadStoreQueue.headTag, if_pos hbound,
    if_pos hbound, hwindow]
  exact ⟨hvalidSlot, rfl⟩

/-- What one cycle does to the LSQ: a flush empties it, a recovery keeps the
entries that are not younger than the branch and moves the tail behind them,
and otherwise the retired memory operations leave at the head while the
dispatched ones join at the tail. -/
structure LsqCycle (s : Backend) (i : Inputs) : Prop where
  flush : s.trapValid i = true → (s.step i).lsq.window = []
  recover : s.trapValid i = false → s.recoveryValid i = true →
    (s.step i).lsq.window = s.lsq.window.filter (fun t =>
        decide (s.rob.age (s.lsqOwner t) ≤ s.rob.age (s.recoveryTag i))) ∧
      (s.step i).lsq.headPtr = s.lsq.headPtr ∧
      (s.step i).lsq.tailPtr =
        addPtr s.lsq.headPtr (s.step i).lsq.window.length
  normal : s.trapValid i = false → s.recoveryValid i = false →
    (s.step i).lsq.window =
      s.lsq.window.drop
          ((s.rob.window.take (s.retireCount i)).filter
            s.isMemoryTag).length ++
        ((s.newLanes i).filter (laneIsMemory i)).map (s.lsqAllocTag i)

theorem MemoryOrder.lsqCycle (h : s.MemoryOrder) (hs : s.RobReady i)
    (hc : s.Countable) : s.LsqCycle i where
  flush := by
    intro htrap
    rw [step_lsq_flush htrap]
    rfl
  recover := by
    intro htrap hrec
    obtain ⟨kept, cut, hwindow, -, hkept, hcut⟩ := h.recover_split hs htrap hrec
    have hnext : (s.step i).lsq.window = kept := by
      rw [step_lsq_recover htrap hrec]
      exact h.wf.stepRecover_window _ _ _ hwindow hkept hcut
    have hfilter : s.lsq.window.filter (fun t =>
        decide (s.rob.age (s.lsqOwner t) ≤ s.rob.age (s.recoveryTag i))) =
          kept := by
      have hage : ∀ t ∈ s.lsq.window,
          decide (s.rob.age (s.lsqOwner t) ≤ s.rob.age (s.recoveryTag i)) =
            !s.recoveryYoungerMask i (s.lsqOwner t) := by
        intro t ht
        have hmask := hs.recoveryYoungerMask_eq hrec (s.lsqOwner t)
        have hlive := (h.owner_live ht).1
        cases hyoung : s.recoveryYoungerMask i (s.lsqOwner t) with
        | true =>
            have hlt := (hmask.mp hyoung).2
            simpa using hlt
        | false =>
            rw [hyoung] at hmask
            simpa [hlive] using hmask
      rw [List.filter_congr hage, hwindow, List.filter_append,
        List.filter_eq_self.mpr, List.filter_eq_nil_iff.mpr, List.append_nil]
      · intro t ht
        rw [lsqOwner, hcut t ht]
        decide
      · intro t ht
        rw [lsqOwner, hkept t ht]
        rfl
    refine ⟨hnext.trans hfilter.symm, ?_, ?_⟩
    · rw [step_lsq_recover htrap hrec]
      rfl
    · rw [LoadStoreQueue.window_length, (h.step hs hc).wf.tail_eq,
        step_lsq_recover htrap hrec]
      rfl
  normal := by
    intro htrap hrec
    rw [h.step_window_normal hc htrap hrec, lsqRetireCount_eq]

/-- The LSQ is the memory part of the ROB.  Its entries are the live memory
operations in program order, each side names the other's slot, every cycle
keeps this, and a complete memory operation whose turn it is to commit always
finds its own entry at the LSQ head. -/
theorem Reachable.lsq_matches_rob (hreach : s.Reachable) :
    (s.lsq.window.map fun t => (t, s.lsqOwner t)) =
        ((s.rob.window.filter s.isMemoryTag).map fun tag =>
          ((s.rob.entries tag).lsqTag, tag)) ∧
      (∀ t, (s.lsq.entries t).valid = true ↔ t ∈ s.lsq.window) ∧
      (∀ i, s.LsqCycle i) ∧
      ∀ i storeReady l,
        (scanAt (s.commitInputs i) storeReady l).retirePrefix = true →
        s.rob.commitValid l = true →
        (s.rob.commitEntry l).isMemory = true →
          (s.lsq.headEntry (scanAt (s.commitInputs i) storeReady
              l).memoryOffset).valid = true ∧
            s.lsq.headTag (scanAt (s.commitInputs i) storeReady
              l).memoryOffset = (s.rob.commitEntry l).lsqTag := by
  have hm := hreach.memoryOrder
  refine ⟨hm.pairs_eq, hm.wf.valid_iff, ?_, ?_⟩
  · intro i
    exact hm.lsqCycle hreach.inFlight.robReady hreach.countable
  · intro i storeReady l hfirst hvalid hmem
    exact hm.commit_head hfirst hvalid hmem

/-- A store and a load dispatched together, behind an addition. -/
theorem lsq_matches_rob_pair :
    ((reset.step (offerPair 0x00100093 0)).step
        (offerPair 0x00002023 0x00002103)).lsq.window = [0, 1] ∧
      (((reset.step (offerPair 0x00100093 0)).step
        (offerPair 0x00002023 0x00002103)).rob.window.filter
          ((reset.step (offerPair 0x00100093 0)).step
            (offerPair 0x00002023 0x00002103)).isMemoryTag).map (fun tag =>
        ((((reset.step (offerPair 0x00100093 0)).step
          (offerPair 0x00002023 0x00002103)).rob.entries tag).lsqTag, tag)) =
        [(0, 1), (1, 2)] := by
  have hpairs := ((Reachable.reset.step (offerPair 0x00100093 0)).step
    (offerPair 0x00002023 0x00002103)).lsq_matches_rob.1
  refine ⟨by decide +kernel, ?_⟩
  rw [← hpairs]
  decide +kernel

end Commit

end Backend

end OoOCore
