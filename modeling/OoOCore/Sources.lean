/-
Source registers: the physical registers an unissued uop reads, and the data
register a queued store waits for, are the names its operands had just before
it in program order.  That map does not move while the uop is live.
-/
import OoOCore.MemoryOrder
import OoOCore.RenameRefinement

namespace OoOCore

namespace Backend

section Overlay

variable {s : Backend} {i : Inputs}

/-- One slot's write, as `overlaid` applies it. -/
def installSlot (s : Backend) (m : ArchReg → PhysReg) (tag : RobTag) :
    ArchReg → PhysReg :=
  if (s.rob.entries tag).writesRd then
    Function.update m (s.rob.entries tag).archRd (s.rob.entries tag).newPhys
  else m

theorem overlaid_foldl (s : Backend) (tags : List RobTag) :
    s.overlaid tags =
      tags.foldl s.installSlot s.rename.mapTable.committedMap := rfl

theorem overlaid_append (s : Backend) (first second : List RobTag) :
    s.overlaid (first ++ second) =
      second.foldl s.installSlot (s.overlaid first) := by
  rw [overlaid_foldl, overlaid_foldl, List.foldl_append]

/-- A live writer never renames `x0`. -/
theorem RenamingWf.archRd_ne_zero (hwf : s.RenamingWf) {tag : RobTag}
    (hlive : tag ∈ s.rob.window)
    (hwrites : (s.rob.entries tag).writesRd = true) :
    (s.rob.entries tag).archRd ≠ 0 := by
  have hmem : s.renamingItem tag ∈ s.renamingState.queue :=
    List.mem_map_of_mem hlive
  have hwrite : (s.renamingItem tag).write =
      some ⟨(s.rob.entries tag).archRd, (s.rob.entries tag).newPhys,
        (s.rob.entries tag).oldPhys⟩ := by
    rw [renamingItem, hwrites, if_pos rfl]
  exact hwf.not_pinned _ hmem _ hwrite

/-- `x0` is `p0` in every overlay of live slots. -/
theorem RenamingWf.overlaid_zero (hwf : s.RenamingWf) {tags : List RobTag}
    (hlive : ∀ tag ∈ tags, tag ∈ s.rob.window) : s.overlaid tags 0 = 0 := by
  induction tags using List.reverseRecOn with
  | nil => exact hwf.pinned
  | append_singleton rest tag ih =>
      rw [overlaid_append, List.foldl_cons, List.foldl_nil, installSlot]
      have hrest := ih fun t ht => hlive t (List.mem_append_left _ ht)
      split
      · next hwrites =>
        have htag := hlive tag (List.mem_append_right _ (by simp))
        rw [Function.update_of_ne (hwf.archRd_ne_zero htag hwrites).symm]
        exact hrest
      · exact hrest

/-- A commit lane installs the write of its slot. -/
theorem RenamingWf.commitLane_eq (hwf : s.RenamingWf) {l : Lane}
    (h : s.robRetireValid i l = true) (m : ArchReg → PhysReg) :
    RenameMapTable.commitLane m (s.commitLane i l) =
      s.installSlot m (s.commitSlot l) := by
  have hentry := s.commitValid_entry (s.robRetireValid_base i h).2.1
  have hslot : s.rob.commitEntry l = s.rob.entries (s.commitSlot l) :=
    hentry.2.2
  have hlive : s.commitSlot l ∈ s.rob.window :=
    List.mem_of_getElem? (ReorderBuffer.window_getElem? hentry.1)
  unfold RenameMapTable.commitLane installSlot
  have harch : (s.commitLane i l).archRd =
      if (s.rob.entries (s.commitSlot l)).writesRd then
        (s.rob.entries (s.commitSlot l)).archRd else 0 := by
    rw [← hslot]
    rfl
  have hnew : (s.commitLane i l).newPhys =
      (s.rob.entries (s.commitSlot l)).newPhys := by
    rw [← hslot]
    rfl
  rw [harch, hnew]
  cases hw : (s.rob.entries (s.commitSlot l)).writesRd with
  | false => simp
  | true =>
      have hne := hwf.archRd_ne_zero hlive hw
      rw [if_pos rfl, if_pos ⟨h, hne⟩, if_pos rfl]

/-- Retirement moves the writes of the retired slots into the committed map. -/
theorem RenamingWf.step_committedMap_eq (hwf : s.RenamingWf) :
    (s.step i).rename.mapTable.committedMap =
      s.overlaid (s.rob.window.take (s.retireCount i)) := by
  rw [take_retireCount, step_committedMap, overlaid_foldl, retiredLanes]
  cases h0 : s.robRetireValid i 0 with
  | false =>
      have h1 := s.robRetireValid_one_false i h0
      rw [s.commitLane_of_not_retired i _ h0,
        s.commitLane_of_not_retired i _ h1]
      simp [h0, h1]
  | true =>
      rw [hwf.commitLane_eq h0]
      cases h1 : s.robRetireValid i 1 with
      | false =>
          rw [s.commitLane_of_not_retired i _ h1]
          simp [h0, h1]
      | true =>
          rw [hwf.commitLane_eq h1]
          simp [h0, h1]

theorem RobReady.step_installSlot (hs : s.RobReady i) (hc : s.Countable)
    (htrap : s.trapValid i = false) {tag : RobTag}
    (hold : tag ∈ s.rob.window) (hnew : tag ∈ (s.step i).rob.window)
    (m : ArchReg → PhysReg) :
    (s.step i).installSlot m tag = s.installSlot m tag := by
  obtain ⟨hwrites, harch, hphys, -, -⟩ := RobEntry.atDispatch_renaming
    (hs.step_survivor hc htrap hold hnew).1
  unfold installSlot
  rw [hwrites, harch, hphys]

theorem RobReady.foldl_installSlot (hs : s.RobReady i) (hc : s.Countable)
    (htrap : s.trapValid i = false) {tags : List RobTag}
    (hold : ∀ tag ∈ tags, tag ∈ s.rob.window)
    (hnew : ∀ tag ∈ tags, tag ∈ (s.step i).rob.window)
    (m : ArchReg → PhysReg) :
    tags.foldl (s.step i).installSlot m = tags.foldl s.installSlot m := by
  induction tags generalizing m with
  | nil => rfl
  | cons tag rest ih =>
      rw [List.foldl_cons, List.foldl_cons,
        hs.step_installSlot hc htrap (hold tag (by simp)) (hnew tag (by simp))]
      exact ih (fun t ht => hold t (List.mem_cons_of_mem _ ht))
        (fun t ht => hnew t (List.mem_cons_of_mem _ ht)) _

/-- The slots in front of one that stays live, after the edge. -/
theorem RobReady.split_step (hs : s.RobReady i) (hc : s.Countable)
    (htrap : s.trapValid i = false) {tag : RobTag}
    {older younger older' younger' : List RobTag}
    (hwindow : s.rob.window = older ++ tag :: younger)
    (hwindow' : (s.step i).rob.window = older' ++ tag :: younger') :
    older' = older.drop (s.retireCount i) ∧
      s.retireCount i ≤ older.length := by
  have hnodup := hs.wf.window_nodup
  have hnot : tag ∉ older := by
    rw [hwindow, List.nodup_append] at hnodup
    intro hmem
    exact hnodup.2.2 tag hmem tag (by simp) rfl
  cases hrec : s.recoveryValid i with
  | true =>
      have hzero : s.retireCount i = 0 := by
        simp [retireCount, s.robRetireValid_of_recovery i hrec]
      rw [hzero, List.drop_zero]
      refine ⟨?_, Nat.zero_le _⟩
      have htake := hs.step_window_recover htrap hrec
      have hmem : tag ∈ (s.step i).rob.window := by
        rw [hwindow']
        simp
      rw [hwindow] at htake
      have hlt : older.length < s.rob.age (s.recoveryTag i) + 1 := by
        by_contra hge
        rw [List.take_append_of_le_length (by omega)] at htake
        rw [htake] at hmem
        exact hnot (List.mem_of_mem_take hmem)
      rw [List.take_append, List.take_of_length_le (by omega)] at htake
      obtain ⟨k, hk⟩ : ∃ k, s.rob.age (s.recoveryTag i) + 1 - older.length =
          k + 1 := ⟨s.rob.age (s.recoveryTag i) - older.length, by omega⟩
      rw [hk, List.take_succ_cons] at htake
      exact hs.step_wf.split_unique hwindow' htake
  | false =>
      have hnext := hs.step_window_normal hc htrap hrec
      have hmem : tag ∈ s.rob.window.drop (s.retireCount i) := by
        have hin : tag ∈ (s.step i).rob.window := by
          rw [hwindow']
          simp
        rw [hnext, List.mem_append] at hin
        rcases hin with h | h
        · exact h
        · obtain ⟨l, hl, rfl⟩ := List.mem_map.mp h
          rw [mem_newLanes] at hl
          have hlive : s.robAllocTag i l ∈ s.rob.window := by
            rw [hwindow]
            simp
          exact absurd rfl (hs.robAllocTag_fresh hc hlive l hl)
      have hle : s.retireCount i ≤ older.length := by
        by_contra hgt
        have htake : tag ∈ s.rob.window.take (s.retireCount i) := by
          apply List.mem_of_getElem? (i := older.length)
          rw [List.getElem?_take_of_lt (by omega), hwindow,
            List.getElem?_append_right (Nat.le_refl _)]
          simp
        exact List.disjoint_take_drop hnodup (Nat.le_refl _) htake hmem
      refine ⟨?_, hle⟩
      rw [hwindow, List.drop_append_of_le_length hle, List.append_assoc,
        List.cons_append] at hnext
      exact hs.step_wf.split_unique hwindow' hnext

/-- The map in front of a live slot does not move. -/
theorem RenamingWf.overlaid_step (hwf : s.RenamingWf) (hs : s.RobReady i)
    (hc : s.Countable) (htrap : s.trapValid i = false) {tag : RobTag}
    {older younger older' younger' : List RobTag}
    (hwindow : s.rob.window = older ++ tag :: younger)
    (hwindow' : (s.step i).rob.window = older' ++ tag :: younger') :
    (s.step i).overlaid older' = s.overlaid older := by
  obtain ⟨holder, hle⟩ := hs.split_step hc htrap hwindow hwindow'
  have hold (t : RobTag) (ht : t ∈ older') : t ∈ s.rob.window := by
    rw [holder] at ht
    rw [hwindow]
    exact List.mem_append_left _ (List.mem_of_mem_drop ht)
  have hnew (t : RobTag) (ht : t ∈ older') : t ∈ (s.step i).rob.window := by
    rw [hwindow']
    exact List.mem_append_left _ ht
  have htake : s.rob.window.take (s.retireCount i) =
      older.take (s.retireCount i) := by
    rw [hwindow, List.take_append_of_le_length hle]
  calc (s.step i).overlaid older'
      = older'.foldl (s.step i).installSlot
          (s.overlaid (older.take (s.retireCount i))) := by
        rw [overlaid_foldl, hwf.step_committedMap_eq, htake]
    _ = (older.drop (s.retireCount i)).foldl s.installSlot
          (s.overlaid (older.take (s.retireCount i))) := by
        rw [hs.foldl_installSlot hc htrap hold hnew, holder]
    _ = s.overlaid older := by
        rw [← overlaid_append, List.take_append_drop]

/-- Behind the surviving slots the map is the speculative one. -/
theorem RenamingWf.overlaid_drop (hwf : s.RenamingWf) (hs : s.RobReady i)
    (hc : s.Countable) (htrap : s.trapValid i = false)
    (hrec : s.recoveryValid i = false) :
    (s.step i).overlaid (s.rob.window.drop (s.retireCount i)) =
      s.rename.mapTable.speculativeMap := by
  have hnew (t : RobTag) (ht : t ∈ s.rob.window.drop (s.retireCount i)) :
      t ∈ (s.step i).rob.window := by
    rw [hs.step_window_normal hc htrap hrec]
    exact List.mem_append_left _ ht
  have hspec : s.rename.mapTable.speculativeMap = s.overlaid s.rob.window := by
    rw [overlaid_eq]
    exact hwf.speculative_eq
  rw [hspec, overlaid_foldl, hwf.step_committedMap_eq,
    hs.foldl_installSlot hc htrap (fun t ht => List.mem_of_mem_drop ht) hnew,
    ← overlaid_append, List.take_append_drop]

theorem RenamingWf.speculative_zero (hwf : s.RenamingWf) :
    s.rename.mapTable.speculativeMap 0 = 0 := by
  have hspec : s.rename.mapTable.speculativeMap = s.overlaid s.rob.window := by
    rw [overlaid_eq]
    exact hwf.speculative_eq
  rw [hspec]
  exact hwf.overlaid_zero fun _ h => h

/-- The new slot of lane 0 writes the map as its rename lane does. -/
theorem RobReady.installSlot_zero (hs : s.RobReady i) (hc : s.Countable)
    (htrap : s.trapValid i = false) (hrec : s.recoveryValid i = false)
    (h0 : s.robAllocValid i 0 = true) (m : ArchReg → PhysReg) :
    (s.step i).installSlot m (s.robAllocTag i 0) =
      RenameMapTable.writeLane m (s.renameLane i 0) := by
  have hentry := (hs.step_dispatched hc htrap hrec h0).2.2
  have hvalid : (s.renameLane i 0).valid =
      RenameStage.writesDestination (decodeBus i 0) := by
    change s.destinationAllocValid i 0 = _
    rw [hc.destinationAllocValid_eq, freeRequest, ← robAllocValid_eq, h0]
    rfl
  unfold installSlot RenameMapTable.writeLane
  rw [hentry, hvalid]
  change (if RenameStage.writesDestination (decodeBus i 0) then _ else m) = _
  cases hw : RenameStage.writesDestination (decodeBus i 0) with
  | false => simp
  | true =>
      have hrd : (s.renameLane i 0).archRd ≠ 0 := writesDestination_rd hw
      rw [if_pos rfl, if_pos ⟨rfl, hrd⟩]
      simp [ReorderBuffer.allocWrite, renameRobEntry, RenameStage.robEntry,
        hw, laneContext, renameLane]

/-- A dispatched lane looks its registers up in the map in front of it. -/
theorem RenamingWf.renameLookup_eq (hwf : s.RenamingWf) (hs : s.RobReady i)
    (hc : s.Countable) (htrap : s.trapValid i = false)
    (hrec : s.recoveryValid i = false) {l : Lane}
    (hl : s.robAllocValid i l = true) {older younger : List RobTag}
    (hwindow : (s.step i).rob.window = older ++ s.robAllocTag i l :: younger)
    (r : ArchReg) : s.renameLookup i l r = (s.step i).overlaid older r := by
  have hnext := hs.step_window_normal hc htrap hrec
  have hzero := hwf.speculative_zero
  have hdrop := hwf.overlaid_drop hs hc htrap hrec
  match l, hl with
  | 0, hl =>
      have hnew : (s.newLanes i).map (s.robAllocTag i) =
          s.robAllocTag i 0 ::
            ([1].filter (s.robAllocValid i)).map (s.robAllocTag i) := by
        simp [newLanes, hl]
      rw [hnew] at hnext
      have holder := hs.step_wf.split_unique hwindow hnext
      rw [holder, hdrop]
      change s.rename.mapTable.lookup0 r = _
      unfold RenameMapTable.lookup0
      split
      · next hr => rw [hr, hzero]
      · rfl
  | 1, hl =>
      cases h0 : s.robAllocValid i 0 with
      | false =>
          have hnew : (s.newLanes i).map (s.robAllocTag i) =
              [s.robAllocTag i 1] := by
            simp [newLanes, hl, h0]
          rw [hnew] at hnext
          have holder := hs.step_wf.split_unique hwindow hnext
          rw [holder, hdrop]
          have hvalid : (s.renameLane i 0).valid = false := by
            change s.destinationAllocValid i 0 = false
            rw [hc.destinationAllocValid_eq, freeRequest, ← robAllocValid_eq,
              h0]
            rfl
          change s.rename.mapTable.lookup1 (s.renameLane i 0) r = _
          unfold RenameMapTable.lookup1
          rw [hvalid]
          split
          · next hr => rw [hr, hzero]
          · simp
      | true =>
          have hnew : s.rob.window.drop (s.retireCount i) ++
              (s.newLanes i).map (s.robAllocTag i) =
              (s.rob.window.drop (s.retireCount i) ++ [s.robAllocTag i 0]) ++
                s.robAllocTag i 1 :: [] := by
            simp [newLanes, hl, h0]
          rw [hnew] at hnext
          have holder := hs.step_wf.split_unique hwindow hnext
          rw [holder, overlaid_append, hdrop, List.foldl_cons,
            List.foldl_nil, hs.installSlot_zero hc htrap hrec h0]
          change s.rename.mapTable.lookup1 (s.renameLane i 0) r = _
          unfold RenameMapTable.lookup1 RenameMapTable.writeLane
          by_cases hr : r = 0
          · rw [if_pos hr, hr]
            split
            · next hlane =>
              rw [Function.update_of_ne hlane.2.symm, hzero]
            · exact hzero.symm
          · rw [if_neg hr]
            by_cases hlane : (s.renameLane i 0).valid = true ∧
                (s.renameLane i 0).archRd ≠ 0
            · rw [if_pos hlane]
              by_cases heq : r = (s.renameLane i 0).archRd
              · rw [if_pos ⟨hlane.1, hlane.2, heq⟩, heq, Function.update_self]
              · rw [if_neg (fun h => heq h.2.2), Function.update_of_ne heq]
            · rw [if_neg hlane, if_neg (fun h => hlane ⟨h.1, h.2.1⟩)]

end Overlay

/-- Unissued uops and queued stores wait for the names their operands had just
before them. -/
structure Sources (s : Backend) : Prop where
  iq : ∀ j older younger, (s.iq.entries j).valid = true →
    s.rob.window = older ++ (s.iq.entries j).robTag :: younger →
      (s.iq.entries j).src1Phys =
          s.overlaid older (decoder (s.iq.entries j).origin.insn).rs1 ∧
        (s.iq.entries j).src2Phys =
          s.overlaid older (decoder (s.iq.entries j).origin.insn).rs2
  lsq : ∀ t older younger, t ∈ s.lsq.window →
    s.rob.window = older ++ s.lsqOwner t :: younger →
      (s.lsq.entries t).storeDataPhys =
        s.overlaid older (decoder (s.lsq.entries t).origin.insn).rs2

section Step

variable {s : Backend} {i : Inputs}

theorem live_split {tag : RobTag} (h : tag ∈ s.rob.window) :
    ∃ older younger, s.rob.window = older ++ tag :: younger :=
  List.append_of_mem h

theorem Sources.step_iq (h : s.Sources) (hs : s.InFlight) (hc : s.Countable)
    (hwf : s.RenamingWf) (htrap : s.trapValid i = false) {j : IqIndex}
    {older younger : List RobTag}
    (hvalid : ((s.step i).iq.entries j).valid = true)
    (hwindow : (s.step i).rob.window =
      older ++ ((s.step i).iq.entries j).robTag :: younger) :
    ((s.step i).iq.entries j).src1Phys = (s.step i).overlaid older
        (decoder ((s.step i).iq.entries j).origin.insn).rs1 ∧
      ((s.step i).iq.entries j).src2Phys = (s.step i).overlaid older
        (decoder ((s.step i).iq.entries j).origin.insn).rs2 := by
  rcases iq_step htrap hvalid with ⟨l, hd, heq⟩ | ⟨hold, -, -, heq⟩
  · rw [heq] at hwindow ⊢
    have hl := hc.dispatchedTo_accepted hd
    have hlook := hwf.renameLookup_eq hs.robReady hc htrap hd.1 hl hwindow
    exact ⟨hlook _, hlook _⟩
  · rw [heq] at hwindow ⊢
    obtain ⟨older0, younger0, hwindow0⟩ :=
      live_split (hs.live _ _ (s.heldAt_iq hold))
    have hmap := hwf.overlaid_step hs.robReady hc htrap hwindow0 hwindow
    rw [hmap]
    exact h.iq j older0 younger0 hold hwindow0

theorem Sources.step_lsq (h : s.Sources) (hs : s.InFlight) (hc : s.Countable)
    (hm : s.MemoryOrder) (hwf : s.RenamingWf) (htrap : s.trapValid i = false)
    {t : LsqTag} {older younger : List RobTag}
    (ht : t ∈ (s.step i).lsq.window)
    (hwindow : (s.step i).rob.window =
      older ++ (s.step i).lsqOwner t :: younger) :
    ((s.step i).lsq.entries t).storeDataPhys = (s.step i).overlaid older
      (decoder ((s.step i).lsq.entries t).origin.insn).rs2 := by
  by_cases hold : t ∈ s.lsq.window
  · obtain ⟨hframe, howner⟩ := hm.step_owner hs.robReady htrap hold ht
    obtain ⟨-, -, hphys, horigin⟩ := LsqEntry.atDispatch_fields hframe
    rw [howner] at hwindow
    obtain ⟨older0, younger0, hwindow0⟩ := live_split (hm.owner_live hold).1
    have hmap := hwf.overlaid_step hs.robReady hc htrap hwindow0 hwindow
    rw [hphys, horigin, hmap]
    exact h.lsq t older0 younger0 hold hwindow0
  · obtain ⟨hrec, l, hl, hmem, rfl⟩ := hm.step_window_new hs.robReady hc htrap
      hold ht
    rw [hm.new_owner hc htrap hrec hl hmem] at hwindow
    have hlook := hwf.renameLookup_eq hs.robReady hc htrap hrec hl hwindow
    have hentry := hm.step_new hc htrap hrec hl hmem
    have hframe := LoadStoreQueue.allocWrite_atDispatch (s.renameLsqEntry i l)
    rw [← hentry] at hframe
    obtain ⟨-, -, hphys, horigin⟩ := LsqEntry.atDispatch_fields hframe
    change ((s.step i).lsq.entries (s.lsqAllocTag i l)).storeDataPhys =
      s.renameLookup i l (decodeBus i l).rs2 at hphys
    change ((s.step i).lsq.entries (s.lsqAllocTag i l)).origin =
      ⟨s.laneUid i l, (i.packet l).insn⟩ at horigin
    rw [hphys, horigin, hlook]
    rfl

theorem Sources.step (h : s.Sources) (hs : s.InFlight) (hc : s.Countable)
    (hm : s.MemoryOrder) (hwf : s.RenamingWf) : (s.step i).Sources := by
  constructor
  · intro j older younger hvalid hwindow
    have htrap := not_trap_of_held ((s.step i).heldAt_iq hvalid)
    exact h.step_iq hs hc hwf htrap hvalid hwindow
  · intro t older younger ht hwindow
    exact h.step_lsq hs hc hm hwf (not_trap_of_queued ht) ht hwindow

theorem Reachable.sources {s : Backend} (h : s.Reachable) : s.Sources := by
  induction h with
  | reset =>
      constructor
      · intro j older younger hvalid
        cases hvalid
      · intro t older younger ht
        cases ht
  | step hreach i ih =>
      exact ih.step hreach.inFlight hreach.countable hreach.memoryOrder
        hreach.renamingWf

end Step

end Backend

end OoOCore
