/-
The load/store queue as a window of its ring, and what one clock edge does to
the window and to the entries in it.
-/
import OoOCore.Lib.DualRing
import OoOCore.LoadStoreQueue

namespace OoOCore

/-- The fields of an LSQ entry that dispatch fixes. -/
def LsqEntry.atDispatch (e : LsqEntry) : LsqEntry :=
  { e with
    valid := true, addressReady := false, address := 0, dataReady := false,
    storeData := 0 }

theorem LsqEntry.atDispatch_fields {e e' : LsqEntry}
    (h : e'.atDispatch = e.atDispatch) :
    e'.isStore = e.isStore ∧ e'.memCtr = e.memCtr ∧
      e'.storeDataPhys = e.storeDataPhys ∧ e'.origin = e.origin := by
  have hstore := congrArg LsqEntry.isStore h
  have haccess := congrArg LsqEntry.memCtr h
  have hphys := congrArg LsqEntry.storeDataPhys h
  have horigin := congrArg LsqEntry.origin h
  exact ⟨hstore, haccess, hphys, horigin⟩

namespace LoadStoreQueue

/-- The occupied slots, oldest first. -/
def window (q : LoadStoreQueue) : List LsqTag :=
  Ring.slots q.headPtr q.entryCount

/-- The pointers delimit the valid entries. -/
structure Wf (q : LoadStoreQueue) : Prop where
  count_le : q.entryCount ≤ depth
  tail_eq : q.tailPtr = addPtr q.headPtr q.entryCount
  valid_iff : ∀ tag, (q.entries tag).valid = true ↔ tag ∈ q.window

theorem reset_wf : reset.Wf where
  count_le := by decide
  tail_eq := by decide
  valid_iff := by
    intro tag
    simp [reset, window, Ring.slots]
    rfl

theorem window_length (q : LoadStoreQueue) :
    q.window.length = q.entryCount := by
  simp [window]

theorem Wf.window_nodup {q : LoadStoreQueue} (hwf : q.Wf) : q.window.Nodup :=
  Ring.slots_nodup _ hwf.count_le

theorem window_getElem? {q : LoadStoreQueue} {k : Nat}
    (hk : k < q.entryCount) : q.window[k]? = some (addPtr q.headPtr k) :=
  Ring.slots_getElem? _ hk

section Capture

variable (q : LoadStoreQueue) (hidden : RobTag → Bool) (u : LsqUpdate)
  (wb : Lane → Writeback)

/-- The update port names the slot. -/
def updates (tag : LsqTag) : Bool :=
  decide (u.tag = tag) && q.updateTarget hidden tag

/-- A write-back lane brings the data the store in the slot waits for. -/
def snoops (w : Writeback) (tag : LsqTag) : Bool :=
  (q.entries tag).valid && (q.entries tag).isStore &&
    !(q.entries tag).dataReady && !hidden (q.entries tag).robTag && w.valid &&
    decide (w.phys = (q.entries tag).storeDataPhys)

/-- One entry after the update port and the write-back snoop. -/
def captured (tag : LsqTag) (e : LsqEntry) : LsqEntry :=
  let addressed := if u.addressValid && q.updates hidden u tag then
      { e with addressReady := true, address := u.address }
    else e
  let issued := if u.storeDataValid && q.updates hidden u tag then
      { addressed with dataReady := true, storeData := u.storeData }
    else addressed
  let first := if q.snoops hidden (wb 0) tag then
      { issued with dataReady := true, storeData := (wb 0).data }
    else issued
  if q.snoops hidden (wb 1) tag then
    { first with dataReady := true, storeData := (wb 1).data }
  else first

theorem applyUpdate_apply (next : LsqTag → LsqEntry) (tag : LsqTag) :
    q.applyUpdate hidden u next tag =
      if u.storeDataValid && q.updates hidden u tag then
        { (if u.addressValid && q.updates hidden u tag then
            { next tag with addressReady := true, address := u.address }
          else next tag) with dataReady := true, storeData := u.storeData }
      else if u.addressValid && q.updates hidden u tag then
        { next tag with addressReady := true, address := u.address }
      else next tag := by
  unfold applyUpdate updates
  by_cases htag : u.tag = tag
  · subst htag
    cases u.addressValid <;> cases u.storeDataValid <;>
      cases q.updateTarget hidden u.tag <;> simp
  · have htag' : tag ≠ u.tag := fun h => htag h.symm
    cases u.addressValid <;> cases u.storeDataValid <;>
      cases q.updateTarget hidden u.tag <;>
      simp [htag, Function.update_of_ne htag']

theorem snoopLane_apply (w : Writeback) (next : LsqTag → LsqEntry)
    (tag : LsqTag) : q.snoopLane hidden w next tag =
      if q.snoops hidden w tag then
        { next tag with dataReady := true, storeData := w.data }
      else next tag := by
  unfold snoopLane snoops
  simp only [Bool.and_eq_true, Bool.not_eq_true', decide_eq_true_eq]
  by_cases h : (q.entries tag).valid = true ∧ (q.entries tag).isStore = true ∧
      ¬ (q.entries tag).dataReady = true ∧
      ¬ hidden (q.entries tag).robTag = true ∧ w.valid = true ∧
      w.phys = (q.entries tag).storeDataPhys
  · rw [if_pos h, if_pos]
    obtain ⟨h1, h2, h3, h4, h5, h6⟩ := h
    rw [Bool.not_eq_true] at h3 h4
    exact ⟨⟨⟨⟨⟨h1, h2⟩, h3⟩, h4⟩, h5⟩, h6⟩
  · rw [if_neg h, if_neg]
    rintro ⟨⟨⟨⟨⟨h1, h2⟩, h3⟩, h4⟩, h5⟩, h6⟩
    exact h ⟨h1, h2, by simp [h3], by simp [h4], h5, h6⟩

theorem snoop_apply (next : LsqTag → LsqEntry) (tag : LsqTag) :
    q.snoop hidden wb (q.applyUpdate hidden u next) tag =
      q.captured hidden u wb tag (next tag) := by
  unfold snoop captured
  rw [snoopLane_apply, snoopLane_apply, applyUpdate_apply]

variable {q hidden u wb}

/-- Capturing writes only the address and the store data. -/
theorem captured_frame (tag : LsqTag) (e : LsqEntry) :
    (q.captured hidden u wb tag e).atDispatch = e.atDispatch ∧
      (q.captured hidden u wb tag e).valid = e.valid := by
  unfold captured
  cases u.addressValid && q.updates hidden u tag <;>
    cases u.storeDataValid && q.updates hidden u tag <;>
    cases q.snoops hidden (wb 0) tag <;>
    cases q.snoops hidden (wb 1) tag <;> exact ⟨rfl, rfl⟩

theorem captured_of_not_valid {tag : LsqTag}
    (h : (q.entries tag).valid = false) (e : LsqEntry) :
    q.captured hidden u wb tag e = e := by
  simp [captured, updates, updateTarget, snoops, h]

end Capture

section StepRecover

variable {q : LoadStoreQueue} (mask : RobTag → Bool) (u : LsqUpdate)
  (wb : Lane → Writeback)

theorem stepRecover_entries (tag : LsqTag) :
    (q.stepRecover mask u wb).entries tag =
      q.captured mask u wb tag
        (if (q.entries tag).valid ∧ mask (q.entries tag).robTag then default
        else q.entries tag) := by
  change q.snoop mask wb (q.applyUpdate mask u _) tag = _
  rw [snoop_apply]

theorem Wf.recoveryRetainedCount_eq (hwf : q.Wf) :
    q.recoveryRetainedCount mask =
      q.window.countP fun tag => !mask (q.entries tag).robTag := by
  have hwindow : q.window = (List.range q.entryCount).map
      (fun k => addPtr q.headPtr k) := rfl
  have hrange : List.range depth = List.range q.entryCount ++
      (List.range (depth - q.entryCount)).map (q.entryCount + ·) := by
    rw [← List.range_add, Nat.add_sub_cancel' hwf.count_le]
  rw [hwindow, List.countP_map]
  unfold recoveryRetainedCount
  rw [hrange, List.countP_append]
  have hrest : List.countP (fun offset =>
      decide (offset < q.entryCount) &&
        (q.entries (addPtr q.headPtr offset)).valid &&
        !mask (q.entries (addPtr q.headPtr offset)).robTag)
      ((List.range (depth - q.entryCount)).map (q.entryCount + ·)) = 0 := by
    rw [List.countP_eq_zero]
    intro k hk
    obtain ⟨m, -, rfl⟩ := List.mem_map.mp hk
    simp
  rw [hrest, Nat.add_zero]
  apply List.countP_congr
  intro k hk
  rw [List.mem_range] at hk
  have hvalid : (q.entries (addPtr q.headPtr k)).valid = true := by
    rw [hwf.valid_iff]
    exact List.mem_of_getElem? (window_getElem? hk)
  simp [hk, hvalid]

theorem Wf.recoveryRetainedCount_cut (hwf : q.Wf) {older younger : List LsqTag}
    (hwindow : q.window = older ++ younger)
    (holder : ∀ tag ∈ older, mask (q.entries tag).robTag = false)
    (hyounger : ∀ tag ∈ younger, mask (q.entries tag).robTag = true) :
    q.recoveryRetainedCount mask = older.length := by
  rw [hwf.recoveryRetainedCount_eq, hwindow, List.countP_append]
  have h0 : List.countP (fun tag => !mask (q.entries tag).robTag) older =
      older.length := by
    rw [List.countP_eq_length]
    intro tag htag
    simp [holder tag htag]
  have h1 : List.countP (fun tag => !mask (q.entries tag).robTag) younger =
      0 := by
    rw [List.countP_eq_zero]
    intro tag htag
    simp [hyounger tag htag]
  omega

theorem Wf.stepRecover_window (hwf : q.Wf) {older younger : List LsqTag}
    (hwindow : q.window = older ++ younger)
    (holder : ∀ tag ∈ older, mask (q.entries tag).robTag = false)
    (hyounger : ∀ tag ∈ younger, mask (q.entries tag).robTag = true) :
    (q.stepRecover mask u wb).window = older := by
  have hcount := hwf.recoveryRetainedCount_cut mask hwindow holder hyounger
  have hlen : older.length ≤ q.entryCount := by
    rw [← q.window_length, hwindow, List.length_append]
    omega
  change Ring.slots q.headPtr (q.recoveryRetainedCount mask) = older
  rw [hcount, ← Ring.slots_take q.headPtr hlen]
  change q.window.take older.length = older
  rw [hwindow, List.take_left]

theorem Wf.stepRecover_wf (hwf : q.Wf) {older younger : List LsqTag}
    (hwindow : q.window = older ++ younger)
    (holder : ∀ tag ∈ older, mask (q.entries tag).robTag = false)
    (hyounger : ∀ tag ∈ younger, mask (q.entries tag).robTag = true) :
    (q.stepRecover mask u wb).Wf where
  count_le := by
    have hcount := hwf.recoveryRetainedCount_cut mask hwindow holder hyounger
    have hlen : older.length ≤ q.entryCount := by
      rw [← q.window_length, hwindow, List.length_append]
      omega
    change q.recoveryRetainedCount mask ≤ depth
    have := hwf.count_le
    omega
  tail_eq := rfl
  valid_iff := by
    intro tag
    rw [hwf.stepRecover_window mask u wb hwindow holder hyounger,
      stepRecover_entries, (captured_frame _ _).2]
    have hmem := hwf.valid_iff tag
    rw [hwindow, List.mem_append] at hmem
    constructor
    · intro hvalid
      split at hvalid
      · cases hvalid
      · next hnot =>
        rcases hmem.mp hvalid with h | h
        · exact h
        · exact absurd ⟨hvalid, hyounger tag h⟩ hnot
    · intro h
      rw [if_neg (by simp [holder tag h])]
      exact hmem.mpr (Or.inl h)

end StepRecover

section StepNormal

variable (q : LoadStoreQueue) (allocValid : Lane → Bool)
  (allocEntry : Lane → LsqEntry) (u : LsqUpdate) (wb : Lane → Writeback)
  (retireCount : Nat)

/-- The lanes whose allocation the queue accepts, in order. -/
def allocLanes : List Lane := [0, 1].filter (q.allocFire allocValid)

/-- The edge of the ring: what is offered, and what leaves. -/
def ports (retireCount : Nat) : DualRing depth where
  head := q.headPtr
  tail := q.tailPtr
  count := q.entryCount
  valid := allocValid
  leaving := q.retireAccepted retireCount

theorem allocAccepted_le (hle : q.entryCount ≤ depth) :
    q.entryCount + q.allocAccepted allocValid ≤ depth :=
  DualRing.count_accepted_le (e := q.ports allocValid 0) hle

theorem retireAccepted_le : q.retireAccepted retireCount ≤ q.entryCount ∧
    q.retireAccepted retireCount ≤ 2 := by
  unfold retireAccepted
  omega

/-- The entries after retirement and allocation. -/
def allocated : LsqTag → LsqEntry :=
  allocLane (q.allocFire allocValid 1) (q.allocTag allocValid 1)
    (allocEntry 1)
    (allocLane (q.allocFire allocValid 0) (q.allocTag allocValid 0)
      (allocEntry 0)
      (q.clearRetired (q.retireAccepted retireCount) q.entries))

theorem stepNormal_entries (tag : LsqTag) :
    (q.stepNormal allocValid allocEntry u wb retireCount).entries tag =
      q.captured (fun _ => false) u wb tag
        (q.allocated allocValid allocEntry retireCount tag) := by
  change q.snoop (fun _ => false) wb (q.applyUpdate (fun _ => false) u _)
    tag = _
  rw [snoop_apply]
  rfl

variable {q}

theorem Wf.ports (hwf : q.Wf) : (q.ports allocValid retireCount).Wf where
  two := by decide
  count_le := hwf.count_le
  tail_eq := hwf.tail_eq
  leaving_le := (q.retireAccepted_le retireCount).1
  leaving_two := (q.retireAccepted_le retireCount).2

theorem Wf.allocTag_not_mem (hwf : q.Wf) {l : Lane}
    (hfire : q.allocFire allocValid l = true) :
    q.allocTag allocValid l ∉ q.window :=
  (hwf.ports allocValid 0).tag_not_mem hfire

theorem allocated_eq : q.allocated allocValid allocEntry retireCount =
    (q.ports allocValid retireCount).entries default
      (fun l => allocWrite (allocEntry l)) q.entries := rfl

theorem Wf.allocated_of_survivor (hwf : q.Wf) {tag : LsqTag}
    (htag : tag ∈ q.window.drop (q.retireAccepted retireCount)) :
    q.allocated allocValid allocEntry retireCount tag = q.entries tag := by
  rw [allocated_eq]
  exact (hwf.ports allocValid retireCount).entries_of_survivor htag _ _ _

theorem Wf.allocated_of_lane (hwf : q.Wf) {l : Lane}
    (hfire : q.allocFire allocValid l = true) :
    q.allocated allocValid allocEntry retireCount (q.allocTag allocValid l) =
      allocWrite (allocEntry l) := by
  rw [allocated_eq]
  exact (hwf.ports allocValid retireCount).entries_of_tag hfire _ _ _

theorem allocWrite_valid (e : LsqEntry) : (allocWrite e).valid = true := by
  unfold allocWrite
  split <;> rfl

theorem allocWrite_atDispatch (e : LsqEntry) :
    (allocWrite e).atDispatch = e.atDispatch := by
  unfold allocWrite
  split <;> rfl

theorem Wf.allocated_invalid (hwf : q.Wf) {tag : LsqTag}
    (hwin : tag ∉ q.window.drop (q.retireAccepted retireCount))
    (hnew : tag ∉ (q.allocLanes allocValid).map (q.allocTag allocValid)) :
    (q.allocated allocValid allocEntry retireCount tag).valid = false := by
  rw [allocated_eq]
  rcases (hwf.ports allocValid retireCount).entries_of_other hwin hnew default
    (fun l => allocWrite (allocEntry l)) q.entries with hempty | ⟨hsame, hout⟩
  · rw [hempty]
    rfl
  · rw [hsame, ← Bool.not_eq_true, hwf.valid_iff]
    exact hout

theorem Wf.stepNormal_window (hwf : q.Wf) :
    (q.stepNormal allocValid allocEntry u wb retireCount).window =
      q.window.drop (q.retireAccepted retireCount) ++
        (q.allocLanes allocValid).map (q.allocTag allocValid) :=
  (hwf.ports allocValid retireCount).window_next

theorem Wf.stepNormal_survivor (hwf : q.Wf) {tag : LsqTag}
    (htag : tag ∈ q.window.drop (q.retireAccepted retireCount)) :
    (q.stepNormal allocValid allocEntry u wb retireCount).entries tag =
      q.captured (fun _ => false) u wb tag (q.entries tag) := by
  rw [stepNormal_entries,
    hwf.allocated_of_survivor allocValid allocEntry retireCount htag]

theorem Wf.stepNormal_new (hwf : q.Wf) {l : Lane}
    (hfire : q.allocFire allocValid l = true) :
    (q.stepNormal allocValid allocEntry u wb retireCount).entries
      (q.allocTag allocValid l) = allocWrite (allocEntry l) := by
  have hnot := hwf.allocTag_not_mem allocValid hfire
  rw [← hwf.valid_iff, Bool.not_eq_true] at hnot
  rw [stepNormal_entries, captured_of_not_valid hnot,
    hwf.allocated_of_lane allocValid allocEntry retireCount hfire]

theorem Wf.stepNormal_wf (hwf : q.Wf) :
    (q.stepNormal allocValid allocEntry u wb retireCount).Wf where
  count_le := by
    have h1 := q.allocAccepted_le allocValid hwf.count_le
    change q.entryCount + q.allocAccepted allocValid -
      q.retireAccepted retireCount ≤ depth
    omega
  tail_eq := (hwf.ports allocValid retireCount).tail_next
  valid_iff := by
    intro tag
    rw [hwf.stepNormal_window]
    by_cases hold : tag ∈ q.window.drop (q.retireAccepted retireCount)
    · rw [hwf.stepNormal_survivor allocValid allocEntry u wb retireCount hold,
        (captured_frame _ _).2]
      have hvalid := (hwf.valid_iff tag).mpr (List.mem_of_mem_drop hold)
      simp [hvalid, hold]
    · by_cases hnew : tag ∈ (q.allocLanes allocValid).map
          (q.allocTag allocValid)
      · rw [List.mem_append]
        simp only [hnew, or_true, iff_true]
        obtain ⟨l, hl, rfl⟩ := List.mem_map.mp hnew
        have hfire : q.allocFire allocValid l = true :=
          (List.mem_filter.mp hl).2
        rw [hwf.stepNormal_new allocValid allocEntry u wb retireCount hfire]
        exact allocWrite_valid _
      · rw [stepNormal_entries, (captured_frame _ _).2,
          hwf.allocated_invalid allocValid allocEntry retireCount hold hnew]
        simp only [Bool.false_eq_true, List.mem_append, hold, hnew, or_self]

end StepNormal

end LoadStoreQueue

end OoOCore
