/-
Producers: the youngest older instruction that writes a register, retired or
live, and the value it wrote back.  A dispatch writes back at most once, so a
produced value is final; and it is what the register file delivers.
-/
import OoOCore.Operands

namespace OoOCore

namespace Backend

/-- What is in flight has not written back, nor has what is not dispatched. -/
structure Unwritten (s : Backend) (h : History) : Prop where
  held : ∀ p held, s.heldAt p = some held →
    h.result (s.uidAt held.robTag) = none
  fresh : ∀ uid, s.nextUid ≤ uid → h.result uid = none

section Results

variable {s : Backend} {i : Inputs} {h : History}

/-- A lane that writes a dispatch back completes its live entry. -/
theorem Reachable.laneResult_source (hreach : s.Reachable) {l : Lane}
    {uid : Nat} {value : Word} (hlane : s.laneResult l uid = some value) :
    (s.robComplete l).valid = true ∧
      (s.robComplete l).robTag ∈ s.rob.window ∧
      s.uidAt (s.robComplete l).robTag = uid := by
  rw [laneResult] at hlane
  split at hlane
  · next hdriven =>
    rw [Bool.and_eq_true, decide_eq_true_eq] at hdriven
    obtain ⟨howner, -, -, horigin⟩ :=
      hreach.inFlight.writeback_owner hreach.writebackValid hdriven.1
    refine ⟨(hreach.writebackValid.completes hdriven.1).1, howner, ?_⟩
    rw [← hdriven.2, ← horigin]
    rfl
  · cases hlane

theorem written_source {uid : Nat} {value : Word}
    (hwritten : s.written uid = some value) :
    ∃ l, s.laneResult l uid = some value := by
  rw [written, Option.or_eq_some_iff] at hwritten
  rcases hwritten with h1 | ⟨-, h0⟩
  · exact ⟨1, h1⟩
  · exact ⟨0, h0⟩

/-- A number that has not been given out is written by no lane. -/
theorem Reachable.written_fresh (hreach : s.Reachable) {uid : Nat}
    (hfresh : s.nextUid ≤ uid) : s.written uid = none := by
  apply written_none hreach.inFlight hreach.writebackValid
  rintro ⟨tag, hlive, rfl⟩
  exact absurd (hreach.uidOrder.lt_next tag hlive) (Nat.not_lt.mpr hfresh)

/-- A uop that moves on does not write back in the cycle. -/
theorem Reachable.written_moved (hreach : s.Reachable) {p q : Place}
    {held : Held} (hheld : s.heldAt p = some held)
    (hmoves : s.moves i p = some q) :
    s.written (s.uidAt held.robTag) = none := by
  by_contra hsome
  obtain ⟨value, hvalue⟩ := Option.ne_none_iff_exists'.mp hsome
  obtain ⟨l, hlane⟩ := written_source hvalue
  obtain ⟨hvalid, howner, huid⟩ := hreach.laneResult_source hlane
  apply hreach.inFlight.not_completed hheld hmoves
  exact ⟨l, hvalid, hreach.uidOrder.injective _ howner _
    (hreach.inFlight.live p held hheld) huid⟩

theorem Unwritten.step_fresh (hu : s.Unwritten h) (hreach : s.Reachable)
    {uid : Nat} (hfresh : s.nextUid ≤ uid) :
    (s.observe i h).result uid = none := by
  change (s.written uid).or (h.result uid) = none
  rw [hreach.written_fresh hfresh, hu.fresh uid hfresh]
  rfl

theorem Unwritten.step_held (hu : s.Unwritten h) (hreach : s.Reachable)
    (htrap : s.trapValid i = false) {q : Place} {held : Held}
    (hheld : (s.step i).heldAt q = some held) :
    (s.observe i h).result ((s.step i).uidAt held.robTag) = none := by
  have hs := hreach.inFlight
  have hc := hreach.countable
  have hnew := (hreach.step i).inFlight.live q held hheld
  rcases heldAt_step htrap hheld with hmoved | ⟨l, j, -, hd, rfl⟩
  · have hold := (hs.moved hc htrap hmoved).1
    obtain ⟨p, before, hbefore, hmoves, hfollows, -⟩ := hmoved
    rw [uidAt, hs.robReady.step_uid hc htrap hold hnew, hfollows.robTag]
    change (s.written (s.uidAt before.robTag)).or _ = none
    rw [hreach.written_moved hbefore hmoves]
    exact hu.held p before hbefore
  · have hnotOld := (hs.dispatched hc htrap hd).1
    rcases hs.robReady.live_cases hc hnew with
      ⟨hold, -⟩ | ⟨l', -, -, huid, hge, -⟩
    · exact absurd hold hnotOld
    · rw [uidAt, huid]
      exact hu.step_fresh hreach hge

theorem Traced.unwritten (ht : s.Traced h) : s.Unwritten h := by
  induction ht with
  | reset => exact ⟨fun _ _ _ => rfl, fun _ _ => rfl⟩
  | @step s h ht i ih =>
      refine ⟨?_, ?_⟩
      · intro p held hheld
        have htrap := not_trap_of_held hheld
        exact ih.step_held ht.reachable htrap hheld
      · intro uid hfresh
        exact ih.step_fresh ht.reachable (Nat.le_trans nextUid_le hfresh)

/-- Results are final: no dispatch writes back twice. -/
theorem Traced.result_kept (ht : s.Traced h) {uid : Nat} {value : Word}
    (hresult : h.result uid = some value) :
    (s.observe i h).result uid = some value := by
  have hnone : s.written uid = none := by
    by_contra hsome
    obtain ⟨again, hagain⟩ := Option.ne_none_iff_exists'.mp hsome
    obtain ⟨l, hlane⟩ := written_source hagain
    obtain ⟨hvalid, -, huid⟩ := ht.reachable.laneResult_source hlane
    obtain ⟨p, hheld, -⟩ := source_of_complete i hvalid
    have hopen := ht.unwritten.held p _ hheld
    change h.result (s.uidAt (s.robComplete l).robTag) = none at hopen
    rw [huid, hresult] at hopen
    cases hopen
  change (s.written uid).or (h.result uid) = some value
  rw [hnone, hresult]
  rfl

end Results

end Backend

/-- The register an instruction writes and its dispatch number. -/
def RobEntry.write (e : RobEntry) : Option (ArchReg × Nat) :=
  if e.writesRd then some (e.archRd, e.origin.uid) else none

/-- The writes of the retired instructions, oldest first. -/
def History.writes (h : History) : List (ArchReg × Nat) :=
  h.retired.filterMap fun r => r.entry.write

/-- The last of some writes to a register. -/
def lastWrite (writes : List (ArchReg × Nat)) (r : ArchReg) : Option Nat :=
  (writes.reverse.find? fun w => decide (w.1 = r)).map Prod.snd

/-- The value is what the producer wrote back; a register without a producer
still has its reset value. -/
def Produced (result : Nat → Option Word) (value : Word) :
    Option Nat → Prop
  | some uid => result uid = some value
  | none => value = 0

theorem Produced.unique {result : Nat → Option Word} {value value' : Word}
    {producer : Option Nat} (hp : Produced result value producer)
    (hp' : Produced result value' producer) : value = value' := by
  cases producer with
  | none => exact Eq.trans hp (Eq.symm hp')
  | some uid => exact Option.some.inj (Eq.trans (Eq.symm hp) hp')

theorem lastWrite_append (older younger : List (ArchReg × Nat)) (r : ArchReg) :
    lastWrite (older ++ younger) r =
      (lastWrite younger r).or (lastWrite older r) := by
  rw [lastWrite, List.reverse_append, List.find?_append, Option.map_or]
  rfl

theorem lastWrite_snoc (writes : List (ArchReg × Nat)) (w : ArchReg × Nat)
    (r : ArchReg) : lastWrite (writes ++ [w]) r =
      if w.1 = r then some w.2 else lastWrite writes r := by
  rw [lastWrite_append, lastWrite, List.reverse_singleton,
    List.find?_singleton]
  split
  · next heq => rw [if_pos (of_decide_eq_true heq)]; rfl
  · next hne => rw [if_neg fun heq => hne (decide_eq_true heq)]; rfl

/-- The architectural value of a register is that of its last writer. -/
theorem foldl_write_last (result : Nat → Option Word) (retired : List Retired)
    (r : ArchReg) :
    retired.foldl (Retired.write result) (fun _ => 0) r =
      match lastWrite (retired.filterMap fun x => x.entry.write) r with
      | some uid => (result uid).getD 0
      | none => 0 := by
  induction retired using List.reverseRecOn with
  | nil => rfl
  | append_singleton retired x ih =>
      rw [List.foldl_append, List.filterMap_append, List.foldl_cons,
        List.foldl_nil, Retired.write]
      cases hwrites : x.entry.writesRd with
      | false =>
          simp only [RobEntry.write, hwrites, List.filterMap_cons,
            List.filterMap_nil, Bool.false_eq_true, if_false, List.append_nil]
          exact ih
      | true =>
          simp only [RobEntry.write, hwrites, List.filterMap_cons,
            List.filterMap_nil, if_true]
          rw [lastWrite_snoc]
          by_cases hr : x.entry.archRd = r
          · rw [if_pos hr, hr, Function.update_self]
          · rw [if_neg hr, Function.update_of_ne (Ne.symm hr)]
            exact ih

namespace Backend

section Producers

variable {s : Backend} {i : Inputs} {h : History}

/-- The writes in front of some live instructions, oldest first: those of the
retired ones and then theirs. -/
def writesBefore (s : Backend) (h : History) (older : List RobTag) :
    List (ArchReg × Nat) :=
  h.writes ++ older.filterMap fun tag => (s.rob.entries tag).write

/-- The program-order producer of a register for the instruction at the tag. -/
def producerOf (s : Backend) (h : History) (tag : RobTag) (r : ArchReg) :
    Option Nat :=
  lastWrite (s.writesBefore h (s.olderThan tag)) r

/-- Among live instructions the last write is that of the youngest writer. -/
theorem lastWrite_writerOf (tags : List RobTag) (r : ArchReg) :
    lastWrite (tags.filterMap fun tag => (s.rob.entries tag).write) r =
      (s.writerOf tags r).map s.uidAt := by
  induction tags using List.reverseRecOn with
  | nil => rfl
  | append_singleton tags tag ih =>
      rw [List.filterMap_append, writerOf, List.reverse_append,
        List.reverse_singleton, List.singleton_append, List.find?_cons]
      cases hwrites : (s.rob.entries tag).writesRd with
      | false =>
          simp only [RobEntry.write, hwrites, writesTag, List.filterMap_cons,
            List.filterMap_nil, Bool.false_eq_true, if_false, List.append_nil,
            Bool.false_and]
          exact ih
      | true =>
          simp only [RobEntry.write, hwrites, writesTag, List.filterMap_cons,
            List.filterMap_nil, if_true, Bool.true_and]
          rw [lastWrite_snoc]
          by_cases hr : (s.rob.entries tag).archRd = r
          · simp only [hr, if_true, decide_true]
            rfl
          · simp only [hr, if_false, decide_false]
            exact ih

theorem Traced.known_write (ht : s.Traced h) {r : ArchReg} {uid : Nat}
    (hlast : lastWrite h.writes r = some uid) : (h.result uid).isSome := by
  obtain ⟨w, hfound, rfl⟩ := Option.map_eq_some_iff.mp hlast
  have hmem := List.mem_reverse.mp (List.mem_of_find?_eq_some hfound)
  obtain ⟨x, hx, hwrite⟩ := List.mem_filterMap.mp hmem
  rw [RobEntry.write] at hwrite
  split at hwrite
  · next hwrites =>
    cases hwrite
    exact ht.valued.known x hx hwrites
  · cases hwrite

/-- The architectural registers hold what the last retired writers produced. -/
theorem Traced.registers_produced (ht : s.Traced h) (r : ArchReg) :
    Produced h.result (h.registers r) (lastWrite h.writes r) := by
  have hvalue : h.registers r = match lastWrite h.writes r with
      | some uid => (h.result uid).getD 0
      | none => 0 := foldl_write_last h.result h.retired r
  cases hlast : lastWrite h.writes r with
  | none =>
      rw [hlast] at hvalue
      exact hvalue
  | some uid =>
      obtain ⟨value, hresult⟩ := Option.isSome_iff_exists.mp
        (ht.known_write hlast)
      rw [hlast] at hvalue
      change h.registers r = (h.result uid).getD 0 at hvalue
      rw [hresult] at hvalue
      rw [hvalue]
      exact hresult

/-- A produced value is final. -/
theorem Traced.produced_kept (ht : s.Traced h) {value : Word}
    {producer : Option Nat} (hp : Produced h.result value producer) :
    Produced (s.observe i h).result value producer := by
  cases producer with
  | none => exact hp
  | some uid => exact ht.result_kept hp

/-- A value that the older live instructions deliver is produced. -/
theorem Traced.delivers_produced (ht : s.Traced h) {tag : RobTag}
    {r : ArchReg} {value : Word}
    (hd : s.Delivers i h (s.olderThan tag) r value) :
    Produced (s.observe i h).result value (s.producerOf h tag r) := by
  rw [producerOf, writesBefore, lastWrite_append, lastWrite_writerOf]
  have hvalue := hd.2
  cases hwriter : s.writerOf (s.olderThan tag) r with
  | some writer =>
      rw [hwriter] at hvalue
      exact hvalue
  | none =>
      rw [hwriter] at hvalue
      rw [show value = h.registers r from hvalue]
      exact ht.produced_kept (ht.registers_produced r)

/-- A register that is named `p0` has produced zero. -/
theorem Traced.zero_produced (ht : s.Traced h) {tag : RobTag} {r : ArchReg}
    (hzero : s.overlaid (s.olderThan tag) r = 0) :
    Produced h.result 0 (s.producerOf h tag r) := by
  have hreach := ht.reachable
  rw [overlaid_writer] at hzero
  rw [producerOf, writesBefore, lastWrite_append, lastWrite_writerOf]
  cases hwriter : s.writerOf (s.olderThan tag) r with
  | some writer =>
      rw [hwriter] at hzero
      obtain ⟨hmem, hwrites⟩ := writerOf_some hwriter
      exact absurd hzero
        (hreach.renamingWf.newPhys_ne_zero (olderThan_live writer hmem)
          hwrites)
  | none =>
      rw [hwriter] at hzero
      have hvalue := ht.valued.committed r
      rw [show s.rename.mapTable.committedMap r = 0 from hzero,
        registers_zero hreach] at hvalue
      rw [hvalue]
      exact ht.registers_produced r

/-- Dispatch fixes the write of an instruction. -/
theorem RobReady.step_write (hs : s.RobReady i) (hc : s.Countable)
    (htrap : s.trapValid i = false) {tag : RobTag}
    (hold : tag ∈ s.rob.window) (hnew : tag ∈ (s.step i).rob.window) :
    ((s.step i).rob.entries tag).write = (s.rob.entries tag).write := by
  obtain ⟨hwrites, harch, -⟩ := RobEntry.atDispatch_renaming
    (hs.step_survivor hc htrap hold hnew).1
  rw [RobEntry.write, RobEntry.write, hwrites, harch,
    hs.step_uid hc htrap hold hnew]

/-- The producers of an instruction stay while it is live: retirement only
moves them from the live instructions to the retired ones. -/
theorem RobReady.step_producerOf (hs : s.RobReady i) (hc : s.Countable)
    (htrap : s.trapValid i = false) {tag : RobTag}
    (hold : tag ∈ s.rob.window) (hnew : tag ∈ (s.step i).rob.window)
    (r : ArchReg) :
    (s.step i).producerOf (s.observe i h) tag r = s.producerOf h tag r := by
  obtain ⟨hdrop, htake, hlive, hlive'⟩ := hs.olderThan_step hc htrap hold hnew
  have hretired : (s.observe i h).writes = h.writes ++
      ((s.olderThan tag).take (s.retireCount i)).filterMap
        fun t => (s.rob.entries t).write := by
    change (h.retired ++ s.retiredNow i).filterMap _ = _
    rw [List.filterMap_append, retiredNow_eq, htake, List.filterMap_map]
    rfl
  have hkept : ((s.step i).olderThan tag).filterMap
        (fun t => ((s.step i).rob.entries t).write) =
      ((s.olderThan tag).drop (s.retireCount i)).filterMap
        fun t => (s.rob.entries t).write := by
    rw [← hdrop]
    apply List.filterMap_congr
    intro t ht
    apply hs.step_write hc htrap _ (hlive' t ht)
    rw [hdrop] at ht
    exact hlive t (List.mem_of_mem_drop ht)
  rw [producerOf, writesBefore, hretired, hkept, List.append_assoc,
    ← List.filterMap_append, List.take_append_drop]
  rfl

end Producers

end Backend

end OoOCore
