/-
The value of a load in program order.  A load is settled when every older live
store has an address, those that write its bytes have their data, and its value
is what the youngest of the older stores, retired or live, left in memory.  A
load that its queries let go is settled, and it stays so while it is live.
-/
import OoOCore.StoreAddresses

namespace OoOCore

/-- Only the address and the size of a store decide which bytes it writes. -/
theorem StoreRequest.Misses.congr {r r' : StoreRequest} {address : Word}
    {access : MemAccess} (h : r.Misses address access)
    (haddress : r'.address = r.address) (haccess : r'.access = r.access) :
    r'.Misses address access := by
  intro x hx
  have hnone := h x hx
  simp only [StoreRequest.byte, haddress, haccess] at hnone ⊢
  split at hnone
  · cases hnone
  · next hout => rw [if_neg hout]

namespace Backend

section Definitions

variable (s : Backend)

/-- The live instructions older than a tag. -/
def olderThan (tag : RobTag) : List RobTag :=
  s.rob.window.takeWhile fun t => decide (t ≠ tag)

/-- The tag of a live store. -/
def isStoreTag (tag : RobTag) : Bool :=
  (s.rob.entries tag).isMemory && (s.rob.entries tag).isStore

/-- The LSQ entry of a memory operation. -/
def accessOf (tag : RobTag) : LsqEntry :=
  s.lsq.entries (s.rob.entries tag).lsqTag

/-- The stores among some live instructions, as they would retire now. -/
def storesOf (tags : List RobTag) : List StoreRequest :=
  tags.filterMap fun tag => (s.retire (s.rob.entries tag)).store

/-- The memory a load at the tag has to see: the initial one, the retired
stores and the older live ones. -/
def memoryBefore (init : Word → BitVec 8) (h : History) (tag : RobTag) :
    Word → BitVec 8 :=
  Overwrite.after init
    ((h.stores ++ s.storesOf (s.olderThan tag)).map StoreRequest.byte)

/-- The value is the one program order asks of a load at the tag, and no older
store can still change it. -/
structure Settled (init : Word → BitVec 8) (h : History) (tag : RobTag)
    (address : Word) (access : MemAccess) (value : Word) : Prop where
  cleared : ∀ t ∈ s.olderThan tag, s.isStoreTag t = true →
    (s.accessOf t).Cleared address access
  value : value = loadValue (s.memoryBefore init h tag) address access

end Definitions

section Older

variable {s : Backend} {i : Inputs}

theorem olderThan_eq (hwf : s.rob.Wf) {tag : RobTag}
    {older younger : List RobTag}
    (hwindow : s.rob.window = older ++ tag :: younger) :
    s.olderThan tag = older := by
  have hnodup := hwf.window_nodup
  rw [hwindow, List.nodup_append] at hnodup
  have hne : ∀ t ∈ older, decide (t ≠ tag) = true := by
    intro t ht
    rw [decide_eq_true_eq]
    exact hnodup.2.2 t ht tag List.mem_cons_self
  rw [olderThan, hwindow, List.takeWhile_append_of_pos hne,
    List.takeWhile_cons_of_neg (by simp), List.append_nil]

theorem olderThan_live {tag : RobTag} :
    ∀ t ∈ s.olderThan tag, t ∈ s.rob.window := by
  intro t ht
  exact (List.takeWhile_sublist _).subset ht

theorem retire_store (tag : RobTag) :
    (s.retire (s.rob.entries tag)).store =
      if s.isStoreTag tag then some (s.accessOf tag).request else none := rfl

theorem storesOf_append (first second : List RobTag) :
    s.storesOf (first ++ second) = s.storesOf first ++ s.storesOf second :=
  List.filterMap_append

theorem retiredStores_storesOf :
    s.retiredStores i = s.storesOf (s.rob.window.take (s.retireCount i)) := by
  rw [retiredStores, retiredNow_eq, List.filterMap_map]
  rfl

/-- The instructions older than a survivor: some retire, the rest stay. -/
theorem RobReady.olderThan_step (hs : s.RobReady i) (hc : s.Countable)
    (htrap : s.trapValid i = false) {tag : RobTag}
    (hold : tag ∈ s.rob.window) (hnew : tag ∈ (s.step i).rob.window) :
    (s.step i).olderThan tag = (s.olderThan tag).drop (s.retireCount i) ∧
      s.rob.window.take (s.retireCount i) =
        (s.olderThan tag).take (s.retireCount i) ∧
      (∀ t ∈ s.olderThan tag, t ∈ s.rob.window) ∧
      ∀ t ∈ (s.step i).olderThan tag, t ∈ (s.step i).rob.window := by
  obtain ⟨older, younger, hwindow⟩ := live_split hold
  obtain ⟨older', younger', hwindow'⟩ := live_split hnew
  obtain ⟨hdrop, hle⟩ := hs.split_step hc htrap hwindow hwindow'
  refine ⟨?_, ?_, olderThan_live, olderThan_live⟩
  · rw [olderThan_eq hs.wf hwindow, olderThan_eq hs.step_wf hwindow', hdrop]
  · rw [olderThan_eq hs.wf hwindow, hwindow,
      List.take_append_of_le_length hle]

end Older

section Step

variable {s : Backend} {i : Inputs} {init : Word → BitVec 8} {h : History}
  {tag : RobTag} {address : Word} {access : MemAccess} {value : Word}

/-- A store that does not hold a load back keeps its place in the LSQ, its
address, and the bytes it writes for the load. -/
theorem MemoryEntries.step_cleared (he : s.MemoryEntries)
    (hm : s.MemoryOrder) (hs : s.RobReady i) (hc : s.Countable)
    (htrap : s.trapValid i = false) {t : RobTag} (hold : t ∈ s.rob.window)
    (hnew : t ∈ (s.step i).rob.window) (hstore : s.isStoreTag t = true)
    (hcleared : (s.accessOf t).Cleared address access) :
    ((s.step i).accessOf t).Cleared address access ∧
      ∀ x, inLoad address access x →
        ((s.step i).accessOf t).request.byte x =
          (s.accessOf t).request.byte x := by
  have hmem : s.isMemoryTag t = true := by
    rw [isStoreTag, Bool.and_eq_true] at hstore
    exact hstore.1
  obtain ⟨hwindow, hwindow', hslot⟩ := hm.slot_step hs hc htrap hold hnew hmem
  obtain ⟨hready, haddress, haccess, hdata⟩ :=
    he.step_known hm hs htrap hwindow hwindow' hcleared.addressReady
  rw [accessOf, hslot]
  rcases hcleared.data with hmiss | hdone
  · have hmiss' : ((s.step i).lsq.entries
        (s.rob.entries t).lsqTag).request.Misses address access :=
      hmiss.congr haddress haccess
    refine ⟨⟨hready, ?_, Or.inl hmiss'⟩, ?_⟩
    · rw [haddress]
      exact hcleared.cacheable
    · intro x hx
      rw [hmiss x hx, hmiss' x hx]
  · have hsame : (s.step i).lsq.entries (s.rob.entries t).lsqTag =
        s.accessOf t := hdata hdone
    rw [hsame]
    exact ⟨hcleared, fun _ _ => rfl⟩

theorem RobReady.step_isStoreTag (hs : s.RobReady i) (hc : s.Countable)
    (htrap : s.trapValid i = false) {t : RobTag} (hold : t ∈ s.rob.window)
    (hnew : t ∈ (s.step i).rob.window) :
    (s.step i).isStoreTag t = s.isStoreTag t := by
  have hframe := (hs.step_survivor hc htrap hold hnew).1
  have hmem := congrArg RobEntry.isMemory hframe
  have hstore := congrArg RobEntry.isStore hframe
  change ((s.step i).rob.entries t).isMemory = _ at hmem
  change ((s.step i).rob.entries t).isStore = _ at hstore
  rw [isStoreTag, hmem, hstore]
  rfl

/-- A settled load stays settled while it is live. -/
theorem Settled.step (hset : s.Settled init h tag address access value)
    (he : s.MemoryEntries) (hm : s.MemoryOrder) (hs : s.RobReady i)
    (hc : s.Countable) (htrap : s.trapValid i = false)
    (hold : tag ∈ s.rob.window) (hnew : tag ∈ (s.step i).rob.window) :
    (s.step i).Settled init (s.observe i h) tag address access value := by
  obtain ⟨hdrop, htake, hlive, hlive'⟩ := hs.olderThan_step hc htrap hold hnew
  have hstays : ∀ t ∈ (s.olderThan tag).drop (s.retireCount i),
      t ∈ s.olderThan tag ∧ t ∈ s.rob.window ∧
        t ∈ (s.step i).rob.window := by
    intro t ht
    have hmem := List.mem_of_mem_drop ht
    exact ⟨hmem, hlive t hmem, hlive' t (by rwa [hdrop])⟩
  constructor
  · intro t ht hstore
    rw [hdrop] at ht
    obtain ⟨hmem, hin, hin'⟩ := hstays t ht
    rw [hs.step_isStoreTag hc htrap hin hin'] at hstore
    exact (he.step_cleared hm hs hc htrap hin hin' hstore
      (hset.cleared t hmem hstore)).1
  · rw [hset.value]
    apply loadValue_congr
    intro x hx
    -- The stores that retired are the same ones; the others write the same.
    have hsplit : h.stores ++ s.storesOf (s.olderThan tag) =
        (s.observe i h).stores ++
          s.storesOf ((s.olderThan tag).drop (s.retireCount i)) := by
      rw [observe_stores, retiredStores_storesOf, htake, List.append_assoc,
        ← storesOf_append, List.take_append_drop]
    rw [memoryBefore, memoryBefore, hsplit, hdrop, List.map_append,
      List.map_append, Overwrite.after_append, Overwrite.after_append]
    apply Overwrite.after_filterMap_congr
    intro t ht
    obtain ⟨hmem, hin, hin'⟩ := hstays t ht
    rw [retire_store, retire_store, hs.step_isStoreTag hc htrap hin hin']
    cases hstore : s.isStoreTag t with
    | false => rfl
    | true =>
        exact ((he.step_cleared hm hs hc htrap hin hin' hstore
          (hset.cleared t hmem hstore)).2 x hx).symm

end Step

section Issue

variable {s : Backend} {i : Inputs}

/-- The stores in front of a load, in the ROB and in the LSQ. -/
theorem MemoryOrder.older_slots (hm : s.MemoryOrder) (hwf : s.rob.Wf)
    {tag : RobTag} (hlive : tag ∈ s.rob.window)
    (hmem : s.isMemoryTag tag = true) :
    ∃ older younger,
      s.lsq.window = older ++ (s.rob.entries tag).lsqTag :: younger ∧
      older.map s.lsqOwner = (s.olderThan tag).filter s.isMemoryTag := by
  obtain ⟨hslot, howner⟩ := hm.slot_of_live hlive hmem
  obtain ⟨before, after, hwindow⟩ := live_split hlive
  obtain ⟨older, younger, hlsq⟩ := List.append_of_mem hslot
  refine ⟨older, younger, hlsq, ?_⟩
  have howners := hm.owners
  have hnodup := hwf.window_nodup.filter s.isMemoryTag
  rw [← howners] at hnodup
  rw [hlsq, List.map_append, List.map_cons, howner] at howners hnodup
  rw [hwindow, List.filter_append, List.filter_cons_of_pos hmem] at howners
  rw [olderThan_eq hwf hwindow]
  have hnot : tag ∉ older.map s.lsqOwner := by
    intro hin
    exact (List.nodup_append.mp hnodup).2.2 tag hin tag List.mem_cons_self rfl
  have hnot' : tag ∉ younger.map s.lsqOwner :=
    (List.nodup_cons.mp (List.nodup_append.mp hnodup).2.1).1
  exact ((List.append_cons_inj_of_notMem hnot hnot').mp howners).1

/-- The older stores of the ROB are the store entries in front of the load. -/
theorem MemoryOrder.storesOf_older (hm : s.MemoryOrder)
    {tag : RobTag} {older younger : List LsqTag} {slot : LsqTag}
    (hwindow : s.lsq.window = older ++ slot :: younger)
    (howners : older.map s.lsqOwner = (s.olderThan tag).filter s.isMemoryTag) :
    s.storesOf (s.olderThan tag) =
        ((s.lsq.storeSlots older).map s.lsq.entries).map LsqEntry.request ∧
      ∀ t ∈ s.olderThan tag, s.isStoreTag t = true →
        s.accessOf t ∈ (s.lsq.storeSlots older).map s.lsq.entries := by
  have hin : ∀ u ∈ older, u ∈ s.lsq.window := by
    intro u hu
    rw [hwindow]
    exact List.mem_append_left _ hu
  constructor
  · have hmemory : s.storesOf (s.olderThan tag) =
        s.storesOf ((s.olderThan tag).filter s.isMemoryTag) := by
      rw [storesOf, storesOf, List.filterMap_filter]
      apply List.filterMap_congr
      intro t _
      rw [retire_store, isStoreTag, isMemoryTag]
      cases (s.rob.entries t).isMemory <;> rfl
    rw [hmemory, ← howners, storesOf, List.filterMap_map,
      LoadStoreQueue.storeSlots, List.map_map, ← List.filterMap_eq_map,
      List.filterMap_filter]
    apply List.filterMap_congr
    intro u hu
    have hkind := (hm.paired u (hin u hu)).isStore
    have hmem := (hm.owner_live (hin u hu)).2
    rw [isMemoryTag] at hmem
    rw [Function.comp_apply, retire_store, isStoreTag, accessOf, hmem,
      hm.slot u (hin u hu), ← hkind, Bool.true_and]
    rfl
  · intro t ht hstore
    rw [isStoreTag, Bool.and_eq_true] at hstore
    have hmem : t ∈ older.map s.lsqOwner := by
      rw [howners, List.mem_filter]
      exact ⟨ht, hstore.1⟩
    obtain ⟨u, hu, rfl⟩ := List.mem_map.mp hmem
    refine List.mem_map.mpr ⟨u, List.mem_filter.mpr ⟨hu, ?_⟩, ?_⟩
    · rw [(hm.paired u (hin u hu)).isStore]
      exact hstore.2
    · rw [accessOf, hm.slot u (hin u hu)]

/-- The stores that the query of a load scans are aligned. -/
theorem MemoryEntries.scanned_aligned (he : s.MemoryEntries)
    {older younger : List LsqTag} {slot : LsqTag}
    (hwindow : s.lsq.window = older ++ slot :: younger) :
    ∀ e ∈ (s.lsq.storeSlots older).map s.lsq.entries,
      e.addressReady = true → e.request.Aligned := by
  intro e hmem hready
  obtain ⟨u, hu, rfl⟩ := List.mem_map.mp hmem
  rw [LoadStoreQueue.storeSlots, List.mem_filter] at hu
  refine he.aligned u ?_ hu.2 hready
  rw [hwindow]
  exact List.mem_append_left _ hu.1

/-- What the LSQ tells a load that it lets go. -/
theorem query_answers (hreach : s.Reachable)
    (hcandidate : s.candidate0IsMemory = true) (hload : s.lsuIsStore = false)
    (hready : s.lsqQuery.ready = true)
    (haligned : LoadStoreExecutionUnit.misaligned s.lsuMemoryAccess
      s.lsuAddress = false) :
    (∀ t ∈ s.olderThan (s.issueUop 0).robTag, s.isStoreTag t = true →
        (s.accessOf t).Cleared s.lsuAddress s.lsuMemoryAccess) ∧
      ∀ m, loadValue (Overwrite.after m
            ((s.storesOf (s.olderThan (s.issueUop 0).robTag)).map
              StoreRequest.byte)) s.lsuAddress s.lsuMemoryAccess =
        if s.lsqQuery.forwardValid then s.lsqQuery.forwardData
        else loadValue m s.lsuAddress s.lsuMemoryAccess := by
  have hs := hreach.inFlight
  have hm := hreach.memoryOrder
  obtain ⟨hlive, hmem, hslot, hkind⟩ := hs.candidate_entry hcandidate
  obtain ⟨older, younger, hwindow, howners⟩ := hm.older_slots hs.rob hlive hmem
  obtain ⟨hstores, hentries⟩ := hm.storesOf_older hwindow howners
  rw [hslot] at hwindow
  have hslotIn : s.lsuTag ∈ s.lsq.window := by
    rw [hwindow]
    simp
  have hnotStore : (s.lsq.entries s.lsuTag).isStore = false := by
    have howner := (hm.slot_of_live hlive hmem).2
    rw [hslot] at howner
    rw [(hm.paired _ hslotIn).isStore, howner, hkind]
    simp only [candidate0IsMemory, Bool.and_eq_true] at hcandidate
    simpa [lsuIsStore, LoadStoreExecutionUnit.selectedIsStore, hcandidate.2]
      using hload
  have hquery : s.lsqQuery =
      (LoadStoreQueue.scanStores s.lsuAddress s.lsuMemoryAccess
        ((s.lsq.storeSlots older).map s.lsq.entries)).toLsqQuery := by
    rw [lsqQuery, hcandidate] at hready ⊢
    exact hm.wf.query_eq hwindow hnotStore hready
  have hscanned := hreach.memoryEntries.scanned_aligned hwindow
  have hanswers := LoadStoreQueue.scanStores_answers haligned hscanned
  rw [hquery] at hready ⊢
  obtain ⟨hcleared, hvalue⟩ := hanswers hready
  refine ⟨?_, ?_⟩
  · intro t ht hstore
    exact hcleared _ (hentries t ht hstore)
  · intro m
    rw [← hvalue m, hstores, List.map_map]
    rfl

theorem memoryBefore_eq (init : Word → BitVec 8) (h : History)
    (tag : RobTag) : s.memoryBefore init h tag =
      Overwrite.after (Overwrite.after init (h.stores.map StoreRequest.byte))
        ((s.storesOf (s.olderThan tag)).map StoreRequest.byte) := by
  funext x
  rw [memoryBefore, List.map_append, Overwrite.after_append]

/-- A load that takes its value from the LSQ is settled. -/
theorem forward_settled (hreach : s.Reachable)
    (hcandidate : s.candidate0IsMemory = true) (hload : s.lsuIsStore = false)
    (hready : s.combinedLsqIssueReady = true)
    (haligned : LoadStoreExecutionUnit.misaligned s.lsuMemoryAccess
      s.lsuAddress = false) (hforward : s.lsqQuery.forwardValid = true)
    (init : Word → BitVec 8) (h : History) :
    s.Settled init h (s.issueUop 0).robTag s.lsuAddress s.lsuMemoryAccess
      s.lsqQuery.forwardData := by
  simp only [combinedLsqIssueReady, Bool.and_eq_true] at hready
  obtain ⟨hcleared, hvalue⟩ :=
    query_answers hreach hcandidate hload hready.1.1 haligned
  refine ⟨hcleared, ?_⟩
  rw [memoryBefore_eq, hvalue, if_pos hforward]

/-- A load that takes its value from the memory port is settled: no retired
store that the port has yet to accept writes its bytes. -/
theorem memory_settled {h : History} (ht : s.Traced h)
    (hcandidate : s.candidate0IsMemory = true) (hload : s.lsuIsStore = false)
    (hready : s.combinedLsqIssueReady = true)
    (haligned : LoadStoreExecutionUnit.misaligned s.lsuMemoryAccess
      s.lsuAddress = false) (hforward : s.lsqQuery.forwardValid = false)
    (init : Word → BitVec 8) :
    s.Settled init h (s.issueUop 0).robTag s.lsuAddress s.lsuMemoryAccess
      (loadValue (Overwrite.after init (h.accepted.map StoreRequest.byte))
        s.lsuAddress s.lsuMemoryAccess) := by
  have hreach := ht.reachable
  simp only [combinedLsqIssueReady, Bool.and_eq_true, hforward, Bool.false_or,
    Bool.not_eq_true'] at hready
  obtain ⟨⟨hquery, hconflict⟩, -⟩ := hready
  obtain ⟨hcleared, hvalue⟩ :=
    query_answers hreach hcandidate hload hquery haligned
  have hmiss : ∀ r ∈ s.storeBuffer.contents,
      r.Misses s.lsuAddress s.lsuMemoryAccess := by
    apply hreach.storeBufferWf.wf.queryConflict_misses haligned
      hreach.memoryEntries.buffered
    rw [storeBufferQueryConflict, loadIssueCandidate, hcandidate, hload,
      hforward] at hconflict
    exact hconflict
  refine ⟨hcleared, ?_⟩
  rw [memoryBefore_eq, hvalue, hforward, if_neg Bool.false_ne_true]
  apply loadValue_congr
  intro x hx
  rw [← ht.accepted_append, List.map_append, Overwrite.after_append]
  symm
  apply Overwrite.after_skip
  intro write hwrite
  obtain ⟨r, hr, rfl⟩ := List.mem_map.mp hwrite
  exact hmiss r hr x hx

end Issue

end Backend

end OoOCore
