/-
The two queries a load makes before it reads: the LSQ scan over the older
unretired stores, and the store-buffer scan over the retired ones.  A query
that lets the load go has found every store that matters to it.
-/
import OoOCore.LsqWindow
import OoOCore.StoreQuery

namespace OoOCore

/-- The store in an LSQ entry, as a request. -/
def LsqEntry.request (e : LsqEntry) : StoreRequest where
  address := e.address
  data := e.storeData
  access := e.memCtr

/-- The store writes none of the bytes of the load. -/
def StoreRequest.Misses (r : StoreRequest) (address : Word)
    (access : MemAccess) : Prop :=
  ∀ x, inLoad address access x → r.byte x = none

/-- The store does not hold the load back: its address is known, and so is its
data when it writes bytes of the load. -/
structure LsqEntry.Cleared (e : LsqEntry) (address : Word)
    (access : MemAccess) : Prop where
  addressReady : e.addressReady = true
  cacheable : addressIsMmio e.address = false
  data : e.request.Misses address access ∨ e.dataReady = true

section Lanes

variable {r : StoreRequest} {address : Word} {access : MemAccess}

theorem StoreRequest.Aligned.misses (h : r.Aligned)
    (haligned : LoadStoreExecutionUnit.misaligned access address = false)
    {storeMask loadMask : ByteMask}
    (hstore : Lanes storeMask (r.address.toNat % 4) r.access.storeWidth)
    (hload : Lanes loadMask (address.toNat % 4) access.width)
    (hapart : wordIndex r.address = wordIndex address →
      storeMask &&& loadMask = 0) : r.Misses address access := by
  intro x hx
  rw [h.byte_inLoad haligned hstore hload hx, if_neg]
  rintro ⟨hword, hlane⟩
  simp [hapart hword] at hlane

theorem StoreRequest.Aligned.covers (h : r.Aligned)
    (haligned : LoadStoreExecutionUnit.misaligned access address = false)
    {storeMask loadMask : ByteMask}
    (hstore : Lanes storeMask (r.address.toNat % 4) r.access.storeWidth)
    (hload : Lanes loadMask (address.toNat % 4) access.width)
    (hword : wordIndex r.address = wordIndex address)
    (hcover : storeMask &&& loadMask = loadMask) {x : Word}
    (hx : inLoad address access x) :
    r.byte x = some
      (laneByte (alignStoreData r.data r.access (byteOffset r.address)) x) := by
  rw [h.byte_inLoad haligned hstore hload hx, if_pos]
  rw [hcover]
  exact ⟨hword, ((inLoad_iff haligned hload).mp hx).2⟩

end Lanes

namespace LoadStoreQueue

section Scan

variable {address : Word} {access : MemAccess}

/-- What the scan knows after some stores, oldest first: if it still lets the
load go, none of them holds it back, and the forwarded word, or the memory
below them, gives the value of the load. -/
def Answers (address : Word) (access : MemAccess) (stores : List LsqEntry)
    (acc : QueryScan) : Prop :=
  acc.ready = true →
    (∀ e ∈ stores, e.Cleared address access) ∧
      ∀ m, loadValue (Overwrite.after m (stores.map fun e => e.request.byte))
          address access =
        if acc.forwardValid then acc.forwardData
        else loadValue m address access

/-- The cases of one store that lets the load go. -/
theorem queryStore_ready {e : LsqEntry} {acc : QueryScan}
    (haligned : LoadStoreExecutionUnit.misaligned access address = false)
    (he : e.addressReady = true → e.request.Aligned)
    (hready : (queryStore e address access acc).ready = true) :
    acc.ready = true ∧ e.Cleared address access ∧
      ((queryStore e address access acc = acc ∧
          e.request.Misses address access) ∨
        ((queryStore e address access acc).forwardValid = true ∧
          ∃ word, (queryStore e address access acc).forwardData =
              formatLoadData word access (byteOffset address) ∧
            ∀ x, inLoad address access x →
              e.request.byte x = some (laneByte word x))) := by
  have hload := (loadByteMask_lanes haligned).1
  unfold queryStore at hready ⊢
  by_cases haddress : e.addressReady = true
  · have hrequest := he haddress
    have hstore := (storeByteMask_lanes hrequest).1
    rw [if_neg (not_not.mpr haddress)] at hready ⊢
    cases hmmio : addressIsMmio e.address with
    | true =>
        rw [hmmio, if_pos rfl] at hready
        cases hready
    | false =>
        rw [hmmio, if_neg Bool.false_ne_true] at hready
        rw [if_neg Bool.false_ne_true]
        by_cases hword : wordIndex e.address = wordIndex address
        · rw [if_pos hword] at hready ⊢
          by_cases hhit : storeByteMask e.memCtr (byteOffset e.address) &&&
              loadByteMask access (byteOffset address) = 0
          · rw [if_neg (not_not.mpr hhit)] at hready ⊢
            have hmiss : e.request.Misses address access :=
              hrequest.misses haligned hstore hload fun _ => hhit
            exact ⟨hready, ⟨haddress, hmmio, Or.inl hmiss⟩,
              Or.inl ⟨rfl, hmiss⟩⟩
          · rw [if_pos hhit] at hready ⊢
            split at hready
            · next hcover =>
              rw [if_pos hcover]
              refine ⟨hready, ⟨haddress, hmmio, Or.inr hcover.2⟩,
                Or.inr ⟨rfl, _, rfl, ?_⟩⟩
              intro x hx
              exact hrequest.covers haligned hstore hload hword hcover.1 hx
            · cases hready
        · rw [if_neg hword] at hready ⊢
          have hmiss : e.request.Misses address access :=
            hrequest.misses haligned hstore hload
              fun hsame => absurd hsame hword
          exact ⟨hready, ⟨haddress, hmmio, Or.inl hmiss⟩, Or.inl ⟨rfl, hmiss⟩⟩
  · rw [if_pos haddress] at hready
    cases hready

/-- One more store, younger than the others. -/
theorem Answers.snoc {stores : List LsqEntry} {acc : QueryScan}
    (h : Answers address access stores acc) {e : LsqEntry}
    (haligned : LoadStoreExecutionUnit.misaligned access address = false)
    (he : e.addressReady = true → e.request.Aligned) :
    Answers address access (stores ++ [e])
      (queryStore e address access acc) := by
  intro hready
  obtain ⟨hbefore, hcleared, hcase⟩ := queryStore_ready haligned he hready
  obtain ⟨hall, hvalue⟩ := h hbefore
  constructor
  · intro e' he'
    rw [List.mem_append, List.mem_singleton] at he'
    rcases he' with he' | rfl
    · exact hall e' he'
    · exact hcleared
  · intro m
    rw [List.map_append, List.map_singleton]
    rcases hcase with ⟨hsame, hmiss⟩ | ⟨hvalid, word, hword, hcover⟩
    · rw [hsame, ← hvalue m]
      apply loadValue_congr
      intro x hx
      rw [Overwrite.after_snoc, hmiss x hx]
      rfl
    · rw [hvalid, if_pos rfl, hword]
      symm
      apply formatLoadData_eq haligned
      intro x hx
      rw [Overwrite.after_snoc, hcover x hx]
      rfl

/-- The scan over a list of stores, oldest first. -/
def scanStores (address : Word) (access : MemAccess)
    (stores : List LsqEntry) : QueryScan :=
  stores.foldl (fun acc e => queryStore e address access acc)
    ⟨⟨true, false, 0⟩, false⟩

theorem scanStores_snoc (stores : List LsqEntry) (e : LsqEntry) :
    scanStores address access (stores ++ [e]) =
      queryStore e address access (scanStores address access stores) := by
  rw [scanStores, List.foldl_append]
  rfl

theorem scanStores_answers {stores : List LsqEntry}
    (haligned : LoadStoreExecutionUnit.misaligned access address = false)
    (hstores : ∀ e ∈ stores, e.addressReady = true → e.request.Aligned) :
    Answers address access stores (scanStores address access stores) := by
  induction stores using List.reverseRecOn with
  | nil =>
      intro _
      refine ⟨fun e he => ?_, fun m => rfl⟩
      cases he
  | append_singleton stores e ih =>
      rw [scanStores_snoc]
      apply Answers.snoc (ih ?_) haligned
      · exact hstores e (by simp)
      · intro e' he'
        exact hstores e' (List.mem_append_left _ he')

/-- A load that goes without forwarding is missed by every store. -/
theorem scanStores_misses {stores : List LsqEntry}
    (haligned : LoadStoreExecutionUnit.misaligned access address = false)
    (hstores : ∀ e ∈ stores, e.addressReady = true → e.request.Aligned)
    (hready : (scanStores address access stores).ready = true)
    (hforward : (scanStores address access stores).forwardValid = false) :
    ∀ e ∈ stores, e.request.Misses address access := by
  induction stores using List.reverseRecOn with
  | nil =>
      intro e he
      cases he
  | append_singleton stores e ih =>
      rw [scanStores_snoc] at hready hforward
      obtain ⟨hbefore, -, hcase⟩ := queryStore_ready haligned
        (hstores e (by simp)) hready
      rcases hcase with ⟨hsame, hmiss⟩ | ⟨hvalid, -⟩
      · rw [hsame] at hforward
        intro e' he'
        rw [List.mem_append, List.mem_singleton] at he'
        rcases he' with he' | rfl
        · refine ih ?_ hbefore hforward e' he'
          intro e'' he''
          exact hstores e'' (List.mem_append_left _ he'')
        · exact hmiss
      · rw [hforward] at hvalid
        cases hvalid

theorem queryStore_found (e : LsqEntry) (acc : QueryScan) :
    (queryStore e address access acc).found = acc.found := by
  simp only [queryStore]
  repeat' split
  all_goals rfl

end Scan

section Window

variable (q : LoadStoreQueue) (tag : LsqTag) (address : Word)
  (access : MemAccess)

/-- The iteration of the scan at a slot of the window. -/
def visit (acc : QueryScan) (t : LsqTag) : QueryScan :=
  if acc.found then acc
  else if t = tag then { acc with found := true }
  else if (q.entries t).valid ∧ (q.entries t).isStore then
    queryStore (q.entries t) address access acc
  else acc

/-- The scan visits the window, oldest slot first. -/
theorem Wf.queryScan_visit {q : LoadStoreQueue} (hwf : q.Wf) :
    q.queryScan tag address access =
      q.window.foldl (q.visit tag address access)
        ⟨⟨true, false, 0⟩, false⟩ := by
  have hskip (acc : QueryScan) (k : Nat) (hk : q.entryCount ≤ k) :
      q.queryStep tag address access acc k = acc := by
    rw [queryStep, if_neg]
    rintro ⟨hlt, -⟩
    omega
  rw [queryScan, Ring.foldl_range_occupied hwf.count_le hskip, window,
    Ring.slots, List.foldl_map]
  apply List.foldl_ext
  intro acc k hk
  rw [List.mem_range] at hk
  rw [queryStep, visit]
  cases hfound : acc.found with
  | true => simp
  | false => simp [hk]

/-- The slots of the unretired stores in a part of the window. -/
def storeSlots (slots : List LsqTag) : List LsqTag :=
  slots.filter fun t => (q.entries t).isStore

theorem foldl_visit_found {acc : QueryScan} (hfound : acc.found = true)
    (slots : List LsqTag) :
    slots.foldl (q.visit tag address access) acc = acc := by
  induction slots with
  | nil => rfl
  | cons t rest ih =>
      rw [List.foldl_cons, visit, if_pos hfound]
      exact ih

theorem foldl_visit_older {q : LoadStoreQueue} {slots : List LsqTag}
    (hvalid : ∀ t ∈ slots, (q.entries t).valid = true) (hnot : tag ∉ slots)
    {acc : QueryScan} (hfound : acc.found = false) :
    slots.foldl (q.visit tag address access) acc =
      ((q.storeSlots slots).map q.entries).foldl
        (fun acc e => queryStore e address access acc) acc := by
  induction slots generalizing acc with
  | nil => rfl
  | cons t rest ih =>
      have hne : t ≠ tag := fun heq => hnot (by simp [heq])
      have hrest : tag ∉ rest := fun hmem => hnot (List.mem_cons_of_mem _ hmem)
      have hvalid' : ∀ t ∈ rest, (q.entries t).valid = true :=
        fun t ht => hvalid t (List.mem_cons_of_mem _ ht)
      have hhead := hvalid t List.mem_cons_self
      rw [List.foldl_cons, visit, hfound, if_neg Bool.false_ne_true,
        if_neg hne, hhead]
      cases hstore : (q.entries t).isStore with
      | true =>
          rw [if_pos ⟨rfl, rfl⟩, ih hvalid' hrest ((queryStore_found _ _).trans
            hfound)]
          simp [storeSlots, hstore]
      | false =>
          rw [if_neg (fun h => Bool.false_ne_true h.2), ih hvalid' hrest hfound]
          simp [storeSlots, hstore]

/-- The query of a load is the scan of the stores in front of it. -/
theorem Wf.queryScan_eq {q : LoadStoreQueue} (hwf : q.Wf) {tag : LsqTag}
    {older younger : List LsqTag} (hwindow : q.window = older ++ tag :: younger) :
    q.queryScan tag address access =
      { scanStores address access ((q.storeSlots older).map q.entries) with
        found := true } := by
  have hnodup := hwf.window_nodup
  rw [hwindow, List.nodup_append] at hnodup
  have hnot : tag ∉ older :=
    fun hmem => hnodup.2.2 tag hmem tag List.mem_cons_self rfl
  have hvalid : ∀ t ∈ older, (q.entries t).valid = true := by
    intro t ht
    rw [hwf.valid_iff, hwindow]
    exact List.mem_append_left _ ht
  have hfound (stores : List LsqEntry) :
      (scanStores address access stores).found = false := by
    induction stores using List.reverseRecOn with
    | nil => rfl
    | append_singleton stores e ih =>
        rw [scanStores_snoc]
        exact (queryStore_found _ _).trans ih
  rw [hwf.queryScan_visit, hwindow, List.foldl_append,
    foldl_visit_older tag address access hvalid hnot rfl, List.foldl_cons]
  change younger.foldl _ (q.visit tag address access
    (scanStores address access _) tag) = _
  rw [visit, hfound, if_neg Bool.false_ne_true, if_pos rfl,
    foldl_visit_found _ _ _ _ rfl]

/-- What the queue answers a load that it lets go. -/
theorem Wf.query_eq {q : LoadStoreQueue} (hwf : q.Wf) {tag : LsqTag}
    {older younger : List LsqTag} (hwindow : q.window = older ++ tag :: younger)
    (hload : (q.entries tag).isStore = false) {address : Word}
    {access : MemAccess}
    (hready : (q.query true tag address access).ready = true) :
    q.query true tag address access =
      (scanStores address access
        ((q.storeSlots older).map q.entries)).toLsqQuery := by
  have hslot : tag ∈ q.window := by
    rw [hwindow]
    simp
  rw [query, (hwf.valid_iff tag).mpr hslot, hload, if_pos ⟨rfl, rfl⟩,
    if_neg Bool.false_ne_true] at hready ⊢
  cases hisLoad : (q.entries tag).isLoad with
  | false =>
      rw [hisLoad, if_neg Bool.false_ne_true] at hready
      cases hready
  | true =>
      rw [if_pos rfl, hwf.queryScan_eq address access hwindow]
      simp

end Window

end LoadStoreQueue

namespace StoreBuffer

variable {b : StoreBuffer} {address : Word} {access : MemAccess}

/-- A query without a conflict: no buffered store writes bytes of the load. -/
theorem Wf.queryConflict_misses (hwf : b.Wf)
    (haligned : LoadStoreExecutionUnit.misaligned access address = false)
    (hstores : ∀ r ∈ b.contents, r.Aligned)
    (hquery : b.queryConflict true address access = false) :
    ∀ r ∈ b.contents, r.Misses address access := by
  intro r hr x hx
  by_contra hwrites
  rw [← (hstores r hr).written_eq] at hwrites
  rw [(hwf.queryConflict_iff haligned).mpr ⟨r, hr, x, hx, hwrites⟩] at hquery
  cases hquery

end StoreBuffer

end OoOCore
