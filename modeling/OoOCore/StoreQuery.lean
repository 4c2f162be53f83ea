/-
The store-buffer query against the buffered stores.  The scan goes from the
youngest store to the oldest and keeps the first writer of each byte, so it
finds what the stores, applied oldest first, leave in the bytes of a load.
-/
import OoOCore.LoadBytes
import OoOCore.StoreFifo

namespace OoOCore

/-- The byte a buffered store writes at an address.  A store that does not fit
in its word writes nothing. -/
def StoreRequest.written (r : StoreRequest) (x : Word) : Option (BitVec 8) :=
  if r.address.toNat % 4 + r.access.storeWidth ≤ 4 then r.byte x else none

theorem StoreRequest.Aligned.written_eq {r : StoreRequest} (h : r.Aligned) :
    r.written = r.byte := by
  funext x
  exact if_pos (storeByteMask_lanes h).2.2

namespace StoreBuffer

section Lanes

variable {address x : Word} {access : MemAccess}

theorem storeByteMask_of_fits {r : StoreRequest}
    (hfit : r.address.toNat % 4 + r.access.storeWidth ≤ 4) :
    Lanes (storeByteMask r.access (byteOffset r.address))
      (r.address.toNat % 4) r.access.storeWidth := by
  have hoff := byteOffset_toNat r.address
  have hlt : r.address.toNat % 4 < 4 := Nat.mod_lt _ (by decide)
  have hthree : byteOffset r.address = 3 ↔ r.address.toNat % 4 = 3 :=
    byteOffset_eq_iff r.address 3
  have hzero : byteOffset r.address = 0 ↔ r.address.toNat % 4 = 0 :=
    byteOffset_eq_iff r.address 0
  cases haccess : r.access with
  | byte =>
      rw [storeByteMask, hoff]
      exact lanes_byte ⟨r.address.toNat % 4, hlt⟩
  | half =>
      simp only [haccess, MemAccess.storeWidth] at hfit
      have hne : ¬ byteOffset r.address = 3 := by
        rw [hthree]
        omega
      rw [storeByteMask, if_neg hne, hoff]
      exact lanes_half ⟨r.address.toNat % 4, hlt⟩
  | byteU | halfU | word =>
      simp only [haccess, MemAccess.storeWidth] at hfit
      have hstart : r.address.toNat % 4 = 0 := by omega
      change Lanes (if byteOffset r.address = 0 then 0b1111 else 0) _ 4
      rw [if_pos (hzero.mpr hstart), hstart]
      exact lanes_word

theorem storeByteMask_of_crosses {r : StoreRequest}
    (hcross : ¬ r.address.toNat % 4 + r.access.storeWidth ≤ 4) :
    storeByteMask r.access (byteOffset r.address) = 0 := by
  have hlt : r.address.toNat % 4 < 4 := Nat.mod_lt _ (by decide)
  cases haccess : r.access with
  | byte =>
      simp only [haccess, MemAccess.storeWidth] at hcross
      omega
  | half =>
      simp only [haccess, MemAccess.storeWidth] at hcross
      apply if_pos
      rw [byteOffset_eq_iff]
      exact show r.address.toNat % 4 = 3 by omega
  | byteU | halfU | word =>
      simp only [haccess, MemAccess.storeWidth] at hcross
      apply if_neg
      rw [byteOffset_eq_iff]
      exact show r.address.toNat % 4 ≠ 0 by omega

/-- The bytes a buffered store writes are the lanes the query enables for it. -/
theorem written_lanes (r : StoreRequest) (x : Word) :
    r.written x =
      if wordIndex r.address = wordIndex x ∧
          (storeByteMask r.access (byteOffset r.address)).getLsbD
            (x.toNat % 4) = true then
        some (laneByte (alignStoreData r.data r.access (byteOffset r.address)) x)
      else none := by
  by_cases hfit : r.address.toNat % 4 + r.access.storeWidth ≤ 4
  · rw [StoreRequest.written, if_pos hfit]
    exact StoreRequest.byte_lanes hfit (storeByteMask_of_fits hfit) x
  · rw [StoreRequest.written, if_neg hfit, storeByteMask_of_crosses hfit,
      if_neg]
    rintro ⟨-, hlane⟩
    simp at hlane

/-- The same, for a byte of the load. -/
theorem written_inLoad (r : StoreRequest)
    (haligned : LoadStoreExecutionUnit.misaligned access address = false)
    (hx : inLoad address access x) :
    r.written x =
      if wordIndex r.address = wordIndex address ∧
          (storeByteMask r.access (byteOffset r.address) &&&
            loadByteMask access (byteOffset address)).getLsbD
              (x.toNat % 4) = true then
        some (laneByte (alignStoreData r.data r.access (byteOffset r.address)) x)
      else none := by
  obtain ⟨hword, hlane⟩ :=
    (inLoad_iff haligned (loadByteMask_lanes haligned).2.1).mp hx
  rw [written_lanes, BitVec.getLsbD_and, hlane, Bool.and_true, hword]

/-- Every enabled lane of an aligned load is one of its bytes. -/
theorem loadByteMask_inLoad
    (haligned : LoadStoreExecutionUnit.misaligned access address = false)
    {k : Nat} (hk : k < 4)
    (hlane : (loadByteMask access (byteOffset address)).getLsbD k = true) :
    ∃ x, inLoad address access x ∧ x.toNat % 4 = k := by
  obtain ⟨-, hlanes, hfit⟩ := loadByteMask_lanes haligned
  have hin := hlanes ⟨k, hk⟩
  simp only [hlane] at hin
  have hbounds := of_decide_eq_true hin.symm
  refine ⟨address + BitVec.ofNat 32 (k - address.toNat % 4),
    inLoad_add (by omega), ?_⟩
  rw [BitVec.toNat_add, BitVec.toNat_ofNat]
  omega

end Lanes

section Scan

variable {b : StoreBuffer} {address : Word} {access : MemAccess}

/-- The buffered store that the scan looks at, `offset` before the youngest. -/
def scanned (b : StoreBuffer) (offset : Nat) : StoreRequest :=
  b.entry (subtractPtr b.tailPtr (offset + 1))

/-- What the scan does at a buffered store. -/
def scanStore (address : Word) (loadMask : ByteMask) (acc : QueryScan)
    (r : StoreRequest) : QueryScan :=
  if wordIndex r.address = wordIndex address then
    let storeMask := storeByteMask r.access (byteOffset r.address)
    { covered := acc.covered ||| (storeMask &&& loadMask)
      rawData := mergeBytes acc.rawData
        (alignStoreData r.data r.access (byteOffset r.address))
        (storeMask &&& loadMask &&& ~~~acc.covered) }
  else acc

theorem queryStep_eq (loadMask : ByteMask) (acc : QueryScan) {offset : Nat}
    (hlt : offset < b.entryCount) :
    b.queryStep address loadMask acc offset =
      scanStore address loadMask acc (b.scanned offset) := by
  by_cases hword : wordIndex (b.scanned offset).address = wordIndex address
  · rw [queryStep, if_pos ⟨hlt, hword⟩, scanStore, if_pos hword]
    rfl
  · rw [queryStep, if_neg (fun h => hword h.2), scanStore, if_neg hword]

/-- The scan meets the buffered stores, youngest first. -/
theorem Wf.map_scanned (hwf : b.Wf) :
    (List.range b.entryCount).map b.scanned = b.contents.reverse := by
  have hle : b.entryCount ≤ 8 := hwf.count_le
  apply List.ext_getElem
  · simp [contents_length]
  · intro k hk hk'
    rw [List.length_map, List.length_range] at hk
    simp only [List.getElem_map, List.getElem_range, List.getElem_reverse,
      contents, List.length_map, Ring.slots_length, Ring.slots_getElem, scanned]
    congr 1
    apply Fin.ext
    simp only [subtractPtr, hwf.tail_eq, Ring.slot]
    omega

theorem Wf.queryScan_eq (hwf : b.Wf) (address : Word) (access : MemAccess) :
    b.queryScan address access =
      b.contents.reverse.foldl
        (scanStore address (loadByteMask access (byteOffset address)))
        ⟨0, 0⟩ := by
  rw [queryScan, Ring.foldl_range_occupied hwf.count_le, ← hwf.map_scanned,
    List.foldl_map]
  · apply List.foldl_ext
    intro acc offset hoffset
    exact queryStep_eq _ acc (List.mem_range.mp hoffset)
  · intro acc offset hle
    simp only [queryStep]
    rw [if_neg]
    rintro ⟨hlt, -⟩
    omega

/-- What the scan holds after some stores, youngest first: the bytes of the load
that they write, each as the first of them writes it. -/
structure Collects (address : Word) (access : MemAccess)
    (stores : List StoreRequest) (acc : QueryScan) : Prop where
  inside : acc.covered &&& loadByteMask access (byteOffset address) =
    acc.covered
  bytes : ∀ x, inLoad address access x →
    (stores.findSome? fun r => r.written x) =
      if acc.covered.getLsbD (x.toNat % 4) then some (laneByte acc.rawData x)
      else none

/-- One more store, older than the others. -/
theorem Collects.snoc {stores : List StoreRequest} {acc : QueryScan}
    (h : Collects address access stores acc)
    (haligned : LoadStoreExecutionUnit.misaligned access address = false)
    (r : StoreRequest) :
    Collects address access (stores ++ [r])
      (scanStore address (loadByteMask access (byteOffset address)) acc r) := by
  by_cases hword : wordIndex r.address = wordIndex address
  · rw [scanStore, if_pos hword]
    constructor
    · simp only
      rw [BitVec.and_or_distrib_right, h.inside, BitVec.and_assoc,
        BitVec.and_self]
    · intro x hx
      rw [List.findSome?_append, h.bytes x hx, List.findSome?_singleton,
        written_inLoad r haligned hx, mergeBytes_lane]
      have hlt : x.toNat % 4 < 4 := Nat.mod_lt _ (by decide)
      simp only [hword, true_and, BitVec.getLsbD_or, BitVec.getLsbD_not, hlt,
        decide_true, BitVec.getLsbD_and (x := _ &&& _)]
      generalize storeByteMask r.access (byteOffset r.address) &&&
        loadByteMask access (byteOffset address) = mask
      cases acc.covered.getLsbD (x.toNat % 4) <;>
        cases mask.getLsbD (x.toNat % 4) <;> rfl
  · rw [scanStore, if_neg hword]
    refine ⟨h.inside, ?_⟩
    intro x hx
    rw [List.findSome?_append, List.findSome?_singleton,
      written_inLoad r haligned hx, if_neg (fun hboth => hword hboth.1),
      Option.or_none]
    exact h.bytes x hx

theorem Wf.queryScan_collects (hwf : b.Wf)
    (haligned : LoadStoreExecutionUnit.misaligned access address = false) :
    Collects address access b.contents.reverse
      (b.queryScan address access) := by
  rw [hwf.queryScan_eq]
  induction b.contents.reverse using List.reverseRecOn with
  | nil =>
      refine ⟨?_, ?_⟩
      · exact BitVec.zero_and
      · intro x hx
        simp
  | append_singleton stores r ih =>
      rw [List.foldl_append]
      exact ih.snoc haligned r

end Scan

/-- The query of a load tells what the buffered stores write of its bytes. -/
structure QueryExact (b : StoreBuffer) (address : Word) (access : MemAccess) :
    Prop where
  conflict : b.queryConflict true address access = true ↔
    ∃ r ∈ b.contents, ∃ x, inLoad address access x ∧ r.written x ≠ none
  forwardValid : b.queryForwardValid true address access = true ↔
    ∀ x, inLoad address access x → ∃ r ∈ b.contents, r.written x ≠ none
  forwardData : b.queryForwardValid true address access = true → ∀ m,
    b.queryForwardData true address access =
      loadValue (Overwrite.after m (b.contents.map StoreRequest.written))
        address access

section Exact

variable {b : StoreBuffer} {address x : Word} {access : MemAccess}

/-- A byte of the load is covered when some buffered store writes it. -/
theorem Collects.covered_iff {acc : QueryScan}
    (h : Collects address access b.contents.reverse acc)
    (hx : inLoad address access x) :
    acc.covered.getLsbD (x.toNat % 4) = true ↔
      ∃ r ∈ b.contents, r.written x ≠ none := by
  have hbytes := h.bytes x hx
  constructor
  · intro hcovered
    rw [hcovered, if_pos rfl] at hbytes
    obtain ⟨r, hr, hwrites⟩ := List.exists_of_findSome?_eq_some hbytes
    refine ⟨r, List.mem_reverse.mp hr, ?_⟩
    rw [hwrites]
    exact Option.some_ne_none _
  · rintro ⟨r, hr, hwrites⟩
    by_contra hno
    rw [if_neg hno, List.findSome?_eq_none_iff] at hbytes
    exact hwrites (hbytes r (List.mem_reverse.mpr hr))

/-- The covered lanes are lanes of the load. -/
theorem Collects.lane_inLoad {stores : List StoreRequest} {acc : QueryScan}
    (h : Collects address access stores acc)
    (haligned : LoadStoreExecutionUnit.misaligned access address = false)
    {k : Nat} (hlane : acc.covered.getLsbD k = true) :
    ∃ x, inLoad address access x ∧ x.toNat % 4 = k := by
  have hk : k < 4 := BitVec.lt_of_getLsbD hlane
  apply loadByteMask_inLoad haligned hk
  rw [← h.inside, BitVec.getLsbD_and, Bool.and_eq_true] at hlane
  exact hlane.2

theorem Wf.queryConflict_iff (hwf : b.Wf)
    (haligned : LoadStoreExecutionUnit.misaligned access address = false) :
    b.queryConflict true address access = true ↔
      ∃ r ∈ b.contents, ∃ x, inLoad address access x ∧ r.written x ≠ none := by
  have hscan := hwf.queryScan_collects haligned
  rw [queryConflict, Bool.true_and, decide_eq_true_eq]
  constructor
  · intro hne
    obtain ⟨k, hlane⟩ : ∃ k,
        (b.queryScan address access).covered.getLsbD k = true := by
      by_contra hnone
      apply hne
      apply BitVec.eq_of_getLsbD_eq
      intro k _
      rw [Bool.eq_false_iff.mpr fun htrue => hnone ⟨k, htrue⟩]
      simp
    obtain ⟨x, hx, rfl⟩ := hscan.lane_inLoad haligned hlane
    obtain ⟨r, hr, hwrites⟩ := (hscan.covered_iff hx).mp hlane
    exact ⟨r, hr, x, hx, hwrites⟩
  · rintro ⟨r, hr, x, hx, hwrites⟩ hzero
    have hlane := (hscan.covered_iff hx).mpr ⟨r, hr, hwrites⟩
    rw [hzero] at hlane
    simp at hlane

theorem Wf.queryForwardValid_iff (hwf : b.Wf)
    (haligned : LoadStoreExecutionUnit.misaligned access address = false) :
    b.queryForwardValid true address access = true ↔
      ∀ x, inLoad address access x → ∃ r ∈ b.contents, r.written x ≠ none := by
  have hscan := hwf.queryScan_collects haligned
  have hload (x : Word) := inLoad_iff (x := x) haligned
    (loadByteMask_lanes haligned).2.1
  simp only [queryForwardValid, Bool.true_and, Bool.and_eq_true,
    decide_eq_true_eq]
  constructor
  · rintro ⟨-, hcover⟩ x hx
    apply (hscan.covered_iff hx).mp
    have hlane := ((hload x).mp hx).2
    rw [← hcover, BitVec.getLsbD_and, Bool.and_eq_true] at hlane
    exact hlane.1
  · intro hall
    refine ⟨?_, ?_⟩
    · intro hzero
      have hfirst : inLoad address access address := by
        rw [inLoad, BitVec.sub_self]
        cases access <;> decide
      have hlane := ((hload address).mp hfirst).2
      rw [hzero] at hlane
      simp at hlane
    · apply BitVec.eq_of_getLsbD_eq
      intro k hk
      rw [BitVec.getLsbD_and]
      cases hlane : (loadByteMask access (byteOffset address)).getLsbD k with
      | false => exact Bool.and_false _
      | true =>
          obtain ⟨x, hx, rfl⟩ := loadByteMask_inLoad haligned hk hlane
          rw [(hscan.covered_iff hx).mpr (hall x hx)]
          rfl

/-- The first writer, youngest first, is the last one, oldest first. -/
theorem Collects.after_eq {acc : QueryScan}
    (h : Collects address access b.contents.reverse acc)
    (hx : inLoad address access x)
    (hcovered : acc.covered.getLsbD (x.toNat % 4) = true)
    (m : Word → BitVec 8) :
    Overwrite.after m (b.contents.map StoreRequest.written) x =
      laneByte acc.rawData x := by
  have hbytes := h.bytes x hx
  rw [hcovered, if_pos rfl] at hbytes
  rw [Overwrite.after, ← List.map_reverse, List.findSome?_map]
  exact congrArg (fun found => found.getD (m x)) hbytes

theorem Wf.queryExact (hwf : b.Wf)
    (haligned : LoadStoreExecutionUnit.misaligned access address = false) :
    b.QueryExact address access where
  conflict := hwf.queryConflict_iff haligned
  forwardValid := hwf.queryForwardValid_iff haligned
  forwardData := by
    intro hvalid m
    have hscan := hwf.queryScan_collects haligned
    have hall := (hwf.queryForwardValid_iff haligned).mp hvalid
    rw [queryForwardData, if_pos hvalid]
    apply formatLoadData_eq haligned
    intro x hx
    exact hscan.after_eq hx ((hscan.covered_iff hx).mpr (hall x hx)) m

end Exact

end StoreBuffer

end OoOCore
