/-
Byte lanes: what a store request writes byte by byte, what a load reads, and
that the masks and shifters of the LSQ and of the store buffer agree with both
for aligned accesses.
-/
import OoOCore.LoadStoreQueue
import OoOCore.Execute
import OoOCore.Lib.Overwrite

namespace OoOCore

section Words

theorem byteOffset_toNat (a : Word) : (byteOffset a).toNat = a.toNat % 4 := by
  simp [byteOffset]

theorem byteOffset_eq_iff (a : Word) (k : BitVec 2) :
    byteOffset a = k ↔ a.toNat % 4 = k.toNat := by
  rw [← BitVec.toNat_inj, byteOffset_toNat]

theorem wordIndex_toNat (a : Word) : (wordIndex a).toNat = a.toNat / 4 := by
  have hlt := a.isLt
  simp only [wordIndex, BitVec.extractLsb'_toNat, Nat.shiftRight_eq_div_pow]
  omega

theorem wordIndex_eq_iff (a x : Word) :
    wordIndex a = wordIndex x ↔ a.toNat / 4 = x.toNat / 4 := by
  rw [← BitVec.toNat_inj, wordIndex_toNat, wordIndex_toNat]

/-- An access that fits in its word covers the bytes of its lanes. -/
theorem sub_toNat_lt_iff {a x : Word} {w : Nat} (hfit : a.toNat % 4 + w ≤ 4) :
    (x - a).toNat < w ↔ a.toNat / 4 = x.toNat / 4 ∧
      a.toNat % 4 ≤ x.toNat % 4 ∧ x.toNat % 4 < a.toNat % 4 + w := by
  have ha := a.isLt
  have hx := x.isLt
  rw [BitVec.toNat_sub]
  omega

theorem sub_toNat_eq {a x : Word} (hword : a.toNat / 4 = x.toNat / 4)
    (hle : a.toNat % 4 ≤ x.toNat % 4) :
    (x - a).toNat = x.toNat % 4 - a.toNat % 4 := by
  have ha := a.isLt
  have hx := x.isLt
  rw [BitVec.toNat_sub]
  omega

end Words

/-- The number of bytes an access reads. -/
def MemAccess.width : MemAccess → Nat
  | .byte | .byteU => 1
  | .half | .halfU => 2
  | .word => 4

/-- The number of bytes a store writes. -/
def MemAccess.storeWidth : MemAccess → Nat
  | .byte => 1
  | .half => 2
  | _ => 4

/-- The byte a store writes at an address, if it covers it. -/
def StoreRequest.byte (r : StoreRequest) (x : Word) : Option (BitVec 8) :=
  if (x - r.address).toNat < r.access.storeWidth then
    some (r.data.extractLsb' (8 * (x - r.address).toNat) 8)
  else none

/-- A store of a byte, a half or a word at a multiple of its size. -/
def StoreRequest.Aligned (r : StoreRequest) : Prop :=
  match r.access with
  | .byte => True
  | .half => r.address.toNat % 2 = 0
  | .word => r.address.toNat % 4 = 0
  | _ => False

/-- The value of a load, extended as the access asks. -/
def loadValue (m : Word → BitVec 8) (address : Word) (access : MemAccess) :
    Word :=
  match access with
  | .byte => (m address).signExtend 32
  | .half => (m (address + 1) ++ m address).signExtend 32
  | .byteU => (m address).setWidth 32
  | .halfU => (m (address + 1) ++ m address).setWidth 32
  | .word => m (address + 3) ++ m (address + 2) ++ m (address + 1) ++ m address

/-- The bytes a load reads. -/
def inLoad (address : Word) (access : MemAccess) (x : Word) : Prop :=
  (x - address).toNat < access.width

theorem inLoad_add {address : Word} {access : MemAccess} {k : Nat}
    (hk : k < access.width) : inLoad address access (address + BitVec.ofNat 32 k) := by
  have hwidth : access.width ≤ 4 := by cases access <;> decide
  have hsub : address + BitVec.ofNat 32 k - address = BitVec.ofNat 32 k := by
    rw [BitVec.add_comm, BitVec.add_sub_cancel]
  rw [inLoad, hsub, BitVec.toNat_ofNat]
  omega

theorem loadValue_congr {m m' : Word → BitVec 8} {address : Word}
    {access : MemAccess} (hsame : ∀ x, inLoad address access x → m x = m' x) :
    loadValue m address access = loadValue m' address access := by
  have hlane : ∀ k, k < access.width →
      m (address + BitVec.ofNat 32 k) = m' (address + BitVec.ofNat 32 k) :=
    fun k hk => hsame _ (inLoad_add hk)
  have h0 := hlane 0
  have h1 := hlane 1
  have h2 := hlane 2
  have h3 := hlane 3
  simp only [BitVec.add_zero] at h0 h1 h2 h3
  cases access <;> simp_all [loadValue, MemAccess.width]

section Masks

/-- A lane mask is the interval of byte lanes from `first` on. -/
def Lanes (mask : ByteMask) (first width : Nat) : Prop :=
  ∀ k : Fin 4, mask.getLsbD k = decide (first ≤ k.val ∧ k.val < first + width)

theorem lanes_byte : ∀ o : Fin 4, Lanes (0b0001 <<< o.val) o.val 1 := by
  unfold Lanes
  decide

theorem lanes_half : ∀ o : Fin 4, Lanes (0b0011 <<< o.val) o.val 2 := by
  unfold Lanes
  decide

theorem lanes_word : Lanes 0b1111 0 4 := by
  unfold Lanes
  decide

/-- The lanes of a load that does not fault. -/
theorem loadByteMask_lanes {access : MemAccess} {address : Word}
    (haligned : LoadStoreExecutionUnit.misaligned access address = false) :
    Lanes (LoadStoreQueue.loadByteMask access (byteOffset address))
        (address.toNat % 4) access.width ∧
      Lanes (StoreBuffer.loadByteMask access (byteOffset address))
        (address.toNat % 4) access.width ∧
      address.toNat % 4 + access.width ≤ 4 := by
  have hoff := byteOffset_toNat address
  have hlt : address.toNat % 4 < 4 := Nat.mod_lt _ (by decide)
  have hbit : address.getLsbD 0 = decide (address.toNat % 2 = 1) := by
    simp [BitVec.getLsbD, Nat.testBit_zero]
  have hbyte := lanes_byte ⟨address.toNat % 4, hlt⟩
  have hhalf := lanes_half ⟨address.toNat % 4, hlt⟩
  have hthree : byteOffset address = 3 ↔ address.toNat % 4 = 3 :=
    byteOffset_eq_iff address 3
  have hzero : byteOffset address = 0 ↔ address.toNat % 4 = 0 :=
    byteOffset_eq_iff address 0
  unfold LoadStoreExecutionUnit.misaligned at haligned
  cases access with
  | byte | byteU =>
      simp only [LoadStoreQueue.loadByteMask, StoreBuffer.loadByteMask, hoff]
      refine ⟨hbyte, hbyte, ?_⟩
      simp only [MemAccess.width]
      omega
  | half | halfU =>
      rw [hbit, decide_eq_false_iff_not] at haligned
      have hne : ¬ byteOffset address = 3 := by
        rw [hthree]
        omega
      simp only [LoadStoreQueue.loadByteMask, StoreBuffer.loadByteMask, hoff,
        if_neg hne]
      refine ⟨hhalf, hhalf, ?_⟩
      simp only [MemAccess.width]
      omega
  | word =>
      rw [decide_eq_false_iff_not, not_not, hzero] at haligned
      have heq := hzero.mpr haligned
      simp only [LoadStoreQueue.loadByteMask, StoreBuffer.loadByteMask, heq,
        if_pos, haligned]
      exact ⟨lanes_word, lanes_word, by decide⟩

/-- The lanes of an aligned store, the same in both places that compute
them. -/
theorem storeByteMask_lanes {r : StoreRequest} (haligned : r.Aligned) :
    Lanes (LoadStoreQueue.storeByteMask r.access (byteOffset r.address))
        (r.address.toNat % 4) r.access.storeWidth ∧
      Lanes (StoreBuffer.storeByteMask r.access (byteOffset r.address))
        (r.address.toNat % 4) r.access.storeWidth ∧
      r.address.toNat % 4 + r.access.storeWidth ≤ 4 := by
  have hoff := byteOffset_toNat r.address
  have hlt : r.address.toNat % 4 < 4 := Nat.mod_lt _ (by decide)
  have hbyte := lanes_byte ⟨r.address.toNat % 4, hlt⟩
  have hhalf := lanes_half ⟨r.address.toNat % 4, hlt⟩
  have hthree : byteOffset r.address = 3 ↔ r.address.toNat % 4 = 3 :=
    byteOffset_eq_iff r.address 3
  have hzero : byteOffset r.address = 0 ↔ r.address.toNat % 4 = 0 :=
    byteOffset_eq_iff r.address 0
  unfold StoreRequest.Aligned at haligned
  cases haccess : r.access with
  | byte =>
      simp only [LoadStoreQueue.storeByteMask, StoreBuffer.storeByteMask, hoff]
      refine ⟨hbyte, hbyte, ?_⟩
      simp only [MemAccess.storeWidth]
      omega
  | half =>
      rw [haccess] at haligned
      have hne : ¬ byteOffset r.address = 3 := by
        rw [hthree]
        omega
      simp only [LoadStoreQueue.storeByteMask, StoreBuffer.storeByteMask, hoff,
        if_neg hne]
      refine ⟨hhalf, hhalf, ?_⟩
      simp only [MemAccess.storeWidth]
      omega
  | word =>
      rw [haccess] at haligned
      have heq := hzero.mpr haligned
      simp only [LoadStoreQueue.storeByteMask, StoreBuffer.storeByteMask, heq,
        if_pos, haligned]
      exact ⟨lanes_word, lanes_word, by decide⟩
  | byteU | halfU =>
      rw [haccess] at haligned
      exact haligned.elim

end Masks

section Bytes

variable {r : StoreRequest} {address x : Word} {access : MemAccess}

/-- The lane of a byte address in its word. -/
def laneByte (word : Word) (x : Word) : BitVec 8 :=
  word.extractLsb' (8 * (x.toNat % 4)) 8

/-- The lanes of a word put together from bytes. -/
theorem laneByte_append (byte : Nat → BitVec 8) (x : Word) :
    laneByte (byte 3 ++ byte 2 ++ byte 1 ++ byte 0) x =
      byte (x.toNat % 4) := by
  have hlt : x.toNat % 4 < 4 := Nat.mod_lt _ (by decide)
  rw [laneByte]
  generalize x.toNat % 4 = j at hlt
  match j, hlt with
  | 0, _ => exact BitVec.extractLsb'_append_eq_right
  | 1, _ =>
      rw [BitVec.extractLsb'_append_eq_of_le (by decide)]
      exact BitVec.extractLsb'_append_eq_right
  | 2, _ =>
      rw [BitVec.extractLsb'_append_eq_of_le (by decide),
        BitVec.extractLsb'_append_eq_of_le (by decide)]
      exact BitVec.extractLsb'_append_eq_right
  | 3, _ =>
      rw [BitVec.extractLsb'_append_eq_of_le (by decide),
        BitVec.extractLsb'_append_eq_of_le (by decide),
        BitVec.extractLsb'_append_eq_of_le (by decide)]
      exact BitVec.extractLsb'_eq_self

/-- Byte enables choose between two words lane by lane. -/
theorem mergeBytes_lane (current new : Word) (enable : ByteMask) (x : Word) :
    laneByte (StoreBuffer.mergeBytes current new enable) x =
      if enable.getLsbD (x.toNat % 4) then laneByte new x
      else laneByte current x :=
  laneByte_append (fun k => if enable.getLsbD k then
    new.extractLsb' (8 * k) 8 else current.extractLsb' (8 * k) 8) x

/-- A narrow datum moved to its lanes. -/
theorem shiftedLane {d : Word} {offset : BitVec 2} {k bits : Nat}
    (hk : 8 * k + 8 ≤ bits) (hfit : offset.toNat * 8 + bits ≤ 32) :
    (((d.setWidth bits).setWidth 32 : Word) <<<
        (offset.toNat * 8)).extractLsb' (8 * (offset.toNat + k)) 8 =
      d.extractLsb' (8 * k) 8 := by
  ext b hb
  have hzero : 8 * (offset.toNat + k) + b - offset.toNat * 8 =
      8 * k + b := by omega
  have hlow : 8 * k + b < bits := by omega
  have hword : 8 * k + b < 32 := by omega
  have hlt : 8 * (offset.toNat + k) + b < 32 := by omega
  have hge : ¬ 8 * (offset.toNat + k) + b < offset.toNat * 8 := by omega
  simp only [BitVec.getElem_extractLsb', BitVec.getLsbD_shiftLeft,
    BitVec.getLsbD_setWidth, hzero, decide_eq_true hlow, decide_eq_true hword,
    decide_eq_true hlt, decide_eq_false hge, Bool.not_false, Bool.true_and]

/-- The shifter brings byte `k` of the data to the lane `offset + k`. -/
theorem alignStoreData_lane {d : Word} {access : MemAccess}
    {offset : BitVec 2} {k : Nat} (hk : k < access.storeWidth)
    (hshift : access.storeWidth = 4 → offset.toNat = 0)
    (hfit : offset.toNat + access.storeWidth ≤ 4) :
    (alignStoreData d access offset).extractLsb' (8 * (offset.toNat + k)) 8 =
      d.extractLsb' (8 * k) 8 := by
  cases access with
  | byte =>
      simp only [MemAccess.storeWidth] at hk hfit
      exact shiftedLane (by omega) (by omega)
  | half =>
      simp only [MemAccess.storeWidth] at hk hfit
      exact shiftedLane (by omega) (by omega)
  | byteU | halfU | word =>
      rw [hshift rfl, Nat.zero_add]
      rfl

theorem Lanes.apply {mask : ByteMask} {first width : Nat}
    (h : Lanes mask first width) (x : Word) :
    mask.getLsbD (x.toNat % 4) = true ↔
      first ≤ x.toNat % 4 ∧ x.toNat % 4 < first + width := by
  have hlane := h ⟨x.toNat % 4, Nat.mod_lt _ (by decide)⟩
  simp only at hlane
  rw [hlane, decide_eq_true_eq]

/-- The bytes of a store that fits in its word are its enabled lanes. -/
theorem StoreRequest.byte_lanes
    (hfit : r.address.toNat % 4 + r.access.storeWidth ≤ 4) {mask : ByteMask}
    (hlanes : Lanes mask (r.address.toNat % 4) r.access.storeWidth) (x : Word) :
    r.byte x =
      if wordIndex r.address = wordIndex x ∧
          mask.getLsbD (x.toNat % 4) = true then
        some (laneByte (alignStoreData r.data r.access (byteOffset r.address)) x)
      else none := by
  simp only [StoreRequest.byte, sub_toNat_lt_iff hfit, wordIndex_eq_iff,
    hlanes.apply]
  split
  · next hcover =>
    obtain ⟨hword, hle, hlt⟩ := hcover
    have hoff := byteOffset_toNat r.address
    have hfits : (byteOffset r.address).toNat + r.access.storeWidth ≤ 4 := by
      rw [hoff]
      exact hfit
    have hk : x.toNat % 4 - r.address.toNat % 4 < r.access.storeWidth := by
      omega
    have hlane := alignStoreData_lane (d := r.data) hk (by omega) hfits
    rw [byteOffset_toNat, Nat.add_sub_cancel' hle] at hlane
    rw [sub_toNat_eq hword hle, laneByte, hlane]
  · rfl

/-- The bytes of an aligned store are its enabled lanes. -/
theorem StoreRequest.Aligned.byte_eq (h : r.Aligned) {mask : ByteMask}
    (hlanes : Lanes mask (r.address.toNat % 4) r.access.storeWidth) (x : Word) :
    r.byte x =
      if wordIndex r.address = wordIndex x ∧
          mask.getLsbD (x.toNat % 4) = true then
        some (laneByte (alignStoreData r.data r.access (byteOffset r.address)) x)
      else none :=
  byte_lanes (storeByteMask_lanes h).2.2 hlanes x

/-- The bytes of an aligned load are its lanes. -/
theorem inLoad_iff
    (haligned : LoadStoreExecutionUnit.misaligned access address = false)
    {mask : ByteMask} (hlanes : Lanes mask (address.toNat % 4) access.width) :
    inLoad address access x ↔ wordIndex address = wordIndex x ∧
      mask.getLsbD (x.toNat % 4) = true := by
  have hfit := (loadByteMask_lanes haligned).2.2
  rw [inLoad, sub_toNat_lt_iff hfit, wordIndex_eq_iff, hlanes.apply]

/-- What one store means for a load, lane by lane. -/
theorem StoreRequest.Aligned.byte_inLoad (h : r.Aligned)
    (haligned : LoadStoreExecutionUnit.misaligned access address = false)
    {storeMask loadMask : ByteMask}
    (hstore : Lanes storeMask (r.address.toNat % 4) r.access.storeWidth)
    (hload : Lanes loadMask (address.toNat % 4) access.width)
    (hx : inLoad address access x) :
    r.byte x =
      if wordIndex r.address = wordIndex address ∧
          (storeMask &&& loadMask).getLsbD (x.toNat % 4) = true then
        some (laneByte (alignStoreData r.data r.access (byteOffset r.address)) x)
      else none := by
  obtain ⟨hword, hlane⟩ := (inLoad_iff haligned hload).mp hx
  rw [h.byte_eq hstore x, BitVec.getLsbD_and, hlane, Bool.and_true, hword]

theorem laneByte_eq (word address : Word) :
    laneByte word address =
      (word >>> ((byteOffset address).toNat * 8)).setWidth 8 := by
  rw [laneByte, byteOffset_toNat, Nat.mul_comm]
  ext b hb
  simp [BitVec.getElem_extractLsb', BitVec.getElem_setWidth]

theorem laneByte_add {word address : Word} {k : Nat}
    (hfit : address.toNat % 4 + k < 4) :
    laneByte word (address + BitVec.ofNat 32 k) =
      word.extractLsb' (8 * (address.toNat % 4) + 8 * k) 8 := by
  have hlane : (address + BitVec.ofNat 32 k).toNat % 4 =
      address.toNat % 4 + k := by
    rw [BitVec.toNat_add, BitVec.toNat_ofNat]
    omega
  rw [laneByte, hlane, Nat.mul_add]

/-- The half word at an even lane. -/
theorem laneByte_half {w address : Word} (hfit : address.toNat % 4 + 1 < 4) :
    laneByte w (address + 1) ++ laneByte w address =
      (w >>> ((byteOffset address).toNat * 8)).setWidth 16 := by
  have hhigh : laneByte w (address + 1) =
      w.extractLsb' (8 * (address.toNat % 4) + 8 * 1) 8 := laneByte_add hfit
  rw [hhigh, laneByte, byteOffset_toNat]
  ext b hb
  simp only [BitVec.getElem_append, BitVec.getElem_extractLsb',
    BitVec.getElem_setWidth, BitVec.getLsbD_ushiftRight]
  split
  · rw [Nat.mul_comm]
  · congr 1
    omega

/-- The four lanes of a word. -/
theorem laneByte_word {w address : Word} (haligned : address.toNat % 4 = 0) :
    laneByte w (address + 3) ++ laneByte w (address + 2) ++
      laneByte w (address + 1) ++ laneByte w address = w := by
  have hlane (k : Nat) (hk : k < 4) :
      laneByte w (address + BitVec.ofNat 32 k) = w.extractLsb' (8 * k) 8 := by
    rw [laneByte_add (by omega), haligned, Nat.zero_add]
  have h3 : laneByte w (address + 3) = w.extractLsb' 24 8 :=
    hlane 3 (by decide)
  have h2 : laneByte w (address + 2) = w.extractLsb' 16 8 :=
    hlane 2 (by decide)
  have h1 : laneByte w (address + 1) = w.extractLsb' 8 8 :=
    hlane 1 (by decide)
  rw [h3, h2, h1, laneByte, haligned]
  have hmerge (start high low : Nat) :
      w.extractLsb' (start + low) high ++ w.extractLsb' start low =
        w.extractLsb' start (high + low) :=
    BitVec.extractLsb'_append_extractLsb'_eq_extractLsb' rfl
  calc w.extractLsb' 24 8 ++ w.extractLsb' 16 8 ++
        w.extractLsb' 8 8 ++ w.extractLsb' 0 8
      = w.extractLsb' 16 16 ++ w.extractLsb' 8 8 ++
          w.extractLsb' 0 8 := by rw [hmerge 16 8 8]
    _ = w.extractLsb' 8 24 ++ w.extractLsb' 0 8 := by
          rw [hmerge 8 16 8]
    _ = w.extractLsb' 0 32 := hmerge 0 24 8
    _ = w := BitVec.extractLsb'_eq_self

/-- A word read lane by lane gives the value of the load. -/
theorem formatLoadData_eq
    (haligned : LoadStoreExecutionUnit.misaligned access address = false)
    {word : Word} {m : Word → BitVec 8}
    (hbytes : ∀ x, inLoad address access x → m x = laneByte word x) :
    formatLoadData word access (byteOffset address) =
      loadValue m address access := by
  have hfit := (loadByteMask_lanes haligned).2.2
  have hsame : loadValue m address access =
      loadValue (laneByte word) address access := loadValue_congr hbytes
  rw [hsame]
  cases access with
  | byte | byteU =>
      simp only [formatLoadData, loadValue, laneByte_eq]
  | half | halfU =>
      simp only [MemAccess.width] at hfit
      have hhalf := laneByte_half (w := word)
        (show address.toNat % 4 + 1 < 4 by omega)
      simp only [formatLoadData, loadValue, hhalf]
  | word =>
      simp only [MemAccess.width] at hfit
      have hword := laneByte_word (w := word)
        (show address.toNat % 4 = 0 by omega)
      simp only [formatLoadData, loadValue, hword]

end Bytes

end OoOCore
