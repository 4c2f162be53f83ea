/-
What the data cache needs of the memory behind it: reads of a word, its format
for narrower loads, and how a store changes the word it hits and no other.  The
flat byte memory is one such memory.
-/
import OoOCore.DataCache
import OoOCore.LoadBytes

namespace OoOCore

section Words

variable {r : StoreRequest} {m : Word → BitVec 8} {k : BitVec 30} {x : Word}

@[simp] theorem wordIndex_append (k : BitVec 30) (o : BitVec 2) :
    wordIndex (k ++ o) = k := by
  rw [wordIndex, BitVec.extractLsb'_append_eq_left]

theorem append_toNat (k : BitVec 30) (o : BitVec 2) :
    (k ++ o : Word).toNat = 4 * k.toNat + o.toNat := by
  rw [BitVec.toNat_append, Nat.shiftLeft_eq, Nat.mul_comm,
    ← Nat.two_pow_add_eq_or_of_lt o.isLt]

/-- An address is its word and the lane in it. -/
theorem address_eq (hx : wordIndex x = k) :
    x = (k ++ 0#2 : Word) + BitVec.ofNat 32 (x.toNat % 4) := by
  have hlt := x.isLt
  have hk := wordIndex_toNat x
  rw [hx] at hk
  apply BitVec.eq_of_toNat_eq
  rw [BitVec.toNat_add, append_toNat, BitVec.toNat_ofNat, BitVec.toNat_ofNat,
    hk]
  omega

/-- The lanes of a word read from a byte memory are its bytes. -/
theorem laneByte_loadValue (hx : wordIndex x = k) :
    laneByte (loadValue m (k ++ 0#2) .word) x = m x := by
  have haddress := address_eq hx
  have hzero : m (k ++ 0#2) = m ((k ++ 0#2 : Word) + BitVec.ofNat 32 0) := by
    rw [BitVec.add_zero]
  rw [loadValue, hzero]
  refine (laneByte_append
    (fun j => m ((k ++ 0#2 : Word) + BitVec.ofNat 32 j)) x).trans ?_
  rw [← haddress]

/-- Words with the same lanes are the same. -/
theorem word_ext {w w' : Word}
    (h : ∀ x, wordIndex x = k → laneByte w x = laneByte w' x) : w = w' := by
  have haligned : (k ++ 0#2 : Word).toNat % 4 = 0 := by
    rw [append_toNat]
    simp
  have hlane (j : Nat) (hj : j < 4) :
      laneByte w ((k ++ 0#2 : Word) + BitVec.ofNat 32 j) =
        laneByte w' ((k ++ 0#2 : Word) + BitVec.ofNat 32 j) := by
    apply h
    rw [← BitVec.toNat_inj, wordIndex_toNat, BitVec.toNat_add, append_toNat,
      BitVec.toNat_ofNat]
    have := k.isLt
    simp
    omega
  have h0 := hlane 0 (by decide)
  have h1 := hlane 1 (by decide)
  have h2 := hlane 2 (by decide)
  have h3 := hlane 3 (by decide)
  rw [BitVec.add_zero] at h0
  rw [← laneByte_word (w := w) haligned, ← laneByte_word (w := w') haligned]
  exact congr (congrArg _ (congr (congrArg _ (congr (congrArg _ h3) h2)) h1)) h0

/-- Merging replaces the bytes from the offset on. -/
theorem mergeStore_extract {w d : Word} {access : MemAccess} {o : BitVec 2}
    {j : Nat} (hj : j < 4) (hfit : o.toNat + access.storeWidth ≤ 4) :
    (DataCache.mergeStore w d access o).extractLsb' (8 * j) 8 =
      if o.toNat ≤ j ∧ j < o.toNat + access.storeWidth then
        d.extractLsb' (8 * (j - o.toNat)) 8
      else w.extractLsb' (8 * j) 8 := by
  have ho := o.isLt
  unfold DataCache.mergeStore
  generalize o.toNat = n at ho hfit
  cases access with
  | byte =>
      ext b hb
      have hn : n = 0 ∨ n = 1 ∨ n = 2 ∨ n = 3 := by omega
      rcases hn with rfl | rfl | rfl | rfl
      all_goals
        simp only [MemAccess.storeWidth, BitVec.getElem_extractLsb',
          BitVec.getLsbD_append, BitVec.getLsbD_extractLsb']
        split <;> simp_all <;> grind
  | half =>
      ext b hb
      simp only [MemAccess.storeWidth] at hfit
      have hn : n = 0 ∨ n = 1 ∨ n = 2 := by omega
      rcases hn with rfl | rfl | rfl
      all_goals
        simp only [MemAccess.storeWidth, BitVec.getElem_extractLsb',
          BitVec.getLsbD_append, BitVec.getLsbD_extractLsb']
        split <;> simp_all <;> grind
  | word | byteU | halfU =>
      change n + 4 ≤ 4 at hfit
      have hzero : n = 0 := by omega
      subst hzero
      symm
      apply if_pos
      exact ⟨Nat.zero_le _, by change j < 0 + 4; omega⟩

/-- Merging an aligned store replaces the lanes it covers. -/
theorem mergeStore_lane (h : r.Aligned) (w : Word)
    (hword : wordIndex r.address = wordIndex x) :
    laneByte (DataCache.mergeStore w r.data r.access (byteOffset r.address))
      x = (r.byte x).getD (laneByte w x) := by
  have hfit := (storeByteMask_lanes h).2.2
  have hx : x.toNat % 4 < 4 := Nat.mod_lt _ (by decide)
  rw [wordIndex_eq_iff] at hword
  rw [← byteOffset_toNat] at hfit
  rw [laneByte, mergeStore_extract hx hfit, StoreRequest.byte]
  rw [byteOffset_toNat] at hfit ⊢
  have hcover := sub_toNat_lt_iff (x := x) hfit
  by_cases hin : (x - r.address).toNat < r.access.storeWidth
  · obtain ⟨-, hle, hlt⟩ := hcover.mp hin
    rw [if_pos ⟨hle, hlt⟩, if_pos hin, sub_toNat_eq hword hle]
    rfl
  · rw [if_neg hin, if_neg]
    · rfl
    · intro hlanes
      exact hin (hcover.mpr ⟨hword, hlanes.1, hlanes.2⟩)

/-- An aligned store covers bytes of its own word only. -/
theorem StoreRequest.Aligned.byte_apart (h : r.Aligned)
    (hword : wordIndex r.address ≠ wordIndex x) : r.byte x = none := by
  have hfit := (storeByteMask_lanes h).2.2
  rw [StoreRequest.byte, if_neg]
  intro hin
  apply hword
  rw [wordIndex_eq_iff]
  exact ((sub_toNat_lt_iff hfit).mp hin).1

end Words

/-- The word with the index. -/
def wordAddress (k : BitVec 30) : Word := k ++ 0#2

/-- A memory behind the cache.  `read` gives its answer after the stores it has
accepted, and `index` the cell a word lives in: only stores to that cell change
the word. -/
structure Backing where
  read : List StoreRequest → Word → MemAccess → Word
  index : BitVec 30 → BitVec 30
  format : ∀ sent address access,
    LoadStoreExecutionUnit.misaligned access address = false →
      read sent address access =
        formatLoadData (read sent (wordAddress (wordIndex address)) .word)
          access (byteOffset address)
  merge : ∀ sent (r : StoreRequest), r.Aligned →
    read (sent ++ [r]) (wordAddress (wordIndex r.address)) .word =
      DataCache.mergeStore
        (read sent (wordAddress (wordIndex r.address)) .word) r.data r.access
        (byteOffset r.address)
  apart : ∀ sent (r : StoreRequest) k, r.Aligned →
    index (wordIndex r.address) ≠ index k →
      read (sent ++ [r]) (wordAddress k) .word =
        read sent (wordAddress k) .word

/-- A flat memory on full addresses. -/
def Backing.flat (init : Word → BitVec 8) : Backing where
  read := fun sent address access =>
    loadValue (Overwrite.after init (sent.map StoreRequest.byte)) address access
  index := id
  format := by
    intro sent address access haligned
    symm
    apply formatLoadData_eq haligned
    intro x hx
    have hword := ((inLoad_iff haligned
      (loadByteMask_lanes haligned).1).mp hx).1
    exact (laneByte_loadValue hword.symm).symm
  merge := by
    intro sent r hr
    apply word_ext (k := wordIndex r.address)
    intro x hx
    rw [mergeStore_lane hr _ hx.symm]
    unfold wordAddress
    rw [laneByte_loadValue hx, laneByte_loadValue hx, List.map_append,
      List.map_singleton, Overwrite.after_snoc]
  apart := by
    intro sent r k hr hne
    apply word_ext (k := k)
    intro x hx
    unfold wordAddress
    rw [laneByte_loadValue hx, laneByte_loadValue hx, List.map_append,
      List.map_singleton, Overwrite.after_snoc, hr.byte_apart]
    · rfl
    · rw [hx]
      exact hne

end OoOCore
