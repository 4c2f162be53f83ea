/-
The return address stack under two fetched instructions a cycle.  The stack as
a list, the operations of one slot, and the cycles in which the pair of slots
does what its two events do one after the other.
-/
import OoOCore.BranchPredictionUnit

namespace OoOCore

namespace ReturnAddressStack

/-- The entries under a pointer, oldest first. -/
def below (entries : BitVec 3 → Word) (n : Nat) : List Word :=
  (List.range n).map fun k => entries (BitVec.ofNat 3 k)

/-- The visible stack, oldest entry first. -/
def visible (r : ReturnAddressStack) : List Word :=
  below r.speculative r.speculativeSp.toNat

/-- The event of a slot as an operation on the stack: a call is ignored when
the stack is full and a return when it is empty. -/
def Event.on (e : Event) (stack : List Word) : List Word :=
  if e.valid && e.call then
    if stack.length < 8 then stack ++ [e.returnAddress] else stack
  else if e.valid && e.ret then stack.dropLast
  else stack

/-- An instruction is not both a call and a return. -/
def Event.Exclusive (e : Event) : Prop := ¬ (e.call = true ∧ e.ret = true)

/-- A slot that does nothing to the stack. -/
def Event.quiet : Event := ⟨false, false, false, 0⟩

/-- No branch resolves. -/
def Resolve.quiet : Resolve := ⟨false, false, false, false, 0⟩

/-- The operation of a single slot: the clock edge with one event. -/
def single (r : ReturnAddressStack) (e : Event) : ReturnAddressStack :=
  r.step e Event.quiet Resolve.quiet

section Entries

variable {entries : BitVec 3 → Word} {n : Nat} {a a1 : Word}

theorem below_length (entries : BitVec 3 → Word) (n : Nat) :
    (below entries n).length = n := by
  rw [below, List.length_map, List.length_range]

theorem below_succ (entries : BitVec 3 → Word) (n : Nat) :
    below entries (n + 1) = below entries n ++ [entries (BitVec.ofNat 3 n)] := by
  rw [below, List.range_succ, List.map_append]
  rfl

theorem below_pred (entries : BitVec 3 → Word) (n : Nat) :
    below entries (n - 1) = (below entries n).dropLast := by
  cases n with
  | zero => rfl
  | succ n => rw [below_succ, List.dropLast_concat, Nat.add_sub_cancel]

/-- A write at or above the pointer is not visible. -/
theorem below_update {k : Nat} (hk : n ≤ k) (hfits : k < 8) :
    below (Function.update entries (BitVec.ofNat 3 k) a) n =
      below entries n := by
  apply List.map_congr_left
  intro j hj
  have hlt := List.mem_range.mp hj
  apply Function.update_of_ne
  intro heq
  have hnat := congrArg BitVec.toNat heq
  simp only [BitVec.toNat_ofNat] at hnat
  omega

theorem below_push (hfits : n < 8) :
    below (Function.update entries (BitVec.ofNat 3 n) a) (n + 1) =
      below entries n ++ [a] := by
  rw [below_succ, below_update (Nat.le_refl n) hfits, Function.update_self]

end Entries

section Slots

variable {r : ReturnAddressStack} {e e1 : Event} {n : Nat}

/-- The pointer and the tests on it as numbers. -/
structure At (r : ReturnAddressStack) (n : Nat) : Prop where
  pointer : r.speculativeSp = BitVec.ofNat 4 n
  bounded : n ≤ 8

theorem At.visible (h : At r n) : r.visible = below r.speculative n := by
  have hbound := h.bounded
  rw [ReturnAddressStack.visible, h.pointer, BitVec.toNat_ofNat,
    Nat.mod_eq_of_lt (by omega)]

theorem At.lt_iff (h : At r n) {k : Nat} (hk : k ≤ 8) :
    r.speculativeSp < BitVec.ofNat 4 k ↔ n < k := by
  have hbound := h.bounded
  rw [h.pointer, BitVec.lt_def, BitVec.toNat_ofNat, BitVec.toNat_ofNat,
    Nat.mod_eq_of_lt (by omega), Nat.mod_eq_of_lt (by omega)]

theorem At.gt_one_iff (h : At r n) : 1 < r.speculativeSp ↔ 1 < n := by
  have hbound := h.bounded
  rw [h.pointer, BitVec.lt_def, BitVec.toNat_ofNat,
    Nat.mod_eq_of_lt (by omega)]
  rfl

theorem At.ne_zero_iff (h : At r n) : r.speculativeSp ≠ 0 ↔ n ≠ 0 := by
  have hbound := h.bounded
  rw [h.pointer, not_iff_not]
  constructor
  · intro heq
    have hnat : n % 2 ^ 4 = 0 := congrArg BitVec.toNat heq
    omega
  · rintro rfl
    rfl

theorem At.place (h : At r n) :
    r.speculativeSp.setWidth 3 = BitVec.ofNat 3 n := by
  have hbound := h.bounded
  rw [h.pointer]
  apply BitVec.eq_of_toNat_eq
  simp only [BitVec.toNat_setWidth, BitVec.toNat_ofNat]
  omega

theorem At.top (h : At r n) (hn : n ≠ 0) :
    r.speculativeTopIndex = BitVec.ofNat 3 (n - 1) := by
  have hbound := h.bounded
  have hone : (1 : BitVec 3).toNat = 1 := rfl
  rw [speculativeTopIndex, h.place]
  apply BitVec.eq_of_toNat_eq
  rw [BitVec.toNat_sub, hone, BitVec.toNat_ofNat, BitVec.toNat_ofNat]
  omega

theorem At.add (h : At r n) (k : Nat) :
    r.speculativeSp + BitVec.ofNat 4 k = BitVec.ofNat 4 (n + k) := by
  rw [h.pointer, BitVec.ofNat_add]

theorem At.sub (h : At r n) {k : Nat} (hk : k ≤ n) :
    r.speculativeSp - BitVec.ofNat 4 k = BitVec.ofNat 4 (n - k) := by
  rw [h.pointer, BitVec.ofNat_sub_ofNat_of_le _ _ (by have := h.bounded; omega) hk]

/-- A stack with a pointer, as the clock edge leaves it. -/
structure Leaves (after : (BitVec 3 → Word) × BitVec 4) (stack : List Word) :
    Prop where
  pointer : after.2 = BitVec.ofNat 4 stack.length
  bounded : stack.length ≤ 8
  entries : below after.1 stack.length = stack

theorem Leaves.same (h : At r n) :
    Leaves (r.speculative, r.speculativeSp) (below r.speculative n) where
  pointer := by rw [below_length]; exact h.pointer
  bounded := by rw [below_length]; exact h.bounded
  entries := by rw [below_length]

theorem Leaves.push (h : At r n) (a : Word) (hfits : n < 8) :
    Leaves (Function.update r.speculative (r.speculativeSp.setWidth 3) a,
      r.speculativeSp + 1) (below r.speculative n ++ [a]) := by
  have hlength : (below r.speculative n ++ [a]).length = n + 1 := by
    rw [List.length_append, below_length]
    rfl
  constructor
  · rw [hlength]
    exact h.add 1
  · rw [hlength]
    exact hfits
  · rw [hlength, h.place]
    exact below_push hfits

theorem Leaves.pop (h : At r n) (hn : n ≠ 0) :
    Leaves (r.speculative, r.speculativeSp - 1)
      (below r.speculative n).dropLast := by
  have hlength : (below r.speculative n).dropLast.length = n - 1 := by
    rw [List.length_dropLast, below_length]
  have hbound := h.bounded
  constructor
  · rw [hlength]
    exact h.sub (k := 1) (by omega)
  · rw [hlength]
    omega
  · rw [hlength, below_pred]

theorem Leaves.push_push (h : At r n) (a a1 : Word) (hfits : n < 7) :
    Leaves (Function.update (Function.update r.speculative
        (r.speculativeSp.setWidth 3) a) (r.speculativeSp.setWidth 3 + 1) a1,
      r.speculativeSp + 2) (below r.speculative n ++ [a] ++ [a1]) := by
  have hplace : r.speculativeSp.setWidth 3 + 1 = BitVec.ofNat 3 (n + 1) := by
    rw [h.place, BitVec.ofNat_add]
    rfl
  have hlength : (below r.speculative n ++ [a] ++ [a1]).length = n + 2 := by
    rw [List.length_append, List.length_append, below_length]
    rfl
  constructor
  · rw [hlength]
    exact h.add 2
  · rw [hlength]
    omega
  · rw [hlength, hplace, h.place, below_push (by omega : n + 1 < 8),
      below_push (by omega : n < 8)]

theorem Leaves.pop_push (h : At r n) (a : Word) (hn : n ≠ 0) :
    Leaves (Function.update r.speculative r.speculativeTopIndex a,
      r.speculativeSp) ((below r.speculative n).dropLast ++ [a]) := by
  have hbound := h.bounded
  have hlength : ((below r.speculative n).dropLast ++ [a]).length = n := by
    rw [List.length_append, List.length_dropLast, below_length]
    exact Nat.sub_add_cancel (Nat.pos_of_ne_zero hn)
  constructor
  · rw [hlength]
    exact h.pointer
  · rw [hlength]
    exact hbound
  · have htop : below (Function.update r.speculative (BitVec.ofNat 3 (n - 1)) a)
        (n - 1 + 1) = below r.speculative (n - 1) ++ [a] :=
      below_push (by omega)
    rw [Nat.sub_add_cancel (Nat.pos_of_ne_zero hn), below_pred] at htop
    rw [hlength, h.top hn]
    exact htop

theorem Leaves.pop_pop (h : At r n) (hn : 1 < n) :
    Leaves (r.speculative, r.speculativeSp - 2)
      (below r.speculative n).dropLast.dropLast := by
  have hbound := h.bounded
  have hlength : (below r.speculative n).dropLast.dropLast.length = n - 2 := by
    rw [List.length_dropLast, List.length_dropLast, below_length]
    omega
  constructor
  · rw [hlength]
    exact h.sub (k := 2) (by omega)
  · rw [hlength]
    omega
  · rw [hlength, ← below_pred, ← below_pred, Nat.sub_sub]

theorem Leaves.empty (entries : BitVec 3 → Word) : Leaves (entries, 0) [] where
  pointer := rfl
  bounded := Nat.zero_le 8
  entries := rfl

theorem Leaves.first (entries : BitVec 3 → Word) (a : Word) :
    Leaves (Function.update entries 0 a, 1) [a] where
  pointer := rfl
  bounded := Nat.le_of_ble_eq_true rfl
  entries := by
    change [Function.update entries 0 a (BitVec.ofNat 3 0)] = [a]
    exact congrArg (fun x => [x]) (Function.update_self _ _ _)

/-- A return on an empty stack. -/
theorem Leaves.ignored (h : At r n) (hn : n = 0) :
    Leaves (r.speculative, r.speculativeSp) (below r.speculative n).dropLast := by
  subst hn
  exact Leaves.same h

theorem Event.Exclusive.ret_false (h : e.Exclusive)
    (hcall : (e.valid && e.call) = true) : (e.valid && e.ret) = false := by
  rw [Bool.and_eq_true] at hcall
  cases hret : e.ret with
  | true => exact absurd ⟨hcall.2, hret⟩ h
  | false => exact Bool.and_false _

theorem Event.Exclusive.on_ret (h : e.Exclusive)
    (hret : (e.valid && e.ret) = true) (stack : List Word) :
    e.on stack = stack.dropLast := by
  have hcall : (e.valid && e.call) = false := by
    cases hcall : (e.valid && e.call) with
    | false => rfl
    | true => exact absurd (hret.symm.trans (h.ret_false hcall)) (by decide)
  rw [Event.on, hcall, hret, if_neg Bool.false_ne_true, if_pos rfl]

/-- What the pair of slots does to the stack.  A call and a return cancel at
every depth. -/
theorem speculated_leaves (h : At r n) (he : e.Exclusive) (he1 : e1.Exclusive) :
    Leaves (r.speculated e e1)
      (if (e.valid && e.call) && (e1.valid && e1.ret) then
        below r.speculative n
      else e1.on (e.on (below r.speculative n))) := by
  have hlength := below_length r.speculative n
  have hbound := h.bounded
  have hseven : r.speculativeSp < 7 ↔ n < 7 := h.lt_iff (k := 7) (by decide)
  have height : r.speculativeSp < 8 ↔ n < 8 := h.lt_iff (k := 8) (by decide)
  have hone := h.gt_one_iff
  have hzero := h.ne_zero_iff
  have hret := he.ret_false
  have hret1 := he1.ret_false
  unfold speculated Event.on
  simp only [hseven, height, hone, hzero]
  generalize (e.valid && e.call) = call at hret ⊢
  generalize (e1.valid && e1.call) = call1 at hret1 ⊢
  cases call with
  | true =>
      rw [hret rfl]
      cases call1 with
      | true =>
          rw [hret1 rfl]
          by_cases hfits : n < 7
          · have hn : n < 8 := by omega
            have hroom : n + 1 < 8 := by omega
            simpa [hfits, hn, hlength, hroom] using
              Leaves.push_push h e.returnAddress e1.returnAddress hfits
          · by_cases hn : n < 8
            · have hfull : ¬ n + 1 < 8 := by omega
              simpa [hfits, hn, hlength, hfull] using
                Leaves.push h e.returnAddress hn
            · simpa [hfits, hn, hlength] using Leaves.same h
      | false =>
          cases (e1.valid && e1.ret) with
          | true => simpa using Leaves.same h
          | false =>
              by_cases hn : n < 8
              · simpa [hn, hlength] using Leaves.push h e.returnAddress hn
              · simpa [hn, hlength] using Leaves.same h
  | false =>
      cases (e.valid && e.ret) with
      | true =>
          cases call1 with
          | true =>
              rw [hret1 rfl]
              by_cases hn : n = 0
              · subst hn
                exact Leaves.first r.speculative e1.returnAddress
              · have hroom : n - 1 < 8 := by omega
                simpa [hn, hlength, hroom] using
                  Leaves.pop_push h e1.returnAddress hn
          | false =>
              cases (e1.valid && e1.ret) with
              | true =>
                  by_cases hn : 1 < n
                  · simpa [hn] using Leaves.pop_pop h hn
                  · have hnone : (below r.speculative n).dropLast.dropLast = [] := by
                      apply List.length_eq_zero_iff.mp
                      rw [List.length_dropLast, List.length_dropLast, hlength]
                      omega
                    simpa [hn, hnone] using Leaves.empty r.speculative
              | false =>
                  by_cases hn : n = 0
                  · simpa [hn] using Leaves.ignored h hn
                  · simpa [hn] using Leaves.pop h hn
      | false =>
          cases call1 with
          | true =>
              rw [hret1 rfl]
              by_cases hn : n < 8
              · simpa [hn, hlength] using Leaves.push h e1.returnAddress hn
              · simpa [hn, hlength] using Leaves.same h
          | false =>
              cases (e1.valid && e1.ret) with
              | true =>
                  by_cases hn : n = 0
                  · simpa [hn] using Leaves.ignored h hn
                  · simpa [hn] using Leaves.pop h hn
              | false => simpa using Leaves.same h

/-- The top entry as the predicted target. -/
theorem At.target (h : At r n) :
    r.target = (below r.speculative n).getLast?.getD 0 := by
  cases n with
  | zero =>
      have hzero : r.speculativeSp = 0 := h.pointer
      simp [ReturnAddressStack.target, valid, hzero, below]
  | succ n =>
      have hne : r.speculativeSp ≠ 0 := h.ne_zero_iff.mpr (Nat.succ_ne_zero n)
      rw [ReturnAddressStack.target, valid, decide_eq_true hne, if_pos rfl,
        h.top (Nat.succ_ne_zero n), below_succ, List.getLast?_concat]
      rfl

theorem target_full (h : r.speculativeSp = 8) : r.target = r.speculative 7 := by
  rw [ReturnAddressStack.target, ReturnAddressStack.valid, speculativeTopIndex,
    h]
  rfl

theorem At.valid (h : At r n) : r.valid = decide (n ≠ 0) := by
  rw [ReturnAddressStack.valid]
  exact decide_eq_decide.mpr h.ne_zero_iff

/-- Slot 1 sees the stack slot 0 leaves, except that a call always offers its
own return address. -/
theorem At.target1 (h : At r n) (e : Event) :
    r.target1 e = if e.valid && e.call then e.returnAddress
      else (e.on (below r.speculative n)).getLast?.getD 0 := by
  unfold ReturnAddressStack.target1 Event.on
  cases hcall : (e.valid && e.call) with
  | true => rfl
  | false =>
      cases hret : (e.valid && e.ret) with
      | false => exact h.target
      | true =>
          simp only [Bool.false_eq_true, if_false, if_true, h.gt_one_iff,
            ← below_pred]
          match n, h with
          | 0, _ => rfl
          | 1, _ => rfl
          | n + 2, h =>
              have hplace : r.speculativeTopIndex - 1 = BitVec.ofNat 3 n := by
                have hbound := h.bounded
                have hone : (1 : BitVec 3).toNat = 1 := rfl
                rw [h.top (by omega)]
                apply BitVec.eq_of_toNat_eq
                rw [BitVec.toNat_sub, hone, BitVec.toNat_ofNat,
                  BitVec.toNat_ofNat]
                omega
              rw [if_pos (by omega), hplace]
              change _ = (below r.speculative (n + 1)).getLast?.getD 0
              rw [below_succ, List.getLast?_concat]
              rfl

theorem At.valid1 (h : At r n) (e : Event) :
    r.valid1 e = decide (e.on (below r.speculative n) ≠ []) := by
  have hempty (stack : List Word) : decide (stack ≠ []) =
      decide (stack.length ≠ 0) :=
    decide_eq_decide.mpr List.length_eq_zero_iff.symm.not
  have hlength := below_length r.speculative n
  rw [hempty]
  unfold ReturnAddressStack.valid1 Event.on
  cases hcall : (e.valid && e.call) with
  | true =>
      by_cases hfits : n < 8
      · simp [hlength, hfits]
      · have hn : n ≠ 0 := by omega
        simp [hlength, hfits, hn]
  | false =>
      cases hret : (e.valid && e.ret) with
      | true =>
          simp only [Bool.false_eq_true, if_false, if_true, h.gt_one_iff,
            List.length_dropLast, hlength]
          exact decide_eq_decide.mpr (by omega)
      | false =>
          simp only [Bool.false_eq_true, if_false, hlength]
          exact h.valid

end Slots

/-- A cycle without a misprediction.  No instruction is both a call and a
return. -/
structure Cycle where
  first : Event
  second : Event
  resolve : Resolve
  first_exclusive : first.Exclusive
  second_exclusive : second.Exclusive
  predicted : resolve.mispredict = false

/-- The clock edge of a cycle. -/
def pair (r : ReturnAddressStack) (c : Cycle) : ReturnAddressStack :=
  r.step c.first c.second c.resolve

/-- The two events of a cycle as single slots. -/
def serial (r : ReturnAddressStack) (c : Cycle) : ReturnAddressStack :=
  (r.single c.first).single c.second

def run (cycles : List Cycle) : ReturnAddressStack := cycles.foldl pair {}

def serialRun (cycles : List Cycle) : ReturnAddressStack :=
  cycles.foldl serial {}

/-- In a cycle two stacks come to show the same, one by the pair of events and
the other by one after the other, and slot 1 is offered the same target. -/
structure Agrees (r s : ReturnAddressStack) (c : Cycle) : Prop where
  stack : (r.pair c).visible = (s.serial c).visible
  valid : r.valid1 c.first = (s.single c.first).valid
  target : r.target1 c.first = (s.single c.first).target

/-- Slot 0 does not call on a full stack, unless with the address on top and
in front of no return. -/
def Fits (r : ReturnAddressStack) (c : Cycle) : Prop :=
  r.speculativeSp = 8 → (c.first.valid && c.first.call) = true →
    (c.second.valid && c.second.ret) = false ∧
      c.first.returnAddress = r.speculative 7

section Cycles

variable {r s : ReturnAddressStack} {e : Event} {c : Cycle} {n m : Nat}

theorem Leaves.at {stack : List Word}
    (h : Leaves (r.speculative, r.speculativeSp) stack) :
    At r r.visible.length ∧ r.visible = stack := by
  have hat : At r stack.length := ⟨h.pointer, h.bounded⟩
  have hvisible : r.visible = stack := hat.visible.trans h.entries
  rw [hvisible]
  exact ⟨hat, rfl⟩

theorem At.single (h : At r n) (he : e.Exclusive) :
    At (r.single e) (r.single e).visible.length ∧
      (r.single e).visible = e.on r.visible := by
  have hquiet : Event.quiet.Exclusive := fun hboth =>
    Bool.false_ne_true hboth.1
  have hleaves := speculated_leaves h he hquiet
  rw [show (Event.quiet.valid && Event.quiet.ret) = false from rfl,
    Bool.and_false, if_neg Bool.false_ne_true, ← h.visible] at hleaves
  exact Leaves.at (r := r.single e) hleaves

theorem At.serial (h : At r n) (c : Cycle) :
    At (r.serial c) (r.serial c).visible.length ∧
      (r.serial c).visible = c.second.on (c.first.on r.visible) := by
  obtain ⟨hfirst, hvisible⟩ := h.single c.first_exclusive
  rw [← hvisible]
  exact hfirst.single c.second_exclusive

theorem At.pair (h : At r n) (c : Cycle) :
    At (r.pair c) (r.pair c).visible.length ∧
      (r.pair c).visible =
        if (c.first.valid && c.first.call) && (c.second.valid && c.second.ret)
        then r.visible
        else c.second.on (c.first.on r.visible) := by
  have hleaves := speculated_leaves h c.first_exclusive c.second_exclusive
  rw [← h.visible] at hleaves
  apply Leaves.at
  change Leaves (if c.resolve.mispredict then _ else _,
    if c.resolve.mispredict then _ else _) _
  rw [c.predicted]
  exact hleaves

/-- One cycle of the pair is the two events one after the other exactly when it
fits the stack. -/
theorem agrees_iff (h : At r n) (hs : At s m) (hsame : s.visible = r.visible) :
    Agrees r s c ↔ Fits r c := by
  have hbound := h.bounded
  have hlength : r.visible.length = n := by rw [h.visible, below_length]
  have hpair := (h.pair c).2
  have hserial := (hs.serial c).2
  obtain ⟨hsingle, hvisible⟩ := hs.single c.first_exclusive
  rw [hsame] at hserial hvisible
  have hvalid : r.valid1 c.first = (s.single c.first).valid := by
    rw [h.valid1, hsingle.valid, hvisible, h.visible]
    exact decide_eq_decide.mpr List.length_eq_zero_iff.symm.not
  have htarget : (s.single c.first).target =
      (c.first.on r.visible).getLast?.getD 0 := by
    rw [hsingle.target, ← hsingle.visible, hvisible]
  have htarget1 := h.target1 c.first
  have htop := h.target
  rw [← h.visible] at htarget1 htop
  have hfull : r.speculativeSp = 8 ↔ ¬ n < 8 := by
    rw [h.pointer]
    constructor
    · intro hsp
      have hnat : n % 2 ^ 4 = 8 := congrArg BitVec.toNat hsp
      omega
    · intro hn
      rw [show n = 8 by omega]
      rfl
  cases hcall : (c.first.valid && c.first.call) with
  | false =>
      rw [hcall, if_neg Bool.false_ne_true] at htarget1
      rw [hcall, Bool.false_and, if_neg Bool.false_ne_true] at hpair
      constructor
      · exact fun _ _ hcall' => absurd (hcall.symm.trans hcall') (by decide)
      · exact fun _ => ⟨hpair.trans hserial.symm, hvalid,
          htarget1.trans htarget.symm⟩
  | true =>
      rw [hcall, if_pos rfl] at htarget1
      rw [hcall, Bool.true_and] at hpair
      by_cases hfits : n < 8
      · -- There is room for the call, and a return takes it back.
        have hon : c.first.on r.visible = r.visible ++ [c.first.returnAddress] := by
          rw [Event.on, hcall, if_pos rfl, hlength, if_pos hfits]
        rw [hon] at hpair hserial htarget
        rw [List.getLast?_concat] at htarget
        constructor
        · exact fun _ hsp => absurd hfits (hfull.mp hsp)
        · intro _
          refine ⟨?_, hvalid, htarget1.trans htarget.symm⟩
          rw [hpair, hserial]
          cases hret : (c.second.valid && c.second.ret) with
          | false => rfl
          | true =>
              rw [if_pos rfl, c.second_exclusive.on_ret hret,
                List.dropLast_concat]
      · have hon : c.first.on r.visible = r.visible := by
          rw [Event.on, hcall, if_pos rfl, hlength, if_neg hfits]
        rw [hon] at hpair hserial htarget
        constructor
        · intro hagrees _ _
          constructor
          · cases hret : (c.second.valid && c.second.ret) with
            | false => rfl
            | true =>
                -- The pair keeps all eight entries, the serial stack seven.
                have hstack := hagrees.stack
                rw [hpair, hserial, hret, if_pos rfl,
                  c.second_exclusive.on_ret hret] at hstack
                have hcount := congrArg List.length hstack
                rw [List.length_dropLast, hlength] at hcount
                omega
          · rw [← target_full (hfull.mpr hfits), htop, ← htarget,
              ← hagrees.target, htarget1]
        · intro hfit
          obtain ⟨hret, haddress⟩ := hfit (hfull.mpr hfits) hcall
          rw [← target_full (hfull.mpr hfits)] at haddress
          refine ⟨?_, hvalid, ?_⟩
          · rw [hpair, hserial, hret, if_neg Bool.false_ne_true]
          · rw [htarget1, haddress, htop, htarget]

end Cycles

section Runs

theorem At.reset : At {} 0 := ⟨rfl, Nat.zero_le 8⟩

theorem run_snoc (before : List Cycle) (c : Cycle) :
    run (before ++ [c]) = (run before).pair c := by
  rw [run, List.foldl_append]
  rfl

theorem serialRun_snoc (before : List Cycle) (c : Cycle) :
    serialRun (before ++ [c]) = (serialRun before).serial c := by
  rw [serialRun, List.foldl_append]
  rfl

theorem run_at (cycles : List Cycle) : ∃ n, At (run cycles) n := by
  induction cycles using List.reverseRecOn with
  | nil => exact ⟨0, At.reset⟩
  | append_singleton before c ih =>
      obtain ⟨n, h⟩ := ih
      rw [run_snoc]
      exact ⟨_, (h.pair c).1⟩

theorem serialRun_at (cycles : List Cycle) : ∃ n, At (serialRun cycles) n := by
  induction cycles using List.reverseRecOn with
  | nil => exact ⟨0, At.reset⟩
  | append_singleton before c ih =>
      obtain ⟨n, h⟩ := ih
      rw [serialRun_snoc]
      exact ⟨_, (h.serial c).1⟩

/-- A run that agreed in every cycle so far shows the serial stack. -/
theorem visible_of_agrees {cycles : List Cycle}
    (h : ∀ before c after, cycles = before ++ c :: after →
      Agrees (run before) (serialRun before) c) :
    (serialRun cycles).visible = (run cycles).visible := by
  rcases List.eq_nil_or_concat cycles with rfl | ⟨before, c, rfl⟩
  · rfl
  · have hlast := (h before c [] (List.concat_eq_append)).stack
    rw [List.concat_eq_append, run_snoc, serialRun_snoc]
    exact hlast.symm

end Runs

/-- A run without mispredictions shows in every cycle the stack of the events
one after the other, and offers slot 1 its target, exactly when no cycle calls
on a full stack in slot 0, save with the address on top and in front of no
return. -/
theorem pairs_serial_iff (cycles : List Cycle) :
    (∀ before c after, cycles = before ++ c :: after →
      Agrees (run before) (serialRun before) c) ↔
    ∀ before c after, cycles = before ++ c :: after → Fits (run before) c := by
  have hfront {before front rest : List Cycle} {c c' : Cycle}
      {after : List Cycle} (hsplit : cycles = before ++ c :: after)
      (hcut : before = front ++ c' :: rest) :
      cycles = front ++ c' :: (rest ++ c :: after) := by
    rw [hsplit, hcut, List.append_assoc]
    rfl
  constructor
  · intro hagrees before c after hsplit
    obtain ⟨n, hrun⟩ := run_at before
    obtain ⟨m, hserial⟩ := serialRun_at before
    have hsame := visible_of_agrees fun front c' rest hcut =>
      hagrees front c' _ (hfront hsplit hcut)
    exact (agrees_iff hrun hserial hsame).mp (hagrees before c after hsplit)
  · intro hfits before
    -- By induction on the cycles before, which agreed.
    induction before using List.reverseRecOn with
    | nil =>
        intro c after hsplit
        exact (agrees_iff At.reset At.reset rfl).mpr (hfits [] c after hsplit)
    | append_singleton before c' ih =>
        intro c after hsplit
        have hearlier := ih c' (c :: after)
          (by rw [hsplit, List.append_assoc]; rfl)
        obtain ⟨n, hrun⟩ := run_at (before ++ [c'])
        obtain ⟨m, hserial⟩ := serialRun_at (before ++ [c'])
        have hsame : (serialRun (before ++ [c'])).visible =
            (run (before ++ [c'])).visible := by
          rw [run_snoc, serialRun_snoc]
          exact hearlier.stack.symm
        exact (agrees_iff hrun hserial hsame).mpr (hfits _ c after hsplit)

namespace Overflow

/-- Slot 0 calls. -/
def calls (returnAddress : Word) : Cycle where
  first := ⟨true, true, false, returnAddress⟩
  second := Event.quiet
  resolve := Resolve.quiet
  first_exclusive := fun h => Bool.false_ne_true h.2
  second_exclusive := fun h => Bool.false_ne_true h.1
  predicted := rfl

/-- Slot 0 calls and slot 1 returns. -/
def callsAndReturns : Cycle where
  first := ⟨true, true, false, 36⟩
  second := ⟨true, false, true, 0⟩
  resolve := Resolve.quiet
  first_exclusive := fun h => Bool.false_ne_true h.2
  second_exclusive := fun h => Bool.false_ne_true h.1
  predicted := rfl

/-- Eight calls fill the stack. -/
def filling : List Cycle := (List.range 8).map fun k => calls (BitVec.ofNat 32 (4 * k))

end Overflow

/-- A call that finds the stack full is lost, but its return is not taken from
the stack. -/
theorem call_return_keeps_full : ¬ ∀ cycles : List Cycle,
    ∀ before c after, cycles = before ++ c :: after →
      Agrees (run before) (serialRun before) c := by
  intro h
  have hstack := (h (Overflow.filling ++ [Overflow.callsAndReturns])
    Overflow.filling Overflow.callsAndReturns [] rfl).stack
  have hcount := congrArg List.length hstack
  revert hcount
  decide

end ReturnAddressStack

namespace BranchPredictionUnit

/-- The predictor recognises no instruction as both a call and a return. -/
theorem rasEvent_exclusive (u : BranchPredictionUnit) (i : Inputs)
    (lane : Lane) : (u.rasEvent i lane).Exclusive := by
  rintro ⟨hcall, hret⟩
  change isCall (u.responseInsn i lane) = true at hcall
  change isReturn (u.responseInsn i lane) = true at hret
  simp only [isCall, isReturn, Bool.and_eq_true, decide_eq_true_eq] at hcall hret
  rw [hret.1.2] at hcall
  exact absurd hcall.2 (by decide)

end BranchPredictionUnit

end OoOCore
