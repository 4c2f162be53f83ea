/-
The edge of the CSR file: a trap before `mret` before a CSR instruction, and
what a CSR instruction may change.  The user-level counters are read-only by
their addresses, yet a write to one reaches the machine counter behind it.
-/
import OoOCore.Retire

namespace OoOCore

/-- The writable registers; a counter is two of them. -/
inductive CsrReg where
  | mstatus | mie | mtvec | mscratch | mepc | mcause | mtval | mip
  | mcycle | mcycleh | minstret | minstreth
deriving DecidableEq, Repr

namespace CsrReg

def address : CsrReg → CsrAddr
  | .mstatus => 0x300
  | .mie => 0x304
  | .mtvec => 0x305
  | .mscratch => 0x340
  | .mepc => 0x341
  | .mcause => 0x342
  | .mtval => 0x343
  | .mip => 0x344
  | .mcycle => 0xB00
  | .mcycleh => 0xB80
  | .minstret => 0xB02
  | .minstreth => 0xB82

def all : List CsrReg :=
  [.mstatus, .mie, .mtvec, .mscratch, .mepc, .mcause, .mtval, .mip,
    .mcycle, .mcycleh, .minstret, .minstreth]

/-- The writable register at an address. -/
def at? (addr : CsrAddr) : Option CsrReg :=
  all.find? fun reg => decide (reg.address = addr)

theorem address_of_at? {addr : CsrAddr} {reg : CsrReg}
    (h : at? addr = some reg) : reg.address = addr := by
  simpa using List.find?_some h

/-- The read-only addresses `cycle[h]`, `time[h]` and `instret[h]`, and the
counter half each of them reads. -/
def views : List (CsrAddr × CsrReg) :=
  [(0xC00, .mcycle), (0xC01, .mcycle), (0xC80, .mcycleh), (0xC81, .mcycleh),
    (0xC02, .minstret), (0xC82, .minstreth)]

end CsrReg

/-- What a CSR instruction makes of the old value and its operand. -/
def CsrOp.combine (op : CsrOp) (old operand : Word) : Word :=
  match op with
  | .rw => operand
  | .rs => old ||| operand
  | .rc => old &&& ~~~operand
  | .none => old

namespace CSRFile

/-- The value of a register. -/
def get (f : CSRFile) : CsrReg → Word
  | .mstatus => f.mstatus
  | .mie => f.mie
  | .mtvec => f.mtvec
  | .mscratch => f.mscratch
  | .mepc => f.mepc
  | .mcause => f.mcause
  | .mtval => f.mtval
  | .mip => f.mip
  | .mcycle => f.mcycle.extractLsb' 0 32
  | .mcycleh => f.mcycle.extractLsb' 32 32
  | .minstret => f.minstret.extractLsb' 0 32
  | .minstreth => f.minstret.extractLsb' 32 32

/-- Give a register a value. -/
def set (f : CSRFile) (reg : CsrReg) (value : Word) : CSRFile :=
  match reg with
  | .mstatus => { f with mstatus := value }
  | .mie => { f with mie := value }
  | .mtvec => { f with mtvec := value }
  | .mscratch => { f with mscratch := value }
  | .mepc => { f with mepc := value }
  | .mcause => { f with mcause := value }
  | .mtval => { f with mtval := value }
  | .mip => { f with mip := value }
  | .mcycle => { f with mcycle := setLow f.mcycle value }
  | .mcycleh => { f with mcycle := setHigh f.mcycle value }
  | .minstret => { f with minstret := setLow f.minstret value }
  | .minstreth => { f with minstret := setHigh f.minstret value }

/-- The file after the counters have run on. -/
def counted (f : CSRFile) (retireCount : Nat) : CSRFile :=
  { f with
    mcycle := f.mcycle + 1
    minstret := f.minstret + BitVec.ofNat 64 retireCount }

/-- A CSR instruction writes in this edge. -/
def writes (r : CsrRequest) (trap : TrapReport) (mret : Bool) : Bool :=
  !trap.valid && !mret && r.valid && decide (r.op ≠ .none)

variable {f g : CSRFile} {reg reg' : CsrReg} {value : Word} {n : Nat}
  {r : CsrRequest} {trap : TrapReport} {mret : Bool}

section Registers

theorem low_setLow (counter : BitVec 64) (value : Word) :
    (setLow counter value).extractLsb' 0 32 = value :=
  BitVec.extractLsb'_append_eq_right

theorem high_setLow (counter : BitVec 64) (value : Word) :
    (setLow counter value).extractLsb' 32 32 = counter.extractLsb' 32 32 :=
  BitVec.extractLsb'_append_eq_left

theorem low_setHigh (counter : BitVec 64) (value : Word) :
    (setHigh counter value).extractLsb' 0 32 = counter.extractLsb' 0 32 :=
  BitVec.extractLsb'_append_eq_right

theorem high_setHigh (counter : BitVec 64) (value : Word) :
    (setHigh counter value).extractLsb' 32 32 = value :=
  BitVec.extractLsb'_append_eq_left

theorem get_set_self (f : CSRFile) (reg : CsrReg) (value : Word) :
    (f.set reg value).get reg = value := by
  cases reg with
  | mcycle => exact low_setLow f.mcycle value
  | mcycleh => exact high_setHigh f.mcycle value
  | minstret => exact low_setLow f.minstret value
  | minstreth => exact high_setHigh f.minstret value
  | _ => rfl

/-- A write to a register leaves the others, the other half of its counter
among them. -/
theorem get_set_of_ne (hne : reg' ≠ reg) :
    (f.set reg value).get reg' = f.get reg' := by
  cases reg with
  | mcycle =>
      cases reg' with
      | mcycle => exact absurd rfl hne
      | mcycleh => exact high_setLow f.mcycle value
      | _ => rfl
  | mcycleh =>
      cases reg' with
      | mcycle => exact low_setHigh f.mcycle value
      | mcycleh => exact absurd rfl hne
      | _ => rfl
  | minstret =>
      cases reg' with
      | minstret => exact absurd rfl hne
      | minstreth => exact high_setLow f.minstret value
      | _ => rfl
  | minstreth =>
      cases reg' with
      | minstret => exact low_setHigh f.minstret value
      | minstreth => exact absurd rfl hne
      | _ => rfl
  | _ =>
      cases reg' <;> first
        | exact absurd rfl hne
        | rfl

/-- The file is its registers. -/
theorem ext_get (h : ∀ reg, f.get reg = g.get reg) : f = g := by
  have hhalves (x : BitVec 64) :
      x.extractLsb' 32 32 ++ x.extractLsb' 0 32 = x :=
    @BitVec.extractLsb'_append_extractLsb' 32 32 x
  have hcounter {x y : BitVec 64}
      (hlow : x.extractLsb' 0 32 = y.extractLsb' 0 32)
      (hhigh : x.extractLsb' 32 32 = y.extractLsb' 32 32) : x = y := by
    rw [← hhalves x, ← hhalves y, hlow, hhigh]
  have hcycle : f.mcycle = g.mcycle := hcounter (h .mcycle) (h .mcycleh)
  have hinstret : f.minstret = g.minstret :=
    hcounter (h .minstret) (h .minstreth)
  obtain ⟨_, _, _, _, _, _, _, _, _, _⟩ := f
  obtain ⟨_, _, _, _, _, _, _, _, _, _⟩ := g
  rw [CSRFile.mk.injEq]
  exact ⟨h .mstatus, h .mie, h .mtvec, h .mscratch, h .mepc, h .mcause,
    h .mtval, h .mip, hcycle, hinstret⟩

theorem set_get_self (f : CSRFile) (reg : CsrReg) : f.set reg (f.get reg) = f := by
  refine ext_get fun reg' => ?_
  by_cases hsame : reg' = reg
  · rw [hsame, get_set_self]
  · exact get_set_of_ne hsame

end Registers

section Write

theorem write_address (f : CSRFile) (reg : CsrReg) (value : Word) :
    f.write reg.address value = f.set reg value := by
  cases reg <;> rfl

theorem read_address (f : CSRFile) (reg : CsrReg) :
    f.read reg.address = f.get reg := by
  cases reg <;> rfl

/-- A read-only address is written like the counter half behind it. -/
theorem write_view {view : CsrAddr × CsrReg} (h : view ∈ CsrReg.views)
    (f : CSRFile) (value : Word) :
    f.write view.1 value = f.set view.2 value := by
  simp only [CsrReg.views, List.mem_cons, List.not_mem_nil, or_false] at h
  rcases h with rfl | rfl | rfl | rfl | rfl | rfl <;> rfl

theorem read_view {view : CsrAddr × CsrReg} (h : view ∈ CsrReg.views)
    (f : CSRFile) : f.read view.1 = f.get view.2 := by
  simp only [CsrReg.views, List.mem_cons, List.not_mem_nil, or_false] at h
  rcases h with rfl | rfl | rfl | rfl | rfl | rfl <;> rfl

/-- Any other address is not written. -/
theorem write_other (f : CSRFile) {addr : CsrAddr}
    (hat : CsrReg.at? addr = none) (hview : ∀ view ∈ CsrReg.views, view.1 ≠ addr)
    (value : Word) : f.write addr value = f := by
  have hreg (reg : CsrReg) : addr ≠ reg.address := by
    have hmem : reg ∈ CsrReg.all := by
      cases reg <;> decide
    have hne := List.find?_eq_none.mp hat reg hmem
    exact fun heq => hne (decide_eq_true heq.symm)
  simp only [CsrReg.views, List.forall_mem_cons] at hview
  obtain ⟨hcycle, htime, hcycleh, htimeh, hinstret, hinstreth, _⟩ := hview
  have hstatus : addr ≠ csrMstatus := hreg .mstatus
  have hmie : addr ≠ 0x304 := hreg .mie
  have hmtvec : addr ≠ 0x305 := hreg .mtvec
  have hmscratch : addr ≠ 0x340 := hreg .mscratch
  have hmepc : addr ≠ csrMepc := hreg .mepc
  have hmcause : addr ≠ 0x342 := hreg .mcause
  have hmtval : addr ≠ 0x343 := hreg .mtval
  have hmip : addr ≠ 0x344 := hreg .mip
  rw [write, if_neg hstatus, if_neg hmie, if_neg hmtvec, if_neg hmscratch,
    if_neg hmepc, if_neg hmcause, if_neg hmtval, if_neg hmip]
  have hlow : ¬ (addr = 0xB00 ∨ addr = 0xC00 ∨ addr = 0xC01) :=
    not_or.mpr ⟨hreg .mcycle, not_or.mpr ⟨hcycle.symm, htime.symm⟩⟩
  have hhigh : ¬ (addr = 0xB80 ∨ addr = 0xC80 ∨ addr = 0xC81) :=
    not_or.mpr ⟨hreg .mcycleh, not_or.mpr ⟨hcycleh.symm, htimeh.symm⟩⟩
  have hretired : ¬ (addr = 0xB02 ∨ addr = 0xC02) :=
    not_or.mpr ⟨hreg .minstret, hinstret.symm⟩
  have hretiredh : ¬ (addr = 0xB82 ∨ addr = 0xC82) :=
    not_or.mpr ⟨hreg .minstreth, hinstreth.symm⟩
  rw [if_neg hlow, if_neg hhigh, if_neg hretired, if_neg hretiredh]

theorem step_writes (hwrites : writes r trap mret = true) :
    f.step n r trap mret = (f.counted n).write r.addr (f.nextValue r) := by
  simp only [writes, Bool.and_eq_true, Bool.not_eq_true', decide_eq_true_eq]
    at hwrites
  obtain ⟨⟨⟨htrap, hmret⟩, hvalid⟩, hop⟩ := hwrites
  rw [step, htrap, hmret, if_neg Bool.false_ne_true, if_neg Bool.false_ne_true,
    if_pos ⟨hvalid, hop⟩]
  rfl

theorem step_counted (hwrites : writes r trap mret = false)
    (htrap : trap.valid = false) (hmret : mret = false) :
    f.step n r trap mret = f.counted n := by
  have hnot : ¬ (r.valid = true ∧ r.op ≠ .none) := by
    rintro ⟨hvalid, hop⟩
    simp [writes, htrap, hmret, hvalid, hop] at hwrites
  rw [step, htrap, hmret, if_neg Bool.false_ne_true, if_neg Bool.false_ne_true,
    if_neg hnot]
  rfl

end Write

section Edge

theorem nextValue_eq (hread : f.read r.addr = f.get reg) :
    f.nextValue r = r.op.combine (f.get reg) r.writeData := by
  rw [nextValue, hread]
  rfl

/-- A trap goes before `mret` and `mret` before a CSR instruction; a CSR
instruction changes the register it addresses and no other, and one that
addresses no register changes nothing. -/
structure Framed (f : CSRFile) (n : Nat) (r : CsrRequest) (trap : TrapReport)
    (mret : Bool) : Prop where
  trap_first : trap.valid = true → ∀ r' mret',
    f.step n r trap mret = f.step n r' trap mret'
  mret_first : trap.valid = false → mret = true → ∀ r',
    f.step n r trap mret = f.step n r' trap mret
  idle : trap.valid = false → mret = false → writes r trap mret = false →
    f.step n r trap mret = f.counted n
  written : writes r trap mret = true → ∀ reg, CsrReg.at? r.addr = some reg →
    (f.step n r trap mret).get reg = r.op.combine (f.get reg) r.writeData
  only : writes r trap mret = true → ∀ reg, CsrReg.at? r.addr = some reg →
    ∀ reg', reg' ≠ reg →
      (f.step n r trap mret).get reg' = (f.counted n).get reg'
  ignored : writes r trap mret = true → CsrReg.at? r.addr = none →
    f.step n r trap mret = f.counted n

/-- The edge does not write a read-only address, or writes what the counter
half behind it comes to anyway. -/
def Spares (f : CSRFile) (n : Nat) (r : CsrRequest) (trap : TrapReport)
    (mret : Bool) : Prop :=
  writes r trap mret = true → ∀ view ∈ CsrReg.views, view.1 = r.addr →
    r.op.combine (f.get view.2) r.writeData = (f.counted n).get view.2

theorem step_of_trap (htrap : trap.valid = true) (r r' : CsrRequest)
    (mret mret' : Bool) :
    f.step n r trap mret = f.step n r' trap mret' := by
  rw [step, step, htrap]
  rfl

theorem step_of_mret (htrap : trap.valid = false) (r r' : CsrRequest) :
    f.step n r trap true = f.step n r' trap true := by
  rw [step, step, htrap]
  rfl

/-- A write to a register of its own. -/
theorem step_of_at (hwrites : writes r trap mret = true)
    (hat : CsrReg.at? r.addr = some reg) :
    f.step n r trap mret = (f.counted n).set reg
      (r.op.combine (f.get reg) r.writeData) := by
  have haddr := CsrReg.address_of_at? hat
  have hread : f.read r.addr = f.get reg := by
    rw [← haddr]
    exact read_address f reg
  rw [step_writes hwrites, nextValue_eq hread, ← haddr]
  exact write_address _ reg _

/-- A write to a read-only address. -/
theorem step_of_view (hwrites : writes r trap mret = true)
    {view : CsrAddr × CsrReg} (hview : view ∈ CsrReg.views)
    (haddr : view.1 = r.addr) :
    f.step n r trap mret = (f.counted n).set view.2
      (r.op.combine (f.get view.2) r.writeData) := by
  have hread : f.read r.addr = f.get view.2 := by
    rw [← haddr]
    exact read_view hview f
  rw [step_writes hwrites, nextValue_eq hread, ← haddr]
  exact write_view hview _ _

/-- No register is at a read-only address. -/
theorem at?_view {view : CsrAddr × CsrReg} (hview : view ∈ CsrReg.views) :
    CsrReg.at? view.1 = none := by
  revert view
  decide

/-- On every edge, from every state, the frame of a CSR instruction and the
priorities hold exactly when no write to `cycle[h]`, `time[h]` or `instret[h]`
changes the counter behind it. -/
theorem framed_iff (f : CSRFile) (n : Nat) (r : CsrRequest) (trap : TrapReport)
    (mret : Bool) : Framed f n r trap mret ↔ Spares f n r trap mret := by
  constructor
  · intro h hwrites view hview haddr
    have hat : CsrReg.at? r.addr = none := haddr ▸ at?_view hview
    have hignored := h.ignored hwrites hat
    rw [step_of_view hwrites hview haddr] at hignored
    rw [← hignored, get_set_self]
  · intro h
    refine ⟨fun htrap r' mret' => step_of_trap htrap r r' mret mret', ?_,
      fun htrap hmret hwrites => step_counted hwrites htrap hmret, ?_, ?_, ?_⟩
    · intro htrap hmret r'
      subst hmret
      exact step_of_mret htrap r r'
    · intro hwrites reg hat
      rw [step_of_at hwrites hat, get_set_self]
    · intro hwrites reg hat reg' hne
      rw [step_of_at hwrites hat, get_set_of_ne hne]
    · intro hwrites hat
      by_cases hview : ∃ view ∈ CsrReg.views, view.1 = r.addr
      · obtain ⟨view, hmem, haddr⟩ := hview
        rw [step_of_view hwrites hmem haddr, h hwrites view hmem haddr]
        exact set_get_self _ view.2
      · rw [step_writes hwrites, write_other _ hat]
        exact fun view hmem haddr => hview ⟨view, hmem, haddr⟩

/-- `csrrw` on `cycle` sets the machine counter. -/
theorem cycle_written : ¬ ∀ f n r trap mret, Framed f n r trap mret := by
  intro h
  have hignored := (h {} 0 ⟨true, .rw, 0xC00, 5⟩ ⟨false, 0, 0, 0⟩ false).ignored
    rfl (by decide)
  have hcounter := congrArg CSRFile.mcycle hignored
  revert hcounter
  decide

end Edge

end CSRFile

end OoOCore
