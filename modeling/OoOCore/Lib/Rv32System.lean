/-
Runs of the machine on a platform with devices.  What a device or a CSR returns,
where MRET returns to and where the trap handler lies is left open, and the
platform may be left altogether; everything else is fixed.
-/
import OoOCore.Lib.Rv32Machine

namespace Rv32

/-- A platform with devices, and with places that hold no instruction. -/
structure System extends Platform where
  device : BitVec 32 → Bool
  holds : BitVec 32 → Bool

/-- The data addresses that something answers. -/
def System.data (s : System) (a : BitVec 32) : Bool := s.plain a || s.device a

/-- What is seen of a machine: an instruction that it performs, an MRET with
the place it returns to, or a trap with its cause, its value and the handler it
goes to. -/
inductive Label where
  | performs (e : Event)
  | returns (pc target : BitVec 32)
  | traps (pc : BitVec 32) (cause : BitVec 6) (value vector : BitVec 32)
deriving DecidableEq

/-- What a label does to the registers and the memory.  A trap does nothing. -/
def Label.event? : Label → Option Event
  | .performs e => some e
  | .returns pc _ => some ⟨pc, none, none⟩
  | .traps .. => none

theorem events_performs (events : List Event) :
    (events.map Label.performs).filterMap Label.event? = events := by
  rw [List.filterMap_map]
  exact List.filterMap_some

/-- Where labels and events agree as far as both go, one is the start of the
other. -/
theorem events_of_take {labels : List Label} {events : List Event} {n : Nat}
    (hlength : events.length = n)
    (h : labels.take n = (events.map .performs).take labels.length) :
    labels.filterMap Label.event? <+: events ∨
      events <+: labels.filterMap Label.event? := by
  rcases Nat.le_total labels.length n with hshort | hlong
  · left
    rw [List.take_of_length_le hshort, ← List.map_take] at h
    rw [h, events_performs]
    exact List.take_prefix _ _
  · right
    have hend : (events.map Label.performs).length ≤ labels.length := by
      rw [List.length_map, hlength]
      exact hlong
    rw [List.take_of_length_le hend] at h
    rw [← List.take_append_drop n labels, List.filterMap_append, h,
      events_performs]
    exact List.prefix_append _ _

/-- If one of two lists begins the other, the shorter one does. -/
theorem begins_of_length {α : Type} {xs ys : List α}
    (h : xs <+: ys ∨ ys <+: xs) (hlength : xs.length ≤ ys.length) :
    xs <+: ys := by
  rcases h with h | h
  · exact h
  · obtain rfl := h.eq_of_length_le hlength
    exact h

namespace Machine

variable (s : System) (m : Machine)

/-- The instruction reads a device or a CSR. -/
def Reads : Instr → Prop
  | .load k _ rs1 imm =>
      (m.regs rs1 + imm.signExtend 32).toNat % k.width = 0 ∧
        s.device (m.regs rs1 + imm.signExtend 32) = true
  | .csr .. | .csrImm .. => True
  | _ => False

/-- The instruction makes an aligned access that nothing answers. -/
def Strays : Instr → Prop
  | .load k _ rs1 imm =>
      (m.regs rs1 + imm.signExtend 32).toNat % k.width = 0 ∧
        s.data (m.regs rs1 + imm.signExtend 32) = false
  | .store k rs1 _ imm =>
      (m.regs rs1 + imm.signExtend 32).toNat % k.width = 0 ∧
        s.data (m.regs rs1 + imm.signExtend 32) = false
  | _ => False

/-- The machine at another place. -/
def goto (pc : BitVec 32) : Machine := { m with pc := pc }

/-- One label of the machine. -/
inductive Takes : Label → Machine → Prop
  | step {e : Event} {m' : Machine} (hstep : m.step s.toPlatform = .ok (e, m')) :
      Takes (.performs e) m'
  | store {i : Instr} {e : Event} {next : BitVec 32}
      (hdecode : decode (s.fetch m.pc) = some i)
      (hexec : m.exec s.data i = .ok (e, next)) (hstores : e.store.isSome) :
      Takes (.performs e) (m.apply e next)
  | read {i : Instr} (value : BitVec 32)
      (hdecode : decode (s.fetch m.pc) = some i) (hreads : m.Reads s i) :
      Takes (.performs ⟨m.pc, i.dest.map fun rd => (rd, value), none⟩)
        (m.apply ⟨m.pc, i.dest.map fun rd => (rd, value), none⟩ (m.pc + 4))
  | mret (next : BitVec 32) (hdecode : decode (s.fetch m.pc) = some .mret) :
      Takes (.returns m.pc next) (m.goto next)
  | trap {f : Fault} (vector : BitVec 32)
      (hstep : m.step s.toPlatform = .error (.fault f)) :
      Takes (.traps m.pc f.cause f.value vector) (m.goto vector)
  | mretTrap (target vector : BitVec 32)
      (hdecode : decode (s.fetch m.pc) = some .mret) :
      Takes (.traps m.pc (Fault.misalignedTarget target).cause target vector)
        (m.goto vector)

/-- The platform says nothing about what comes next. -/
def Leaves : Prop :=
  s.holds m.pc = false ∨
    ∃ i, decode (s.fetch m.pc) = some i ∧ m.Strays s i

/-- The labels of a run. -/
inductive Runs : List Label → Machine → Prop
  | start : Runs [] m
  | snoc {labels : List Label} {m1 m2 : Machine} {l : Label}
      (hr : Runs labels m1) (hholds : s.holds m1.pc = true)
      (ht : m1.Takes s l m2) : Runs (labels ++ [l]) m2

/-- A run leaves the platform on the way. -/
def Departs (labels : List Label) : Prop :=
  ∃ first m', first <+: labels ∧ m.Runs s first m' ∧ m'.Leaves s

variable {s m} {labels : List Label} {m1 m2 : Machine} {l : Label}

theorem Departs.append (h : m.Departs s labels) (more : List Label) :
    m.Departs s (labels ++ more) := by
  obtain ⟨first, m', hfirst, hrun, hleaves⟩ := h
  refine ⟨first, m', hfirst.trans ?_, hrun, hleaves⟩
  exact List.prefix_append labels more

theorem Runs.take (hr : m.Runs s labels m1) (n : Nat) :
    ∃ m2, m.Runs s (labels.take n) m2 := by
  induction hr with
  | start =>
      rw [List.take_nil]
      exact ⟨m, .start⟩
  | @snoc labels m2 m3 l hr hholds ht ih =>
      rcases Nat.lt_or_ge labels.length n with hlong | hshort
      · refine ⟨m3, ?_⟩
        rw [List.take_of_length_le (by
          rw [List.length_append]
          exact hlong)]
        exact hr.snoc hholds ht
      · rw [List.take_append_of_le_length hshort]
        exact ih

/-- Where an instruction that is performed goes on. -/
def nextPc : Instr → BitVec 32
  | .int i =>
      match i.exec m.pc (operand m.regs (Instr.int i).source1)
          (operand m.regs (Instr.int i).source2) with
      | .ok out => out.nextPc
      | .error target => target
  | _ => m.pc + 4

theorem exec_nextPc {plain : BitVec 32 → Bool} {i : Instr} {e : Event}
    {next : BitVec 32} (h : m.exec plain i = .ok (e, next)) :
    next = m.nextPc i := by
  cases i with
  | int i =>
      rw [exec] at h
      rw [nextPc]
      split at h
      · cases h
      · next hout =>
        cases h
        rw [hout]
  | load | store =>
      simp only [exec] at h
      split at h
      · cases h
      · split at h <;> cases h
        rfl
  | fence | fenceI =>
      cases h
      rfl
  | csr | csrImm | ecall | ebreak | mret => cases h

theorem Takes.of_performs {e : Event} (ht : m.Takes s (.performs e) m1) :
    ∃ i, decode (s.fetch m.pc) = some i ∧ m1 = m.apply e (m.nextPc i) := by
  cases ht with
  | step hstep =>
      obtain ⟨i, next, hdecode, hexec, rfl⟩ := step_eq_ok hstep
      exact ⟨i, hdecode, by rw [exec_nextPc hexec]⟩
  | @store i e next hdecode hexec hstores =>
      exact ⟨i, hdecode, by rw [exec_nextPc hexec]⟩
  | @read i value hdecode hreads =>
      refine ⟨i, hdecode, ?_⟩
      cases i with
      | load | csr | csrImm => rfl
      | _ => exact absurd hreads id

theorem Takes.of_traps {pc value vector : BitVec 32} {cause : BitVec 6}
    (ht : m.Takes s (.traps pc cause value vector) m1) :
    m1 = m.goto vector := by
  cases ht with
  | trap => rfl
  | mretTrap => rfl

/-- A label fixes the machine behind it. -/
theorem Takes.unique (h1 : m.Takes s l m1) (h2 : m.Takes s l m2) :
    m2 = m1 := by
  cases l with
  | performs e =>
      obtain ⟨i, hdecode, rfl⟩ := h1.of_performs
      obtain ⟨j, hdecode', rfl⟩ := h2.of_performs
      cases hdecode.symm.trans hdecode'
      rfl
  | returns pc target =>
      cases h1
      cases h2
      rfl
  | traps pc cause value vector =>
      exact h2.of_traps.trans h1.of_traps.symm

theorem Runs.of_snoc (hr : m.Runs s (labels ++ [l]) m2) :
    ∃ m1, m.Runs s labels m1 ∧ m1.Takes s l m2 := by
  generalize hlabels : labels ++ [l] = all at hr
  cases hr with
  | start => exact absurd hlabels (by simp)
  | snoc hr hholds ht =>
      obtain ⟨rfl, hlast⟩ := List.append_inj' hlabels rfl
      cases hlast
      exact ⟨_, hr, ht⟩

/-- The labels fix the machine, whatever was left open on the way. -/
theorem Runs.unique (h1 : m.Runs s labels m1) (h2 : m.Runs s labels m2) :
    m2 = m1 := by
  induction h1 generalizing m2 with
  | start =>
      generalize hlabels : ([] : List Label) = all at h2
      cases h2 with
      | start => rfl
      | snoc => exact absurd hlabels (by simp)
  | snoc hr hholds ht ih =>
      obtain ⟨m3, hr', ht'⟩ := h2.of_snoc
      obtain rfl := ih hr'
      exact ht.unique ht'

theorem Runs.departs (hr : m.Runs s labels m1) (hleaves : m1.Leaves s) :
    m.Departs s labels :=
  ⟨labels, m1, List.prefix_refl _, hr, hleaves⟩

end Machine

/-- The plain memory is no device, and every instruction is in its place. -/
structure System.Regular (s : System) : Prop where
  apart : ∀ a, s.plain a = true → s.device a = false
  held : ∀ a i, decode (s.fetch a) = some i → s.holds a = true

namespace Machine

section Plain

variable {s : System} {m m1 m2 m' : Machine} {e : Event} {l : Label}
  {labels : List Label} {n : Nat} {events : List Event}

/-- What is performed in the plain memory is performed on the platform. -/
theorem exec_data {i : Instr} {r : Event × BitVec 32}
    (h : m.exec s.plain i = .ok r) : m.exec s.data i = .ok r := by
  have hsub (a : BitVec 32) (ha : s.plain a = true) : s.data a = true := by
    rw [System.data, ha, Bool.true_or]
  cases i with
  | load k rd rs1 imm =>
      by_cases haligned : (m.regs rs1 + imm.signExtend 32).toNat % k.width = 0
      · rw [exec_load _ _ _ haligned] at h ⊢
        split at h
        · next hplain =>
          rw [if_pos (hsub _ hplain)]
          exact h
        · cases h
      · rw [exec_load_misaligned _ _ _ haligned] at h
        cases h
  | store k rs1 rs2 imm =>
      by_cases haligned : (m.regs rs1 + imm.signExtend 32).toNat % k.width = 0
      · rw [exec_store _ _ _ haligned] at h ⊢
        split at h
        · next hplain =>
          rw [if_pos (hsub _ hplain)]
          exact h
        · cases h
      · rw [exec_store_misaligned _ _ _ haligned] at h
        cases h
  | int i => exact h
  | fence rd rs1 imm => exact h
  | fenceI => exact h
  | csr k rd rs1 addr => cases h
  | csrImm k rd zimm addr => cases h
  | ecall => cases h
  | ebreak => cases h
  | mret => cases h

variable (hs : s.Regular)

include hs

/-- What reads a device or a CSR is not performed in the plain memory. -/
theorem Reads.not_exec {i : Instr} (h : m.Reads s i)
    {r : Event × BitVec 32} : m.exec s.plain i ≠ .ok r := by
  intro hexec
  cases i with
  | load k rd rs1 imm =>
      rw [exec_load _ _ _ h.1] at hexec
      split at hexec
      · next hplain =>
        exact Bool.false_ne_true ((hs.apart _ hplain).symm.trans h.2)
      · cases hexec
  | csr k rd rs1 addr => cases hexec
  | csrImm k rd zimm addr => cases hexec
  | _ => exact h

/-- Where the machine makes a step, this step is its only label. -/
theorem Takes.eq_of_step (ht : m.Takes s l m2)
    (hstep : m.step s.toPlatform = .ok (e, m1)) :
    l = .performs e ∧ m2 = m1 := by
  obtain ⟨i, next, hdecode, hexec, hm1⟩ := step_eq_ok hstep
  cases ht with
  | step hstep' =>
      cases hstep.symm.trans hstep'
      exact ⟨rfl, rfl⟩
  | store hdecode' hexec' =>
      cases hdecode.symm.trans hdecode'
      cases (exec_data hexec).symm.trans hexec'
      exact ⟨rfl, hm1.symm⟩
  | read value hdecode' hreads =>
      cases hdecode.symm.trans hdecode'
      exact absurd hexec (hreads.not_exec hs)
  | mret next hdecode' =>
      cases hdecode.symm.trans hdecode'
      cases hexec
  | trap vector hstep' =>
      cases hstep.symm.trans hstep'
  | mretTrap target vector hdecode' =>
      cases hdecode.symm.trans hdecode'
      cases hexec

/-- A machine that makes a step does not leave the platform there. -/
theorem not_leaves_of_step (hstep : m.step s.toPlatform = .ok (e, m1)) :
    ¬ m.Leaves s := by
  obtain ⟨i, next, hdecode, hexec, -⟩ := step_eq_ok hstep
  rintro (hblank | ⟨i', hdecode', hstrays⟩)
  · exact Bool.false_ne_true (hblank.symm.trans (hs.held _ _ hdecode))
  · cases hdecode.symm.trans hdecode'
    have hdata := exec_data hexec
    cases i with
    | load k rd rs1 imm =>
        rw [exec_load _ _ _ hstrays.1, hstrays.2] at hdata
        cases hdata
    | store k rs1 rs2 imm =>
        rw [exec_store _ _ _ hstrays.1, hstrays.2] at hdata
        cases hdata
    | _ => exact hstrays

variable (hrun : m.run s.toPlatform n = some (events, m'))

include hrun

/-- No longer than the run, the labels are its events. -/
theorem Runs.along (hr : m.Runs s labels m1) (hlength : labels.length ≤ n) :
    ∃ es, m.run s.toPlatform labels.length = some (es, m1) ∧
      labels = es.map .performs := by
  induction hr with
  | start => exact ⟨[], rfl, rfl⟩
  | snoc hr hholds ht ih =>
      rw [List.length_append] at hlength ⊢
      obtain ⟨es, hes, hlabels⟩ := ih (Nat.le_of_succ_le hlength)
      obtain ⟨before, m3, e, m4, hbefore, hstep, hnext⟩ :=
        run_step s.toPlatform hrun hlength
      cases hbefore.symm.trans hes
      obtain ⟨rfl, rfl⟩ := ht.eq_of_step hs hstep
      refine ⟨es ++ [e], hnext, ?_⟩
      rw [List.map_append, hlabels]
      rfl

/-- As far as both go, the labels are the events of the run. -/
theorem Runs.agrees (hr : m.Runs s labels m1) :
    labels.take n = (events.map .performs).take labels.length := by
  obtain ⟨m2, htake⟩ := hr.take n
  have hlength := labels.length_take (i := n)
  obtain ⟨es, hes, hlabels⟩ := htake.along hs hrun (by
    rw [hlength]
    exact Nat.min_le_left _ _)
  rw [hlength] at hes
  obtain ⟨m3, hmin⟩ := run_take s.toPlatform hrun
    (Nat.min_le_left n labels.length)
  cases hes.symm.trans hmin
  have hevents : (events.map Label.performs).length ≤ n := by
    rw [List.length_map]
    exact Nat.le_of_eq (run_length s.toPlatform hrun)
  rw [hlabels, List.map_take, Nat.min_comm, ← List.take_take,
    List.take_of_length_le hevents]

/-- The platform is not left before the end of the run. -/
theorem Departs.past (hd : m.Departs s labels) : ∃ first m1,
    first <+: labels ∧ m.Runs s first m1 ∧ m1.Leaves s ∧ n ≤ first.length := by
  obtain ⟨first, m1, hfirst, hr, hleaves⟩ := hd
  refine ⟨first, m1, hfirst, hr, hleaves, ?_⟩
  by_contra hshort
  rw [Nat.not_le] at hshort
  obtain ⟨es, hes, -⟩ := hr.along hs hrun (Nat.le_of_lt hshort)
  obtain ⟨before, m2, e, m3, hbefore, hstep, -⟩ :=
    run_step s.toPlatform hrun hshort
  cases hes.symm.trans hbefore
  exact not_leaves_of_step hs hstep hleaves

theorem Departs.agrees (hd : m.Departs s labels) :
    labels.take n = (events.map .performs).take labels.length := by
  obtain ⟨first, m1, ⟨more, rfl⟩, hr, -, hlong⟩ := hd.past hs hrun
  have hfirst := hr.agrees hs hrun
  have hend : (events.map Label.performs).length ≤ first.length := by
    rw [List.length_map, run_length s.toPlatform hrun]
    exact hlong
  rw [List.take_append_of_le_length hlong, hfirst,
    List.take_of_length_le hend, List.take_of_length_le]
  rw [List.length_append]
  exact Nat.le_trans hend (Nat.le_add_right _ _)

/-- Leaving the platform in as many labels, the run ends where it is left. -/
theorem Departs.leaves (hd : m.Departs s labels)
    (hlength : labels.length = n) : m'.Leaves s := by
  obtain ⟨first, m1, hfirst, hr, hleaves, hlong⟩ := hd.past hs hrun
  have heq : first.length = n :=
    Nat.le_antisymm (hlength ▸ hfirst.length_le) hlong
  obtain ⟨es, hes, -⟩ := hr.along hs hrun (Nat.le_of_eq heq)
  rw [heq, hrun] at hes
  cases hes
  exact hleaves

end Plain

end Machine

end Rv32
