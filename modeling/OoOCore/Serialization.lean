/-
Serializing instructions: CSR accesses, FENCE, FENCE.I, ECALL, EBREAK and MRET
should be alone in the ROB.  They are in every run that never offers one of
them on lane 0 of a drained backend together with an ordinary instruction on
lane 1; such a pair is dispatched together.
-/
import OoOCore.ControlFlow
import OoOCore.InFlight

namespace OoOCore

namespace Isa

open Insn

/-- The encodings that serialize. -/
def serializes (insn : Word) : Bool :=
  (decide (opcode insn = 0b0001111) && decide (funct3 insn = 0b000)) ||
    decide (insn = 0x0000100F) ||
    (decide (opcode insn = 0b1110011) && decide (funct3 insn ≠ 0b000) &&
      decide (funct3 insn ≠ 0b100)) ||
    decide (insn = 0x00000073) || decide (insn = 0x00100073) ||
    decide (insn = 0x30200073)

theorem csrForm_isSome {insn : Word} (h0 : funct3 insn ≠ 0b000)
    (h4 : funct3 insn ≠ 0b100) : (csrForm insn).isSome = true := by
  have hforms : ∀ f : BitVec 3, f ≠ 0b000 → f ≠ 0b100 →
      f = 0b001 ∨ f = 0b010 ∨ f = 0b011 ∨ f = 0b101 ∨ f = 0b110 ∨
        f = 0b111 := by decide
  rcases hforms _ h0 h4 with h | h | h | h | h | h <;> simp [csrForm, h]

/-- The decoder marks every serializing word. -/
theorem decoder_serializes {insn : Word} (h : serializes insn = true) :
    (decoder insn).serialize = true ∨ (decoder insn).wbSelect = .csr := by
  simp only [serializes, Bool.or_eq_true, Bool.and_eq_true,
    decide_eq_true_eq] at h
  rcases h with ((((⟨hop, hf⟩ | rfl) | ⟨⟨hop, h0⟩, h4⟩) | rfl) | rfl) | rfl
  · left
    simp [decoder, hop, decodeFence, isFence, hf]
  · left
    decide
  · right
    obtain ⟨form, hform⟩ := Option.isSome_iff_exists.mp (csrForm_isSome h0 h4)
    have hsystem : decoder insn = decodeCsr insn form := by
      simp only [decoder, hop]
      rw [decodeSystem, if_neg h0, hform]
      rfl
    rw [hsystem]
    rfl
  · left
    decide
  · left
    decide
  · left
    decide

end Isa

namespace Backend

section Definitions

variable (s : Backend) (i : Inputs)

/-- A live serializing instruction is the only live one, and nothing is
dispatched while it is there. -/
def SerializesAlone : Prop :=
  ∀ tag ∈ s.rob.window,
    Isa.serializes (s.rob.entries tag).origin.insn = true →
      s.rob.window = [tag] ∧ ∀ i l, s.robAllocValid i l = false

/-- A serializing instruction is dispatched into an empty backend, with
nothing beside it. -/
def DispatchesAlone : Prop :=
  ∀ l, s.robAllocValid i l = true →
    Isa.serializes (i.packet l).insn = true →
      s.backendDrained i = true ∧ s.rob.window = [] ∧
        ∀ l', s.robAllocValid i l' = true → l' = l

/-- The cycle does not offer a serializing instruction on lane 0 to a drained
backend together with an instruction lane 1 takes. -/
def NoSerializingPair : Prop :=
  ¬ (Isa.serializes (i.packet 0).insn = true ∧ s.backendDrained i = true ∧
    s.laneSupported i 1 = true ∧ (i.packet 1).insn ≠ 0)

/-- The states reached by runs whose cycles all satisfy `ok`. -/
inductive ReachableWhile (ok : Backend → Inputs → Prop) : Backend → Prop
  | reset : ReachableWhile ok reset
  | step {s : Backend} (h : ReachableWhile ok s) (i : Inputs) (hi : ok s i) :
      ReachableWhile ok (s.step i)

theorem ReachableWhile.reachable {ok : Backend → Inputs → Prop} {s : Backend}
    (h : ReachableWhile ok s) : s.Reachable := by
  induction h with
  | reset => exact Reachable.reset
  | step _ i _ ih => exact ih.step i

end Definitions

section Dispatch

variable {s : Backend} {i : Inputs}

theorem accepted_supported {l : Lane} (h : s.robAllocValid i l = true) :
    s.laneSupported i l = true ∧ (i.packet l).insn ≠ 0 := by
  have hvalid := s.dispatchAccept_valid i (by rwa [robAllocValid_eq] at h)
  have hinsn : (i.packet l).insn ≠ 0 := of_decide_eq_true hvalid
  refine ⟨?_, hinsn⟩
  rw [robAllocValid_eq] at h
  match l, h with
  | 0, h =>
      simp only [dispatchAccept, DispatchControl.accept,
        DispatchControl.laneAccept, Bool.and_eq_true] at h
      exact h.1.2
  | 1, h =>
      simp only [dispatchAccept, DispatchControl.accept,
        DispatchControl.laneAccept, Bool.and_eq_true] at h
      exact h.1.2

theorem serializing_blocks (h : s.serializing = true) (l : Lane) :
    s.robAllocValid i l = false := by
  by_contra hl
  rw [Bool.not_eq_false] at hl
  have hsupported := (accepted_supported hl).1
  match l with
  | 0 => simp [laneSupported, h] at hsupported
  | 1 => simp [laneSupported, h] at hsupported

theorem laneStartsSerialization_of_serializes {l : Lane}
    (h : Isa.serializes (i.packet l).insn = true) :
    laneStartsSerialization i l = true := by
  have hdec := Isa.decoder_serializes h
  simp only [laneStartsSerialization, Bool.or_eq_true, beq_iff_eq]
  exact hdec

theorem backendDrained_window (h : s.backendDrained i = true) :
    s.rob.window = [] := by
  simp only [backendDrained, Bool.and_eq_true, decide_eq_true_eq] at h
  rw [ReorderBuffer.window, h.1.1.1.1]
  rfl

/-- What starts a serialization is accepted on lane 0 of a drained backend. -/
theorem starting_accepted {l : Lane} (hl : s.robAllocValid i l = true)
    (hstarts : laneStartsSerialization i l = true) :
    l = 0 ∧ s.backendDrained i = true := by
  have hsupported := (accepted_supported hl).1
  match l with
  | 0 =>
      refine ⟨rfl, ?_⟩
      simp only [laneSupported, hstarts, Bool.not_true, Bool.false_or,
        Bool.and_eq_true] at hsupported
      exact hsupported.2
  | 1 => simp [laneSupported, hstarts] at hsupported

/-- A serializing instruction is accepted on lane 0 of a drained backend. -/
theorem serializing_accepted {l : Lane} (hl : s.robAllocValid i l = true)
    (h : Isa.serializes (i.packet l).insn = true) :
    l = 0 ∧ s.backendDrained i = true :=
  starting_accepted hl (laneStartsSerialization_of_serializes h)

theorem NoSerializingPair.dispatchesAlone (hok : s.NoSerializingPair i) :
    s.DispatchesAlone i := by
  intro l hl hser
  obtain ⟨rfl, hdrained⟩ := serializing_accepted hl hser
  refine ⟨hdrained, backendDrained_window hdrained, ?_⟩
  intro l' hl'
  match l' with
  | 0 => rfl
  | 1 =>
      obtain ⟨hsupported, hinsn⟩ := accepted_supported hl'
      exact absurd ⟨hser, hdrained, hsupported, hinsn⟩ hok

end Dispatch

section Invariant

variable {s : Backend} {i : Inputs}

/-- A live serializing instruction is alone and the register blocks dispatch. -/
def SerialGuard (s : Backend) : Prop :=
  ∀ tag ∈ s.rob.window,
    Isa.serializes (s.rob.entries tag).origin.insn = true →
      s.rob.window = [tag] ∧ s.serializing = true

theorem SerialGuard.alone (h : s.SerialGuard) : s.SerializesAlone := by
  intro tag hlive hser
  obtain ⟨hwindow, hset⟩ := h tag hlive hser
  exact ⟨hwindow, fun i l => serializing_blocks hset l⟩

theorem step_serializing : (s.step i).serializing = s.nextSerializing i := rfl

/-- A dispatched serializing instruction sets the register. -/
theorem nextSerializing_of_dispatch (htrap : s.trapValid i = false)
    (h0 : s.robAllocValid i 0 = true)
    (hser : Isa.serializes (i.packet 0).insn = true) :
    s.nextSerializing i = true := by
  have hstarts := laneStartsSerialization_of_serializes hser
  have hvalid := h0
  rw [robAllocValid, Bool.and_eq_true] at hvalid
  simp [nextSerializing, htrap, hvalid.1, hvalid.2, hstarts]

/-- The register stays set while an entry is live. -/
theorem nextSerializing_of_live (htrap : s.trapValid i = false)
    (hset : s.serializing = true) (hlive : s.rob.entryCount ≠ 0) :
    s.nextSerializing i = true := by
  simp [nextSerializing, htrap, hset, hlive]

theorem SerialGuard.step (h : s.SerialGuard) (hs : s.InFlight)
    (hc : s.Countable) (hok : s.NoSerializingPair i) :
    (s.step i).SerialGuard := by
  intro tag hlive hser
  have htrap := not_trap_of_live hlive
  by_cases hold : tag ∈ s.rob.window
  · -- It was live: nothing is dispatched, and the window can only stay.
    have hframe := (hs.robReady.step_survivor hc htrap hold hlive).1
    have horigin := congrArg RobEntry.origin hframe
    change ((s.step i).rob.entries tag).origin =
      (s.rob.entries tag).origin at horigin
    rw [horigin] at hser
    obtain ⟨hwindow, hset⟩ := h tag hold hser
    have hnone : s.newLanes i = [] := by
      simp [newLanes, serializing_blocks hset]
    refine ⟨?_, ?_⟩
    · cases hrec : s.recoveryValid i with
      | true =>
          rw [hs.robReady.step_window_recover htrap hrec, hwindow] at *
          simp
      | false =>
          have hnext := hs.robReady.step_window_normal hc htrap hrec
          rw [hnone, List.map_nil, List.append_nil, hwindow] at hnext
          rw [hnext] at hlive ⊢
          cases hk : s.retireCount i with
          | zero => rfl
          | succ k =>
              rw [hk] at hlive
              simp at hlive
    · rw [step_serializing]
      apply nextSerializing_of_live htrap hset
      rw [← ReorderBuffer.window_length, hwindow]
      simp
  · -- It is new: the condition leaves nothing beside it.
    obtain ⟨hrec, l, hl, rfl⟩ := hs.robReady.step_new hc hold hlive
    have hentry :=
      (hs.robReady.step_dispatched hc htrap hrec hl).2.2
    rw [hentry] at hser
    change Isa.serializes (i.packet l).insn = true at hser
    obtain ⟨hdrained, hempty, honly⟩ := hok.dispatchesAlone l hl hser
    obtain ⟨rfl, -⟩ := serializing_accepted hl hser
    have h1 : s.robAllocValid i 1 = false := by
      by_contra h1
      rw [Bool.not_eq_false] at h1
      exact absurd (honly 1 h1) (by decide)
    refine ⟨?_, nextSerializing_of_dispatch htrap hl hser⟩
    rw [hs.robReady.step_window_normal hc htrap hrec, hempty]
    simp [newLanes, hl, h1]

theorem ReachableWhile.serialGuard
    (h : ReachableWhile NoSerializingPair s) : s.SerialGuard := by
  induction h with
  | reset =>
      intro tag hlive
      cases hlive
  | step hreach i hok ih =>
      exact ih.step hreach.reachable.inFlight hreach.reachable.countable hok

/-- In every run whose cycles never offer a serializing instruction on lane 0
of a drained backend together with an instruction that lane 1 takes,
serializing instructions are alone: while live, and in the cycle that
dispatches them. -/
theorem ReachableWhile.serializes_alone
    (h : ReachableWhile NoSerializingPair s) :
    s.SerializesAlone ∧
      ∀ i, s.NoSerializingPair i → s.DispatchesAlone i :=
  ⟨h.serialGuard.alone, fun _ hok => hok.dispatchesAlone⟩

end Invariant

/-- `csrrw x1, mscratch, x2` alone in its cycle. -/
def csrrwAlone : Backend := reset.step (offerPair 0x340110F3 0)

theorem serializes_alone_csrrw : csrrwAlone.rob.window = [0] ∧
    Isa.serializes (csrrwAlone.rob.entries 0).origin.insn = true ∧
    csrrwAlone.SerializesAlone := by
  have hok : reset.NoSerializingPair (offerPair 0x340110F3 0) := by
    rintro ⟨-, -, -, hinsn⟩
    exact hinsn rfl
  have hreach := ReachableWhile.reset.step (offerPair 0x340110F3 0) hok
  exact ⟨by decide +kernel, by decide +kernel, hreach.serializes_alone.1⟩

/-- From reset, `csrrw x1, mscratch, x2` and `addi x1, x0, 1` are dispatched
together: the CSR access is not alone in the ROB. -/
theorem csrrw_pair_not_alone :
    (reset.step (offerPair 0x340110F3 0x00100093)).Reachable ∧
      (reset.step (offerPair 0x340110F3 0x00100093)).rob.window = [0, 1] ∧
      Isa.serializes 0x340110F3 = true ∧
      ¬ (reset.step (offerPair 0x340110F3 0x00100093)).SerializesAlone ∧
      ¬ reset.DispatchesAlone (offerPair 0x340110F3 0x00100093) := by
  refine ⟨Reachable.reset.step _, by decide +kernel, by decide, ?_, ?_⟩
  · intro h
    have hwindow := (h 0 (by decide +kernel) (by decide +kernel)).1
    exact absurd hwindow (by decide +kernel)
  · intro h
    have honly := (h 0 (by decide +kernel) (by decide +kernel)).2.2 1
      (by decide +kernel)
    exact absurd honly (by decide)

end Backend

end OoOCore
