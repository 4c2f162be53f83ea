/-
The path the front end feeds to the backend, without any assumption on the
program.  A packet follows the one before it along the prediction, except that
a zero word is never handed out, and what follows it may lie anywhere.
-/
import OoOCore.FetchOrder
import OoOCore.Lib.Path

namespace OoOCore

/-- The instruction memory holds no instruction there. -/
def InsnMem.Blank (mem : BitVec 14 → Word) (a : Word) : Prop :=
  InsnMem.wordAt mem a = 0

/-- A packet with its prediction as a link of a path. -/
def FetchPacket.link (p : FetchPacket) : Link Word where
  place := p.pc
  next := FrontEnd.predictedNext p

namespace BranchPredictionUnit

/-- A branch or a jump, by its opcode. -/
def transfers (insn : Word) : Bool := isConditional insn || isUnconditional insn

/-- Only branches and jumps are predicted taken. -/
theorem predictTaken_transfers {u : BranchPredictionUnit} {i : Inputs}
    {lane : Lane} (h : u.predictTaken i lane = true) :
    transfers (i.queryInsn lane) = true := by
  rw [predictTaken, Bool.and_eq_true] at h
  obtain ⟨hvalid, hkind⟩ := h
  have hinsn : u.responseInsn i lane = i.queryInsn lane := by
    rw [responseInsn, if_pos hvalid]
  simp only [rasUsed, queryIsReturn, queryIsUnconditional, queryIsConditional,
    hinsn, Bool.or_eq_true, Bool.and_eq_true] at hkind
  rw [transfers, Bool.or_eq_true, isUnconditional, Bool.or_eq_true]
  rcases hkind with (hjal | ⟨hreturn, -⟩) | ⟨-, hjump | ⟨hbranch, -⟩⟩
  · exact Or.inr (Or.inl hjal)
  · simp only [isReturn, Bool.and_eq_true] at hreturn
    exact Or.inr (Or.inr hreturn.1.1)
  · rw [isUnconditional, Bool.or_eq_true] at hjump
    exact Or.inr hjump
  · exact Or.inl hbranch

end BranchPredictionUnit

namespace FrontEnd

open BranchPredictionUnit (Keys)

/-- A packet holds an instruction of the memory, and only a branch or a jump is
predicted taken. -/
structure Fetched (mem : BitVec 14 → Word) (p : FetchPacket) : Prop where
  word : p.insn = InsnMem.wordAt mem p.pc
  nonzero : p.insn ≠ 0
  taken : p.predictedTaken = true →
    BranchPredictionUnit.transfers p.insn = true

variable {mem : BitVec 14 → Word} {f : FrontEnd} {i : Inputs}

/-- What enters the queue in a cycle without a redirect. -/
def taken (f : FrontEnd) (i : Inputs) : List FetchPacket :=
  [f.fetchPacket i 0, f.fetchPacket i 1].take
    (f.fetchQueue.enqueueCount (f.fetchPacket i) i.issue)

section Packets

variable (husable :
  f.ifStage.responseUsable (jump i) (f.predictionValid i) = true)

include husable

theorem fetchPacket_target (lane : Lane) :
    (f.fetchPacket i lane).predictedTarget = (f.prediction i).target lane := by
  change (if f.ifStage.responseUsable (jump i) (f.predictionValid i) then
    _ else _) = _
  rw [if_pos husable]

/-- Slot 1 is predicted on its own behind a slot 0 that is not taken. -/
theorem fetchPacket_taken1 (hfirst : f.predictTaken0 i = false) :
    (f.fetchPacket i 1).predictedTaken = (f.prediction i).taken 1 := by
  change (f.ifStage.responseUsable (jump i) (f.predictionValid i) &&
    (f.prediction i).taken 1 && (false || !f.predictTaken0 i)) = _
  rw [husable, hfirst, Bool.true_and]
  exact Bool.and_true _

theorem fetchPacket_taken {lane : Lane}
    (h : (f.fetchPacket i lane).predictedTaken = true) :
    (f.prediction i).taken lane = true := by
  change (f.ifStage.responseUsable (jump i) (f.predictionValid i) &&
    (f.prediction i).taken lane && _) = true at h
  rw [husable, Bool.true_and, Bool.and_eq_true] at h
  exact h.1

end Packets

theorem Aligned.fetched {held : Lane → Keys} (h : Aligned mem f held)
    (hconsumed : f.fetchResponseConsumed i = true) {lane : Lane}
    (hlane : lane = 0 ∨ f.predictTaken0 i = false)
    (hword : InsnMem.wordAt mem (f.bpu.responsePc lane) ≠ 0) :
    Fetched mem (f.fetchPacket i lane) := by
  obtain ⟨_, _, husable⟩ := consumed_facts hconsumed
  have hcache := fetchPacket_insn husable hlane
  have hinsn := hcache.trans (h.requestInsn_eq hconsumed lane)
  refine ⟨?_, ?_, ?_⟩
  · rw [hinsn, fetchPacket_pc husable]
  · rw [hinsn]
    exact hword
  · intro htaken
    rw [hcache]
    exact BranchPredictionUnit.predictTaken_transfers
      (fetchPacket_taken husable htaken)

/-- The queue takes nothing without a consumed response. -/
theorem taken_of_not_consumed (h : f.fetchResponseConsumed i = false) :
    f.taken i = [] := by
  rw [taken, FetchQueue.enqueueCount, fetchInsn_eq]
  change List.take (if f.fetchQueueReady i then _ else 0) _ = _
  cases hready : f.fetchQueueReady i with
  | false => rfl
  | true =>
      rw [if_pos rfl, incomingCount_of_unusable]
      · rfl
      · change (f.ifStage.responseUsable (jump i) (f.predictionValid i) &&
          f.fetchQueueReady i) = false at h
        rwa [hready, Bool.and_true] at h

/-- Of a consumed response the queue takes the lanes in front of the first one
that is empty. -/
theorem taken_of_consumed (h : f.fetchResponseConsumed i = true) :
    f.taken i =
      if (f.fetchPacket i 0).insn ≠ 0 then
        if (f.fetchPacket i 1).insn ≠ 0 then
          [f.fetchPacket i 0, f.fetchPacket i 1]
        else [f.fetchPacket i 0]
      else [] := by
  have hready : f.fetchQueueReady i = true := by
    change (_ && f.fetchQueueReady i) = true at h
    rw [Bool.and_eq_true] at h
    exact h.2
  rw [taken, FetchQueue.enqueueCount]
  change List.take (if f.fetchQueueReady i then _ else 0) _ = _
  rw [hready, if_pos rfl, FetchQueue.incomingCount]
  split
  · split <;> rfl
  · rfl

/-- A taken slot 0 hides slot 1. -/
theorem fetchPacket_hidden (h : f.predictTaken0 i = true) :
    (f.fetchPacket i 1).insn = 0 := by
  change (if f.ifStage.responseUsable (jump i) (f.predictionValid i) &&
    !f.predictTaken0 i then _ else _) = _
  rw [h, Bool.not_true, Bool.and_false]
  rfl

/-- Where the fetch stage goes on without a redirect. -/
theorem step_pc (hjump : (jump i).enable = false) :
    (f.step i).ifStage.pc =
      if f.fetchResponseConsumed i then
        if f.predictTaken0 i then (f.prediction i).target 0
        else if (f.prediction i).taken 1 then (f.prediction i).target 1
        else f.bpu.responsePc 0 + (4 + 4)
      else f.ifStage.pc := by
  change (if (jump i).enable then _ else _) = _
  rw [hjump, if_neg Bool.false_ne_true]
  rfl

/-- What waits in the queue follows the path from `start` on, and so does the
fetch stage behind it. -/
structure Feeds (mem : BitVec 14 → Word) (f : FrontEnd) (start : Word) :
    Prop where
  aligned : ∃ held, Aligned mem f held
  queue : f.fetchQueue.Wf
  fetched : ∀ p ∈ f.fetchQueue.contents, Fetched mem p
  path : Link.Follows (InsnMem.Blank mem) start
    (f.fetchQueue.contents.map FetchPacket.link)
  pc : Link.Leads (InsnMem.Blank mem)
    (Link.endOf start (f.fetchQueue.contents.map FetchPacket.link))
    f.ifStage.pc
  response : f.cache.busy = true →
    f.bpu.responsePc 0 = f.ifStage.pc ∧
      f.bpu.responsePc 1 = f.ifStage.pc + 4

variable {start : Word}

theorem Feeds.boot (b : Boot) : Feeds b.mem (boot b) resetVector where
  aligned := ⟨_, (Served.boot b).aligned⟩
  queue := FetchQueue.Wf.empty _
  fetched := fun _ h => absurd h List.not_mem_nil
  path := trivial
  pc := Link.Leads.refl _ _
  response := fun h => absurd h Bool.false_ne_true

/-- The packets that enter the queue go on from the fetch pc, and lead to the
next one. -/
theorem Feeds.taken_path (h : Feeds mem f start)
    (hjump : (jump i).enable = false) :
    (∀ p ∈ f.taken i, Fetched mem p) ∧
      Link.Follows (InsnMem.Blank mem) f.ifStage.pc
        ((f.taken i).map FetchPacket.link) ∧
      Link.Leads (InsnMem.Blank mem)
        (Link.endOf f.ifStage.pc ((f.taken i).map FetchPacket.link))
        (f.step i).ifStage.pc := by
  obtain ⟨held, haligned⟩ := h.aligned
  rw [step_pc hjump]
  cases hconsumed : f.fetchResponseConsumed i with
  | false =>
      rw [taken_of_not_consumed hconsumed]
      exact ⟨fun _ hp => absurd hp List.not_mem_nil, trivial,
        Link.Leads.refl _ _⟩
  | true =>
      obtain ⟨_, hresponse, husable⟩ := consumed_facts hconsumed
      obtain ⟨hpc0, hpc1⟩ := h.response (busy_of_responseValid hresponse)
      have hinsn {lane : Lane} (hlane : lane = 0 ∨ f.predictTaken0 i = false) :
          (f.fetchPacket i lane).insn =
            InsnMem.wordAt mem (f.bpu.responsePc lane) :=
        (fetchPacket_insn husable hlane).trans
          (haligned.requestInsn_eq hconsumed lane)
      have hfetched {lane : Lane}
          (hlane : lane = 0 ∨ f.predictTaken0 i = false)
          (hword : (f.fetchPacket i lane).insn ≠ 0) :
          Fetched mem (f.fetchPacket i lane) := by
        apply haligned.fetched hconsumed hlane
        rw [← hinsn hlane]
        exact hword
      rw [taken_of_consumed hconsumed, if_pos rfl]
      by_cases hword0 : (f.fetchPacket i 0).insn = 0
      · -- A blank slot 0 drops the response.
        rw [if_neg (not_not.mpr hword0)]
        refine ⟨fun _ hp => absurd hp List.not_mem_nil, trivial, Or.inr ?_⟩
        change InsnMem.wordAt mem f.ifStage.pc = 0
        rw [← hpc0, ← hinsn (Or.inl rfl), hword0]
      rw [if_pos hword0]
      have hplace : Link.Leads (InsnMem.Blank mem) f.ifStage.pc
          (f.fetchPacket i 0).link.place :=
        Or.inl ((fetchPacket_pc husable 0).trans hpc0)
      have hsingle : ∀ p ∈ [f.fetchPacket i 0], Fetched mem p := by
        intro p hp
        rw [List.mem_singleton] at hp
        subst hp
        exact hfetched (Or.inl rfl) hword0
      cases htaken : f.predictTaken0 i with
      | true =>
          rw [if_neg (not_not.mpr (fetchPacket_hidden htaken)), if_pos rfl]
          refine ⟨hsingle, ⟨hplace, trivial⟩, Or.inl ?_⟩
          change _ = predictedNext (f.fetchPacket i 0)
          rw [predictedNext, fetchPacket_taken0 husable, htaken, if_pos rfl,
            fetchPacket_target husable]
      | false =>
          have hlead : (f.fetchPacket i 0).link.next = f.ifStage.pc + 4 := by
            change predictedNext (f.fetchPacket i 0) = _
            rw [predictedNext, fetchPacket_taken0 husable, htaken,
              if_neg Bool.false_ne_true, fetchPacket_pc husable, hpc0]
          rw [if_neg Bool.false_ne_true]
          by_cases hword1 : (f.fetchPacket i 1).insn = 0
          · rw [if_neg (not_not.mpr hword1)]
            refine ⟨hsingle, ⟨hplace, trivial⟩, Or.inr ?_⟩
            change InsnMem.wordAt mem (f.fetchPacket i 0).link.next = 0
            rw [hlead, ← hpc1, ← hinsn (Or.inr htaken), hword1]
          · rw [if_pos hword1]
            refine ⟨?_, ⟨hplace, Or.inl ?_, trivial⟩, Or.inl ?_⟩
            · intro p hp
              rw [List.mem_cons, List.mem_singleton] at hp
              rcases hp with rfl | rfl
              · exact hfetched (Or.inl rfl) hword0
              · exact hfetched (Or.inr htaken) hword1
            · rw [hlead]
              exact (fetchPacket_pc husable 1).trans hpc1
            · change _ = predictedNext (f.fetchPacket i 1)
              rw [predictedNext, fetchPacket_taken1 husable htaken,
                fetchPacket_target husable, fetchPacket_pc husable, hpc1, hpc0,
                BitVec.add_assoc]

theorem Feeds.step_response (h : Feeds mem f start) :
    (f.step i).bpu.responsePc 0 = (f.step i).ifStage.pc ∧
      (f.step i).bpu.responsePc 1 = (f.step i).ifStage.pc + 4 := by
  obtain ⟨held, haligned⟩ := h.aligned
  have hstep := (haligned.step_context (i := i)).2
  rw [hstep, hstep]
  cases hfire : f.queryValid i with
  | true => exact ⟨rfl, rfl⟩
  | false =>
      obtain ⟨hjump, hconsumed, hbusy⟩ := haligned.quiet_of_noQuery hfire
      rw [step_pc hjump, hconsumed]
      exact h.response hbusy

/-- What the backend takes is the oldest part of the queue. -/
theorem Feeds.issued_eq (h : Feeds mem f start) (hissues : Issues f i) :
    f.issued i =
      f.fetchQueue.contents.take (f.fetchQueue.dequeueCount i.issue) :=
  FrontEnd.issued_eq hissues fun p hp => (h.fetched p hp).nonzero

/-- What the backend takes goes on from `start`. -/
theorem Feeds.issued_path (h : Feeds mem f start) (hissues : Issues f i) :
    Link.Follows (InsnMem.Blank mem) start
        ((f.issued i).map FetchPacket.link) ∧
      ∀ p ∈ f.issued i, Fetched mem p := by
  rw [h.issued_eq hissues]
  constructor
  · have hpath := h.path
    rw [← List.take_append_drop (f.fetchQueue.dequeueCount i.issue)
      f.fetchQueue.contents, List.map_append, Link.follows_append] at hpath
    exact hpath.1
  · intro p hp
    exact h.fetched p (List.mem_of_mem_take hp)

/-- Where the backend is led to by a cycle. -/
def leadsTo (f : FrontEnd) (i : Inputs) (start : Word) : Word :=
  if (jump i).enable then (jump i).address
  else Link.endOf start ((f.issued i).map FetchPacket.link)

theorem Feeds.step (h : Feeds mem f start) (hissues : Issues f i) :
    Feeds mem (f.step i) (f.leadsTo i start) := by
  obtain ⟨held, haligned⟩ := h.aligned
  rw [leadsTo]
  cases hjump : (jump i).enable with
  | true =>
      have hqueue : (f.step i).fetchQueue =
          { entries := f.fetchQueue.entries } := by
        change FetchQueue.step _ _ _ (jump i).enable = _
        rw [hjump]
        rfl
      have hpc : (f.step i).ifStage.pc = (jump i).address := by
        change (if (jump i).enable then _ else _) = _
        rw [if_pos hjump]
      rw [if_pos rfl]
      refine ⟨⟨_, haligned.step i⟩, ?_, ?_, ?_, ?_, fun _ => h.step_response⟩
      · rw [hqueue]
        exact FetchQueue.Wf.empty _
      · rw [hqueue]
        exact fun _ hp => absurd hp List.not_mem_nil
      · rw [hqueue]
        trivial
      · rw [hqueue]
        exact Or.inl hpc
  | false =>
      have hcontents : (f.step i).fetchQueue.contents =
          f.fetchQueue.contents.drop (f.fetchQueue.dequeueCount i.issue) ++
            f.taken i := by
        rw [taken, ← h.queue.step_contents]
        change (FetchQueue.step _ _ _ (jump i).enable).contents = _
        rw [hjump]
      -- The path through the queue is cut behind what the backend takes.
      have hall : f.fetchQueue.contents = f.issued i ++
          f.fetchQueue.contents.drop (f.fetchQueue.dequeueCount i.issue) := by
        rw [h.issued_eq hissues, List.take_append_drop]
      have hpath := h.path
      have hend := h.pc
      rw [hall, List.map_append, Link.follows_append] at hpath
      rw [hall, List.map_append, Link.endOf_append] at hend
      obtain ⟨hfetched, hfollows, hleads⟩ := h.taken_path hjump
      obtain ⟨hnew, hpc⟩ := hfollows.of_leads hend hleads
      rw [if_neg Bool.false_ne_true]
      refine ⟨⟨_, haligned.step i⟩, ?_, ?_, ?_, ?_, fun _ => h.step_response⟩
      · change (FetchQueue.step _ _ _ (jump i).enable).Wf
        rw [hjump]
        exact h.queue.step
      · rw [hcontents]
        intro p hp
        rcases List.mem_append.mp hp with hold | hlast
        · exact h.fetched p (List.mem_of_mem_drop hold)
        · exact hfetched p hlast
      · rw [hcontents, List.map_append, Link.follows_append]
        exact ⟨hpath.2, hnew⟩
      · rw [hcontents, List.map_append, Link.endOf_append]
        exact hpc

section Runs

variable {b : Boot} {s : Segment}

/-- In every run the backend is fed from behind what it has taken since the
last redirect, and that is a path itself. -/
theorem Run.feeds (h : Run b Issues f s) :
    Link.Follows (InsnMem.Blank b.mem) s.start
        (s.handed.map FetchPacket.link) ∧
      (∀ p ∈ s.handed, Fetched b.mem p) ∧
      Feeds b.mem f (Link.endOf s.start (s.handed.map FetchPacket.link)) := by
  induction h with
  | boot => exact ⟨trivial, fun _ hp => absurd hp List.not_mem_nil,
      Feeds.boot b⟩
  | @step f s _ i hissues ih =>
      obtain ⟨hpath, hfetched, hfeeds⟩ := ih
      have hstep := hfeeds.step hissues
      rw [leadsTo] at hstep
      rw [Segment.step]
      split
      · next hjump =>
        rw [if_pos hjump] at hstep
        exact ⟨trivial, fun _ hp => absurd hp List.not_mem_nil, hstep⟩
      · next hjump =>
        rw [if_neg hjump] at hstep
        obtain ⟨hnew, hfresh⟩ := hfeeds.issued_path hissues
        rw [List.map_append, Link.follows_append, Link.endOf_append]
        refine ⟨⟨hpath, hnew⟩, ?_, hstep⟩
        intro p hp
        rcases List.mem_append.mp hp with hold | hlast
        · exact hfetched p hold
        · exact hfresh p hlast

/-- What the backend is handed in any run.  From each redirect on the packets
follow their predictions, except behind a zero word, which is skipped; each
holds the instruction at its address, and only branches and jumps are predicted
taken. -/
theorem handed_on_path (h : Run b Issues f s) (hissues : Issues f i) :
    Link.Follows (InsnMem.Blank b.mem) s.start
        ((s.handed ++ f.issued i).map FetchPacket.link) ∧
      ∀ p ∈ s.handed ++ f.issued i, Fetched b.mem p := by
  obtain ⟨hpath, hfetched, hfeeds⟩ := h.feeds
  obtain ⟨hnew, hfresh⟩ := hfeeds.issued_path hissues
  rw [List.map_append, Link.follows_append]
  refine ⟨⟨hpath, hnew⟩, ?_⟩
  intro p hp
  rcases List.mem_append.mp hp with hold | hlast
  · exact hfetched p hold
  · exact hfresh p hlast

/-- With a zero word at address 4, the instructions at 0 and 8 are handed over
one behind the other. -/
theorem handed_on_path_blank :
    ((fill (coldBoot fun a => if a = 1 then 0 else 0x13) 10).issued
        (quietCycle true)).map FetchPacket.pc = [0, 8] ∧
      Link.Follows (InsnMem.Blank fun a => if a = 1 then 0 else 0x13) 0
        (((fill (coldBoot fun a => if a = 1 then 0 else 0x13) 10).issued
          (quietCycle true)).map FetchPacket.link) := by
  have hissues : Issues
      (fill (coldBoot fun a => if a = 1 then 0 else 0x13) 10)
      (quietCycle true) := by
    refine ⟨?_, fun _ _ => rfl⟩
    decide +kernel
  have hpath := (handed_on_path (run_fill issues_none 10) hissues).1
  rw [List.nil_append] at hpath
  exact ⟨by decide +kernel, hpath⟩

end Runs

end FrontEnd

end OoOCore
