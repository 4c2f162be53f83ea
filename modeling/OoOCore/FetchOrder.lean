/-
The order of the instructions handed to the backend.  Between two redirects the
fetch queue hands out the predicted path, as long as no word of it is zero: a
zero word is taken for an empty slot and is skipped.
-/
import OoOCore.Dispatch
import OoOCore.FetchIntegrity

namespace OoOCore

namespace FetchQueue

/-- The packets in the queue, oldest first. -/
def contents (q : FetchQueue) : List FetchPacket :=
  (Ring.slots q.headPtr q.entryCount).map q.entries

structure Wf (q : FetchQueue) : Prop where
  tail : q.tailPtr = addPtr q.headPtr q.entryCount
  bounded : q.entryCount ≤ depth

variable {q : FetchQueue} {fetch : Lane → FetchPacket} {issue : Lane → Bool}

theorem Wf.empty (entries : Fin 8 → FetchPacket) :
    Wf { entries := entries } where
  tail := rfl
  bounded := Nat.zero_le _

theorem dequeueCount_le (q : FetchQueue) (issue : Lane → Bool) :
    q.dequeueCount issue ≤ q.entryCount := Nat.min_le_right _ _

theorem incomingCount_le (insn : Lane → Word) : incomingCount insn ≤ 2 := by
  unfold incomingCount
  split
  · split <;> omega
  · omega

/-- The queue takes no more than it has room for. -/
theorem enqueueCount_le (q : FetchQueue) (fetch : Lane → FetchPacket)
    (issue : Lane → Bool) : q.enqueueCount fetch issue ≤ 2 ∧
      q.enqueueCount fetch issue ≤
        depth - q.entryCount + q.dequeueCount issue := by
  unfold enqueueCount
  split
  case isTrue hready =>
      exact ⟨incomingCount_le _, of_decide_eq_true hready⟩
  case isFalse => exact ⟨Nat.zero_le _, Nat.zero_le _⟩

theorem Wf.step (h : q.Wf) : (q.step fetch issue false).Wf := by
  have hdequeue := q.dequeueCount_le issue
  have henqueue := (q.enqueueCount_le fetch issue).2
  have hbounded := h.bounded
  constructor
  · change Ring.slot q.tailPtr (q.enqueueCount fetch issue) =
      Ring.slot (Ring.slot q.headPtr (q.dequeueCount issue))
        (q.entryCount - q.dequeueCount issue + q.enqueueCount fetch issue)
    rw [h.tail, Ring.slot_slot, Ring.slot_slot]
    congr 1
    omega
  · change q.entryCount - q.dequeueCount issue + q.enqueueCount fetch issue ≤
      depth
    omega

/-- The entries after the edge, seen from the new head: the kept packets, then
the incoming ones. -/
theorem nextEntries_slot {base : Fin 8} {kept : Nat}
    (htail : q.tailPtr = Ring.slot base kept)
    (hroom : kept + q.enqueueCount fetch issue ≤ 8) :
    (∀ k < kept, q.nextEntries fetch issue (Ring.slot base k) =
        q.entries (Ring.slot base k)) ∧
      (0 < q.enqueueCount fetch issue →
        q.nextEntries fetch issue (Ring.slot base kept) = fetch 0) ∧
      (q.enqueueCount fetch issue = 2 →
        q.nextEntries fetch issue (Ring.slot base (kept + 1)) = fetch 1) := by
  have hnext : addPtr q.tailPtr 1 = Ring.slot base (kept + 1) := by
    rw [htail]
    exact Ring.slot_slot base kept 1
  have hne {a b : Nat} (ha : a < 8) (hb : b < 8) (hab : a ≠ b) :
      Ring.slot base a ≠ Ring.slot base b := by
    intro heq
    exact hab (Ring.slot_injective base ha hb heq)
  unfold nextEntries
  rw [hnext, htail]
  refine ⟨?_, ?_, ?_⟩
  · intro k hk
    by_cases htwo : q.enqueueCount fetch issue = 2
    · rw [if_pos htwo, if_pos (by omega),
        Function.update_of_ne (hne (by omega) (by omega) (by omega)),
        Function.update_of_ne (hne (by omega) (by omega) (by omega))]
    · rw [if_neg htwo]
      by_cases hone : 0 < q.enqueueCount fetch issue
      · rw [if_pos hone,
          Function.update_of_ne (hne (by omega) (by omega) (by omega))]
      · rw [if_neg hone]
  · intro hone
    rw [if_pos hone]
    by_cases htwo : q.enqueueCount fetch issue = 2
    · rw [if_pos htwo,
        Function.update_of_ne (hne (by omega) (by omega) (by omega)),
        Function.update_self]
    · rw [if_neg htwo, Function.update_self]
  · intro htwo
    rw [if_pos htwo, Function.update_self]

/-- An edge drops what is dequeued and appends what comes in. -/
theorem Wf.step_contents (h : q.Wf) :
    (q.step fetch issue false).contents =
      q.contents.drop (q.dequeueCount issue) ++
        [fetch 0, fetch 1].take (q.enqueueCount fetch issue) := by
  have hdequeue := q.dequeueCount_le issue
  obtain ⟨htwo, hroom⟩ := q.enqueueCount_le fetch issue
  have hbounded := h.bounded
  simp only [depth] at hroom hbounded
  obtain ⟨kept, hkept⟩ : ∃ kept, kept = q.entryCount - q.dequeueCount issue :=
    ⟨_, rfl⟩
  obtain ⟨base, hbase⟩ : ∃ base, base =
      Ring.slot q.headPtr (q.dequeueCount issue) := ⟨_, rfl⟩
  have htail : q.tailPtr = Ring.slot base kept := by
    rw [h.tail, hbase, Ring.slot_slot]
    congr 1
    omega
  have hkeptRoom : kept + q.enqueueCount fetch issue ≤ 8 := by omega
  obtain ⟨hold, hfirst, hsecond⟩ := nextEntries_slot htail hkeptRoom
  have hstep : (q.step fetch issue false).contents =
      (Ring.slots base (kept + q.enqueueCount fetch issue)).map
        (q.nextEntries fetch issue) := by
    rw [hbase, hkept]
    rfl
  rw [hstep, Ring.slots_add, List.map_append, contents, ← List.map_drop,
    Ring.slots_drop _ hdequeue, ← hbase, ← hkept]
  congr 1
  · apply List.map_congr_left
    intro slot hslot
    obtain ⟨k, hk, rfl⟩ := List.mem_map.mp hslot
    exact hold k (List.mem_range.mp hk)
  · match hcount : q.enqueueCount fetch issue with
    | 0 => rfl
    | 1 =>
        rw [Ring.slots_cons, Ring.slots_zero, List.map_singleton,
          hfirst (by omega)]
        rfl
    | 2 =>
        rw [Ring.slots_cons, Ring.slots_cons, Ring.slots_zero, List.map_cons,
          List.map_singleton, hfirst (by omega), Ring.slot_slot, hsecond hcount]
        rfl
    | n + 3 => omega

/-- The packet a lane offers is the one at its place. -/
theorem packet_eq (q : FetchQueue) (lane : Lane) :
    q.packet lane = (q.contents[lane.val]?).getD {} := by
  unfold packet contents
  by_cases hlane : lane.val < q.entryCount
  · rw [if_pos hlane, List.getElem?_map, Ring.slots_getElem? _ hlane]
    rfl
  · rw [if_neg hlane, List.getElem?_eq_none (by simpa using hlane)]
    rfl

/-- If only instructions are taken, and in order, they are the oldest. -/
theorem taken_eq (hvalid : ∀ lane, issue lane = true → (q.packet lane).insn ≠ 0)
    (horder : issue 1 = true → (q.packet 0).insn ≠ 0 → issue 0 = true)
    (hsound : ∀ p ∈ q.contents, p.insn ≠ 0) :
    ([0, 1].filter issue).map q.packet =
      q.contents.take (q.dequeueCount issue) := by
  have hlength : q.contents.length = q.entryCount := by
    simp [contents]
  -- A packet is an instruction exactly when there is one at its place.
  have hplace (lane : Lane) : (q.packet lane).insn ≠ 0 ↔
      lane.val < q.contents.length := by
    rw [packet_eq]
    constructor
    · intro hne
      by_contra hout
      rw [List.getElem?_eq_none (Nat.le_of_not_lt hout)] at hne
      exact hne rfl
    · intro hin
      rw [List.getElem?_eq_getElem hin]
      exact hsound _ (List.getElem_mem hin)
  unfold dequeueCount
  rw [← hlength]
  cases hzero : issue 0 with
  | false =>
      cases hone : issue 1 with
      | false => simp [hzero, hone]
      | true =>
          have hin := (hplace 1).mp (hvalid 1 hone)
          have hfirst := horder hone ((hplace 0).mpr (Nat.lt_of_succ_lt hin))
          exact absurd (hzero.symm.trans hfirst) Bool.false_ne_true
  | true =>
      have hin := (hplace 0).mp (hvalid 0 hzero)
      cases hone : issue 1 with
      | false =>
          cases hcontents : q.contents with
          | nil =>
              rw [hcontents] at hin
              exact absurd hin (Nat.lt_irrefl 0)
          | cons p rest => simp [hzero, hone, packet_eq, hcontents]
      | true =>
          have hin1 := (hplace 1).mp (hvalid 1 hone)
          rcases hcontents : q.contents with - | ⟨p, - | ⟨p1, rest⟩⟩
          · rw [hcontents] at hin
            exact absurd hin (Nat.lt_irrefl 0)
          · rw [hcontents] at hin1
            exact absurd hin1 (Nat.lt_irrefl 1)
          · simp [hzero, hone, packet_eq, hcontents]

end FetchQueue

namespace FrontEnd

open BranchPredictionUnit (Keys)

section Path

/-- Where the instruction after a packet is predicted to be. -/
def predictedNext (p : FetchPacket) : Word :=
  if p.predictedTaken then p.predictedTarget else p.pc + 4

/-- Where a path from `start` leads. -/
def endOfPath (start : Word) : List FetchPacket → Word
  | [] => start
  | p :: rest => endOfPath (predictedNext p) rest

/-- The packets follow their predictions from `start` on. -/
def PathFrom (start : Word) : List FetchPacket → Prop
  | [] => True
  | p :: rest => p.pc = start ∧ PathFrom (predictedNext p) rest

variable {start : Word}

theorem endOfPath_append (start : Word) (a b : List FetchPacket) :
    endOfPath start (a ++ b) = endOfPath (endOfPath start a) b := by
  induction a generalizing start with
  | nil => rfl
  | cons p rest ih => exact ih (predictedNext p)

theorem pathFrom_append (start : Word) (a b : List FetchPacket) :
    PathFrom start (a ++ b) ↔
      PathFrom start a ∧ PathFrom (endOfPath start a) b := by
  induction a generalizing start with
  | nil => simp [PathFrom, endOfPath]
  | cons p rest ih =>
      simp only [List.cons_append, PathFrom, endOfPath, ih, and_assoc]

end Path

/-- What the backend takes in a cycle. -/
def issued (f : FrontEnd) (i : Inputs) : List FetchPacket :=
  (if i.issue 0 then [f.decodePacket 0] else []) ++
    if i.issue 1 then [f.decodePacket 1] else []

/-- The backend takes instructions only, and in order. -/
structure Issues (f : FrontEnd) (i : Inputs) : Prop where
  valid : ∀ lane, i.issue lane = true →
    (idStage (f.decodePacket lane)).valid = true
  order : i.issue 1 = true → (idStage (f.decodePacket 0)).valid = true →
    i.issue 0 = true

/-- That is how the backend dispatches. -/
theorem Issues.of_dispatch {f : FrontEnd} {i : Inputs} {s : Backend}
    {x : OoOCore.Inputs} (hpacket : x.packet = f.decodePacket)
    (hissue : i.issue = s.dispatchAccept x) : Issues f i where
  valid := by
    intro lane h
    rw [hissue] at h
    have hvalid := s.dispatchAccept_valid x h
    change (idStage (x.packet lane)).valid = true at hvalid
    rwa [hpacket] at hvalid
  order := by
    intro h hvalid
    rw [hissue] at h ⊢
    apply s.dispatchAccept_order x h
    change (idStage (x.packet 0)).valid = true
    rw [hpacket]
    exact hvalid

/-- Every delivered lane of a consumed response holds a word other than
zero. -/
def Whole (mem : BitVec 14 → Word) (f : FrontEnd) (i : Inputs) : Prop :=
  f.fetchResponseConsumed i = true →
    ∀ lane, lane = 0 ∨ f.predictTaken0 i = false →
      InsnMem.wordAt mem (f.bpu.responsePc lane) ≠ 0

/-- What was handed to the backend since the last redirect. -/
structure Segment where
  start : Word := resetVector
  handed : List FetchPacket := []

def Segment.step (s : Segment) (f : FrontEnd) (i : Inputs) : Segment :=
  if (jump i).enable then { start := (jump i).address }
  else { s with handed := s.handed ++ f.issued i }

/-- The runs whose cycles all meet a condition. -/
inductive Run (b : Boot) (cond : FrontEnd → Inputs → Prop) :
    FrontEnd → Segment → Prop
  | boot : Run b cond (boot b) {}
  | step {f : FrontEnd} {s : Segment} (h : Run b cond f s) (i : Inputs)
      (hcond : cond f i) : Run b cond (f.step i) (s.step f i)

/-- A packet holds the word of the instruction memory at its address, and the
word is not zero. -/
def Sound (mem : BitVec 14 → Word) (p : FetchPacket) : Prop :=
  p.insn = InsnMem.wordAt mem p.pc ∧ p.insn ≠ 0

/-- What was handed out, what waits in the queue and what is being fetched lie
on one path. -/
structure InOrder (mem : BitVec 14 → Word) (f : FrontEnd) (s : Segment) :
    Prop where
  aligned : ∃ held, Aligned mem f held
  queue : f.fetchQueue.Wf
  sound : ∀ p ∈ s.handed ++ f.fetchQueue.contents, Sound mem p
  path : PathFrom s.start (s.handed ++ f.fetchQueue.contents)
  pc : f.ifStage.pc = endOfPath s.start (s.handed ++ f.fetchQueue.contents)
  response : f.cache.busy = true →
    f.bpu.responsePc 0 = f.ifStage.pc ∧
      f.bpu.responsePc 1 = f.ifStage.pc + 4

variable {mem : BitVec 14 → Word} {f : FrontEnd} {i : Inputs} {s : Segment}
  {b : Boot}

theorem InOrder.boot (b : Boot) : InOrder b.mem (boot b) {} where
  aligned := ⟨_, (Served.boot b).aligned⟩
  queue := FetchQueue.Wf.empty _
  sound := fun _ h => absurd h List.not_mem_nil
  path := trivial
  pc := rfl
  response := fun h => absurd h Bool.false_ne_true

/-- The backend takes the oldest packets. -/
theorem issued_eq (hissues : Issues f i)
    (hsound : ∀ p ∈ f.fetchQueue.contents, p.insn ≠ 0) :
    f.issued i = f.fetchQueue.contents.take (f.fetchQueue.dequeueCount i.issue) := by
  have hvalid (lane : Lane) : (idStage (f.decodePacket lane)).valid = true ↔
      (f.fetchQueue.packet lane).insn ≠ 0 := decide_eq_true_iff
  have htaken := FetchQueue.taken_eq
    (fun lane h => (hvalid lane).mp (hissues.valid lane h))
    (fun h hne => hissues.order h ((hvalid 0).mpr hne)) hsound
  rw [← htaken, issued]
  cases h0 : i.issue 0 <;> cases h1 : i.issue 1 <;> simp [h0, h1, decodePacket]

/-- The packets that enter the queue in a cycle without a redirect. -/
def entering (f : FrontEnd) (i : Inputs) : List FetchPacket :=
  if f.fetchResponseConsumed i then
    if f.predictTaken0 i then [f.fetchPacket i 0]
    else [f.fetchPacket i 0, f.fetchPacket i 1]
  else []

theorem fetchInsn_eq (f : FrontEnd) (i : Inputs) :
    (fun lane => (f.fetchPacket i lane).insn) = f.ifStage.fetchInsn (jump i)
      (f.predictionValid i) (f.predictTaken0 i) := rfl

/-- A packet that is not usable is empty. -/
theorem incomingCount_of_unusable
    (h : f.ifStage.responseUsable (jump i) (f.predictionValid i) = false) :
    FetchQueue.incomingCount (f.ifStage.fetchInsn (jump i)
      (f.predictionValid i) (f.predictTaken0 i)) = 0 := by
  have hzero : f.ifStage.fetchInsn (jump i) (f.predictionValid i)
      (f.predictTaken0 i) 0 = 0 := by
    change (if f.ifStage.responseUsable (jump i) (f.predictionValid i) then _
      else _) = _
    rw [h]
    rfl
  rw [FetchQueue.incomingCount, if_neg (by rw [hzero]; simp)]

/-- Without zero words, the queue takes the delivered lanes of a consumed
response, and nothing else. -/
theorem Aligned.taken_packets {held : Lane → Keys} (h : Aligned mem f held)
    (hwhole : Whole mem f i) :
    [f.fetchPacket i 0, f.fetchPacket i 1].take
        (f.fetchQueue.enqueueCount (f.fetchPacket i) i.issue) =
      f.entering i := by
  unfold entering FetchQueue.enqueueCount
  rw [fetchInsn_eq]
  cases hconsumed : f.fetchResponseConsumed i with
  | false =>
      have hnone : (if f.fetchQueueReady i then FetchQueue.incomingCount
          (f.ifStage.fetchInsn (jump i) (f.predictionValid i)
            (f.predictTaken0 i)) else 0) = 0 := by
        cases hready : f.fetchQueueReady i with
        | false => rfl
        | true =>
            rw [if_pos rfl]
            apply incomingCount_of_unusable
            change (f.ifStage.responseUsable (jump i) (f.predictionValid i) &&
              f.fetchQueueReady i) = false at hconsumed
            rwa [hready, Bool.and_true] at hconsumed
      change List.take (if f.fetchQueueReady i then _ else 0) _ = _
      rw [hnone]
      rfl
  | true =>
      obtain ⟨_, _, husable⟩ := consumed_facts hconsumed
      have hready : f.fetchQueueReady i = true := by
        change (_ && f.fetchQueueReady i) = true at hconsumed
        rw [Bool.and_eq_true] at hconsumed
        exact hconsumed.2
      have hword (lane : Lane) (hlane : lane = 0 ∨ f.predictTaken0 i = false) :
          f.ifStage.fetchInsn (jump i) (f.predictionValid i)
            (f.predictTaken0 i) lane ≠ 0 := by
        have hinsn := fetchPacket_insn husable hlane
        rw [h.requestInsn_eq hconsumed lane] at hinsn
        change (f.fetchPacket i lane).insn ≠ 0
        rw [hinsn]
        exact hwhole hconsumed lane hlane
      change List.take (if f.fetchQueueReady i then _ else 0) _ = _
      rw [hready, if_pos rfl, if_pos rfl, FetchQueue.incomingCount,
        if_pos (hword 0 (Or.inl rfl))]
      cases htaken : f.predictTaken0 i with
      | true =>
          have hhidden : f.ifStage.fetchInsn (jump i) (f.predictionValid i)
              true 1 = 0 := by
            change (if f.ifStage.responseUsable (jump i) (f.predictionValid i) &&
              false then _ else _) = _
            rw [Bool.and_false]
            rfl
          rw [if_neg (by rw [hhidden]; simp)]
          rfl
      | false =>
          have hsecond := hword 1 (Or.inr htaken)
          rw [htaken] at hsecond
          rw [if_pos hsecond]
          rfl

/-- The packets that enter the queue continue the path, and the fetch stage
goes on where they lead. -/
theorem InOrder.entering_path (h : InOrder mem f s)
    (hjump : (jump i).enable = false) (hwhole : Whole mem f i) :
    (∀ p ∈ f.entering i, Sound mem p) ∧ PathFrom f.ifStage.pc (f.entering i) ∧
      (f.step i).ifStage.pc = endOfPath f.ifStage.pc (f.entering i) := by
  obtain ⟨held, haligned⟩ := h.aligned
  have hnext : (f.step i).ifStage.pc =
      if f.fetchResponseConsumed i then
        if f.predictTaken0 i then (f.prediction i).target 0
        else if (f.prediction i).taken 1 then (f.prediction i).target 1
        else f.bpu.responsePc 0 + (4 + 4)
      else f.ifStage.pc := by
    change (if (jump i).enable then _ else _) = _
    rw [hjump, if_neg Bool.false_ne_true]
    rfl
  rw [hnext]
  unfold entering
  cases hconsumed : f.fetchResponseConsumed i with
  | false => exact ⟨fun _ hp => absurd hp List.not_mem_nil, trivial, rfl⟩
  | true =>
      obtain ⟨_, hresponse, husable⟩ := consumed_facts hconsumed
      obtain ⟨hpc0, hpc1⟩ := h.response (busy_of_responseValid hresponse)
      have hsound {lane : Lane} (hlane : lane = 0 ∨ f.predictTaken0 i = false) :
          Sound mem (f.fetchPacket i lane) := by
        have hinsn := fetchPacket_insn husable hlane
        rw [haligned.requestInsn_eq hconsumed lane] at hinsn
        refine ⟨?_, ?_⟩
        · rw [hinsn, fetchPacket_pc husable]
        · rw [hinsn]
          exact hwhole hconsumed lane hlane
      have htarget (lane : Lane) : (f.fetchPacket i lane).predictedTarget =
          (f.prediction i).target lane := by
        change (if f.ifStage.responseUsable (jump i) (f.predictionValid i) then
          _ else _) = _
        rw [if_pos husable]
      rw [if_pos rfl, if_pos rfl]
      cases htaken : f.predictTaken0 i with
      | true =>
          have hlead : predictedNext (f.fetchPacket i 0) =
              (f.prediction i).target 0 := by
            rw [predictedNext, fetchPacket_taken0 husable, htaken, if_pos rfl,
              htarget]
          refine ⟨?_, ?_, ?_⟩
          · intro p hp
            rw [if_pos rfl, List.mem_singleton] at hp
            subst hp
            exact hsound (Or.inl rfl)
          · exact ⟨(fetchPacket_pc husable 0).trans hpc0, trivial⟩
          · exact hlead.symm
      | false =>
          have hlead : predictedNext (f.fetchPacket i 0) = f.ifStage.pc + 4 := by
            rw [predictedNext, fetchPacket_taken0 husable, htaken,
              if_neg Bool.false_ne_true, fetchPacket_pc husable, hpc0]
          have hlead1 : predictedNext (f.fetchPacket i 1) =
              if (f.prediction i).taken 1 then (f.prediction i).target 1
              else f.bpu.responsePc 0 + (4 + 4) := by
            have htaken1 : (f.fetchPacket i 1).predictedTaken =
                (f.prediction i).taken 1 := by
              change (f.ifStage.responseUsable (jump i) (f.predictionValid i) &&
                (f.prediction i).taken 1 && (false || !f.predictTaken0 i)) = _
              rw [husable, htaken, Bool.true_and]
              exact Bool.and_true _
            rw [predictedNext, htaken1, htarget, fetchPacket_pc husable, hpc1,
              hpc0, BitVec.add_assoc]
          refine ⟨?_, ?_, ?_⟩
          · intro p hp
            rw [if_neg Bool.false_ne_true, List.mem_cons,
              List.mem_singleton] at hp
            rcases hp with rfl | rfl
            · exact hsound (Or.inl rfl)
            · exact hsound (Or.inr htaken)
          · refine ⟨(fetchPacket_pc husable 0).trans hpc0, ?_, trivial⟩
            rw [hlead, fetchPacket_pc husable, hpc1]
          · exact hlead1.symm

/-- After every edge the response addresses are those of the fetch stage. -/
theorem InOrder.step_response (h : InOrder mem f s) :
    (f.step i).bpu.responsePc 0 = (f.step i).ifStage.pc ∧
      (f.step i).bpu.responsePc 1 = (f.step i).ifStage.pc + 4 := by
  obtain ⟨held, haligned⟩ := h.aligned
  have hstep := (haligned.step_context (i := i)).2
  rw [hstep, hstep]
  cases hfire : f.queryValid i with
  | true => exact ⟨rfl, rfl⟩
  | false =>
      obtain ⟨hjump, hconsumed, hbusy⟩ := haligned.quiet_of_noQuery hfire
      have hpc : (f.step i).ifStage.pc = f.ifStage.pc := by
        change (if (jump i).enable then _ else if f.fetchResponseConsumed i then
          _ else _) = _
        rw [hjump, hconsumed]
        rfl
      rw [hpc]
      exact h.response hbusy

theorem InOrder.step (h : InOrder mem f s) (hissues : Issues f i)
    (hwhole : Whole mem f i) : InOrder mem (f.step i) (s.step f i) := by
  obtain ⟨held, haligned⟩ := h.aligned
  cases hjump : (jump i).enable with
  | true =>
      have hsegment : s.step f i = { start := (jump i).address } := by
        rw [Segment.step, if_pos hjump]
      have hqueue : (f.step i).fetchQueue =
          { entries := f.fetchQueue.entries } := by
        change FetchQueue.step _ _ _ (jump i).enable = _
        rw [hjump]
        rfl
      have hpc : (f.step i).ifStage.pc = (jump i).address := by
        change (if (jump i).enable then _ else _) = _
        rw [if_pos hjump]
      rw [hsegment]
      constructor
      · exact ⟨_, haligned.step i⟩
      · rw [hqueue]
        exact FetchQueue.Wf.empty _
      · rw [hqueue]
        exact fun _ hp => absurd hp List.not_mem_nil
      · rw [hqueue]
        trivial
      · rw [hqueue]
        exact hpc
      · exact fun _ => h.step_response
  | false =>
      have hsegment : (s.step f i).start = s.start ∧
          (s.step f i).handed = s.handed ++ f.issued i := by
        rw [Segment.step, hjump]
        exact ⟨rfl, rfl⟩
      have hcontents : (f.step i).fetchQueue.contents =
          f.fetchQueue.contents.drop (f.fetchQueue.dequeueCount i.issue) ++
            f.entering i := by
        rw [← haligned.taken_packets hwhole, ← h.queue.step_contents]
        change (FetchQueue.step _ _ _ (jump i).enable).contents = _
        rw [hjump]
      have hissued := issued_eq hissues
        fun p hp => (h.sound p (List.mem_append_right _ hp)).2
      -- The packets move from the queue to the backend.
      have hall : (s.step f i).handed ++ (f.step i).fetchQueue.contents =
          (s.handed ++ f.fetchQueue.contents) ++ f.entering i := by
        rw [hsegment.2, hcontents, hissued, ← List.append_assoc,
          List.append_assoc s.handed, List.take_append_drop]
      obtain ⟨hsound, hpath, hpc⟩ := h.entering_path hjump hwhole
      constructor
      · exact ⟨_, haligned.step i⟩
      · change (FetchQueue.step _ _ _ (jump i).enable).Wf
        rw [hjump]
        exact h.queue.step
      · rw [hall]
        intro p hp
        rcases List.mem_append.mp hp with hold | hnew
        · exact h.sound p hold
        · exact hsound p hnew
      · rw [hall, hsegment.1, pathFrom_append, ← h.pc]
        exact ⟨h.path, hpath⟩
      · rw [hall, hsegment.1, endOfPath_append, ← h.pc]
        exact hpc
      · exact fun _ => h.step_response

theorem Run.inOrder
    (h : Run b (fun f i => Issues f i ∧ Whole b.mem f i) f s) :
    InOrder b.mem f s := by
  induction h with
  | boot => exact InOrder.boot b
  | step _ i hcond ih => exact ih.step hcond.1 hcond.2

/-- In every run in which no delivered lane holds a zero word, what the backend
has taken since the last redirect is the predicted path from its target on, and
every instruction of it is the word of the instruction memory, decoded and
valid. -/
theorem handed_in_order
    (h : Run b (fun f i => Issues f i ∧ Whole b.mem f i) f s)
    (hissues : Issues f i) :
    PathFrom s.start (s.handed ++ f.issued i) ∧
      ∀ p ∈ s.handed ++ f.issued i,
        p.insn = InsnMem.wordAt b.mem p.pc ∧ (idStage p).valid = true ∧
        (idStage p).toDecoded = decoder (InsnMem.wordAt b.mem p.pc) := by
  have horder := h.inOrder
  have hissued := issued_eq hissues
    fun p hp => (horder.sound p (List.mem_append_right _ hp)).2
  rw [hissued]
  constructor
  · have hpath := horder.path
    rw [← List.take_append_drop (f.fetchQueue.dequeueCount i.issue)
      f.fetchQueue.contents, ← List.append_assoc, pathFrom_append] at hpath
    exact hpath.1
  · intro p hp
    have hmem : p ∈ s.handed ++ f.fetchQueue.contents := by
      rcases List.mem_append.mp hp with hold | hnew
      · exact List.mem_append_left _ hold
      · exact List.mem_append_right _ (List.mem_of_mem_take hnew)
    obtain ⟨hword, hne⟩ := horder.sound p hmem
    refine ⟨hword, decide_eq_true hne, ?_⟩
    rw [← hword]
    rfl

section Cold

/-- A cold start from an image. -/
def coldBoot (mem : BitVec 14 → Word) : Boot where
  mem := mem
  tables := fun _ => TageTable.reset (fun _ _ => 0) (fun _ => 0) fun _ => 0
  tagArray := fun _ => 0
  dataArray := fun _ _ => 0
  readTag := fun _ => 0
  readLine := fun _ _ => 0
  responseWord := 0

/-- A cycle in which the backend takes both lanes or none. -/
def quietCycle (issue : Bool) : Inputs where
  trapValid := false
  trapVector := 0
  branchRedirect := 0
  resolve := ⟨false, 0, false, false, 0, false, false, false, 0⟩
  update := ⟨⟨false, false, 0, 0, false, {}⟩, 0⟩
  checkpointAlloc := fun _ => ⟨false, 0, {}, {}⟩
  issue := fun _ => issue

/-- The front end after some cycles with a backend that takes nothing. -/
def fill (b : Boot) : Nat → FrontEnd
  | 0 => boot b
  | n + 1 => (fill b n).step (quietCycle false)

theorem issues_none (f : FrontEnd) : Issues f (quietCycle false) where
  valid := fun _ h => absurd h Bool.false_ne_true
  order := fun h => absurd h Bool.false_ne_true

theorem run_fill {cond : FrontEnd → Inputs → Prop}
    (hcond : ∀ f, cond f (quietCycle false)) (n : Nat) :
    Run b cond (fill b n) {} := by
  induction n with
  | zero => exact Run.boot
  | succ n ih => exact ih.step (quietCycle false) (hcond _)

end Cold

/-- Ten cycles after reset the first two no-operations are handed over. -/
theorem handed_in_order_cold :
    PathFrom 0 ((fill (coldBoot fun _ => 0x13) 10).issued (quietCycle true)) ∧
      ((fill (coldBoot fun _ => 0x13) 10).issued (quietCycle true)).map
        FetchPacket.pc = [0, 4] := by
  have hrun : Run (coldBoot fun _ => 0x13)
      (fun f i => Issues f i ∧ Whole (fun _ => 0x13) f i)
      (fill (coldBoot fun _ => 0x13) 10) {} := by
    apply run_fill
    intro f
    exact ⟨issues_none f, fun _ _ _ => by simp [InsnMem.wordAt]⟩
  have hissues : Issues (fill (coldBoot fun _ => 0x13) 10)
      (quietCycle true) := by
    refine ⟨?_, fun _ _ => rfl⟩
    decide +kernel
  have hpath := (handed_in_order hrun hissues).1
  rw [List.nil_append] at hpath
  exact ⟨hpath, by decide +kernel⟩

/-- The word at address 4 is zero: the instruction at address 8 follows the one
at address 0. -/
theorem zero_word_skipped : ¬ ∀ (b : Boot) f s i, Run b Issues f s →
    Issues f i → PathFrom s.start (s.handed ++ f.issued i) := by
  intro h
  have hissues : Issues
      (fill (coldBoot fun a => if a = 1 then 0 else 0x13) 10)
      (quietCycle true) := by
    refine ⟨?_, fun _ _ => rfl⟩
    decide +kernel
  have hpath := h _ _ _ _ (run_fill issues_none 10) hissues
  obtain ⟨p, p1, hissued, hpc, htaken, hpc1⟩ : ∃ p p1,
      (fill (coldBoot fun a => if a = 1 then 0 else 0x13) 10).issued
        (quietCycle true) = [p, p1] ∧ p.pc = 0 ∧ p.predictedTaken = false ∧
      p1.pc = 8 :=
    ⟨_, _, rfl, by decide +kernel, by decide +kernel, by decide +kernel⟩
  rw [hissued, List.nil_append] at hpath
  have hstep := hpath.2.1
  rw [hpc1, predictedNext, htaken, hpc, if_neg Bool.false_ne_true] at hstep
  exact absurd hstep (by decide)

end FrontEnd

end OoOCore
