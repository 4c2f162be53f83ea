/-
Integrity of fetch packets.  The predictor and the instruction cache accept,
hold and drop every request together, so the word, the address and the
prediction of a packet belong to one request.
-/
import OoOCore.FrontEnd
import OoOCore.InsnLines
import OoOCore.TageKeys

namespace OoOCore

namespace FrontEnd

open InstructionCache (Lined Fed)
open BranchPredictionUnit (Keys Keyed)

section Wires

variable (f : FrontEnd) (i : Inputs)

/-- The cache of the fetch stage. -/
def cache : InstructionCache := f.ifStage.instructionCache

/-- The cache's inputs of the cycle. -/
def cacheInputs : InstructionCache.Inputs :=
  f.ifStage.cacheInputs (jump i) (f.prediction i) (f.fetchQueueReady i)
    (f.queryReady i)

theorem step_cache : (f.step i).cache = f.cache.step (f.cacheInputs i) := rfl

theorem fed : Fed f.ifStage.insnMem0 (f.cacheInputs i) where
  valid := rfl
  word := rfl
  pair := rfl

theorem predictionValid_eq : f.predictionValid i =
    (f.bpu.requestContextValid && f.cache.responseValid (jump i).enable) := rfl

theorem responseConsumed_eq : f.fetchResponseConsumed i =
    (f.cache.responseValid (jump i).enable && f.predictionValid i &&
      !(jump i).enable && f.fetchQueueReady i) := rfl

theorem queryReady_eq : f.queryReady i = (!f.bpu.requestContextValid ||
    (f.fetchResponseConsumed i && !(jump i).enable) || (jump i).enable) := rfl

/-- The cache takes the request when the fetch stage makes it. -/
theorem requestFire_eq :
    f.cache.requestFire (f.cacheInputs i) = f.queryValid i := by
  change ((_ && f.queryReady i) && _) = (_ && f.queryReady i)
  rw [Bool.and_comm, ← Bool.and_assoc]
  congr 1
  exact Bool.and_self _

/-- The fetch stage requests only what the predictor takes. -/
theorem query_ready (h : (f.query i).queryValid = true) :
    f.bpu.queryReady (f.query i) = true := by
  change (_ && f.queryReady i) = true at h
  rw [Bool.and_eq_true] at h
  exact h.2

end Wires

/-- The predictor and the cache work on one request. -/
structure Aligned (mem : BitVec 14 → Word) (f : FrontEnd)
    (held : Lane → Keys) : Prop where
  lined : Lined mem f.cache f.ifStage.insnMem0
  keyed : Keyed f.bpu held
  context : f.bpu.requestContextValid = f.cache.busy
  pc : f.cache.busy = true → ∀ lane,
    (f.cache.lookup lane).pc = f.bpu.responsePc lane

variable {mem : BitVec 14 → Word} {f : FrontEnd} {held : Lane → Keys}
  {i : Inputs}

/-- A response is offered while its request is in the cache. -/
theorem busy_of_responseValid {flush : Bool}
    (h : f.cache.responseValid flush = true) : f.cache.busy = true := by
  rw [InstructionCache.busy, InstructionCache.lookupValid_of_response h,
    Bool.true_or, Bool.true_or]

/-- A request is made on a redirect, with a consumed response, and when there
is none yet. -/
theorem Aligned.queryValid_eq (h : Aligned mem f held) : f.queryValid i =
    ((jump i).enable || f.fetchResponseConsumed i || !f.cache.busy) := by
  change (f.cache.requestReady (jump i).enable ((jump i).enable ||
    f.fetchResponseConsumed i) && f.queryReady i) = _
  rw [queryReady_eq, h.context]
  cases hjump : (jump i).enable with
  | true =>
      simp [InstructionCache.requestReady]
  | false =>
      cases hconsumed : f.fetchResponseConsumed i with
      | true =>
          rw [responseConsumed_eq, hjump] at hconsumed
          simp only [Bool.and_eq_true] at hconsumed
          have hresponse := hconsumed.1.1.1
          obtain ⟨hretry, hactive⟩ := h.lined.lookup_alone
            (InstructionCache.lookupValid_of_response hresponse)
          simp [InstructionCache.requestReady, hretry, hactive, hresponse]
      | false =>
          cases hbusy : f.cache.busy with
          | true => simp
          | false =>
              simp only [InstructionCache.busy, Bool.or_eq_false_iff] at hbusy
              simp [InstructionCache.requestReady, hbusy]

theorem Aligned.quiet_of_noQuery (h : Aligned mem f held)
    (hfire : f.queryValid i = false) :
    (jump i).enable = false ∧ f.fetchResponseConsumed i = false ∧
      f.cache.busy = true := by
  rw [h.queryValid_eq] at hfire
  simpa only [Bool.or_eq_false_iff, Bool.not_eq_false', and_assoc] using hfire

/-- An accepted request is in the cache after the edge, at the address it was
made for. -/
theorem request_accepted (h : f.queryValid i = true) :
    (f.step i).cache.busy = true ∧
      (∀ lane, ((f.step i).cache.lookup lane).pc = f.requestPc i lane) := by
  rw [← requestFire_eq] at h
  obtain ⟨hwrite, _⟩ := InstructionCache.quiet_of_requestFire h
  rw [step_cache]
  constructor
  · simp [InstructionCache.busy, InstructionCache.step,
      InstructionCache.nextLookupValid, h, hwrite]
  · intro lane
    simp only [InstructionCache.step, InstructionCache.nextLookup, h, if_true]
    rfl

/-- A held response. -/
theorem Aligned.held_response (h : Aligned mem f held)
    (hfire : f.queryValid i = false)
    (hresponse : f.cache.responseValid false = true) :
    (f.step i).cache.lookupValid = true ∧
      (∀ lane, (f.step i).cache.lookup lane = f.cache.lookup lane) := by
  have hnone : f.cache.requestFire (f.cacheInputs i) = false :=
    (requestFire_eq f i).trans hfire
  obtain ⟨hjump, hconsumed, _⟩ := h.quiet_of_noQuery hfire
  have hvalid := InstructionCache.lookupValid_of_response hresponse
  obtain ⟨hretry, hactive⟩ := h.lined.lookup_alone hvalid
  have hflush : (f.cacheInputs i).flush = false := hjump
  have hready : (f.cacheInputs i).responseReady = false := by
    change ((jump i).enable || f.fetchResponseConsumed i) = false
    rw [hjump, hconsumed]
    rfl
  rw [step_cache]
  constructor
  · simp [InstructionCache.step, InstructionCache.nextLookupValid, hnone,
      hflush, hactive, hretry, hvalid, hresponse, hready]
  · intro lane
    simp [InstructionCache.step, InstructionCache.nextLookup, hnone, hretry,
      InstructionCache.arrayReadEnable]

/-- A request that is not replaced stays in the cache. -/
theorem Aligned.request_kept (h : Aligned mem f held)
    (hfire : f.queryValid i = false) :
    (f.step i).cache.busy = true ∧
      (∀ lane, ((f.step i).cache.lookup lane).pc =
        (f.cache.lookup lane).pc) := by
  obtain ⟨hjump, _, hbusy⟩ := h.quiet_of_noQuery hfire
  rcases Nat.eq_zero_or_pos f.cache.rank with hrank | hrank
  · have hresponse := h.lined.responseValid_of_rank hbusy hrank
    obtain ⟨hvalid, hlookup⟩ := h.held_response hfire hresponse
    refine ⟨?_, fun lane => by rw [hlookup]⟩
    rw [InstructionCache.busy, hvalid, Bool.true_or, Bool.true_or]
  · have hnearer := h.lined.nearer (f.fed i) hjump hbusy hrank
    exact ⟨hnearer.busy, hnearer.pc⟩

/-- The predictor holds a context after every edge, at the addresses it
accepted last. -/
theorem Aligned.step_context (h : Aligned mem f held) :
    (f.step i).bpu.requestContextValid = true ∧
      (∀ lane, (f.step i).bpu.responsePc lane =
        if f.queryValid i then f.requestPc i lane else f.bpu.responsePc lane) := by
  have hready : f.bpu.queryReady (f.query i) = f.queryReady i := rfl
  have hvalid : (f.query i).queryValid = f.queryValid i := rfl
  have hpc : (f.query i).queryPc = f.requestPc i := rfl
  have hcancel : (f.query i).cancel = (jump i).enable := rfl
  have hadvance : (f.query i).queryAdvance 0 =
      (f.fetchResponseConsumed i && !(jump i).enable) := rfl
  change f.bpu.nextContextValid (f.query i) = true ∧
    ∀ lane, f.bpu.nextResponsePc (f.query i) lane = _
  unfold BranchPredictionUnit.nextContextValid
    BranchPredictionUnit.nextResponsePc
  rw [hready, hvalid, hpc, hcancel, hadvance]
  cases hfire : f.queryValid i with
  | true =>
      have hquery : f.queryReady i = true := f.query_ready i hfire
      rw [hquery]
      cases (jump i).enable with
      | true => exact ⟨rfl, fun _ => rfl⟩
      | false => exact ⟨rfl, fun _ => rfl⟩
  | false =>
      obtain ⟨hjump, hconsumed, hbusy⟩ := h.quiet_of_noQuery hfire
      rw [hjump, hconsumed, h.context, hbusy]
      exact ⟨rfl, fun _ => rfl⟩

theorem Aligned.step (h : Aligned mem f held) (i : Inputs) :
    Aligned mem (f.step i) (f.bpu.keys (f.query i)) := by
  obtain ⟨hcontext, hresponse⟩ := h.step_context (i := i)
  have hlookup : (f.step i).cache.busy = true ∧
      ∀ lane, ((f.step i).cache.lookup lane).pc =
        (f.step i).bpu.responsePc lane := by
    cases hfire : f.queryValid i with
    | true =>
        obtain ⟨hbusy, hpc⟩ := request_accepted hfire
        refine ⟨hbusy, ?_⟩
        intro lane
        rw [hpc, hresponse, hfire, if_pos rfl]
    | false =>
        obtain ⟨hbusy, hpc⟩ := h.request_kept hfire
        refine ⟨hbusy, ?_⟩
        intro lane
        obtain ⟨_, _, hnow⟩ := h.quiet_of_noQuery hfire
        rw [hpc, hresponse, hfire, if_neg Bool.false_ne_true, h.pc hnow]
  constructor
  · exact h.lined.step (f.fed i)
  · exact h.keyed.step (f.query_ready i)
  · rw [hcontext, hlookup.1]
  · exact fun _ => hlookup.2

/-- The power-on contents of the memories that reset leaves alone. -/
structure Boot where
  mem : BitVec 14 → Word
  tables : (t : TageTableId) → TageTable (tageTagWidth t)
  tagArray : BitVec 8 → BitVec 20
  dataArray : BitVec 8 → InsnLine
  readTag : Lane → BitVec 20
  readLine : Lane → InsnLine
  responseWord : Word

/-- The front end after reset. -/
def boot (b : Boot) : FrontEnd :=
  reset b.tables
    (InstructionCache.reset b.tagArray b.dataArray b.readTag b.readLine)
    ⟨b.mem, false, b.responseWord⟩

/-- A fetch response taken by the fetch queue, with the requests its two
halves were made for and the predictor it came from.  `barrier` requests had
been accepted before the last redirect. -/
structure Delivery where
  request : Nat
  context : Nat
  barrier : Nat
  packet : Lane → FetchPacket
  bpu : BranchPredictionUnit
  keys : Lane → Keys

/-- An account of the requests of a run.  `cacheRequest` and `bpuRequest`
number the requests whose addresses the cache and the predictor loaded last. -/
structure Ledger where
  requests : List (Lane → Word) := []
  cacheRequest : Nat := 0
  bpuRequest : Nat := 0
  barrier : Nat := 0
  waiting : List Nat := []
  cancelled : List Nat := []
  delivered : List Delivery := []
  /-- The keys the tables were read at for the present response. -/
  held : Lane → Keys := fun _ => ⟨fun _ => 0, fun _ => 0, ⟨false, false⟩,
    fun _ => 0, 0⟩

/-- The deliveries of a cycle. -/
def deliveries (f : FrontEnd) (l : Ledger) (i : Inputs) : List Delivery :=
  if f.fetchResponseConsumed i then
    [⟨l.cacheRequest, l.bpuRequest, l.barrier, f.fetchPacket i, f.bpu, l.held⟩]
  else []

/-- The requests still waiting before the cycle's own request. -/
def stillWaiting (f : FrontEnd) (l : Ledger) (i : Inputs) : List Nat :=
  if f.fetchResponseConsumed i then l.waiting.erase l.cacheRequest
  else l.waiting

def Ledger.step (l : Ledger) (f : FrontEnd) (i : Inputs) : Ledger where
  requests := if f.queryValid i then l.requests ++ [f.requestPc i]
    else l.requests
  cacheRequest := if f.cache.requestFire (f.cacheInputs i) then
      l.requests.length
    else l.cacheRequest
  bpuRequest := if (f.query i).queryValid && f.bpu.queryReady (f.query i) then
      l.requests.length
    else l.bpuRequest
  barrier := if (jump i).enable then l.requests.length else l.barrier
  waiting := (if (jump i).enable then [] else stillWaiting f l i) ++
    if f.queryValid i then [l.requests.length] else []
  cancelled := if (jump i).enable then l.cancelled ++ stillWaiting f l i
    else l.cancelled
  delivered := l.delivered ++ deliveries f l i
  held := f.bpu.keys (f.query i)

/-- The front end and its ledger after a list of cycles. -/
def run (b : Boot) (is : List Inputs) : FrontEnd × Ledger :=
  is.foldl (fun s i => (s.1.step i, s.2.step s.1 i)) (boot b, {})

theorem run_snoc (b : Boot) (is : List Inputs) (i : Inputs) :
    run b (is ++ [i]) = ((run b is).1.step i, (run b is).2.step (run b is).1 i) := by
  rw [run, List.foldl_append]
  rfl

/-- A delivery as it should be.  Slot 1 is delivered when slot 0 is not
predicted taken. -/
structure Delivery.Intact (mem : BitVec 14 → Word)
    (requests : List (Lane → Word)) (d : Delivery) : Prop where
  same : d.context = d.request
  fresh : d.barrier ≤ d.request
  pc : requests[d.request]? = some fun lane => (d.packet lane).pc
  word : ∀ lane, lane = 0 ∨ (d.packet 0).predictedTaken = false →
    (d.packet lane).insn = InsnMem.wordAt mem (d.packet lane).pc
  responsePc : ∀ lane, d.bpu.responsePc lane = (d.packet lane).pc
  predictionPc : ∀ lane, (d.bpu.tage.prediction lane).pc = (d.packet lane).pc
  predictorIndex : ∀ lane, (d.packet lane).predictorIndex =
    BimodalPredictor.queryIndex (d.packet lane).pc
  btbHit : ∀ lane, (d.packet lane).predictedBtbHit =
    d.bpu.btb.hit (d.packet lane).pc
  index : ∀ lane t, (d.keys lane).index t =
    TageHash.updateIndex t (d.packet lane).pc (d.packet lane).tageMeta.history
      (d.packet lane).tageMeta.pathHistory
  tag : ∀ lane t, (d.keys lane).tag t =
    TageHash.updateTag t (d.packet lane).pc (d.packet lane).tageMeta.history
      (d.packet lane).tageMeta.pathHistory

theorem Delivery.Intact.append {requests : List (Lane → Word)} {d : Delivery}
    (h : d.Intact mem requests) (more : List (Lane → Word)) :
    d.Intact mem (requests ++ more) := by
  have hpc : (requests ++ more)[d.request]? =
      some fun lane => (d.packet lane).pc := by
    rw [List.getElem?_append_left]
    · exact h.pc
    · exact (List.getElem?_eq_some_iff.mp h.pc).1
  exact { h with pc := hpc }

/-- What a run keeps: the account of the requests, and the request both halves
of the front end are at. -/
structure Served (mem : BitVec 14 → Word) (f : FrontEnd) (l : Ledger) :
    Prop where
  aligned : Aligned mem f l.held
  idle : f.cache.busy = false → l.requests = [] ∧ l.waiting = []
  current : f.cache.busy = true → ∃ earlier,
    l.requests = earlier ++ [f.bpu.responsePc] ∧
    l.cacheRequest = earlier.length ∧ l.bpuRequest = earlier.length ∧
    l.waiting = [earlier.length] ∧ l.barrier ≤ earlier.length
  barrier : l.barrier ≤ l.requests.length
  account : (l.delivered.map Delivery.request ++ l.cancelled ++
    l.waiting).Perm (List.range l.requests.length)
  intact : ∀ d ∈ l.delivered, d.Intact mem l.requests

variable {l : Ledger}

theorem Served.boot (b : Boot) : Served b.mem (boot b) {} where
  aligned :=
    { lined := Lined.reset _ _ _ _ _
      keyed := Keyed.reset _ _
      context := rfl
      pc := fun h => absurd h Bool.false_ne_true }
  idle := fun _ => ⟨rfl, rfl⟩
  current := fun h => absurd h Bool.false_ne_true
  barrier := Nat.le_refl 0
  account := List.Perm.refl _
  intact := fun _ h => absurd h List.not_mem_nil

/-- What a consumed response says about the cycle. -/
theorem consumed_facts (h : f.fetchResponseConsumed i = true) :
    (jump i).enable = false ∧ f.cache.responseValid false = true ∧
      f.ifStage.responseUsable (jump i) (f.predictionValid i) = true := by
  have husable : f.ifStage.responseUsable (jump i) (f.predictionValid i) =
      true := by
    change (f.ifStage.responseUsable (jump i) (f.predictionValid i) && _) =
      true at h
    rw [Bool.and_eq_true] at h
    exact h.1
  rw [responseConsumed_eq] at h
  simp only [Bool.and_eq_true, Bool.not_eq_true'] at h
  refine ⟨h.1.2, ?_, husable⟩
  rw [← h.1.2]
  exact h.1.1.1

section Packet

variable (husable :
  f.ifStage.responseUsable (jump i) (f.predictionValid i) = true)

include husable

/-- A usable packet is at the response address of its lane. -/
theorem fetchPacket_pc (lane : Lane) :
    (f.fetchPacket i lane).pc = f.bpu.responsePc lane := by
  change (if f.ifStage.responseUsable (jump i) (f.predictionValid i) then
    f.bpu.responsePc lane else _) = _
  rw [if_pos husable]

theorem fetchPacket_tageMeta (lane : Lane) : (f.fetchPacket i lane).tageMeta =
    f.bpu.tageMeta (f.answered i) lane := by
  change (if f.ifStage.responseUsable (jump i) (f.predictionValid i) then
    f.bpu.tageMeta (f.answered i) lane else _) = _
  rw [if_pos husable]

theorem fetchPacket_taken0 :
    (f.fetchPacket i 0).predictedTaken = f.predictTaken0 i := by
  change (f.ifStage.responseUsable (jump i) (f.predictionValid i) &&
    f.predictTaken0 i && true) = _
  rw [husable, Bool.true_and, Bool.and_true]

/-- The word of a delivered lane comes from the cache. -/
theorem fetchPacket_insn {lane : Lane}
    (hlane : lane = 0 ∨ f.predictTaken0 i = false) :
    (f.fetchPacket i lane).insn = f.ifStage.requestInsn (jump i) lane := by
  match lane with
  | 0 =>
      change (if f.ifStage.responseUsable (jump i) (f.predictionValid i) then
        _ else _) = _
      rw [if_pos husable]
  | 1 =>
      rcases hlane with hzero | htaken
      · exact absurd hzero (by decide)
      · change (if f.ifStage.responseUsable (jump i) (f.predictionValid i) &&
          !f.predictTaken0 i then _ else _) = _
        rw [husable, htaken]
        rfl

end Packet

/-- The words of a response come from the instruction memory. -/
theorem Aligned.requestInsn_eq (h : Aligned mem f held)
    (hconsumed : f.fetchResponseConsumed i = true) (lane : Lane) :
    f.ifStage.requestInsn (jump i) lane =
      InsnMem.wordAt mem (f.bpu.responsePc lane) := by
  obtain ⟨hjump, hresponse, _⟩ := consumed_facts hconsumed
  have hvalid : f.cache.responseValid (jump i).enable = true := by
    rw [hjump, hresponse]
  rw [← h.pc (busy_of_responseValid hresponse) lane]
  exact h.lined.responseInsn_eq hvalid lane

/-- A delivery is made of the request both halves are at. -/
theorem Served.delivery_intact (h : Served mem f l) {d : Delivery}
    (hd : d ∈ deliveries f l i) : d.Intact mem l.requests := by
  unfold deliveries at hd
  split at hd
  case isFalse => exact absurd hd List.not_mem_nil
  case isTrue hconsumed =>
      rw [List.mem_singleton] at hd
      subst hd
      obtain ⟨hjump, hresponse, husable⟩ := consumed_facts hconsumed
      have hbusy := busy_of_responseValid hresponse
      obtain ⟨earlier, hrequests, hcache, hbpu, _, hbarrier⟩ := h.current hbusy
      have hcontext : f.bpu.requestContextValid = true := by
        rw [h.aligned.context, hbusy]
      have hpc := fetchPacket_pc husable
      have hmeta := fetchPacket_tageMeta husable
      constructor
      · exact hbpu.trans hcache.symm
      · exact hcache ▸ hbarrier
      · change l.requests[l.cacheRequest]? = _
        rw [hcache, hrequests, List.getElem?_concat_length]
        congr 1
        funext lane
        exact (hpc lane).symm
      · intro lane hlane
        rw [hpc, ← h.aligned.requestInsn_eq hconsumed lane]
        apply fetchPacket_insn husable
        rw [← fetchPacket_taken0 husable]
        exact hlane
      · intro lane
        exact (hpc lane).symm
      · intro lane
        rw [hpc]
        exact h.aligned.keyed.pc lane
      · intro lane
        rw [hpc]
        change (if f.ifStage.responseUsable (jump i) (f.predictionValid i) then
          _ else _) = _
        rw [if_pos husable]
        rfl
      · intro lane
        rw [hpc]
        change (f.ifStage.responseUsable (jump i) (f.predictionValid i) && _) = _
        rw [husable, Bool.true_and]
        rfl
      · intro lane t
        obtain ⟨hhistory, hpath⟩ :=
          BranchPredictionUnit.tageMeta_histories f.bpu (f.answered i) lane
        rw [hpc, hmeta, hhistory, hpath]
        exact h.aligned.keyed.index hcontext lane t
      · intro lane t
        obtain ⟨hhistory, hpath⟩ :=
          BranchPredictionUnit.tageMeta_histories f.bpu (f.answered i) lane
        rw [hpc, hmeta, hhistory, hpath]
        exact h.aligned.keyed.tag hcontext lane t

/-- A cycle without a request changes nothing in the account. -/
theorem Served.step_kept (h : Served mem f l) (hfire : f.queryValid i = false) :
    Served mem (f.step i) (l.step f i) := by
  obtain ⟨hjump, hconsumed, hbusy⟩ := h.aligned.quiet_of_noQuery hfire
  obtain ⟨hnext, _⟩ := h.aligned.request_kept hfire
  have hpc : (f.step i).bpu.responsePc = f.bpu.responsePc := by
    funext lane
    rw [(h.aligned.step_context (i := i)).2 lane, hfire,
      if_neg Bool.false_ne_true]
  have hrequests : (l.step f i).requests = l.requests := by
    simp [Ledger.step, hfire]
  have hwaiting : (l.step f i).waiting = l.waiting := by
    simp [Ledger.step, hfire, hjump, stillWaiting, hconsumed]
  have hdelivered : (l.step f i).delivered = l.delivered := by
    simp [Ledger.step, deliveries, hconsumed]
  have hcancelled : (l.step f i).cancelled = l.cancelled := by
    simp [Ledger.step, hjump]
  have hbarrier : (l.step f i).barrier = l.barrier := by
    simp [Ledger.step, hjump]
  constructor
  · exact h.aligned.step i
  · intro hidle
    exact absurd (hidle.symm.trans hnext) Bool.false_ne_true
  · intro _
    obtain ⟨earlier, hcurrent, hcache, hbpu, hwait, hle⟩ := h.current hbusy
    have hcache' : (l.step f i).cacheRequest = l.cacheRequest := by
      simp [Ledger.step, requestFire_eq, hfire]
    have hbpu' : (l.step f i).bpuRequest = l.bpuRequest := by
      have hquery : (f.query i).queryValid = false := hfire
      simp [Ledger.step, hquery]
    rw [hrequests, hcache', hbpu', hwaiting, hbarrier, hpc]
    exact ⟨earlier, hcurrent, hcache, hbpu, hwait, hle⟩
  · rw [hbarrier, hrequests]
    exact h.barrier
  · rw [hdelivered, hcancelled, hwaiting, hrequests]
    exact h.account
  · rw [hdelivered, hrequests]
    exact h.intact

/-- Before the cycle's own request, the last one is settled: cancelled by the
redirect, delivered, or there was none. -/
theorem Served.settled (h : Served mem f l) (hfire : f.queryValid i = true) :
    (if (jump i).enable then [] else stillWaiting f l i) = [] ∧
      ((l.delivered ++ deliveries f l i).map Delivery.request ++
        (if (jump i).enable then l.cancelled ++ stillWaiting f l i
          else l.cancelled)).Perm (List.range l.requests.length) := by
  rw [h.aligned.queryValid_eq] at hfire
  have haccount := h.account
  cases hconsumed : f.fetchResponseConsumed i with
  | true =>
      obtain ⟨hjump, hresponse, _⟩ := consumed_facts hconsumed
      obtain ⟨earlier, _, hcache, _, hwaiting, _⟩ :=
        h.current (busy_of_responseValid hresponse)
      rw [hwaiting] at haccount
      simp only [hjump, stillWaiting, hconsumed, if_true, deliveries, hwaiting,
        hcache, List.erase_cons_head, Bool.false_eq_true, if_false,
        List.map_append, List.map_cons, List.map_nil, true_and]
      refine List.Perm.trans ?_ haccount
      rw [List.append_assoc, List.append_assoc]
      exact List.Perm.append_left _ List.perm_append_comm
  | false =>
      have hnone : deliveries f l i = [] := by simp [deliveries, hconsumed]
      have hstill : stillWaiting f l i = l.waiting := by
        simp [stillWaiting, hconsumed]
      rw [hnone, List.append_nil, hstill]
      cases hjump : (jump i).enable with
      | true =>
          refine ⟨rfl, ?_⟩
          rw [if_pos rfl, ← List.append_assoc]
          exact haccount
      | false =>
          rw [hjump, hconsumed, Bool.false_or, Bool.false_or,
            Bool.not_eq_true'] at hfire
          obtain ⟨_, hwaiting⟩ := h.idle hfire
          rw [hwaiting, List.append_nil] at haccount
          rw [hwaiting]
          exact ⟨rfl, haccount⟩

theorem Served.step_request (h : Served mem f l) (hfire : f.queryValid i = true) :
    Served mem (f.step i) (l.step f i) := by
  obtain ⟨hnext, _⟩ := request_accepted hfire
  obtain ⟨hsettled, haccount⟩ := h.settled hfire
  have hpc : (f.step i).bpu.responsePc = f.requestPc i := by
    funext lane
    rw [(h.aligned.step_context (i := i)).2 lane, hfire, if_pos rfl]
  have hrequests : (l.step f i).requests = l.requests ++ [f.requestPc i] := by
    simp [Ledger.step, hfire]
  have hwaiting : (l.step f i).waiting = [l.requests.length] := by
    rw [Ledger.step, hsettled, hfire]
    rfl
  have hbarrier : (l.step f i).barrier ≤ l.requests.length := by
    have hold := h.barrier
    simp only [Ledger.step]
    split <;> omega
  constructor
  · exact h.aligned.step i
  · intro hidle
    exact absurd (hidle.symm.trans hnext) Bool.false_ne_true
  · intro _
    refine ⟨l.requests, ?_, ?_, ?_, hwaiting, hbarrier⟩
    · rw [hrequests, hpc]
    · simp [Ledger.step, requestFire_eq, hfire]
    · have hquery : (f.query i).queryValid = true := hfire
      rw [Ledger.step, hquery, f.query_ready i hquery]
      rfl
  · rw [hrequests, List.length_append]
    exact Nat.le_add_right_of_le hbarrier
  · rw [hwaiting, hrequests, List.length_append, List.length_singleton,
      List.range_succ]
    exact List.Perm.append_right _ haccount
  · rw [hrequests]
    intro d hd
    rcases List.mem_append.mp hd with hold | hnew
    · exact (h.intact d hold).append _
    · exact (h.delivery_intact hnew).append _

theorem Served.step (h : Served mem f l) (i : Inputs) :
    Served mem (f.step i) (l.step f i) := by
  cases hfire : f.queryValid i with
  | true => exact h.step_request hfire
  | false => exact h.step_kept hfire

theorem run_served (b : Boot) (is : List Inputs) :
    Served b.mem (run b is).1 (run b is).2 := by
  induction is using List.reverseRecOn with
  | nil => exact Served.boot b
  | append_singleton is i ih =>
      rw [run_snoc]
      exact ih.step i

/-- A request that waits is delivered, or its response is nearer. -/
theorem Served.progress (h : Served mem f l) (hjump : (jump i).enable = false)
    {r : Nat} (hr : r ∈ l.waiting) :
    (∃ d ∈ (l.step f i).delivered, d.request = r) ∨
      (f.fetchResponseConsumed i = false ∧ r ∈ (l.step f i).waiting ∧
        (f.step i).cache.rank ≤ f.cache.rank - 1) := by
  have hbusy : f.cache.busy = true := by
    by_contra hidle
    rw [Bool.not_eq_true] at hidle
    rw [(h.idle hidle).2] at hr
    exact absurd hr List.not_mem_nil
  obtain ⟨earlier, _, hcache, _, hwaiting, _⟩ := h.current hbusy
  rw [hwaiting, List.mem_singleton] at hr
  cases hconsumed : f.fetchResponseConsumed i with
  | true =>
      refine Or.inl ⟨⟨l.cacheRequest, l.bpuRequest, l.barrier, f.fetchPacket i,
        f.bpu, l.held⟩, List.mem_append_right _ ?_, hcache.trans hr.symm⟩
      rw [deliveries, hconsumed, if_pos rfl]
      exact List.mem_singleton.mpr rfl
  | false =>
      have hfire : f.queryValid i = false := by
        rw [h.aligned.queryValid_eq, hjump, hconsumed, hbusy]
        rfl
      refine Or.inr ⟨rfl, ?_, ?_⟩
      · simp [Ledger.step, hjump, stillWaiting, hconsumed, hfire, hwaiting, hr]
      · rcases Nat.eq_zero_or_pos f.cache.rank with hrank | hrank
        · have hresponse := h.aligned.lined.responseValid_of_rank hbusy hrank
          obtain ⟨hvalid, hlookup⟩ := h.aligned.held_response hfire hresponse
          have hold := InstructionCache.lookupValid_of_response hresponse
          have hhit (lane : Lane) : (f.step i).cache.lookupHit lane =
              f.cache.lookupHit lane := by
            rw [InstructionCache.lookupHit, InstructionCache.lookupHit, hvalid,
              hold, hlookup]
          rw [InstructionCache.rank_lookup hvalid, hhit, hhit,
            ← InstructionCache.rank_lookup hold]
          omega
        · have hnearer := h.aligned.lined.nearer (f.fed i) hjump hbusy hrank
          have hless := hnearer.rank
          rw [step_cache]
          omega

/-- The run goes on with a stream of inputs. -/
def runOn (b : Boot) (is : List Inputs) (ins : Nat → Inputs) (n : Nat) :
    FrontEnd × Ledger :=
  run b (is ++ (List.range n).map ins)

theorem runOn_succ (b : Boot) (is : List Inputs) (ins : Nat → Inputs)
    (n : Nat) : runOn b is ins (n + 1) =
      ((runOn b is ins n).1.step (ins n),
        (runOn b is ins n).2.step (runOn b is ins n).1 (ins n)) := by
  rw [runOn, List.range_succ, List.map_append, ← List.append_assoc,
    List.map_singleton, run_snoc]
  rfl

theorem runOn_served (b : Boot) (is : List Inputs) (ins : Nat → Inputs)
    (n : Nat) : Served b.mem (runOn b is ins n).1 (runOn b is ins n).2 :=
  run_served b _

theorem delivered_mono {d : Delivery} (hd : d ∈ l.delivered) :
    d ∈ (l.step f i).delivered := List.mem_append_left _ hd

/-- After `n` cycles without a redirect a waiting request is delivered, or its
response is at most `12 - n` cycles away. -/
theorem waiting_runOn (b : Boot) (is : List Inputs) (ins : Nat → Inputs)
    (hjump : ∀ n, (jump (ins n)).enable = false) {r : Nat}
    (hr : r ∈ (run b is).2.waiting) (n : Nat) :
    (∃ d ∈ (runOn b is ins n).2.delivered, d.request = r) ∨
      (r ∈ (runOn b is ins n).2.waiting ∧
        (runOn b is ins n).1.cache.rank ≤ 12 - n) := by
  induction n with
  | zero =>
      have hstart : runOn b is ins 0 = run b is := by simp [runOn]
      rw [hstart]
      exact Or.inr ⟨hr, InstructionCache.rank_le _⟩
  | succ n ih =>
      rw [runOn_succ]
      rcases ih with ⟨d, hd, hrequest⟩ | ⟨hwaiting, hrank⟩
      · exact Or.inl ⟨d, delivered_mono hd, hrequest⟩
      · have hserved := runOn_served b is ins n
        rcases hserved.progress (hjump n) hwaiting with hdone | ⟨_, hkept, hless⟩
        · exact Or.inl hdone
        · refine Or.inr ⟨hkept, Nat.le_trans hless ?_⟩
          omega

/-- For every run of the front end: each delivered packet is intact, every
accepted request is delivered once, cancelled by a redirect or the one in
flight, and the one in flight is delivered in the first cycle, from the twelfth
on, in which the queue is ready, unless a redirect comes first. -/
theorem fetch_integrity (b : Boot) (is : List Inputs) :
    (∀ d ∈ (run b is).2.delivered, d.Intact b.mem (run b is).2.requests) ∧
    ((run b is).2.delivered.map Delivery.request ++ (run b is).2.cancelled ++
      (run b is).2.waiting).Perm (List.range (run b is).2.requests.length) ∧
    (run b is).2.waiting.length ≤ 1 ∧
    ∀ ins : Nat → Inputs, (∀ n, (jump (ins n)).enable = false) →
      ∀ r ∈ (run b is).2.waiting, ∀ n, 12 ≤ n →
      (runOn b is ins n).1.fetchQueueReady (ins n) = true →
      ∃ d ∈ (runOn b is ins (n + 1)).2.delivered, d.request = r := by
  have hserved := run_served b is
  refine ⟨hserved.intact, hserved.account, ?_, ?_⟩
  · cases hbusy : (run b is).1.cache.busy with
    | true =>
        obtain ⟨earlier, _, _, _, hwaiting, _⟩ := hserved.current hbusy
        rw [hwaiting]
        exact Nat.le_refl 1
    | false =>
        rw [(hserved.idle hbusy).2]
        exact Nat.zero_le 1
  · intro ins hjump r hr n hn hready
    rw [runOn_succ]
    rcases waiting_runOn b is ins hjump hr n with ⟨d, hd, hrequest⟩ |
      ⟨hwaiting, hrank⟩
    · exact ⟨d, delivered_mono hd, hrequest⟩
    · have hnow := runOn_served b is ins n
      rcases hnow.progress (hjump n) hwaiting with hdone | ⟨hnot, _, _⟩
      · exact hdone
      · have hbusy : (runOn b is ins n).1.cache.busy = true := by
          by_contra hidle
          rw [Bool.not_eq_true] at hidle
          rw [(hnow.idle hidle).2] at hwaiting
          exact absurd hwaiting List.not_mem_nil
        have hzero : (runOn b is ins n).1.cache.rank = 0 := by omega
        have hresponse := hnow.aligned.lined.responseValid_of_rank hbusy hzero
        have hconsumed : (runOn b is ins n).1.fetchResponseConsumed (ins n) =
            true := by
          rw [responseConsumed_eq, predictionValid_eq, hjump n, hready,
            hnow.aligned.context, hbusy, hresponse]
          rfl
        exact absurd (hnot.symm.trans hconsumed) Bool.false_ne_true

end FrontEnd

end OoOCore
