/-
The store buffer over whole runs and inside the core.  Whatever the handshakes,
it is a queue whose query is exact; and a load that the LSQ lets go without
forwarding would get its value from a query that covers it.
-/
import OoOCore.LoadOrder

namespace OoOCore

/-- The handshake inputs of one cycle of `StoreBuffer`. -/
structure StoreBufferInputs where
  enqueueValid : Bool
  request : StoreRequest
  drainReady : Bool

/-- The buffer beside the stores that went in and came out. -/
structure LoggedBuffer where
  buffer : StoreBuffer
  enqueued : List StoreRequest
  drained : List StoreRequest

namespace LoggedBuffer

def reset : LoggedBuffer where
  buffer := StoreBuffer.reset
  enqueued := []
  drained := []

section Edge

variable (t : LoggedBuffer) (x : StoreBufferInputs)

/-- The store whose enqueue handshake completes. -/
def enqueuing : List StoreRequest :=
  if t.buffer.enqueueFire x.enqueueValid x.drainReady then [x.request] else []

/-- The store whose drain handshake completes. -/
def draining : List StoreRequest :=
  if t.buffer.drainFire x.drainReady then [t.buffer.drainRequest] else []

def step : LoggedBuffer where
  buffer := t.buffer.step x.enqueueValid x.request x.drainReady
  enqueued := t.enqueued ++ t.enqueuing x
  drained := t.drained ++ t.draining x

/-- What leaves the buffer is its oldest store. -/
theorem draining_append :
    t.draining x ++ t.buffer.contents.drop
      (t.buffer.drainFire x.drainReady).toNat = t.buffer.contents := by
  rw [draining]
  cases hfire : t.buffer.drainFire x.drainReady with
  | false => rfl
  | true =>
      rw [StoreBuffer.drainFire, Bool.and_eq_true] at hfire
      obtain ⟨rest, hrest⟩ := StoreBuffer.drainRequest_eq hfire.1
      rw [hrest]
      rfl

end Edge

def run (inputs : List StoreBufferInputs) : LoggedBuffer :=
  inputs.foldl step reset

/-- The buffer is well formed and holds what went in and has not come out. -/
structure Queued (t : LoggedBuffer) : Prop where
  wf : t.buffer.Wf
  conserved : t.enqueued = t.drained ++ t.buffer.contents

theorem Queued.step {t : LoggedBuffer} (h : t.Queued)
    (x : StoreBufferInputs) : (t.step x).Queued where
  wf := h.wf.step_wf x.enqueueValid x.request x.drainReady
  conserved := by
    have hcontents := h.wf.step_contents x.enqueueValid x.request x.drainReady
    calc t.enqueued ++ t.enqueuing x
        = t.drained ++ t.buffer.contents ++ t.enqueuing x := by
          rw [h.conserved]
      _ = t.drained ++ (t.draining x ++ t.buffer.contents.drop
            (t.buffer.drainFire x.drainReady).toNat) ++ t.enqueuing x := by
          rw [draining_append]
      _ = (t.drained ++ t.draining x) ++ (t.step x).buffer.contents := by
          change _ = _ ++ (t.buffer.step x.enqueueValid x.request
            x.drainReady).contents
          rw [hcontents, List.append_assoc, List.append_assoc,
            List.append_assoc]
          rfl

theorem run_queued (inputs : List StoreBufferInputs) : (run inputs).Queued := by
  induction inputs using List.reverseRecOn with
  | nil => exact ⟨StoreBuffer.reset_wf, rfl⟩
  | append_singleton before x ih =>
      rw [run, List.foldl_append]
      exact ih.step x

end LoggedBuffer

/-- A full buffer takes a store on the edge that drains one. -/
theorem StoreBuffer.full_exchange {b : StoreBuffer} (hfull : b.full = true) :
    b.drainFire true = true ∧ b.enqueueFire true true = true := by
  have hcount : b.entryCount = depth := by simpa [full] using hfull
  have hdrain : b.drainFire true = true := by
    simp [drainFire, drainValid, empty, hcount]
  refine ⟨hdrain, ?_⟩
  rw [enqueueFire, enqueueReady, hdrain, Bool.or_true]
  rfl

namespace Backend

section Forward

variable {s : Backend}

/-- `queryForwardValid_o` of the store buffer, which the core leaves open. -/
def storeBufferForwardValid (s : Backend) : Bool :=
  s.storeBuffer.queryForwardValid
    (s.loadIssueCandidate && !s.lsqQuery.forwardValid) s.lsuAddress
    s.lsuMemoryAccess

/-- `queryForwardData_o` of the store buffer, which the core leaves open. -/
def storeBufferForwardData (s : Backend) : Word :=
  s.storeBuffer.queryForwardData
    (s.loadIssueCandidate && !s.lsqQuery.forwardValid) s.lsuAddress
    s.lsuMemoryAccess

/-- The core buffers no store that crosses its word. -/
theorem Reachable.buffered_written (hreach : s.Reachable) :
    ∀ r ∈ s.storeBuffer.contents, r.written = r.byte := by
  intro r hr
  exact (hreach.memoryEntries.buffered r hr).written_eq

/-- The value that a covering query would give a load is settled. -/
theorem buffer_settled {h : History} (ht : s.Traced h)
    (hcandidate : s.loadIssueCandidate = true)
    (hready : s.lsqQuery.ready = true)
    (hforward : s.lsqQuery.forwardValid = false)
    (haligned : LoadStoreExecutionUnit.misaligned s.lsuMemoryAccess
      s.lsuAddress = false)
    (hcover : s.storeBufferForwardValid = true) (init : Word → BitVec 8) :
    s.Settled init h (s.issueUop 0).robTag s.lsuAddress s.lsuMemoryAccess
      s.storeBufferForwardData := by
  have hreach := ht.reachable
  have hexact := hreach.storeBufferWf.wf.queryExact haligned
  rw [storeBufferForwardValid, hcandidate, hforward] at hcover
  rw [loadIssueCandidate, Bool.and_eq_true, Bool.not_eq_true'] at hcandidate
  obtain ⟨hcleared, hvalue⟩ :=
    query_answers hreach hcandidate.1 hcandidate.2 hready haligned
  refine ⟨hcleared, ?_⟩
  rw [storeBufferForwardData, loadIssueCandidate, hcandidate.1, hcandidate.2,
    hforward]
  -- The retired stores are those the port accepted and then the buffered ones.
  have hdata := hexact.forwardData hcover
    (Overwrite.after init (h.accepted.map StoreRequest.byte))
  rw [List.map_congr_left hreach.buffered_written] at hdata
  rw [memoryBefore_eq, hvalue, hforward, if_neg Bool.false_ne_true,
    ← ht.accepted_append]
  refine hdata.trans (loadValue_congr ?_)
  intro x _
  rw [List.map_append, Overwrite.after_append]

end Forward

/-- The store buffer is exact.  Over any handshakes what came out is what went
in, in order, with the rest still buffered, and a full buffer takes a store on
the edge that drains one; the query of an aligned load finds a conflict iff a
buffered store writes one of its bytes, covers it iff every byte is written, and
then gives the bytes of the stores applied oldest first.  In the core, where the
stores that are buffered do not cross their words, a query that covers a load
the LSQ lets go without forwarding gives the value of program order. -/
theorem store_buffer_exact :
    (∀ inputs, (LoggedBuffer.run inputs).enqueued =
        (LoggedBuffer.run inputs).drained ++
          (LoggedBuffer.run inputs).buffer.contents ∧
      ((LoggedBuffer.run inputs).buffer.full = true →
        (LoggedBuffer.run inputs).buffer.drainFire true = true ∧
          (LoggedBuffer.run inputs).buffer.enqueueFire true true = true) ∧
      ∀ address access,
        LoadStoreExecutionUnit.misaligned access address = false →
          (LoggedBuffer.run inputs).buffer.QueryExact address access) ∧
    ∀ (s : Backend) (h : History), s.Traced h →
      (∀ r ∈ s.storeBuffer.contents, r.written = r.byte) ∧
      (s.loadIssueCandidate = true → s.lsqQuery.ready = true →
        s.lsqQuery.forwardValid = false →
        LoadStoreExecutionUnit.misaligned s.lsuMemoryAccess s.lsuAddress =
          false →
        s.storeBufferForwardValid = true → ∀ init,
          s.Settled init h (s.issueUop 0).robTag s.lsuAddress
            s.lsuMemoryAccess s.storeBufferForwardData) := by
  refine ⟨?_, ?_⟩
  · intro inputs
    have hqueued := LoggedBuffer.run_queued inputs
    refine ⟨hqueued.conserved, StoreBuffer.full_exchange, ?_⟩
    intro address access haligned
    exact hqueued.wf.queryExact haligned
  · intro s h ht
    refine ⟨ht.reachable.buffered_written, ?_⟩
    intro hcandidate hready hforward haligned hcover init
    exact buffer_settled ht hcandidate hready hforward haligned hcover init

/-- A word store to address 0 that retires into the buffer, and a load of the
word dispatched behind it. -/
def coveredLoad : List Inputs :=
  [offerPair 0x00002023 0, offerPair 0 0,
    offerPair 0 0, offerPair 0x00002103 0]

theorem store_buffer_exact_coveredLoad :
    (reset.trace {} coveredLoad).1.storeBufferForwardData = 0 ∧
      (reset.trace {} coveredLoad).1.Settled (fun _ => 0xff)
        (reset.trace {} coveredLoad).2 1 0 .word 0 := by
  have ht := Traced.reset.trace coveredLoad
  have hdata : (reset.trace {} coveredLoad).1.storeBufferForwardData = 0 := by
    decide +kernel
  have htag : ((reset.trace {} coveredLoad).1.issueUop 0).robTag = 1 := by
    decide +kernel
  have haddress : (reset.trace {} coveredLoad).1.lsuAddress = 0 := by
    decide +kernel
  have haccess : (reset.trace {} coveredLoad).1.lsuMemoryAccess = .word := by
    decide +kernel
  have hsettled := (store_buffer_exact.2 _ _ ht).2 (by decide +kernel)
    (by decide +kernel) (by decide +kernel)
    (by rw [haddress, haccess]; decide) (by decide +kernel) fun _ => 0xff
  rw [htag, haddress, haccess, hdata] at hsettled
  exact ⟨hdata, hsettled⟩

end Backend

end OoOCore
