/-
Outstanding loads of `LoadStoreExecutionUnit.sv` over whole runs of the unit
alone.  The memory answers accepted requests in any order; the accepted loads
are numbered, and the history records their answers, which of them were
squashed while they waited, and every completion the unit owes.
-/
import OoOCore.Lib.Run
import OoOCore.Execute

namespace OoOCore

/-- The inputs of the unit with `completionReady_i`, which the execute stage
ties to one. -/
structure LsuPorts extends LsuInputs where
  completionReady : Bool

namespace LoadStoreExecutionUnit

section Ports

variable (u : LoadStoreExecutionUnit) (x : LsuPorts)

def completionSlotReady : Bool := !u.completion.valid || x.completionReady

/-- `memoryResponseReady_o`. -/
def portResponseReady : Bool :=
  u.responsePending x.toLsuInputs &&
    (u.responseKilled x.toLsuInputs || u.completionSlotReady x)

def portResponseFire : Bool := x.response.valid && u.portResponseReady x

/-- `issueReady_o`. -/
def portIssueReady : Bool :=
  baseIssueReady x.toLsuInputs &&
    (if normalCacheLoad x.toLsuInputs then
      !u.pendingValid x.uop.robTag && x.memoryRequestReady
    else u.completionSlotReady x && !u.responseCompletes x.toLsuInputs)

def portIssueFire : Bool := x.issueValid && u.portIssueReady x

/-- The issued uop takes a pending slot. -/
def portStartsLoad : Bool :=
  u.portIssueFire x && !x.flush && normalCacheLoad x.toLsuInputs

/-- The issued uop completes without the memory port. -/
def portCompletesLocally : Bool :=
  u.portIssueFire x && !x.flush && !normalCacheLoad x.toLsuInputs

/-- The clocked process; a completion that is not taken stays. -/
def portStep : LoadStoreExecutionUnit where
  completion :=
    if u.portCompletesLocally x then localCompletion x.toLsuInputs
    else if u.portResponseFire x && !u.responseKilled x.toLsuInputs then
      u.responseCompletion x.toLsuInputs
    else if u.completionSlotReady x then OoOExecutionUnit.cleared u.completion
    else u.completion
  pendingValid :=
    let drained := if u.portResponseFire x then
        Function.update u.pendingValid x.response.id false
      else u.pendingValid
    if u.portStartsLoad x then Function.update drained x.uop.robTag true
    else drained
  pendingKilled :=
    let marked := fun tag =>
      if u.pendingValid tag ∧ (x.flush ∨ removes x.toLsuInputs tag) then true
      else u.pendingKilled tag
    let drained := if u.portResponseFire x then
        Function.update marked x.response.id false
      else marked
    if u.portStartsLoad x then Function.update drained x.uop.robTag false
    else drained
  pendingDestPhys := if u.portStartsLoad x then
      Function.update u.pendingDestPhys x.uop.robTag x.uop.destPhys
    else u.pendingDestPhys
  pendingRegisterWrite := if u.portStartsLoad x then
      Function.update u.pendingRegisterWrite x.uop.robTag
        x.uop.registerWriteEnable
    else u.pendingRegisterWrite
  pendingAddress := if u.portStartsLoad x then
      Function.update u.pendingAddress x.uop.robTag (address x.toLsuInputs)
    else u.pendingAddress
  pendingOrigin := if u.portStartsLoad x then
      Function.update u.pendingOrigin x.uop.robTag x.uop.origin
    else u.pendingOrigin

end Ports

/-- With the completion always taken the unit is the one of the backend. -/
theorem portStep_ready (u : LoadStoreExecutionUnit) {x : LsuPorts}
    (hready : x.completionReady = true) :
    u.portStep x = u.step x.toLsuInputs := by
  have hslot : u.completionSlotReady x = true := by
    simp [completionSlotReady, hready]
  have hresponse : u.portResponseFire x = u.responseFire x.toLsuInputs := by
    simp [portResponseFire, portResponseReady, responseFire,
      memoryResponseReady, hslot]
  have hissue : u.portIssueFire x = u.issueFire x.toLsuInputs := by
    simp [portIssueFire, portIssueReady, issueFire, issueReady, hslot]
  have hstarts : u.portStartsLoad x = u.startsLoad x.toLsuInputs := by
    simp [portStartsLoad, startsLoad, hissue]
  have hlocal : u.portCompletesLocally x =
      u.completesLocally x.toLsuInputs := by
    simp [portCompletesLocally, completesLocally, hissue]
  simp only [portStep, step, hresponse, hstarts, hlocal, hslot, if_true]

end LoadStoreExecutionUnit

/-- What the unit must remember of an accepted load. -/
structure LoadRequest where
  robTag : RobTag
  destPhys : PhysReg
  registerWrite : Bool
  address : Word
  origin : Origin

/-- The request a cycle offers. -/
def LsuInputs.request (x : LsuInputs) : LoadRequest where
  robTag := x.uop.robTag
  destPhys := x.uop.destPhys
  registerWrite := x.uop.registerWriteEnable
  address := LoadStoreExecutionUnit.address x
  origin := x.uop.origin

/-- The completion of a load that memory answers with `data`. -/
def LoadRequest.completion (r : LoadRequest) (data : Word) : Completion where
  valid := true
  robTag := r.robTag
  value := r.address
  writebackValid := r.registerWrite && decide (r.destPhys ≠ 0)
  writebackPhys := r.destPhys
  writebackData := data
  origin := r.origin

/-- One cycle; a valid response answers the accepted request `answers`. -/
structure LsuCycle extends LsuPorts where
  answers : Nat

/-- The unit beside the history of its loads.  `due` lists the completions in
the order the unit owes them, with the number of the load or `none` for an
operation that completes locally. -/
structure LoggedLsu where
  lsu : LoadStoreExecutionUnit
  accepted : List LoadRequest
  answered : List (Nat × Word)
  squashed : Nat → Bool
  due : List (Option Nat × Completion)
  delivered : List Completion

namespace LoggedLsu

open LoadStoreExecutionUnit

def reset : LoggedLsu where
  lsu := LoadStoreExecutionUnit.reset
  accepted := []
  answered := []
  squashed := fun _ => false
  due := []
  delivered := []

/-- The accepted request is not answered yet. -/
def Outstanding (t : LoggedLsu) (n : Nat) (r : LoadRequest) : Prop :=
  t.accepted[n]? = some r ∧ n ∉ t.answered.map Prod.fst

section Edge

variable (t : LoggedLsu) (x : LsuCycle)

/-- The request handshake. -/
def accepting : List LoadRequest :=
  if t.lsu.loadReadValid x.toLsuInputs && x.memoryRequestReady then
    [x.toLsuInputs.request]
  else []

/-- The response handshake. -/
def answering : List (Nat × Word) :=
  if t.lsu.portResponseFire x.toLsuPorts then [(x.answers, x.response.data)]
  else []

/-- A flush or a recovery hits the waiting load. -/
def squashing (n : Nat) : Bool :=
  decide (n ∉ t.answered.map Prod.fst) &&
    (t.accepted[n]?).any fun r => x.flush || removes x.toLsuInputs r.robTag

/-- The operation issued this cycle that needs no memory. -/
def finishing : List (Option Nat × Completion) :=
  if t.lsu.portIssueFire x.toLsuPorts && !normalCacheLoad x.toLsuInputs &&
      (localCompletion x.toLsuInputs).valid then
    [(none, localCompletion x.toLsuInputs)]
  else []

/-- The completion an answer owes under a verdict on which loads are
squashed. -/
def completionOf (squashed : Nat → Bool) (p : Nat × Word) :
    Option (Option Nat × Completion) :=
  if squashed p.1 then none
  else (t.accepted[p.1]?).map fun r => (some p.1, r.completion p.2)

/-- The completion handshake. -/
def delivering : List Completion :=
  if t.lsu.completion.valid && x.completionReady then [t.lsu.completion]
  else []

def step : LoggedLsu where
  lsu := t.lsu.portStep x.toLsuPorts
  accepted := t.accepted ++ t.accepting x
  answered := t.answered ++ t.answering x
  squashed := fun n => t.squashed n || t.squashing x n
  due := t.due ++ t.finishing x ++ (t.answering x).filterMap
    (t.completionOf fun n => t.squashed n || t.squashing x n)
  delivered := t.delivered ++ t.delivering x

/-- The memory answers an outstanding request with its id. -/
def Legal : Prop :=
  x.response.valid = true →
    ∃ r, t.Outstanding x.answers r ∧ x.response.id = r.robTag

end Edge

def run (cycles : List LsuCycle) : LoggedLsu := cycles.foldl step reset

/-- The memory answers every request at most once, with its id. -/
def LegalRun (cycles : List LsuCycle) : Prop :=
  Run.Legal step reset Legal cycles

/-- What stands in the completion register. -/
def shown (u : LoadStoreExecutionUnit) : List Completion :=
  if u.completion.valid then [u.completion] else []

/-- What the pending slot remembers. -/
def pendingRequest (u : LoadStoreExecutionUnit) (tag : RobTag) :
    LoadRequest where
  robTag := tag
  destPhys := u.pendingDestPhys tag
  registerWrite := u.pendingRegisterWrite tag
  address := u.pendingAddress tag
  origin := u.pendingOrigin tag

/-- The slots hold the outstanding requests, and nothing owed is lost. -/
structure Lawful (t : LoggedLsu) : Prop where
  pending_iff : ∀ tag, t.lsu.pendingValid tag = true ↔
    ∃ n r, t.Outstanding n r ∧ r.robTag = tag
  unique : ∀ n m r r', t.Outstanding n r → t.Outstanding m r' →
    r.robTag = r'.robTag → n = m
  slot : ∀ n r, t.Outstanding n r →
    pendingRequest t.lsu r.robTag = r ∧
      t.lsu.pendingKilled r.robTag = t.squashed n
  squashed_lt : ∀ n, t.squashed n = true → n < t.accepted.length
  answered_lt : ∀ n ∈ t.answered.map Prod.fst, n < t.accepted.length
  answered_nodup : (t.answered.map Prod.fst).Nodup
  register : t.due.map Prod.snd = t.delivered ++ shown t.lsu
  loads : t.due.filter (fun p => p.1.isSome) =
    t.answered.filterMap (t.completionOf t.squashed)

theorem lawful_reset : Lawful reset where
  pending_iff := by
    intro tag
    simp [reset, LoadStoreExecutionUnit.reset, Outstanding]
  unique := by
    intro n m r r' hn
    simp [reset, Outstanding] at hn
  slot := by
    intro n r hn
    simp [reset, Outstanding] at hn
  squashed_lt := by
    intro n hn
    cases hn
  answered_lt := by
    intro n hn
    cases hn
  answered_nodup := List.nodup_nil
  register := rfl
  loads := rfl

section Slots

variable {u : LoadStoreExecutionUnit} {x : LsuPorts}

/-- A load takes its slot when its request is accepted. -/
theorem portStartsLoad_eq : u.portStartsLoad x =
    (u.loadReadValid x.toLsuInputs && x.memoryRequestReady) := by
  rw [Bool.eq_iff_iff]
  simp only [portStartsLoad, portIssueFire, portIssueReady, loadReadValid,
    baseIssueReady, Bool.and_eq_true, Bool.not_eq_true']
  constructor
  · rintro ⟨⟨⟨hvalid, hbase, hready⟩, -⟩, hnormal⟩
    rw [if_pos hnormal, Bool.and_eq_true, Bool.not_eq_true'] at hready
    exact ⟨⟨⟨⟨hvalid, hbase⟩, hnormal⟩, hready.1⟩, hready.2⟩
  · rintro ⟨⟨⟨⟨hvalid, hbase⟩, hnormal⟩, hfree⟩, hready⟩
    rw [if_pos hnormal, Bool.and_eq_true, Bool.not_eq_true']
    exact ⟨⟨⟨hvalid, hbase, hfree, hready⟩, hbase.2⟩, hnormal⟩

theorem portStartsLoad_free (hstart : u.portStartsLoad x = true) :
    u.pendingValid x.uop.robTag = false := by
  rw [portStartsLoad_eq, Bool.and_eq_true] at hstart
  simp only [loadReadValid, Bool.and_eq_true, Bool.not_eq_true'] at hstart
  exact hstart.1.2

theorem portStep_started (hstart : u.portStartsLoad x = true) :
    pendingRequest (u.portStep x) x.uop.robTag = x.toLsuInputs.request ∧
      (u.portStep x).pendingValid x.uop.robTag = true ∧
      (u.portStep x).pendingKilled x.uop.robTag = false := by
  simp only [pendingRequest, portStep, hstart, if_true, Function.update_self]
  exact ⟨rfl, trivial, trivial⟩

/-- A slot that no load takes keeps its request; a response frees it, a flush
or a recovery marks it. -/
theorem portStep_other {tag : RobTag}
    (hother : u.portStartsLoad x = true → tag ≠ x.uop.robTag) :
    pendingRequest (u.portStep x) tag = pendingRequest u tag ∧
      ((u.portStep x).pendingValid tag = true ↔ u.pendingValid tag = true ∧
        ¬(u.portResponseFire x = true ∧ x.response.id = tag)) ∧
      (u.pendingValid tag = true →
        ¬(u.portResponseFire x = true ∧ x.response.id = tag) →
        (u.portStep x).pendingKilled tag = (u.pendingKilled tag ||
          (x.flush || removes x.toLsuInputs tag))) := by
  have hskip {α : Type} (f : RobTag → α) (v : α) :
      (if u.portStartsLoad x then Function.update f x.uop.robTag v else f) tag =
        f tag := by
    split
    · next hstart => rw [Function.update_of_ne (hother hstart)]
    · rfl
  refine ⟨?_, ?_, ?_⟩
  · simp only [pendingRequest, portStep, hskip]
  · simp only [portStep, hskip]
    by_cases hid : x.response.id = tag
    · subst hid
      cases u.portResponseFire x <;> simp
    · have hid' : tag ≠ x.response.id := fun h => hid h.symm
      cases u.portResponseFire x <;> simp [hid, Function.update_of_ne hid']
  · intro hpending hkept
    simp only [portStep, hskip]
    have hmarked : (if u.portResponseFire x then
        Function.update (fun tag => if u.pendingValid tag = true ∧
            (x.flush = true ∨ removes x.toLsuInputs tag = true) then true
          else u.pendingKilled tag) x.response.id false
        else fun tag => if u.pendingValid tag = true ∧
            (x.flush = true ∨ removes x.toLsuInputs tag = true) then true
          else u.pendingKilled tag) tag =
        if u.pendingValid tag = true ∧
            (x.flush = true ∨ removes x.toLsuInputs tag = true) then true
        else u.pendingKilled tag := by
      split
      · next hfire =>
          exact Function.update_of_ne (fun h => hkept ⟨hfire, h.symm⟩) _ _
      · rfl
    rw [hmarked]
    simp only [hpending, true_and]
    cases x.flush <;> cases removes x.toLsuInputs tag <;> simp

end Slots

section Requests

variable {t : LoggedLsu} {x : LsuCycle} {n : Nat} {r : LoadRequest}

theorem Outstanding.lt (h : t.Outstanding n r) : n < t.accepted.length :=
  (List.getElem?_eq_some_iff.mp h.1).1

theorem Outstanding.squashing (h : t.Outstanding n r) :
    t.squashing x n = (x.flush || removes x.toLsuInputs r.robTag) := by
  simp [LoggedLsu.squashing, h.1, h.2]

/-- A consumed response is the answer to the request it names. -/
theorem Legal.answers (hlegal : t.Legal x)
    (hfire : t.lsu.portResponseFire x.toLsuPorts = true) :
    ∃ r, t.Outstanding x.answers r ∧ x.response.id = r.robTag := by
  rw [portResponseFire, Bool.and_eq_true] at hfire
  exact hlegal hfire.1

theorem Lawful.answers_iff (h : t.Lawful) (hlegal : t.Legal x)
    (hn : t.Outstanding n r) :
    (t.lsu.portResponseFire x.toLsuPorts = true ∧
        x.response.id = r.robTag) ↔
      (t.lsu.portResponseFire x.toLsuPorts = true ∧ x.answers = n) := by
  constructor
  · rintro ⟨hfire, hid⟩
    obtain ⟨r', hout, hid'⟩ := hlegal.answers hfire
    exact ⟨hfire, h.unique _ _ _ _ hout hn (hid'.symm.trans hid)⟩
  · rintro ⟨hfire, heq⟩
    obtain ⟨r', hout, hid'⟩ := hlegal.answers hfire
    rw [heq] at hout
    have hsame := hout.1.symm.trans hn.1
    cases hsame
    exact ⟨hfire, hid'⟩

theorem mem_answered_step : n ∈ (t.step x).answered.map Prod.fst ↔
    n ∈ t.answered.map Prod.fst ∨
      (t.lsu.portResponseFire x.toLsuPorts = true ∧ x.answers = n) := by
  change n ∈ (t.answered ++ t.answering x).map Prod.fst ↔ _
  rw [List.map_append, List.mem_append, answering]
  cases t.lsu.portResponseFire x.toLsuPorts <;> simp [eq_comm]

theorem accepted_step_getElem? (hlt : n < t.accepted.length) :
    (t.step x).accepted[n]? = t.accepted[n]? :=
  List.getElem?_append_left hlt

/-- The outstanding requests after an edge: those not answered now, and the
new one. -/
theorem Lawful.outstanding_step (h : t.Lawful) (hlegal : t.Legal x) :
    (t.step x).Outstanding n r ↔
      (t.Outstanding n r ∧
        ¬(t.lsu.portResponseFire x.toLsuPorts = true ∧ x.answers = n)) ∨
      (t.lsu.portStartsLoad x.toLsuPorts = true ∧ n = t.accepted.length ∧
        r = x.toLsuInputs.request) := by
  unfold Outstanding
  rw [mem_answered_step, not_or]
  rcases Nat.lt_trichotomy n t.accepted.length with hlt | heq | hgt
  · rw [accepted_step_getElem? hlt]
    have hne : n ≠ t.accepted.length := Nat.ne_of_lt hlt
    simp only [hne, false_and, and_false, or_false, and_assoc]
  · subst heq
    have hfresh : t.accepted.length ∉ t.answered.map Prod.fst := fun hmem =>
      Nat.lt_irrefl _ (h.answered_lt _ hmem)
    have hnow : ¬(t.lsu.portResponseFire x.toLsuPorts = true ∧
        x.answers = t.accepted.length) := by
      rintro ⟨hfire, heq⟩
      obtain ⟨r', hout, -⟩ := hlegal.answers hfire
      exact Nat.ne_of_lt hout.lt heq
    change (t.accepted ++ t.accepting x)[t.accepted.length]? = some r ∧ _ ↔ _
    rw [accepting, ← portStartsLoad_eq]
    cases t.lsu.portStartsLoad x.toLsuPorts with
    | false => simp
    | true =>
        have hsym : r = x.toLsuInputs.request ↔
            x.toLsuInputs.request = r := eq_comm
        simp [hfresh, hnow, hsym]
  · have hlength : (t.step x).accepted.length ≤ t.accepted.length + 1 := by
      change (t.accepted ++ t.accepting x).length ≤ _
      rw [List.length_append, accepting]
      split <;> simp
    have hne : n ≠ t.accepted.length := Nat.ne_of_gt hgt
    rw [List.getElem?_eq_none (by omega), List.getElem?_eq_none (by omega)]
    simp [hne]

/-- An outstanding request that stays outstanding is in its slot, marked when
it is squashed. -/
theorem Lawful.slot_kept (h : t.Lawful) (hlegal : t.Legal x)
    (hn : t.Outstanding n r)
    (hkept : ¬(t.lsu.portResponseFire x.toLsuPorts = true ∧ x.answers = n)) :
    pendingRequest (t.step x).lsu r.robTag = r ∧
      (t.step x).lsu.pendingValid r.robTag = true ∧
      (t.step x).lsu.pendingKilled r.robTag = (t.step x).squashed n := by
  have hpending : t.lsu.pendingValid r.robTag = true :=
    (h.pending_iff _).mpr ⟨n, r, hn, rfl⟩
  have hother : t.lsu.portStartsLoad x.toLsuPorts = true →
      r.robTag ≠ x.uop.robTag := by
    intro hstart heq
    rw [heq, portStartsLoad_free hstart] at hpending
    cases hpending
  obtain ⟨hrequest, hvalid, hkilled⟩ := portStep_other hother
  rw [← h.answers_iff hlegal hn] at hkept
  obtain ⟨hold, hmark⟩ := h.slot n r hn
  refine ⟨hrequest.trans hold, hvalid.mpr ⟨hpending, hkept⟩, ?_⟩
  change (t.lsu.portStep x.toLsuPorts).pendingKilled r.robTag =
    (t.squashed n || t.squashing x n)
  rw [hkilled hpending hkept, hmark, hn.squashing]

end Requests

section Register

variable {t : LoggedLsu} {x : LsuCycle}

/-- The verdict of the slot is the verdict of the history. -/
theorem Lawful.responseKilled_eq (h : t.Lawful) {n : Nat} {r : LoadRequest}
    (hn : t.Outstanding n r) (hid : x.response.id = r.robTag) :
    t.lsu.responseKilled x.toLsuInputs =
      (t.squashed n || t.squashing x n) := by
  rw [responseKilled, hid, (h.slot n r hn).2, hn.squashing, Bool.or_assoc]

/-- The completion of a response is that of the load it answers. -/
theorem Lawful.responseCompletion_eq (h : t.Lawful) {n : Nat} {r : LoadRequest}
    (hn : t.Outstanding n r) (hid : x.response.id = r.robTag) :
    t.lsu.responseCompletion x.toLsuInputs = r.completion x.response.data := by
  rw [← (h.slot n r hn).1, ← hid]
  rfl

/-- What a response owes. -/
theorem Lawful.returning_eq (h : t.Lawful) (hlegal : t.Legal x) :
    ((t.answering x).filterMap
        (t.completionOf fun n => t.squashed n || t.squashing x n)).map
          Prod.snd =
      if t.lsu.portResponseFire x.toLsuPorts &&
          !t.lsu.responseKilled x.toLsuInputs then
        [t.lsu.responseCompletion x.toLsuInputs]
      else [] := by
  cases hfire : t.lsu.portResponseFire x.toLsuPorts with
  | false => simp [answering, hfire]
  | true =>
      obtain ⟨r, hout, hid⟩ := hlegal.answers hfire
      rw [h.responseCompletion_eq hout hid, h.responseKilled_eq hout hid]
      cases hsquashed : t.squashed x.answers || t.squashing x x.answers <;>
        simp [answering, hfire, completionOf, hsquashed, hout.1]

/-- A completion that must be kept blocks the slot. -/
theorem shown_of_slotReady
    (hslot : t.lsu.completionSlotReady x.toLsuPorts = true) :
    shown t.lsu = t.delivering x := by
  simp only [completionSlotReady, Bool.or_eq_true, Bool.not_eq_true'] at hslot
  rcases hslot with hvalid | hready
  · simp [shown, delivering, hvalid]
  · simp [shown, delivering, hready]

theorem finishing_eq : (t.finishing x).map Prod.snd =
    if t.lsu.portCompletesLocally x.toLsuPorts &&
        (localCompletion x.toLsuInputs).valid then
      [localCompletion x.toLsuInputs]
    else [] := by
  have hlocal : t.lsu.portCompletesLocally x.toLsuPorts =
      (t.lsu.portIssueFire x.toLsuPorts &&
        !normalCacheLoad x.toLsuInputs) := by
    rw [portCompletesLocally, portIssueFire, portIssueReady, baseIssueReady]
    cases x.flush <;> simp
  rw [finishing, hlocal]
  split <;> rfl

theorem slotReady_of_local
    (hlocal : t.lsu.portCompletesLocally x.toLsuPorts = true) :
    t.lsu.completionSlotReady x.toLsuPorts = true ∧
      t.lsu.responseCompletes x.toLsuInputs = false := by
  simp only [portCompletesLocally, portIssueFire, portIssueReady,
    Bool.and_eq_true, Bool.not_eq_true'] at hlocal
  obtain ⟨⟨⟨-, -, hready⟩, -⟩, hnormal⟩ := hlocal
  rw [hnormal, if_neg Bool.false_ne_true, Bool.and_eq_true,
    Bool.not_eq_true'] at hready
  exact hready

/-- A response that completes a load finds the slot free. -/
theorem slotReady_of_response
    (hfire : (t.lsu.portResponseFire x.toLsuPorts &&
      !t.lsu.responseKilled x.toLsuInputs) = true) :
    t.lsu.completionSlotReady x.toLsuPorts = true ∧
      t.lsu.responseCompletes x.toLsuInputs = true := by
  simp only [portResponseFire, portResponseReady, Bool.and_eq_true,
    Bool.not_eq_true'] at hfire
  obtain ⟨⟨hvalid, hpending, hready⟩, hkilled⟩ := hfire
  rw [hkilled, Bool.false_or] at hready
  exact ⟨hready, by simp [responseCompletes, hvalid, hpending, hkilled]⟩

/-- Whatever is owed enters the register, and the register only gives up what
is delivered. -/
theorem Lawful.step_register (h : t.Lawful) (hlegal : t.Legal x) :
    (t.step x).due.map Prod.snd =
      (t.step x).delivered ++ shown (t.step x).lsu := by
  change (t.due ++ t.finishing x ++ _).map Prod.snd =
    t.delivered ++ t.delivering x ++ shown (t.lsu.portStep x.toLsuPorts)
  rw [List.map_append, List.map_append, h.register, h.returning_eq hlegal,
    finishing_eq, List.append_assoc, List.append_assoc, List.append_assoc,
    List.append_cancel_left_eq]
  by_cases hlocal : t.lsu.portCompletesLocally x.toLsuPorts = true
  · obtain ⟨hslot, hnone⟩ := slotReady_of_local hlocal
    have hresponse : ¬ (t.lsu.portResponseFire x.toLsuPorts &&
        !t.lsu.responseKilled x.toLsuInputs) = true := by
      intro hfire
      rw [(slotReady_of_response hfire).2] at hnone
      cases hnone
    rw [shown_of_slotReady hslot, if_neg hresponse, List.append_nil]
    simp only [shown, portStep, hlocal, if_true, Bool.true_and]
  · rw [Bool.not_eq_true] at hlocal
    by_cases hresponse : (t.lsu.portResponseFire x.toLsuPorts &&
        !t.lsu.responseKilled x.toLsuInputs) = true
    · obtain ⟨hslot, -⟩ := slotReady_of_response hresponse
      rw [shown_of_slotReady hslot, if_pos hresponse]
      simp [shown, portStep, hlocal, hresponse, responseCompletion]
    · rw [if_neg hresponse]
      cases hslot : t.lsu.completionSlotReady x.toLsuPorts with
      | true =>
          rw [shown_of_slotReady hslot]
          simp [shown, portStep, hlocal, hresponse, hslot,
            OoOExecutionUnit.cleared]
      | false =>
          simp only [completionSlotReady, Bool.or_eq_false_iff,
            Bool.not_eq_false'] at hslot
          simp [shown, portStep, hlocal, hresponse, delivering,
            completionSlotReady, hslot]

end Register

section Step

variable {t : LoggedLsu} {x : LsuCycle}

theorem completionOf_isSome {squashed : Nat → Bool} {p : Nat × Word}
    {q : Option Nat × Completion} (hq : t.completionOf squashed p = some q) :
    q.1 = some p.1 := by
  unfold completionOf at hq
  split at hq
  · cases hq
  · obtain ⟨r, -, rfl⟩ := Option.map_eq_some_iff.mp hq
    rfl

theorem Lawful.step_loads (h : t.Lawful) (hlegal : t.Legal x) :
    (t.step x).due.filter (fun p => p.1.isSome) =
      (t.step x).answered.filterMap
        ((t.step x).completionOf (t.step x).squashed) := by
  have hold : t.answered.filterMap
      ((t.step x).completionOf (t.step x).squashed) =
      t.answered.filterMap (t.completionOf t.squashed) := by
    apply List.filterMap_congr
    intro p hp
    have hmem : p.1 ∈ t.answered.map Prod.fst := List.mem_map_of_mem hp
    have hsquashing : t.squashing x p.1 = false := by
      simp only [squashing, hmem, not_true_eq_false, decide_false,
        Bool.false_and]
    have hsquashed : (t.step x).squashed p.1 = t.squashed p.1 := by
      change (t.squashed p.1 || t.squashing x p.1) = _
      rw [hsquashing, Bool.or_false]
    rw [completionOf, completionOf, hsquashed,
      accepted_step_getElem? (h.answered_lt _ hmem)]
  have hnew : (t.answering x).filterMap
      ((t.step x).completionOf (t.step x).squashed) =
      (t.answering x).filterMap
        (t.completionOf fun n => t.squashed n || t.squashing x n) := by
    apply List.filterMap_congr
    intro p hp
    rw [answering] at hp
    split at hp
    · next hfire =>
        rw [List.mem_singleton.mp hp]
        obtain ⟨r, hout, -⟩ := hlegal.answers hfire
        rw [completionOf, completionOf, accepted_step_getElem? hout.lt]
        rfl
    · cases hp
  have hlocal : (t.finishing x).filter (fun p => p.1.isSome) = [] := by
    rw [finishing]
    split <;> rfl
  have hload : ((t.answering x).filterMap
      (t.completionOf fun n => t.squashed n || t.squashing x n)).filter
        (fun p => p.1.isSome) = (t.answering x).filterMap
      (t.completionOf fun n => t.squashed n || t.squashing x n) := by
    apply List.filter_eq_self.mpr
    intro q hq
    obtain ⟨p, -, hp⟩ := List.mem_filterMap.mp hq
    rw [completionOf_isSome hp]
    rfl
  change (t.due ++ t.finishing x ++ _).filter _ =
    (t.answered ++ t.answering x).filterMap _
  rw [List.filter_append, List.filter_append, h.loads, hlocal, hload,
    List.filterMap_append, hold, hnew, List.append_nil]

theorem Lawful.step_pending_iff (h : t.Lawful) (hlegal : t.Legal x)
    (tag : RobTag) : (t.step x).lsu.pendingValid tag = true ↔
      ∃ n r, (t.step x).Outstanding n r ∧ r.robTag = tag := by
  by_cases hnew : t.lsu.portStartsLoad x.toLsuPorts = true ∧
      tag = x.uop.robTag
  · obtain ⟨hstart, rfl⟩ := hnew
    refine iff_of_true (portStep_started hstart).2.1
      ⟨t.accepted.length, x.toLsuInputs.request, ?_, rfl⟩
    exact (h.outstanding_step hlegal).mpr (Or.inr ⟨hstart, rfl, rfl⟩)
  · have hother : t.lsu.portStartsLoad x.toLsuPorts = true →
        tag ≠ x.uop.robTag := fun hstart heq => hnew ⟨hstart, heq⟩
    change (t.lsu.portStep x.toLsuPorts).pendingValid tag = true ↔ _
    rw [(portStep_other hother).2.1, h.pending_iff]
    constructor
    · rintro ⟨⟨n, r, hn, rfl⟩, hkept⟩
      rw [h.answers_iff hlegal hn] at hkept
      exact ⟨n, r, (h.outstanding_step hlegal).mpr (Or.inl ⟨hn, hkept⟩), rfl⟩
    · rintro ⟨n, r, hn, rfl⟩
      rcases (h.outstanding_step hlegal).mp hn with
        ⟨hold, hkept⟩ | ⟨hstart, -, rfl⟩
      · rw [← h.answers_iff hlegal hold] at hkept
        exact ⟨⟨n, r, hold, rfl⟩, hkept⟩
      · exact absurd rfl (hother hstart)

/-- A new request takes a tag that no outstanding one has. -/
theorem Lawful.request_ne (h : t.Lawful)
    (hvalid : t.lsu.loadReadValid x.toLsuInputs = true) {n : Nat}
    {r : LoadRequest} (hn : t.Outstanding n r) : r.robTag ≠ x.uop.robTag := by
  intro heq
  have hpending := (h.pending_iff _).mpr ⟨n, r, hn, heq⟩
  simp only [loadReadValid, Bool.and_eq_true, Bool.not_eq_true'] at hvalid
  rw [hvalid.2] at hpending
  cases hpending

theorem Lawful.started_ne (h : t.Lawful)
    (hstart : t.lsu.portStartsLoad x.toLsuPorts = true) {n : Nat}
    {r : LoadRequest} (hn : t.Outstanding n r) : r.robTag ≠ x.uop.robTag := by
  rw [portStartsLoad_eq, Bool.and_eq_true] at hstart
  exact h.request_ne hstart.1 hn

theorem Lawful.step_unique (h : t.Lawful) (hlegal : t.Legal x) {n m : Nat}
    {r r' : LoadRequest} (hn : (t.step x).Outstanding n r)
    (hm : (t.step x).Outstanding m r') (heq : r.robTag = r'.robTag) :
    n = m := by
  rcases (h.outstanding_step hlegal).mp hn with
    ⟨hn, -⟩ | ⟨hstart, rfl, rfl⟩
  · rcases (h.outstanding_step hlegal).mp hm with
      ⟨hm, -⟩ | ⟨hstart, -, rfl⟩
    · exact h.unique _ _ _ _ hn hm heq
    · exact absurd heq (h.started_ne hstart hn)
  · rcases (h.outstanding_step hlegal).mp hm with
      ⟨hm, -⟩ | ⟨-, rfl, -⟩
    · exact absurd heq.symm (h.started_ne hstart hm)
    · rfl

theorem squashing_lt {n : Nat} (hn : t.squashing x n = true) :
    n < t.accepted.length := by
  rw [squashing, Bool.and_eq_true, Option.any_eq_true] at hn
  obtain ⟨-, r, hr, -⟩ := hn
  exact (List.getElem?_eq_some_iff.mp hr).1

theorem Lawful.squashed_step_lt (h : t.Lawful) {n : Nat}
    (hn : (t.step x).squashed n = true) : n < t.accepted.length := by
  rcases (Bool.or_eq_true _ _).mp hn with hn | hn
  · exact h.squashed_lt n hn
  · exact squashing_lt hn

theorem Lawful.step_slot (h : t.Lawful) (hlegal : t.Legal x) {n : Nat}
    {r : LoadRequest} (hn : (t.step x).Outstanding n r) :
    pendingRequest (t.step x).lsu r.robTag = r ∧
      (t.step x).lsu.pendingKilled r.robTag = (t.step x).squashed n := by
  rcases (h.outstanding_step hlegal).mp hn with
    ⟨hold, hkept⟩ | ⟨hstart, rfl, rfl⟩
  · obtain ⟨hrequest, -, hkilled⟩ := h.slot_kept hlegal hold hkept
    exact ⟨hrequest, hkilled⟩
  · obtain ⟨hrequest, -, hkilled⟩ := portStep_started hstart
    have hfresh : (t.step x).squashed t.accepted.length = false := by
      rw [← Bool.not_eq_true]
      intro hsquashed
      exact Nat.lt_irrefl _ (h.squashed_step_lt hsquashed)
    exact ⟨hrequest, hkilled.trans hfresh.symm⟩

theorem le_accepted_step :
    t.accepted.length ≤ (t.step x).accepted.length := by
  change _ ≤ (t.accepted ++ t.accepting x).length
  rw [List.length_append]
  exact Nat.le_add_right _ _

theorem Lawful.step (h : t.Lawful) (hlegal : t.Legal x) :
    (t.step x).Lawful where
  pending_iff := h.step_pending_iff hlegal
  unique := fun _ _ _ _ hn hm heq => h.step_unique hlegal hn hm heq
  slot := fun _ _ hn => h.step_slot hlegal hn
  squashed_lt := fun _ hn =>
    Nat.lt_of_lt_of_le (h.squashed_step_lt hn) le_accepted_step
  answered_lt := by
    intro n hn
    apply Nat.lt_of_lt_of_le _ le_accepted_step
    rcases mem_answered_step.mp hn with hold | ⟨hfire, rfl⟩
    · exact h.answered_lt n hold
    · obtain ⟨r, hout, -⟩ := hlegal.answers hfire
      exact hout.lt
  answered_nodup := by
    change ((t.answered ++ t.answering x).map Prod.fst).Nodup
    rw [answering]
    split
    · next hfire =>
        obtain ⟨r, hout, -⟩ := hlegal.answers hfire
        rw [List.map_append, List.nodup_append]
        refine ⟨h.answered_nodup, by simp, ?_⟩
        rintro n hn m hm rfl
        simp only [List.map_cons, List.map_nil, List.mem_singleton] at hm
        exact hout.2 (hm ▸ hn)
    · rw [List.append_nil]
      exact h.answered_nodup
  register := h.step_register hlegal
  loads := h.step_loads hlegal

theorem LegalRun.lawful {cycles : List LsuCycle} (h : LegalRun cycles) :
    (run cycles).Lawful := by
  apply Run.Legal.invariant lawful_reset _ h
  intro t x ht hx
  exact ht.step hx

end Step

section Law

variable {t : LoggedLsu} {x : LsuCycle} {n : Nat}

/-- The completions owed for one load. -/
def owed (t : LoggedLsu) (n : Nat) : List (Option Nat × Completion) :=
  t.due.filter fun p => decide (p.1 = some n)

theorem Lawful.owed_eq (h : t.Lawful) : t.owed n =
    (t.answered.filter fun p => decide (p.1 = n)).filterMap
      (t.completionOf t.squashed) := by
  have hsome : t.owed n = (t.due.filter fun p => p.1.isSome).filter
      fun p => decide (p.1 = some n) := by
    rw [owed, List.filter_filter]
    apply List.filter_congr
    intro p _
    cases hp : p.1 <;> simp
  rw [hsome, h.loads, List.filter_filterMap, List.filterMap_filter]
  apply List.filterMap_congr
  intro p _
  cases hq : t.completionOf t.squashed p with
  | none => simp
  | some q =>
      have hfst := completionOf_isSome hq
      by_cases heq : p.1 = n <;> simp [hfst, heq]

theorem filter_fst_of_nodup {l : List (Nat × Word)} {d : Word}
    (hl : (l.map Prod.fst).Nodup) (hmem : (n, d) ∈ l) :
    l.filter (fun p => decide (p.1 = n)) = [(n, d)] := by
  induction l with
  | nil => cases hmem
  | cons p rest ih =>
      obtain ⟨hfresh, hrest⟩ := List.nodup_cons.mp hl
      rcases List.mem_cons.mp hmem with rfl | hmem
      · have hnone : rest.filter (fun p => decide (p.1 = n)) = [] := by
          apply List.filter_eq_nil_iff.mpr
          intro q hq heq
          exact hfresh (List.mem_map.mpr ⟨q, hq, of_decide_eq_true heq⟩)
        simp [hnone]
      · have hne : p.1 ≠ n := by
          rintro rfl
          exact hfresh (List.mem_map.mpr ⟨_, hmem, rfl⟩)
        simp only [List.filter_cons, hne, decide_false, Bool.false_eq_true,
          if_false]
        exact ih hrest hmem

/-- An answered load that was not squashed is owed one completion, its own. -/
theorem Lawful.owed_of_answered (h : t.Lawful) {r : LoadRequest} {d : Word}
    (hr : t.accepted[n]? = some r) (hd : (n, d) ∈ t.answered)
    (hlive : t.squashed n = false) :
    t.owed n = [(some n, r.completion d)] := by
  rw [h.owed_eq, filter_fst_of_nodup h.answered_nodup hd]
  simp [completionOf, hlive, hr]

theorem Lawful.owed_of_squashed (h : t.Lawful) (hsquashed : t.squashed n = true) :
    t.owed n = [] := by
  rw [h.owed_eq, List.filterMap_eq_nil_iff]
  intro p hp
  have heq := of_decide_eq_true (List.mem_filter.mp hp).2
  simp [completionOf, heq, hsquashed]

theorem Lawful.owed_of_waiting (h : t.Lawful)
    (hwaits : n ∉ t.answered.map Prod.fst) : t.owed n = [] := by
  have hnone : t.answered.filter (fun p => decide (p.1 = n)) = [] := by
    apply List.filter_eq_nil_iff.mpr
    intro p hp heq
    exact hwaits (List.mem_map.mpr ⟨p, hp, of_decide_eq_true heq⟩)
  rw [h.owed_eq, hnone]
  rfl

/-- The cycle without its response. -/
def LsuPorts.silent (x : LsuPorts) : LsuPorts :=
  { x with response := { x.response with valid := false } }

/-- A response to a squashed load frees the slot and changes nothing else. -/
theorem portStep_of_killed {u : LoadStoreExecutionUnit} {x : LsuPorts}
    (hvalid : x.response.valid = true)
    (hpending : u.responsePending x.toLsuInputs = true)
    (hkilled : u.responseKilled x.toLsuInputs = true) :
    u.portStep x =
      { u.portStep (LsuPorts.silent x) with
        pendingValid := Function.update
          (u.portStep (LsuPorts.silent x)).pendingValid x.response.id false
        pendingKilled := Function.update
          (u.portStep (LsuPorts.silent x)).pendingKilled x.response.id
            false } := by
  have hfire : u.portResponseFire x = true := by
    simp [portResponseFire, portResponseReady, hvalid, hpending, hkilled]
  have hsilent : u.portResponseFire (LsuPorts.silent x) = false := rfl
  have hissue : u.portIssueFire (LsuPorts.silent x) = u.portIssueFire x := by
    have hnone : u.responseCompletes x.toLsuInputs = false := by
      simp [responseCompletes, hkilled]
    have hnone' : u.responseCompletes (LsuPorts.silent x).toLsuInputs =
        false := rfl
    rw [portIssueFire, portIssueFire, portIssueReady, portIssueReady, hnone,
      hnone']
    rfl
  have hstarts : u.portStartsLoad (LsuPorts.silent x) =
      u.portStartsLoad x := by
    rw [portStartsLoad, portStartsLoad, hissue]
    rfl
  have hlocal : u.portCompletesLocally (LsuPorts.silent x) =
      u.portCompletesLocally x := by
    rw [portCompletesLocally, portCompletesLocally, hissue]
    rfl
  have hslot : u.completionSlotReady (LsuPorts.silent x) =
      u.completionSlotReady x := rfl
  -- A load that starts now takes another slot.
  have hne : u.portStartsLoad x = true → x.uop.robTag ≠ x.response.id := by
    intro hstart heq
    have hfree := portStartsLoad_free hstart
    rw [heq] at hfree
    exact Bool.false_ne_true (hfree.symm.trans hpending)
  unfold portStep
  rw [hfire, hsilent, hstarts, hlocal, hslot, hkilled]
  cases hstart : u.portStartsLoad x with
  | false => rfl
  | true =>
      simp only [if_true, Bool.false_eq_true, if_false, Bool.false_and,
        Bool.not_true, Bool.and_false,
        Function.update_comm (hne hstart).symm]
      rfl

/-- In every run whose memory answers each accepted request once: the
completions owed leave the unit once each and in order; a load is owed its own
completion once it is answered, and none if it was squashed while it waited; no
request is offered under the tag of an outstanding one; the response to a
squashed load is consumed at once and only frees its slot; other responses wait
for the completion slot alone, which no local completion takes from them. -/
theorem outstanding_loads {cycles : List LsuCycle} (h : LegalRun cycles) :
    let t := run cycles
    t.due.map Prod.snd = t.delivered ++ shown t.lsu ∧
    (∀ n r, t.accepted[n]? = some r →
      (∀ d, (n, d) ∈ t.answered → t.squashed n = false →
        t.owed n = [(some n, r.completion d)]) ∧
      (n ∉ t.answered.map Prod.fst → t.owed n = []) ∧
      (t.squashed n = true → t.owed n = [])) ∧
    ∀ x, t.Legal x →
      (t.lsu.loadReadValid x.toLsuInputs = true →
        ∀ n r, t.Outstanding n r → r.robTag ≠ x.uop.robTag) ∧
      (x.response.valid = true →
        ((t.step x).squashed x.answers = true →
          t.lsu.portResponseReady x.toLsuPorts = true ∧
          t.lsu.portStep x.toLsuPorts =
            { t.lsu.portStep (LsuPorts.silent x.toLsuPorts) with
              pendingValid := Function.update
                (t.lsu.portStep (LsuPorts.silent x.toLsuPorts)).pendingValid
                  x.response.id false
              pendingKilled := Function.update
                (t.lsu.portStep (LsuPorts.silent x.toLsuPorts)).pendingKilled
                  x.response.id false }) ∧
        ((t.step x).squashed x.answers = false →
          t.lsu.portResponseReady x.toLsuPorts =
            t.lsu.completionSlotReady x.toLsuPorts ∧
          t.lsu.portCompletesLocally x.toLsuPorts = false)) := by
  intro t
  have hlaw : t.Lawful := h.lawful
  refine ⟨hlaw.register, ?_, ?_⟩
  · intro n r hr
    exact ⟨fun d hd hlive => hlaw.owed_of_answered hr hd hlive,
      hlaw.owed_of_waiting, hlaw.owed_of_squashed⟩
  · intro x hlegal
    refine ⟨fun hvalid n r hn => hlaw.request_ne hvalid hn, ?_⟩
    intro hvalid
    obtain ⟨r, hout, hid⟩ := hlegal hvalid
    have hpending : t.lsu.responsePending x.toLsuInputs = true :=
      (hlaw.pending_iff _).mpr ⟨_, r, hout, hid.symm⟩
    have hkilled : t.lsu.responseKilled x.toLsuInputs =
        (t.step x).squashed x.answers := hlaw.responseKilled_eq hout hid
    refine ⟨?_, ?_⟩
    · intro hsquashed
      rw [hsquashed] at hkilled
      refine ⟨?_, portStep_of_killed hvalid hpending hkilled⟩
      simp [portResponseReady, hpending, hkilled]
    · intro hlive
      rw [hlive] at hkilled
      refine ⟨by simp [portResponseReady, hpending, hkilled], ?_⟩
      rw [← Bool.not_eq_true]
      intro hlocal
      have hcompletes : t.lsu.responseCompletes x.toLsuInputs = true := by
        simp [responseCompletes, hvalid, hpending, hkilled]
      rw [(slotReady_of_local hlocal).2] at hcompletes
      cases hcompletes

end Law

section Example

/-- A word load under tag 3 to register 7, its request accepted. -/
def issueCycle : LsuCycle where
  flush := false
  recoverValid := false
  recoverYoungerMask := fun _ => false
  issueValid := true
  uop := { valid := true, robTag := 3, fuClass := .memory, memCtr := .word,
           registerWriteEnable := true, destPhys := 7 }
  sourceA := 16
  sourceB := 0
  orderingReady := true
  forwardValid := false
  forwardData := 0
  memoryRequestReady := true
  response := ⟨false, 0, 0⟩
  completionReady := true
  answers := 0

/-- The memory answers the first request with 5. -/
def answerCycle : LsuCycle :=
  { issueCycle with issueValid := false, response := ⟨true, 3, 5⟩ }

theorem legalRun_answered : LegalRun [issueCycle, answerCycle] := by
  have hissue : LegalRun [issueCycle] :=
    Run.legal_append.mpr ⟨Run.Legal.nil, fun hvalid => by cases hvalid⟩
  refine Run.legal_append.mpr ⟨hissue, fun _ => ?_⟩
  exact ⟨issueCycle.toLsuInputs.request, ⟨rfl, by decide⟩, rfl⟩

theorem outstanding_loads_answered : LegalRun [issueCycle, answerCycle] ∧
    (run [issueCycle, answerCycle]).owed 0 =
      [(some 0, issueCycle.toLsuInputs.request.completion 5)] :=
  ⟨legalRun_answered, ((outstanding_loads legalRun_answered).2.1 0
    issueCycle.toLsuInputs.request rfl).1 5 (by decide) (by decide)⟩

end Example

end LoggedLsu

end OoOCore
