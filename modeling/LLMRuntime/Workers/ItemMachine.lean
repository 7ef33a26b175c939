import LLMRuntime.Workers.Manager

namespace LLMRuntime

def Ending.outcome (ending : Ending) (tokens : List String) : Outcome :=
  match ending with
  | .normal => .success tokens.length
  | .raised _ => .failure

namespace ResponseHandle

def deliver (h : ResponseHandle) (token : String) : ResponseHandle :=
  match h with
  | .completion handle => .completion handle
  | .streaming handle => .streaming (handle.put (.token token))

def complete (h : ResponseHandle) (requestId : String) (tokens : List String) : ResponseHandle :=
  match h with
  | .completion handle => .completion { handle with future := .result { requestId, tokens } }
  | .streaming handle => .streaming (handle.put (.completed "stop"))

def fail (h : ResponseHandle) (exc : PyException) : ResponseHandle :=
  match h with
  | .completion handle => .completion { handle with future := .exception exc }
  | .streaming handle => .streaming (handle.put (.error exc.str))

@[simp] theorem cancelled_deliver (h : ResponseHandle) (token : String) :
    (h.deliver token).cancelled = h.cancelled := by
  cases h <;> rfl

@[simp] theorem cancelled_complete (h : ResponseHandle) (requestId : String) (tokens : List String) :
    (h.complete requestId tokens).cancelled = h.cancelled := by
  cases h <;> rfl

@[simp] theorem cancelled_fail (h : ResponseHandle) (exc : PyException) :
    (h.fail exc).cancelled = h.cancelled := by
  cases h <;> rfl

def finish (h : ResponseHandle) (ending : Ending) (requestId : String) (tokens : List String) : ResponseHandle :=
  match ending with
  | .normal => h.complete requestId tokens
  | .raised exc => h.fail exc

/-- Nobody has cancelled or resolved the handle, and `tokens` have been generated for it so far. -/
def Open : ResponseHandle → List String → Prop
  | .completion handle, _ => handle = .create
  | .streaming handle, tokens => handle = { queue := tokens.map .token }

def Withdrawn : ResponseHandle → Prop
  | .completion handle => handle = { future := .cancelled, cancelled := true }
  | .streaming handle => ∃ sent : List String, handle = { queue := sent.map .token, cancelled := true }

inductive Settled : ResponseHandle → Outcome → Prop where
  | result (requestId : String) (tokens : List String) (cancelled : Bool) :
      Settled (.completion { future := .result { requestId, tokens }, cancelled }) (.success tokens.length)
  | exception (error : PyException) (cancelled : Bool) :
      Settled (.completion { future := .exception error, cancelled }) .failure
  | completed (tokens : List String) (cancelled : Bool) :
      Settled (.streaming { queue := tokens.map .token ++ [.completed "stop"], cancelled })
        (.success tokens.length)
  | error (tokens : List String) (message : String) (cancelled : Bool) :
      Settled (.streaming { queue := tokens.map .token ++ [.error message], cancelled }) .failure

/-- The states of a handle that reaches the worker: fresh from the route, or cancelled since. -/
def Fresh (h : ResponseHandle) : Prop := h.Open [] ∨ h.Withdrawn

theorem Open.not_cancelled {h : ResponseHandle} {tokens : List String} (isOpen : h.Open tokens) :
    h.cancelled = false := by
  cases h with
  | completion handle =>
    cases isOpen
    rfl
  | streaming handle =>
    cases isOpen
    rfl

theorem Withdrawn.cancelled {h : ResponseHandle} (withdrawn : h.Withdrawn) : h.cancelled = true := by
  cases h with
  | completion handle =>
    cases withdrawn
    rfl
  | streaming handle =>
    obtain ⟨sent, rfl⟩ := withdrawn
    rfl

theorem Open.cancel {h : ResponseHandle} {tokens : List String} (isOpen : h.Open tokens) :
    h.cancel.Withdrawn := by
  cases h with
  | completion handle =>
    cases isOpen
    rfl
  | streaming handle =>
    cases isOpen
    exact ⟨tokens, rfl⟩

theorem Withdrawn.cancel {h : ResponseHandle} (withdrawn : h.Withdrawn) : h.cancel = h := by
  cases h with
  | completion handle =>
    cases withdrawn
    rfl
  | streaming handle =>
    obtain ⟨sent, rfl⟩ := withdrawn
    rfl

theorem Settled.cancel {h : ResponseHandle} {o : Outcome} (settled : Settled h o) : Settled h.cancel o := by
  cases settled with
  | result requestId tokens cancelled =>
    cases cancelled <;> exact .result requestId tokens true
  | exception error cancelled =>
    cases cancelled <;> exact .exception error true
  | completed tokens cancelled =>
    cases cancelled <;> exact .completed tokens true
  | error tokens message cancelled =>
    cases cancelled <;> exact .error tokens message true

theorem Open.deliver {h : ResponseHandle} {tokens : List String} (isOpen : h.Open tokens) (token : String) :
    (h.deliver token).Open (tokens ++ [token]) := by
  cases h with
  | completion handle => exact isOpen
  | streaming handle =>
    cases isOpen
    simp [ResponseHandle.deliver, Open, StreamingHandle.put]

theorem Open.complete {h : ResponseHandle} {tokens : List String} (isOpen : h.Open tokens) (requestId : String) :
    Settled (h.complete requestId tokens) (.success tokens.length) := by
  cases h with
  | completion handle =>
    cases isOpen
    exact .result requestId tokens false
  | streaming handle =>
    cases isOpen
    exact .completed tokens false

theorem Open.fail {h : ResponseHandle} {tokens : List String} (isOpen : h.Open tokens) (exc : PyException) :
    Settled (h.fail exc) .failure := by
  cases h with
  | completion handle =>
    cases isOpen
    exact .exception exc false
  | streaming handle =>
    cases isOpen
    exact .error tokens exc.str false

theorem Open.finish {h : ResponseHandle} {tokens : List String} (isOpen : h.Open tokens) (ending : Ending)
    (requestId : String) : Settled (h.finish ending requestId tokens) (ending.outcome tokens) := by
  cases ending with
  | normal => exact isOpen.complete requestId
  | raised exc => exact isOpen.fail exc

end ResponseHandle

structure ItemResult.Leaves (r : ItemResult) (s : Services) (item : ScheduledRequest)
    (handle : ResponseHandle) (records : List Outcome) : Prop where
  requestId : r.item.request.requestId = item.request.requestId
  handle : r.item.handle = handle
  raised : r.raised = none
  recorded : s.Records r.services item.request.requestId records
  errors : r.services.invalidStateErrors = s.invalidStateErrors

section Methods

variable (clock : Clock) (s : Services) (item : ScheduledRequest)

theorem completeItem_open (tokens sent : List String) (batchStart : ℚ) (isOpen : item.handle.Open sent) :
    (completeItem clock s item tokens batchStart).Leaves s item
      (item.handle.complete item.request.requestId tokens) [.success tokens.length] := by
  obtain ⟨request, handle⟩ := item
  cases handle with
  | completion handle =>
    cases isOpen
    constructor <;> simp [completeItem, ScheduledRequest.cancelled, ResponseHandle.cancelled,
      recordCompletion, CompletionHandle.create, Future.setResult, Future.isCancelled, Future.done,
      ResponseHandle.complete]
    exact Services.records_recordSuccess _ (by simp) (by simp)
  | streaming handle =>
    cases isOpen
    constructor <;> simp [completeItem, ScheduledRequest.cancelled, ResponseHandle.cancelled,
      recordCompletion, ResponseHandle.complete]
    exact Services.records_recordSuccess _ (by simp) (by simp)

theorem failItem_open (exc : PyException) (sent : List String) (isOpen : item.handle.Open sent) :
    (failItem clock s item exc).Leaves s item (item.handle.fail exc) [.failure] := by
  obtain ⟨request, handle⟩ := item
  cases handle with
  | completion handle =>
    cases isOpen
    constructor <;> simp [failItem, ScheduledRequest.cancelled, ResponseHandle.cancelled,
      CompletionHandle.create, Future.setException, Future.isCancelled, Future.done, ResponseHandle.fail]
  | streaming handle =>
    cases isOpen
    constructor <;> simp [failItem, ScheduledRequest.cancelled, ResponseHandle.cancelled,
      ResponseHandle.fail]

theorem deliverToken_leaves (token : String) :
    (deliverToken clock s item token).Leaves s item (item.handle.deliver token) [] := by
  obtain ⟨request, handle⟩ := item
  cases handle <;> cases missing : request.firstTokenAt <;>
    constructor <;> simp [deliverToken, missing, ResponseHandle.deliver]

end Methods

/-- One item of a batch as its caller and the metrics see it, clock readings left out. -/
structure ItemView where
  handle : ResponseHandle
  tokens : List String := []
  pending : Bool := true
  records : List Outcome := []

namespace ItemView

variable (requestId : String)

def event (v : ItemView) : BatchEvent → ItemView
  | .token _ token => { v with tokens := v.tokens ++ [token], handle := v.handle.deliver token }
  | .completed _ =>
    { v with
      handle := v.handle.complete requestId v.tokens, pending := false
      records := v.records ++ [.success v.tokens.length] }

def step (v : ItemView) : BatchAction → ItemView
  | .cancel _ => { v with handle := v.handle.cancel }
  | .event yielded =>
    if v.pending = false then v
    else if v.handle.cancelled then { v with pending := false }
    else v.event requestId yielded

def finish (v : ItemView) (ending : Ending) : ItemView :=
  if v.pending && !v.handle.cancelled then
    { v with
      handle := v.handle.finish ending requestId v.tokens
      records := v.records ++ [ending.outcome v.tokens] }
  else v

def run (v : ItemView) (actions : List BatchAction) (ending : Ending) : ItemView :=
  (actions.foldl (step requestId) v).finish requestId ending

end ItemView

/-- The three situations an item can be in, from its first event to the end of its batch. -/
inductive ItemView.Phase : ItemView → Prop where
  | waiting {v : ItemView} (pending : v.pending = true) (isOpen : v.handle.Open v.tokens)
      (unrecorded : v.records = []) : Phase v
  | withdrawn {v : ItemView} (withdrawn : v.handle.Withdrawn) (unrecorded : v.records = []) : Phase v
  | settled {v : ItemView} (o : Outcome) (done : v.pending = false) (settled : v.handle.Settled o)
      (recorded : v.records = [o]) : Phase v

namespace ItemView

variable {requestId : String}

theorem Phase.step {v : ItemView} (phase : v.Phase) (action : BatchAction) :
    (v.step requestId action).Phase := by
  cases action with
  | cancel target =>
    cases phase with
    | waiting pending isOpen unrecorded => exact .withdrawn isOpen.cancel unrecorded
    | withdrawn withdrawn unrecorded =>
      have same : v.handle.cancel = v.handle := withdrawn.cancel
      exact .withdrawn (by simp only [ItemView.step, same]; exact withdrawn) unrecorded
    | settled o done settled recorded => exact .settled o done settled.cancel recorded
  | event yielded =>
    cases phase with
    | waiting pending isOpen unrecorded =>
      simp only [ItemView.step, pending, isOpen.not_cancelled, Bool.true_eq_false, Bool.false_eq_true, if_false]
      cases yielded with
      | token target token => exact .waiting pending (isOpen.deliver token) unrecorded
      | completed target =>
        exact .settled _ rfl (isOpen.complete requestId) (by simp [ItemView.event, unrecorded])
    | withdrawn withdrawn unrecorded =>
      simp only [ItemView.step, withdrawn.cancelled, if_true]
      split
      · exact .withdrawn withdrawn unrecorded
      · exact .withdrawn withdrawn unrecorded
    | settled o done settled recorded =>
      simp only [ItemView.step, done, if_true]
      exact .settled o done settled recorded

theorem Phase.steps {v : ItemView} (phase : v.Phase) (actions : List BatchAction) :
    (actions.foldl (ItemView.step requestId) v).Phase := by
  induction actions generalizing v with
  | nil => exact phase
  | cons action actions ih => exact ih (phase.step action)

theorem Phase.open_of_live {v : ItemView} (phase : v.Phase) (pending : v.pending = true)
    (live : v.handle.cancelled = false) : v.handle.Open v.tokens := by
  cases phase with
  | waiting _ isOpen _ => exact isOpen
  | withdrawn withdrawn _ =>
    rw [withdrawn.cancelled] at live
    contradiction
  | settled o done _ _ =>
    rw [pending] at done
    contradiction

/-- An item that is still pending has no record, so its tokens and its handle are all there is to it. -/
theorem Phase.again {v : ItemView} (phase : v.Phase) (pending : v.pending = true) :
    ItemView.Phase { handle := v.handle, tokens := v.tokens } := by
  cases phase with
  | waiting _ isOpen _ => exact .waiting rfl isOpen rfl
  | withdrawn withdrawn _ => exact .withdrawn withdrawn rfl
  | settled o done _ _ =>
    rw [pending] at done
    cases done

theorem event_cancelled (v : ItemView) (requestId : String) (event : BatchEvent) :
    (v.step requestId (.event event)).handle.cancelled = v.handle.cancelled := by
  simp only [ItemView.step]
  split
  · rfl
  · split
    · rfl
    · cases event with
      | token _ text => exact v.handle.cancelled_deliver text
      | completed _ => exact v.handle.cancelled_complete requestId v.tokens

theorem finish_cancelled (v : ItemView) (requestId : String) (ending : Ending) :
    (v.finish requestId ending).handle.cancelled = v.handle.cancelled := by
  unfold ItemView.finish
  split
  · cases ending with
    | normal => exact v.handle.cancelled_complete requestId v.tokens
    | raised exc => exact v.handle.cancelled_fail exc
  · rfl

theorem Phase.finish {v : ItemView} (phase : v.Phase) (ending : Ending) :
    (∃ o, (v.finish requestId ending).handle.Settled o ∧ (v.finish requestId ending).records = [o]) ∨
      ((v.finish requestId ending).handle.Withdrawn ∧ (v.finish requestId ending).records = []) := by
  cases phase with
  | waiting pending isOpen unrecorded =>
    refine .inl ⟨ending.outcome v.tokens, ?_, ?_⟩
    · simpa [ItemView.finish, pending, isOpen.not_cancelled] using isOpen.finish ending requestId
    · simp [ItemView.finish, pending, isOpen.not_cancelled, unrecorded]
  | withdrawn withdrawn unrecorded =>
    exact .inr (by simp [ItemView.finish, withdrawn.cancelled, withdrawn, unrecorded])
  | settled o done settled recorded =>
    exact .inl ⟨o, by simpa [ItemView.finish, done] using ⟨settled, recorded⟩⟩

end ItemView

end LLMRuntime
