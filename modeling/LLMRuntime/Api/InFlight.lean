import LLMRuntime.Api.Routes
import LLMRuntime.Foundation.Transition
import LLMRuntime.Workers.Manager

namespace LLMRuntime

/-- The caller's side of an accepted request: the handler's coroutine or the generator it returned. -/
inductive Caller where
  | handler (model : String) (point : HandlerPoint)
  | stream (generator : ChatStream)
  deriving DecidableEq, Repr

def Caller.streams : Caller → Bool
  | .handler _ _ => false
  | .stream _ => true

/-- How far the worker has got with a request; `absent` until `submit` has appended it. -/
inductive WorkerPoint where
  | absent
  | queued
  | running (tokens : List String) (batchStart : ℚ)
  | done
  deriving DecidableEq, Repr

structure Accepted where
  item : ScheduledRequest
  caller : Caller
  worker : WorkerPoint
  deriving DecidableEq, Repr

/-- All accepted requests, their callers and the workers, between two steps of the event loop. -/
structure InFlight where
  services : Services
  accepted : List String
  requests : String → Option Accepted

def InFlight.start : InFlight where
  services := {}
  accepted := []
  requests := fun _ => none

/-- `arrive` runs the handler up to `submit`; every other action moves one accepted request. -/
inductive InFlightAction where
  | arrive (requestId : String) (body : ChatCompletionRequest) (admission : AdmissionDecision)
  | enqueue (requestId : String)
  | deliver (requestId : String) (signal : Signal)
  | resume (requestId : String)
  | advance (requestId : String)
  | close (requestId : String)
  | startBatch (requestId : String)
  | generate (requestId token : String)
  | complete (requestId : String)
  | fail (requestId : String) (exc : PyException)

def InFlightAction.requestId : InFlightAction → String
  | .arrive requestId _ _ => requestId
  | .enqueue requestId => requestId
  | .deliver requestId _ => requestId
  | .resume requestId => requestId
  | .advance requestId => requestId
  | .close requestId => requestId
  | .startBatch requestId => requestId
  | .generate requestId _ => requestId
  | .complete requestId => requestId
  | .fail requestId _ => requestId

def InFlightAction.arrivesWith (stream : Bool) : InFlightAction → Bool
  | .arrive _ body _ => body.stream == stream
  | _ => true

namespace Accepted

variable (clock : Clock) (s : Services) (r : Accepted)

/-- `submit` has stamped and appended the item; a handler goes on to wait for its future. -/
def enqueue : Option (Services × Accepted) :=
  match r.worker with
  | .absent =>
    let (enqueuedAt, s) := s.perfCounter clock
    let item := { r.item with request := r.item.request.markEnqueued enqueuedAt }
    let s := s.emit (.requestEnqueued item.request.requestId)
    match r.caller with
    | .handler model _ =>
      let (t0, s) := s.perfCounter clock
      some (s, { item, caller := .handler model (.waiting t0), worker := .queued })
    | .stream generator => some (s, { item, caller := .stream generator, worker := .queued })
  | _ => none

/-- A timeout or a disconnect reaches the waiting handler, which runs again in a later step. -/
def deliver (signal : Signal) : Option (Services × Accepted) :=
  match r.caller with
  | .handler model (.waiting t0) => some (s, { r with caller := .handler model (.signalled t0 signal) })
  | _ => none

def resume (requestTimeoutS : ℚ) : Option (Services × Accepted) :=
  match r.caller, r.item.handle with
  | .handler model point, .completion handle =>
    (resumeHandler clock requestTimeoutS model point s r.item.request handle).map fun result =>
      (result.services,
        { r with item := result.item, caller := .handler model (.responded result.reply) })
  | _, _ => none

def afterStream (moved : Bool × ChatStream × StreamingHandle) : Services × Accepted :=
  let item := { r.item with handle := .streaming moved.2.2 }
  let (s, item) := if moved.1 then cancelStream clock s item else (s, item)
  (s, { r with item, caller := .stream moved.2.1 })

/-- `StreamingResponse` drives the generator, once `submit` has returned. -/
def moveStream (move : ChatStream → StreamingHandle → Option (Bool × ChatStream × StreamingHandle)) :
    Option (Services × Accepted) :=
  match r.worker, r.caller, r.item.handle with
  | .absent, _, _ => none
  | _, .stream generator, .streaming handle =>
    (move generator handle).map fun moved => r.afterStream clock s moved
  | _, _, _ => none

def advance : Option (Services × Accepted) := r.moveStream clock s ChatStream.advance

def close : Option (Services × Accepted) := r.moveStream clock s ChatStream.close

/-- The scheduler hands the item to a worker, which drops it if it is already cancelled. -/
def startBatch : Option (Services × Accepted) :=
  match r.worker with
  | .queued =>
    let (startedAt, s) := s.perfCounter clock
    let item := { r.item with request := r.item.request.markStarted startedAt }
    if item.cancelled then some (s, { r with item, worker := .done })
    else
      let (batchStart, s) := s.perfCounter clock
      some (s, { r with item, worker := .running [] batchStart })
  | _ => none

/-- The body of the worker's event loop for a token of this request. -/
def generate (token : String) : Option (Services × Accepted) :=
  match r.worker with
  | .running tokens batchStart =>
    if r.item.cancelled then some (s, { r with worker := .done })
    else
      let result := deliverToken clock s r.item token
      some (result.services,
        { r with item := result.item, worker := .running (tokens ++ [token]) batchStart })
  | _ => none

/-- The completion event of this request, or the sweep at the end of the iteration. -/
def complete : Option (Services × Accepted) :=
  match r.worker with
  | .running tokens batchStart =>
    let result := completeItem clock s r.item tokens batchStart
    let result :=
      match result.raised with
      | none => result
      | some error => failItem clock result.services result.item error
    some (result.services, { r with item := result.item, worker := .done })
  | _ => none

def fail (exc : PyException) : Option (Services × Accepted) :=
  match r.worker with
  | .running _ _ =>
    let result := failItem clock s r.item exc
    some (result.services, { r with item := result.item, worker := .done })
  | _ => none

end Accepted

namespace InFlight

def act (clock : Clock) (requestTimeoutS : ℚ) (s : Services) (r : Accepted) :
    InFlightAction → Option (Services × Accepted)
  | .arrive _ _ _ => none
  | .enqueue _ => r.enqueue clock s
  | .deliver _ signal => r.deliver s signal
  | .resume _ => r.resume clock s requestTimeoutS
  | .advance _ => r.advance clock s
  | .close _ => r.close clock s
  | .startBatch _ => r.startBatch clock s
  | .generate _ token => r.generate clock s token
  | .complete _ => r.complete clock s
  | .fail _ exc => r.fail clock s exc

/-- The caller that `create_chat_completion` becomes for an accepted body. -/
def callerOf (body : ChatCompletionRequest) (requestId : String) : Caller :=
  if body.stream then .stream { requestId, model := body.model } else .handler body.model .submitting

def step (clock : Clock) (requestTimeoutS : ℚ) (st : InFlight) (action : InFlightAction) : Option InFlight :=
  match action with
  | .arrive requestId body admission =>
    -- `new_request_id` never returns an id twice.
    if requestId ∈ st.accepted then none
    else
      match receiveRequest clock st.services body requestId admission with
      | (services, .error _) => some { st with services }
      | (services, .ok item) => some {
          services
          accepted := st.accepted ++ [requestId]
          requests := Function.update st.requests requestId
            (some { item, caller := callerOf body requestId, worker := .absent }) }
  | action =>
    match st.requests action.requestId with
    | none => none
    | some r =>
      match act clock requestTimeoutS st.services r action with
      | none => none
      | some (services, r) => some { st with
          services, requests := Function.update st.requests action.requestId (some r) }

variable {clock : Clock} {requestTimeoutS : ℚ} {st t : InFlight} {action : InFlightAction}

/-- What one step can do: a body is rejected, a body is accepted, or one accepted request moves. -/
theorem step_cases (taken : step clock requestTimeoutS st action = some t) :
    (∃ requestId body admission services reply, action = .arrive requestId body admission ∧
      receiveRequest clock st.services body requestId admission = (services, .error reply) ∧
      t = { st with services }) ∨
    (∃ requestId body admission services item, action = .arrive requestId body admission ∧
      requestId ∉ st.accepted ∧
      receiveRequest clock st.services body requestId admission = (services, .ok item) ∧
      t = { services, accepted := st.accepted ++ [requestId],
            requests := Function.update st.requests requestId
              (some { item, caller := callerOf body requestId, worker := .absent }) }) ∨
    ∃ r services r', st.requests action.requestId = some r ∧
      act clock requestTimeoutS st.services r action = some (services, r') ∧
      t = { st with services, requests := Function.update st.requests action.requestId (some r') } := by
  have moved : (∀ requestId body admission, action ≠ .arrive requestId body admission) →
      ∃ r services r', st.requests action.requestId = some r ∧
        act clock requestTimeoutS st.services r action = some (services, r') ∧
        t = { st with services, requests := Function.update st.requests action.requestId (some r') } := by
    intro notArrive
    rw [step] at taken
    · split at taken
      · cases taken
      · next r found =>
        split at taken
        · cases taken
        · next services r' acted => exact ⟨r, services, r', found, acted, (Option.some.inj taken).symm⟩
    · exact notArrive
  cases action with
  | arrive requestId body admission =>
    simp only [step] at taken
    split at taken
    · cases taken
    · next fresh =>
      cases received : receiveRequest clock st.services body requestId admission with
      | mk services outcome =>
        rw [received] at taken
        cases outcome with
        | error reply =>
          exact .inl ⟨requestId, body, admission, services, reply, rfl, received, (Option.some.inj taken).symm⟩
        | ok item =>
          exact .inr (.inl ⟨requestId, body, admission, services, item, rfl, fresh, received,
            (Option.some.inj taken).symm⟩)
  | _ => exact .inr (.inr (moved (by simp)))

theorem step_of_act {r : Accepted} {outcome : Services × Accepted}
    (found : st.requests action.requestId = some r)
    (acted : act clock requestTimeoutS st.services r action = some outcome) :
    step clock requestTimeoutS st action = some
      { st with
        services := outcome.1
        requests := Function.update st.requests action.requestId (some outcome.2) } := by
  rw [step]
  · simp only [found, acted]
  · rintro requestId body admission rfl
    cases acted

end InFlight

end LLMRuntime
