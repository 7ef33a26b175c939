import LLMRuntime.Api.InFlight
import LLMRuntime.Api.QueueCap

namespace LLMRuntime

/-- The serving side in one state: admission, the accepted requests with their callers, and the scheduler. -/
structure Traffic (σ : Type) where
  admission : AdmissionController
  inFlight : InFlight
  scheduler : σ

/-- Each step of a party brings the clock readings it takes. `arrive` is `create_chat_completion` up to the
    first suspension of its `submit`; `now` is what `_refill_locked` reads. -/
inductive TrafficAction (n : Nat) (α : Type) where
  | arrive (clock : Clock) (requestId : String) (body : ChatCompletionRequest) (now : ℚ)
      (wakes : Option (Fin n))
  | serve (clock : Clock) (action : InFlightAction)
  | schedule (action : α)

def TrafficAction.arrivalTime? {n : Nat} {α : Type} : TrafficAction n α → Option ℚ
  | .arrive _ _ _ now _ => some now
  | _ => none

def InFlightAction.isArrival : InFlightAction → Bool
  | .arrive _ _ _ => true
  | _ => false

/-- The next reading is the first of the clock that the step brings. -/
def Services.rewind (s : Services) : Services := { s with ticks := 0 }

def InFlight.rewind (st : InFlight) : InFlight := { st with services := st.services.rewind }

namespace Traffic

variable {n : Nat} {σ α : Type} (system : SchedulerSystem n σ α) (requestTimeoutS : ℚ)

def admits (st : Traffic σ) (now : ℚ) : AdmissionDecision × AdmissionController :=
  st.admission.admitRequest (system.size st.scheduler) now

def step (st : Traffic σ) : TrafficAction n α → Option (Traffic σ)
  | .arrive clock requestId body now wakes =>
    let answer := st.admits system now
    (st.inFlight.rewind.step clock requestTimeoutS (.arrive requestId body answer.1)).bind fun inFlight =>
      if answer.1.accepted then
        let item := ScheduledRequest.ofBody body requestId (clock.reading 0)
        (system.step st.scheduler (system.submit item wakes)).map fun scheduler =>
          { admission := answer.2, inFlight, scheduler }
      else some { st with admission := answer.2, inFlight }
  | .serve clock action =>
    if action.isArrival then none
    else (st.inFlight.rewind.step clock requestTimeoutS action).map fun inFlight => { st with inFlight }
  | .schedule action =>
    if system.isSubmit action then none
    else (system.step st.scheduler action).map fun scheduler => { st with scheduler }

def decision (st : Traffic σ) : TrafficAction n α → Option (String × AdmissionDecision)
  | .arrive _ requestId _ now _ => some (requestId, (st.admits system now).1)
  | _ => none

def rejects (st : Traffic σ) (action : TrafficAction n α) : Bool :=
  match st.decision system action with
  | some (_, answer) => !answer.accepted
  | none => false

def decisions (st : Traffic σ) (acts : List (TrafficAction n α)) : List (String × AdmissionDecision) :=
  Transition.observe (step system requestTimeoutS) (decision system) st acts

def withoutRejected (st : Traffic σ) (acts : List (TrafficAction n α)) : List (TrafficAction n α) :=
  Transition.purge (step system requestTimeoutS) (rejects system) st acts

end Traffic

end LLMRuntime
