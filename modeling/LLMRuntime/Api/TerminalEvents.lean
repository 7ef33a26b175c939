import LLMRuntime.Api.Accounting

namespace LLMRuntime

open Transition

def LogEvent.ends? : LogEvent → Option String
  | .requestCompleted requestId _ _ => some requestId
  | .requestFailed requestId _ => some requestId
  | _ => none

namespace Services

def terminalEvents (s : Services) (requestId : String) : Nat :=
  s.log.countP fun event => event.ends? = some requestId

/-- How many terminal events a request has in the log beyond its terminal records. -/
def surplus (s : Services) (requestId : String) : Int :=
  s.terminalEvents requestId - (s.recordsOf requestId).length

variable (clock : Clock) (s : Services) (request : RuntimeRequest) (id : String)

@[simp] theorem surplus_perfCounter : (s.perfCounter clock).2.surplus id = s.surplus id := rfl

@[simp] theorem surplus_recordRequest : s.recordRequest.surplus id = s.surplus id := rfl

@[simp] theorem surplus_recordRejection (priority : Int) (reason : String) :
    (s.recordRejection priority reason).surplus id = s.surplus id := rfl

@[simp] theorem surplus_raiseInvalidState : s.raiseInvalidState.surplus id = s.surplus id := rfl

@[simp] theorem surplus_emit (event : LogEvent) :
    (s.emit event).surplus id = s.surplus id + if event.ends? = some id then 1 else 0 := by
  simp only [surplus, terminalEvents, emit, recordsOf, List.countP_append, List.countP_singleton,
    decide_eq_true_eq]
  split <;> push_cast <;> ring

theorem length_recordsOf_append {t : Services} {o : Outcome}
    (terminal : t.terminal = s.terminal ++ [(request.requestId, o)]) :
    (t.recordsOf id).length = (s.recordsOf id).length + if request.requestId = id then 1 else 0 := by
  by_cases same : request.requestId = id <;> simp [recordsOf, terminal, List.filter_append, same]

@[simp] theorem surplus_recordSuccess (n : Nat) :
    (s.recordSuccess request n).surplus id = s.surplus id - if request.requestId = id then 1 else 0 := by
  have grown := length_recordsOf_append s request id (recordSuccess_terminal s request n)
  rw [surplus, grown, surplus]
  push_cast
  simp only [terminalEvents, recordSuccess]
  ring

@[simp] theorem surplus_recordFailure :
    (s.recordFailure clock request).2.surplus id = s.surplus id - if request.requestId = id then 1 else 0 := by
  have grown := length_recordsOf_append s request id (recordFailure_terminal clock s request)
  rw [surplus, grown, surplus]
  push_cast
  simp only [terminalEvents, recordFailure, perfCounter]
  ring

end Services

section Operations

variable (clock : Clock) (s : Services) (item : ScheduledRequest) (id : String)

theorem recordCompletion_surplus (tokens : List String) (elapsedMs : ℚ) :
    (recordCompletion s item tokens elapsedMs).services.surplus id = s.surplus id := by
  simp [recordCompletion, LogEvent.ends?]

theorem completeItem_surplus (tokens : List String) (batchStart : ℚ) :
    (completeItem clock s item tokens batchStart).services.surplus id = s.surplus id := by
  unfold completeItem
  split
  · rfl
  · dsimp only
    split
    · split
      · rw [recordCompletion_surplus]
        simp
      · split
        · rw [recordCompletion_surplus]
          simp
        · simp
    · split
      · simp
      · rw [recordCompletion_surplus]
        simp

theorem failItem_surplus (exc : PyException) :
    (failItem clock s item exc).services.surplus id = s.surplus id := by
  unfold failItem
  split
  · rfl
  · dsimp only
    split
    · split
      · simp [LogEvent.ends?]
      · split <;> simp [LogEvent.ends?]
    · simp [LogEvent.ends?]

theorem deliverToken_surplus (token : String) :
    (deliverToken clock s item token).services.surplus id = s.surplus id := by
  unfold deliverToken
  cases item.handle <;> cases item.request.firstTokenAt <;> simp

theorem giveUp_surplus (request : RuntimeRequest) (handle : CompletionHandle) (error : String) (reply : Reply) :
    (giveUp clock s request handle error reply).services.surplus id = s.surplus id := by
  simp [giveUp, LogEvent.ends?]

theorem cancelStream_surplus : (cancelStream clock s item).1.surplus id = s.surplus id := by
  simp [cancelStream, LogEvent.ends?]

end Operations

namespace Accepted

def answered (r : Accepted) : Bool :=
  match r.item.handle with
  | .completion handle => handle.future.done
  | .streaming _ => false

variable {clock : Clock} {s s' : Services} {r r' : Accepted} {requestTimeoutS : ℚ}

theorem answered_of_answersLate (late : r.answersLate = true) : r.answered = true := by
  obtain ⟨⟨request, handle⟩, caller, worker⟩ := r
  unfold answersLate at late
  unfold answered
  dsimp only at late ⊢
  split at late
  · exact late
  · dsimp only
    split at late
    · next exc failed => rw [failed]; rfl
    · cases late
  · cases late

/-- A handler that runs again logs what the worker has not logged, if it gives up, and else logs it again. -/
theorem resume_surplus (taken : r.resume clock s requestTimeoutS = some (s', r')) (id : String) :
    ((r.answered = false ∨ r.answersLate = true) → s'.surplus id = s.surplus id) ∧
      (∀ handle, r.item.handle = .completion handle → handle.future.isCancelled = false → r.answered = true →
        r.answersLate = false →
        s'.surplus id = s.surplus id + if r.item.request.requestId = id then 1 else 0) := by
  obtain ⟨⟨request, handle⟩, caller, worker⟩ := r
  cases caller with
  | stream generator => cases handle <;> cases taken
  | handler model point =>
    cases handle with
    | streaming handle => cases taken
    | completion handle =>
      obtain ⟨result, resumed, same⟩ := Option.map_eq_some_iff.mp taken
      obtain ⟨rfl, rfl⟩ := Prod.mk.inj same
      cases point with
      | submitting => cases resumed
      | responded reply => cases resumed
      | signalled t0 signal =>
        have gaveUp : result.services.surplus id = s.surplus id := by
          cases signal <;> cases resumed <;> exact giveUp_surplus clock s id request handle _ _
        refine ⟨fun _ => gaveUp, fun other same _ done inTime => ?_⟩
        have late : handle.future.done = false := inTime
        have resolved : handle.future.done = true := done
        rw [late] at resolved
        cases resolved
      | waiting t0 =>
        obtain ⟨future, flag⟩ := handle
        cases future with
        | pending => cases resumed
        | cancelled =>
          cases resumed
          refine ⟨fun _ => giveUp_surplus clock s id request _ _ _, fun other same live => ?_⟩
          cases same
          cases live
        | result value =>
          cases resumed
          refine ⟨fun either => ?_, fun _ _ _ _ _ => by simp [successBranch, LogEvent.ends?]⟩
          rcases either with unanswered | late
          · cases unanswered
          · cases late
        | exception exc =>
          simp only [resumeHandler] at resumed
          cases timedOut : exc.isTimeoutError with
          | true =>
            rw [timedOut] at resumed
            cases resumed
            refine ⟨fun _ => giveUp_surplus clock s id request _ _ _, fun _ _ _ _ inTime => ?_⟩
            have ordinary : exc.isTimeoutError = false := inTime
            rw [timedOut] at ordinary
            cases ordinary
          | false =>
            rw [timedOut] at resumed
            cases resumed
            refine ⟨fun either => ?_, fun _ _ _ _ _ => by simp [errorBranch, LogEvent.ends?]⟩
            rcases either with unanswered | late
            · cases unanswered
            · have timeout : exc.isTimeoutError = true := late
              rw [timedOut] at timeout
              cases timeout

theorem afterStream_surplus (clock : Clock) (s : Services) (r : Accepted) (moved : Bool × ChatStream × StreamingHandle)
    (id : String) : (r.afterStream clock s moved).1.surplus id = s.surplus id := by
  obtain ⟨fires, generator, handle⟩ := moved
  cases fires with
  | true => exact cancelStream_surplus clock s _ id
  | false => rfl

theorem moveStream_surplus {move : ChatStream → StreamingHandle → Option (Bool × ChatStream × StreamingHandle)}
    (taken : r.moveStream clock s move = some (s', r')) (id : String) : s'.surplus id = s.surplus id := by
  obtain ⟨-, generator, handle, moved, -, -, -, left⟩ := moveStream_some taken
  have kept := afterStream_surplus clock s r moved id
  rwa [left] at kept

theorem act_surplus {action : InFlightAction}
    (taken : InFlight.act clock requestTimeoutS s r action = some (s', r'))
    (unanswered : ∀ requestId, action = .resume requestId → r.answered = false) (id : String) :
    s'.surplus id = s.surplus id := by
  cases action with
  | arrive requestId body admission => cases taken
  | resume requestId => exact (resume_surplus taken id).1 (.inl (unanswered requestId rfl))
  | advance requestId => exact moveStream_surplus taken id
  | close requestId => exact moveStream_surplus taken id
  | enqueue requestId =>
    simp only [InFlight.act, Accepted.enqueue] at taken
    split at taken
    · split at taken <;> cases taken <;> simp [LogEvent.ends?]
    · cases taken
  | deliver requestId signal =>
    simp only [InFlight.act, Accepted.deliver] at taken
    split at taken <;> cases taken
    rfl
  | startBatch requestId =>
    simp only [InFlight.act, Accepted.startBatch] at taken
    split at taken
    · split at taken <;> cases taken <;> simp
    · cases taken
  | generate requestId token =>
    simp only [InFlight.act, Accepted.generate] at taken
    split at taken
    · split at taken <;> cases taken
      · rfl
      · exact deliverToken_surplus clock s r.item id token
    · cases taken
  | complete requestId =>
    simp only [InFlight.act, Accepted.complete] at taken
    split at taken
    · cases taken
      split
      · exact completeItem_surplus clock s r.item id _ _
      · rw [failItem_surplus]
        exact completeItem_surplus clock s r.item id _ _
    · cases taken
  | fail requestId exc =>
    simp only [InFlight.act, Accepted.fail] at taken
    split at taken
    · cases taken
      exact failItem_surplus clock s r.item id exc
    · cases taken

theorem resume_responded (taken : r.resume clock s requestTimeoutS = some (s', r')) :
    r'.worker = r.worker ∧ ∃ model reply, r'.caller = .handler model (.responded reply) := by
  simp only [Accepted.resume] at taken
  split at taken
  · obtain ⟨result, -, same⟩ := Option.map_eq_some_iff.mp taken
    cases same
    exact ⟨rfl, _, _, rfl⟩
  · cases taken

variable {records : List Outcome}

/-- Only the worker answers: it is done with a request whose handler finds its future resolved. -/
theorem Sound.answered_cases (sound : r.Sound records) (answered : r.answered = true)
    (taken : r.resume clock s requestTimeoutS = some (s', r')) :
    r.worker = .done ∧ ∃ handle, r.item.handle = .completion handle ∧ handle.future.isCancelled = false := by
  obtain ⟨⟨request, handle⟩, caller, worker⟩ := r
  cases handle with
  | streaming handle => cases answered
  | completion handle =>
    cases sound with
    | unanswered sent isOpen unfinished asking =>
      cases isOpen
      cases answered
    | received o generator streams point same finished => cases same
    | withdrawn withdrawn submitted gone =>
      cases caller with
      | stream generator => cases taken
      | handler model point =>
        obtain ⟨reply, rfl⟩ := gone
        cases taken
    | answered o signal settled live finished listening =>
      refine ⟨finished, handle, rfl, ?_⟩
      cases settled <;> rfl

theorem Sound.absent (sound : r.Sound records) (absent : r.worker = .absent) : records = [] := by
  cases sound with
  | unanswered sent isOpen unfinished asking => rfl
  | answered o signal settled live finished listening => cases absent.symm.trans finished
  | received o generator streams taken handle finished => cases absent.symm.trans finished
  | withdrawn withdrawn submitted gone => exact absurd absent submitted

theorem Sound.close_done (sound : r.Sound records) (late : r.closesLate = true)
    (taken : r.close clock s = some (s', r')) : r'.Done := by
  obtain ⟨-, generator, handle, moved, streams, isStream, closed, left⟩ := moveStream_some taken
  obtain ⟨⟨request, handle'⟩, caller, worker⟩ := r
  cases streams
  cases isStream
  simp only [closesLate, Bool.and_eq_true, Bool.or_eq_true, decide_eq_true_eq] at late
  obtain ⟨suspended, ended⟩ := late
  have finished : worker = .done := by
    cases sound with
    | unanswered sent isOpen unfinished asking =>
      cases isOpen
      simp [StreamEvent.isTerminal] at ended
    | answered o signal settled live finished listening => exact finished
    | received o generator streams point emptied finished => exact finished
    | withdrawn withdrawn submitted gone =>
      have gone : generator.point = .finished := gone
      simp [gone] at suspended
  have leaves : moved.2.1.point = .finished := by
    rcases suspended with point | point <;> simp only [ChatStream.close, point] at closed <;> cases closed <;> rfl
  cases left
  exact ⟨finished, leaves⟩

end Accepted

namespace InFlight

variable {clock : Clock} {requestTimeoutS : ℚ} {st t : InFlight} {action : InFlightAction}

/-- Once the route and the worker are done with a request, its end is in the log exactly once. -/
def OneTerminalEvent (st : InFlight) : Prop :=
  ∀ id r, st.requests id = some r → r.Done → st.services.terminalEvents id = 1

/-- No handler runs again once its future is resolved, and no generator is closed, once it has started,
    while its terminal event waits in its queue. -/
def EndsUnanswered (st : InFlight) (action : InFlightAction) : Prop :=
  (∀ requestId r, action = .resume requestId → st.requests requestId = some r → r.answered = false) ∧
    st.ClosesInTime action

/-- Nothing is in the log twice, and nothing is recorded that is not in the log. -/
structure Logged (st : InFlight) : Prop where
  inv : st.Inv
  even : ∀ id, st.services.surplus id = 0

theorem terminalEvents_eq (s : Services) (id : String) :
    (s.terminalEvents id : Int) = s.surplus id + (s.recordsOf id).length := by
  rw [Services.surplus]
  ring

theorem Logged.oneTerminalEvent (logged : st.Logged) : st.OneTerminalEvent := by
  intro id r found done
  have recorded := (logged.inv.sound id r found).2.length_of_done done
  have events := terminalEvents_eq st.services id
  rw [logged.even, recorded] at events
  exact_mod_cast events

theorem EndsUnanswered.inTime (ends : st.EndsUnanswered action) {r : Accepted}
    (found : st.requests action.requestId = some r) : r.late action = false := by
  cases action with
  | resume requestId =>
    by_contra late
    have answered := Accepted.answered_of_answersLate (Bool.not_eq_false _ ▸ late)
    rw [ends.1 requestId r rfl found] at answered
    cases answered
  | close requestId => exact ends.2 requestId r rfl found
  | _ => rfl

theorem receiveRequest_surplus (clock : Clock) (s : Services) (body : ChatCompletionRequest) (requestId : String)
    (admission : AdmissionDecision) (id : String) :
    (receiveRequest clock s body requestId admission).1.surplus id = s.surplus id := by
  unfold receiveRequest
  cases admission.accepted <;> simp [LogEvent.ends?]

theorem Logged.step (logged : st.Logged) (ends : st.EndsUnanswered action)
    (taken : st.step clock requestTimeoutS action = some t) : t.Logged := by
  refine ⟨logged.inv.step taken fun r found => ends.inTime found, fun id => ?_⟩
  rcases step_cases taken with ⟨requestId, body, admission, services, reply, -, received, rfl⟩ |
    ⟨requestId, body, admission, services, item, -, fresh, received, rfl⟩ | ⟨r, services, r', found, acted, rfl⟩
  · have kept := receiveRequest_surplus clock st.services body requestId admission id
    rw [received, logged.even] at kept
    exact kept
  · have kept := receiveRequest_surplus clock st.services body requestId admission id
    rw [received, logged.even] at kept
    exact kept
  · have kept := Accepted.act_surplus acted (fun requestId resumes => ends.1 requestId r resumes (by
      rw [← found, resumes]; rfl)) id
    rw [logged.even] at kept
    exact kept

theorem logged_twice {services : Services} {id : String} {r' : Accepted} (done : r'.Done)
    (surplus : Int) (excess : services.surplus id = surplus) (length : Nat)
    (records : (services.recordsOf id).length = length) (two : surplus + length = 2) :
    ¬ OneTerminalEvent { st with services, requests := Function.update st.requests id (some r') } := by
  intro law
  have once := law id r' (Function.update_self ..) done
  have events := terminalEvents_eq services id
  rw [excess, records, two, once] at events
  cases events

theorem Logged.resume_broken (logged : st.Logged) {requestId : String} {r : Accepted}
    (found : st.requests requestId = some r) (answered : r.answered = true)
    (taken : st.step clock requestTimeoutS (.resume requestId) = some t) : ¬ t.OneTerminalEvent := by
  rcases step_cases taken with ⟨_, _, _, _, _, isArrive, -⟩ | ⟨_, _, _, _, _, isArrive, -⟩ |
    ⟨same, services, r', found', acted, rfl⟩
  · cases isArrive
  · cases isArrive
  · cases found.symm.trans found'
    obtain ⟨named, sound⟩ := logged.inv.sound requestId r found
    obtain ⟨finished, handle, completion, live⟩ := sound.answered_cases answered acted
    obtain ⟨sameWorker, model, reply, responded⟩ := Accepted.resume_responded acted
    have done : r'.Done := ⟨sameWorker.trans finished, by rw [responded]; exact ⟨reply, rfl⟩⟩
    obtain ⟨gaveUp, echoed⟩ := Accepted.resume_surplus acted requestId
    cases lateness : r.answersLate with
    | true =>
      obtain ⟨⟨o, once⟩, recorded⟩ := sound.resume_late acted lateness
      have records := recorded.recordsOf requestId
      rw [named, if_pos rfl, once] at records
      have excess := gaveUp (.inr lateness)
      rw [logged.even] at excess
      exact logged_twice done 0 excess 2 (congrArg List.length records) rfl
    | false =>
      obtain ⟨-, new, recorded, soundAfter⟩ := sound.resume acted lateness
      have records := recorded.recordsOf requestId
      rw [named, if_pos rfl] at records
      have excess := echoed handle completion live answered lateness
      rw [logged.even, if_pos named] at excess
      exact logged_twice done 1 excess 1
        ((congrArg List.length records).trans (soundAfter.length_of_done done)) rfl

theorem Logged.close_broken (logged : st.Logged) {requestId : String} {r : Accepted}
    (found : st.requests requestId = some r) (late : r.closesLate = true)
    (taken : st.step clock requestTimeoutS (.close requestId) = some t) : ¬ t.OneTerminalEvent := by
  rcases step_cases taken with ⟨_, _, _, _, _, isArrive, -⟩ | ⟨_, _, _, _, _, isArrive, -⟩ |
    ⟨same, services, r', found', acted, rfl⟩
  · cases isArrive
  · cases isArrive
  · cases found.symm.trans found'
    obtain ⟨named, sound⟩ := logged.inv.sound requestId r found
    obtain ⟨⟨o, once⟩, recorded⟩ := sound.close_late acted late
    have records := recorded.recordsOf requestId
    rw [named, if_pos rfl, once] at records
    have excess := Accepted.act_surplus acted (fun _ resumes => nomatch resumes) requestId
    rw [logged.even] at excess
    exact logged_twice (sound.close_done late acted) 0 excess 2 (congrArg List.length records) rfl

theorem Logged.broken (logged : st.Logged) (broken : ¬ st.EndsUnanswered action)
    (taken : st.step clock requestTimeoutS action = some t) : ¬ t.OneTerminalEvent := by
  simp only [EndsUnanswered, ClosesInTime, not_and_or, not_forall, Bool.not_eq_false] at broken
  rcases broken with ⟨requestId, r, rfl, found, answered⟩ | ⟨requestId, r, rfl, found, late⟩
  · exact logged.resume_broken found answered taken
  · exact logged.close_broken found late taken

theorem Logged.terminalEvents_absent (logged : st.Logged) {id : String} {r : Accepted}
    (found : st.requests id = some r) (absent : r.worker = .absent) : st.services.terminalEvents id = 0 := by
  have none : st.services.recordsOf id = [] := (logged.inv.sound id r found).2.absent absent
  have events := terminalEvents_eq st.services id
  rw [logged.even, none] at events
  exact_mod_cast events

end InFlight

/-- The requests in flight, and those whose route has been cancelled inside `await scheduler.submit`. -/
structure Routed where
  inFlight : InFlight
  interrupted : List String

inductive RoutedAction where
  | move (action : InFlightAction)
  | interrupt (requestId : String)

namespace Routed

def start : Routed where
  inFlight := .start
  interrupted := []

/-- `interrupt` is a disconnect that raises `CancelledError` out of the wait for the lock in `submit`: nothing has been
    appended, and neither branch of the route catches it there. -/
def step (clock : Clock) (requestTimeoutS : ℚ) (st : Routed) : RoutedAction → Option Routed
  | .move action =>
    if action.requestId ∈ st.interrupted then none
    else (st.inFlight.step clock requestTimeoutS action).map fun inFlight => { st with inFlight }
  | .interrupt requestId =>
    match st.inFlight.requests requestId with
    | none => none
    | some r =>
      if r.worker = .absent ∧ requestId ∉ st.interrupted then
        some { st with interrupted := requestId :: st.interrupted }
      else none

variable {clock : Clock} {requestTimeoutS : ℚ} {st t : Routed}

/-- Once the route and the worker are done with a request, its end is in the log exactly once. No worker ever has a
    request whose route was cancelled in `submit`. -/
def OneTerminalEvent (st : Routed) : Prop :=
  ∀ id r, st.inFlight.requests id = some r → r.Done ∨ id ∈ st.interrupted →
    st.inFlight.services.terminalEvents id = 1

/-- No handler runs again once its future is resolved, no generator is closed, once it has started, while its terminal
    event waits in its queue, and no route is cancelled in `submit`. -/
def EndsUnanswered (st : Routed) : RoutedAction → Prop
  | .move action => st.inFlight.EndsUnanswered action
  | .interrupt _ => False

theorem OneTerminalEvent.inFlight (law : st.OneTerminalEvent) : st.inFlight.OneTerminalEvent :=
  fun id r found done => law id r found (.inl done)

theorem step_move {action : InFlightAction} (taken : st.step clock requestTimeoutS (.move action) = some t) :
    st.inFlight.step clock requestTimeoutS action = some t.inFlight ∧ t.interrupted = st.interrupted := by
  simp only [step] at taken
  split at taken
  · cases taken
  · obtain ⟨inFlight, moved, rfl⟩ := Option.map_eq_some_iff.mp taken
    exact ⟨moved, rfl⟩

theorem step_interrupt {requestId : String} (taken : st.step clock requestTimeoutS (.interrupt requestId) = some t) :
    ∃ r, st.inFlight.requests requestId = some r ∧ r.worker = .absent ∧
      t = { st with interrupted := requestId :: st.interrupted } := by
  simp only [step] at taken
  split at taken
  · cases taken
  · next r found =>
    split at taken
    · next waits =>
      cases taken
      exact ⟨r, found, waits.1, rfl⟩
    · cases taken

/-- The log holds one terminal event of every finished request as long as, and only as long as, no handler
    runs again after the worker has answered it, no generator is closed over an undelivered end and no disconnect
    reaches a route in `submit`. -/
theorem one_terminal_event (clock : Clock) (requestTimeoutS : ℚ) (actions : List RoutedAction) :
    Throughout (step clock requestTimeoutS) OneTerminalEvent start actions ↔
      Guarded (step clock requestTimeoutS) EndsUnanswered start actions := by
  have always : ∀ action ∈ actions, (fun _ : RoutedAction => True) action := fun _ _ => trivial
  apply throughout_iff_guarded (I := fun st : Routed => st.inFlight.Logged ∧ st.interrupted = []) ?_ ?_ ?_
    ⟨⟨InFlight.start_inv, fun _ => rfl⟩, rfl⟩ always
  · rintro st ⟨logged, nobody⟩ id r found (done | interrupted)
    · exact logged.oneTerminalEvent id r found done
    · rw [nobody] at interrupted
      cases interrupted
  · rintro st (action | requestId) t ⟨logged, nobody⟩ - ends taken
    · obtain ⟨moved, same⟩ := step_move taken
      exact ⟨logged.step ends moved, same.trans nobody⟩
    · cases ends
  · rintro st (action | requestId) t ⟨logged, nobody⟩ - broken taken law
    · exact logged.broken broken (step_move taken).1 law.inFlight
    · obtain ⟨r, found, absent, rfl⟩ := step_interrupt taken
      have once : st.inFlight.services.terminalEvents requestId = 1 :=
        law requestId r found (.inr List.mem_cons_self)
      rw [logged.terminalEvents_absent found absent] at once
      cases once

def servedRequest : List RoutedAction :=
  [.move (.arrive "plain" { messages := [] } { accepted := true }), .move (.enqueue "plain"),
    .move (.startBatch "plain"), .move (.generate "plain" "x"), .move (.complete "plain"), .move (.resume "plain")]

def answers : Caller → Bool
  | .handler _ (.responded _) => true
  | _ => false

theorem served_request_logged_twice :
    ∃ t, exec (step ⟨fun _ => 0, monotone_const⟩ 30) start servedRequest = some t ∧
      t.inFlight.services.terminalEvents "plain" = 2 ∧
      (∃ r, t.inFlight.requests "plain" = some r ∧ r.Done) ∧ ¬ t.OneTerminalEvent := by
  have evaluated : (exec (step ⟨fun _ => 0, monotone_const⟩ 30) start servedRequest).map
      (fun t => (t.inFlight.services.terminalEvents "plain", (t.inFlight.requests "plain").map fun r =>
        (decide (r.worker = .done), answers r.caller))) = some (2, some (true, true)) := by
    decide +kernel
  obtain ⟨t, ran, seen⟩ := Option.map_eq_some_iff.mp evaluated
  obtain ⟨twice, request⟩ := Prod.mk.inj seen
  obtain ⟨r, found, states⟩ := Option.map_eq_some_iff.mp request
  obtain ⟨finished, responded⟩ := Prod.mk.inj states
  have done : r.Done := by
    refine ⟨of_decide_eq_true finished, ?_⟩
    unfold answers at responded
    split at responded
    · next model reply isHandler =>
      rw [isHandler]
      exact ⟨reply, rfl⟩
    · cases responded
  refine ⟨t, ran, twice, ⟨r, found, done⟩, fun law => ?_⟩
  have once := law "plain" r found (.inl done)
  omega

theorem one_terminal_event_streamed :
    Throughout (step ⟨fun _ => 0, monotone_const⟩ 30) OneTerminalEvent start
      [.move (.arrive "stream" { messages := [], stream := true } { accepted := true }), .move (.enqueue "stream"),
        .move (.advance "stream"), .move (.startBatch "stream"), .move (.generate "stream" "x"),
        .move (.advance "stream"), .move (.complete "stream"), .move (.advance "stream"),
        .move (.advance "stream")] := by
  refine (one_terminal_event ⟨fun _ => 0, monotone_const⟩ 30 _).mpr (.of_forall ?_ _)
  intro action member st
  cases action with
  | interrupt requestId => simp at member
  | move action =>
    refine ⟨fun requestId r resumes => ?_, fun requestId r closes => ?_⟩
    · subst resumes
      simp at member
    · subst closes
      simp at member

end Routed

end LLMRuntime
