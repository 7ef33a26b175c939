import LLMRuntime.Api.InFlight
import LLMRuntime.Metrics.Timing

namespace LLMRuntime

open Chronicle Transition

/-- `submit` stamps the item before it waits for the lock under which it appends it; every other action is
    one of the runtime. -/
inductive TimelineAction where
  | stamp (requestId : String)
  | append (requestId : String)
  | act (action : InFlightAction)

def TimelineAction.requestId : TimelineAction → String
  | .stamp requestId => requestId
  | .append requestId => requestId
  | .act action => action.requestId

def InFlightAction.submits : InFlightAction → Bool
  | .enqueue _ => true
  | _ => false

def WorkerPoint.handedOut : WorkerPoint → Bool
  | .absent => false
  | .queued => false
  | .running _ _ => true
  | .done => true

namespace Accepted

variable (clock : Clock) (s : Services) (r : Accepted)

def stamp : Option (Services × Accepted) :=
  match r.worker, r.item.request.enqueuedAt with
  | .absent, none =>
    let (enqueuedAt, s) := s.perfCounter clock
    some (s, { r with item := { r.item with request := r.item.request.markEnqueued enqueuedAt } })
  | _, _ => none

def append : Option (Services × Accepted) :=
  match r.worker, r.item.request.enqueuedAt with
  | .absent, some _ =>
    let s := s.emit (.requestEnqueued r.item.request.requestId)
    match r.caller with
    | .handler model _ =>
      let (t0, s) := s.perfCounter clock
      some (s, { r with caller := .handler model (.waiting t0), worker := .queued })
    | .stream _ => some (s, { r with worker := .queued })
  | _, _ => none

/-- A `submit` that does not wait for the lock. -/
theorem enqueue_eq (unstamped : r.item.request.enqueuedAt = none) :
    r.enqueue clock s = (r.stamp clock s).bind fun moved => moved.2.append clock moved.1 := by
  obtain ⟨item, caller, worker⟩ := r
  cases worker with
  | absent =>
    rw [stamp, unstamped]
    cases caller <;> rfl
  | queued => rfl
  | running tokens batchStart => rfl
  | done => rfl

end Accepted

namespace InFlight

variable (clock : Clock) (requestTimeoutS : ℚ)

def moveRequest (st : InFlight) (requestId : String) (move : Services → Accepted → Option (Services × Accepted)) :
    Option InFlight :=
  (st.requests requestId).bind fun r => (move st.services r).map fun moved =>
    { st with services := moved.1, requests := Function.update st.requests requestId (some moved.2) }

def timelineStep (st : InFlight) : TimelineAction → Option InFlight
  | .stamp requestId => st.moveRequest requestId fun s r => r.stamp clock s
  | .append requestId => st.moveRequest requestId fun s r => r.append clock s
  | .act action => if action.submits then none else st.step clock requestTimeoutS action

variable {clock requestTimeoutS} {st t : InFlight}

theorem moveRequest_some {requestId : String} {move : Services → Accepted → Option (Services × Accepted)}
    (taken : st.moveRequest requestId move = some t) :
    ∃ r services r', st.requests requestId = some r ∧ move st.services r = some (services, r') ∧
      t = { st with services, requests := Function.update st.requests requestId (some r') } := by
  obtain ⟨r, found, moved⟩ := Option.bind_eq_some_iff.mp taken
  obtain ⟨⟨services, r'⟩, acted, same⟩ := Option.map_eq_some_iff.mp moved
  exact ⟨r, services, r', found, acted, same.symm⟩

/-- The runtime's `enqueue` is a stamp that is followed by its append. -/
theorem enqueue_step {requestId : String} {r : Accepted} (found : st.requests requestId = some r)
    (unstamped : r.item.request.enqueuedAt = none) (taken : st.step clock requestTimeoutS (.enqueue requestId) = some t) :
    exec (timelineStep clock requestTimeoutS) st [.stamp requestId, .append requestId] = some t := by
  rcases step_cases taken with ⟨_, _, _, _, _, arrives, -⟩ | ⟨_, _, _, _, _, arrives, -⟩ |
    ⟨same, services, r', found', acted, rfl⟩
  · cases arrives
  · cases arrives
  · cases found.symm.trans found'
    have split := r.enqueue_eq clock st.services unstamped
    rw [show r.enqueue clock st.services = some (services, r') from acted] at split
    obtain ⟨⟨middle, stamped⟩, stamps, appends⟩ := Option.bind_eq_some_iff.mp split.symm
    apply exec_cons_some.mpr
    refine ⟨{ st with services := middle, requests := Function.update st.requests requestId (some stamped) }, ?_, ?_⟩
    · simp only [timelineStep, moveRequest, found, Option.bind_some, stamps, Option.map_some]
    · apply exec_cons_some.mpr
      refine ⟨_, ?_, rfl⟩
      simp only [timelineStep, moveRequest, Function.update_self, Option.bind_some, appends, Option.map_some,
        Function.update_idem]
      rfl

end InFlight

namespace Services

def Silent (s s' : Services) : Prop := s'.terminal = s.terminal ∧ s'.metrics = s.metrics

/-- `record_success` or `record_failure` is called once, with the request. -/
def Calls (s s' : Services) (request : RuntimeRequest) : Prop :=
  ∃ outcome, s'.terminal = s.terminal ++ [(request.requestId, outcome)] ∧
    s'.metrics =
      match outcome with
      | .success generatedTokens => s.metrics.recordSuccess request generatedTokens
      | .failure => s.metrics.recordFailure request

variable (s : Services)

theorem Calls.times {s' : Services} {request : RuntimeRequest} (calls : s.Calls s' request) (metric : LatencyMetric) :
    metric.times s'.metrics = metric.times s.metrics ++ (metric.sample request).toList := by
  obtain ⟨outcome, -, recorded⟩ := calls
  rw [recorded]
  cases outcome with
  | success generatedTokens =>
    show metric.times (s.metrics.recordSuccess request generatedTokens) = _
    rw [MetricsCollector.recordSuccess, LatencyMetric.times_recordTiming]
    cases metric <;> rfl
  | failure =>
    show metric.times (s.metrics.recordFailure request) = _
    rw [MetricsCollector.recordFailure, LatencyMetric.times_recordTiming]
    cases metric <;> rfl

end Services

namespace Accepted

def Unstamped (request : RuntimeRequest) : WorkerPoint → Prop
  | .absent => request.startedAt = none ∧ request.firstTokenAt = none ∧ request.completedAt = none
  | .queued => request.startedAt = none ∧ request.firstTokenAt = none ∧ request.completedAt = none
  | .running _ _ => request.completedAt = none
  | .done => True

structure Timely (clock : Clock) (s : Services) (r : Accepted) : Prop where
  taken : Taken clock.reading s.ticks r.item.request.stamps
  unstamped : Unstamped r.item.request r.worker

structure Moved (clock : Clock) (s : Services) (r : Accepted) (s' : Services) (r' : Accepted) : Prop where
  timely : r'.Timely clock s'
  later : s.ticks ≤ s'.ticks
  named : r'.item.request.requestId = r.item.request.requestId
  recorded : s.Silent s' ∨ s.Calls s' r'.item.request ∧ r'.item.request.timeline.Pairwise (· ≤ ·)

variable {clock : Clock} {s s' : Services} {r r' : Accepted}

theorem Timely.later (timely : r.Timely clock s) (order : s.ticks ≤ s'.ticks) : r.Timely clock s' where
  taken := timely.taken.later order
  unstamped := timely.unstamped

theorem Timely.started (timely : r.Timely clock s) (waiting : r.worker.handedOut = false) :
    r.item.request.startedAt = none := by
  have unstamped := timely.unstamped
  obtain ⟨item, caller, worker⟩ := r
  cases worker with
  | absent => exact unstamped.1
  | queued => exact unstamped.1
  | running tokens batchStart => cases waiting
  | done => cases waiting

theorem Timely.kept (timely : r.Timely clock s) (request : r'.item.request = r.item.request)
    (unstamped : Unstamped r.item.request r'.worker) (order : s.ticks ≤ s'.ticks) (silent : s.Silent s') :
    Moved clock s r s' r' where
  timely := ⟨by rw [request]; exact timely.taken.later order, by rw [request]; exact unstamped⟩
  later := order
  named := by rw [request]
  recorded := .inl silent

theorem Timely.failed (positive : ∀ k, 0 < clock.reading k) (timely : r.Timely clock s)
    (request : r'.item.request = r.item.request.markFailed (clock.reading s.ticks))
    (unstamped : Unstamped r.item.request r'.worker) (order : s.ticks ≤ s'.ticks)
    (calls : s.Calls s' r'.item.request) : Moved clock s r s' r' where
  timely := by
    constructor
    · rw [request]
      exact timely.taken.later order
    · rw [request]
      revert unstamped
      cases r'.worker <;> exact id
  later := order
  named := by
    rw [request]
    rfl
  recorded := by
    right
    refine ⟨calls, ?_⟩
    rw [request]
    exact RuntimeRequest.failed_timeline positive timely.taken

theorem Timely.stamp (timely : r.Timely clock s) (taken : r.stamp clock s = some (s', r')) : Moved clock s r s' r' := by
  obtain ⟨⟨request, handle⟩, caller, worker⟩ := r
  unfold Accepted.stamp at taken
  split at taken
  · next absent unstamped =>
    cases absent
    cases taken
    obtain ⟨started, token, completed⟩ := timely.unstamped
    refine ⟨⟨?_, started, token, completed⟩, Nat.le_succ _, rfl, .inl ⟨rfl, rfl⟩⟩
    show Taken clock.reading (s.ticks + 1) (request.markEnqueued (clock.reading s.ticks)).stamps
    rw [RuntimeRequest.stamps_markEnqueued unstamped started token completed]
    exact timely.taken.push clock.monotone
  · cases taken

theorem Timely.append (timely : r.Timely clock s) (taken : r.append clock s = some (s', r')) : Moved clock s r s' r' := by
  obtain ⟨⟨request, handle⟩, caller, worker⟩ := r
  unfold Accepted.append at taken
  split at taken
  · next absent stamped =>
    cases absent
    cases caller with
    | handler model point =>
      cases taken
      exact timely.kept rfl timely.unstamped (Nat.le_succ _) ⟨rfl, rfl⟩
    | stream generator =>
      cases taken
      exact timely.kept rfl timely.unstamped le_rfl ⟨rfl, rfl⟩
  · cases taken

theorem Timely.deliver (timely : r.Timely clock s) {signal : Signal} (taken : r.deliver s signal = some (s', r')) :
    Moved clock s r s' r' := by
  unfold Accepted.deliver at taken
  split at taken
  · cases taken
    exact timely.kept rfl timely.unstamped le_rfl ⟨rfl, rfl⟩
  · cases taken

theorem resumeHandler_cases {requestTimeoutS : ℚ} {model : String} {point : HandlerPoint} {request : RuntimeRequest}
    {handle : CompletionHandle} {result : HandlerResult}
    (resumed : resumeHandler clock requestTimeoutS model point s request handle = some result) :
    s.ticks ≤ result.services.ticks ∧
    (result.item.request = request ∧ s.Silent result.services ∨
      result.item.request = request.markFailed (clock.reading s.ticks) ∧ s.Calls result.services result.item.request) := by
  have gaveUp (error : String) (reply : Reply) (same : giveUp clock s request handle error reply = result) :
      s.ticks ≤ result.services.ticks ∧
      (result.item.request = request ∧ s.Silent result.services ∨
        result.item.request = request.markFailed (clock.reading s.ticks) ∧
          s.Calls result.services result.item.request) := by
    rw [← same]
    exact ⟨Nat.le_succ _, .inr ⟨rfl, .failure, rfl, rfl⟩⟩
  unfold resumeHandler at resumed
  split at resumed
  · exact gaveUp _ _ (Option.some.inj resumed)
  · exact gaveUp _ _ (Option.some.inj resumed)
  · split at resumed
    · cases resumed
    · cases resumed
      exact ⟨Nat.le_succ _, .inl ⟨rfl, rfl, rfl⟩⟩
    · split at resumed
      · exact gaveUp _ _ (Option.some.inj resumed)
      · cases resumed
        exact ⟨le_rfl, .inl ⟨rfl, rfl, rfl⟩⟩
    · exact gaveUp _ _ (Option.some.inj resumed)
  · cases resumed

theorem Timely.resume (positive : ∀ k, 0 < clock.reading k) (timely : r.Timely clock s) {requestTimeoutS : ℚ}
    (taken : r.resume clock s requestTimeoutS = some (s', r')) : Moved clock s r s' r' := by
  unfold Accepted.resume at taken
  split at taken
  · next model point handle isHandler isCompletion =>
    obtain ⟨result, resumed, same⟩ := Option.map_eq_some_iff.mp taken
    obtain ⟨order, ⟨request, silent⟩ | ⟨request, calls⟩⟩ := resumeHandler_cases resumed
    · cases same
      exact timely.kept request timely.unstamped order silent
    · cases same
      exact timely.failed positive request timely.unstamped order calls
  · cases taken

theorem Timely.afterStream (positive : ∀ k, 0 < clock.reading k) (timely : r.Timely clock s)
    (moved : Bool × ChatStream × StreamingHandle) :
    Moved clock s r (r.afterStream clock s moved).1 (r.afterStream clock s moved).2 := by
  obtain ⟨fires, generator, handle⟩ := moved
  cases fires with
  | true => exact timely.failed positive rfl timely.unstamped (Nat.le_succ _) ⟨.failure, rfl, rfl⟩
  | false => exact timely.kept rfl timely.unstamped le_rfl ⟨rfl, rfl⟩

theorem Timely.moveStream (positive : ∀ k, 0 < clock.reading k) (timely : r.Timely clock s)
    {move : ChatStream → StreamingHandle → Option (Bool × ChatStream × StreamingHandle)}
    (taken : r.moveStream clock s move = some (s', r')) : Moved clock s r s' r' := by
  unfold Accepted.moveStream at taken
  split at taken
  · cases taken
  · obtain ⟨moved, -, left⟩ := Option.map_eq_some_iff.mp taken
    have effect := timely.afterStream positive moved
    rwa [left] at effect
  · cases taken

theorem Timely.startBatch (timely : r.Timely clock s) (taken : r.startBatch clock s = some (s', r')) :
    Moved clock s r s' r' := by
  obtain ⟨⟨request, handle⟩, caller, worker⟩ := r
  cases worker with
  | absent => cases taken
  | running tokens batchStart => cases taken
  | done => cases taken
  | queued =>
    obtain ⟨started, token, completed⟩ := timely.unstamped
    have pushed : Taken clock.reading (s.ticks + 1) (request.markStarted (clock.reading s.ticks)).stamps := by
      rw [RuntimeRequest.stamps_markStarted started token completed]
      exact timely.taken.push clock.monotone
    simp only [Accepted.startBatch] at taken
    split at taken
    · cases taken
      exact ⟨⟨pushed, True.intro⟩, Nat.le_succ _, rfl, .inl ⟨rfl, rfl⟩⟩
    · cases taken
      have later : s.ticks + 1 ≤ s.ticks + 1 + 1 := Nat.le_succ _
      exact ⟨⟨pushed.later later, completed⟩, (Nat.le_succ _).trans later, rfl, .inl ⟨rfl, rfl⟩⟩

theorem Timely.generate (timely : r.Timely clock s) {token : String} (taken : r.generate clock s token = some (s', r')) :
    Moved clock s r s' r' := by
  obtain ⟨⟨request, handle⟩, caller, worker⟩ := r
  cases worker with
  | absent => cases taken
  | queued => cases taken
  | done => cases taken
  | running tokens batchStart =>
    have completed : request.completedAt = none := timely.unstamped
    simp only [Accepted.generate] at taken
    split at taken
    · cases taken
      exact timely.kept rfl True.intro le_rfl ⟨rfl, rfl⟩
    · cases taken
      unfold deliverToken
      by_cases first : request.firstTokenAt = none
      · have pushed : Taken clock.reading (s.ticks + 1) (request.markFirstToken (clock.reading s.ticks)).stamps := by
          rw [RuntimeRequest.stamps_markFirstToken first completed]
          exact timely.taken.push clock.monotone
        have still : (request.markFirstToken (clock.reading s.ticks)).completedAt = none := by
          rw [RuntimeRequest.markFirstToken]
          split <;> exact completed
        dsimp only
        rw [if_pos (by rw [first]; rfl)]
        cases handle with
        | completion handle => exact ⟨⟨pushed, still⟩, Nat.le_succ _, by simp, .inl ⟨rfl, rfl⟩⟩
        | streaming handle => exact ⟨⟨pushed, still⟩, Nat.le_succ _, by simp, .inl ⟨rfl, rfl⟩⟩
      · dsimp only
        rw [if_neg (by rwa [Option.isNone_iff_eq_none])]
        cases handle with
        | completion handle => exact timely.kept rfl completed le_rfl ⟨rfl, rfl⟩
        | streaming handle => exact timely.kept rfl completed le_rfl ⟨rfl, rfl⟩

/-- What `_complete_item` does: nothing to a cancelled item, else it stamps it, and records it or raises. -/
theorem completeItem_cases (clock : Clock) (s : Services) (item : ScheduledRequest) (tokens : List String)
    (batchStart : ℚ) :
    (completeItem clock s item tokens batchStart).item.request = item.request ∧
      (completeItem clock s item tokens batchStart).services = s ∧
      (completeItem clock s item tokens batchStart).raised = none ∨
    (completeItem clock s item tokens batchStart).item.request =
        item.request.markCompleted (clock.reading s.ticks) ∧
      s.ticks + 1 ≤ (completeItem clock s item tokens batchStart).services.ticks ∧
      (s.Silent (completeItem clock s item tokens batchStart).services ∨
        (completeItem clock s item tokens batchStart).raised = none ∧
          s.Calls (completeItem clock s item tokens batchStart).services
            (item.request.markCompleted (clock.reading s.ticks))) := by
  obtain ⟨request, handle⟩ := item
  have order : s.ticks + 1 ≤ s.ticks + 1 + 1 := Nat.le_succ _
  have recorded : s.Calls (recordCompletion ((s.perfCounter clock).2.perfCounter clock).2
      { request := request.markCompleted (clock.reading s.ticks), handle } tokens
        ((((s.perfCounter clock).2.perfCounter clock).1 - batchStart) * 1000)).services
      (request.markCompleted (clock.reading s.ticks)) := ⟨.success tokens.length, rfl, rfl⟩
  unfold completeItem
  split
  · exact .inl ⟨rfl, rfl, rfl⟩
  · right
    cases handle with
    | completion handle =>
      dsimp only
      split
      · exact ⟨rfl, order, .inr ⟨rfl, recorded⟩⟩
      · split
        · exact ⟨rfl, order, .inr ⟨rfl, recorded⟩⟩
        · exact ⟨rfl, order, .inl ⟨rfl, rfl⟩⟩
    | streaming handle =>
      dsimp only
      split
      · exact ⟨rfl, order, .inl ⟨rfl, rfl⟩⟩
      · exact ⟨rfl, order, .inr ⟨rfl, recorded⟩⟩

theorem failItem_cases (clock : Clock) (s : Services) (item : ScheduledRequest) (exc : PyException) :
    (failItem clock s item exc).item.request = item.request ∧ (failItem clock s item exc).services = s ∨
    (failItem clock s item exc).item.request = item.request.markFailed (clock.reading s.ticks) ∧
      s.ticks ≤ (failItem clock s item exc).services.ticks ∧
      s.Calls (failItem clock s item exc).services (item.request.markFailed (clock.reading s.ticks)) := by
  obtain ⟨request, handle⟩ := item
  unfold failItem
  split
  · exact .inl ⟨rfl, rfl⟩
  · right
    cases handle with
    | completion handle =>
      dsimp only
      split
      · exact ⟨rfl, Nat.le_succ _, .failure, rfl, rfl⟩
      · split
        · exact ⟨rfl, Nat.le_succ _, .failure, rfl, rfl⟩
        · exact ⟨rfl, Nat.le_succ _, .failure, rfl, rfl⟩
    | streaming handle => exact ⟨rfl, Nat.le_succ _, .failure, rfl, rfl⟩

theorem Timely.failItem (positive : ∀ k, 0 < clock.reading k) (timely : r.Timely clock s) (exc : PyException) :
    Moved clock s r (failItem clock s r.item exc).services
      { r with item := (failItem clock s r.item exc).item, worker := .done } := by
  rcases failItem_cases clock s r.item exc with ⟨request, services⟩ | ⟨request, order, calls⟩
  · exact timely.kept request True.intro (by rw [services]) (by rw [services]; exact ⟨rfl, rfl⟩)
  · exact timely.failed positive request True.intro order (by rw [request]; exact calls)

theorem Timely.fail (positive : ∀ k, 0 < clock.reading k) (timely : r.Timely clock s) {exc : PyException}
    (taken : r.fail clock s exc = some (s', r')) : Moved clock s r s' r' := by
  unfold Accepted.fail at taken
  split at taken
  · cases taken
    exact timely.failItem positive exc
  · cases taken

theorem Timely.complete (positive : ∀ k, 0 < clock.reading k) (timely : r.Timely clock s)
    (taken : r.complete clock s = some (s', r')) : Moved clock s r s' r' := by
  obtain ⟨item, caller, worker⟩ := r
  cases worker with
  | absent => cases taken
  | queued => cases taken
  | done => cases taken
  | running tokens batchStart =>
    have completed : item.request.completedAt = none := timely.unstamped
    have pushed : Taken clock.reading (s.ticks + 1) (item.request.markCompleted (clock.reading s.ticks)).stamps := by
      rw [RuntimeRequest.stamps_markCompleted completed]
      exact timely.taken.push clock.monotone
    have named (request : (completeItem clock s item tokens batchStart).item.request =
        item.request.markCompleted (clock.reading s.ticks)) :
        (completeItem clock s item tokens batchStart).item.request.requestId = item.request.requestId := by
      rw [request]
      rfl
    simp only [Accepted.complete] at taken
    cases taken
    rcases completeItem_cases clock s item tokens batchStart with
      ⟨request, services, raised⟩ | ⟨request, order, silent | ⟨raised, calls⟩⟩
    · rw [raised]
      exact timely.kept request True.intro (by rw [services]) (by rw [services]; exact ⟨rfl, rfl⟩)
    · cases raised : (completeItem clock s item tokens batchStart).raised with
      | none =>
        exact ⟨⟨by rw [request]; exact pushed.later order, True.intro⟩, (Nat.le_succ _).trans order,
          named request, .inl silent⟩
      | some error =>
        -- the failure is recorded with the completion stamped
        have middle : Timely clock (completeItem clock s item tokens batchStart).services
            { item := (completeItem clock s item tokens batchStart).item, caller, worker := .done } :=
          ⟨by rw [request]; exact pushed.later order, True.intro⟩
        have failed := middle.failItem positive error
        refine ⟨failed.timely, ((Nat.le_succ _).trans order).trans failed.later,
          failed.named.trans (named request), ?_⟩
        rcases failed.recorded with quiet | ⟨⟨outcome, terminal, metrics⟩, ordered⟩
        · exact .inl ⟨quiet.1.trans silent.1, quiet.2.trans silent.2⟩
        · right
          refine ⟨⟨outcome, ?_, ?_⟩, ordered⟩
          · rw [← silent.1]
            exact terminal
          · rw [← silent.2]
            exact metrics
    · rw [raised]
      refine ⟨⟨by rw [request]; exact pushed.later order, True.intro⟩, (Nat.le_succ _).trans order,
        named request, .inr ⟨by rw [request]; exact calls, ?_⟩⟩
      rw [request]
      exact RuntimeRequest.completed_timeline positive pushed rfl

theorem Timely.act (positive : ∀ k, 0 < clock.reading k) (timely : r.Timely clock s) {requestTimeoutS : ℚ}
    {action : InFlightAction} (direct : action.submits = false)
    (acted : InFlight.act clock requestTimeoutS s r action = some (s', r')) : Moved clock s r s' r' := by
  cases action with
  | arrive requestId body admission => cases acted
  | enqueue requestId => cases direct
  | deliver requestId signal => exact timely.deliver acted
  | resume requestId => exact timely.resume positive acted
  | advance requestId => exact timely.moveStream positive acted
  | close requestId => exact timely.moveStream positive acted
  | startBatch requestId => exact timely.startBatch acted
  | generate requestId token => exact timely.generate acted
  | complete requestId => exact timely.complete positive acted
  | fail requestId exc => exact timely.fail positive acted

theorem afterStream_worker (clock : Clock) (s : Services) (r : Accepted) (moved : Bool × ChatStream × StreamingHandle) :
    (r.afterStream clock s moved).2.worker = r.worker := by
  obtain ⟨fires, generator, handle⟩ := moved
  cases fires <;> rfl

theorem moveStream_worker {move : ChatStream → StreamingHandle → Option (Bool × ChatStream × StreamingHandle)}
    (taken : r.moveStream clock s move = some (s', r')) : r'.worker = r.worker := by
  unfold moveStream at taken
  split at taken
  · cases taken
  · obtain ⟨moved, -, left⟩ := Option.map_eq_some_iff.mp taken
    have same := afterStream_worker clock s r moved
    rwa [left] at same
  · cases taken

theorem append_handedOut (taken : r.append clock s = some (s', r')) : r'.worker.handedOut = false := by
  unfold append at taken
  split at taken
  · split at taken <;> cases taken <;> rfl
  · cases taken

theorem stamp_worker (taken : r.stamp clock s = some (s', r')) : r'.worker = r.worker := by
  unfold stamp at taken
  split at taken <;> cases taken
  rfl

theorem act_handedOut {requestTimeoutS : ℚ} {action : InFlightAction} (direct : action.submits = false)
    (acted : InFlight.act clock requestTimeoutS s r action = some (s', r')) (out : r'.worker.handedOut = true) :
    r.worker.handedOut = true ∨ action = .startBatch action.requestId := by
  obtain ⟨item, caller, worker⟩ := r
  cases action with
  | arrive requestId body admission => cases acted
  | enqueue requestId => cases direct
  | startBatch requestId => exact .inr rfl
  | deliver requestId signal =>
    simp only [InFlight.act, Accepted.deliver] at acted
    split at acted <;> cases acted
    exact .inl out
  | resume requestId =>
    simp only [InFlight.act, Accepted.resume] at acted
    split at acted
    · obtain ⟨result, -, same⟩ := Option.map_eq_some_iff.mp acted
      cases same
      exact .inl out
    · cases acted
  | advance requestId =>
    rw [moveStream_worker acted] at out
    exact .inl out
  | close requestId =>
    rw [moveStream_worker acted] at out
    exact .inl out
  | generate requestId token => cases worker <;> first | exact .inl rfl | cases acted
  | complete requestId => cases worker <;> first | exact .inl rfl | cases acted
  | fail requestId exc => cases worker <;> first | exact .inl rfl | cases acted

end Accepted

end LLMRuntime
