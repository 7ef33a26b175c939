import LLMRuntime.Api.InFlight
import LLMRuntime.Workers.ItemMachine

namespace LLMRuntime

namespace ResponseHandle

theorem Open.settled_complete {h : ResponseHandle} {sent : List String} (isOpen : h.Open sent)
    (requestId : String) (tokens : List String) : ∃ o, (h.complete requestId tokens).Settled o := by
  cases h with
  | completion handle =>
    cases isOpen
    exact ⟨_, .result requestId tokens false⟩
  | streaming handle =>
    cases isOpen
    exact ⟨_, .completed sent false⟩

theorem Settled.future_done {handle : CompletionHandle} {o : Outcome}
    (settled : (ResponseHandle.completion handle).Settled o) : handle.future.done = true := by
  cases settled <;> rfl

end ResponseHandle

namespace ChatStream

variable (c : ChatStream)

theorem receive_open (sent : List String) :
    ∃ left : List String, (c.receive { queue := sent.map .token }).2 = { queue := left.map .token } ∧
      (c.receive { queue := sent.map .token }).1.point ≠ .yieldedLast := by
  cases sent with
  | nil => exact ⟨[], rfl, by simp [receive]⟩
  | cons token rest => exact ⟨rest, rfl, by simp [receive, StreamEvent.isTerminal]⟩

theorem receive_settled {handle : StreamingHandle} {o : Outcome}
    (settled : (ResponseHandle.streaming handle).Settled o) (live : handle.cancelled = false) :
    ((∃ signal, (ResponseHandle.streaming (c.receive handle).2).Settled signal) ∧
        (c.receive handle).2.cancelled = false ∧ (c.receive handle).1.point ≠ .yieldedLast) ∨
      ((c.receive handle).2 = { queue := [], cancelled := false, completed := true } ∧
        (c.receive handle).1.point = .yieldedLast) := by
  cases settled with
  | completed tokens cancelled =>
    have same : cancelled = false := live
    subst same
    cases tokens with
    | nil => exact .inr ⟨rfl, rfl⟩
    | cons token rest =>
      exact .inl ⟨⟨_, .completed rest false⟩, rfl, by simp [receive, StreamEvent.isTerminal]⟩
  | error tokens message cancelled =>
    have same : cancelled = false := live
    subst same
    cases tokens with
    | nil => exact .inr ⟨rfl, rfl⟩
    | cons token rest =>
      exact .inl ⟨⟨_, .error rest message false⟩, rfl, by simp [receive, StreamEvent.isTerminal]⟩

theorem advance_receive {handle : StreamingHandle} {moved : Bool × ChatStream × StreamingHandle}
    (listening : c.point ≠ .yieldedLast) (taken : c.advance handle = some moved) :
    moved = (false, c.receive handle) := by
  unfold advance at taken
  split at taken
  · exact (Option.some.inj taken).symm
  · exact (Option.some.inj taken).symm
  · split at taken
    · cases taken
    · exact (Option.some.inj taken).symm
  · next last => exact absurd last listening
  · cases taken

end ChatStream

namespace Accepted

/-- The caller of a request whose terminal signal has not been taken. -/
def Asking (r : Accepted) : Prop :=
  match r.caller with
  | .handler _ .submitting => r.worker = .absent
  | .handler _ (.waiting _) => r.worker ≠ .absent
  | .handler _ (.signalled _ _) => r.worker ≠ .absent
  | .handler _ (.responded _) => False
  | .stream generator => generator.point ≠ .yieldedLast

def Gone (r : Accepted) : Prop :=
  match r.caller with
  | .handler _ point => ∃ reply, point = .responded reply
  | .stream generator => generator.point = .finished

/-- A generator that has yielded its last frame got it from its queue. -/
def Listening (r : Accepted) : Prop :=
  match r.caller with
  | .handler _ _ => True
  | .stream generator => generator.point ≠ .yieldedLast

/-- The situations of an accepted request, each with the terminal records it has by then. -/
inductive Sound : Accepted → List Outcome → Prop where
  | unanswered {r : Accepted} (sent : List String) (isOpen : r.item.handle.Open sent)
      (unfinished : r.worker ≠ .done) (asking : r.Asking) : Sound r []
  | answered {r : Accepted} (o signal : Outcome) (settled : r.item.handle.Settled signal)
      (live : r.item.cancelled = false) (finished : r.worker = .done) (listening : r.Listening) : Sound r [o]
  | received {r : Accepted} (o : Outcome) (generator : ChatStream) (streams : r.caller = .stream generator)
      (taken : generator.point = .yieldedLast ∨ generator.point = .finished)
      (handle : r.item.handle = .streaming { queue := [], cancelled := false, completed := true })
      (finished : r.worker = .done) : Sound r [o]
  | withdrawn {r : Accepted} (withdrawn : r.item.handle.Withdrawn) (submitted : r.worker ≠ .absent)
      (gone : r.Gone) : Sound r [.failure]

def Done (r : Accepted) : Prop :=
  r.worker = .done ∧
    match r.caller with
    | .handler _ point => ∃ reply, point = .responded reply
    | .stream generator => generator.point = .finished

theorem Sound.length_of_done {r : Accepted} {records : List Outcome} (sound : r.Sound records)
    (done : r.Done) : records.length = 1 := by
  cases sound with
  | unanswered sent isOpen unfinished asking => exact absurd done.1 unfinished
  | answered o signal settled live finished listening => rfl
  | received o generator streams taken handle finished => rfl
  | withdrawn withdrawn submitted gone => rfl

theorem Sound.length_le {r : Accepted} {records : List Outcome} (sound : r.Sound records) :
    records.length ≤ 1 := by
  cases sound <;> simp

/-- The handler is about to enter a branch that gives up although its future is already resolved. -/
def answersLate (r : Accepted) : Bool :=
  match r.caller, r.item.handle with
  | .handler _ (.signalled _ _), .completion handle => handle.future.done
  | .handler _ (.waiting _), .completion handle =>
    match handle.future with
    | .exception exc => exc.isTimeoutError
    | _ => false
  | _, _ => false

/-- The generator is about to be closed although its terminal event is already in the queue. -/
def closesLate (r : Accepted) : Bool :=
  match r.caller, r.item.handle with
  | .stream generator, .streaming handle =>
    (generator.point = .awaiting || generator.point = .yielded) && handle.queue.any StreamEvent.isTerminal
  | _, _ => false

def late (r : Accepted) : InFlightAction → Bool
  | .resume _ => r.answersLate
  | .close _ => r.closesLate
  | _ => false

def Moves (s : Services) (r : Accepted) (records : List Outcome) (s' : Services) (r' : Accepted) : Prop :=
  r'.item.request.requestId = r.item.request.requestId ∧
    ∃ new, s.Records s' r.item.request.requestId new ∧ r'.Sound (records ++ new)

variable {clock : Clock} {s s' : Services} {r r' : Accepted} {records : List Outcome}

theorem Sound.enqueue (sound : r.Sound records) (taken : r.enqueue clock s = some (s', r')) :
    r.Moves s records s' r' := by
  obtain ⟨item, caller, worker⟩ := r
  cases worker with
  | queued => cases taken
  | running tokens batchStart => cases taken
  | done => cases taken
  | absent =>
    cases sound with
    | answered o signal settled live finished listening => cases finished
    | received o generator streams point handle finished => cases finished
    | withdrawn withdrawn submitted gone => exact absurd rfl submitted
    | unanswered sent isOpen unfinished asking =>
      cases caller with
      | handler model point =>
        cases taken
        exact ⟨rfl, [], .of_counters rfl rfl, .unanswered sent isOpen (by simp) (by simp [Asking])⟩
      | stream generator =>
        cases taken
        exact ⟨rfl, [], .of_counters rfl rfl, .unanswered sent isOpen (by simp) asking⟩

theorem Sound.deliver (sound : r.Sound records) {signal : Signal} (taken : r.deliver s signal = some (s', r')) :
    r.Moves s records s' r' := by
  obtain ⟨item, caller, worker⟩ := r
  cases caller with
  | stream generator => cases taken
  | handler model point =>
    cases point with
    | submitting => cases taken
    | signalled t0 earlier => cases taken
    | responded reply => cases taken
    | waiting t0 =>
      cases taken
      cases sound with
      | unanswered sent isOpen unfinished asking =>
        exact ⟨rfl, [], by simp, .unanswered sent isOpen unfinished asking⟩
      | answered o outcome settled live finished listening =>
        exact ⟨rfl, [], by simp, .answered o outcome settled live finished listening⟩
      | received o generator streams point handle finished => cases streams
      | withdrawn withdrawn submitted gone =>
        obtain ⟨reply, responded⟩ := gone
        cases responded

theorem giveUp_records (clock : Clock) (s : Services) (request : RuntimeRequest) (handle : CompletionHandle)
    (error : String) (reply : Reply) :
    s.Records (giveUp clock s request handle error reply).services request.requestId [.failure] := by
  simp [giveUp]

theorem giveUp_moves {model : String} {request : RuntimeRequest} {handle : CompletionHandle}
    {worker : WorkerPoint} {sent : List String} {error : String} {reply : Reply} {point : HandlerPoint}
    (isOpen : (ResponseHandle.completion handle).Open sent) (submitted : worker ≠ .absent) :
    Moves s { item := { request, handle := .completion handle }, caller := .handler model point, worker } []
      (giveUp clock s request handle error reply).services
      { item := (giveUp clock s request handle error reply).item,
        caller := .handler model (.responded reply), worker } := by
  exact ⟨rfl, [.failure], giveUp_records clock s request handle error reply,
    .withdrawn isOpen.cancel submitted ⟨reply, rfl⟩⟩

theorem Sound.resume {requestTimeoutS : ℚ} (sound : r.Sound records)
    (taken : r.resume clock s requestTimeoutS = some (s', r')) (inTime : r.answersLate = false) :
    r.Moves s records s' r' := by
  obtain ⟨⟨request, handle⟩, caller, worker⟩ := r
  cases caller with
  | stream generator => cases handle <;> cases taken
  | handler model point =>
    cases handle with
    | streaming handle => cases taken
    | completion handle =>
      cases sound with
      | received o generator streams point handle finished => cases streams
      | withdrawn withdrawn submitted gone =>
        obtain ⟨reply, rfl⟩ := gone
        cases taken
      | unanswered sent isOpen unfinished asking =>
        cases point with
        | submitting => cases taken
        | responded reply => exact absurd asking id
        | waiting t0 =>
          cases isOpen
          cases taken
        | signalled t0 signal =>
          cases signal with
          | timeout =>
            cases taken
            exact giveUp_moves isOpen asking
          | disconnect =>
            cases taken
            exact giveUp_moves isOpen asking
      | answered o signal settled live finished listening =>
        cases point with
        | submitting => cases taken
        | responded reply => cases taken
        | signalled t0 delivered =>
          have done : handle.future.done = false := inTime
          rw [settled.future_done] at done
          contradiction
        | waiting t0 =>
          cases settled with
          | result requestId tokens cancelled =>
            cases taken
            exact ⟨rfl, [], .of_counters rfl rfl,
              .answered o _ (.result requestId tokens cancelled) live finished True.intro⟩
          | exception exc cancelled =>
            have ordinary : exc.isTimeoutError = false := inTime
            simp only [Accepted.resume, resumeHandler, ordinary] at taken
            cases taken
            exact ⟨rfl, [], .of_counters rfl rfl,
              .answered o _ (.exception exc cancelled) live finished True.intro⟩

theorem cancelStream_records (clock : Clock) (s : Services) (item : ScheduledRequest) :
    s.Records (cancelStream clock s item).1 item.request.requestId [.failure] := by
  simp [cancelStream]

theorem moveStream_some {move : ChatStream → StreamingHandle → Option (Bool × ChatStream × StreamingHandle)}
    (taken : r.moveStream clock s move = some (s', r')) :
    r.worker ≠ .absent ∧ ∃ generator handle moved, r.caller = .stream generator ∧
      r.item.handle = .streaming handle ∧ move generator handle = some moved ∧
      r.afterStream clock s moved = (s', r') := by
  obtain ⟨⟨request, handle⟩, caller, worker⟩ := r
  unfold moveStream at taken
  split at taken
  · cases taken
  · next generator handle streams isStream submitted =>
    obtain ⟨moved, took, left⟩ := Option.map_eq_some_iff.mp taken
    exact ⟨submitted, generator, handle, moved, streams, isStream, took, left⟩
  · cases taken

theorem Sound.advance (sound : r.Sound records) (taken : r.advance clock s = some (s', r')) :
    r.Moves s records s' r' := by
  obtain ⟨-, c, handle, moved, streams, isStream, advanced, left⟩ := moveStream_some taken
  obtain ⟨⟨request, handle'⟩, caller, worker⟩ := r
  cases streams
  cases isStream
  cases sound with
  | unanswered sent isOpen unfinished asking =>
    have received := c.advance_receive asking advanced
    subst received
    cases isOpen
    cases left
    obtain ⟨rest, stillOpen, listening⟩ := c.receive_open sent
    exact ⟨rfl, [], .refl, .unanswered rest stillOpen unfinished listening⟩
  | answered o signal settled live finished listening =>
    have received := c.advance_receive listening advanced
    subst received
    cases left
    rcases c.receive_settled settled live with ⟨⟨next, settledStill⟩, liveStill, listens⟩ | ⟨emptied, last⟩
    · exact ⟨rfl, [], .refl, .answered o next settledStill liveStill finished listens⟩
    · exact ⟨rfl, [], .refl,
        .received o (c.receive handle).1 rfl (.inl last) (congrArg ResponseHandle.streaming emptied) finished⟩
  | received o generator streams point emptied finished =>
    cases streams
    cases emptied
    rcases point with last | ended
    · simp only [ChatStream.advance, last] at advanced
      cases advanced
      cases left
      exact ⟨rfl, [], .refl, .received o _ rfl (.inr rfl) rfl finished⟩
    · simp [ChatStream.advance, ended] at advanced
  | withdrawn withdrawn submitted gone =>
    have ended : c.point = .finished := gone
    simp [ChatStream.advance, ended] at advanced

theorem Sound.close (sound : r.Sound records) (taken : r.close clock s = some (s', r'))
    (inTime : r.closesLate = false) : r.Moves s records s' r' := by
  obtain ⟨submitted, c, handle, moved, streams, isStream, closed, left⟩ := moveStream_some taken
  obtain ⟨⟨request, handle'⟩, caller, worker⟩ := r
  cases streams
  cases isStream
  cases sound with
  | unanswered sent isOpen unfinished asking =>
    cases isOpen
    cases point : c.point with
    | finished => simp [ChatStream.close, point] at closed
    | yieldedLast => exact absurd point asking
    | notStarted =>
      simp only [ChatStream.close, point] at closed
      cases closed
      cases left
      exact ⟨rfl, [], .refl, .unanswered sent rfl unfinished (by simp [Asking])⟩
    | awaiting =>
      simp only [ChatStream.close, point] at closed
      cases closed
      cases left
      exact ⟨rfl, [.failure], cancelStream_records clock s _,
        .withdrawn ⟨sent, rfl⟩ submitted rfl⟩
    | yielded =>
      simp only [ChatStream.close, point] at closed
      cases closed
      cases left
      exact ⟨rfl, [.failure], cancelStream_records clock s _,
        .withdrawn ⟨sent, rfl⟩ submitted rfl⟩
  | answered o signal settled live finished listening =>
    have ended : handle.queue.any StreamEvent.isTerminal = true := by
      cases settled <;> simp [StreamEvent.isTerminal]
    cases point : c.point with
    | finished => simp [ChatStream.close, point] at closed
    | yieldedLast => exact absurd point listening
    | notStarted =>
      simp only [ChatStream.close, point] at closed
      cases closed
      cases left
      exact ⟨rfl, [], .refl, .answered o signal settled live finished (by simp [Listening])⟩
    | awaiting => simp [closesLate, point, ended] at inTime
    | yielded => simp [closesLate, point, ended] at inTime
  | received o generator streams point emptied finished =>
    cases streams
    cases emptied
    rcases point with last | ended
    · simp only [ChatStream.close, last] at closed
      cases closed
      cases left
      exact ⟨rfl, [], .refl, .received o _ rfl (.inr rfl) rfl finished⟩
    · simp [ChatStream.close, ended] at closed
  | withdrawn withdrawn submitted gone =>
    have ended : c.point = .finished := gone
    simp [ChatStream.close, ended] at closed

theorem Gone.congr (gone : r.Gone) (caller : r'.caller = r.caller) : r'.Gone := by
  unfold Gone at gone ⊢
  rw [caller]
  exact gone

theorem Sound.worker_cases (sound : r.Sound records) (busy : r.worker ≠ .done) :
    (∃ sent, r.item.handle.Open sent ∧ r.Asking ∧ records = []) ∨
      (r.item.handle.Withdrawn ∧ r.Gone ∧ records = [.failure]) := by
  cases sound with
  | unanswered sent isOpen unfinished asking => exact .inl ⟨sent, isOpen, asking, rfl⟩
  | answered o signal settled live finished listening => exact absurd finished busy
  | received o generator streams taken handle finished => exact absurd finished busy
  | withdrawn withdrawn submitted gone => exact .inr ⟨withdrawn, gone, rfl⟩

theorem Asking.listening (asking : r.Asking) (caller : r'.caller = r.caller) : r'.Listening := by
  unfold Asking at asking
  unfold Listening
  rw [caller]
  split
  · trivial
  · next generator streams => simpa [streams] using asking

theorem Asking.congr (asking : r.Asking) (caller : r'.caller = r.caller) (here : r.worker ≠ .absent)
    (there : r'.worker ≠ .absent) : r'.Asking := by
  unfold Asking at asking ⊢
  rw [caller]
  split at asking
  · exact absurd asking here
  · simpa using there
  · simpa using there
  · exact asking.elim
  · simpa using asking

theorem Sound.startBatch (sound : r.Sound records) (taken : r.startBatch clock s = some (s', r')) :
    r.Moves s records s' r' := by
  cases queued : r.worker with
  | absent => simp [Accepted.startBatch, queued] at taken
  | running tokens batchStart => simp [Accepted.startBatch, queued] at taken
  | done => simp [Accepted.startBatch, queued] at taken
  | queued =>
    have busy : r.worker ≠ .done := by simp [queued]
    have submitted : r.worker ≠ .absent := by simp [queued]
    rcases sound.worker_cases busy with ⟨sent, isOpen, asking, rfl⟩ | ⟨withdrawn, gone, rfl⟩
    · have live := isOpen.not_cancelled
      simp [Accepted.startBatch, queued, ScheduledRequest.cancelled, live] at taken
      obtain ⟨rfl, rfl⟩ := taken
      exact ⟨rfl, [], by simp, .unanswered sent isOpen (by simp) (asking.congr rfl submitted (by simp))⟩
    · have flag := withdrawn.cancelled
      simp [Accepted.startBatch, queued, ScheduledRequest.cancelled, flag] at taken
      obtain ⟨rfl, rfl⟩ := taken
      exact ⟨rfl, [], by simp, .withdrawn withdrawn (by simp) (gone.congr rfl)⟩

theorem Sound.generate {token : String} (sound : r.Sound records)
    (taken : r.generate clock s token = some (s', r')) : r.Moves s records s' r' := by
  cases running : r.worker with
  | absent => simp [Accepted.generate, running] at taken
  | queued => simp [Accepted.generate, running] at taken
  | done => simp [Accepted.generate, running] at taken
  | running tokens batchStart =>
    have busy : r.worker ≠ .done := by simp [running]
    have submitted : r.worker ≠ .absent := by simp [running]
    rcases sound.worker_cases busy with ⟨sent, isOpen, asking, rfl⟩ | ⟨withdrawn, gone, rfl⟩
    · have live := isOpen.not_cancelled
      have leaves := deliverToken_leaves clock s r.item token
      simp only [Accepted.generate, running, ScheduledRequest.cancelled, live, Bool.false_eq_true,
        if_false, Option.some.injEq, Prod.mk.injEq] at taken
      obtain ⟨rfl, rfl⟩ := taken
      refine ⟨leaves.requestId, [], leaves.recorded, .unanswered (sent ++ [token]) ?_ (by simp)
        (asking.congr rfl submitted (by simp))⟩
      rw [leaves.handle]
      exact isOpen.deliver token
    · have flag := withdrawn.cancelled
      simp only [Accepted.generate, running, ScheduledRequest.cancelled, flag, if_true,
        Option.some.injEq, Prod.mk.injEq] at taken
      obtain ⟨rfl, rfl⟩ := taken
      exact ⟨rfl, [], .refl, .withdrawn withdrawn (by simp) (gone.congr rfl)⟩

theorem Sound.complete (sound : r.Sound records) (taken : r.complete clock s = some (s', r')) :
    r.Moves s records s' r' := by
  cases running : r.worker with
  | absent => simp [Accepted.complete, running] at taken
  | queued => simp [Accepted.complete, running] at taken
  | done => simp [Accepted.complete, running] at taken
  | running tokens batchStart =>
    have busy : r.worker ≠ .done := by simp [running]
    rcases sound.worker_cases busy with ⟨sent, isOpen, asking, rfl⟩ | ⟨withdrawn, gone, rfl⟩
    · have leaves := completeItem_open clock s r.item tokens sent batchStart isOpen
      simp only [Accepted.complete, running, leaves.raised, Option.some.injEq, Prod.mk.injEq] at taken
      obtain ⟨rfl, rfl⟩ := taken
      obtain ⟨signal, settled⟩ := isOpen.settled_complete r.item.request.requestId tokens
      have live : (completeItem clock s r.item tokens batchStart).item.cancelled = false := by
        rw [ScheduledRequest.cancelled, leaves.handle, ResponseHandle.cancelled_complete, isOpen.not_cancelled]
      rw [← leaves.handle] at settled
      exact ⟨leaves.requestId, [.success tokens.length], leaves.recorded,
        .answered _ signal settled live rfl (asking.listening rfl)⟩
    · have flag : r.item.cancelled = true := withdrawn.cancelled
      simp [Accepted.complete, completeItem, running, flag] at taken
      obtain ⟨rfl, rfl⟩ := taken
      exact ⟨rfl, [], .refl, .withdrawn withdrawn (by simp) (gone.congr rfl)⟩

theorem Sound.fail {exc : PyException} (sound : r.Sound records)
    (taken : r.fail clock s exc = some (s', r')) : r.Moves s records s' r' := by
  cases running : r.worker with
  | absent => simp [Accepted.fail, running] at taken
  | queued => simp [Accepted.fail, running] at taken
  | done => simp [Accepted.fail, running] at taken
  | running tokens batchStart =>
    have busy : r.worker ≠ .done := by simp [running]
    rcases sound.worker_cases busy with ⟨sent, isOpen, asking, rfl⟩ | ⟨withdrawn, gone, rfl⟩
    · have leaves := failItem_open clock s r.item exc sent isOpen
      simp only [Accepted.fail, running, Option.some.injEq, Prod.mk.injEq] at taken
      obtain ⟨rfl, rfl⟩ := taken
      have settled := isOpen.fail exc
      have live : (failItem clock s r.item exc).item.cancelled = false := by
        rw [ScheduledRequest.cancelled, leaves.handle, ResponseHandle.cancelled_fail, isOpen.not_cancelled]
      rw [← leaves.handle] at settled
      exact ⟨leaves.requestId, [.failure], leaves.recorded,
        .answered _ _ settled live rfl (asking.listening rfl)⟩
    · have flag : r.item.cancelled = true := withdrawn.cancelled
      simp [Accepted.fail, failItem, running, flag] at taken
      obtain ⟨rfl, rfl⟩ := taken
      exact ⟨rfl, [], .refl, .withdrawn withdrawn (by simp) (gone.congr rfl)⟩

theorem Sound.act {requestTimeoutS : ℚ} {action : InFlightAction} (sound : r.Sound records)
    (taken : InFlight.act clock requestTimeoutS s r action = some (s', r')) (inTime : r.late action = false) :
    r.Moves s records s' r' := by
  cases action with
  | arrive requestId body admission => cases taken
  | enqueue requestId => exact sound.enqueue taken
  | deliver requestId signal => exact sound.deliver taken
  | resume requestId => exact sound.resume taken inTime
  | advance requestId => exact sound.advance taken
  | close requestId => exact sound.close taken inTime
  | startBatch requestId => exact sound.startBatch taken
  | generate requestId token => exact sound.generate taken
  | complete requestId => exact sound.complete taken
  | fail requestId exc => exact sound.fail taken

theorem Sound.resume_late {requestTimeoutS : ℚ} (sound : r.Sound records)
    (taken : r.resume clock s requestTimeoutS = some (s', r')) (late : r.answersLate = true) :
    (∃ o, records = [o]) ∧ s.Records s' r.item.request.requestId [.failure] := by
  obtain ⟨⟨request, handle⟩, caller, worker⟩ := r
  cases caller with
  | stream generator => simp [answersLate] at late
  | handler model point =>
    cases handle with
    | streaming handle => simp [answersLate] at late
    | completion handle =>
      have recorded : ∃ o, records = [o] := by
        cases sound with
        | answered o signal settled live finished listening => exact ⟨o, rfl⟩
        | received o generator streams point handle finished => exact ⟨o, rfl⟩
        | withdrawn withdrawn submitted gone => exact ⟨.failure, rfl⟩
        | unanswered sent isOpen unfinished asking =>
          cases isOpen
          cases point <;> cases late
      refine ⟨recorded, ?_⟩
      cases point with
      | submitting => cases late
      | responded reply => cases late
      | signalled t0 signal =>
        cases signal with
        | timeout =>
          cases taken
          exact giveUp_records clock s request handle _ _
        | disconnect =>
          cases taken
          exact giveUp_records clock s request handle _ _
      | waiting t0 =>
        obtain ⟨future, flag⟩ := handle
        cases future with
        | pending => cases late
        | result result => cases late
        | cancelled => cases late
        | exception exc =>
          have timedOut : exc.isTimeoutError = true := late
          simp only [Accepted.resume, resumeHandler, timedOut] at taken
          cases taken
          exact giveUp_records clock s request _ _ _

theorem Sound.close_late (sound : r.Sound records) (taken : r.close clock s = some (s', r'))
    (late : r.closesLate = true) :
    (∃ o, records = [o]) ∧ s.Records s' r.item.request.requestId [.failure] := by
  obtain ⟨submitted, c, handle, moved, streams, isStream, closed, left⟩ := moveStream_some taken
  obtain ⟨⟨request, handle'⟩, caller, worker⟩ := r
  cases streams
  cases isStream
  simp only [closesLate, Bool.and_eq_true, Bool.or_eq_true, decide_eq_true_eq] at late
  obtain ⟨suspended, ended⟩ := late
  cases sound with
  | unanswered sent isOpen unfinished asking =>
    cases isOpen
    simp [StreamEvent.isTerminal] at ended
  | received o generator streams point emptied finished =>
    cases emptied
    simp at ended
  | withdrawn withdrawn submitted gone =>
    have finished : c.point = .finished := gone
    simp [finished] at suspended
  | answered o signal settled live finished listening =>
    refine ⟨⟨o, rfl⟩, ?_⟩
    have fires : handle.cancel.1 = true := by
      cases settled <;> simp_all [StreamingHandle.cancel, ScheduledRequest.cancelled, ResponseHandle.cancelled]
    have leaves : moved = (true, { c with point := .finished }, handle.cancel.2) := by
      rcases suspended with point | point <;> simp [ChatStream.close, ChatStream.leave, point, fires] at closed <;>
        exact closed.symm
    subst leaves
    cases left
    exact cancelStream_records clock s _

theorem act_streams {requestTimeoutS : ℚ} {action : InFlightAction}
    (taken : InFlight.act clock requestTimeoutS s r action = some (s', r')) :
    r'.caller.streams = r.caller.streams := by
  have moved : ∀ move, r.moveStream clock s move = some (s', r') → r'.caller.streams = r.caller.streams := by
    intro move taken
    obtain ⟨-, c, handle, m, streams, -, -, left⟩ := moveStream_some taken
    cases left
    rw [streams]
    rfl
  cases action with
  | arrive requestId body admission => cases taken
  | advance requestId => exact moved _ taken
  | close requestId => exact moved _ taken
  | resume requestId =>
    simp only [InFlight.act, Accepted.resume] at taken
    split at taken
    · next model point handle isHandler isCompletion =>
      obtain ⟨result, -, same⟩ := Option.map_eq_some_iff.mp taken
      cases same
      rw [isHandler]
      rfl
    · cases taken
  | enqueue requestId =>
    simp only [InFlight.act, Accepted.enqueue] at taken
    split at taken
    · split at taken
      · next model point isCaller =>
        cases taken
        simp only [isCaller, Caller.streams]
      · next generator isCaller =>
        cases taken
        simp only [isCaller, Caller.streams]
    · cases taken
  | deliver requestId signal =>
    simp only [InFlight.act, Accepted.deliver] at taken
    split at taken
    · next isCaller =>
      cases taken
      rw [isCaller]
      rfl
    · cases taken
  | startBatch requestId =>
    simp only [InFlight.act, Accepted.startBatch] at taken
    split at taken
    · split at taken <;> cases taken <;> rfl
    · cases taken
  | generate requestId token =>
    simp only [InFlight.act, Accepted.generate] at taken
    split at taken
    · split at taken <;> cases taken <;> rfl
    · cases taken
  | complete requestId =>
    simp only [InFlight.act, Accepted.complete] at taken
    split at taken
    · cases taken
      rfl
    · cases taken
  | fail requestId exc =>
    simp only [InFlight.act, Accepted.fail] at taken
    split at taken
    · cases taken
      rfl
    · cases taken

theorem closesLate_of_handler (handler : r.caller.streams = false) : r.closesLate = false := by
  obtain ⟨item, caller, worker⟩ := r
  cases caller with
  | handler model point => rfl
  | stream generator => cases handler

theorem answersLate_of_stream (stream : r.caller.streams = true) : r.answersLate = false := by
  obtain ⟨item, caller, worker⟩ := r
  cases caller with
  | handler model point => cases stream
  | stream generator => rfl

end Accepted

end LLMRuntime
