import LLMRuntime.Api.InFlight

namespace LLMRuntime

def InFlightAction.token? (id : String) : InFlightAction → Option String
  | .generate requestId token => if requestId = id then some token else none
  | _ => none

def generated (run : List InFlightAction) (id : String) : List String := run.filterMap (·.token? id)

@[simp] theorem generated_snoc (run : List InFlightAction) (action : InFlightAction) (id : String) :
    generated (run ++ [action]) id = generated run id ++ (action.token? id).toList := by
  cases yielded : action.token? id <;> simp [generated, yielded]

theorem InFlightAction.token?_other {action : InFlightAction} {id : String} (other : id ≠ action.requestId) :
    action.token? id = none := by
  cases action with
  | generate requestId token => exact if_neg (Ne.symm other)
  | _ => rfl

/-- What a run has done for one request: the tokens of its backend, the exceptions that ended its batch, and the
    outcomes that are counted. -/
structure Served where
  tokens : List String
  raised : PyException → Prop
  counted : Outcome → Prop

def servedBy (run : List InFlightAction) (s : Services) (id : String) : Served where
  tokens := generated run id
  raised exc := .fail id exc ∈ run
  counted o := (id, o) ∈ s.terminal

structure Served.Within (v w : Served) : Prop where
  tokens : w.tokens = v.tokens
  raised : ∀ exc, v.raised exc → w.raised exc
  counted : ∀ o, v.counted o → w.counted o

/-- The events a worker has put for a request by the time it has got to `worker`. -/
inductive Emitted (v : Served) : WorkerPoint → List StreamEvent → Prop where
  | absent (silent : v.tokens = []) : Emitted v .absent []
  | queued (silent : v.tokens = []) : Emitted v .queued []
  | running (batchStart : ℚ) : Emitted v (.running v.tokens batchStart) (v.tokens.map .token)
  | completed (counted : v.counted (.success v.tokens.length)) :
      Emitted v .done (v.tokens.map .token ++ [.completed "stop"])
  | failed (exc : PyException) (raised : v.raised exc) : Emitted v .done (v.tokens.map .token ++ [.error exc.str])
  | dropped (delivered : List String) (earlier : delivered <+: v.tokens) : Emitted v .done (delivered.map .token)

def Future.Unresolved {α : Type} (future : Future α) : Prop := future = .pending ∨ future = .cancelled

/-- What the future of a request holds by the time its worker has got to `worker`. -/
inductive Computed (v : Served) (id : String) : WorkerPoint → Future GenerationResult → Prop where
  | absent {future : Future GenerationResult} (silent : v.tokens = []) (unresolved : future.Unresolved) :
      Computed v id .absent future
  | queued {future : Future GenerationResult} (silent : v.tokens = []) (unresolved : future.Unresolved) :
      Computed v id .queued future
  | running {future : Future GenerationResult} (batchStart : ℚ) (unresolved : future.Unresolved) :
      Computed v id (.running v.tokens batchStart) future
  | result (counted : v.counted (.success v.tokens.length)) :
      Computed v id .done (.result { requestId := id, tokens := v.tokens })
  | exception (exc : PyException) (raised : v.raised exc) : Computed v id .done (.exception exc)
  | dropped {future : Future GenerationResult} (unresolved : future.Unresolved) : Computed v id .done future

variable {v w : Served} {id : String} {worker : WorkerPoint}

theorem Emitted.within {events : List StreamEvent} (emitted : Emitted v worker events) (kept : v.Within w) :
    Emitted w worker events := by
  obtain ⟨tokens, raised, counted⟩ := w
  obtain ⟨rfl, raises, counts⟩ := kept
  cases emitted with
  | absent silent => exact .absent silent
  | queued silent => exact .queued silent
  | running batchStart => exact .running batchStart
  | completed counted => exact .completed (counts _ counted)
  | failed exc raised => exact .failed exc (raises exc raised)
  | dropped delivered earlier => exact .dropped delivered earlier

theorem Computed.within {future : Future GenerationResult} (computed : Computed v id worker future)
    (kept : v.Within w) : Computed w id worker future := by
  obtain ⟨tokens, raised, counted⟩ := w
  obtain ⟨rfl, raises, counts⟩ := kept
  cases computed with
  | absent silent unresolved => exact .absent silent unresolved
  | queued silent unresolved => exact .queued silent unresolved
  | running batchStart unresolved => exact .running batchStart unresolved
  | result counted => exact .result (counts _ counted)
  | exception exc raised => exact .exception exc (raises exc raised)
  | dropped unresolved => exact .dropped unresolved

section Emitting

variable {events : List StreamEvent} {tokens : List String} {batchStart : ℚ}

theorem Emitted.enqueue (emitted : Emitted v .absent events) : Emitted v .queued events := by
  cases emitted with
  | absent silent => exact .queued silent

theorem Emitted.start (emitted : Emitted v .queued events) (batchStart : ℚ) :
    Emitted v (.running [] batchStart) events := by
  cases emitted with
  | queued silent =>
    have started := Emitted.running (v := v) batchStart
    rwa [silent] at started

theorem Emitted.skip (emitted : Emitted v .queued events) : Emitted v .done events := by
  cases emitted with
  | queued silent => exact .dropped [] List.nil_prefix

theorem Emitted.drop (emitted : Emitted v (.running tokens batchStart) events) (later : v.tokens <+: w.tokens) :
    Emitted w .done events := by
  cases emitted with
  | running batchStart => exact .dropped _ later

theorem Emitted.generate {token : String} (emitted : Emitted v (.running tokens batchStart) events)
    (grown : w.tokens = v.tokens ++ [token]) :
    Emitted w (.running (tokens ++ [token]) batchStart) (events ++ [.token token]) := by
  cases emitted with
  | running batchStart =>
    have grows := Emitted.running (v := w) batchStart
    rwa [grown, List.map_append] at grows

theorem Emitted.complete (emitted : Emitted v (.running tokens batchStart) events) (same : w.tokens = v.tokens)
    (counted : w.counted (.success tokens.length)) : Emitted w .done (events ++ [.completed "stop"]) := by
  cases emitted with
  | running batchStart =>
    rw [← same] at counted ⊢
    exact .completed counted

theorem Emitted.fail {exc : PyException} (emitted : Emitted v (.running tokens batchStart) events)
    (same : w.tokens = v.tokens) (raised : w.raised exc) : Emitted w .done (events ++ [.error exc.str]) := by
  cases emitted with
  | running batchStart =>
    rw [← same]
    exact .failed exc raised

theorem Emitted.running_events (emitted : Emitted v worker events) (running : worker = .running tokens batchStart) :
    events = v.tokens.map .token := by
  cases emitted with
  | running batchStart => rfl
  | absent silent => cases running
  | queued silent => cases running
  | completed counted => cases running
  | failed exc raised => cases running
  | dropped delivered earlier => cases running

end Emitting

/-- The end of what a caller has received: nothing yet, or the one terminal event, behind all the tokens. -/
inductive Ended (v : Served) (delivered : List String) : List StreamEvent → Prop where
  | going : Ended v delivered []
  | completed (whole : delivered = v.tokens) (counted : v.counted (.success v.tokens.length)) :
      Ended v delivered [.completed "stop"]
  | failed (exc : PyException) (whole : delivered = v.tokens) (raised : v.raised exc) :
      Ended v delivered [.error exc.str]

theorem tokens_prefix {taken : List StreamEvent} {tokens : List String} (earlier : taken <+: tokens.map .token) :
    ∃ delivered, taken = delivered.map .token ∧ delivered <+: tokens := by
  use tokens.take taken.length
  constructor
  · rw [List.map_take]
    exact List.prefix_iff_eq_take.mp earlier
  · exact List.take_prefix _ _

/-- Whatever has been taken of the events is the tokens in order, up to some point or up to their end. -/
theorem Emitted.taken {events taken : List StreamEvent} (emitted : Emitted v worker events)
    (earlier : taken <+: events) :
    ∃ delivered ending, taken = delivered.map .token ++ ending ∧ delivered <+: v.tokens ∧ Ended v delivered ending := by
  have going : ∀ tokens : List String, tokens <+: v.tokens → taken <+: tokens.map .token →
      ∃ delivered ending, taken = delivered.map .token ++ ending ∧ delivered <+: v.tokens ∧
        Ended v delivered ending := by
    intro tokens within earlier
    rcases tokens_prefix earlier with ⟨delivered, rfl, first⟩
    exact ⟨delivered, [], (List.append_nil _).symm, first.trans within, .going⟩
  cases emitted with
  | absent silent => exact going [] List.nil_prefix earlier
  | queued silent => exact going [] List.nil_prefix earlier
  | running batchStart => exact going _ List.prefix_rfl earlier
  | dropped delivered within => exact going delivered within earlier
  | completed counted =>
    rcases List.prefix_concat_iff.mp earlier with rfl | inside
    · exact ⟨v.tokens, _, rfl, List.prefix_rfl, .completed rfl counted⟩
    · exact going _ List.prefix_rfl inside
  | failed exc raised =>
    rcases List.prefix_concat_iff.mp earlier with rfl | inside
    · exact ⟨v.tokens, _, rfl, List.prefix_rfl, .failed exc rfl raised⟩
    · exact going _ List.prefix_rfl inside

theorem Ended.deltaContents {delivered : List String} {ending : List StreamEvent} (ended : Ended v delivered ending)
    (id model : String) :
    deltaContents ((delivered.map StreamEvent.token ++ ending).map (sseFrame id model)) = String.join delivered := by
  cases ended <;> simp [LLMRuntime.deltaContents, sseFrame, SseFrame.deltaContent, Function.comp_def]

section Computing

variable {future : Future GenerationResult} {tokens : List String} {batchStart : ℚ}

theorem Computed.enqueue (computed : Computed v id .absent future) : Computed v id .queued future := by
  cases computed with
  | absent silent unresolved => exact .queued silent unresolved

theorem Computed.start (computed : Computed v id .queued future) (batchStart : ℚ) :
    Computed v id (.running [] batchStart) future := by
  cases computed with
  | queued silent unresolved =>
    have started : Computed v id (.running v.tokens batchStart) future := .running batchStart unresolved
    rwa [silent] at started

theorem Computed.skip (computed : Computed v id .queued future) : Computed v id .done future := by
  cases computed with
  | queued silent unresolved => exact .dropped unresolved

theorem Computed.unresolved (computed : Computed v id (.running tokens batchStart) future) :
    v.tokens = tokens ∧ future.Unresolved := by
  cases computed with
  | running batchStart unresolved => exact ⟨rfl, unresolved⟩

theorem Computed.counted {value : GenerationResult} (computed : Computed v id worker (.result value)) :
    value = { requestId := id, tokens := v.tokens } ∧ v.counted (.success v.tokens.length) := by
  cases computed with
  | result counted => exact ⟨rfl, counted⟩
  | absent silent unresolved => simp [Future.Unresolved] at unresolved
  | queued silent unresolved => simp [Future.Unresolved] at unresolved
  | running batchStart unresolved => simp [Future.Unresolved] at unresolved
  | dropped unresolved => simp [Future.Unresolved] at unresolved

theorem Computed.generate {token : String} (computed : Computed v id (.running tokens batchStart) future)
    (grown : w.tokens = v.tokens ++ [token]) : Computed w id (.running (tokens ++ [token]) batchStart) future := by
  rcases computed.unresolved with ⟨rfl, unresolved⟩
  have grows : Computed w id (.running w.tokens batchStart) future := .running batchStart unresolved
  rwa [grown] at grows

end Computing

section Signals

variable (clock : Clock) (s : Services) (item : ScheduledRequest)

theorem completeItem_streaming {handle : StreamingHandle} (streams : item.handle = .streaming handle)
    (tokens : List String) (batchStart : ℚ) :
    let result := completeItem clock s item tokens batchStart
    result.raised = none ∧ (result.item.handle = .streaming handle ∨
      result.item.handle = .streaming (handle.put (.completed "stop")) ∧
        (item.request.requestId, .success tokens.length) ∈ result.services.terminal) := by
  obtain ⟨request, _⟩ := item
  cases streams
  cases cancelled : handle.cancelled <;>
    simp [completeItem, recordCompletion, ScheduledRequest.cancelled, ResponseHandle.cancelled, cancelled]

theorem completeItem_completion {handle : CompletionHandle} (plain : item.handle = .completion handle)
    (unresolved : handle.future.Unresolved) (tokens : List String) (batchStart : ℚ) :
    let result := completeItem clock s item tokens batchStart
    result.raised = none ∧ ∃ future cancelled, result.item.handle = .completion { future, cancelled } ∧
      (future = handle.future ∨ future = .result { requestId := item.request.requestId, tokens } ∧
        (item.request.requestId, .success tokens.length) ∈ result.services.terminal) := by
  obtain ⟨request, _⟩ := item
  cases plain
  obtain ⟨future, cancelled⟩ := handle
  rcases unresolved with pending | withdrawn
  · cases pending
    cases cancelled <;> simp [completeItem, recordCompletion, ScheduledRequest.cancelled, ResponseHandle.cancelled,
      Future.isCancelled, Future.setResult, Future.done]
  · cases withdrawn
    cases cancelled <;> simp [completeItem, recordCompletion, ScheduledRequest.cancelled, ResponseHandle.cancelled,
      Future.isCancelled]

theorem failItem_streaming {handle : StreamingHandle} (streams : item.handle = .streaming handle) (exc : PyException) :
    (failItem clock s item exc).item.handle = .streaming handle ∨
      (failItem clock s item exc).item.handle = .streaming (handle.put (.error exc.str)) := by
  obtain ⟨request, _⟩ := item
  cases streams
  cases cancelled : handle.cancelled <;>
    simp [failItem, ScheduledRequest.cancelled, ResponseHandle.cancelled, cancelled]

theorem failItem_completion {handle : CompletionHandle} (plain : item.handle = .completion handle)
    (unresolved : handle.future.Unresolved) (exc : PyException) :
    ∃ future cancelled, (failItem clock s item exc).item.handle = .completion { future, cancelled } ∧
      (future = handle.future ∨ future = .exception exc) := by
  obtain ⟨request, _⟩ := item
  cases plain
  obtain ⟨future, cancelled⟩ := handle
  rcases unresolved with pending | withdrawn
  · cases pending
    cases cancelled <;> simp [failItem, ScheduledRequest.cancelled, ResponseHandle.cancelled,
      Future.isCancelled, Future.setException, Future.done]
  · cases withdrawn
    cases cancelled <;> simp [failItem, ScheduledRequest.cancelled, ResponseHandle.cancelled, Future.isCancelled]

theorem CompletionHandle.cancel_future (handle : CompletionHandle) :
    handle.cancel.2.future = handle.future ∨ handle.future.Unresolved ∧ handle.cancel.2.future.Unresolved := by
  obtain ⟨future, cancelled⟩ := handle
  cases future <;> cases cancelled <;> simp [cancel, Future.done, Future.Unresolved]

end Signals

theorem Computed.cancel {handle : CompletionHandle} (computed : Computed v id worker handle.future) :
    Computed v id worker handle.cancel.2.future := by
  rcases handle.cancel_future with same | ⟨before, after⟩
  · rw [same]
    exact computed
  · generalize handle.cancel.2.future = withdrawn at after
    generalize handle.future = future at computed before
    cases computed with
    | absent silent unresolved => exact .absent silent after
    | queued silent unresolved => exact .queued silent after
    | running batchStart unresolved => exact .running batchStart after
    | result counted => simp [Future.Unresolved] at before
    | exception exc raised => simp [Future.Unresolved] at before
    | dropped unresolved => exact .dropped after

theorem ChatStream.receive_takes (c : ChatStream) (handle : StreamingHandle) :
    ∃ new, (c.receive handle).1.sent = c.sent ++ new.map (sseFrame c.requestId c.model) ∧
      (c.receive handle).1.requestId = c.requestId ∧ (c.receive handle).1.model = c.model ∧
      new ++ (c.receive handle).2.queue = handle.queue := by
  obtain ⟨queue, cancelled, completed⟩ := handle
  cases queue with
  | nil => exact ⟨[], by simp [receive]⟩
  | cons event events =>
    use [event]
    cases ended : event.isTerminal <;> simp [receive, ended, StreamingHandle.markCompleted]

theorem StreamingHandle.cancel_queue (handle : StreamingHandle) : handle.cancel.2.queue = handle.queue := by
  unfold cancel
  split <;> rfl

theorem ChatStream.move_takes {c : ChatStream} {handle : StreamingHandle} {moved : Bool × ChatStream × StreamingHandle}
    (taken : c.advance handle = some moved ∨ c.close handle = some moved) :
    ∃ new, moved.2.1.sent = c.sent ++ new.map (sseFrame c.requestId c.model) ∧
      moved.2.1.requestId = c.requestId ∧ moved.2.1.model = c.model ∧ new ++ moved.2.2.queue = handle.queue := by
  have leaves : (c.leave handle).2.1.sent = c.sent ∧ (c.leave handle).2.1.requestId = c.requestId ∧
      (c.leave handle).2.1.model = c.model ∧ (c.leave handle).2.2.queue = handle.queue :=
    ⟨rfl, rfl, rfl, handle.cancel_queue⟩
  rcases taken with advanced | closed
  · cases point : c.point with
    | finished => simp [advance, point] at advanced
    | yieldedLast =>
      simp only [advance, point, Option.some.injEq] at advanced
      subst advanced
      exact ⟨[], by simp [leaves]⟩
    | awaiting =>
      simp only [advance, point] at advanced
      split at advanced
      · cases advanced
      · cases advanced
        exact c.receive_takes handle
    | notStarted =>
      simp only [advance, point, Option.some.injEq] at advanced
      subst advanced
      exact c.receive_takes handle
    | yielded =>
      simp only [advance, point, Option.some.injEq] at advanced
      subst advanced
      exact c.receive_takes handle
  · use []
    cases point : c.point with
    | finished => simp [close, point] at closed
    | notStarted =>
      simp only [close, point, Option.some.injEq] at closed
      subst closed
      simp
    | awaiting =>
      simp only [close, point, Option.some.injEq] at closed
      subst closed
      simp [leaves]
    | yielded =>
      simp only [close, point, Option.some.injEq] at closed
      subst closed
      simp [leaves]
    | yieldedLast =>
      simp only [close, point, Option.some.injEq] at closed
      subst closed
      simp [leaves]

end LLMRuntime
