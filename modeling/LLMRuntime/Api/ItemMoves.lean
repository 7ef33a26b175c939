import LLMRuntime.Api.Produced
import LLMRuntime.Workers.ItemMachine

namespace LLMRuntime

open Transition

def BatchEvent.move : BatchEvent → InFlightAction
  | .token requestId text => .generate requestId text
  | .completed requestId => .complete requestId

def Ending.move (ending : Ending) (requestId : String) : InFlightAction :=
  match ending with
  | .normal => .complete requestId
  | .raised exc => .fail requestId exc

theorem BatchEvent.move_requestId (event : BatchEvent) : event.move.requestId = event.requestId := by
  cases event <;> rfl

theorem Ending.move_requestId (ending : Ending) (requestId : String) :
    (ending.move requestId).requestId = requestId := by
  cases ending <;> rfl

namespace Caller

inductive Waits : Caller → ResponseHandle → Prop where
  | handler {handle : CompletionHandle} (model : String) (point : HandlerPoint)
      (waits : handle.cancelled = false → ∃ t0, point = .waiting t0) :
      Waits (.handler model point) (.completion handle)
  | stream {handle : StreamingHandle} (generator : ChatStream) (untaken : generator.sent = [])
      (going : handle.completed = false) (waits : handle.cancelled = false → generator.point = .awaiting) :
      Waits (.stream generator) (.streaming handle)

variable {caller : Caller} {h : ResponseHandle}

theorem Waits.deliver (waits : caller.Waits h) (token : String) : caller.Waits (h.deliver token) := by
  cases waits with
  | handler model point waits => exact .handler model point waits
  | stream generator untaken going waits => exact .stream generator untaken going waits

theorem Waits.complete (waits : caller.Waits h) (requestId : String) (tokens : List String) :
    caller.Waits (h.complete requestId tokens) := by
  cases waits with
  | handler model point waits => exact .handler model point waits
  | stream generator untaken going waits => exact .stream generator untaken going waits

theorem Waits.fail (waits : caller.Waits h) (exc : PyException) : caller.Waits (h.fail exc) := by
  cases waits with
  | handler model point waits => exact .handler model point waits
  | stream generator untaken going waits => exact .stream generator untaken going waits

theorem Waits.event {v : ItemView} (waits : caller.Waits v.handle) (requestId : String) (event : BatchEvent) :
    caller.Waits (v.step requestId (.event event)).handle := by
  simp only [ItemView.step]
  split
  · exact waits
  · split
    · exact waits
    · cases event with
      | token _ token => exact waits.deliver token
      | completed _ => exact waits.complete requestId v.tokens

theorem Waits.finish {v : ItemView} (waits : caller.Waits v.handle) (requestId : String) (ending : Ending) :
    caller.Waits (v.finish requestId ending).handle := by
  unfold ItemView.finish
  split
  · cases ending with
    | normal => exact waits.complete requestId v.tokens
    | raised exc => exact waits.fail exc
  · exact waits

theorem Waits.cancel (waits : caller.Waits h) :
    h.cancel.cancelled = true ∧ (h.cancelled = true → h.cancel = h) := by
  cases waits with
  | @handler handle model point waits =>
    cases flag : handle.cancelled <;>
      simp [ResponseHandle.cancel, ResponseHandle.cancelled, CompletionHandle.cancel, flag]
  | @stream handle generator untaken going waits =>
    cases flag : handle.cancelled <;>
      simp [ResponseHandle.cancel, ResponseHandle.cancelled, StreamingHandle.cancel, flag, going]

end Caller

namespace Accepted

variable {s : Services} {r : Accepted} {tokens : List String} {batchStart : ℚ}

structure Becomes (r : Accepted) (s : Services) (v : ItemView) (worker : WorkerPoint) (r' : Accepted)
    (s' : Services) : Prop where
  caller : r'.caller = r.caller
  named : r'.item.request.requestId = r.item.request.requestId
  handle : r'.item.handle = v.handle
  worker : r'.worker = worker
  recorded : s.Records s' r.item.request.requestId v.records

theorem becomes_of_leaves {result : ItemResult} {v : ItemView} {worker : WorkerPoint}
    (leaves : result.Leaves s r.item v.handle v.records) :
    r.Becomes s v worker { r with item := result.item, worker } result.services :=
  ⟨rfl, leaves.requestId, leaves.handle, rfl, leaves.recorded⟩

theorem event_becomes (clock : Clock) (requestTimeoutS : ℚ) (s : Services)
    (running : r.worker = .running tokens batchStart) (phase : ItemView.Phase { handle := r.item.handle, tokens })
    (event : BatchEvent) :
    let v := ItemView.step r.item.request.requestId { handle := r.item.handle, tokens } (.event event)
    ∃ s' r', InFlight.act clock requestTimeoutS s r event.move = some (s', r') ∧
      r.Becomes s v (if v.pending then .running v.tokens batchStart else .done) r' s' := by
  cases live : r.item.handle.cancelled with
  | true =>
    have flag : r.item.cancelled = true := live
    simp only [ItemView.step, live]
    refine ⟨s, { r with worker := .done }, ?_, rfl, rfl, rfl, rfl, .refl⟩
    cases event with
    | token id token => simp [BatchEvent.move, InFlight.act, Accepted.generate, running, flag]
    | completed id => simp [BatchEvent.move, InFlight.act, Accepted.complete, running, completeItem, flag]
  | false =>
    have flag : r.item.cancelled = false := live
    have isOpen : r.item.handle.Open tokens := phase.open_of_live rfl live
    simp only [ItemView.step, live]
    cases event with
    | token id token =>
      refine ⟨_, _, ?_, becomes_of_leaves (deliverToken_leaves clock s r.item token)⟩
      simp [BatchEvent.move, InFlight.act, Accepted.generate, running, flag, ItemView.event]
    | completed id =>
      have leaves := completeItem_open clock s r.item tokens tokens batchStart isOpen
      refine ⟨_, _, ?_, becomes_of_leaves leaves⟩
      simp [BatchEvent.move, InFlight.act, Accepted.complete, running, leaves.raised, ItemView.event]

theorem finish_becomes (clock : Clock) (requestTimeoutS : ℚ) (s : Services)
    (running : r.worker = .running tokens batchStart) (phase : ItemView.Phase { handle := r.item.handle, tokens })
    (ending : Ending) (requestId : String) :
    ∃ s' r', InFlight.act clock requestTimeoutS s r (ending.move requestId) = some (s', r') ∧
      r.Becomes s (ItemView.finish r.item.request.requestId { handle := r.item.handle, tokens } ending) .done
        r' s' := by
  cases live : r.item.handle.cancelled with
  | true =>
    have flag : r.item.cancelled = true := live
    simp only [ItemView.finish, live]
    refine ⟨s, { r with worker := .done }, ?_, rfl, rfl, rfl, rfl, .refl⟩
    cases ending with
    | normal => simp [Ending.move, InFlight.act, Accepted.complete, running, completeItem, flag]
    | raised exc => simp [Ending.move, InFlight.act, Accepted.fail, running, failItem, flag]
  | false =>
    have isOpen : r.item.handle.Open tokens := phase.open_of_live rfl live
    simp only [ItemView.finish, live]
    cases ending with
    | normal =>
      have leaves := completeItem_open clock s r.item tokens tokens batchStart isOpen
      refine ⟨_, _, ?_, becomes_of_leaves leaves⟩
      simp [Ending.move, InFlight.act, Accepted.complete, running, leaves.raised]
    | raised exc =>
      refine ⟨_, _, ?_, becomes_of_leaves (failItem_open clock s r.item exc tokens isOpen)⟩
      simp [Ending.move, InFlight.act, Accepted.fail, running]

theorem start_becomes (clock : Clock) (requestTimeoutS : ℚ) (s : Services) (queued : r.worker = .queued)
    (requestId : String) :
    ∃ batchStart s' r', InFlight.act clock requestTimeoutS s r (.startBatch requestId) = some (s', r') ∧
      r.Becomes s { handle := r.item.handle } (if r.item.handle.cancelled then .done else .running [] batchStart)
        r' s' := by
  let item := { r.item with request := r.item.request.markStarted (clock.reading s.ticks) }
  cases live : r.item.handle.cancelled with
  | true =>
    refine ⟨0, (s.perfCounter clock).2, { r with item, worker := .done }, ?_, rfl, rfl, rfl, rfl, .of_counters rfl rfl⟩
    simp [InFlight.act, Accepted.startBatch, queued, ScheduledRequest.cancelled, live, Services.perfCounter, item]
  | false =>
    let batchStart := clock.reading (s.perfCounter clock).2.ticks
    refine ⟨batchStart, ((s.perfCounter clock).2.perfCounter clock).2,
      { r with item, worker := .running [] batchStart }, ?_, rfl, rfl, rfl, rfl, .of_counters rfl rfl⟩
    simp [InFlight.act, Accepted.startBatch, queued, ScheduledRequest.cancelled, live, Services.perfCounter, item,
      batchStart]

end Accepted

theorem Services.records_gaveUp (s : Services) (clock : Clock) (request : RuntimeRequest) (event : LogEvent) :
    s.Records ((s.recordFailure clock request).2.emit event) request.requestId [.failure] := by
  apply Services.records_emit.mpr
  exact Services.records_recordFailure clock request .refl rfl

namespace InFlight

variable {clock : Clock} {requestTimeoutS : ℚ} {st t u : InFlight} {ids more : List String}

structure Touches (st : InFlight) (ids : List String) (t : InFlight) : Prop where
  accepted : t.accepted = st.accepted
  requests : ∀ id, id ∉ ids → t.requests id = st.requests id
  records : ∀ id, id ∉ ids → t.services.recordsOf id = st.services.recordsOf id

def Became (st : InFlight) (id : String) (v : ItemView) (worker : WorkerPoint) (t : InFlight) : Prop :=
  ∃ r r', st.requests id = some r ∧ t.requests id = some r' ∧ r'.caller = r.caller ∧
    r'.item.request.requestId = r.item.request.requestId ∧ r'.item.handle = v.handle ∧ r'.worker = worker ∧
    t.services.recordsOf id = st.services.recordsOf id ++ v.records

theorem Touches.trans (first : st.Touches ids t) (second : t.Touches more u) : st.Touches (ids ++ more) u where
  accepted := second.accepted.trans first.accepted
  requests id outside := by
    rw [List.mem_append, not_or] at outside
    rw [second.requests id outside.2, first.requests id outside.1]
  records id outside := by
    rw [List.mem_append, not_or] at outside
    rw [second.records id outside.2, first.records id outside.1]

theorem Touches.mono (touches : st.Touches ids t) (within : ids ⊆ more) : st.Touches more t where
  accepted := touches.accepted
  requests id outside := touches.requests id fun inside => outside (within inside)
  records id outside := touches.records id fun inside => outside (within inside)

theorem act_touches {action : InFlightAction} {r r' : Accepted} {s' : Services} {records : List Outcome}
    (found : st.requests action.requestId = some r)
    (acted : act clock requestTimeoutS st.services r action = some (s', r'))
    (recorded : st.services.Records s' action.requestId records) :
    ∃ t, step clock requestTimeoutS st action = some t ∧ st.Touches [action.requestId] t ∧ t.services = s' ∧
      t.requests action.requestId = some r' := by
  refine ⟨_, step_of_act found acted, ⟨rfl, ?_, ?_⟩, rfl, Function.update_self _ _ _⟩
  · intro id outside
    exact Function.update_of_ne (List.ne_of_not_mem_cons outside) _ _
  · intro id outside
    have other := List.ne_of_not_mem_cons outside
    exact (recorded.recordsOf id).trans (by rw [if_neg other, List.append_nil])

theorem step_becomes {action : InFlightAction} {r r' : Accepted} {s' : Services} {v : ItemView} {worker : WorkerPoint}
    (found : st.requests action.requestId = some r) (named : r.item.request.requestId = action.requestId)
    (acted : act clock requestTimeoutS st.services r action = some (s', r'))
    (becomes : r.Becomes st.services v worker r' s') :
    ∃ t, step clock requestTimeoutS st action = some t ∧ st.Touches [action.requestId] t ∧
      st.Became action.requestId v worker t := by
  have recorded := becomes.recorded
  rw [named] at recorded
  rcases act_touches found acted recorded with ⟨t, taken, touches, rfl, after⟩
  refine ⟨t, taken, touches, r, r', found, after, becomes.caller, becomes.named, becomes.handle, becomes.worker, ?_⟩
  rw [recorded.recordsOf, if_pos rfl]

/-- Distinct requests move one after the other, each by itself. -/
theorem exec_each {move : String → InFlightAction} {P : String → ItemView → WorkerPoint → Prop} (nodup : ids.Nodup)
    (own : ∀ id ∈ ids, (move id).requestId = id)
    (each : ∀ id ∈ ids, ∃ r, st.requests id = some r ∧ r.item.request.requestId = id ∧ ∀ s, ∃ v worker s' r',
      act clock requestTimeoutS s r (move id) = some (s', r') ∧ r.Becomes s v worker r' s' ∧ P id v worker) :
    ∃ t, exec (step clock requestTimeoutS) st (ids.map move) = some t ∧ st.Touches ids t ∧
      ∀ id ∈ ids, ∃ v worker, st.Became id v worker t ∧ P id v worker := by
  induction ids generalizing st with
  | nil =>
    refine ⟨st, rfl, ⟨rfl, fun _ _ => rfl, fun _ _ => rfl⟩, ?_⟩
    intro id inside
    cases inside
  | cons id rest ih =>
    rcases List.nodup_cons.mp nodup with ⟨fresh, nodupRest⟩
    have mine := own id List.mem_cons_self
    rcases each id List.mem_cons_self with ⟨r, found, named, moves⟩
    rcases moves st.services with ⟨v, worker, s', r', acted, becomes, holds⟩
    rw [← mine] at found named
    rcases step_becomes found named acted becomes with ⟨next, taken, touches, became⟩
    rw [mine] at touches became
    have apart : ∀ other ∈ rest, other ∉ [id] := by
      intro other inside same
      exact fresh (List.mem_singleton.mp same ▸ inside)
    have remain : ∀ other ∈ rest, ∃ r, next.requests other = some r ∧ r.item.request.requestId = other ∧
        ∀ s, ∃ v worker s' r', act clock requestTimeoutS s r (move other) = some (s', r') ∧
          r.Becomes s v worker r' s' ∧ P other v worker := by
      intro other inside
      rw [touches.requests other (apart other inside)]
      exact each other (List.mem_cons_of_mem _ inside)
    rcases ih nodupRest (fun other inside => own other (List.mem_cons_of_mem _ inside)) remain with
      ⟨t, run, touched, others⟩
    refine ⟨t, exec_cons_some.mpr ⟨next, taken, run⟩, touches.trans touched, ?_⟩
    intro other inside
    rcases List.mem_cons.mp inside with rfl | inside
    · rcases became with ⟨q, q', before, after, rest⟩
      refine ⟨v, worker, ⟨q, q', before, ?_, ?_⟩, holds⟩
      · rw [touched.requests other fresh, after]
      · rw [touched.records other fresh]
        exact rest
    · rcases others other inside with ⟨v, worker, ⟨q, q', before, after, rest⟩, holds⟩
      refine ⟨v, worker, ⟨q, q', ?_, after, ?_⟩, holds⟩
      · rw [← touches.requests other (apart other inside), before]
      · rw [← touches.records other (apart other inside)]
        exact rest

/-- A body is accepted and enqueued; a stream is asked for its first frame. -/
def submission (requestId : String) (stream : Bool) : List InFlightAction :=
  [.arrive requestId { messages := [], stream } { accepted := true }, .enqueue requestId] ++
    if stream then [.advance requestId] else []

def withdrawal (requestId : String) : Caller → List InFlightAction
  | .handler _ _ => [.deliver requestId .disconnect, .resume requestId]
  | .stream _ => [.close requestId]

theorem submission_silent (requestId id : String) (stream : Bool) :
    (submission requestId stream).filterMap (·.token? id) = [] := by
  cases stream <;> rfl

theorem withdrawal_silent (requestId id : String) (caller : Caller) :
    (withdrawal requestId caller).filterMap (·.token? id) = [] := by
  cases caller <;> rfl

variable {requestId : String} {r r' : Accepted} {s' : Services}

structure Enters (st : InFlight) (requestId : String) (r : Accepted) (t : InFlight) : Prop where
  accepted : t.accepted = st.accepted ++ [requestId]
  requests : t.requests = Function.update st.requests requestId (some r)
  records : ∀ id, t.services.recordsOf id = st.services.recordsOf id
  named : r.item.request.requestId = requestId

theorem arrive_enters (clock : Clock) (requestTimeoutS : ℚ) (body : ChatCompletionRequest)
    (fresh : requestId ∉ st.accepted) :
    ∃ t createdAt, step clock requestTimeoutS st (.arrive requestId body { accepted := true }) = some t ∧
      st.Enters requestId
        { item := .ofBody body requestId createdAt, caller := callerOf body requestId, worker := .absent } t := by
  let s := ((st.services.perfCounter clock).2.emit (.requestReceived requestId body.model body.stream)).recordRequest
  let item := ScheduledRequest.ofBody body requestId (clock.reading st.services.ticks)
  let arrived : Accepted := { item, caller := callerOf body requestId, worker := .absent }
  refine ⟨{ services := s, accepted := st.accepted ++ [requestId],
            requests := Function.update st.requests requestId (some arrived) }, _, ?_, rfl, rfl, fun _ => rfl, rfl⟩
  simp only [InFlight.step, if_neg fresh]
  rfl

theorem Enters.step (action : InFlightAction) (enters : st.Enters requestId r t) (mine : action.requestId = requestId)
    (acted : act clock requestTimeoutS t.services r action = some (s', r')) (quiet : s'.terminal = t.services.terminal)
    (named : r'.item.request.requestId = requestId) :
    ∃ u, InFlight.step clock requestTimeoutS t action = some u ∧ st.Enters requestId r' u := by
  have found : t.requests action.requestId = some r := by
    rw [enters.requests, mine, Function.update_self]
  refine ⟨_, step_of_act found acted, enters.accepted, ?_, fun id => ?_, named⟩
  · rw [mine, enters.requests, Function.update_idem]
  · rw [← enters.records id, Services.recordsOf, quiet, Services.recordsOf]

theorem exec_submission (clock : Clock) (requestTimeoutS : ℚ) (stream : Bool) (fresh : requestId ∉ st.accepted) :
    ∃ t r, exec (InFlight.step clock requestTimeoutS) st (submission requestId stream) = some t ∧
      st.Enters requestId r t ∧ r.item.handle = (if stream then .streaming .create else .completion .create) ∧
      r.caller.Waits r.item.handle ∧ r.worker = .queued := by
  rcases arrive_enters clock requestTimeoutS { messages := [], stream } fresh with ⟨arrived, createdAt, arrives, enters⟩
  cases stream with
  | false =>
    rcases enters.step (.enqueue requestId) rfl rfl rfl rfl with ⟨queued, enqueues, enters⟩
    refine ⟨queued, _, ?_, enters, rfl, ?_, rfl⟩
    · exact exec_cons_some.mpr ⟨arrived, arrives, exec_cons_some.mpr ⟨queued, enqueues, rfl⟩⟩
    · exact .handler _ _ fun _ => ⟨_, rfl⟩
  | true =>
    rcases enters.step (.enqueue requestId) rfl rfl rfl rfl with ⟨queued, enqueues, enters⟩
    rcases enters.step (.advance requestId) rfl rfl rfl rfl with ⟨asked, advances, enters⟩
    refine ⟨asked, _, ?_, enters, rfl, ?_, rfl⟩
    · exact exec_cons_some.mpr ⟨arrived, arrives, exec_cons_some.mpr ⟨queued, enqueues,
        exec_cons_some.mpr ⟨asked, advances, rfl⟩⟩⟩
    · exact .stream _ rfl rfl fun _ => rfl

/-- A caller that gives up cancels its handle; only its own request is recorded. -/
theorem exec_withdrawal (clock : Clock) (requestTimeoutS : ℚ) (found : st.requests requestId = some r)
    (named : r.item.request.requestId = requestId) (submitted : r.worker ≠ .absent)
    (waits : r.caller.Waits r.item.handle) (live : r.item.handle.cancelled = false) :
    ∃ t r', exec (InFlight.step clock requestTimeoutS) st (withdrawal requestId r.caller) = some t ∧
      st.Touches [requestId] t ∧ t.requests requestId = some r' ∧ r'.item.request.requestId = requestId ∧
      r'.item.handle = r.item.handle.cancel ∧ r'.worker = r.worker ∧ r'.caller.Waits r'.item.handle := by
  obtain ⟨⟨request, handle⟩, caller, worker⟩ := r
  cases waits with
  | @handler handle model point waits =>
    rcases waits live with ⟨t0, rfl⟩
    let waiting : Accepted := { item := ⟨request, .completion handle⟩, caller := .handler model (.waiting t0), worker }
    let signalled : Accepted := { waiting with caller := .handler model (.signalled t0 .disconnect) }
    let gone := disconnectBranch clock st.services request handle
    have told : act clock requestTimeoutS st.services waiting (.deliver requestId .disconnect) =
      some (st.services, signalled) := rfl
    rcases act_touches found told .refl with ⟨t, delivers, touches, services, reached⟩
    have left : act clock requestTimeoutS t.services signalled (.resume requestId) =
        some (gone.services,
          { signalled with item := gone.item, caller := .handler model (.responded gone.reply) }) := by
      rw [services]
      rfl
    have recorded : t.services.Records gone.services requestId [.failure] := by
      rw [services, ← named]
      exact st.services.records_gaveUp clock request _
    have here : t.requests requestId = some signalled := reached
    rcases act_touches here left recorded with ⟨u, resumes, touched, -, after⟩
    have run : exec (InFlight.step clock requestTimeoutS) st [.deliver requestId .disconnect, .resume requestId] =
        some u := exec_cons_some.mpr ⟨t, delivers, exec_cons_some.mpr ⟨u, resumes, rfl⟩⟩
    refine ⟨u, _, run, ?_, after, named, rfl, rfl, ?_⟩
    · exact (touches.trans touched).mono (by simp [InFlightAction.requestId])
    · refine .handler model _ fun opened => ?_
      have flag : handle.cancelled = false := live
      simp [CompletionHandle.cancel, flag] at opened
  | @stream handle generator untaken going waits =>
    have flag : handle.cancelled = false := live
    have cancels : handle.cancel = (true, { handle with cancelled := true }) := by
      simp [StreamingHandle.cancel, flag, going]
    let gone := cancelStream clock st.services ⟨request, .streaming { handle with cancelled := true }⟩
    have left : act clock requestTimeoutS st.services
          { item := ⟨request, .streaming handle⟩, caller := .stream generator, worker } (.close requestId) =
        some (gone.1, { item := gone.2, caller := .stream { generator with point := .finished }, worker }) := by
      have leaves : generator.close handle = some (true, { generator with point := .finished },
          { handle with cancelled := true }) := by
        rw [ChatStream.close, waits live, ChatStream.leave, cancels]
      simp only [act, Accepted.close, Accepted.moveStream, leaves]
      rfl
    have recorded : st.services.Records gone.1 requestId [.failure] := by
      rw [← named]
      exact st.services.records_gaveUp clock request _
    rcases act_touches found left recorded with ⟨t, closes, touches, -, after⟩
    refine ⟨t, _, exec_cons_some.mpr ⟨t, closes, rfl⟩, touches, after, named, ?_, rfl, ?_⟩
    · rw [ResponseHandle.cancel, cancels]
      rfl
    · exact .stream _ untaken going fun opened => by cases opened

end InFlight

end LLMRuntime
