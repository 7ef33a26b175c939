import LLMRuntime.Api.Accounting
import LLMRuntime.Api.Produced

namespace LLMRuntime

open Transition

/-- What no step of a request touches: the outcomes counted so far, and what was asked. -/
structure Frames (s : Services) (request : RuntimeRequest) (s' : Services) (request' : RuntimeRequest) : Prop where
  counted : s.terminal <+: s'.terminal
  requestId : request'.requestId = request.requestId
  messages : request'.messages = request.messages

section Frames

variable (clock : Clock) (s : Services) (item : ScheduledRequest)

theorem completeItem_frames (tokens : List String) (batchStart : ℚ) :
    Frames s item.request (completeItem clock s item tokens batchStart).services
      (completeItem clock s item tokens batchStart).item.request := by
  unfold completeItem
  split
  · exact ⟨List.prefix_rfl, rfl, rfl⟩
  · dsimp only
    split
    · split
      · exact ⟨List.prefix_append _ _, rfl, rfl⟩
      · split
        · exact ⟨List.prefix_append _ _, rfl, rfl⟩
        · exact ⟨List.prefix_rfl, rfl, rfl⟩
    · split
      · exact ⟨List.prefix_rfl, rfl, rfl⟩
      · exact ⟨List.prefix_append _ _, rfl, rfl⟩

theorem failItem_frames (exc : PyException) :
    Frames s item.request (failItem clock s item exc).services (failItem clock s item exc).item.request := by
  unfold failItem
  split
  · exact ⟨List.prefix_rfl, rfl, rfl⟩
  · dsimp only
    split
    · split
      · exact ⟨List.prefix_append _ _, rfl, rfl⟩
      · split <;> exact ⟨List.prefix_append _ _, rfl, rfl⟩
    · exact ⟨List.prefix_append _ _, rfl, rfl⟩

theorem deliverToken_frames (token : String) :
    Frames s item.request (deliverToken clock s item token).services (deliverToken clock s item token).item.request := by
  obtain ⟨request, handle⟩ := item
  cases handle <;> cases missing : request.firstTokenAt <;> constructor <;>
    simp [deliverToken, missing, RuntimeRequest.markFirstToken]

theorem Frames.trans {s t u : Services} {first second third : RuntimeRequest} (before : Frames s first t second)
    (after : Frames t second u third) : Frames s first u third where
  counted := before.counted.trans after.counted
  requestId := after.requestId.trans before.requestId
  messages := after.messages.trans before.messages

theorem giveUp_frames (request : RuntimeRequest) (handle : CompletionHandle) (error : String) (reply : Reply) :
    Frames s request (giveUp clock s request handle error reply).services
      (giveUp clock s request handle error reply).item.request :=
  ⟨List.prefix_append _ _, rfl, rfl⟩

theorem resumeHandler_frames {requestTimeoutS : ℚ} {model : String} {point : HandlerPoint} {request : RuntimeRequest}
    {handle : CompletionHandle} {result : HandlerResult}
    (resumed : resumeHandler clock requestTimeoutS model point s request handle = some result) :
    Frames s request result.services result.item.request := by
  unfold resumeHandler at resumed
  split at resumed
  · cases resumed
    exact giveUp_frames clock s request handle _ _
  · cases resumed
    exact giveUp_frames clock s request handle _ _
  · split at resumed
    · cases resumed
    · cases resumed
      exact ⟨List.prefix_rfl, rfl, rfl⟩
    · split at resumed
      · cases resumed
        exact giveUp_frames clock s request handle _ _
      · cases resumed
        exact ⟨List.prefix_rfl, rfl, rfl⟩
    · cases resumed
      exact giveUp_frames clock s request handle _ _
  · cases resumed

end Frames

namespace Accepted

variable {clock : Clock} {s s' : Services} {r r' : Accepted} {requestTimeoutS : ℚ} {action : InFlightAction}

theorem moveStream_frames {move : ChatStream → StreamingHandle → Option (Bool × ChatStream × StreamingHandle)}
    (taken : r.moveStream clock s move = some (s', r')) : Frames s r.item.request s' r'.item.request := by
  unfold moveStream at taken
  split at taken
  · cases taken
  · rcases Option.map_eq_some_iff.mp taken with ⟨⟨fires, generator, handle⟩, -, left⟩
    unfold afterStream at left
    cases fires with
    | true =>
      cases left
      exact ⟨List.prefix_append _ _, rfl, rfl⟩
    | false =>
      cases left
      exact ⟨List.prefix_rfl, rfl, rfl⟩
  · cases taken

theorem act_frames (taken : InFlight.act clock requestTimeoutS s r action = some (s', r')) :
    Frames s r.item.request s' r'.item.request := by
  cases action with
  | arrive requestId body admission => cases taken
  | advance requestId => exact moveStream_frames taken
  | close requestId => exact moveStream_frames taken
  | enqueue requestId =>
    simp only [InFlight.act, Accepted.enqueue] at taken
    split at taken
    · split at taken <;> cases taken <;> exact ⟨List.prefix_rfl, rfl, rfl⟩
    · cases taken
  | deliver requestId signal =>
    simp only [InFlight.act, Accepted.deliver] at taken
    split at taken <;> cases taken
    exact ⟨List.prefix_rfl, rfl, rfl⟩
  | resume requestId =>
    simp only [InFlight.act, Accepted.resume] at taken
    split at taken
    · rcases Option.map_eq_some_iff.mp taken with ⟨result, resumed, same⟩
      cases same
      exact resumeHandler_frames clock s resumed
    · cases taken
  | startBatch requestId =>
    simp only [InFlight.act, Accepted.startBatch] at taken
    split at taken
    · split at taken <;> cases taken <;> exact ⟨List.prefix_rfl, rfl, rfl⟩
    · cases taken
  | generate requestId token =>
    simp only [InFlight.act, Accepted.generate] at taken
    split at taken
    · split at taken <;> cases taken
      · exact ⟨List.prefix_rfl, rfl, rfl⟩
      · exact deliverToken_frames clock s r.item token
    · cases taken
  | complete requestId =>
    simp only [InFlight.act, Accepted.complete] at taken
    split at taken
    · next tokens batchStart running =>
      have completed := completeItem_frames clock s r.item tokens batchStart
      cases taken
      split
      · exact completed
      · exact completed.trans (failItem_frames clock _ _ _)
    · cases taken
  | fail requestId exc =>
    simp only [InFlight.act, Accepted.fail] at taken
    split at taken
    · cases taken
      exact failItem_frames clock s r.item exc
    · cases taken

end Accepted

theorem ChatCompletionResponse.ofResult_congr {request asked : RuntimeRequest}
    (messages : request.messages = asked.messages) (model : String) (result : GenerationResult) :
    ChatCompletionResponse.ofResult model request result = .ofResult model asked result := by
  simp [ofResult, RuntimeRequest.promptTokenEstimate, RuntimeRequest.prompt, messages]

namespace Accepted

variable {v w : Served} {worker : WorkerPoint}

/-- How a request stands to what its backend yielded: nothing is lost or made up on the way to its caller. -/
inductive Delivers (v : Served) (model : String) (asked : RuntimeRequest) : Accepted → Prop where
  | stream {r : Accepted} (generator : ChatStream) (handle : StreamingHandle) (streams : r.caller = .stream generator)
      (handles : r.item.handle = .streaming handle) (named : generator.requestId = asked.requestId)
      (chosen : generator.model = model) (taken : List StreamEvent)
      (sent : generator.sent = taken.map (sseFrame asked.requestId model))
      (emitted : Emitted v r.worker (taken ++ handle.queue)) : Delivers v model asked r
  | handler {r : Accepted} (point : HandlerPoint) (handle : CompletionHandle)
      (handles : r.caller = .handler model point) (plain : r.item.handle = .completion handle)
      (computed : Computed v asked.requestId r.worker handle.future)
      (replied : ∀ response, point = .responded (.completion response) →
        handle.future = .result { requestId := asked.requestId, tokens := v.tokens } ∧
          response = .ofResult model asked { requestId := asked.requestId, tokens := v.tokens }) :
      Delivers v model asked r

variable {model : String} {asked : RuntimeRequest} {clock : Clock} {s s' : Services} {r r' : Accepted}

theorem Delivers.within (delivers : r.Delivers v model asked) (kept : v.Within w) : r.Delivers w model asked := by
  cases delivers with
  | stream generator handle streams handles named chosen taken sent emitted =>
    exact .stream generator handle streams handles named chosen taken sent (emitted.within kept)
  | handler point handle handles plain computed replied =>
    apply Delivers.handler point handle handles plain (computed.within kept)
    rw [kept.tokens]
    exact replied

theorem Delivers.enqueue (delivers : r.Delivers v model asked) (taken : r.enqueue clock s = some (s', r')) :
    r'.Delivers v model asked := by
  obtain ⟨item, caller, worker⟩ := r
  cases worker with
  | queued => cases taken
  | running tokens batchStart => cases taken
  | done => cases taken
  | absent =>
    cases delivers with
    | stream generator handle streams handles named chosen events sent emitted =>
      cases streams
      cases taken
      exact .stream generator handle rfl handles named chosen events sent emitted.enqueue
    | handler point handle handles plain computed replied =>
      cases handles
      cases taken
      exact .handler (.waiting _) handle rfl plain computed.enqueue (by simp)

theorem Delivers.deliver {signal : Signal} (delivers : r.Delivers v model asked)
    (taken : r.deliver s signal = some (s', r')) : r'.Delivers v model asked := by
  obtain ⟨item, caller, worker⟩ := r
  cases delivers with
  | stream generator handle streams handles named chosen events sent emitted =>
    cases streams
    cases taken
  | handler point handle handles plain computed replied =>
    cases handles
    cases point with
    | waiting t0 =>
      cases taken
      exact .handler (.signalled t0 signal) handle rfl plain computed (by simp)
    | submitting => cases taken
    | signalled t0 earlier => cases taken
    | responded reply => cases taken

theorem Delivers.startBatch (delivers : r.Delivers v model asked) (taken : r.startBatch clock s = some (s', r')) :
    r'.Delivers v model asked := by
  obtain ⟨item, caller, worker⟩ := r
  cases worker with
  | absent => cases taken
  | running tokens batchStart => cases taken
  | done => cases taken
  | queued =>
    simp only [Accepted.startBatch] at taken
    cases delivers with
    | stream generator handle streams handles named chosen events sent emitted =>
      split at taken
      · cases taken
        exact .stream generator handle streams handles named chosen events sent emitted.skip
      · cases taken
        exact .stream generator handle streams handles named chosen events sent (emitted.start _)
    | handler point handle handles plain computed replied =>
      split at taken
      · cases taken
        exact .handler point handle handles plain computed.skip replied
      · cases taken
        exact .handler point handle handles plain (computed.start _) replied

theorem Delivers.moveStream {move : ChatStream → StreamingHandle → Option (Bool × ChatStream × StreamingHandle)}
    (delivers : r.Delivers v model asked) (taken : r.moveStream clock s move = some (s', r'))
    (moves : move = ChatStream.advance ∨ move = ChatStream.close) : r'.Delivers v model asked := by
  obtain ⟨item, caller, worker⟩ := r
  unfold Accepted.moveStream at taken
  split at taken
  · cases taken
  · next generator handle streams handles submitted =>
    rcases Option.map_eq_some_iff.mp taken with ⟨moved, took, left⟩
    have takes := ChatStream.move_takes (moves.imp (· ▸ took) (· ▸ took))
    rcases takes with ⟨new, sentNew, sameId, sameModel, queued⟩
    cases delivers with
    | handler point other isHandler plain computed replied => cases isHandler.symm.trans streams
    | stream g h isStream isQueue named chosen events sent emitted =>
      cases isStream.symm.trans streams
      cases isQueue.symm.trans handles
      have worker' : r'.worker = worker := by
        cases left
        rfl
      have caller' : r'.caller = .stream moved.2.1 := by
        cases left
        rfl
      have handle' : r'.item.handle = .streaming moved.2.2 := by
        unfold Accepted.afterStream at left
        rcases moved with ⟨fires, g', h'⟩
        cases fires <;> cases left <;> rfl
      apply Delivers.stream moved.2.1 moved.2.2 caller' handle' (sameId.trans named) (sameModel.trans chosen)
        (events ++ new)
      · rw [sentNew, sent, named, chosen, List.map_append]
      · rw [worker', List.append_assoc, queued]
        exact emitted
  · cases taken

theorem unanswered {point : HandlerPoint} {future : Future GenerationResult} {value : GenerationResult}
    {reply : ChatCompletionResponse} (unresolved : future.Unresolved)
    (replied : ∀ response, point = .responded (.completion response) → future = .result value ∧ response = reply)
    (response : ChatCompletionResponse) : point ≠ .responded (.completion response) := by
  intro responded
  rw [(replied response responded).1] at unresolved
  simp [Future.Unresolved] at unresolved

theorem Delivers.gaveUp {handle : CompletionHandle} {request : RuntimeRequest} {error : String}
    {reply : Reply} (computed : Computed v asked.requestId worker handle.future)
    (noAnswer : ∀ response, reply ≠ .completion response) :
    Accepted.Delivers v model asked
      { item := (giveUp clock s request handle error reply).item
        caller := .handler model (.responded (giveUp clock s request handle error reply).reply), worker } := by
  apply Delivers.handler _ handle.cancel.2 rfl rfl computed.cancel
  intro response same
  exact absurd (HandlerPoint.responded.inj same) (noAnswer response)

theorem Delivers.resume {requestTimeoutS : ℚ} (delivers : r.Delivers v model asked)
    (messages : r.item.request.messages = asked.messages) (taken : r.resume clock s requestTimeoutS = some (s', r')) :
    r'.Delivers v model asked := by
  obtain ⟨⟨request, _⟩, caller, worker⟩ := r
  cases delivers with
  | stream generator handle streams handles named chosen events sent emitted =>
    cases streams
    cases taken
  | handler point handle handles plain computed replied =>
    cases handles
    cases plain
    rcases Option.map_eq_some_iff.mp taken with ⟨result, resumed, same⟩
    cases same
    cases point with
    | submitting => cases resumed
    | responded reply => cases resumed
    | signalled t0 signal =>
      cases signal <;> cases resumed <;> exact .gaveUp computed (by simp)
    | waiting t0 =>
      obtain ⟨future, cancelled⟩ := handle
      cases future with
      | pending => cases resumed
      | cancelled =>
        cases resumed
        exact .gaveUp computed (by simp)
      | exception exc =>
        simp only [resumeHandler] at resumed
        cases timedOut : exc.isTimeoutError with
        | true =>
          rw [timedOut] at resumed
          cases resumed
          exact .gaveUp computed (by simp)
        | false =>
          rw [timedOut] at resumed
          cases resumed
          exact .handler (.responded _) _ rfl rfl computed (by simp [errorBranch])
      | result value =>
        cases resumed
        rcases computed.counted with ⟨rfl, -⟩
        refine .handler _ _ rfl rfl ?_ ?_
        · exact computed
        · intro response same
          cases same
          exact ⟨rfl, ChatCompletionResponse.ofResult_congr messages model _⟩

theorem Delivers.generate {token : String} (delivers : r.Delivers v model asked)
    (taken : r.generate clock s token = some (s', r')) (grown : w.tokens = v.tokens ++ [token]) :
    r'.Delivers w model asked := by
  obtain ⟨item, caller, worker⟩ := r
  cases worker with
  | absent => cases taken
  | queued => cases taken
  | done => cases taken
  | running tokens batchStart =>
    have delivered := (deliverToken_leaves clock s item token).handle
    simp only [Accepted.generate] at taken
    cases delivers with
    | stream generator handle streams handles named chosen events sent emitted =>
      cases streams
      split at taken
      · cases taken
        exact .stream generator handle rfl handles named chosen events sent
          (emitted.drop (grown ▸ List.prefix_append _ _))
      · cases taken
        rw [handles] at delivered
        apply Delivers.stream generator _ rfl delivered named chosen events sent
        have next := emitted.generate grown
        rwa [List.append_assoc] at next
    | handler point handle handles plain computed replied =>
      cases handles
      have pending := unanswered computed.unresolved.2 replied
      split at taken
      · cases taken
        exact .handler point handle rfl plain (.dropped computed.unresolved.2)
          fun response same => absurd same (pending response)
      · cases taken
        rw [plain] at delivered
        exact .handler point handle rfl delivered (computed.generate grown)
          fun response same => absurd same (pending response)

theorem Delivers.complete (delivers : r.Delivers v model asked) (named : r.item.request.requestId = asked.requestId)
    (taken : r.complete clock s = some (s', r')) (tokens : w.tokens = v.tokens)
    (counted : ∀ o, (asked.requestId, o) ∈ s'.terminal → w.counted o) : r'.Delivers w model asked := by
  obtain ⟨item, caller, worker⟩ := r
  cases worker with
  | absent => cases taken
  | queued => cases taken
  | done => cases taken
  | running produced batchStart =>
    simp only [Accepted.complete] at taken
    cases delivers with
    | stream generator handle streams handles same chosen events sent emitted =>
      cases streams
      have completed := completeItem_streaming clock s item handles produced batchStart
      rw [completed.1] at taken
      cases taken
      rcases completed.2 with kept | ⟨put, recorded⟩
      · exact .stream generator handle rfl kept same chosen events sent (emitted.drop (tokens ▸ List.prefix_rfl))
      · rw [show item.request.requestId = asked.requestId from named] at recorded
        apply Delivers.stream generator _ rfl put same chosen events sent
        have next := emitted.complete tokens (counted _ recorded)
        rwa [List.append_assoc] at next
    | handler point handle handles plain computed replied =>
      cases handles
      rcases computed.unresolved with ⟨rfl, unresolved⟩
      have completed := completeItem_completion clock s item plain unresolved v.tokens batchStart
      have pending := unanswered unresolved replied
      rw [completed.1] at taken
      cases taken
      rcases completed.2 with ⟨future, withdrawn, after, kept | ⟨resolved, recorded⟩⟩
      · apply Delivers.handler point _ rfl after _ fun response responded => absurd responded (pending response)
        rw [← kept] at unresolved
        exact .dropped unresolved
      · rw [show item.request.requestId = asked.requestId from named] at resolved recorded
        apply Delivers.handler point _ rfl after _ fun response responded => absurd responded (pending response)
        have number := counted _ recorded
        rw [← tokens] at resolved number
        rw [resolved]
        exact .result number

theorem Delivers.fail {exc : PyException} (delivers : r.Delivers v model asked)
    (taken : r.fail clock s exc = some (s', r')) (tokens : w.tokens = v.tokens) (raised : w.raised exc) :
    r'.Delivers w model asked := by
  obtain ⟨item, caller, worker⟩ := r
  cases worker with
  | absent => cases taken
  | queued => cases taken
  | done => cases taken
  | running produced batchStart =>
    simp only [Accepted.fail] at taken
    cases taken
    cases delivers with
    | stream generator handle streams handles same chosen events sent emitted =>
      cases streams
      rcases failItem_streaming clock s item handles exc with kept | put
      · exact .stream generator handle rfl kept same chosen events sent (emitted.drop (tokens ▸ List.prefix_rfl))
      · apply Delivers.stream generator _ rfl put same chosen events sent
        have next := emitted.fail tokens raised
        rwa [List.append_assoc] at next
    | handler point handle handles plain computed replied =>
      cases handles
      have unresolved := computed.unresolved.2
      have pending := unanswered unresolved replied
      rcases failItem_completion clock s item plain unresolved exc with ⟨future, withdrawn, after, kept | resolved⟩
      · apply Delivers.handler point _ rfl after _ fun response responded => absurd responded (pending response)
        rw [← kept] at unresolved
        exact .dropped unresolved
      · apply Delivers.handler point _ rfl after _ fun response responded => absurd responded (pending response)
        rw [resolved]
        exact .exception exc raised

end Accepted

namespace Caller

def answer? : Caller → Option (String × ChatCompletionResponse)
  | .handler model (.responded (.completion response)) => some (model, response)
  | _ => none

def sent? : Caller → Option (List SseFrame)
  | .stream generator => some generator.sent
  | _ => none

theorem answer?_eq_some {c : Caller} {model : String} {response : ChatCompletionResponse}
    (answered : c.answer? = some (model, response)) : c = .handler model (.responded (.completion response)) := by
  unfold answer? at answered
  split at answered <;> cases answered
  rfl

theorem sent?_eq_some {c : Caller} {sent : List SseFrame} (sending : c.sent? = some sent) :
    ∃ generator, c = .stream generator ∧ generator.sent = sent := by
  unfold sent? at sending
  split at sending <;> cases sending
  exact ⟨_, rfl, rfl⟩

end Caller

namespace InFlight

variable {clock : Clock} {requestTimeoutS : ℚ} {st t : InFlight} {run : List InFlightAction} {action : InFlightAction}

theorem servedBy_within {s s' : Services} {id : String} (silent : action.token? id = none)
    (counted : s.terminal <+: s'.terminal) : (servedBy run s id).Within (servedBy (run ++ [action]) s' id) where
  tokens := by simp [servedBy, silent]
  raised exc inside := List.mem_append_left _ inside
  counted o inside := counted.subset inside

theorem delivers_act {s s' : Services} {r r' : Accepted} {model : String} (asked : RuntimeRequest)
    (named : r.item.request.requestId = asked.requestId) (messages : r.item.request.messages = asked.messages)
    (delivers : r.Delivers (servedBy run s asked.requestId) model asked) (mine : action.requestId = asked.requestId)
    (taken : act clock requestTimeoutS s r action = some (s', r')) :
    r'.Delivers (servedBy (run ++ [action]) s' asked.requestId) model asked := by
  have counted := (Accepted.act_frames taken).counted
  have quiet : action.token? asked.requestId = none → r'.Delivers (servedBy run s asked.requestId) model asked →
      r'.Delivers (servedBy (run ++ [action]) s' asked.requestId) model asked :=
    fun silent delivers => delivers.within (servedBy_within silent counted)
  cases action with
  | arrive requestId body admission => cases taken
  | enqueue requestId => exact quiet rfl (delivers.enqueue taken)
  | deliver requestId signal => exact quiet rfl (delivers.deliver taken)
  | resume requestId => exact quiet rfl (delivers.resume messages taken)
  | advance requestId => exact quiet rfl (delivers.moveStream taken (.inl rfl))
  | close requestId => exact quiet rfl (delivers.moveStream taken (.inr rfl))
  | startBatch requestId => exact quiet rfl (delivers.startBatch taken)
  | generate requestId token =>
    cases mine
    exact delivers.generate taken (by simp [servedBy, InFlightAction.token?])
  | complete requestId =>
    exact delivers.complete named taken (by simp [servedBy, InFlightAction.token?]) fun o inside => inside
  | fail requestId exc =>
    cases mine
    exact delivers.fail taken (by simp [servedBy, InFlightAction.token?]) (List.mem_append_right _ (by simp))

/-- Every accepted request is one that a body of the run asked for, and gets what its backend yielded. -/
structure Delivering (run : List InFlightAction) (st : InFlight) : Prop where
  known : ∀ id r, st.requests id = some r → id ∈ st.accepted
  silent : ∀ id, st.requests id = none → generated run id = []
  delivers : ∀ id r, st.requests id = some r → ∃ body admission createdAt,
    .arrive id body admission ∈ run ∧ admission.accepted = true ∧ r.caller.streams = body.stream ∧
      r.item.request.requestId = id ∧ r.item.request.messages = body.messages ∧
      r.Delivers (servedBy run st.services id) body.model (.fromChatRequest body id createdAt)

theorem receiveRequest_ok {s services : Services} {body : ChatCompletionRequest} {requestId : String}
    {admission : AdmissionDecision} {item : ScheduledRequest}
    (received : receiveRequest clock s body requestId admission = (services, .ok item)) :
    admission.accepted = true ∧ services.terminal = s.terminal ∧
      item = .ofBody body requestId (clock.reading s.ticks) := by
  unfold receiveRequest at received
  dsimp only at received
  split at received
  · next accepted =>
    cases received
    exact ⟨accepted, rfl, rfl⟩
  · cases received

theorem delivers_received {v : Served} {body : ChatCompletionRequest} {id : String} {createdAt : ℚ}
    (silent : v.tokens = []) :
    Accepted.Delivers v body.model (.fromChatRequest body id createdAt)
      { item := .ofBody body id createdAt, caller := callerOf body id, worker := .absent } := by
  cases streams : body.stream with
  | true =>
    apply Accepted.Delivers.stream { requestId := id, model := body.model } .create
      (by simp [callerOf, streams]) (by simp [ScheduledRequest.ofBody, streams]) rfl rfl [] rfl
    exact .absent silent
  | false =>
    apply Accepted.Delivers.handler .submitting .create (by simp [callerOf, streams])
      (by simp [ScheduledRequest.ofBody, streams])
    · exact .absent silent (.inl rfl)
    · simp

theorem Delivering.rejected {services : Services} (inv : st.Delivering run) (silent : ∀ id, action.token? id = none)
    (counted : services.terminal = st.services.terminal) :
    Delivering (run ++ [action]) { st with services } where
  known := inv.known
  silent id missing := by simp [inv.silent id missing, silent]
  delivers id r found := by
    rcases inv.delivers id r found with ⟨body, admission, createdAt, arrived, accepted, kind, named, messages, delivers⟩
    refine ⟨body, admission, createdAt, List.mem_append_left _ arrived, accepted, kind, named, messages, ?_⟩
    exact delivers.within (servedBy_within (silent id) (counted ▸ List.prefix_rfl))

theorem Delivering.received {services : Services} {requestId : String} {body : ChatCompletionRequest}
    {admission : AdmissionDecision} {item : ScheduledRequest} (inv : st.Delivering run) (fresh : requestId ∉ st.accepted)
    (received : receiveRequest clock st.services body requestId admission = (services, .ok item)) :
    Delivering (run ++ [.arrive requestId body admission])
      { services, accepted := st.accepted ++ [requestId],
        requests := Function.update st.requests requestId
          (some { item, caller := callerOf body requestId, worker := .absent }) } := by
  rcases receiveRequest_ok received with ⟨accepted, counted, rfl⟩
  have missing : st.requests requestId = none := by
    cases found : st.requests requestId with
    | none => rfl
    | some r => exact absurd (inv.known requestId r found) fresh
  constructor
  · apply forall_update_some
    · simp
    · intro id r _ found
      exact List.mem_append_left _ (inv.known id r found)
  · intro id absent
    by_cases same : id = requestId
    · cases same
      simp at absent
    · have before : st.requests id = none := (Function.update_of_ne same _ _).symm.trans absent
      simp [inv.silent id before, InFlightAction.token?]
  · apply forall_update_some
    · refine ⟨body, admission, _, List.mem_append_right _ (List.mem_singleton_self _), accepted, ?_, rfl, rfl,
        delivers_received ?_⟩
      · unfold callerOf
        cases body.stream <;> rfl
      · simp [servedBy, inv.silent requestId missing, InFlightAction.token?]
    · intro id r _ found
      rcases inv.delivers id r found with
        ⟨body', admission', createdAt, arrived, accepted', kind, named, messages, delivers⟩
      refine ⟨body', admission', createdAt, List.mem_append_left _ arrived, accepted', kind, named, messages, ?_⟩
      exact delivers.within (servedBy_within rfl (counted ▸ List.prefix_rfl))

theorem Delivering.acted {services : Services} {r r' : Accepted} (inv : st.Delivering run)
    (found : st.requests action.requestId = some r)
    (acted : act clock requestTimeoutS st.services r action = some (services, r')) :
    Delivering (run ++ [action])
      { st with services, requests := Function.update st.requests action.requestId (some r') } := by
  have frames := Accepted.act_frames acted
  constructor
  · apply forall_update_some
    · exact inv.known _ r found
    · intro id q _ present
      exact inv.known id q present
  · intro id absent
    by_cases same : id = action.requestId
    · cases same
      simp at absent
    · have before : st.requests id = none := (Function.update_of_ne same _ _).symm.trans absent
      simp [inv.silent id before, InFlightAction.token?_other same]
  · apply forall_update_some
    · rcases inv.delivers _ r found with
        ⟨body, admission, createdAt, arrived, accepted, kind, named, messages, delivers⟩
      refine ⟨body, admission, createdAt, List.mem_append_left _ arrived, accepted,
        (Accepted.act_streams acted).trans kind, frames.requestId.trans named, frames.messages.trans messages, ?_⟩
      exact delivers_act (.fromChatRequest body action.requestId createdAt) named messages delivers rfl acted
    · intro id q other present
      rcases inv.delivers id q present with
        ⟨body, admission, createdAt, arrived, accepted, kind, named, messages, delivers⟩
      refine ⟨body, admission, createdAt, List.mem_append_left _ arrived, accepted, kind, named, messages, ?_⟩
      exact delivers.within (servedBy_within (InFlightAction.token?_other other) frames.counted)

theorem Delivering.step (inv : st.Delivering run) (taken : step clock requestTimeoutS st action = some t) :
    t.Delivering (run ++ [action]) := by
  rcases step_cases taken with ⟨requestId, body, admission, services, reply, rfl, received, rfl⟩ |
    ⟨requestId, body, admission, services, item, rfl, fresh, received, rfl⟩ | ⟨r, services, r', found, acted, rfl⟩
  · apply inv.rejected fun id => rfl
    have quiet := receiveRequest_rejected received requestId
    simpa using quiet.terminal
  · exact inv.received fresh received
  · exact inv.acted found acted

theorem delivering_of_exec (ran : exec (step clock requestTimeoutS) start run = some t) : t.Delivering run := by
  have begin : start.Delivering [] := by
    constructor
    · intro id r found
      cases found
    · intro id _
      rfl
    · intro id r found
      cases found
  exact exec_history (I := fun past s => Delivering past s) (fun past s a t inv taken => inv.step taken) begin ran

/-- A JSON answer is the whole of what the backend generated for the body that asked for it, and its token count is
    that of a success record of the request. -/
theorem answer_is_the_generation (clock : Clock) (requestTimeoutS : ℚ)
    (ran : exec (step clock requestTimeoutS) start run = some t) {id model : String} {r : Accepted}
    {response : ChatCompletionResponse} (found : t.requests id = some r)
    (answered : r.caller = .handler model (.responded (.completion response))) :
    ∃ body admission createdAt, .arrive id body admission ∈ run ∧ admission.accepted = true ∧ body.stream = false ∧
      response = .ofResult body.model (.fromChatRequest body id createdAt)
        { requestId := id, tokens := generated run id } ∧
      response.content = String.join (generated run id) ∧
      (id, .success response.usage.completionTokens) ∈ t.services.terminal := by
  rcases (delivering_of_exec ran).delivers id r found with
    ⟨body, admission, createdAt, arrived, accepted, kind, named, messages, delivers⟩
  cases delivers with
  | stream generator handle streams handles same chosen events sent emitted => cases streams.symm.trans answered
  | handler point handle handles plain computed replied =>
    cases handles.symm.trans answered
    rcases replied response rfl with ⟨resolved, reply⟩
    rw [resolved] at computed
    have counted : (id, .success (generated run id).length) ∈ t.services.terminal := computed.counted.2
    refine ⟨body, admission, createdAt, arrived, accepted, ?_, reply, ?_, ?_⟩
    · rw [← kind, answered]
      rfl
    · rw [reply]
      simp [ChatCompletionResponse.content, ChatCompletionResponse.ofResult, servedBy]
    · rw [reply]
      exact counted

/-- One JSON request and one stream, served side by side. -/
def servedSideBySide : List InFlightAction :=
  [.arrive "plain" { messages := [] } { accepted := true },
    .arrive "stream" { messages := [], stream := true } { accepted := true }, .enqueue "plain", .enqueue "stream",
    .advance "stream", .startBatch "plain", .startBatch "stream", .generate "plain" "a", .generate "stream" "x",
    .advance "stream", .generate "plain" "b", .generate "stream" "y", .complete "plain", .complete "stream",
    .resume "plain", .advance "stream"]

theorem servedSideBySide_runs :
    ∃ t r q model response generator, exec (step ⟨fun _ => 0, monotone_const⟩ 30) start servedSideBySide = some t ∧
      t.requests "plain" = some r ∧ r.caller = .handler model (.responded (.completion response)) ∧
      t.requests "stream" = some q ∧ q.caller = .stream generator ∧ generator.sent.length = 2 := by
  have evaluated : (exec (step ⟨fun _ => 0, monotone_const⟩ 30) start servedSideBySide).map (fun t =>
      ((t.requests "plain").bind (·.caller.answer?.map Prod.fst),
        (t.requests "stream").bind (·.caller.sent?.map List.length))) = some (some "mock-llm", some 2) := by
    decide +kernel
  rcases Option.map_eq_some_iff.mp evaluated with ⟨t, ran, seen⟩
  rcases Prod.mk.inj seen with ⟨plain, stream⟩
  rcases Option.bind_eq_some_iff.mp plain with ⟨r, found, answered⟩
  rcases Option.map_eq_some_iff.mp answered with ⟨⟨model, response⟩, handler, -⟩
  rcases Option.bind_eq_some_iff.mp stream with ⟨q, foundStream, sending⟩
  rcases Option.map_eq_some_iff.mp sending with ⟨sent, streams, two⟩
  rcases Caller.sent?_eq_some streams with ⟨generator, isStream, rfl⟩
  exact ⟨t, r, q, model, response, generator, ran, found, Caller.answer?_eq_some handler, foundStream, isStream, two⟩

theorem answer_is_the_generation_plain :
    ∃ t r model response, exec (step ⟨fun _ => 0, monotone_const⟩ 30) start servedSideBySide = some t ∧
      t.requests "plain" = some r ∧ r.caller = .handler model (.responded (.completion response)) ∧
      response.content = "ab" := by
  rcases servedSideBySide_runs with ⟨t, r, q, model, response, generator, ran, found, answered, -⟩
  rcases answer_is_the_generation _ _ ran found answered with
    ⟨body, admission, createdAt, -, -, -, -, content, -⟩
  exact ⟨t, r, model, response, ran, found, answered, content.trans (by decide +kernel)⟩

/-- What a client has received of a stream is what the backend generated for its body, in order, up to some point;
    an end of the stream comes last and behind all of it, and between the two nothing is lost. -/
theorem stream_carries_the_generation (clock : Clock) (requestTimeoutS : ℚ)
    (ran : exec (step clock requestTimeoutS) start run = some t) {id : String} {r : Accepted} {generator : ChatStream}
    (found : t.requests id = some r) (streams : r.caller = .stream generator) :
    ∃ body admission, .arrive id body admission ∈ run ∧ admission.accepted = true ∧ body.stream = true ∧
      (∃ delivered ending, generator.sent = (delivered.map StreamEvent.token ++ ending).map (sseFrame id body.model) ∧
        delivered <+: generated run id ∧ Ended (servedBy run t.services id) delivered ending ∧
        deltaContents generator.sent = String.join delivered) ∧
      ∀ tokens batchStart, r.worker = .running tokens batchStart → ∃ handle, r.item.handle = .streaming handle ∧
        generator.sent ++ handle.queue.map (sseFrame id body.model) =
          (generated run id).map fun token => sseFrame id body.model (.token token) := by
  rcases (delivering_of_exec ran).delivers id r found with
    ⟨body, admission, createdAt, arrived, accepted, kind, named, messages, delivers⟩
  cases delivers with
  | handler point handle handles plain computed replied => cases handles.symm.trans streams
  | stream generator' handle isStream handles same chosen events sent emitted =>
    cases isStream.symm.trans streams
    rcases emitted.taken (List.prefix_append _ _) with ⟨delivered, ending, rfl, first, ended⟩
    refine ⟨body, admission, arrived, accepted, ?_, ⟨delivered, ending, sent, first, ended, ?_⟩, ?_⟩
    · rw [← kind, streams]
      rfl
    · rw [sent]
      exact ended.deltaContents id body.model
    · intro tokens batchStart running
      have all := emitted.running_events running
      refine ⟨handle, handles, ?_⟩
      have frames := congrArg (List.map (sseFrame id body.model)) all
      rw [List.map_append] at frames
      rw [sent]
      exact frames.trans (by simp [servedBy, Function.comp_def])

theorem stream_carries_the_generation_two :
    ∃ t q generator delivered, exec (step ⟨fun _ => 0, monotone_const⟩ 30) start servedSideBySide = some t ∧
      t.requests "stream" = some q ∧ q.caller = .stream generator ∧ generator.sent.length = 2 ∧
      delivered <+: ["x", "y"] ∧ deltaContents generator.sent = String.join delivered := by
  rcases servedSideBySide_runs with ⟨t, r, q, model, response, generator, ran, -, -, found, streams, two⟩
  rcases stream_carries_the_generation _ _ ran found streams with
    ⟨body, admission, -, -, -, ⟨delivered, ending, -, first, -, text⟩, -⟩
  exact ⟨t, q, generator, delivered, ran, found, streams, two, first, text⟩

end InFlight

end LLMRuntime
