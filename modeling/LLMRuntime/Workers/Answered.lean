import LLMRuntime.Workers.Execution

namespace LLMRuntime

open ResponseHandle

namespace ResponseHandle

theorem signalled_cancel (h : ResponseHandle) : h.cancel.signalled = h.signalled := by
  cases h with
  | completion handle =>
    obtain ⟨future, cancelled⟩ := handle
    cases future <;> cases cancelled <;> rfl
  | streaming handle =>
    change (ResponseHandle.streaming handle.cancel.2).signalled = _
    unfold StreamingHandle.cancel
    split <;> rfl

end ResponseHandle

/-- A method of the worker has answered its item: one terminal record, one terminal signal, no error. -/
structure ItemResult.Answers (r : ItemResult) (s : Services) (item : ScheduledRequest) : Prop where
  raised : r.raised = none
  recorded : ∃ o, r.services.terminal = s.terminal ++ [(item.request.requestId, o)]
  errors : r.services.invalidStateErrors = s.invalidStateErrors
  signalled : r.item.handle.signalled = true
  named : r.item.request.requestId = item.request.requestId

section Methods

variable (clock : Clock) {s : Services} {item : ScheduledRequest}

theorem future_pending {handle : CompletionHandle} {request : RuntimeRequest}
    (unanswered : (ResponseHandle.completion handle).Unanswered)
    (live : ScheduledRequest.cancelled { request, handle := .completion handle } = false) : handle.future = .pending := by
  rcases unanswered with pending | ⟨-, cancelled⟩
  · exact pending
  · exact absurd (live.symm.trans cancelled) (by decide)

theorem completeItem_answers (tokens : List String) (batchStart : ℚ) (unanswered : item.handle.Unanswered)
    (live : item.cancelled = false) : (completeItem clock s item tokens batchStart).Answers s item := by
  obtain ⟨request, handle⟩ := item
  cases handle with
  | completion handle =>
    have pending := future_pending unanswered live
    constructor <;> simp [completeItem, live, pending, Future.isCancelled, Future.setResult, Future.done,
      recordCompletion, signalled]
  | streaming handle =>
    have flag : handle.cancelled = false := live
    have ends := signalled_put handle (rfl : (StreamEvent.completed "stop").isTerminal = true)
    constructor <;> simp [completeItem, live, flag, recordCompletion, ends]

theorem failItem_answers (exc : PyException) (unanswered : item.handle.Unanswered) (live : item.cancelled = false) :
    (failItem clock s item exc).Answers s item := by
  obtain ⟨request, handle⟩ := item
  cases handle with
  | completion handle =>
    have pending := future_pending unanswered live
    constructor <;> simp [failItem, live, pending, Future.isCancelled, Future.setException, Future.done, signalled]
  | streaming handle =>
    have ends := signalled_put handle (rfl : (StreamEvent.error exc.str).isTerminal = true)
    constructor <;> simp [failItem, live, ends]

end Methods

namespace BatchState

variable {clock : Clock} {st next later : BatchState}

def Keyed (st : BatchState) : Prop := ∀ id item, st.items id = some item → item.request.requestId = id

def signalled (st : BatchState) (id : String) : Bool := (st.items id).any fun item => item.handle.signalled

/-- `next` is `st` after the requests `ids` have been answered and recorded, each once, and no other has. -/
structure Records (st next : BatchState) (ids : List String) : Prop where
  terminal : next.services.terminal.map Prod.fst = st.services.terminal.map Prod.fst ++ ids
  errors : next.services.invalidStateErrors = st.services.invalidStateErrors
  nodup : ids.Nodup
  pending : ∀ id ∈ ids, id ∈ st.pending
  before : ∀ id ∈ ids, st.signalled id = false
  after : ∀ id ∈ ids, next.signalled id = true
  others : ∀ id, id ∉ ids → next.signalled id = st.signalled id
  present : ∀ id, (next.items id).isSome = (st.items id).isSome
  keyed : st.Keyed → next.Keyed

theorem Records.quiet (terminal : next.services.terminal = st.services.terminal)
    (errors : next.services.invalidStateErrors = st.services.invalidStateErrors)
    (others : ∀ id, next.signalled id = st.signalled id) (present : ∀ id, (next.items id).isSome = (st.items id).isSome)
    (keyed : st.Keyed → next.Keyed) : st.Records next [] where
  terminal := by rw [terminal, List.append_nil]
  errors := errors
  nodup := List.nodup_nil
  pending _ inside := absurd inside List.not_mem_nil
  before _ inside := absurd inside List.not_mem_nil
  after _ inside := absurd inside List.not_mem_nil
  others id _ := others id
  present := present
  keyed := keyed

theorem Records.refl (st : BatchState) : st.Records st [] :=
  .quiet rfl rfl (fun _ => rfl) (fun _ => rfl) id

theorem Records.trans {first second : List String} (before : st.Records next first) (after : next.Records later second)
    (kept : next.pending ⊆ st.pending) : st.Records later (first ++ second) where
  terminal := by rw [after.terminal, before.terminal, List.append_assoc]
  errors := after.errors.trans before.errors
  nodup := by
    apply List.Nodup.append before.nodup after.nodup
    intro id early late
    have answered := before.after id early
    rw [after.before id late] at answered
    cases answered
  pending id inside := (List.mem_append.mp inside).elim (before.pending id) fun late => kept (after.pending id late)
  before id inside := by
    rcases List.mem_append.mp inside with early | late
    · exact before.before id early
    · by_cases both : id ∈ first
      · exact before.before id both
      · rw [← before.others id both]
        exact after.before id late
  after id inside := by
    by_cases late : id ∈ second
    · exact after.after id late
    · rw [after.others id late]
      exact before.after id ((List.mem_append.mp inside).resolve_right late)
  others id outside := by
    rw [List.mem_append, not_or] at outside
    rw [after.others id outside.2, before.others id outside.1]
  present id := (after.present id).trans (before.present id)
  keyed keyed := after.keyed (before.keyed keyed)

theorem Records.answer {id : String} {item : ScheduledRequest} {result : ItemResult} (keyed : st.Keyed)
    (member : id ∈ st.pending) (found : st.items id = some item) (unanswered : item.handle.Unanswered)
    (answers : result.Answers st.services item) : st.Records (st.setItem id result) [id] where
  terminal := by
    rcases answers.recorded with ⟨o, recorded⟩
    change result.services.terminal.map Prod.fst = _
    rw [recorded, List.map_append, keyed id item found]
    rfl
  errors := answers.errors
  nodup := List.nodup_singleton id
  pending other inside := List.mem_singleton.mp inside ▸ member
  before other inside := by
    rw [List.mem_singleton.mp inside, signalled, found]
    exact unanswered.not_signalled
  after other inside := by
    rw [List.mem_singleton.mp inside, signalled, setItem]
    simpa using answers.signalled
  others other outside := by
    rw [signalled, signalled, setItem]
    simp only [Function.update_of_ne (List.ne_of_not_mem_cons outside)]
  present other := by
    by_cases same : other = id
    · subst same
      simp [setItem, found]
    · simp [setItem, same]
  keyed _ other later found' := by
    by_cases same : other = id
    · subst same
      have here : some result.item = some later := by simpa [setItem] using found'
      cases here
      exact answers.named.trans (keyed other item found)
    · apply keyed other later
      simpa [setItem, same] using found'

theorem Records.discard {ids : List String} (records : st.Records next ids) (id : String) :
    st.Records (next.discard id) ids := { records with }

theorem Records.token {id token : String} {item : ScheduledRequest} {tokens : String → List String} (clock : Clock)
    (found : st.items id = some item) (unanswered : item.handle.Unanswered) :
    st.Records (({ st with tokens }).setItem id (deliverToken clock st.services item token)) [] := by
  have quiet : (deliverToken clock st.services item token).services.terminal = st.services.terminal ∧
      (deliverToken clock st.services item token).services.invalidStateErrors = st.services.invalidStateErrors ∧
      (deliverToken clock st.services item token).item.request.requestId = item.request.requestId := by
    obtain ⟨request, handle⟩ := item
    cases handle <;> cases missing : request.firstTokenAt <;> simp [deliverToken, missing]
  have unset := (deliverToken_unanswered clock (s := st.services) token unanswered).not_signalled
  apply Records.quiet quiet.1 quiet.2.1
  · intro other
    by_cases same : other = id
    · subst same
      simp only [signalled, setItem, Function.update_self, found, Option.any_some]
      rw [unset, unanswered.not_signalled]
    · simp [signalled, setItem, same]
  · intro other
    by_cases same : other = id
    · subst same
      simp [setItem, found]
    · simp [setItem, same]
  · intro keyed other later found'
    by_cases same : other = id
    · subst same
      have here : some (deliverToken clock st.services item token).item = some later := by simpa [setItem] using found'
      cases here
      exact quiet.2.2.trans (keyed other item found)
    · apply keyed other later
      simpa [setItem, same] using found'

theorem handleEvent_records (clock : Clock) (ready : st.Ready) (keyed : st.Keyed) (batchStart : ℚ) (event : BatchEvent) :
    ∃ ids, st.Records (st.handleEvent clock batchStart event).1 ids := by
  unfold handleEvent
  by_cases pending : event.requestId ∈ st.pending
  · rcases ready.unanswered _ pending with ⟨item, found, unanswered⟩
    rw [if_neg (not_not.mpr pending), found]
    dsimp only
    cases live : item.cancelled with
    | true => exact ⟨[], (Records.refl st).discard event.requestId⟩
    | false =>
      cases event with
      | token id token => exact ⟨[], .token clock found unanswered⟩
      | completed id =>
        have answers := completeItem_answers clock (s := st.services) (st.tokens id) batchStart unanswered live
        simp only [Bool.false_eq_true, if_false, answers.raised]
        exact ⟨[id], (Records.answer keyed pending found unanswered answers).discard id⟩
  · rw [if_pos pending]
    exact ⟨[], .refl st⟩

theorem sweep_records {finish : Services → ScheduledRequest → List String → ItemResult} (st : BatchState)
    (spec : ∀ s item tokens, item.handle.Unanswered → item.cancelled = false → (finish s item tokens).Answers s item)
    (keyed : st.Keyed) {ids : List String} (nodup : ids.Nodup) (within : ids ⊆ st.pending)
    (unanswered : ∀ id ∈ ids, ∃ item, st.items id = some item ∧ item.handle.Unanswered) :
    ∃ answered, st.Records (st.sweep finish ids).1 answered := by
  induction ids generalizing st with
  | nil => exact ⟨[], .refl st⟩
  | cons id rest ih =>
    rcases List.nodup_cons.mp nodup with ⟨fresh, nodupRest⟩
    rcases unanswered id List.mem_cons_self with ⟨item, found, unset⟩
    have member : id ∈ st.pending := within List.mem_cons_self
    have laterWithin : rest ⊆ st.pending := fun _ inside => within (List.mem_cons_of_mem _ inside)
    have later := fun other member => unanswered other (List.mem_cons_of_mem id member)
    cases live : item.cancelled with
    | true =>
      rcases ih st keyed nodupRest laterWithin later with ⟨answered, records⟩
      use answered
      simpa [sweep, found, live] using records
    | false =>
      have answers := spec st.services item (st.tokens id) unset live
      have first := Records.answer keyed member found unset answers
      have untouched : ∀ other ∈ rest, ∃ item', (st.setItem id (finish st.services item (st.tokens id))).items other =
          some item' ∧ item'.handle.Unanswered := by
        intro other inside
        have differ : other ≠ id := fun same => fresh (same ▸ inside)
        rw [setItem]
        simp only [Function.update_of_ne differ]
        exact later other inside
      rcases ih _ (first.keyed keyed) nodupRest laterWithin untouched with ⟨answered, records⟩
      use [id] ++ answered
      have all := first.trans records fun _ inside => inside
      simpa only [sweep, found, live, answers.raised, Bool.false_eq_true, if_false] using all

end BatchState

end LLMRuntime
