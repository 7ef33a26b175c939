import LLMRuntime.Workers.Manager

namespace LLMRuntime

namespace ResponseHandle

/-- The future is resolved, or the queue has a `CompletedEvent` or an `ErrorEvent`. -/
def signalled : ResponseHandle → Bool
  | .completion handle =>
    match handle.future with
    | .result _ => true
    | .exception _ => true
    | _ => false
  | .streaming handle => handle.queue.any StreamEvent.isTerminal

def closed (h : ResponseHandle) : Bool := h.cancelled || h.signalled

/-- A handle that nobody has answered; the future is done only if its caller has cancelled it. -/
def Unanswered : ResponseHandle → Prop
  | .completion handle => handle.future = .pending ∨ handle.future = .cancelled ∧ handle.cancelled = true
  | .streaming handle => ∀ event ∈ handle.queue, event.isTerminal = false

variable {h : ResponseHandle}

theorem closed_of_cancelled (cancelled : h.cancelled = true) : h.closed = true := by
  rw [closed, cancelled, Bool.true_or]

theorem Unanswered.not_signalled (unanswered : h.Unanswered) : h.signalled = false := by
  cases h with
  | completion handle =>
    rcases unanswered with pending | ⟨cancelled, -⟩
    · simp [signalled, pending]
    · simp [signalled, cancelled]
  | streaming handle =>
    have inner : ∀ event ∈ handle.queue, event.isTerminal = false := unanswered
    simpa [signalled] using inner

theorem Unanswered.closed_iff (unanswered : h.Unanswered) : h.closed = true ↔ h.cancelled = true := by
  rw [closed, unanswered.not_signalled, Bool.or_false]

theorem Unanswered.cancel (unanswered : h.Unanswered) : h.cancel.Unanswered := by
  cases h with
  | completion handle =>
    rcases unanswered with pending | ⟨future, cancelled⟩
    · cases flag : handle.cancelled with
      | true => simp [ResponseHandle.cancel, CompletionHandle.cancel, flag, Unanswered, pending]
      | false => simp [ResponseHandle.cancel, CompletionHandle.cancel, flag, Unanswered, pending, Future.done]
    · simp [ResponseHandle.cancel, CompletionHandle.cancel, cancelled, Unanswered, future]
  | streaming handle =>
    change ∀ event ∈ handle.cancel.2.queue, event.isTerminal = false
    unfold StreamingHandle.cancel
    split <;> exact unanswered

theorem closed_cancel (already : h.closed = true) : h.cancel.closed = true := by
  cases h with
  | completion handle =>
    cases flag : handle.cancelled with
    | true => exact closed_of_cancelled (by simp [ResponseHandle.cancel, CompletionHandle.cancel, flag, cancelled])
    | false => exact closed_of_cancelled (by simp [ResponseHandle.cancel, CompletionHandle.cancel, flag, cancelled])
  | streaming handle =>
    change (ResponseHandle.streaming handle.cancel.2).closed = true
    unfold StreamingHandle.cancel
    split
    · exact already
    · exact closed_of_cancelled rfl

theorem Unanswered.put {handle : StreamingHandle} {event : StreamEvent}
    (unanswered : (ResponseHandle.streaming handle).Unanswered) (inner : event.isTerminal = false) :
    (ResponseHandle.streaming (handle.put event)).Unanswered := by
  intro other member
  rcases List.mem_append.mp member with member | last
  · exact unanswered other member
  · rw [List.mem_singleton.mp last]
    exact inner

theorem signalled_put (handle : StreamingHandle) {event : StreamEvent} (terminal : event.isTerminal = true) :
    (ResponseHandle.streaming (handle.put event)).signalled = true := by
  simp [signalled, StreamingHandle.put, terminal]

end ResponseHandle

open ResponseHandle

section Methods

variable (clock : Clock) {s : Services} {item : ScheduledRequest}

theorem completeItem_closes (tokens : List String) (batchStart : ℚ) (unanswered : item.handle.Unanswered)
    (live : item.cancelled = false) :
    (completeItem clock s item tokens batchStart).raised = none ∧
      (completeItem clock s item tokens batchStart).item.handle.closed = true := by
  obtain ⟨request, handle⟩ := item
  cases handle with
  | completion handle =>
    have pending : handle.future = .pending := by
      rcases unanswered with pending | ⟨-, cancelled⟩
      · exact pending
      · exact absurd (live.symm.trans cancelled) (by decide)
    simp [completeItem, live, pending, Future.isCancelled, Future.setResult, Future.done, recordCompletion, closed,
      signalled]
  | streaming handle =>
    have flag : handle.cancelled = false := live
    have ends := signalled_put handle (rfl : (StreamEvent.completed "stop").isTerminal = true)
    simp [completeItem, live, flag, recordCompletion, closed, ends]

theorem failItem_closes (exc : PyException) (unanswered : item.handle.Unanswered) (live : item.cancelled = false) :
    (failItem clock s item exc).raised = none ∧ (failItem clock s item exc).item.handle.closed = true := by
  obtain ⟨request, handle⟩ := item
  cases handle with
  | completion handle =>
    have pending : handle.future = .pending := by
      rcases unanswered with pending | ⟨-, cancelled⟩
      · exact pending
      · exact absurd (live.symm.trans cancelled) (by decide)
    simp [failItem, live, pending, Future.isCancelled, Future.setException, Future.done, closed, signalled]
  | streaming handle =>
    have ends := signalled_put handle (rfl : (StreamEvent.error exc.str).isTerminal = true)
    simp [failItem, live, closed, ends]

theorem deliverToken_unanswered (token : String) (unanswered : item.handle.Unanswered) :
    (deliverToken clock s item token).item.handle.Unanswered := by
  obtain ⟨request, handle⟩ := item
  cases handle with
  | completion handle => exact unanswered
  | streaming handle => exact unanswered.put rfl

end Methods

namespace BatchState

variable {clock : Clock} {st next : BatchState}

structure Ready (st : BatchState) : Prop where
  nodup : st.pending.Nodup
  unanswered : ∀ id ∈ st.pending, ∃ item, st.items id = some item ∧ item.handle.Unanswered

structure Progress (st next : BatchState) : Prop where
  others : ∀ id, id ∉ st.pending → next.items id = st.items id
  pending : next.pending.Sublist st.pending
  closed : ∀ id ∈ st.pending, id ∉ next.pending → ∃ item, next.items id = some item ∧ item.handle.closed = true
  unanswered : ∀ id ∈ next.pending, ∃ item, next.items id = some item ∧ item.handle.Unanswered

theorem Progress.discard {id : String} (ready : st.Ready) (member : id ∈ st.pending)
    (others : ∀ other, other ≠ id → next.items other = st.items other) (pending : next.pending = (st.discard id).pending)
    (ends : ∃ item, next.items id = some item ∧ item.handle.closed = true) : st.Progress next where
  others other outside := others other fun same => outside (same ▸ member)
  pending := pending ▸ List.filter_sublist
  closed other inside gone := by
    have same : other = id := by
      by_contra differ
      exact gone (by rw [pending]; exact List.mem_filter.mpr ⟨inside, by simpa using differ⟩)
    exact same ▸ ends
  unanswered other inside := by
    rw [pending] at inside
    obtain ⟨listed, differ⟩ := List.mem_filter.mp inside
    rw [others other (by simpa using differ)]
    exact ready.unanswered other listed

theorem handleEvent_progress (clock : Clock) (ready : st.Ready) (batchStart : ℚ) (event : BatchEvent) :
    ∃ next, st.handleEvent clock batchStart event = (next, none) ∧ st.Progress next := by
  unfold handleEvent
  by_cases pending : event.requestId ∈ st.pending
  · obtain ⟨item, present, unanswered⟩ := ready.unanswered _ pending
    rw [if_neg (not_not.mpr pending), present]
    dsimp only
    cases live : item.cancelled with
    | true =>
      refine ⟨_, rfl, .discard ready pending (fun _ _ => rfl) rfl ⟨item, present, closed_of_cancelled live⟩⟩
    | false =>
      cases event with
      | token id token =>
        refine ⟨_, rfl, ⟨fun other outside => ?_, .refl _, fun other inside gone => absurd inside gone, ?_⟩⟩
        · have differ : other ≠ id := by
            rintro rfl
            exact outside pending
          exact Function.update_of_ne differ _ _
        · intro other inside
          by_cases same : other = id
          · subst same
            exact ⟨_, Function.update_self _ _ _, deliverToken_unanswered clock token unanswered⟩
          · obtain ⟨found, listed, unset⟩ := ready.unanswered other inside
            exact ⟨found, (Function.update_of_ne same _ _).trans listed, unset⟩
      | completed id =>
        obtain ⟨raised, ends⟩ := completeItem_closes clock (s := st.services) (st.tokens id) batchStart unanswered live
        simp only [Bool.false_eq_true, if_false, raised]
        refine ⟨_, rfl, .discard ready pending (fun other differ => ?_) rfl ⟨_, ?_, ends⟩⟩
        · exact Function.update_of_ne differ _ _
        · exact Function.update_self _ _ _
  · rw [if_pos pending]
    exact ⟨st, rfl, fun _ _ => rfl, .refl _, fun _ inside gone => absurd inside gone, ready.unanswered⟩

/-- A sweep over pending items raises nothing and leaves all of them closed. -/
theorem sweep_closes {finish : Services → ScheduledRequest → List String → ItemResult} (st : BatchState)
    (spec : ∀ s item tokens, item.handle.Unanswered → item.cancelled = false →
      (finish s item tokens).raised = none ∧ (finish s item tokens).item.handle.closed = true)
    {ids : List String} (nodup : ids.Nodup)
    (unanswered : ∀ id ∈ ids, ∃ item, st.items id = some item ∧ item.handle.Unanswered) :
    ∃ next, st.sweep finish ids = (next, none) ∧ (∀ id, id ∉ ids → next.items id = st.items id) ∧
      ∀ id ∈ ids, ∃ item, next.items id = some item ∧ item.handle.closed = true := by
  induction ids generalizing st with
  | nil => exact ⟨st, rfl, fun _ _ => rfl, fun _ member => absurd member List.not_mem_nil⟩
  | cons id rest ih =>
    obtain ⟨fresh, nodupRest⟩ := List.nodup_cons.mp nodup
    obtain ⟨item, present, unset⟩ := unanswered id List.mem_cons_self
    have later (other : String) (member : other ∈ rest) := unanswered other (List.mem_cons_of_mem _ member)
    cases live : item.cancelled with
    | true =>
      obtain ⟨next, swept, others, ends⟩ := ih st nodupRest later
      refine ⟨next, by simp [sweep, present, live, swept], ?_, ?_⟩
      · exact fun other outside => others other fun inside => outside (List.mem_cons_of_mem _ inside)
      · intro other member
        rcases List.mem_cons.mp member with rfl | member
        · exact ⟨item, (others other fresh).trans present, closed_of_cancelled live⟩
        · exact ends other member
    | false =>
      obtain ⟨raised, done⟩ := spec st.services item (st.tokens id) unset live
      let moved := st.setItem id (finish st.services item (st.tokens id))
      have untouched (other : String) (differ : other ≠ id) : moved.items other = st.items other :=
        Function.update_of_ne differ _ _
      obtain ⟨next, swept, others, ends⟩ := ih moved nodupRest fun other member => by
        rw [untouched other fun same => fresh (same ▸ member)]
        exact later other member
      refine ⟨next, by simp only [sweep, present, live, raised]; exact swept, ?_, ?_⟩
      · intro other outside
        rw [List.mem_cons, not_or] at outside
        rw [others other outside.2, untouched other outside.1]
      · intro other member
        rcases List.mem_cons.mp member with rfl | member
        · exact ⟨_, (others other fresh).trans (Function.update_self _ _ _), done⟩
        · exact ends other member

end BatchState

end LLMRuntime
