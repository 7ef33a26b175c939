import Mathlib.Data.List.Induction
import LLMRuntime.Workers.ItemMachine

namespace LLMRuntime

/-- The terminal signal a caller gets, the same for both kinds of handle. -/
inductive Verdict where
  | success (tokens : List String)
  | failure (message : String)
  deriving DecidableEq, Repr

def Verdict.record : Verdict → Outcome
  | .success tokens => .success tokens.length
  | .failure _ => .failure

def Ending.verdict (ending : Ending) (tokens : List String) : Verdict :=
  match ending with
  | .normal => .success tokens
  | .raised exc => .failure exc.str

def StreamEvent.text? : StreamEvent → Option String
  | .token text => some text
  | _ => none

namespace ResponseHandle

/-- What the caller reads off its handle once it is resolved, or off its queue once it has ended. -/
def verdict : ResponseHandle → Option Verdict
  | .completion handle =>
    match handle.future with
    | .result value => some (.success value.tokens)
    | .exception error => some (.failure error.str)
    | _ => none
  | .streaming handle =>
    match handle.queue.getLast? with
    | some (.completed _) => some (.success (handle.queue.filterMap StreamEvent.text?))
    | some (.error message) => some (.failure message)
    | _ => none

@[simp] theorem filterMap_text (tokens : List String) :
    tokens.filterMap (StreamEvent.text? ∘ StreamEvent.token) = tokens := by
  induction tokens with
  | nil => rfl
  | cons token tokens ih => simp [StreamEvent.text?, ih]

@[simp] theorem verdict_cancel (h : ResponseHandle) : h.cancel.verdict = h.verdict := by
  cases h with
  | completion handle =>
    obtain ⟨future, flag⟩ := handle
    cases flag <;> cases future <;> rfl
  | streaming handle =>
    obtain ⟨queue, flag, completed⟩ := handle
    cases flag <;> cases completed <;> rfl

theorem Withdrawn.verdict {h : ResponseHandle} (withdrawn : h.Withdrawn) : h.verdict = none := by
  cases h with
  | completion handle =>
    cases withdrawn
    rfl
  | streaming handle =>
    obtain ⟨sent, rfl⟩ := withdrawn
    cases sent using List.reverseRecOn with
    | nil => rfl
    | append_singleton sent last => simp [ResponseHandle.verdict]

theorem Settled.verdict {h : ResponseHandle} {o : Outcome} (settled : h.Settled o) : h.verdict ≠ none := by
  cases settled <;> simp [ResponseHandle.verdict]

theorem Open.verdict_complete {h : ResponseHandle} {tokens : List String} (isOpen : h.Open tokens)
    (requestId : String) : (h.complete requestId tokens).verdict = some (.success tokens) := by
  cases h with
  | completion handle => rfl
  | streaming handle =>
    cases isOpen
    simp [ResponseHandle.complete, ResponseHandle.verdict, StreamingHandle.put, StreamEvent.text?]

theorem Open.verdict_finish {h : ResponseHandle} {tokens : List String} (isOpen : h.Open tokens)
    (ending : Ending) (requestId : String) :
    (h.finish ending requestId tokens).verdict = some (ending.verdict tokens) := by
  cases ending with
  | normal => exact isOpen.verdict_complete requestId
  | raised exc =>
    cases h with
    | completion handle => rfl
    | streaming handle => simp [ResponseHandle.finish, ResponseHandle.fail, ResponseHandle.verdict, StreamingHandle.put,
      Ending.verdict]

end ResponseHandle

/-- What becomes of a waiting request, read off the actions alone: nothing if its caller cancels first. -/
def fate (requestId : String) (ending : Ending) : List String → List BatchAction → Option Verdict
  | tokens, [] => some (ending.verdict tokens)
  | tokens, .cancel target :: actions =>
    if target = requestId then none else fate requestId ending tokens actions
  | tokens, .event (.token target token) :: actions =>
    fate requestId ending (if target = requestId then tokens ++ [token] else tokens) actions
  | tokens, .event (.completed target) :: actions =>
    if target = requestId then some (.success tokens) else fate requestId ending tokens actions

theorem fate_filter (requestId : String) (ending : Ending) (tokens : List String) (actions : List BatchAction) :
    fate requestId ending tokens (actions.filter fun action => action.requestId = requestId) =
      fate requestId ending tokens actions := by
  induction actions generalizing tokens with
  | nil => rfl
  | cons action actions ih =>
    by_cases own : action.requestId = requestId
    · rw [List.filter_cons_of_pos (by simpa using own)]
      cases action with
      | cancel target => rw [fate, fate, ih]
      | event yielded => cases yielded <;> rw [fate, fate, ih]
    · rw [List.filter_cons_of_neg (by simpa using own), ih]
      cases action with
      | cancel target => rw [fate, if_neg (show target ≠ requestId from own)]
      | event yielded =>
        cases yielded with
        | token target token => rw [fate, if_neg (show target ≠ requestId from own)]
        | completed target => rw [fate, if_neg (show target ≠ requestId from own)]

def CancelledFirst (requestId : String) (actions : List BatchAction) : Prop :=
  ∃ before after, actions = before ++ .cancel requestId :: after ∧ .event (.completed requestId) ∉ before

theorem cancelledFirst_cons {requestId : String} {action : BatchAction} {actions : List BatchAction} :
    CancelledFirst requestId (action :: actions) ↔
      action = .cancel requestId ∨
        action ≠ .event (.completed requestId) ∧ CancelledFirst requestId actions := by
  constructor
  · intro ⟨before, after, split, unfinished⟩
    cases before with
    | nil => exact .inl (List.cons.inj split).1
    | cons first before =>
      obtain ⟨rfl, rest⟩ := List.cons.inj split
      rw [List.mem_cons, not_or] at unfinished
      exact .inr ⟨Ne.symm unfinished.1, before, after, rest, unfinished.2⟩
  · intro cases
    rcases cases with rfl | ⟨other, before, after, rfl, unfinished⟩
    · exact ⟨[], actions, rfl, by simp⟩
    · exact ⟨action :: before, after, rfl, by simp [unfinished, Ne.symm other]⟩

theorem fate_eq_none_iff {requestId : String} {ending : Ending} (tokens : List String)
    (actions : List BatchAction) :
    fate requestId ending tokens actions = none ↔ CancelledFirst requestId actions := by
  induction actions generalizing tokens with
  | nil => simp [fate, CancelledFirst]
  | cons action actions ih =>
    rw [cancelledFirst_cons]
    cases action with
    | cancel target =>
      rw [fate]
      split
      · simp_all
      · simp_all
    | event yielded =>
      cases yielded with
      | token target token => simp [fate, ih]
      | completed target =>
        rw [fate]
        split
        · simp_all
        · simp_all

namespace ItemView

variable (requestId : String)

theorem Phase.of_fresh {handle : ResponseHandle} (fresh : handle.Fresh) :
    ItemView.Phase { handle := handle } := by
  rcases fresh with isOpen | withdrawn
  · exact .waiting rfl isOpen rfl
  · exact .withdrawn withdrawn rfl

theorem step_withdrawn {v : ItemView} (withdrawn : v.handle.Withdrawn) (action : BatchAction) :
    (v.step requestId action).handle = v.handle ∧ (v.step requestId action).records = v.records := by
  cases action with
  | cancel target => exact ⟨withdrawn.cancel, rfl⟩
  | event yielded =>
    simp only [ItemView.step, withdrawn.cancelled, if_true]
    split <;> exact ⟨rfl, rfl⟩

theorem run_withdrawn {v : ItemView} (withdrawn : v.handle.Withdrawn) (actions : List BatchAction)
    (ending : Ending) :
    (v.run requestId actions ending).handle = v.handle ∧ (v.run requestId actions ending).records = v.records := by
  induction actions generalizing v with
  | nil => simp [run, finish, withdrawn.cancelled]
  | cons action actions ih =>
    obtain ⟨sameHandle, sameRecords⟩ := step_withdrawn requestId withdrawn action
    obtain ⟨handle, records⟩ := ih (v := v.step requestId action) (by rw [sameHandle]; exact withdrawn)
    exact ⟨handle.trans sameHandle, records.trans sameRecords⟩

theorem run_settled {v : ItemView} (done : v.pending = false) (actions : List BatchAction) (ending : Ending) :
    (v.run requestId actions ending).handle.verdict = v.handle.verdict ∧
      (v.run requestId actions ending).records = v.records := by
  induction actions generalizing v with
  | nil => simp [run, finish, done]
  | cons action actions ih =>
    cases action with
    | cancel target =>
      obtain ⟨verdict, records⟩ := ih (v := { v with handle := v.handle.cancel }) done
      exact ⟨verdict.trans (ResponseHandle.verdict_cancel v.handle), records⟩
    | event yielded =>
      have same : v.step requestId (.event yielded) = v := by simp [ItemView.step, done]
      rw [run, List.foldl_cons, same]
      exact ih done

theorem run_waiting {v : ItemView} (pending : v.pending = true) (isOpen : v.handle.Open v.tokens)
    (unrecorded : v.records = []) (actions : List BatchAction)
    (own : ∀ action ∈ actions, action.requestId = requestId) (ending : Ending) :
    (v.run requestId actions ending).handle.verdict = fate requestId ending v.tokens actions ∧
      (v.run requestId actions ending).records =
        ((fate requestId ending v.tokens actions).map Verdict.record).toList := by
  induction actions generalizing v with
  | nil =>
    simp only [run, finish, List.foldl_nil, pending, isOpen.not_cancelled, fate]
    refine ⟨isOpen.verdict_finish ending requestId, ?_⟩
    cases ending <;> simp [unrecorded, Ending.outcome, Ending.verdict, Verdict.record]
  | cons action actions ih =>
    have mine := own action (by simp)
    have later : ∀ action ∈ actions, action.requestId = requestId :=
      fun action member => own action (List.mem_cons_of_mem _ member)
    cases action with
    | cancel target =>
      rw [fate, if_pos (show target = requestId from mine)]
      obtain ⟨handle, records⟩ := run_withdrawn requestId
        (v := v.step requestId (.cancel target)) isOpen.cancel actions ending
      rw [run, List.foldl_cons]
      rw [run] at handle records
      rw [handle, records]
      exact ⟨ResponseHandle.Withdrawn.verdict isOpen.cancel, unrecorded⟩
    | event yielded =>
      have stepped : v.step requestId (.event yielded) = v.event requestId yielded := by
        simp [ItemView.step, pending, isOpen.not_cancelled]
      rw [run, List.foldl_cons, stepped]
      cases yielded with
      | token target token =>
        rw [fate, if_pos (show target = requestId from mine)]
        exact ih (v := v.event requestId (.token target token)) pending (isOpen.deliver token) unrecorded later
      | completed target =>
        rw [fate, if_pos (show target = requestId from mine)]
        obtain ⟨verdict, records⟩ := run_settled requestId
          (v := v.event requestId (.completed target)) rfl actions ending
        rw [run] at verdict records
        rw [verdict, records]
        exact ⟨isOpen.verdict_complete requestId, by simp [event, unrecorded, Verdict.record]⟩

/-- The local machine of one item over a whole batch: it sees its own actions only. -/
def alone (item : ScheduledRequest) (actions : List BatchAction) (ending : Ending) : ItemView :=
  run item.request.requestId { handle := item.handle }
    (actions.filter fun action => action.requestId = item.request.requestId) ending

theorem alone_withdrawn {item : ScheduledRequest} (withdrawn : item.handle.Withdrawn)
    (actions : List BatchAction) (ending : Ending) :
    (alone item actions ending).handle = item.handle ∧ (alone item actions ending).records = [] :=
  run_withdrawn _ withdrawn _ ending

/-- The verdict of an item depends on its id, its own actions and the ending, not on the kind of its handle. -/
theorem alone_verdict {item : ScheduledRequest} (fresh : item.handle.Fresh) (actions : List BatchAction)
    (ending : Ending) :
    (alone item actions ending).handle.verdict =
        (if item.cancelled then none else fate item.request.requestId ending [] actions) ∧
      (alone item actions ending).records =
        ((if item.cancelled then none else fate item.request.requestId ending [] actions).map
          Verdict.record).toList := by
  rcases fresh with isOpen | withdrawn
  · have live : item.cancelled = false := isOpen.not_cancelled
    have ran := run_waiting item.request.requestId (v := { handle := item.handle }) rfl isOpen rfl
      (actions.filter fun action => action.requestId = item.request.requestId)
      (fun action member => by simpa using (List.mem_filter.mp member).2) ending
    rw [fate_filter] at ran
    simpa [live, alone] using ran
  · have flag : item.cancelled = true := withdrawn.cancelled
    obtain ⟨handle, records⟩ := alone_withdrawn withdrawn actions ending
    rw [handle, records, withdrawn.verdict, flag]
    exact ⟨rfl, rfl⟩

theorem alone_ends {item : ScheduledRequest} (fresh : item.handle.Fresh) (actions : List BatchAction)
    (ending : Ending) :
    (∃ o, (alone item actions ending).handle.Settled o ∧ (alone item actions ending).records = [o]) ∨
      ((alone item actions ending).handle.Withdrawn ∧ (alone item actions ending).records = []) :=
  ((Phase.of_fresh fresh).steps _).finish ending

end ItemView

end LLMRuntime
