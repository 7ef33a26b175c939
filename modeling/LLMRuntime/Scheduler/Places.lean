import Mathlib.Data.List.Perm.Basic
import Mathlib.Logic.Function.Basic
import LLMRuntime.Scheduler.Batching

namespace LLMRuntime

def ScheduledRequest.requestId (item : ScheduledRequest) : String := item.request.requestId

def requestIds (items : List ScheduledRequest) : List String := items.map ScheduledRequest.requestId

@[simp] theorem requestIds_nil : requestIds [] = [] := rfl

@[simp] theorem requestIds_cons (item : ScheduledRequest) (items : List ScheduledRequest) :
    requestIds (item :: items) = item.requestId :: requestIds items := rfl

@[simp] theorem requestIds_append (first second : List ScheduledRequest) :
    requestIds (first ++ second) = requestIds first ++ requestIds second := List.map_append

theorem requestIds_markStartedAll (clock : Clock) (ticks : Nat) (items : List ScheduledRequest) :
    requestIds (markStartedAll clock ticks items) = requestIds items := by
  induction items generalizing ticks with
  | nil => rfl
  | cons item items ih =>
    rw [markStartedAll, requestIds_cons, ih]
    rfl

/-- Where the requests of a scheduler are: in a `submit` that waits for the lock, in the queue, in the partial
    batch of a consumer, or returned. -/
structure Places (n : Nat) where
  waiting : List String
  queue : List String
  held : Fin n → List String
  returned : List Dispatched

namespace Places

variable {n : Nat} (p : Places n)

def enter (id : String) : Places n := { p with waiting := p.waiting ++ [id] }

def put (id : String) : Places n := { p with queue := p.queue ++ [id] }

/-- The call of a consumer ends with an exception; its partial batch is a local variable. -/
def drop (i : Fin n) : Places n := { p with held := Function.update p.held i [] }

inductive Turn (i : Fin n) (p q : Places n) : Prop where
  | quiet (same : q = p)
  | takes (id : String) (waiting : q.waiting = p.waiting) (queue : p.queue.Perm (id :: q.queue))
      (held : q.held = Function.update p.held i (p.held i ++ [id])) (returned : q.returned = p.returned)
  | dispatches (dispatched : Dispatched) (taken : List String) (waiting : q.waiting = p.waiting)
      (queue : p.queue.Perm (taken ++ q.queue)) (items : requestIds dispatched.items = p.held i ++ taken)
      (held : q.held = Function.update p.held i []) (returned : q.returned = p.returned ++ [dispatched])

section Outcome

variable {p} {q : Places n} {i : Fin n} {taken : List String}

def outcome (p q : Places n) (i j : Fin n) : List String :=
  if i = j then (q.returned[p.returned.length]?).toList.flatMap fun dispatched => requestIds dispatched.items else []

theorem outcome_same (returned : q.returned = p.returned) (i j : Fin n) : p.outcome q i j = [] := by
  simp [outcome, returned]

theorem outcome_self {dispatched : Dispatched} (returned : q.returned = p.returned ++ [dispatched]) (i : Fin n) :
    p.outcome q i i = requestIds dispatched.items := by
  simp [outcome, returned]

theorem outcome_other {j : Fin n} (other : j ≠ i) : p.outcome q i j = [] := if_neg (Ne.symm other)

theorem eq_of_perm_front {front : List String} (perm : (front ++ q.queue).Perm (taken ++ q.queue))
    (short : front.length ≤ 1) : front = taken := by
  have same : front.Perm taken := (List.perm_append_right_iff q.queue).mp perm
  cases front with
  | nil => exact same.nil_eq
  | cons id rest =>
    have nothing : rest = [] := List.eq_nil_of_length_eq_zero (by rw [List.length_cons] at short; omega)
    rw [nothing] at same ⊢
    exact List.singleton_perm.mp same

/-- A turn that takes at most one request gives it to the consumer whose turn it is. -/
theorem Turn.hands (turn : p.Turn i q) {front : List String} (queued : p.queue.Perm (front ++ q.queue))
    (short : front.length ≤ 1) (j : Fin n) :
    p.held j ++ (if j = i then front else []) = p.outcome q i j ++ q.held j := by
  have dealt (taken : List String) (perm : p.queue.Perm (taken ++ q.queue))
      (own : p.held i ++ taken = p.outcome q i i ++ q.held i) (others : ∀ j, j ≠ i → q.held j = p.held j) :
      p.held j ++ (if j = i then front else []) = p.outcome q i j ++ q.held j := by
    have same := eq_of_perm_front (queued.symm.trans perm) short
    by_cases mine : j = i
    · rw [mine, if_pos rfl, same]
      exact own
    · rw [if_neg mine, outcome_other mine, others j mine, List.append_nil, List.nil_append]
  cases turn with
  | quiet same =>
    subst same
    apply dealt [] (.refl _) _ (fun _ _ => rfl)
    rw [outcome_same rfl]
    simp
  | takes id waiting queue held returned =>
    apply dealt [id] queue _ (fun j other => by rw [held, Function.update_of_ne other])
    rw [outcome_same returned, held, Function.update_self]
    rfl
  | dispatches dispatched taken waiting queue items held returned =>
    apply dealt taken queue _ (fun j other => by rw [held, Function.update_of_ne other])
    rw [outcome_self returned, items, held, Function.update_self, List.append_nil]

theorem Turn.queue_le (turn : p.Turn i q) : q.queue.length ≤ p.queue.length := by
  cases turn with
  | quiet same => rw [same]
  | takes id waiting queue held returned => exact Nat.le_trans (Nat.le_succ _) queue.length_eq.ge
  | dispatches dispatched taken waiting queue items held returned =>
    rw [queue.length_eq, List.length_append]
    exact Nat.le_add_left _ _

end Outcome

end Places

/-- A scheduler with `n` consumers, as the workers that call it see it. -/
structure SchedulerModel (n : Nat) where
  State : Type
  Action : Type
  init : State
  step : State → Action → Option State
  /-- Every task is suspended. -/
  suspended : State → Bool
  places : State → Places n
  submits? : Action → Option ScheduledRequest
  calls? : Action → Option Call
  /-- The consumer whose call an action moves on. -/
  consumer? : State → Action → Option (Fin n)
  /-- Whether the task of that consumer itself runs, and not a timer or a task that it waits for. -/
  own : State → Action → Bool
  /-- `CancelledError` is raised where the call of a consumer is suspended, and comes out of it. -/
  interrupt : State → Fin n → Option (Fin n) → Option State
  /-- The `wait_for` of the consumer has its result and returns it even when it is cancelled. -/
  swallows : State → Fin n → Bool
  version : PythonVersion

namespace SchedulerModel

variable {n : Nat} (M : SchedulerModel n)

inductive Flow (s : M.State) (a : M.Action) (t : M.State) : Prop where
  | waits (item : ScheduledRequest) (submits : M.submits? a = some item)
      (places : M.places t = (M.places s).enter item.requestId)
  | appends (item : ScheduledRequest) (submits : M.submits? a = some item)
      (places : M.places t = (M.places s).put item.requestId)
  | granted (id : String) (submits : M.submits? a = none) (consumer : M.consumer? s a = none)
      (waiting : (M.places s).waiting = id :: (M.places t).waiting)
      (places : M.places t = { (M.places s).put id with waiting := (M.places t).waiting })
  | turn (i : Fin n) (submits : M.submits? a = none) (consumer : M.consumer? s a = some i)
      (turn : (M.places s).Turn i (M.places t)) (own : M.own s a = true)
  | aside (i : Fin n) (submits : M.submits? a = none) (consumer : M.consumer? s a = some i)
      (turn : (M.places s).Turn i (M.places t)) (returned : (M.places t).returned = (M.places s).returned)
      (detached : M.places t = M.places s ∨ M.version = .py311 ∧ (M.places s).held i ≠ [])

/-- The laws that the pool of workers relies on. -/
structure Lawful : Prop where
  init : M.places M.init = ⟨[], [], fun _ => [], []⟩
  flow : ∀ s a t, M.step s a = some t → M.Flow s a t
  interrupt : ∀ s i wakes t, M.interrupt s i wakes = some t → M.places t = (M.places s).drop i
  swallows : ∀ s i, M.swallows s i = true → M.version = .py311

end SchedulerModel

end LLMRuntime
