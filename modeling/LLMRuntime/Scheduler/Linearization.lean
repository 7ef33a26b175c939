import LLMRuntime.Foundation.AtomicQueue
import LLMRuntime.Foundation.Deal
import LLMRuntime.Scheduler.Conservation
import LLMRuntime.Scheduler.PriorityModel

namespace LLMRuntime

open Transition AtomicQueue

section Pop

variable {agingBoostIntervalS now : ℚ} {items rest : List QueuedRequest} {popped : QueuedRequest}

theorem popNextLocked_split (found : popNextLocked agingBoostIntervalS now items = some (popped, rest)) :
    ∃ before after, items = before ++ popped :: after ∧ rest = before ++ after := by
  rcases Option.map_eq_some_iff.mp found with ⟨⟨index, best⟩, first, same⟩
  cases same
  rcases List.getElem?_eq_some_iff.mp (firstMin_getElem first) with ⟨bound, rfl⟩
  refine ⟨items.take index, items.drop (index + 1), ?_, List.eraseIdx_eq_take_drop_succ items index⟩
  rw [← List.drop_eq_getElem_cons bound, List.take_append_drop]

/-- In a queue that is numbered in its order, the least key is the first one of the best priority. -/
theorem popNextLocked_first (numbered : items.Pairwise fun earlier later => earlier.sequence < later.sequence)
    (found : popNextLocked agingBoostIntervalS now items = some (popped, rest)) :
    ∃ before after, items = before ++ popped :: after ∧ rest = before ++ after ∧
      (∀ other ∈ before,
        effectivePriority agingBoostIntervalS popped now < effectivePriority agingBoostIntervalS other now) ∧
      ∀ other ∈ after,
        effectivePriority agingBoostIntervalS popped now ≤ effectivePriority agingBoostIntervalS other now := by
  rcases popNextLocked_split found with ⟨before, after, split, left⟩
  have least := popNextLocked_le found
  subst split
  have apart := (List.pairwise_append.mp numbered).2.2
  refine ⟨before, after, rfl, left, fun other member => ?_, fun other member => ?_⟩
  · have smaller : other.sequence < popped.sequence := apart other member popped (by simp)
    rcases Prod.Lex.toLex_le_toLex.mp (least other (by simp [member])) with less | ⟨-, order⟩
    · exact less
    · exact absurd order (not_le.mpr smaller)
  · rcases Prod.Lex.toLex_le_toLex.mp (least other (by simp [member])) with less | ⟨same, -⟩
    · exact le_of_lt less
    · exact le_of_eq same

end Pop

namespace PriorityState

variable {n : Nat} (cfg : SchedulerConfig)

/-- The operation on the queue that a step is, if it is one. -/
def linearize (st : PriorityState n) (action : SchedulerAction n) : Option (Op (Fin n) QueuedRequest ℚ) :=
  (st.step cfg action).bind fun t =>
    if st.counter < t.counter then t.items.getLast?.map fun queued => .put queued queued.queuedAt
    else
      match st.consumer? action, popNextLocked cfg.agingBoostIntervalS (cfg.timeFn.reading st.ticks) st.items with
      | some i, some (queued, _) =>
        if t.items.length < st.items.length then some (.take i queued (cfg.timeFn.reading st.ticks)) else none
      | _, _ => none

/-- The requests that a call of consumer `i` returns, if a step ends it. -/
def returns (i : Fin n) (st : PriorityState n) (action : SchedulerAction n) : Option (List String) :=
  (st.step cfg action).bind fun t =>
    if st.consumer? action = some i then
      t.returned[st.returned.length]?.map fun dispatched => requestIds dispatched.items
    else none

variable {cfg} {st t : PriorityState n} {action : SchedulerAction n} {i : Fin n} {queued : QueuedRequest}

section Linearize

variable (taken : st.step cfg action = some t)

include taken

theorem linearize_put (counter : t.counter = st.counter + 1) (items : t.items = st.items ++ [queued]) :
    linearize cfg st action = some (.put queued queued.queuedAt) := by
  have more : st.counter < t.counter := counter ▸ Nat.lt_succ_self _
  simp [linearize, taken, more, items]

theorem linearize_take (pops : st.Pops cfg t queued) (consumer : st.consumer? action = some i) :
    linearize cfg st action = some (.take i queued (cfg.timeFn.reading st.ticks)) := by
  have fewer : t.items.length < st.items.length := by
    rw [(popNextLocked_perm pops.found).length_eq]
    exact Nat.lt_succ_self _
  simp [linearize, taken, pops.counter, consumer, pops.found, fewer]

theorem linearize_none (counter : t.counter = st.counter) (items : t.items = st.items) :
    linearize cfg st action = none := by
  simp only [linearize, taken, counter, items, Option.bind_some, lt_irrefl, if_false]
  split
  · rfl
  · rfl

end Linearize

def takenFor (j : Fin n) (op : Op (Fin n) QueuedRequest ℚ) : List String :=
  (Deal.hand op.take?.toList j).map fun queued => queued.item.requestId

def putIn (op : Op (Fin n) QueuedRequest ℚ) : List String := (op.put?.map fun queued => queued.item.requestId).toList

theorem takenFor_take (j : Fin n) (now : ℚ) :
    takenFor j (.take i queued now) = if j = i then [queued.item.requestId] else [] := by
  by_cases same : j = i
  · rw [if_pos same, same]
    simp [takenFor, Op.take?, Deal.hand]
  · rw [if_neg same]
    simp [takenFor, Op.take?, Deal.hand, Ne.symm same]

/-- A step is one operation on the queue, or none. -/
inductive Queues (cfg : SchedulerConfig) (st : PriorityState n) (action : SchedulerAction n) (t : PriorityState n) :
    Prop where
  | quiet (op : linearize cfg st action = none) (items : t.items = st.items) (ticks : st.ticks ≤ t.ticks)
  | put (queued : QueuedRequest) (op : linearize cfg st action = some (.put queued queued.queuedAt))
      (items : t.items = st.items ++ [queued]) (priority : queued.priority = queued.item.request.priority)
      (before : cfg.timeFn.reading st.ticks ≤ queued.queuedAt) (after : queued.queuedAt ≤ cfg.timeFn.reading t.ticks)
  | take (i : Fin n) (queued : QueuedRequest) (consumer : st.consumer? action = some i)
      (op : linearize cfg st action = some (.take i queued (cfg.timeFn.reading st.ticks)))
      (found : popNextLocked cfg.agingBoostIntervalS (cfg.timeFn.reading st.ticks) st.items = some (queued, t.items))
      (ticks : st.ticks ≤ t.ticks)

theorem appends_queues {item : ScheduledRequest} (taken : st.step cfg action = some t) (appends : st.Appends cfg t item) :
    Queues cfg st action t := by
  rcases appends.items with ⟨tick, after, before, items⟩
  apply Queues.put _ (linearize_put taken appends.counter items) items rfl
  · exact cfg.timeFn.monotone after
  · exact cfg.timeFn.monotone before.le

theorem consumer_of_fewer (taken : st.step cfg action = some t) (fewer : t.items.length < st.items.length) :
    ∃ i, st.consumer? action = some i ∧ st.places.Turn i t.places := by
  have shorter : t.places.queue.length < st.places.queue.length := by
    simpa [places, requestIds] using fewer
  have grown {id : String} (queue : t.places.queue = st.places.queue ++ [id]) : False := by
    rw [queue, List.length_append] at shorter
    omega
  cases (priorityModel_lawful cfg n).flow st action t taken with
  | waits item submits places =>
    have reached : t.places = st.places.enter item.requestId := places
    rw [reached] at shorter
    exact absurd shorter (lt_irrefl _)
  | appends item submits places => exact (grown (congrArg Places.queue places)).elim
  | granted id submits consumer waiting places => exact (grown (congrArg Places.queue places)).elim
  | turn i submits consumer turn own => exact ⟨i, consumer, turn⟩
  | aside i submits consumer turn returned detached => exact ⟨i, consumer, turn⟩

theorem pops_queues (taken : st.step cfg action = some t) (pops : st.Pops cfg t queued) : Queues cfg st action t := by
  have fewer : t.items.length < st.items.length := by
    rw [(popNextLocked_perm pops.found).length_eq]
    exact Nat.lt_succ_self _
  rcases consumer_of_fewer taken fewer with ⟨i, consumer, -⟩
  exact .take i queued consumer (linearize_take taken pops consumer) pops.found pops.ticks.le

theorem same_queues (taken : st.step cfg action = some t) (same : st.Same t) : Queues cfg st action t :=
  .quiet (linearize_none taken same.counter same.items) same.items same.ticks

theorem step_queues (taken : st.step cfg action = some t) : Queues cfg st action t := by
  rcases step_effect taken with ⟨item, -, arrival⟩ | ⟨-, effect⟩
  · cases arrival with
    | waits same waiters => exact same_queues taken same
    | appends appends waiters => exact appends_queues taken appends
  · cases effect with
    | quiet same waiters => exact same_queues taken same
    | granted item appends waiters => exact appends_queues taken appends
    | takes i queued pops held returned waiters => exact pops_queues taken pops
    | serves queued pops held returned waiters => exact pops_queues taken pops
    | returns i batch full items counter submitted ticks held returned waiters =>
      exact .quiet (linearize_none taken counter items) items ticks

/-- How urgent a queued request is at a time, the least first. -/
def level (cfg : SchedulerConfig) (now : ℚ) (queued : QueuedRequest) : Int :=
  effectivePriority cfg.agingBoostIntervalS queued now

theorem step_history (ordered : st.Ordered cfg) (taken : st.step cfg action = some t) :
    History (level cfg) (cfg.timeFn.reading st.ticks) st.items (linearize cfg st action).toList
      (cfg.timeFn.reading t.ticks) t.items := by
  cases step_queues taken with
  | quiet op items ticks =>
    rw [op, items]
    exact .nil (cfg.timeFn.monotone ticks)
  | put queued op items priority before after =>
    rw [op, items]
    exact .put before (.nil after)
  | take i queued consumer op found ticks =>
    rcases popNextLocked_first ordered.sequences found with ⟨before, after, split, left, earlier, later⟩
    rw [op, split, left]
    exact .take le_rfl earlier later (.nil (cfg.timeFn.monotone ticks))

section Hands

variable (taken : st.step cfg action = some t)

include taken

theorem returns_outcome (consumer : st.consumer? action = some i) (j : Fin n) :
    (returns cfg j st action).toList.flatten = st.places.outcome t.places i j := by
  simp only [returns, taken, consumer, Option.bind_some, Option.some_inj, Places.outcome]
  change _ = if i = j then (t.returned[st.returned.length]?).toList.flatMap _ else []
  split
  · cases t.returned[st.returned.length]? <;> simp
  · rfl

theorem returns_nobody (nobody : st.consumer? action = none) (j : Fin n) : returns cfg j st action = none := by
  simp [returns, taken, nobody]

theorem takenFor_nobody (nobody : st.consumer? action = none) (j : Fin n) :
    (linearize cfg st action).toList.flatMap (takenFor j) = [] := by
  cases step_queues taken with
  | quiet op items ticks => rw [op]; rfl
  | put queued op items priority before after => rw [op]; rfl
  | take i queued consumer op found ticks =>
    rw [nobody] at consumer
    cases consumer

theorem still_hands (nobody : st.consumer? action = none) (held : t.places.held = st.places.held) (j : Fin n) :
    st.places.held j ++ (linearize cfg st action).toList.flatMap (takenFor j) =
      (returns cfg j st action).toList.flatten ++ t.places.held j := by
  rw [takenFor_nobody taken nobody, returns_nobody taken nobody, held]
  exact List.append_nil _

theorem turn_hands (consumer : st.consumer? action = some i) (turn : st.places.Turn i t.places) (j : Fin n) :
    st.places.held j ++ (linearize cfg st action).toList.flatMap (takenFor j) =
      (returns cfg j st action).toList.flatten ++ t.places.held j := by
  rw [returns_outcome taken consumer]
  cases step_queues taken with
  | quiet op items ticks =>
    have queue : t.places.queue = st.places.queue :=
      congrArg (fun items : List QueuedRequest => requestIds (items.map QueuedRequest.item)) items
    have unchanged : st.places.queue.Perm ([] ++ t.places.queue) := List.Perm.of_eq queue.symm
    have hands := turn.hands unchanged (Nat.zero_le _) j
    rw [ite_self] at hands
    rw [op]
    exact hands
  | put queued op items priority before after =>
    have longer := turn.queue_le
    simp [places, requestIds, items] at longer
  | take k queued consumer' op found ticks =>
    rw [consumer] at consumer'
    cases consumer'
    have queue : st.places.queue.Perm ([queued.item.requestId] ++ t.places.queue) :=
      ((popNextLocked_perm found).map QueuedRequest.item).map ScheduledRequest.requestId
    have hands := turn.hands queue (le_refl _) j
    rw [op, Option.toList_some, List.flatMap_singleton, takenFor_take]
    exact hands

/-- A consumer holds or returns what was taken for it, in that order. -/
theorem step_hands (j : Fin n) : requestIds (st.held j) ++ (linearize cfg st action).toList.flatMap (takenFor j) =
    (returns cfg j st action).toList.flatten ++ requestIds (t.held j) := by
  have submitter {item : ScheduledRequest} (submits : action.submits? = some item) : st.consumer? action = none := by
    cases action with
    | submit item wakes => rfl
    | _ => cases submits
  cases (priorityModel_lawful cfg n).flow st action t taken with
  | waits item submits places =>
    have reached : t.places = st.places.enter item.requestId := places
    exact still_hands taken (submitter submits) (reached ▸ rfl) j
  | appends item submits places =>
    have reached : t.places = st.places.put item.requestId := places
    exact still_hands taken (submitter submits) (reached ▸ rfl) j
  | granted id submits nobody waiting places =>
    have held : t.places.held = st.places.held := (congrArg Places.held places : _)
    exact still_hands taken nobody held j
  | turn i submits consumer turn own => exact turn_hands taken consumer turn j
  | aside i submits consumer turn returned detached => exact turn_hands taken consumer turn j

end Hands

section Arrivals

theorem submitters_of_counted {item : ScheduledRequest} {wakes : Option (Fin n)}
    (taken : st.submit cfg item wakes = some t) (counted : t.counter = st.counter + 1) : st.submitters = [] := by
  unfold submit at taken
  dsimp only at taken
  split at taken
  · next free =>
    have nobody : st.lockWaiters = [] := by
      simpa [lockFree] using (Bool.and_eq_true_iff.mp free).2
    rw [submitters, nobody]
    rfl
  · cases taken
    exact absurd counted (Nat.ne_of_lt (Nat.lt_succ_self _))

variable (taken : st.step cfg action = some t)

include taken

theorem appends_puts {item : ScheduledRequest} (appends : st.Appends cfg t item) :
    (linearize cfg st action).toList.flatMap putIn = [item.requestId] := by
  rcases appends.items with ⟨tick, -, -, items⟩
  rw [linearize_put taken appends.counter items]
  rfl

theorem pops_puts (pops : st.Pops cfg t queued) : (linearize cfg st action).toList.flatMap putIn = [] := by
  have fewer : t.items.length < st.items.length := by
    rw [(popNextLocked_perm pops.found).length_eq]
    exact Nat.lt_succ_self _
  rcases consumer_of_fewer taken fewer with ⟨i, consumer, -⟩
  rw [linearize_take taken pops consumer]
  rfl

theorem still_puts (counter : t.counter = st.counter) (items : t.items = st.items) :
    (linearize cfg st action).toList.flatMap putIn = [] := by
  rw [linearize_none taken counter items]
  rfl

/-- Requests are put into the queue in the order of the `submit` calls. -/
theorem step_arrivals : requestIds st.submitters ++ action.submits?.toList.flatMap (fun item => [item.requestId]) =
    (linearize cfg st action).toList.flatMap putIn ++ requestIds t.submitters := by
  cases submits : action.submits? with
  | some item =>
    obtain ⟨wakes, rfl⟩ : ∃ wakes, action = .submit item wakes := by
      cases action with
      | submit other wakes =>
        cases submits
        exact ⟨wakes, rfl⟩
      | _ => cases submits
    have moved : st.submit cfg item wakes = some t := by
      rcases step_cases taken with ⟨-, moved⟩ | ⟨i, -, same, -⟩
      · exact moved
      · cases same
    cases submit_arrival moved with
    | waits same waiters =>
      rw [still_puts taken same.counter same.items, waiters, requestIds_append]
      rfl
    | appends appends waiters =>
      rw [appends_puts taken appends, waiters, submitters_of_counted moved appends.counter]
      rfl
  | none =>
    change requestIds st.submitters ++ [] = _
    rw [List.append_nil]
    rcases step_effect taken with ⟨item, same, -⟩ | ⟨-, effect⟩
    · rw [submits] at same
      cases same
    · cases effect with
      | quiet same waiters => rw [still_puts taken same.counter same.items, waiters, List.nil_append]
      | granted item appends waiters =>
        rw [appends_puts taken appends, waiters]
        rfl
      | takes i queued pops held returned waiters => rw [pops_puts taken pops, waiters, List.nil_append]
      | serves queued pops held returned waiters => rw [pops_puts taken pops, waiters, List.nil_append]
      | returns i batch full items counter submitted ticks held returned waiters =>
        rw [still_puts taken counter items, waiters, List.nil_append]

end Arrivals

theorem takenFor_log (j : Fin n) (log : List (Op (Fin n) QueuedRequest ℚ)) :
    log.flatMap (takenFor j) = (Deal.hand (log.filterMap Op.take?) j).map fun queued => queued.item.requestId := by
  induction log with
  | nil => rfl
  | cons op log ih =>
    have split : (op :: log).filterMap Op.take? = op.take?.toList ++ log.filterMap Op.take? := by cases op <;> rfl
    rw [split, Deal.hand_append, List.map_append, ← ih]
    rfl

theorem putIn_log (log : List (Op (Fin n) QueuedRequest ℚ)) :
    log.flatMap putIn = (log.filterMap Op.put?).map fun queued => queued.item.requestId := by
  induction log with
  | nil => rfl
  | cons op log ih =>
    rw [List.flatMap_cons, ih]
    cases op <;> rfl

/-- However producers and consumers interleave, the scheduler is an atomic queue that is ordered by the aged priority:
    its operations, each in a step of the call it belongs to, are a history of one; requests enter it in the order of
    the `submit` calls, and each consumer returns or holds what was taken for it, in that order. -/
theorem linearizable (cfg : SchedulerConfig) {acts : List (SchedulerAction n)} {st : PriorityState n}
    (run : exec (step cfg) {} acts = some st) :
    let log := observe (step cfg) (linearize cfg) {} acts
    let returned (i : Fin n) := (observe (step cfg) (returns cfg i) {} acts).flatten
    History (level cfg) (cfg.timeFn.reading 0) [] log (cfg.timeFn.reading st.ticks) st.items ∧
    (∀ op ∈ log, ∀ queued now, op = .put queued now →
      queued.queuedAt = now ∧ queued.priority = queued.item.request.priority) ∧
    (acts.filterMap SchedulerAction.submits?).map ScheduledRequest.requestId =
      ((log.filterMap Op.put?).map fun queued => queued.item.requestId) ++ requestIds st.submitters ∧
    ∀ i, ((Deal.hand (log.filterMap Op.take?) i).map fun queued => queued.item.requestId) =
      returned i ++ requestIds (st.held i) := by
  intro log returned
  have ordered : Ordered cfg ({} : PriorityState n) := (invariant_init cfg).ordered
  refine ⟨?_, ?_, ?_, fun i => ?_⟩
  · have one (s : PriorityState n) (action : SchedulerAction n) (t : PriorityState n) (ordered : s.Ordered cfg)
        (taken : s.step cfg action = some t) : t.Ordered cfg ∧
          History (level cfg) (cfg.timeFn.reading s.ticks) s.items (linearize cfg s action).toList
            (cfg.timeFn.reading t.ticks) t.items :=
      ⟨step_ordered ordered taken, step_history ordered taken⟩
    exact exec_history one ordered run
  · have one (s : PriorityState n) (action : SchedulerAction n) (t : PriorityState n) (_ : True)
        (taken : s.step cfg action = some t) : True ∧ ∀ op ∈ linearize cfg s action, ∀ queued now,
          op = .put queued now → queued.queuedAt = now ∧ queued.priority = queued.item.request.priority := by
      refine ⟨True.intro, fun op shown queued now put => ?_⟩
      subst put
      cases step_queues taken with
      | quiet none items ticks => rw [none] at shown; cases shown
      | put entered op items priority before after =>
        rw [op] at shown
        cases shown
        exact ⟨rfl, priority⟩
      | take i entered consumer op found ticks => rw [op] at shown; cases shown
    exact forall_observe one True.intro run
  · have one (s : PriorityState n) (action : SchedulerAction n) (t : PriorityState n)
        (taken : s.step cfg action = some t) := step_arrivals taken
    have balance := observe_balance one run
    rw [observe_eq_filterMap run, putIn_log] at balance
    rw [← balance]
    exact List.map_eq_flatMap
  · have one (s : PriorityState n) (action : SchedulerAction n) (t : PriorityState n)
        (taken : s.step cfg action = some t) :
        requestIds (s.held i) ++ (linearize cfg s action).toList.flatMap (takenFor i) =
          (returns cfg i s action).toList.flatMap id ++ requestIds (t.held i) := by
      rw [List.flatMap_id]
      exact step_hands taken i
    have balance := observe_balance one run
    rw [takenFor_log, List.flatMap_id] at balance
    exact balance

/-- The first consumer has the lock when the second request arrives, and takes the first one; the other is returned to
    the second consumer. -/
theorem linearizable_two :
    let acts : List (SchedulerAction 2) := [.call 0 (.batch 2 9000), .call 1 .request,
      .submit (.ofBody { messages := [] } "a" 0) (some 0), .wake 0, .collect 0,
      .submit (.ofBody { messages := [] } "b" 0) none, .startWait 0, .grant (some 1), .wake 1]
    let log := observe (step (.ticking .py311)) (linearize (.ticking .py311)) {} acts
    let returned (i : Fin 2) := (observe (step (.ticking .py311)) (returns (.ticking .py311) i) {} acts).flatten
    returned 0 = [] ∧ returned 1 = ["b"] ∧ log.length = 4 ∧
      ∃ st : PriorityState 2, requestIds (st.held 0) = ["a"] ∧ st.items = [] ∧
        History (level (.ticking .py311)) 0 [] log ((SchedulerConfig.ticking .py311).timeFn.reading st.ticks) st.items ∧
        ∀ i, ((Deal.hand (log.filterMap Op.take?) i).map fun queued => queued.item.requestId) =
          returned i ++ requestIds (st.held i) := by
  intro acts log returned
  have shown : returned 0 = [] ∧ returned 1 = ["b"] ∧ log.length = 4 := by decide +kernel
  have done : (exec (step (.ticking .py311)) {} acts).any
      (fun st => requestIds (st.held 0) = ["a"] ∧ st.items = []) = true := by
    decide +kernel
  rcases (Option.any_eq_true _ _).mp done with ⟨st, run, held⟩
  rcases of_decide_eq_true held with ⟨first, empty⟩
  rcases linearizable (.ticking .py311) run with ⟨history, -, -, hands⟩
  exact ⟨shown.1, shown.2.1, shown.2.2, st, first, empty, history, hands⟩

end PriorityState

end LLMRuntime
