import LLMRuntime.Scheduler.PrioritySystem

namespace LLMRuntime

namespace PriorityState

variable {n : Nat} {cfg : SchedulerConfig} {st t : PriorityState n}

def held (st : PriorityState n) (i : Fin n) : List ScheduledRequest := (st.consumers i).held

/-- The items of the `submit` calls that wait for the lock, in its order. -/
def submitters (st : PriorityState n) : List ScheduledRequest := st.lockWaiters.filterMap LockWaiter.item?

theorem held_eq {i : Fin n} {point : ConsumerPoint} (here : st.consumers i = point) : st.held i = point.held := by
  rw [held, here]

theorem held_setPoint (st : PriorityState n) (i : Fin n) (point : ConsumerPoint) :
    (st.setPoint i point).held = Function.update st.held i point.held := by
  funext j
  by_cases same : j = i
  · subst same
    simp [held, setPoint]
  · simp [held, setPoint, same]

theorem held_setPoint_same {i : Fin n} {point : ConsumerPoint} (same : point.held = (st.consumers i).held) :
    (st.setPoint i point).held = st.held := by
  rw [held_setPoint, same]
  exact Function.update_eq_self i st.held

/-- Everything but the lock, the condition and the clock is as it was. -/
structure Same (st t : PriorityState n) : Prop where
  items : t.items = st.items
  counter : t.counter = st.counter
  submitted : t.submitted = st.submitted
  returned : t.returned = st.returned
  held : t.held = st.held
  ticks : st.ticks ≤ t.ticks

structure Appends (cfg : SchedulerConfig) (st t : PriorityState n) (item : ScheduledRequest) : Prop where
  items : ∃ tick, st.ticks ≤ tick ∧ tick < t.ticks ∧ t.items = st.items ++
    [{ priority := item.request.priority, sequence := st.counter + 1,
       queuedAt := cfg.timeFn.reading tick, item }]
  counter : t.counter = st.counter + 1
  submitted : t.submitted = st.submitted ++ [item]
  returned : t.returned = st.returned
  held : t.held = st.held

structure Pops (cfg : SchedulerConfig) (st t : PriorityState n) (queued : QueuedRequest) : Prop where
  found : popNextLocked cfg.agingBoostIntervalS (cfg.timeFn.reading st.ticks) st.items = some (queued, t.items)
  counter : t.counter = st.counter
  submitted : t.submitted = st.submitted
  ticks : st.ticks < t.ticks

/-- What a `submit` call can do: wait for the lock or append its item. -/
inductive Arrival (cfg : SchedulerConfig) (st : PriorityState n) (item : ScheduledRequest)
    (t : PriorityState n) : Prop where
  | waits (same : st.Same t) (waiters : t.submitters = st.submitters ++ [item])
  | appends (appends : st.Appends cfg t item) (waiters : t.submitters = st.submitters)

/-- What any other step can do to the requests of a scheduler. -/
inductive Effect (cfg : SchedulerConfig) (st t : PriorityState n) : Prop where
  | quiet (same : st.Same t) (waiters : t.submitters = st.submitters)
  | granted (item : ScheduledRequest) (appends : st.Appends cfg t item)
      (waiters : st.submitters = item :: t.submitters)
  | takes (i : Fin n) (queued : QueuedRequest) (pops : st.Pops cfg t queued)
      (held : t.held = Function.update st.held i (st.held i ++ [queued.item]))
      (returned : t.returned = st.returned) (waiters : t.submitters = st.submitters)
  | serves (queued : QueuedRequest) (pops : st.Pops cfg t queued) (held : t.held = st.held)
      (returned : ∃ tick, st.ticks ≤ tick ∧ t.returned = st.returned ++
        [.request { queued.item with
          request := queued.item.request.markStarted (cfg.perfCounter.reading tick) }])
      (waiters : t.submitters = st.submitters)
  | returns (i : Fin n) (batch : PartialBatch) (full : st.held i = batch.items) (items : t.items = st.items)
      (counter : t.counter = st.counter) (submitted : t.submitted = st.submitted)
      (ticks : st.ticks ≤ t.ticks) (held : t.held = Function.update st.held i [])
      (returned : ∃ tick createdAt, st.ticks ≤ tick ∧ t.returned = st.returned ++
        [.batch batch.maxBatchSize { items := markStartedAll cfg.perfCounter tick batch.items, createdAt }])
      (waiters : t.submitters = st.submitters)

theorem notify_same (st : PriorityState n) (wakes : Option (Fin n)) : st.Same (st.notify wakes) := by
  cases wakes with
  | none => exact ⟨rfl, rfl, rfl, rfl, rfl, le_refl _⟩
  | some i => exact ⟨rfl, rfl, rfl, rfl, held_setPoint_same (by simp), le_refl _⟩

@[simp] theorem notify_lockWaiters (st : PriorityState n) (wakes : Option (Fin n)) :
    (st.notify wakes).lockWaiters = st.lockWaiters := by
  cases wakes <;> rfl

theorem append_appends {item : ScheduledRequest} {wakes : Option (Fin n)}
    (taken : st.append cfg item wakes = some t) :
    st.Appends cfg t item ∧ t.submitters = st.submitters := by
  unfold append at taken
  split at taken
  · have notified := Option.some.inj taken
    let queued : QueuedRequest :=
      { priority := item.request.priority, sequence := st.counter + 1,
        queuedAt := cfg.timeFn.reading st.ticks, item }
    have same := notify_same { st with
      ticks := st.ticks + 1
      counter := st.counter + 1
      items := st.items ++ [queued]
      submitted := st.submitted ++ [item] } wakes
    rw [notified] at same
    refine ⟨⟨⟨st.ticks, le_refl _, same.ticks, same.items⟩, same.counter, same.submitted, same.returned,
      same.held⟩, ?_⟩
    rw [← notified]
    simp [submitters]
  · cases taken

theorem submit_arrival {item : ScheduledRequest} {wakes : Option (Fin n)}
    (taken : st.submit cfg item wakes = some t) :
    Arrival cfg st
      { item with request := item.request.markEnqueued (cfg.perfCounter.reading st.ticks) } t := by
  unfold submit at taken
  dsimp only at taken
  split at taken
  · obtain ⟨appends, waiters⟩ := append_appends taken
    obtain ⟨⟨tick, after, before, items⟩, counter, submitted, returned, held⟩ := appends
    exact .appends ⟨⟨tick, Nat.le_of_succ_le after, before, items⟩, counter, submitted, returned, held⟩ waiters
  · cases taken
    refine .waits ⟨rfl, rfl, rfl, rfl, rfl, Nat.le_succ _⟩ ?_
    simp [submitters, LockWaiter.item?]

variable {i : Fin n}

theorem Effect.congr_waiters {rest : List (LockWaiter n)}
    (waiters : rest.filterMap LockWaiter.item? = st.submitters)
    (effect : Effect cfg { st with lockWaiters := rest } t) : Effect cfg st t := by
  cases effect with
  | quiet same listed =>
    exact .quiet ⟨same.items, same.counter, same.submitted, same.returned, same.held, same.ticks⟩
      (listed.trans waiters)
  | granted item appends listed =>
    exact .granted item
      ⟨appends.items, appends.counter, appends.submitted, appends.returned, appends.held⟩
      (waiters.symm.trans listed)
  | takes i queued pops held returned listed =>
    exact .takes i queued ⟨pops.found, pops.counter, pops.submitted, pops.ticks⟩ held returned
      (listed.trans waiters)
  | serves queued pops held returned listed =>
    exact .serves queued ⟨pops.found, pops.counter, pops.submitted, pops.ticks⟩ held returned
      (listed.trans waiters)
  | returns i batch full items counter submitted later held returned listed =>
    exact .returns i batch full items counter submitted later held returned (listed.trans waiters)

theorem takeFirst_effect (call : Call) (empty : st.held i = []) :
    Effect cfg st (st.takeFirst cfg i call) := by
  unfold takeFirst
  split
  · exact .quiet ⟨rfl, rfl, rfl, rfl, held_setPoint_same empty.symm, le_refl _⟩ rfl
  · next queued rest found =>
    cases call with
    | request =>
      exact .serves queued ⟨found, rfl, rfl, by simp [setPoint]⟩ (held_setPoint_same empty.symm)
        ⟨st.ticks + 1, by omega, rfl⟩ rfl
    | batch maxBatchSize batchTimeoutMs =>
      refine .takes i queued ⟨found, rfl, rfl, by simp [setPoint]⟩ ?_ rfl rfl
      rw [held_setPoint, empty]
      rfl

theorem finish_effect {batch : PartialBatch} {tick : Nat} (full : st.held i = batch.items)
    (later : st.ticks ≤ tick) : Effect cfg st ({ st with ticks := tick }.finish cfg i batch) := by
  refine .returns i batch full rfl rfl rfl (by simp [finish, setPoint]; omega) ?_ ⟨tick, _, later, rfl⟩ rfl
  rw [finish, held_setPoint]
  rfl

theorem continueBatch_effect {batch : PartialBatch} {expired : Bool} (full : st.held i = batch.items) :
    Effect cfg st (st.continueBatch cfg i batch expired) := by
  unfold continueBatch
  split
  · exact finish_effect full (le_refl _)
  · exact .quiet ⟨rfl, rfl, rfl, rfl, held_setPoint_same full.symm, le_refl _⟩ rfl

theorem rejoin_effect {batch : PartialBatch} {expired : Bool} (full : st.held i = batch.items) :
    Effect cfg st (st.rejoin cfg i batch expired) := by
  unfold rejoin
  split
  · exact .quiet ⟨rfl, rfl, rfl, rfl, held_setPoint_same full.symm, le_refl _⟩ rfl
  · exact continueBatch_effect full

theorem submitters_queueFor {point : ConsumerPoint} : (st.queueFor i point).submitters = st.submitters := by
  simp [submitters, queueFor, setPoint, LockWaiter.item?]

theorem queueFor_effect {point : ConsumerPoint} (same : point.held = st.held i) :
    Effect cfg st (st.queueFor i point) :=
  .quiet ⟨rfl, rfl, rfl, rfl, held_setPoint_same same, le_refl _⟩ submitters_queueFor

theorem call_effect {call : Call} (taken : st.call cfg i call = some t) : Effect cfg st t := by
  unfold PriorityState.call at taken
  split at taken
  · next isIdle =>
    have empty : st.held i = [] := held_eq isIdle
    split at taken
    · cases taken
      exact takeFirst_effect call empty
    · cases taken
      exact queueFor_effect empty.symm
  · cases taken

theorem acquired_effect (taken : st.acquired cfg i = some t) : Effect cfg st t := by
  unfold acquired at taken
  split at taken
  · next call isFirst =>
    cases taken
    exact takeFirst_effect call (held_eq isFirst)
  · next call isFirst =>
    cases taken
    exact takeFirst_effect call (held_eq isFirst)
  · next batch expired isMore =>
    cases taken
    exact rejoin_effect (held_eq isMore)
  · cases taken

theorem grant_effect {wakes : Option (Fin n)} (taken : st.grant cfg wakes = some t) :
    Effect cfg st t := by
  unfold grant at taken
  split at taken
  · cases taken
  · split at taken
    · cases taken
    · next item rest queue =>
      obtain ⟨appends, waiters⟩ := append_appends taken
      refine .granted item ⟨appends.items, appends.counter, appends.submitted, appends.returned, appends.held⟩ ?_
      rw [waiters, submitters, queue]
      rfl
    · next i rest queue =>
      have effect : Effect cfg { st with lockWaiters := rest } t := acquired_effect taken
      refine effect.congr_waiters ?_
      rw [submitters, queue]
      rfl

theorem wake_effect (taken : st.wake cfg i = some t) : Effect cfg st t := by
  unfold wake at taken
  split at taken
  · next call isFirst =>
    have empty : st.held i = [] := held_eq isFirst
    split at taken
    · cases taken
      exact takeFirst_effect call empty
    · cases taken
      exact queueFor_effect empty.symm
  · cases taken
  · next batch mark _ isMore =>
    have full : st.held i = batch.items := held_eq isMore
    dsimp only at taken
    split at taken
    · cases taken
      exact rejoin_effect full
    · cases taken
      exact queueFor_effect full.symm
  · cases taken

theorem filterMap_erase_consumer (queue : List (LockWaiter n)) :
    (queue.erase (.consumer i)).filterMap LockWaiter.item? = queue.filterMap LockWaiter.item? := by
  induction queue with
  | nil => rfl
  | cons waiter queue ih =>
    by_cases same : waiter = .consumer i
    · subst same
      rw [List.erase_cons_head]
      rfl
    · rw [List.erase_cons_tail (by simpa using same), List.filterMap_cons, List.filterMap_cons, ih]

theorem expire_effect (taken : st.expire i = some t) : Effect cfg st t := by
  unfold expire at taken
  split at taken
  · cases taken
  · next batch mark _ isMore =>
    cases taken
    exact .quiet ⟨rfl, rfl, rfl, rfl, held_setPoint_same (held_eq isMore).symm, le_refl _⟩ rfl
  · next batch isMore =>
    cases taken
    refine .quiet ⟨rfl, rfl, rfl, rfl, ?_, le_refl _⟩
      (submitters_queueFor.trans (filterMap_erase_consumer st.lockWaiters))
    exact held_setPoint_same (held_eq isMore).symm
  · cases taken

theorem startWait_effect (taken : st.startWait i = some t) : Effect cfg st t := by
  unfold startWait at taken
  split at taken
  · next batch isMore =>
    cases taken
    exact .quiet ⟨rfl, rfl, rfl, rfl, held_setPoint_same (held_eq isMore).symm, le_refl _⟩ rfl
  · cases taken

theorem resume_effect (taken : st.resume cfg i = some t) : Effect cfg st t := by
  unfold resume at taken
  split at taken
  · next batch expired isMore =>
    cases taken
    exact continueBatch_effect (held_eq isMore)
  · cases taken

theorem waitForMore_held {batch : PartialBatch} (full : st.held i = batch.items) :
    (st.waitForMore cfg i batch).held = st.held := by
  unfold waitForMore
  split <;> exact held_setPoint_same full.symm

theorem collect_effect (taken : st.collect cfg i = some t) : Effect cfg st t := by
  unfold collect at taken
  split at taken
  · next batch isCollecting =>
    have full : st.held i = batch.items := held_eq isCollecting
    split at taken
    · next room =>
      split at taken
      · next queued rest found =>
        cases taken
        refine .takes i queued ⟨found, rfl, rfl, by simp [setPoint]⟩ ?_ rfl rfl
        rw [held_setPoint, full]
        rfl
      · split at taken
        · cases taken
          exact finish_effect full (le_refl _)
        · dsimp only at taken
          split at taken
          · cases taken
            exact finish_effect full (Nat.le_succ _)
          · cases taken
            refine .quiet ⟨?_, ?_, ?_, ?_, waitForMore_held full, ?_⟩ ?_ <;>
              (unfold waitForMore; split <;> simp [setPoint, submitters])
    · cases taken
      exact finish_effect full (le_refl _)
  · cases taken

theorem step_effect {action : SchedulerAction n} (taken : st.step cfg action = some t) :
    (∃ item, action.submits? = some item ∧
      Arrival cfg st { item with request := item.request.markEnqueued (cfg.perfCounter.reading st.ticks) } t) ∨
    (action.submits? = none ∧ Effect cfg st t) := by
  rcases step_cases taken with ⟨-, moved⟩ | ⟨i, -, rfl, moved⟩
  · cases action with
    | submit item wakes => exact .inl ⟨item, rfl, submit_arrival moved⟩
    | call i call => exact .inr ⟨rfl, call_effect moved⟩
    | grant wakes => exact .inr ⟨rfl, grant_effect moved⟩
    | wake i => exact .inr ⟨rfl, wake_effect moved⟩
    | expire i => exact .inr ⟨rfl, expire_effect moved⟩
    | startWait i => exact .inr ⟨rfl, startWait_effect moved⟩
    | resume i => exact .inr ⟨rfl, resume_effect moved⟩
    | collect i => cases moved
  · exact .inr ⟨rfl, collect_effect moved⟩

end PriorityState

end LLMRuntime
