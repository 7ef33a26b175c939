import LLMRuntime.Scheduler.Effects
import LLMRuntime.Scheduler.Places

namespace LLMRuntime

namespace PriorityState

variable {n : Nat} (cfg : SchedulerConfig) (st : PriorityState n)

def places : Places n :=
  { waiting := requestIds st.submitters, queue := requestIds (st.items.map QueuedRequest.item)
    held := fun i => requestIds (st.held i), returned := st.returned }

/-- On Python 3.11 a later wait of a call runs in a task of its own. -/
def runsItself (i : Fin n) : Bool :=
  match st.consumers i with
  | .more _ _ => cfg.version = .py312
  | _ => true

def consumer? : SchedulerAction n → Option (Fin n)
  | .submit _ _ => none
  | .call i _ => some i
  | .grant _ =>
    match st.lockWaiters with
    | .consumer i :: _ => some i
    | _ => none
  | .wake i => some i
  | .expire i => some i
  | .startWait i => some i
  | .resume i => some i
  | .collect i => some i

def own : SchedulerAction n → Bool
  | .submit _ _ => false
  | .grant _ =>
    match st.lockWaiters with
    | .consumer i :: _ => st.runsItself cfg i
    | _ => false
  | .wake i => st.runsItself cfg i
  | .startWait _ => cfg.version = .py312
  | .expire _ => false
  | _ => true

/-- A consumer that is parked takes the lock again on its way out; here that is one step. -/
def interrupt (i : Fin n) : Option (PriorityState n) :=
  match st.consumers i with
  | .first _ .entering => some ({ st with lockWaiters := st.lockWaiters.erase (.consumer i) }.setPoint i .idle)
  | .first _ .reacquiring => some ({ st with lockWaiters := st.lockWaiters.erase (.consumer i) }.setPoint i .idle)
  | .more _ (.reacquiring _) => some ({ st with lockWaiters := st.lockWaiters.erase (.consumer i) }.setPoint i .idle)
  | .more _ .spawned => some ({ st with locked := false }.setPoint i .idle)
  | .more _ (.handedBack _) => some ({ st with locked := false }.setPoint i .idle)
  | _ => some (st.setPoint i .idle)

def swallows (i : Fin n) : Bool :=
  match st.consumers i with
  | .more _ (.handedBack false) => cfg.version = .py311
  | _ => false

variable {cfg st} {t : PriorityState n} {i : Fin n}

theorem held_places (st : PriorityState n) (i : Fin n) (point : ConsumerPoint) :
    (st.setPoint i point).places.held = Function.update st.places.held i (requestIds point.held) := by
  funext j
  change requestIds ((st.setPoint i point).held j) = _
  rw [held_setPoint]
  by_cases same : j = i
  · subst same
    rw [Function.update_self, Function.update_self]
  · rw [Function.update_of_ne same, Function.update_of_ne same]
    rfl

theorem places_setPoint (st : PriorityState n) {point : ConsumerPoint} (same : point.held = st.held i) :
    (st.setPoint i point).places = st.places := by
  have held := held_setPoint_same same
  exact congrArg (fun held => { st.places with held := fun i => requestIds (held i) }) held

theorem places_queueFor {point : ConsumerPoint} (same : point.held = st.held i) :
    (st.queueFor i point).places = st.places := by
  have held : (st.queueFor i point).held = st.held := held_setPoint_same same
  rw [places, submitters_queueFor, held]
  rfl

theorem append_places {item : ScheduledRequest} {wakes : Option (Fin n)} (taken : st.append cfg item wakes = some t) :
    t.places = st.places.put item.requestId := by
  obtain ⟨appends, waiters⟩ := append_appends taken
  obtain ⟨tick, -, -, items⟩ := appends.items
  rw [places, waiters, items, appends.held, appends.returned, List.map_append, requestIds_append]
  rfl

theorem finish_turn {batch : PartialBatch} (ticks : Nat) (full : st.held i = batch.items) :
    st.places.Turn i ({ st with ticks }.finish cfg i batch).places := by
  have holds : st.places.held i = requestIds batch.items := congrArg requestIds full
  refine .dispatches (.batch batch.maxBatchSize _) [] rfl (.refl _) ?_ (held_places _ i .idle) rfl
  rw [holds, Dispatched.items, requestIds_markStartedAll, List.append_nil]

theorem takeFirst_turn (call : Call) (empty : st.held i = []) : st.places.Turn i (st.takeFirst cfg i call).places := by
  have holds : st.places.held i = [] := congrArg requestIds empty
  unfold takeFirst
  split
  · exact .quiet (places_setPoint { st with locked := false } empty.symm)
  · next queued rest found =>
    have perm := ((popNextLocked_perm found).map QueuedRequest.item).map ScheduledRequest.requestId
    cases call with
    | request =>
      refine .dispatches (.request _) [queued.item.requestId] rfl perm ?_ (held_places _ i .idle) rfl
      rw [holds]
      rfl
    | batch maxBatchSize batchTimeoutMs =>
      refine .takes queued.item.requestId rfl perm ?_ rfl
      rw [holds]
      exact held_places _ i _

theorem continueBatch_turn {batch : PartialBatch} {expired : Bool} (full : st.held i = batch.items) :
    st.places.Turn i (st.continueBatch cfg i batch expired).places := by
  unfold continueBatch
  split
  · exact finish_turn st.ticks full
  · exact .quiet (places_setPoint { st with locked := true, running := some i } full.symm)

theorem rejoin_turn {batch : PartialBatch} {expired : Bool} (full : st.held i = batch.items) :
    st.places.Turn i (st.rejoin cfg i batch expired).places := by
  unfold rejoin
  split
  · exact .quiet (places_setPoint { st with locked := true } full.symm)
  · exact continueBatch_turn full

theorem rejoin_places {batch : PartialBatch} {expired : Bool} (detached : cfg.version = .py311)
    (full : st.held i = batch.items) : (st.rejoin cfg i batch expired).places = st.places := by
  unfold rejoin
  rw [detached]
  exact places_setPoint { st with locked := true } full.symm

theorem call_turn {call : Call} (taken : st.call cfg i call = some t) : st.places.Turn i t.places := by
  unfold PriorityState.call at taken
  split at taken
  · next isIdle =>
    have empty : st.held i = [] := held_eq isIdle
    split at taken
    · cases taken
      exact takeFirst_turn call empty
    · cases taken
      exact .quiet (places_queueFor empty.symm)
  · cases taken

theorem acquired_turn (taken : st.acquired cfg i = some t) : st.places.Turn i t.places := by
  unfold acquired at taken
  split at taken
  · next call isFirst =>
    cases taken
    exact takeFirst_turn call (held_eq isFirst)
  · next call isFirst =>
    cases taken
    exact takeFirst_turn call (held_eq isFirst)
  · next batch expired isMore =>
    cases taken
    exact rejoin_turn (held_eq isMore)
  · cases taken

theorem wake_turn (taken : st.wake cfg i = some t) : st.places.Turn i t.places := by
  unfold wake at taken
  split at taken
  · next call isFirst =>
    have empty : st.held i = [] := held_eq isFirst
    split at taken
    · cases taken
      exact takeFirst_turn call empty
    · cases taken
      exact .quiet (places_queueFor empty.symm)
  · cases taken
  · next batch mark _ isMore =>
    have full : st.held i = batch.items := held_eq isMore
    dsimp only at taken
    split at taken
    · cases taken
      exact rejoin_turn full
    · cases taken
      exact .quiet (places_queueFor full.symm)
  · cases taken

theorem resume_turn (taken : st.resume cfg i = some t) : st.places.Turn i t.places := by
  unfold resume at taken
  split at taken
  · next batch expired isMore =>
    cases taken
    exact continueBatch_turn (held_eq isMore)
  · cases taken

theorem collect_turn (taken : st.collect cfg i = some t) : st.places.Turn i t.places := by
  unfold collect at taken
  split at taken
  · next batch isCollecting =>
    have full : st.held i = batch.items := held_eq isCollecting
    have holds : st.places.held i = requestIds batch.items := congrArg requestIds full
    split at taken
    · next room =>
      split at taken
      · next queued rest found =>
        cases taken
        have perm := ((popNextLocked_perm found).map QueuedRequest.item).map ScheduledRequest.requestId
        refine .takes queued.item.requestId rfl perm ?_ rfl
        rw [holds]
        refine (held_places _ i _).trans ?_
        rw [ConsumerPoint.held, PartialBatch.push, requestIds_append]
        rfl
      · split at taken
        · cases taken
          exact finish_turn st.ticks full
        · dsimp only at taken
          split at taken
          · cases taken
            exact finish_turn (st.ticks + 1) full
          · cases taken
            unfold waitForMore
            split
            · exact .quiet (places_setPoint { st with ticks := st.ticks + 1, running := none } full.symm)
            · exact .quiet (places_setPoint { st with ticks := st.ticks + 1, running := none, locked := false } full.symm)
    · cases taken
      exact finish_turn st.ticks full
  · cases taken

theorem startWait_places (taken : st.startWait i = some t) : t.places = st.places := by
  unfold startWait at taken
  split at taken
  · next batch isMore =>
    cases taken
    exact places_setPoint { st with locked := false } (held_eq isMore).symm
  · cases taken

theorem expire_places (taken : st.expire i = some t) : t.places = st.places := by
  unfold expire at taken
  split at taken
  · cases taken
  · next batch mark _ isMore =>
    cases taken
    exact places_setPoint st (held_eq isMore).symm
  · next batch isMore =>
    cases taken
    have same : ({ st with lockWaiters := st.lockWaiters.erase (.consumer i) }.queueFor i
        (.more batch (.reacquiring true))).places =
          PriorityState.places { st with lockWaiters := st.lockWaiters.erase (.consumer i) } :=
      places_queueFor (held_eq isMore).symm
    have waiters : requestIds ((st.lockWaiters.erase (.consumer i)).filterMap LockWaiter.item?) = st.places.waiting :=
      congrArg requestIds (filterMap_erase_consumer st.lockWaiters)
    exact same.trans (congrArg (fun waiting => { st.places with waiting }) waiters)
  · cases taken

theorem detached_of_not_runsItself (apart : st.runsItself cfg i = false) :
    cfg.version = .py311 ∧ ∃ batch point, st.consumers i = .more batch point := by
  unfold runsItself at apart
  split at apart
  · next batch point isMore =>
    refine ⟨?_, batch, point, isMore⟩
    cases version : cfg.version with
    | py311 => rfl
    | py312 => simp [version] at apart
  · cases apart

theorem wake_places (apart : st.runsItself cfg i = false) (taken : st.wake cfg i = some t) : t.places = st.places := by
  obtain ⟨detached, batch, point, isMore⟩ := detached_of_not_runsItself apart
  unfold wake at taken
  split at taken
  · next call isFirst =>
    rw [isMore] at isFirst
    cases isFirst
  · cases taken
  · next batch mark _ isMore =>
    have full : st.held i = batch.items := held_eq isMore
    dsimp only at taken
    split at taken
    · cases taken
      exact rejoin_places detached full
    · cases taken
      exact places_queueFor full.symm
  · cases taken

theorem acquired_places (apart : st.runsItself cfg i = false) (taken : st.acquired cfg i = some t) :
    t.places = st.places := by
  obtain ⟨detached, batch, point, isMore⟩ := detached_of_not_runsItself apart
  unfold acquired at taken
  split at taken
  · next call isFirst =>
    rw [isMore] at isFirst
    cases isFirst
  · next call isFirst =>
    rw [isMore] at isFirst
    cases isFirst
  · next batch expired isMore =>
    cases taken
    exact rejoin_places detached (held_eq isMore)
  · cases taken

end PriorityState

def priorityModel (cfg : SchedulerConfig) (n : Nat) : SchedulerModel n where
  State := PriorityState n
  Action := SchedulerAction n
  init := {}
  step := PriorityState.step cfg
  suspended st := st.running.isNone
  places := PriorityState.places
  submits? := SchedulerAction.submits?
  calls?
    | .call _ call => some call
    | _ => none
  consumer? := PriorityState.consumer?
  own := PriorityState.own cfg
  interrupt st i _ := st.interrupt i
  swallows := PriorityState.swallows cfg
  version := cfg.version

namespace PriorityState

variable {n : Nat} {cfg : SchedulerConfig} {st t : PriorityState n} {i : Fin n}

theorem submit_flow {item : ScheduledRequest} {wakes : Option (Fin n)} (taken : st.submit cfg item wakes = some t) :
    (priorityModel cfg n).Flow st (.submit item wakes) t := by
  rcases submit_arrival taken with ⟨same, waiters⟩ | ⟨appends, waiters⟩
  · refine .waits item rfl ?_
    change t.places = _
    rw [places, waiters, same.items, same.held, same.returned, requestIds_append]
    rfl
  · obtain ⟨tick, -, -, items⟩ := appends.items
    refine .appends item rfl ?_
    change t.places = _
    rw [places, waiters, items, appends.held, appends.returned, List.map_append, requestIds_append]
    rfl

theorem wake_flow (taken : st.wake cfg i = some t) : (priorityModel cfg n).Flow st (.wake i) t := by
  cases apart : st.runsItself cfg i with
  | true => exact .turn i rfl rfl (wake_turn taken) apart
  | false =>
    have same := wake_places apart taken
    exact .aside i rfl rfl (.quiet same) (congrArg Places.returned same) (.inl same)

theorem grant_flow {wakes : Option (Fin n)} (taken : st.grant cfg wakes = some t) :
    (priorityModel cfg n).Flow st (.grant wakes) t := by
  unfold grant at taken
  split at taken
  · cases taken
  · split at taken
    · cases taken
    · next item rest queue =>
      have appended := append_places taken
      have waits : st.places.waiting = item.requestId :: requestIds (rest.filterMap LockWaiter.item?) := by
        change requestIds (st.lockWaiters.filterMap LockWaiter.item?) = _
        rw [queue]
        rfl
      have consumer : st.consumer? (.grant wakes) = none := by
        rw [consumer?, queue]
      refine .granted item.requestId rfl consumer ?_ ?_
      · change st.places.waiting = item.requestId :: t.places.waiting
        rw [waits, appended]
        rfl
      · change t.places = { st.places.put item.requestId with waiting := t.places.waiting }
        rw [appended]
        rfl
    · next i rest queue =>
      have consumer : st.consumer? (.grant wakes) = some i := by
        rw [consumer?, queue]
      have waiters : (PriorityState.places { st with lockWaiters := rest }) = st.places := by
        have listed : st.submitters = rest.filterMap LockWaiter.item? := by
          rw [submitters, queue]
          rfl
        rw [places, places, listed]
        rfl
      have owner : st.own cfg (.grant wakes) = st.runsItself cfg i := by
        rw [own, queue]
      cases apart : st.runsItself cfg i with
      | true =>
        have turn := acquired_turn taken
        rw [waiters] at turn
        exact .turn i rfl consumer turn (owner.trans apart)
      | false =>
        have unmoved : t.places = PriorityState.places { st with lockWaiters := rest } := acquired_places apart taken
        have same := unmoved.trans waiters
        exact .aside i rfl consumer (.quiet same) (congrArg Places.returned same) (.inl same)

theorem step_flow {action : SchedulerAction n} (taken : st.step cfg action = some t) :
    (priorityModel cfg n).Flow st action t := by
  rcases step_cases taken with ⟨-, moved⟩ | ⟨i, -, rfl, moved⟩
  · cases action with
    | submit item wakes => exact submit_flow moved
    | call i call => exact .turn i rfl rfl (call_turn moved) rfl
    | grant wakes => exact grant_flow moved
    | wake i => exact wake_flow moved
    | expire i =>
      have same := expire_places moved
      exact .aside i rfl rfl (.quiet same) (congrArg Places.returned same) (.inl same)
    | startWait i =>
      have same := startWait_places moved
      exact .aside i rfl rfl (.quiet same) (congrArg Places.returned same) (.inl same)
    | resume i => exact .turn i rfl rfl (resume_turn moved) rfl
    | collect i => cases moved
  · exact .turn i rfl rfl (collect_turn moved) rfl

theorem interrupt_places (taken : st.interrupt i = some t) : t.places = st.places.drop i := by
  have ended (st : PriorityState n) : (st.setPoint i .idle).places = st.places.drop i :=
    congrArg (fun held => { st.places with held }) (held_places st i .idle)
  have erased : PriorityState.places { st with lockWaiters := st.lockWaiters.erase (.consumer i) } = st.places := by
    have waiters : requestIds ((st.lockWaiters.erase (.consumer i)).filterMap LockWaiter.item?) = st.places.waiting :=
      congrArg requestIds (filterMap_erase_consumer st.lockWaiters)
    exact congrArg (fun waiting => { st.places with waiting }) waiters
  have dequeued := (ended { st with lockWaiters := st.lockWaiters.erase (.consumer i) }).trans
    (congrArg (Places.drop · i) erased)
  unfold interrupt at taken
  split at taken
  · cases taken
    exact dequeued
  · cases taken
    exact dequeued
  · cases taken
    exact dequeued
  · cases taken
    exact ended { st with locked := false }
  · cases taken
    exact ended { st with locked := false }
  · cases taken
    exact ended st

end PriorityState

theorem priorityModel_lawful (cfg : SchedulerConfig) (n : Nat) : (priorityModel cfg n).Lawful where
  init := rfl
  flow _ _ _ taken := PriorityState.step_flow taken
  interrupt _ _ _ _ taken := PriorityState.interrupt_places taken
  swallows st i swallowed := by
    change st.swallows cfg i = true at swallowed
    unfold PriorityState.swallows at swallowed
    split at swallowed
    · exact of_decide_eq_true swallowed
    · cases swallowed

end LLMRuntime
