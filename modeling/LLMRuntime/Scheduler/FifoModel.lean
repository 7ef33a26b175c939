import LLMRuntime.Scheduler.Fifo
import LLMRuntime.Scheduler.Places

namespace LLMRuntime

namespace FifoPoint

/-- The items a consumer has taken, the one that its `wait_for` is about to return included. -/
def held : FifoPoint → List ScheduledRequest
  | .collecting batch => batch.items
  | .more batch _ (.handedBack (some item)) => batch.items ++ [item]
  | .more batch _ _ => batch.items
  | _ => []

/-- Parked in a `get` with a wakeup that has not been used. -/
def woken : FifoPoint → Bool
  | .first _ notified => notified
  | .more _ _ (.parked mark) => mark == .notified || mark == .cancelled true
  | _ => false

theorem held_notify (p : FifoPoint) : p.notify.held = p.held := by
  unfold notify
  split
  · rfl
  · next batch room mark => rfl
  · rfl

theorem held_more_ne_nil (batch : PartialBatch) (room : (batch.items.length : Int) < batch.maxBatchSize)
    (point : GetPoint) : requestIds (FifoPoint.more batch room point).held ≠ [] := by
  have nonempty : batch.items ≠ [] := List.ne_nil_of_length_pos batch.sized.1
  cases point with
  | handedBack item => cases item <;> simp [FifoPoint.held, requestIds, nonempty]
  | spawned => simpa [FifoPoint.held, requestIds] using nonempty
  | parked => simpa [FifoPoint.held, requestIds] using nonempty

end FifoPoint

namespace FifoState

open Places (Turn)

variable {n : Nat} (version : PythonVersion) (clock : Clock) (st : FifoState n)

def places : Places n :=
  { waiting := [], queue := requestIds st.queue, held := fun i => requestIds (st.consumers i).held
    returned := st.returned }

def consumer? : FifoAction n → Option (Fin n)
  | .submit _ _ => none
  | .call i _ => some i
  | .wake i _ => some i
  | .expire i => some i
  | .startGet i => some i
  | .resume i => some i
  | .collect i => some i

/-- On Python 3.11 a later `get` of a call runs in a task of its own. -/
def own : FifoAction n → Bool
  | .submit _ _ => false
  | .wake i _ =>
    match st.consumers i with
    | .more _ _ _ => version = .py312
    | _ => true
  | .startGet _ => version = .py312
  | .expire _ => false
  | _ => true

/-- A getter that is notified when it is cancelled hands the wakeup on. -/
def interrupt (i : Fin n) (wakes : Option (Fin n)) : Option (FifoState n) :=
  let ended := st.setPoint i .idle
  if (st.consumers i).woken && !st.queue.isEmpty then ended.wakeupNext wakes else some ended

def swallows (i : Fin n) : Bool :=
  match st.consumers i with
  | .more _ _ (.handedBack (some _)) => version = .py311
  | _ => false

variable {version clock st} {t : FifoState n} {i : Fin n}

theorem held_setPoint (st : FifoState n) (i : Fin n) (point : FifoPoint) :
    (st.setPoint i point).places.held = Function.update st.places.held i (requestIds point.held) := by
  funext j
  by_cases same : j = i
  · subst same
    simp [places, setPoint]
  · simp [places, setPoint, same]

theorem places_setPoint {point : FifoPoint} (same : requestIds point.held = st.places.held i) :
    (st.setPoint i point).places = st.places := by
  have held : (st.setPoint i point).places.held = st.places.held := by
    rw [held_setPoint, same, Function.update_eq_self]
  exact congrArg (fun held => { st.places with held }) held

theorem wakeupNext_places {wakes : Option (Fin n)} (taken : st.wakeupNext wakes = some t) : t.places = st.places := by
  unfold wakeupNext at taken
  split at taken
  · cases taken
    cases wakes with
    | none => rfl
    | some i => exact places_setPoint (congrArg requestIds (FifoPoint.held_notify _))
  · cases taken

theorem held_eq {point : FifoPoint} (here : st.consumers i = point) : st.places.held i = requestIds point.held := by
  change requestIds (st.consumers i).held = _
  rw [here]

theorem submit_places {item : ScheduledRequest} {wakes : Option (Fin n)}
    (taken : st.submit clock item wakes = some t) : t.places = st.places.put item.requestId := by
  have woken := wakeupNext_places taken
  rw [woken]
  simp [places, Places.put, ScheduledRequest.requestId, RuntimeRequest.markEnqueued]

theorem finish_turn {batch : PartialBatch} (ticks : Nat) (full : st.places.held i = requestIds batch.items) :
    st.places.Turn i ({ st with ticks }.finish clock i batch).places := by
  refine .dispatches (.batch batch.maxBatchSize _) [] rfl (.refl _) ?_ (held_setPoint _ i .idle) rfl
  rw [full, Dispatched.items, requestIds_markStartedAll, List.append_nil]

theorem takeFirst_turn (call : Call) (empty : st.places.held i = []) :
    st.places.Turn i (st.takeFirst clock i call).places := by
  unfold takeFirst
  split
  · exact .quiet (places_setPoint empty.symm)
  · next item queue queued =>
    have waits : st.places.queue = item.requestId :: requestIds queue := congrArg requestIds queued
    cases call with
    | request =>
      refine .dispatches (.request _) [item.requestId] rfl (List.Perm.of_eq waits) ?_ (held_setPoint _ i .idle) rfl
      rw [empty]
      rfl
    | batch maxBatchSize batchTimeoutMs =>
      refine .takes item.requestId rfl (List.Perm.of_eq waits) ?_ rfl
      rw [held_setPoint, empty]
      rfl

section More

variable {batch : PartialBatch} {room : (batch.items.length : Int) < batch.maxBatchSize}

theorem extend_held (st : FifoState n) (item : ScheduledRequest) : (st.extend i batch room item).places.held =
    Function.update st.places.held i (requestIds batch.items ++ [item.requestId]) := by
  have same := held_setPoint { st with running := some i } i (.collecting (batch.push item room))
  rw [FifoPoint.held, PartialBatch.push, requestIds_append] at same
  exact same

theorem takeMore_turn (full : st.places.held i = requestIds batch.items) :
    st.places.Turn i (st.takeMore version i batch room).places := by
  unfold takeMore
  split
  · exact .quiet (places_setPoint full.symm)
  · next item queue queued =>
    have waits : st.places.queue = item.requestId :: requestIds queue := congrArg requestIds queued
    cases version with
    | py311 =>
      refine .takes item.requestId rfl (List.Perm.of_eq waits) ?_ rfl
      rw [full]
      exact (held_setPoint { st with queue } i _).trans (by rw [FifoPoint.held, requestIds_append]; rfl)
    | py312 =>
      refine .takes item.requestId rfl (List.Perm.of_eq waits) ?_ rfl
      rw [full]
      exact extend_held { st with queue } item

theorem takeMore_returned : (st.takeMore .py311 i batch room).places.returned = st.places.returned := by
  unfold takeMore
  split <;> rfl

theorem abandon_turn {notifiedBefore : Bool} {wakes : Option (Fin n)} (full : st.places.held i = requestIds batch.items)
    (taken : st.abandon version clock i batch room notifiedBefore wakes = some t) : st.places.Turn i t.places := by
  have handedBack : st.places.Turn i (st.setPoint i (.more batch room (.handedBack none))).places :=
    .quiet (places_setPoint full.symm)
  have ended : st.places.Turn i (st.finish clock i batch).places := finish_turn st.ticks full
  unfold abandon at taken
  cases version with
  | py311 =>
    dsimp only at taken
    split at taken
    · rw [wakeupNext_places taken]
      exact handedBack
    · cases taken
      exact handedBack
  | py312 =>
    dsimp only at taken
    split at taken
    · rw [wakeupNext_places taken]
      exact ended
    · cases taken
      exact ended

theorem abandon_places {notifiedBefore : Bool} {wakes : Option (Fin n)}
    (full : st.places.held i = requestIds batch.items)
    (taken : st.abandon .py311 clock i batch room notifiedBefore wakes = some t) : t.places = st.places := by
  unfold abandon at taken
  dsimp only at taken
  split at taken
  · rw [wakeupNext_places taken]
    exact places_setPoint full.symm
  · cases taken
    exact places_setPoint full.symm

end More

end FifoState

def fifoModel (version : PythonVersion) (clock : Clock) (n : Nat) : SchedulerModel n where
  State := FifoState n
  Action := FifoAction n
  init := {}
  step := FifoState.step version clock
  suspended st := st.running.isNone
  places := FifoState.places
  submits? := FifoAction.submits?
  calls?
    | .call _ call => some call
    | _ => none
  consumer? _ := FifoState.consumer?
  own := FifoState.own version
  interrupt := FifoState.interrupt
  swallows := FifoState.swallows version
  version

namespace FifoState

variable {n : Nat} {version : PythonVersion} {clock : Clock} {st t : FifoState n} {i : Fin n}

theorem call_turn {call : Call} (taken : st.call clock i call = some t) : st.places.Turn i t.places := by
  unfold FifoState.call at taken
  split at taken
  · next idle =>
    cases taken
    exact takeFirst_turn call (held_eq idle)
  · cases taken

theorem resume_turn (taken : st.resume clock i = some t) : st.places.Turn i t.places := by
  unfold resume at taken
  split at taken
  · next batch room item here =>
    cases taken
    have full : st.places.held i = requestIds batch.items ++ [item.requestId] := by
      rw [held_eq here, FifoPoint.held, requestIds_append]
      rfl
    refine .quiet ?_
    have held : (st.extend i batch room item).places.held = st.places.held := by
      rw [extend_held, ← full, Function.update_eq_self]
    exact congrArg (fun held => { st.places with held }) held
  · next batch room here =>
    cases taken
    exact finish_turn st.ticks (held_eq here)
  · cases taken

theorem collect_turn (taken : st.collect version clock i = some t) : st.places.Turn i t.places := by
  unfold collect at taken
  split at taken
  · next batch here =>
    have full : st.places.held i = requestIds batch.items := held_eq here
    split at taken
    · next room =>
      split at taken
      · split at taken
        · cases taken
          exact finish_turn st.ticks full
        · next item queue queued =>
          cases taken
          refine .takes item.requestId rfl (List.Perm.of_eq (congrArg requestIds queued)) ?_ rfl
          rw [full]
          exact extend_held { st with queue } item
      · dsimp only at taken
        split at taken
        · cases taken
          exact finish_turn (st.ticks + 1) full
        · cases taken
          unfold waitForMore
          cases version with
          | py311 => exact .quiet (places_setPoint full.symm)
          | py312 =>
            have waits : (FifoState.places { st with ticks := st.ticks + 1, running := none }).Turn i
              (({ st with ticks := st.ticks + 1, running := none } : FifoState n).takeMore .py312 i batch room).places :=
                takeMore_turn full
            exact waits
    · cases taken
      exact finish_turn st.ticks full
  · cases taken

theorem expire_places (taken : st.expire i = some t) : t.places = st.places := by
  unfold expire at taken
  split at taken
  · next batch room here =>
    cases taken
    exact places_setPoint (held_eq here).symm
  · next batch room here =>
    cases taken
    exact places_setPoint (held_eq here).symm
  · cases taken

theorem wake_flow {wakes : Option (Fin n)} (taken : st.wake version clock i wakes = some t) :
    (fifoModel version clock n).Flow st (.wake i wakes) t := by
  have moved := taken
  unfold wake at moved
  split at moved
  · next call here =>
    cases moved
    exact .turn i rfl rfl (takeFirst_turn call (held_eq here)) (by
      change own version st (.wake i wakes) = true
      rw [own, here])
  · next batch room here =>
    cases moved
    have full : st.places.held i = requestIds batch.items := held_eq here
    cases version with
    | py311 =>
      refine .aside i rfl rfl (takeMore_turn full) takeMore_returned (.inr ⟨rfl, ?_⟩)
      exact held_eq here ▸ FifoPoint.held_more_ne_nil batch room _
    | py312 =>
      refine .turn i rfl rfl (takeMore_turn full) ?_
      change own .py312 st (.wake i wakes) = true
      rw [own, here]
      rfl
  · next batch room notifiedBefore here =>
    have full : st.places.held i = requestIds batch.items := held_eq here
    cases version with
    | py311 =>
      have same := abandon_places full moved
      exact .aside i rfl rfl (.quiet same) (congrArg Places.returned same) (.inl same)
    | py312 =>
      refine .turn i rfl rfl (abandon_turn full moved) ?_
      change own .py312 st (.wake i wakes) = true
      rw [own, here]
      rfl
  · cases moved

theorem startGet_flow (taken : st.startGet version i = some t) :
    (fifoModel version clock n).Flow st (.startGet i) t := by
  unfold startGet at taken
  split at taken
  · next batch room here =>
    cases taken
    have full : st.places.held i = requestIds batch.items := held_eq here
    cases version with
    | py311 =>
      refine .aside i rfl rfl (takeMore_turn full) takeMore_returned (.inr ⟨rfl, ?_⟩)
      exact held_eq here ▸ FifoPoint.held_more_ne_nil batch room _
    | py312 => exact .turn i rfl rfl (takeMore_turn full) rfl
  · cases taken

theorem step_flow {action : FifoAction n} (taken : st.step version clock action = some t) :
    (fifoModel version clock n).Flow st action t := by
  rcases step_cases taken with ⟨-, moved⟩ | ⟨i, -, rfl, moved⟩
  · cases action with
    | submit item wakes => exact .appends item rfl (submit_places moved)
    | call i call => exact .turn i rfl rfl (call_turn moved) rfl
    | wake i wakes => exact wake_flow moved
    | expire i =>
      have same := expire_places moved
      exact .aside i rfl rfl (.quiet same) (congrArg Places.returned same) (.inl same)
    | startGet i => exact startGet_flow moved
    | resume i => exact .turn i rfl rfl (resume_turn moved) rfl
    | collect i => cases moved
  · exact .turn i rfl rfl (collect_turn moved) rfl

theorem interrupt_places {wakes : Option (Fin n)} (taken : st.interrupt i wakes = some t) :
    t.places = st.places.drop i := by
  have ended : (st.setPoint i .idle).places = st.places.drop i :=
    congrArg (fun held => { st.places with held }) (held_setPoint st i .idle)
  unfold interrupt at taken
  dsimp only at taken
  split at taken
  · rw [wakeupNext_places taken]
    exact ended
  · cases taken
    exact ended

end FifoState

theorem fifoModel_lawful (version : PythonVersion) (clock : Clock) (n : Nat) : (fifoModel version clock n).Lawful where
  init := rfl
  flow _ _ _ taken := FifoState.step_flow taken
  interrupt _ _ _ _ taken := FifoState.interrupt_places taken
  swallows st i swallowed := by
    change st.swallows version i = true at swallowed
    unfold FifoState.swallows at swallowed
    split at swallowed
    · exact of_decide_eq_true swallowed
    · cases swallowed

end LLMRuntime
