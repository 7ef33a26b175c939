import Mathlib.Logic.Function.Basic
import Mathlib.Tactic.Common
import LLMRuntime.Scheduler.Batching

namespace LLMRuntime

/-- The future of a parked `Queue.get`. A cancelled one may have been notified before. -/
inductive GetterMark where
  | waiting
  | notified
  | cancelled (notifiedBefore : Bool)
  deriving DecidableEq, Repr

/-- Where the `wait_for` around a `Queue.get` is suspended. In `spawned` the task that is to run it is ready, and
    runs before the timer can; in `handedBack` it is done: with an item, or cancelled. -/
inductive GetPoint where
  | spawned
  | parked (mark : GetterMark)
  | handedBack (item : Option ScheduledRequest)
  deriving DecidableEq, Repr

inductive FifoPoint where
  | idle
  | first (call : Call) (notified : Bool)
  | collecting (batch : PartialBatch)
  | more (batch : PartialBatch) (room : (batch.items.length : Int) < batch.maxBatchSize) (point : GetPoint)
  deriving DecidableEq, Repr

namespace FifoPoint

def unnotified : FifoPoint → Bool
  | .first _ notified => !notified
  | .more _ _ (.parked mark) => mark == .waiting
  | _ => false

def notify : FifoPoint → FifoPoint
  | .first call _ => .first call true
  | .more batch room (.parked _) => .more batch room (.parked .notified)
  | point => point

end FifoPoint

/-- A `FIFOScheduler` over an unbounded `asyncio.Queue`, with `n` consumers. `running` is the consumer in the
    middle of its loop. -/
structure FifoState (n : Nat) where
  ticks : Nat := 0
  queue : List ScheduledRequest := []
  running : Option (Fin n) := none
  consumers : Fin n → FifoPoint := fun _ => .idle
  returned : List Dispatched := []

inductive FifoAction (n : Nat) where
  | submit (item : ScheduledRequest) (wakes : Option (Fin n))
  | call (i : Fin n) (call : Call)
  | wake (i : Fin n) (wakes : Option (Fin n))
  | expire (i : Fin n)
  | startGet (i : Fin n)
  | resume (i : Fin n)
  | collect (i : Fin n)
  deriving DecidableEq, Repr

def FifoAction.submits? {n : Nat} : FifoAction n → Option ScheduledRequest
  | .submit item _ => some item
  | _ => none

namespace FifoState

variable {n : Nat} (version : PythonVersion) (clock : Clock) (st : FifoState n)

def size : Nat := st.queue.length

def setPoint (i : Fin n) (point : FifoPoint) : FifoState n :=
  { st with consumers := Function.update st.consumers i point }

def CanNotify (wakes : Option (Fin n)) : Prop :=
  match wakes with
  | some i => (st.consumers i).unnotified = true
  | none => ∀ i, (st.consumers i).unnotified = false

instance (wakes : Option (Fin n)) : Decidable (st.CanNotify wakes) :=
  match wakes with
  | some _ => inferInstanceAs (Decidable (_ = _))
  | none => inferInstanceAs (Decidable (∀ _, _))

def wakeupNext (wakes : Option (Fin n)) : Option (FifoState n) :=
  if st.CanNotify wakes then
    some (match wakes with
      | some i => st.setPoint i (st.consumers i).notify
      | none => st)
  else none

/-- `put` on an unbounded queue does not suspend. -/
def submit (item : ScheduledRequest) (wakes : Option (Fin n)) : Option (FifoState n) :=
  let item := { item with request := item.request.markEnqueued (clock.reading st.ticks) }
  { st with ticks := st.ticks + 1, queue := st.queue ++ [item] }.wakeupNext wakes

def finish (i : Fin n) (batch : PartialBatch) : FifoState n :=
  let items := markStartedAll clock st.ticks batch.items
  let ticks := st.ticks + batch.items.length
  { st with
    running := none
    ticks := ticks + 1
    returned := st.returned ++
      [Dispatched.batch batch.maxBatchSize { items, createdAt := clock.reading ticks }] }.setPoint i .idle

/-- The first `get` of a call, from the test of its loop. -/
def takeFirst (i : Fin n) (call : Call) : FifoState n :=
  match st.queue with
  | [] => st.setPoint i (.first call false)
  | item :: queue =>
    match call with
    | .request =>
      let request := item.request.markStarted (clock.reading st.ticks)
      { st with
        ticks := st.ticks + 1
        queue
        returned := st.returned ++ [Dispatched.request { item with request }] }.setPoint i .idle
    | .batch maxBatchSize batchTimeoutMs =>
      { st with
        ticks := st.ticks + 1
        queue
        running := some i }.setPoint i (.collecting {
          maxBatchSize
          batchTimeoutMs
          items := [item]
          deadline := clock.reading st.ticks + batchTimeoutMs / 1000
          sized := by simp })

section More

variable (i : Fin n) (batch : PartialBatch) (room : (batch.items.length : Int) < batch.maxBatchSize)

/-- `wait_for` returns an item, and the loop goes on. -/
def extend (item : ScheduledRequest) : FifoState n :=
  { st with running := some i }.setPoint i (.collecting (batch.push item room))

/-- A later `get` of a call, from the test of its loop. -/
def takeMore : FifoState n :=
  match st.queue with
  | [] => st.setPoint i (.more batch room (.parked .waiting))
  | item :: queue =>
    match version with
    | .py311 => { st with queue }.setPoint i (.more batch room (.handedBack (some item)))
    | .py312 => { st with queue }.extend i batch room item

/-- The cancelled `get` ends. It hands a wakeup it cannot use on to another getter. -/
def abandon (notifiedBefore : Bool) (wakes : Option (Fin n)) : Option (FifoState n) :=
  let ended := match version with
    | .py311 => st.setPoint i (.more batch room (.handedBack none))
    | .py312 => st.finish clock i batch
  if notifiedBefore && !st.queue.isEmpty then ended.wakeupNext wakes else some ended

end More

def call (i : Fin n) (call : Call) : Option (FifoState n) :=
  match st.consumers i with
  | .idle => some (st.takeFirst clock i call)
  | _ => none

def wake (i : Fin n) (wakes : Option (Fin n)) : Option (FifoState n) :=
  match st.consumers i with
  | .first call true => some (st.takeFirst clock i call)
  | .more batch room (.parked .notified) => some (st.takeMore version i batch room)
  | .more batch room (.parked (.cancelled notifiedBefore)) =>
    st.abandon version clock i batch room notifiedBefore wakes
  | _ => none

/-- The timer of a `wait_for` cancels what it waits for. -/
def expire (i : Fin n) : Option (FifoState n) :=
  match st.consumers i with
  | .more batch room (.parked .waiting) => some (st.setPoint i (.more batch room (.parked (.cancelled false))))
  | .more batch room (.parked .notified) => some (st.setPoint i (.more batch room (.parked (.cancelled true))))
  | _ => none

def startGet (i : Fin n) : Option (FifoState n) :=
  match st.consumers i with
  | .more batch room .spawned => some (st.takeMore version i batch room)
  | _ => none

/-- The caller of a `wait_for` runs again after the task it waited for is done. -/
def resume (i : Fin n) : Option (FifoState n) :=
  match st.consumers i with
  | .more batch room (.handedBack (some item)) => some (st.extend i batch room item)
  | .more batch _ (.handedBack none) => some (st.finish clock i batch)
  | _ => none

/-- The `wait_for` in the loop of `next_batch`. -/
def waitForMore (i : Fin n) (batch : PartialBatch) (room : (batch.items.length : Int) < batch.maxBatchSize) :
    FifoState n :=
  match version with
  | .py311 => { st with running := none }.setPoint i (.more batch room .spawned)
  | .py312 => { st with running := none }.takeMore version i batch room

/-- One pass of the loop of `next_batch`. -/
def collect (i : Fin n) : Option (FifoState n) :=
  match st.consumers i with
  | .collecting batch =>
    if room : batch.items.length < batch.maxBatchSize then
      if batch.batchTimeoutMs = 0 then
        match st.queue with
        | [] => some (st.finish clock i batch)
        | item :: queue => some ({ st with queue }.extend i batch room item)
      else
        let remainingS := batch.deadline - clock.reading st.ticks
        let st := { st with ticks := st.ticks + 1 }
        if remainingS ≤ 0 then some (st.finish clock i batch) else some (st.waitForMore version i batch room)
    else some (st.finish clock i batch)
  | _ => none

/-- One step of the event loop, while every task is suspended. -/
def eventStep : FifoAction n → Option (FifoState n)
  | .submit item wakes => st.submit clock item wakes
  | .call i call => st.call clock i call
  | .wake i wakes => st.wake version clock i wakes
  | .expire i => st.expire i
  | .startGet i => st.startGet version i
  | .resume i => st.resume clock i
  | .collect _ => none

/-- One step of the event loop, or one pass of the loop of the consumer that runs. -/
def step (action : FifoAction n) : Option (FifoState n) :=
  match st.running with
  | none => st.eventStep version clock action
  | some i => if action = .collect i then st.collect version clock i else none

variable {version clock st} {t : FifoState n} {i : Fin n}

theorem step_cases {action : FifoAction n} (taken : st.step version clock action = some t) :
    (st.running = none ∧ st.eventStep version clock action = some t) ∨
    ∃ i, st.running = some i ∧ action = .collect i ∧ st.collect version clock i = some t := by
  unfold step at taken
  split at taken
  · next suspended => exact .inl ⟨suspended, taken⟩
  · next i running =>
    split at taken
    · next own => exact .inr ⟨i, running, own, taken⟩
    · cases taken

theorem wakeupNext_queue {wakes : Option (Fin n)} (taken : st.wakeupNext wakes = some t) : t.queue = st.queue := by
  unfold wakeupNext at taken
  split at taken
  · cases taken
    cases wakes <;> rfl
  · cases taken

theorem submit_queue {item : ScheduledRequest} {wakes : Option (Fin n)}
    (taken : st.submit clock item wakes = some t) :
    t.queue = st.queue ++ [{ item with request := item.request.markEnqueued (clock.reading st.ticks) }] :=
  wakeupNext_queue taken

theorem takeFirst_queue (call : Call) : (st.takeFirst clock i call).queue <:+ st.queue := by
  unfold takeFirst
  split
  · exact List.suffix_refl _
  · next item queue queued =>
    rw [queued]
    cases call <;> exact List.suffix_cons _ _

section More

variable {batch : PartialBatch} {room : (batch.items.length : Int) < batch.maxBatchSize}

theorem takeMore_queue : (st.takeMore version i batch room).queue <:+ st.queue := by
  unfold takeMore
  split
  · exact List.suffix_refl _
  · next item queue queued =>
    rw [queued]
    cases version <;> exact List.suffix_cons _ _

theorem abandon_queue {notifiedBefore : Bool} {wakes : Option (Fin n)}
    (taken : st.abandon version clock i batch room notifiedBefore wakes = some t) : t.queue = st.queue := by
  unfold abandon at taken
  dsimp only at taken
  split at taken
  · rw [wakeupNext_queue taken]
    cases version <;> rfl
  · cases taken
    cases version <;> rfl

theorem waitForMore_queue : (st.waitForMore version i batch room).queue <:+ st.queue := by
  unfold waitForMore
  cases version with
  | py311 => exact List.suffix_refl _
  | py312 =>
    have taken : ({ st with running := none }.takeMore .py312 i batch room).queue <:+ st.queue := takeMore_queue
    exact taken

end More

theorem call_queue {call : Call} (taken : st.call clock i call = some t) : t.queue <:+ st.queue := by
  unfold FifoState.call at taken
  split at taken
  · cases taken
    exact takeFirst_queue call
  · cases taken

theorem wake_queue {wakes : Option (Fin n)} (taken : st.wake version clock i wakes = some t) :
    t.queue <:+ st.queue := by
  unfold wake at taken
  split at taken
  · cases taken
    exact takeFirst_queue _
  · cases taken
    exact takeMore_queue
  · exact abandon_queue taken ▸ List.suffix_refl _
  · cases taken

theorem expire_queue (taken : st.expire i = some t) : t.queue = st.queue := by
  unfold expire at taken
  split at taken <;> cases taken <;> rfl

theorem startGet_queue (taken : st.startGet version i = some t) : t.queue <:+ st.queue := by
  unfold startGet at taken
  split at taken
  · cases taken
    exact takeMore_queue
  · cases taken

theorem resume_queue (taken : st.resume clock i = some t) : t.queue = st.queue := by
  unfold resume at taken
  split at taken <;> cases taken <;> rfl

theorem collect_queue (taken : st.collect version clock i = some t) : t.queue <:+ st.queue := by
  unfold collect at taken
  split at taken
  · next batch collecting =>
    split at taken
    · next room =>
      split at taken
      · split at taken
        · cases taken
          exact List.suffix_refl _
        · next item queue queued =>
          cases taken
          rw [queued]
          exact List.suffix_cons _ _
      · dsimp only at taken
        split at taken
        · cases taken
          exact List.suffix_refl _
        · cases taken
          have waits : ({ st with ticks := st.ticks + 1 }.waitForMore version i batch room).queue <:+ st.queue :=
            waitForMore_queue
          exact waits
    · cases taken
      exact List.suffix_refl _
  · cases taken

/-- `submit` appends its item in the same step; every other step only takes items off the front. -/
theorem step_queue {action : FifoAction n} (taken : st.step version clock action = some t) :
    (∃ item, action.submits? = some item ∧ t.queue =
      st.queue ++ [{ item with request := item.request.markEnqueued (clock.reading st.ticks) }]) ∨
    (action.submits? = none ∧ t.queue <:+ st.queue) := by
  rcases step_cases taken with ⟨-, moved⟩ | ⟨i, -, rfl, moved⟩
  · cases action with
    | submit item wakes => exact .inl ⟨item, rfl, submit_queue moved⟩
    | call i call => exact .inr ⟨rfl, call_queue moved⟩
    | wake i wakes => exact .inr ⟨rfl, wake_queue moved⟩
    | expire i => exact .inr ⟨rfl, expire_queue moved ▸ List.suffix_refl _⟩
    | startGet i => exact .inr ⟨rfl, startGet_queue moved⟩
    | resume i => exact .inr ⟨rfl, resume_queue moved ▸ List.suffix_refl _⟩
    | collect i => cases moved
  · exact .inr ⟨rfl, collect_queue moved⟩

end FifoState

end LLMRuntime
