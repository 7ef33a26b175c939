import LLMRuntime.Foundation.Transition
import LLMRuntime.Scheduler.Batching
import LLMRuntime.Scheduler.Priority

namespace LLMRuntime

inductive Mark where
  | waiting
  | notified
  | cancelled
  deriving DecidableEq, Repr

inductive FirstPoint where
  | entering
  | parked (notified : Bool)
  | reacquiring
  deriving DecidableEq, Repr

/-- Where the `wait_for` of a call with a partial batch is suspended. In `spawned` and `handedBack`, which
    only a task of its own goes through, the lock is held while the caller is suspended. A `spawned` task is
    ready, and runs before the timer can. -/
inductive MorePoint where
  | spawned
  | parked (mark : Mark)
  | reacquiring (expired : Bool)
  | handedBack (expired : Bool)
  deriving DecidableEq, Repr

inductive ConsumerPoint where
  | idle
  | first (call : Call) (point : FirstPoint)
  | collecting (batch : PartialBatch)
  | more (batch : PartialBatch) (point : MorePoint)
  deriving DecidableEq, Repr

namespace ConsumerPoint

def held : ConsumerPoint → List ScheduledRequest
  | .collecting batch => batch.items
  | .more batch _ => batch.items
  | _ => []

/-- Parked in `condition.wait()` and neither notified nor cancelled. -/
def unnotified : ConsumerPoint → Bool
  | .first _ (.parked notified) => !notified
  | .more _ (.parked mark) => mark == .waiting
  | _ => false

def notify : ConsumerPoint → ConsumerPoint
  | .first call (.parked _) => .first call (.parked true)
  | .more batch (.parked _) => .more batch (.parked .notified)
  | point => point

@[simp] theorem held_notify (p : ConsumerPoint) : p.notify.held = p.held := by
  unfold notify
  split <;> rfl

end ConsumerPoint

/-- A task in the queue of the condition's lock. -/
inductive LockWaiter (n : Nat) where
  | submitter (item : ScheduledRequest)
  | consumer (i : Fin n)
  deriving DecidableEq, Repr

def LockWaiter.item? {n : Nat} : LockWaiter n → Option ScheduledRequest
  | .submitter item => some item
  | .consumer _ => none

/-- A scheduler, its condition and `n` consumers. `running` is the consumer in the middle of its loop:
    nobody else moves until it suspends. `submitted` and `returned` are history variables. -/
structure PriorityState (n : Nat) where
  ticks : Nat := 0
  items : List QueuedRequest := []
  counter : Nat := 0
  locked : Bool := false
  lockWaiters : List (LockWaiter n) := []
  running : Option (Fin n) := none
  consumers : Fin n → ConsumerPoint := fun _ => .idle
  submitted : List ScheduledRequest := []
  returned : List Dispatched := []

inductive SchedulerAction (n : Nat) where
  | submit (item : ScheduledRequest) (wakes : Option (Fin n))
  | call (i : Fin n) (call : Call)
  | grant (wakes : Option (Fin n))
  | wake (i : Fin n)
  | expire (i : Fin n)
  | startWait (i : Fin n)
  | resume (i : Fin n)
  | collect (i : Fin n)
  deriving DecidableEq, Repr

def SchedulerAction.submits? {n : Nat} : SchedulerAction n → Option ScheduledRequest
  | .submit item _ => some item
  | _ => none

namespace PriorityState

variable {n : Nat} (cfg : SchedulerConfig) (st : PriorityState n)

def size : Nat := st.items.length

/-- `Lock.acquire` suspends unless the lock is free and nobody waits for it. -/
def lockFree : Bool := !st.locked && st.lockWaiters.isEmpty

def setPoint (i : Fin n) (point : ConsumerPoint) : PriorityState n :=
  { st with consumers := Function.update st.consumers i point }

def queueFor (i : Fin n) (point : ConsumerPoint) : PriorityState n :=
  { st with lockWaiters := st.lockWaiters ++ [LockWaiter.consumer i] }.setPoint i point

/-- `notify` may mark any parked waiter, and marks none only if there is none. -/
def CanNotify (wakes : Option (Fin n)) : Prop :=
  match wakes with
  | some i => (st.consumers i).unnotified = true
  | none => ∀ i, (st.consumers i).unnotified = false

instance (wakes : Option (Fin n)) : Decidable (st.CanNotify wakes) :=
  match wakes with
  | some _ => inferInstanceAs (Decidable (_ = _))
  | none => inferInstanceAs (Decidable (∀ _, _))

def notify (wakes : Option (Fin n)) : PriorityState n :=
  match wakes with
  | some i => st.setPoint i (st.consumers i).notify
  | none => st

def append (item : ScheduledRequest) (wakes : Option (Fin n)) : Option (PriorityState n) :=
  if st.CanNotify wakes then
    let sequence := st.counter + 1
    let queued : QueuedRequest :=
      { priority := item.request.priority, sequence, queuedAt := cfg.timeFn.reading st.ticks, item }
    some ({ st with
      ticks := st.ticks + 1
      counter := sequence
      items := st.items ++ [queued]
      submitted := st.submitted ++ [item] }.notify wakes)
  else none

def submit (item : ScheduledRequest) (wakes : Option (Fin n)) : Option (PriorityState n) :=
  let item := { item with request := item.request.markEnqueued (cfg.perfCounter.reading st.ticks) }
  let st := { st with ticks := st.ticks + 1 }
  if st.lockFree then st.append cfg item wakes
  else some { st with lockWaiters := st.lockWaiters ++ [.submitter item] }

/-- The call leaves the `async with` block, stamps its items and returns the batch. -/
def finish (i : Fin n) (batch : PartialBatch) : PriorityState n :=
  let items := markStartedAll cfg.perfCounter st.ticks batch.items
  let ticks := st.ticks + batch.items.length
  { st with
    locked := false
    running := none
    ticks := ticks + 1
    returned := st.returned ++
      [Dispatched.batch batch.maxBatchSize { items, createdAt := cfg.perfCounter.reading ticks }] }.setPoint i .idle

/-- `_pop_next_when_available` from the test of its loop, with the lock just acquired. -/
def takeFirst (i : Fin n) (call : Call) : PriorityState n :=
  match popNextLocked cfg.agingBoostIntervalS (cfg.timeFn.reading st.ticks) st.items with
  | none => { st with locked := false }.setPoint i (.first call (.parked false))
  | some (queued, items) =>
    match call with
    | .request =>
      let request := queued.item.request.markStarted (cfg.perfCounter.reading (st.ticks + 1))
      { st with
        locked := false
        ticks := st.ticks + 2
        items
        returned := st.returned ++ [Dispatched.request { queued.item with request }] }.setPoint i .idle
    | .batch maxBatchSize batchTimeoutMs =>
      { st with
        locked := true
        running := some i
        ticks := st.ticks + 2
        items }.setPoint i (.collecting {
          maxBatchSize
          batchTimeoutMs
          items := [queued.item]
          deadline := cfg.timeFn.reading (st.ticks + 1) + batchTimeoutMs / 1000
          sized := by simp })

/-- `wait_for` returns or raises `TimeoutError`, with the lock held. -/
def continueBatch (i : Fin n) (batch : PartialBatch) (expired : Bool) : PriorityState n :=
  if expired then st.finish cfg i batch
  else { st with locked := true, running := some i }.setPoint i (.collecting batch)

/-- `wait` has the lock again: its caller goes on, at once or when the task that ran `wait` is done. -/
def rejoin (i : Fin n) (batch : PartialBatch) (expired : Bool) : PriorityState n :=
  match cfg.version with
  | .py311 => { st with locked := true }.setPoint i (.more batch (.handedBack expired))
  | .py312 => st.continueBatch cfg i batch expired

def acquired (i : Fin n) : Option (PriorityState n) :=
  match st.consumers i with
  | .first call .entering => some (st.takeFirst cfg i call)
  | .first call .reacquiring => some (st.takeFirst cfg i call)
  | .more batch (.reacquiring expired) => some (st.rejoin cfg i batch expired)
  | _ => none

def call (i : Fin n) (call : Call) : Option (PriorityState n) :=
  match st.consumers i with
  | .idle =>
    if st.lockFree then some (st.takeFirst cfg i call) else some (st.queueFor i (.first call .entering))
  | _ => none

/-- The first task in the lock's queue runs when the lock is free. -/
def grant (wakes : Option (Fin n)) : Option (PriorityState n) :=
  if st.locked then none
  else
    match st.lockWaiters with
    | [] => none
    | .submitter item :: rest => { st with lockWaiters := rest }.append cfg item wakes
    | .consumer i :: rest => { st with lockWaiters := rest }.acquired cfg i

/-- A parked consumer runs after its future is done, and acquires the lock again. -/
def wake (i : Fin n) : Option (PriorityState n) :=
  match st.consumers i with
  | .first call (.parked true) =>
    if st.lockFree then some (st.takeFirst cfg i call) else some (st.queueFor i (.first call .reacquiring))
  | .more _ (.parked .waiting) => none
  | .more batch (.parked mark) =>
    let expired := mark == .cancelled
    if st.lockFree then some (st.rejoin cfg i batch expired)
    else some (st.queueFor i (.more batch (.reacquiring expired)))
  | _ => none

/-- The timer of a `wait_for` cancels what it waits for; an interrupted `acquire` queues up again. -/
def expire (i : Fin n) : Option (PriorityState n) :=
  match st.consumers i with
  | .more _ (.parked .cancelled) => none
  | .more batch (.parked _) => some (st.setPoint i (.more batch (.parked .cancelled)))
  | .more batch (.reacquiring false) =>
    some ({ st with lockWaiters := st.lockWaiters.erase (LockWaiter.consumer i) }.queueFor i
      (.more batch (.reacquiring true)))
  | _ => none

/-- The task of a `wait_for` starts: `condition.wait()` releases the lock and parks. -/
def startWait (i : Fin n) : Option (PriorityState n) :=
  match st.consumers i with
  | .more batch .spawned =>
    some ({ st with locked := false }.setPoint i (.more batch (.parked .waiting)))
  | _ => none

/-- The caller of a `wait_for` runs again after the task it waited for is done. -/
def resume (i : Fin n) : Option (PriorityState n) :=
  match st.consumers i with
  | .more batch (.handedBack expired) => some (st.continueBatch cfg i batch expired)
  | _ => none

/-- The wait at the end of the loop body of `next_batch`. -/
def waitForMore (i : Fin n) (batch : PartialBatch) : PriorityState n :=
  match cfg.version with
  | .py311 => { st with running := none }.setPoint i (.more batch .spawned)
  | .py312 => { st with running := none, locked := false }.setPoint i (.more batch (.parked .waiting))

/-- One pass of the loop of `next_batch`. -/
def collect (i : Fin n) : Option (PriorityState n) :=
  match st.consumers i with
  | .collecting batch =>
    if room : batch.items.length < batch.maxBatchSize then
      match popNextLocked cfg.agingBoostIntervalS (cfg.timeFn.reading st.ticks) st.items with
      | some (queued, items) =>
        some ({ st with ticks := st.ticks + 1, items }.setPoint i
          (.collecting (batch.push queued.item room)))
      | none =>
        if batch.batchTimeoutMs = 0 then some (st.finish cfg i batch)
        else
          let remainingS := batch.deadline - cfg.timeFn.reading st.ticks
          let st := { st with ticks := st.ticks + 1 }
          if remainingS ≤ 0 then some (st.finish cfg i batch) else some (st.waitForMore cfg i batch)
    else some (st.finish cfg i batch)
  | _ => none

/-- One step of the event loop, while every task is suspended. -/
def eventStep : SchedulerAction n → Option (PriorityState n)
  | .submit item wakes => st.submit cfg item wakes
  | .call i call => st.call cfg i call
  | .grant wakes => st.grant cfg wakes
  | .wake i => st.wake cfg i
  | .expire i => st.expire i
  | .startWait i => st.startWait i
  | .resume i => st.resume cfg i
  | .collect _ => none

/-- One step of the event loop, or one pass of the loop of the consumer that runs. -/
def step (action : SchedulerAction n) : Option (PriorityState n) :=
  match st.running with
  | none => st.eventStep cfg action
  | some i => if action = .collect i then st.collect cfg i else none

variable {cfg st} {t : PriorityState n} {action : SchedulerAction n}

theorem step_cases (taken : st.step cfg action = some t) :
    (st.running = none ∧ st.eventStep cfg action = some t) ∨
    ∃ i, st.running = some i ∧ action = .collect i ∧ st.collect cfg i = some t := by
  unfold step at taken
  split at taken
  · next suspended => exact .inl ⟨suspended, taken⟩
  · next i running =>
    split at taken
    · next own => exact .inr ⟨i, running, own, taken⟩
    · cases taken

end PriorityState

end LLMRuntime
