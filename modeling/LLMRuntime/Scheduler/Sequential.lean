import LLMRuntime.Foundation.BatchQueue
import LLMRuntime.Scheduler.Conservation
import LLMRuntime.Scheduler.Fifo

namespace LLMRuntime

open Transition ScheduledRequest

/-- One call of the scheduler's interface, awaited before the next one is made. -/
inductive Operation where
  | submit (item : ScheduledRequest)
  | nextRequest
  | nextBatch (maxBatchSize : Int)
  deriving DecidableEq, Repr

/-- What an operation is to do: `next_batch` takes what waits, up to its limit. -/
def Operation.on (queue : BatchQueue ScheduledRequest) : Operation → Option (BatchQueue ScheduledRequest)
  | .submit item => some (queue.put item.unstamped)
  | .nextRequest => queue.take 1
  | .nextBatch maxBatchSize => queue.take maxBatchSize.toNat

def takenBy (returned : List Dispatched) : List (List ScheduledRequest) :=
  returned.map fun dispatched => dispatched.items.map unstamped

theorem takenBy_append (returned more : List Dispatched) :
    takenBy (returned ++ more) = takenBy returned ++ takenBy more := List.map_append

namespace FifoState

variable (version : PythonVersion) (clock : Clock) (st : FifoState 1)

/-- One consumer, one call at a time; `none` when a dequeuing call would have to wait. -/
def perform : Operation → Option (FifoState 1)
  | .submit item => st.step version clock (.submit item none)
  | .nextRequest => if st.queue.isEmpty then none else st.step version clock (.call 0 .request)
  | .nextBatch maxBatchSize =>
    if st.queue.isEmpty then none
    else (st.step version clock (.call 0 (.batch maxBatchSize 0))).bind
      (runWhile (step version clock) (·.running.isSome) (.collect 0) st.size)

def report : Nat × List (List ScheduledRequest) := (st.size, takenBy st.returned)

/-- Between two calls the scheduler holds what the queue holds, and has returned what was taken. -/
structure Serves (queue : BatchQueue ScheduledRequest) : Prop where
  running : st.running = none
  idle : st.consumers 0 = .idle
  waiting : st.queue.map unstamped = queue.waiting
  taken : takenBy st.returned = queue.taken

variable {version clock st} {t : FifoState 1} {queue after : BatchQueue ScheduledRequest}

theorem Serves.report_eq (serves : st.Serves queue) : queue.report = st.report := by
  simp only [BatchQueue.report, report, size, ← serves.waiting, ← serves.taken, List.length_map]

theorem finish_taken (batch : PartialBatch) :
    takenBy (st.finish clock 0 batch).returned = takenBy st.returned ++ [batch.items.map unstamped] := by
  simp only [finish, setPoint, takenBy, List.map_append, List.map_cons, List.map_nil, Dispatched.items,
    PriorityState.markStartedAll_unstamped]

/-- In the loop of a `next_batch` without a timeout. -/
structure Filling (maxBatchSize : Int) (returned : List (List ScheduledRequest)) (st : FifoState 1)
    (waiting batch : List ScheduledRequest) : Prop where
  running : st.running = some 0
  collecting : ∃ b, st.consumers 0 = .collecting b ∧ b.maxBatchSize = maxBatchSize ∧ b.batchTimeoutMs = 0 ∧
    b.items.map unstamped = batch
  queue : st.queue.map unstamped = waiting
  taken : takenBy st.returned = returned

variable {maxBatchSize : Int} {returned : List (List ScheduledRequest)} {waiting batch : List ScheduledRequest}

theorem Filling.busy (filling : Filling maxBatchSize returned st waiting batch) : st.running.isSome = true := by
  rw [filling.running]
  rfl

theorem Serves.suspended (serves : st.Serves queue) : st.running.isSome = false := by
  rw [serves.running]
  rfl

theorem Filling.push {item : ScheduledRequest} (filling : Filling maxBatchSize returned st (item :: waiting) batch)
    (room : batch.length < maxBatchSize.toNat) :
    ∃ t, st.step version clock (.collect 0) = some t ∧
      Filling maxBatchSize returned t waiting (batch ++ [item]) := by
  obtain ⟨running, ⟨b, collecting, rfl, untimed, rfl⟩, queue, taken⟩ := filling
  obtain ⟨first, rest, queued, rfl, rfl⟩ := List.map_eq_cons_iff.mp queue
  have room : (b.items.length : Int) < b.maxBatchSize := by
    rw [List.length_map] at room
    omega
  refine ⟨{ st with queue := rest }.extend 0 b room first, ?_, rfl, ⟨b.push first room, ?_, rfl, untimed, ?_⟩,
    rfl, taken⟩
  · simp [step, running, collect, collecting, room, untimed, queued]
  · simp [extend, setPoint]
  · simp [PartialBatch.push]

theorem Filling.stop (filling : Filling maxBatchSize returned st waiting batch)
    (ended : waiting = [] ∨ maxBatchSize.toNat ≤ batch.length) :
    ∃ t, st.step version clock (.collect 0) = some t ∧ t.Serves ⟨waiting, returned ++ [batch]⟩ := by
  obtain ⟨running, ⟨b, collecting, rfl, untimed, rfl⟩, rfl, rfl⟩ := filling
  refine ⟨st.finish clock 0 b, ?_, rfl, by simp [finish, setPoint], rfl, finish_taken b⟩
  simp only [step, running, if_true, collect, collecting]
  by_cases room : (b.items.length : Int) < b.maxBatchSize
  · have empty : st.queue = [] := by
      rcases ended with nothing | full
      · exact List.map_eq_nil_iff.mp nothing
      · rw [List.length_map] at full
        omega
    simp [room, untimed, empty]
  · simp [room]

theorem step_call (running : st.running = none) (idle : st.consumers 0 = .idle) (call : Call) :
    st.step version clock (.call 0 call) = some (st.takeFirst clock 0 call) := by
  rw [step, running]
  simp only [eventStep, FifoState.call, idle]

theorem Serves.perform {op : Operation} (serves : st.Serves queue) (allowed : op.on queue = some after) :
    ∃ t, st.perform version clock op = some t ∧ t.Serves after := by
  obtain ⟨running, idle, waiting, taken⟩ := serves
  cases op with
  | submit item =>
    cases allowed
    have quiet : st.CanNotify none := fun i => by
      rw [Subsingleton.elim i 0, idle]
      rfl
    refine ⟨{ st with ticks := st.ticks + 1, queue := st.queue ++ [{ item with
      request := item.request.markEnqueued (clock.reading st.ticks) }] }, ?_, running, idle, ?_, taken⟩
    · simp only [FifoState.perform, step, running, eventStep, submit, wakeupNext]
      exact if_pos quiet
    · simp only [BatchQueue.put, ← waiting, List.map_append]
      rfl
  | nextRequest =>
    obtain ⟨a, rest, headed, left, batch⟩ := BatchQueue.take_cases allowed
    rw [headed] at waiting
    obtain ⟨first, others, queued, rfl, rfl⟩ := List.map_eq_cons_iff.mp waiting
    refine ⟨st.takeFirst clock 0 .request, ?_, ?_, ?_, ?_, ?_⟩
    · simp only [FifoState.perform, queued, List.isEmpty_cons, Bool.false_eq_true, if_false]
      exact step_call running idle .request
    · simpa [takeFirst, queued, setPoint] using running
    · simp [takeFirst, queued, setPoint]
    · simp [takeFirst, queued, setPoint, left]
    · simp only [takeFirst, queued, setPoint, takenBy_append, taken, batch]
      rfl
  | nextBatch maxBatchSize =>
    obtain ⟨a, rest, headed, left, batch⟩ := BatchQueue.take_cases allowed
    rw [headed] at waiting
    obtain ⟨first, others, queued, rfl, rfl⟩ := List.map_eq_cons_iff.mp waiting
    have start : Filling maxBatchSize queue.taken (st.takeFirst clock 0 (.batch maxBatchSize 0))
        (others.map unstamped) [first.unstamped] := by
      refine ⟨?_, ?_, ?_, ?_⟩ <;> simp [takeFirst, queued, setPoint, taken]
    obtain ⟨t, filled, serves⟩ := BatchQueue.runWhile_fill (Filling maxBatchSize queue.taken)
      (fun st waiting batch => st.Serves ⟨waiting, queue.taken ++ [batch]⟩)
      (fun _ _ _ filling => filling.busy) (fun _ _ _ serves => serves.suspended)
      (fun _ _ _ _ filling room => filling.push room)
      (fun _ _ _ filling ended => filling.stop ended)
      start (show (others.map unstamped).length < st.size by simp [size, queued])
    refine ⟨t, ?_, ?_⟩
    · simp only [FifoState.perform, queued, List.isEmpty_cons, Bool.false_eq_true, if_false]
      rw [step_call running idle, Option.bind_some]
      exact filled
    · have same : after = ⟨(others.map unstamped).drop (maxBatchSize.toNat - 1),
          queue.taken ++ [first.unstamped :: (others.map unstamped).take (maxBatchSize.toNat - 1)]⟩ := by
        rw [← left, ← batch]
      rw [same]
      exact serves

end FifoState

namespace PriorityState

variable (cfg : SchedulerConfig) (st : PriorityState 1)

/-- One consumer, one call at a time; `none` when a dequeuing call would have to wait. -/
def perform : Operation → Option (PriorityState 1)
  | .submit item => st.step cfg (.submit item none)
  | .nextRequest => if st.items.isEmpty then none else st.step cfg (.call 0 .request)
  | .nextBatch maxBatchSize =>
    if st.items.isEmpty then none
    else (st.step cfg (.call 0 (.batch maxBatchSize 0))).bind
      (runWhile (step cfg) (·.running.isSome) (.collect 0) st.size)

def report : Nat × List (List ScheduledRequest) := (st.size, takenBy st.returned)

/-- The list is in order of arrival, and no priority stands out. -/
structure Uniform (priority : Int) : Prop where
  level : ∀ queued ∈ st.items, queued.priority = priority
  ordered : st.items.Pairwise fun earlier later =>
    earlier.queuedAt ≤ later.queuedAt ∧ earlier.sequence < later.sequence
  past : ∀ queued ∈ st.items,
    queued.queuedAt ≤ cfg.timeFn.reading st.ticks ∧ queued.sequence ≤ st.counter

structure Serves (priority : Int) (queue : BatchQueue ScheduledRequest) : Prop where
  running : st.running = none
  idle : st.consumers 0 = .idle
  free : st.lockFree = true
  uniform : st.Uniform cfg priority
  waiting : (st.items.map QueuedRequest.item).map unstamped = queue.waiting
  taken : takenBy st.returned = queue.taken

variable {cfg st} {t : PriorityState 1} {queue after : BatchQueue ScheduledRequest} {priority : Int}

theorem Serves.report_eq (serves : st.Serves cfg priority queue) : queue.report = st.report := by
  simp only [BatchQueue.report, report, size, ← serves.waiting, ← serves.taken, List.length_map]

theorem Serves.suspended (serves : st.Serves cfg priority queue) : st.running.isSome = false := by
  rw [serves.running]
  rfl

/-- Among uniform requests the one that waits longest goes first, whatever the clock shows. -/
theorem Uniform.popNextLocked {first : QueuedRequest} {rest : List QueuedRequest}
    (uniform : st.Uniform cfg priority) (queued : st.items = first :: rest) (now : ℚ) :
    LLMRuntime.popNextLocked cfg.agingBoostIntervalS now st.items = some (first, rest) := by
  have ordered := uniform.ordered
  rw [queued] at ordered ⊢
  refine popNextLocked_head fun other member => ?_
  obtain ⟨order, earlier⟩ := List.rel_of_pairwise_cons ordered member
  have firstLevel := uniform.level first (by simp [queued])
  have otherLevel := uniform.level other (by simp [queued, member])
  exact dequeueKey_mono (firstLevel.trans otherLevel.symm) order earlier

theorem Uniform.tail {first : QueuedRequest} {rest : List QueuedRequest} (uniform : st.Uniform cfg priority)
    (queued : st.items = first :: rest) (items : t.items = rest) (counter : t.counter = st.counter)
    (ticks : st.ticks ≤ t.ticks) : t.Uniform cfg priority where
  level other member := uniform.level other (by rw [items] at member; simp [queued, member])
  ordered := by
    have ordered := uniform.ordered
    rw [queued] at ordered
    rw [items]
    exact ordered.of_cons
  past other member := by
    rw [items] at member
    obtain ⟨time, sequence⟩ := uniform.past other (by simp [queued, member])
    exact ⟨time.trans (cfg.timeFn.monotone ticks), sequence.trans counter.ge⟩

theorem Uniform.append {item : ScheduledRequest} (uniform : st.Uniform cfg priority)
    (level : item.request.priority = priority) (ticks : st.ticks + 1 ≤ t.ticks) (counter : t.counter = st.counter + 1)
    (items : t.items = st.items ++
      [⟨item.request.priority, st.counter + 1, cfg.timeFn.reading (st.ticks + 1), item⟩]) : t.Uniform cfg priority := by
  refine ⟨fun queued member => ?_, ?_, fun queued member => ?_⟩
  · rw [items] at member
    rcases List.mem_append.mp member with old | new
    · exact uniform.level queued old
    · rw [List.mem_singleton.mp new]
      exact level
  · rw [items]
    refine List.pairwise_append.mpr ⟨uniform.ordered, List.pairwise_singleton _ _, fun earlier old later new => ?_⟩
    obtain ⟨time, sequence⟩ := uniform.past earlier old
    rw [List.mem_singleton.mp new]
    exact ⟨time.trans (cfg.timeFn.monotone (Nat.le_succ _)), Nat.lt_succ_of_le sequence⟩
  · rw [items] at member
    rw [counter]
    rcases List.mem_append.mp member with old | new
    · obtain ⟨time, sequence⟩ := uniform.past queued old
      exact ⟨time.trans (cfg.timeFn.monotone (by omega)), by omega⟩
    · rw [List.mem_singleton.mp new]
      exact ⟨cfg.timeFn.monotone ticks, le_rfl⟩

/-- In the loop of a `next_batch` without a timeout, which holds the lock. -/
structure Filling (cfg : SchedulerConfig) (priority maxBatchSize : Int) (returned : List (List ScheduledRequest))
    (st : PriorityState 1) (waiting batch : List ScheduledRequest) : Prop where
  running : st.running = some 0
  waiters : st.lockWaiters = []
  collecting : ∃ b, st.consumers 0 = .collecting b ∧ b.maxBatchSize = maxBatchSize ∧ b.batchTimeoutMs = 0 ∧
    b.items.map unstamped = batch
  uniform : st.Uniform cfg priority
  items : (st.items.map QueuedRequest.item).map unstamped = waiting
  taken : takenBy st.returned = returned

variable {maxBatchSize : Int} {returned : List (List ScheduledRequest)} {waiting batch : List ScheduledRequest}

theorem Filling.busy (filling : Filling cfg priority maxBatchSize returned st waiting batch) :
    st.running.isSome = true := by
  rw [filling.running]
  rfl

theorem Filling.push {item : ScheduledRequest}
    (filling : Filling cfg priority maxBatchSize returned st (item :: waiting) batch)
    (room : batch.length < maxBatchSize.toNat) :
    ∃ t, st.step cfg (.collect 0) = some t ∧
      Filling cfg priority maxBatchSize returned t waiting (batch ++ [item]) := by
  obtain ⟨running, waiters, ⟨b, collecting, rfl, untimed, rfl⟩, uniform, items, taken⟩ := filling
  obtain ⟨item', rest', mapped, rfl, rfl⟩ := List.map_eq_cons_iff.mp items
  obtain ⟨first, rest, queued, rfl, rfl⟩ := List.map_eq_cons_iff.mp mapped
  have room : (b.items.length : Int) < b.maxBatchSize := by
    rw [List.length_map] at room
    omega
  have popped := uniform.popNextLocked queued (cfg.timeFn.reading st.ticks)
  refine ⟨{ st with ticks := st.ticks + 1, items := rest }.setPoint 0 (.collecting (b.push first.item room)), ?_,
    running, waiters, ⟨b.push first.item room, ?_, rfl, untimed, ?_⟩,
    uniform.tail queued rfl rfl (Nat.le_succ _), rfl, taken⟩
  · simp [step, running, collect, collecting, room, popped]
  · simp [setPoint]
  · simp [PartialBatch.push]

theorem finish_taken (b : PartialBatch) :
    takenBy (st.finish cfg 0 b).returned = takenBy st.returned ++ [b.items.map unstamped] := by
  simp only [finish, setPoint, takenBy, List.map_append, List.map_cons, List.map_nil, Dispatched.items,
    markStartedAll_unstamped]

theorem Filling.stop (filling : Filling cfg priority maxBatchSize returned st waiting batch)
    (ended : waiting = [] ∨ maxBatchSize.toNat ≤ batch.length) :
    ∃ t, st.step cfg (.collect 0) = some t ∧ t.Serves cfg priority ⟨waiting, returned ++ [batch]⟩ := by
  obtain ⟨running, waiters, ⟨b, collecting, rfl, untimed, rfl⟩, uniform, rfl, rfl⟩ := filling
  have later : st.ticks ≤ (st.finish cfg 0 b).ticks := by
    simp only [finish, setPoint]
    omega
  refine ⟨st.finish cfg 0 b, ?_, rfl, by simp [finish, setPoint], by simp [lockFree, finish, setPoint, waiters],
    ⟨uniform.level, uniform.ordered, fun queued member => ?_⟩, rfl, finish_taken b⟩
  · simp only [step, running, if_true, collect, collecting]
    by_cases room : (b.items.length : Int) < b.maxBatchSize
    · have empty : st.items = [] := by
        rcases ended with nothing | full
        · exact List.map_eq_nil_iff.mp (List.map_eq_nil_iff.mp nothing)
        · rw [List.length_map] at full
          omega
      have nobody : LLMRuntime.popNextLocked cfg.agingBoostIntervalS (cfg.timeFn.reading st.ticks) st.items = none :=
        popNextLocked_eq_none_iff.mpr empty
      simp [room, untimed, nobody]
    · simp [room]
  · obtain ⟨time, sequence⟩ := uniform.past queued member
    exact ⟨time.trans (cfg.timeFn.monotone later), sequence⟩

theorem step_call (running : st.running = none) (idle : st.consumers 0 = .idle) (free : st.lockFree = true)
    (call : Call) : st.step cfg (.call 0 call) = some (st.takeFirst cfg 0 call) := by
  rw [step, running]
  simp only [eventStep, PriorityState.call, idle, free, if_true]

theorem Serves.perform {op : Operation} (serves : st.Serves cfg priority queue)
    (level : ∀ item, op = .submit item → item.request.priority = priority) (allowed : op.on queue = some after) :
    ∃ t, st.perform cfg op = some t ∧ t.Serves cfg priority after := by
  obtain ⟨running, idle, free, uniform, waiting, taken⟩ := serves
  cases op with
  | submit item =>
    cases allowed
    have quiet : st.CanNotify none := fun i => by
      rw [Subsingleton.elim i 0, idle]
      rfl
    let enqueued : ScheduledRequest := { item with request := item.request.markEnqueued (cfg.perfCounter.reading st.ticks) }
    refine ⟨{ st with
      ticks := st.ticks + 2
      counter := st.counter + 1
      items := st.items ++
        [⟨enqueued.request.priority, st.counter + 1, cfg.timeFn.reading (st.ticks + 1), enqueued⟩]
      submitted := st.submitted ++ [enqueued] }, ?_, running, idle, free,
        uniform.append (show enqueued.request.priority = priority from level item rfl) (Nat.le_succ _) rfl rfl,
        ?_, taken⟩
    · have stepped : st.step cfg (.submit item none) = st.submit cfg item none := by
        rw [step, running]
        rfl
      have submitted : st.submit cfg item none = { st with ticks := st.ticks + 1 }.append cfg enqueued none :=
        if_pos free
      rw [PriorityState.perform, stepped, submitted, append, if_pos]
      · rfl
      · exact quiet
    · simp only [BatchQueue.put, ← waiting, List.map_append]
      rfl
  | nextRequest =>
    obtain ⟨a, others, headed, left, batch⟩ := BatchQueue.take_cases allowed
    rw [headed] at waiting
    obtain ⟨item', rest', mapped, rfl, rfl⟩ := List.map_eq_cons_iff.mp waiting
    obtain ⟨first, rest, queued, rfl, rfl⟩ := List.map_eq_cons_iff.mp mapped
    have popped := uniform.popNextLocked queued (cfg.timeFn.reading st.ticks)
    refine ⟨st.takeFirst cfg 0 .request, ?_, ?_, ?_, ?_, ?_, ?_, ?_⟩
    · simp only [PriorityState.perform, queued, List.isEmpty_cons, Bool.false_eq_true, if_false]
      exact step_call running idle free .request
    · simpa [takeFirst, popped, setPoint] using running
    · simp [takeFirst, popped, setPoint]
    · have waiters : st.lockWaiters = [] := by simpa using (Bool.and_eq_true_iff.mp free).2
      simp [takeFirst, popped, setPoint, lockFree, waiters]
    · exact uniform.tail queued (by simp [takeFirst, popped, setPoint]) (by simp [takeFirst, popped, setPoint])
        (by simp [takeFirst, popped, setPoint])
    · simp [takeFirst, popped, setPoint, left]
    · simp only [takeFirst, popped, setPoint, takenBy_append, taken, batch]
      rfl
  | nextBatch maxBatchSize =>
    obtain ⟨a, others, headed, left, batch⟩ := BatchQueue.take_cases allowed
    rw [headed] at waiting
    obtain ⟨item', rest', mapped, rfl, rfl⟩ := List.map_eq_cons_iff.mp waiting
    obtain ⟨first, rest, queued, rfl, rfl⟩ := List.map_eq_cons_iff.mp mapped
    have popped := uniform.popNextLocked queued (cfg.timeFn.reading st.ticks)
    have start : Filling cfg priority maxBatchSize queue.taken (st.takeFirst cfg 0 (.batch maxBatchSize 0))
        ((rest.map QueuedRequest.item).map unstamped) [first.item.unstamped] := by
      refine ⟨?_, ?_, ?_, uniform.tail queued ?_ ?_ ?_, ?_, ?_⟩
      all_goals simp_all [takeFirst, setPoint, lockFree]
    obtain ⟨t, filled, serves⟩ := BatchQueue.runWhile_fill (Filling cfg priority maxBatchSize queue.taken)
      (fun st waiting batch => st.Serves cfg priority ⟨waiting, queue.taken ++ [batch]⟩)
      (fun _ _ _ filling => filling.busy) (fun _ _ _ serves => serves.suspended)
      (fun _ _ _ _ filling room => filling.push room)
      (fun _ _ _ filling ended => filling.stop ended)
      start (show ((rest.map QueuedRequest.item).map unstamped).length < st.size by simp [size, queued])
    refine ⟨t, ?_, ?_⟩
    · simp only [PriorityState.perform, queued, List.isEmpty_cons, Bool.false_eq_true, if_false]
      rw [step_call running idle free, Option.bind_some]
      exact filled
    · have same : after = ⟨((rest.map QueuedRequest.item).map unstamped).drop (maxBatchSize.toNat - 1),
          queue.taken ++ [first.item.unstamped ::
            ((rest.map QueuedRequest.item).map unstamped).take (maxBatchSize.toNat - 1)]⟩ := by
        rw [← left, ← batch]
      rw [same]
      exact serves

end PriorityState

/-- Requests of one priority leave a `PriorityScheduler` as they leave a `FIFOScheduler`: the same requests in
    the same batches, and the same `size()` after every call, as long as no call finds the queue empty. -/
theorem priority_refines_fifo (version : PythonVersion) (clock : Clock) (cfg : SchedulerConfig) (priority : Int)
    (ops : List Operation) (uniform : ∀ item, .submit item ∈ ops → item.request.priority = priority)
    (served : (exec Operation.on {} ops).isSome) :
    (exec (FifoState.perform version clock) {} ops).isSome ∧
      (exec (PriorityState.perform cfg) {} ops).isSome ∧
      trail (PriorityState.perform cfg) PriorityState.report {} ops =
        trail (FifoState.perform version clock) FifoState.report {} ops := by
  obtain ⟨queue, run⟩ := Option.isSome_iff_exists.mp served
  have emptyFifo : ({} : FifoState 1).Serves {} := ⟨rfl, rfl, rfl, rfl⟩
  have emptyPriority : ({} : PriorityState 1).Serves cfg priority {} :=
    ⟨rfl, rfl, rfl, ⟨by simp, .nil, by simp⟩, rfl, rfl⟩
  have fifoStep : ∀ (queue : BatchQueue ScheduledRequest) (st : FifoState 1) op after, st.Serves queue → True →
      Operation.on queue op = some after → ∃ t, st.perform version clock op = some t ∧ t.Serves after :=
    fun _ _ _ _ serves _ allowed => serves.perform allowed
  have priorityStep : ∀ (queue : BatchQueue ScheduledRequest) (st : PriorityState 1) op after,
      st.Serves cfg priority queue → (∀ item, op = .submit item → item.request.priority = priority) →
      Operation.on queue op = some after → ∃ t, st.perform cfg op = some t ∧ t.Serves cfg priority after :=
    fun _ _ _ _ serves level allowed => serves.perform level allowed
  obtain ⟨f, fifoRun, -, fifoTrail⟩ := exec_simulation (fun queue st => FifoState.Serves st queue) (fun _ => True)
    (fun _ _ serves => serves.report_eq) fifoStep emptyFifo (fun _ _ => True.intro) run
  obtain ⟨p, priorityRun, -, priorityTrail⟩ := exec_simulation
    (fun queue st => PriorityState.Serves cfg st priority queue)
    (fun op => ∀ item, op = .submit item → item.request.priority = priority)
    (fun _ _ serves => serves.report_eq) priorityStep emptyPriority
    (fun op member item same => uniform item (by rw [← same]; exact member)) run
  exact ⟨by rw [fifoRun]; rfl, by rw [priorityRun]; rfl, priorityTrail.trans fifoTrail.symm⟩

/-- Arrivals between the calls, a batch that the queue fills and one that empties it. -/
def uniformCalls : List Operation :=
  let item (requestId : String) := ScheduledRequest.ofBody { messages := [], priority := 3 } requestId 0
  [.submit (item "a"), .submit (item "b"), .submit (item "c"), .nextBatch 2, .submit (item "d"), .nextRequest,
    .submit (item "e"), .nextBatch 4]

theorem priority_refines_fifo_calls :
    (exec (FifoState.perform .py311 ⟨fun _ => 0, monotone_const⟩) {} uniformCalls).isSome ∧
      (exec (PriorityState.perform (.ticking .py311)) {} uniformCalls).isSome ∧
      trail (PriorityState.perform (.ticking .py311)) PriorityState.report {} uniformCalls =
        trail (FifoState.perform .py311 ⟨fun _ => 0, monotone_const⟩) FifoState.report {} uniformCalls := by
  refine priority_refines_fifo .py311 ⟨fun _ => 0, monotone_const⟩ (.ticking .py311) 3 uniformCalls ?_ (by rfl)
  intro item member
  simp only [uniformCalls, List.mem_cons, Operation.submit.injEq, reduceCtorEq, List.not_mem_nil, or_false,
    false_or] at member
  rcases member with rfl | rfl | rfl | rfl | rfl <;> rfl

end LLMRuntime
