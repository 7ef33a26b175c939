import LLMRuntime.Scheduler.Sequential

namespace LLMRuntime

open Transition ScheduledRequest

def Operation.limit : Operation → Nat
  | .submit _ => 0
  | .nextRequest => 1
  | .nextBatch maxBatchSize => maxBatchSize.toNat

def Operation.dequeues : Operation → Prop
  | .submit _ => False
  | _ => True

namespace PriorityState

variable {β : Type*} {cfg : SchedulerConfig} {st t : PriorityState 1} {seen : ScheduledRequest → β}
  {view : List QueuedRequest → List β} {start : Nat}

/-- Sequence numbers are given out in the order of submission. -/
def Numbered (items : List QueuedRequest) : Prop :=
  items.Pairwise fun earlier later => earlier.sequence < later.sequence

structure Quiet (cfg : SchedulerConfig) (st : PriorityState 1) : Prop where
  running : st.running = none
  idle : st.consumers 0 = .idle
  free : st.lockFree = true
  ordered : st.Ordered cfg

/-- A reading of the list from which requests leave at the front, at every tick from `start` on. -/
structure Presents (cfg : SchedulerConfig) (start : Nat) (seen : ScheduledRequest → β)
    (view : List QueuedRequest → List β) : Prop where
  length : ∀ items, (view items).length = items.length
  pop : ∀ tick items popped rest, start ≤ tick → Numbered items →
    popNextLocked cfg.agingBoostIntervalS (cfg.timeFn.reading tick) items = some (popped, rest) →
    view items = seen popped.item :: view rest
  blind : ∀ (item : ScheduledRequest) now,
    seen { item with request := item.request.markStarted now } = seen item

theorem Presents.nil (presents : Presents cfg start seen view) : view [] = [] :=
  List.length_eq_zero_iff.mp (presents.length [])

theorem Presents.markStartedAll (presents : Presents cfg start seen view) (clock : Clock) (ticks : Nat)
    (items : List ScheduledRequest) : (LLMRuntime.markStartedAll clock ticks items).map seen = items.map seen := by
  induction items generalizing ticks with
  | nil => rfl
  | cons item items ih =>
    simp only [LLMRuntime.markStartedAll, List.map_cons, presents.blind, ih]

def seenBy (seen : ScheduledRequest → β) (returned : List Dispatched) : List (List β) :=
  returned.map fun dispatched => dispatched.items.map seen

theorem seenBy_append (returned more : List Dispatched) :
    seenBy seen (returned ++ more) = seenBy seen returned ++ seenBy seen more := List.map_append

/-- The queue that the calls of a drain see. -/
structure Shows (cfg : SchedulerConfig) (start : Nat) (seen : ScheduledRequest → β) (view : List QueuedRequest → List β)
    (st : PriorityState 1) (queue : BatchQueue β) : Prop where
  quiet : st.Quiet cfg
  later : start ≤ st.ticks
  waiting : view st.items = queue.waiting
  taken : seenBy seen st.returned = queue.taken

/-- In the loop of a `next_batch` without a timeout, which holds the lock. -/
structure Draining (cfg : SchedulerConfig) (start : Nat) (seen : ScheduledRequest → β)
    (view : List QueuedRequest → List β) (maxBatchSize : Int) (returned : List (List β)) (st : PriorityState 1)
    (waiting batch : List β) : Prop where
  running : st.running = some 0
  waiters : st.lockWaiters = []
  collecting : ∃ b, st.consumers 0 = .collecting b ∧ b.maxBatchSize = maxBatchSize ∧ b.batchTimeoutMs = 0 ∧
    b.items.map seen = batch
  ordered : st.Ordered cfg
  later : start ≤ st.ticks
  waiting : view st.items = waiting
  taken : seenBy seen st.returned = returned

variable {maxBatchSize : Int} {returned : List (List β)} {waiting batch : List β}

/-- The next request to leave, as long as anything waits. -/
theorem Presents.next (presents : Presents cfg start seen view) {tick : Nat} (later : start ≤ tick)
    {items : List QueuedRequest} (numbered : Numbered items) {a : β} {rest : List β} (shown : view items = a :: rest) :
    ∃ popped left, popNextLocked cfg.agingBoostIntervalS (cfg.timeFn.reading tick) items = some (popped, left) ∧
      seen popped.item = a ∧ view left = rest ∧ left.Sublist items := by
  cases found : popNextLocked cfg.agingBoostIntervalS (cfg.timeFn.reading tick) items with
  | none =>
    rw [popNextLocked_eq_none_iff.mp found, presents.nil] at shown
    cases shown
  | some both =>
    obtain ⟨popped, left⟩ := both
    have head := presents.pop tick items popped left later numbered found
    rw [shown] at head
    cases head
    exact ⟨popped, left, rfl, rfl, rfl, popNextLocked_sublist found⟩

theorem Draining.busy (draining : Draining cfg start seen view maxBatchSize returned st waiting batch) :
    st.running.isSome = true := by
  rw [draining.running]
  rfl

theorem Shows.suspended {queue : BatchQueue β} (shows : Shows cfg start seen view st queue) :
    st.running.isSome = false := by
  rw [shows.quiet.running]
  rfl

theorem Draining.push (presents : Presents cfg start seen view) {a : β}
    (draining : Draining cfg start seen view maxBatchSize returned st (a :: waiting) batch)
    (room : batch.length < maxBatchSize.toNat) :
    ∃ t, st.step cfg (.collect 0) = some t ∧
      Draining cfg start seen view maxBatchSize returned t waiting (batch ++ [a]) := by
  obtain ⟨running, waiters, ⟨b, collecting, rfl, untimed, rfl⟩, ordered, later, shown, taken⟩ := draining
  have room : (b.items.length : Int) < b.maxBatchSize := by
    rw [List.length_map] at room
    omega
  obtain ⟨popped, left, found, rfl, rfl, kept⟩ := presents.next later ordered.sequences shown
  refine ⟨{ st with ticks := st.ticks + 1, items := left }.setPoint 0 (.collecting (b.push popped.item room)), ?_, ?_⟩
  · simp [step, running, collect, collecting, room, found]
  · constructor
    · exact running
    · exact waiters
    · exact ⟨b.push popped.item room, by simp [setPoint], rfl, untimed, by simp [PartialBatch.push]⟩
    · exact ordered.sublist kept rfl (Nat.le_succ _)
    · exact later.trans (Nat.le_succ _)
    · rfl
    · exact taken

theorem Draining.stop (presents : Presents cfg start seen view)
    (draining : Draining cfg start seen view maxBatchSize returned st waiting batch)
    (ended : waiting = [] ∨ maxBatchSize.toNat ≤ batch.length) :
    ∃ t, st.step cfg (.collect 0) = some t ∧ Shows cfg start seen view t ⟨waiting, returned ++ [batch]⟩ := by
  obtain ⟨running, waiters, ⟨b, collecting, rfl, untimed, rfl⟩, ordered, later, rfl, rfl⟩ := draining
  refine ⟨st.finish cfg 0 b, ?_, ⟨rfl, ?_, ?_, ordered.sublist (.refl _) rfl ?_⟩, ?_, rfl, ?_⟩
  · simp only [step, running, if_true, collect, collecting]
    by_cases room : (b.items.length : Int) < b.maxBatchSize
    · have nobody : LLMRuntime.popNextLocked cfg.agingBoostIntervalS (cfg.timeFn.reading st.ticks) st.items = none := by
        rcases ended with nothing | full
        · cases found : LLMRuntime.popNextLocked cfg.agingBoostIntervalS (cfg.timeFn.reading st.ticks) st.items with
          | none => rfl
          | some both =>
            have head := presents.pop _ _ both.1 both.2 later ordered.sequences found
            rw [nothing] at head
            cases head
        · rw [List.length_map] at full
          omega
      simp [room, untimed, nobody]
    · simp [room]
  · simp [finish, setPoint]
  · simp [lockFree, finish, setPoint, waiters]
  · change st.ticks ≤ st.ticks + b.items.length + 1
    omega
  · change start ≤ st.ticks + b.items.length + 1
    omega
  · simp only [finish, setPoint, seenBy, List.map_append, List.map_cons, List.map_nil, Dispatched.items,
      presents.markStartedAll]

/-- A call that finds something takes from the front of what its view shows, up to its limit. -/
theorem Shows.perform (presents : Presents cfg start seen view) {queue after : BatchQueue β} {op : Operation}
    (shows : Shows cfg start seen view st queue) (call : op.dequeues) (allowed : queue.take op.limit = some after) :
    ∃ t, st.perform cfg op = some t ∧ Shows cfg start seen view t after := by
  obtain ⟨⟨running, idle, free, ordered⟩, later, waiting, taken⟩ := shows
  obtain ⟨a, others, headed, left, batch⟩ := BatchQueue.take_cases allowed
  rw [headed] at waiting
  obtain ⟨popped, rest, found, rfl, rfl, kept⟩ := presents.next later ordered.sequences waiting
  have size : st.size = (view rest).length + 1 := by
    rw [PriorityState.size, ← presents.length, waiting, List.length_cons]
  have filled : st.items.isEmpty = false := by
    rw [List.isEmpty_eq_false_iff, ← List.length_pos_iff]
    change 0 < st.size
    omega
  have waiters : st.lockWaiters = [] := by simpa using (Bool.and_eq_true_iff.mp free).2
  cases op with
  | submit item => exact call.elim
  | nextRequest =>
    refine ⟨st.takeFirst cfg 0 .request, ?_, ⟨?_, ?_, ?_, ?_⟩, ?_, ?_, ?_⟩
    · simp only [PriorityState.perform, filled, Bool.false_eq_true, if_false]
      exact step_call running idle free .request
    · simpa [takeFirst, found, setPoint] using running
    · simp [takeFirst, found, setPoint]
    · simp [takeFirst, found, setPoint, lockFree, waiters]
    · apply ordered.sublist <;> simp [takeFirst, found, setPoint, kept]
    · simpa [takeFirst, found, setPoint] using later.trans (Nat.le_add_right _ 2)
    · simp [takeFirst, found, setPoint, left, Operation.limit]
    · simp only [takeFirst, found, setPoint, seenBy_append, taken, batch]
      simp [seenBy, Dispatched.items, presents.blind, Operation.limit]
  | nextBatch maxBatchSize =>
    have begun : Draining cfg start seen view maxBatchSize queue.taken (st.takeFirst cfg 0 (.batch maxBatchSize 0))
        (view rest) [seen popped.item] := by
      constructor
      · simp [takeFirst, found, setPoint]
      · simp [takeFirst, found, setPoint, waiters]
      · simp [takeFirst, found, setPoint]
      · apply ordered.sublist <;> simp [takeFirst, found, setPoint, kept]
      · simpa [takeFirst, found, setPoint] using later.trans (Nat.le_add_right _ 2)
      · simp [takeFirst, found, setPoint]
      · simpa [takeFirst, found, setPoint] using taken
    obtain ⟨t, filled', shown⟩ := BatchQueue.runWhile_fill (Draining cfg start seen view maxBatchSize queue.taken)
      (fun st waiting batch => Shows cfg start seen view st ⟨waiting, queue.taken ++ [batch]⟩)
      (fun _ _ _ draining => draining.busy) (fun _ _ _ shows => shows.suspended)
      (fun _ _ _ _ draining room => draining.push presents room)
      (fun _ _ _ draining ended => draining.stop presents ended)
      begun (show (view rest).length < st.size by omega)
    refine ⟨t, ?_, ?_⟩
    · simp only [PriorityState.perform, filled, Bool.false_eq_true, if_false]
      rw [step_call running idle free, Option.bind_some]
      exact filled'
    · have same : after = ⟨(view rest).drop (maxBatchSize.toNat - 1),
          queue.taken ++ [seen popped.item :: (view rest).take (maxBatchSize.toNat - 1)]⟩ := by
        rw [Operation.limit] at left batch
        rw [← left, ← batch]
      rw [same]
      exact shown

theorem perform_none {op : Operation} (call : op.dequeues) (empty : st.items = []) : st.perform cfg op = none := by
  cases op with
  | submit item => exact call.elim
  | nextRequest => simp [PriorityState.perform, empty]
  | nextBatch maxBatchSize => simp [PriorityState.perform, empty]

/-- A dequeuing call that returns has taken from the queue it was shown. -/
theorem Shows.performed (presents : Presents cfg start seen view) {queue : BatchQueue β} {op : Operation}
    (shows : Shows cfg start seen view st queue) (call : op.dequeues) (done : st.perform cfg op = some t) :
    ∃ after, queue.take op.limit = some after ∧ Shows cfg start seen view t after := by
  cases held : queue.waiting with
  | nil =>
    have empty : st.items = [] := by
      rw [← List.length_eq_zero_iff, ← presents.length, shows.waiting, held, List.length_nil]
    rw [perform_none call empty] at done
    cases done
  | cons a rest =>
    obtain ⟨after, allowed⟩ : ∃ after, queue.take op.limit = some after := by
      rw [BatchQueue.take, held]
      exact ⟨_, rfl⟩
    obtain ⟨u, performed, shown⟩ := shows.perform presents call allowed
    rw [done] at performed
    cases performed
    exact ⟨after, allowed, shown⟩

theorem presents_count (cfg : SchedulerConfig) :
    Presents cfg 0 (fun _ => ()) (List.map fun _ => ()) where
  length items := List.length_map _
  pop tick items popped rest _ _ found := by
    have length := (popNextLocked_perm found).length_eq
    rw [List.map_const', List.map_const', length, List.length_cons, List.replicate_succ]
  blind _ _ := rfl

theorem Numbered.eq_of_sequence {items : List QueuedRequest} (numbered : Numbered items) {x z : QueuedRequest}
    (left : x ∈ items) (right : z ∈ items) (same : x.sequence = z.sequence) : x = z := by
  apply List.inj_on_of_nodup_map (f := QueuedRequest.sequence) _ left right same
  apply List.Pairwise.map _ _ numbered
  intro earlier later less
  exact less.ne

/-- The queue in the order of a priority level, with the sequence number to break ties. -/
def sortedByLevel (level : QueuedRequest → Int) (items : List QueuedRequest) : List ScheduledRequest :=
  (sortedBy (fun queued => toLex (level queued, queued.sequence)) items).map fun queued => queued.item.unstamped

/-- As long as the level of a request does not change, what is taken out next is the head of the sorted queue. -/
theorem presents_sorted {level : QueuedRequest → Int} (steady : ∀ tick, start ≤ tick → ∀ queued,
      effectivePriority cfg.agingBoostIntervalS queued (cfg.timeFn.reading tick) = level queued) :
    Presents cfg start unstamped (sortedByLevel level) where
  length items := by rw [sortedByLevel, List.length_map, sortedBy_length]
  pop tick items popped rest later numbered found := by
    have key : dequeueKey cfg.agingBoostIntervalS (cfg.timeFn.reading tick) =
        fun queued => toLex (level queued, queued.sequence) := by
      funext queued
      rw [dequeueKey, steady tick later queued]
    have least := popNextLocked_le found
    rw [key] at least
    rw [sortedByLevel, sortedBy_eq_cons (popNextLocked_perm found) least]
    · rfl
    · intro x left z right same
      apply numbered.eq_of_sequence left right
      exact congrArg (fun pair => (ofLex pair).2) same
  blind _ _ := rfl

theorem Quiet.submit {item : ScheduledRequest} (quiet : st.Quiet cfg)
    (done : st.perform cfg (.submit item) = some t) : t.Quiet cfg := by
  have ordered := step_ordered quiet.ordered (show st.step cfg (.submit item none) = some t from done)
  have free := quiet.free
  let enqueued : ScheduledRequest := { item with request := item.request.markEnqueued (cfg.perfCounter.reading st.ticks) }
  have submitted : st.submit cfg item none = { st with ticks := st.ticks + 1 }.append cfg enqueued none := if_pos free
  have stepped : st.step cfg (.submit item none) = st.submit cfg item none := by
    rw [step, quiet.running]
    rfl
  rw [PriorityState.perform, stepped, submitted, append] at done
  split at done
  · cases done
    exact ⟨quiet.running, quiet.idle, free, ordered⟩
  · cases done

theorem Quiet.shows_count (quiet : st.Quiet cfg) :
    Shows cfg 0 (fun _ => ()) (List.map fun _ => ()) st
      ⟨st.items.map fun _ => (), seenBy (fun _ => ()) st.returned⟩ :=
  ⟨quiet, Nat.zero_le _, rfl, rfl⟩

theorem Quiet.perform {op : Operation} (quiet : st.Quiet cfg) (done : st.perform cfg op = some t) : t.Quiet cfg := by
  by_cases call : op.dequeues
  · obtain ⟨after, -, shown⟩ := quiet.shows_count.performed (presents_count cfg) call done
    exact shown.quiet
  · cases op with
    | submit item => exact quiet.submit done
    | nextRequest => exact (call True.intro).elim
    | nextBatch maxBatchSize => exact (call True.intro).elim

theorem quiet_init (cfg : SchedulerConfig) : ({} : PriorityState 1).Quiet cfg :=
  ⟨rfl, rfl, rfl, (invariant_init cfg).ordered⟩

theorem run_quiet {ops : List Operation} (run : exec (perform cfg) {} ops = some st) : st.Quiet cfg :=
  exec_invariant (fun _ _ _ quiet _ done => quiet.perform done) (quiet_init cfg) (fun _ _ => True.intro) run

/-- A drain takes the view of the queue from the front, and nothing else. -/
theorem Shows.drained (presents : Presents cfg start seen view) {queue : BatchQueue β} {calls : List Operation}
    (shows : Shows cfg start seen view st queue) (dequeue : ∀ op ∈ calls, op.dequeues)
    (run : exec (PriorityState.perform cfg) st calls = some t) :
    ∃ after, Shows cfg start seen view t after ∧
      after.taken.flatten ++ after.waiting = queue.taken.flatten ++ queue.waiting := by
  induction calls generalizing st queue with
  | nil =>
    cases run
    exact ⟨queue, shows, rfl⟩
  | cons op calls ih =>
    obtain ⟨next, done, rest⟩ := exec_cons_some.mp run
    obtain ⟨between, took, shown⟩ := shows.performed presents (dequeue op (by simp)) done
    obtain ⟨after, final, kept⟩ := ih shown (fun other member => dequeue other (List.mem_cons_of_mem op member)) rest
    exact ⟨after, final, kept.trans (BatchQueue.take_flatten took)⟩

theorem drain_order {level : QueuedRequest → Int} {calls : List Operation} (quiet : st.Quiet cfg)
    (steady : ∀ tick, st.ticks ≤ tick → ∀ queued,
      effectivePriority cfg.agingBoostIntervalS queued (cfg.timeFn.reading tick) = level queued)
    (dequeue : ∀ op ∈ calls, op.dequeues) (run : exec (perform cfg) st calls = some t) (empty : t.items = []) :
    (takenBy t.returned).flatten = (takenBy st.returned).flatten ++ sortedByLevel level st.items := by
  have shows : Shows cfg st.ticks unstamped (sortedByLevel level) st
      ⟨sortedByLevel level st.items, takenBy st.returned⟩ := ⟨quiet, le_rfl, rfl, rfl⟩
  obtain ⟨after, shown, kept⟩ := shows.drained (presents_sorted steady) dequeue run
  have nothing : after.waiting = [] := by
    rw [← shown.waiting, empty]
    rfl
  have taken : after.taken = takenBy t.returned := shown.taken.symm
  rw [nothing, List.append_nil, taken] at kept
  exact kept

theorem step_returned {n : Nat} {st t : PriorityState n} {action : SchedulerAction n}
    (taken : st.step cfg action = some t) : st.returned <+: t.returned := by
  rcases step_effect taken with ⟨item, -, arrival⟩ | ⟨-, effect⟩
  · cases arrival with
    | waits same waiters => exact same.returned ▸ List.prefix_refl _
    | appends appends waiters => exact appends.returned ▸ List.prefix_refl _
  · cases effect with
    | quiet same waiters => exact same.returned ▸ List.prefix_refl _
    | granted item appends waiters => exact appends.returned ▸ List.prefix_refl _
    | takes i queued pops held returned waiters => exact returned ▸ List.prefix_refl _
    | serves queued pops held returned waiters =>
      obtain ⟨tick, -, returned⟩ := returned
      exact returned ▸ List.prefix_append _ _
    | returns i batch full items counter submitted ticks held returned waiters =>
      obtain ⟨tick, createdAt, -, returned⟩ := returned
      exact returned ▸ List.prefix_append _ _

/-- A call that returns is a run of the scheduler. -/
theorem perform_steps {op : Operation} (done : st.perform cfg op = some t) :
    ∃ acts, exec (step cfg) st acts = some t := by
  cases op with
  | submit item => exact ⟨[_], exec_cons_some.mpr ⟨t, done, rfl⟩⟩
  | nextRequest =>
    rw [PriorityState.perform] at done
    split at done
    · cases done
    · exact ⟨[_], exec_cons_some.mpr ⟨t, done, rfl⟩⟩
  | nextBatch maxBatchSize =>
    rw [PriorityState.perform] at done
    split at done
    · cases done
    · obtain ⟨first, called, filled⟩ := Option.bind_eq_some_iff.mp done
      obtain ⟨count, run⟩ := runWhile_exec filled
      exact ⟨_, exec_cons_some.mpr ⟨first, called, run⟩⟩

theorem perform_returned {op : Operation} (done : st.perform cfg op = some t) : st.returned <+: t.returned := by
  obtain ⟨acts, run⟩ := perform_steps done
  have kept : ∀ (s : PriorityState 1) action (u : PriorityState 1), st.returned <+: s.returned → True → s.step cfg action = some u →
      st.returned <+: u.returned :=
    fun _ _ _ grown _ taken => grown.trans (step_returned taken)
  exact exec_invariant kept (List.prefix_refl _) (fun _ _ => True.intro) run

/-- A call returns as many as wait, up to its limit. -/
theorem Quiet.call_size {op : Operation} (quiet : st.Quiet cfg) (call : op.dequeues)
    (done : st.perform cfg op = some t) :
    ∃ dispatched, t.returned = st.returned ++ [dispatched] ∧
      dispatched.items.length = min (max 1 op.limit) st.size := by
  obtain ⟨after, took, shown⟩ := quiet.shows_count.performed (presents_count cfg) call done
  obtain ⟨a, rest, headed, -, batch⟩ := BatchQueue.take_cases took
  obtain ⟨more, grown⟩ := perform_returned done
  have size : st.size = rest.length + 1 := by
    have counted := congrArg List.length headed
    rwa [List.length_map, List.length_cons] at counted
  have added := shown.taken
  rw [← grown, seenBy_append, batch] at added
  obtain ⟨dispatched, rfl, counted⟩ := List.map_eq_singleton_iff.mp (List.append_cancel_left added)
  refine ⟨dispatched, grown.symm, ?_⟩
  have length := congrArg List.length counted
  rw [List.length_map, List.length_cons, List.length_take] at length
  omega

/-- The list keeps the order of submission. -/
def InOrder {n : Nat} (st : PriorityState n) : Prop := (st.items.map QueuedRequest.item).Sublist st.submitted

theorem InOrder.sublist {n : Nat} {st t : PriorityState n} (inOrder : st.InOrder) (items : t.items.Sublist st.items)
    (submitted : t.submitted = st.submitted) : t.InOrder := by
  rw [InOrder, submitted]
  exact (items.map _).trans inOrder

theorem InOrder.append {n : Nat} {st t : PriorityState n} {item : ScheduledRequest} (inOrder : st.InOrder)
    (appends : st.Appends cfg t item) : t.InOrder := by
  obtain ⟨tick, -, -, items⟩ := appends.items
  rw [InOrder, items, appends.submitted, List.map_append]
  exact List.Sublist.append inOrder (List.Sublist.refl _)

theorem step_inOrder {n : Nat} {st t : PriorityState n} {action : SchedulerAction n} (inOrder : st.InOrder)
    (taken : st.step cfg action = some t) : t.InOrder := by
  rcases step_effect taken with ⟨item, -, arrival⟩ | ⟨-, effect⟩
  · cases arrival with
    | waits same waiters => exact inOrder.sublist (same.items ▸ .refl _) same.submitted
    | appends appends waiters => exact inOrder.append appends
  · cases effect with
    | quiet same waiters => exact inOrder.sublist (same.items ▸ .refl _) same.submitted
    | granted item appends waiters => exact inOrder.append appends
    | takes i queued pops held returned waiters =>
      exact inOrder.sublist (popNextLocked_sublist pops.found) pops.submitted
    | serves queued pops held returned waiters =>
      exact inOrder.sublist (popNextLocked_sublist pops.found) pops.submitted
    | returns i batch full items counter submitted ticks held returned waiters =>
      exact inOrder.sublist (items ▸ .refl _) submitted

theorem perform_inOrder {op : Operation} (inOrder : st.InOrder) (done : st.perform cfg op = some t) : t.InOrder := by
  obtain ⟨acts, run⟩ := perform_steps done
  exact exec_invariant (fun _ _ _ kept _ taken => step_inOrder kept taken) inOrder (fun _ _ => True.intro) run

end PriorityState

open PriorityState

/-- Draining a `PriorityScheduler` is a stable sort of its queue, however the drain is batched: by priority
    without aging, and by effective priority as of the time the clock shows throughout. Every call returns as
    many requests as wait, up to its limit. -/
theorem drain_stable_sort (cfg : SchedulerConfig) {history calls : List Operation} {st t : PriorityState 1}
    (reached : exec (PriorityState.perform cfg) {} history = some st) (dequeue : ∀ op ∈ calls, op.dequeues)
    (drained : exec (PriorityState.perform cfg) st calls = some t) (empty : t.items = []) :
    (Numbered st.items ∧ (st.items.map QueuedRequest.item).Sublist st.submitted) ∧
    (cfg.agingBoostIntervalS ≤ 0 →
      (takenBy t.returned).flatten =
        (takenBy st.returned).flatten ++ sortedByLevel (fun queued => queued.priority) st.items) ∧
    (∀ now, 0 < cfg.agingBoostIntervalS → (∀ tick, st.ticks ≤ tick → cfg.timeFn.reading tick = now) →
      (takenBy t.returned).flatten = (takenBy st.returned).flatten ++
        sortedByLevel (fun queued => effectivePriority cfg.agingBoostIntervalS queued now) st.items) ∧
    ∀ before op after s u, calls = before ++ op :: after →
      exec (PriorityState.perform cfg) st before = some s → s.perform cfg op = some u →
      ∃ dispatched, u.returned = s.returned ++ [dispatched] ∧
        dispatched.items.length = min (max 1 op.limit) s.size := by
  have quiet := run_quiet reached
  refine ⟨⟨quiet.ordered.sequences, ?_⟩, fun off => ?_, fun now on constant => ?_, ?_⟩
  · have start : ({} : PriorityState 1).InOrder := List.Sublist.refl []
    exact exec_invariant (fun _ _ _ kept _ done => perform_inOrder kept done) start (fun _ _ => True.intro) reached
  · apply drain_order quiet _ dequeue drained empty
    intro tick _ queued
    rw [effectivePriority, if_pos off]
  · apply drain_order quiet _ dequeue drained empty
    intro tick later queued
    rw [constant tick later]
  · intro before op after s u split run done
    have between : s.Quiet cfg :=
      exec_invariant (fun _ _ _ kept _ done => kept.perform done) quiet (fun _ _ => True.intro) run
    exact between.call_size (dequeue op (by simp [split])) done

def mixedSubmits : List Operation :=
  [.submit (.ofBody { messages := [], priority := 2 } "a" 0), .submit (.ofBody { messages := [], priority := 1 } "b" 0),
    .submit (.ofBody { messages := [], priority := 2 } "c" 0), .submit (.ofBody { messages := [] } "d" 0),
    .submit (.ofBody { messages := [], priority := 1 } "e" 0)]

def unaged : SchedulerConfig := { SchedulerConfig.ticking .py311 with agingBoostIntervalS := 0 }

theorem drain_stable_sort_mixed :
    ∃ st t, exec (PriorityState.perform unaged) {} mixedSubmits = some st ∧
      exec (PriorityState.perform unaged) st [.nextBatch 2, .nextRequest, .nextBatch 9] = some t ∧
      (takenBy t.returned).flatten =
        (takenBy st.returned).flatten ++ sortedByLevel (fun queued => queued.priority) st.items := by
  have emptied : (exec (PriorityState.perform unaged) {} mixedSubmits).bind (fun st =>
      (exec (PriorityState.perform unaged) st [.nextBatch 2, .nextRequest, .nextBatch 9]).map (·.items)) =
        some [] := by
    decide +kernel
  obtain ⟨st, reached, rest⟩ := Option.bind_eq_some_iff.mp emptied
  obtain ⟨t, drained, empty⟩ := Option.map_eq_some_iff.mp rest
  have dequeue : ∀ op ∈ [Operation.nextBatch 2, .nextRequest, .nextBatch 9], op.dequeues := by
    simp [Operation.dequeues]
  exact ⟨st, t, reached, drained, (drain_stable_sort unaged reached dequeue drained empty).2.1 le_rfl⟩

end LLMRuntime
