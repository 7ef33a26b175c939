import Mathlib.Data.Fintype.Basic
import LLMRuntime.Foundation.Custody
import LLMRuntime.Scheduler.Effects

namespace LLMRuntime

namespace ScheduledRequest

def unstamped (item : ScheduledRequest) : ScheduledRequest :=
  { item with request := { item.request with enqueuedAt := none, startedAt := none } }

def EnqueuedBy (item : ScheduledRequest) (clock : Clock) (ticks : Nat) : Prop :=
  ∃ tick ≤ ticks, item.request.enqueuedAt = some (clock.reading tick)

def StartedAfterEnqueued (item : ScheduledRequest) : Prop :=
  ∃ enqueued started, item.request.enqueuedAt = some enqueued ∧ item.request.startedAt = some started ∧
    enqueued ≤ started

variable {item : ScheduledRequest} {clock : Clock} {ticks later : Nat}

theorem EnqueuedBy.mono (enqueued : item.EnqueuedBy clock ticks) (order : ticks ≤ later) :
    item.EnqueuedBy clock later := by
  obtain ⟨tick, before, stamp⟩ := enqueued
  exact ⟨tick, before.trans order, stamp⟩

theorem EnqueuedBy.started (enqueued : item.EnqueuedBy clock ticks) (order : ticks ≤ later) :
    StartedAfterEnqueued { item with request := item.request.markStarted (clock.reading later) } := by
  obtain ⟨tick, before, stamp⟩ := enqueued
  exact ⟨clock.reading tick, clock.reading later, stamp, rfl, clock.monotone (before.trans order)⟩

end ScheduledRequest

/-- A returned call has at least one item, no more than it may have, each started after it was enqueued. -/
structure Dispatched.WellFormed (dispatched : Dispatched) : Prop where
  nonempty : 1 ≤ dispatched.items.length
  bounded : (dispatched.items.length : Int) ≤ dispatched.limit
  stamped : ∀ item ∈ dispatched.items, item.StartedAfterEnqueued

namespace PriorityState

open ScheduledRequest

variable {n : Nat} {cfg : SchedulerConfig} {st t : PriorityState n}

@[simp] theorem length_markStartedAll (clock : Clock) (ticks : Nat) (items : List ScheduledRequest) :
    (markStartedAll clock ticks items).length = items.length := by
  induction items generalizing ticks with
  | nil => rfl
  | cons item items ih => simp [markStartedAll, ih]

theorem markStartedAll_unstamped (clock : Clock) (ticks : Nat) (items : List ScheduledRequest) :
    (markStartedAll clock ticks items).map unstamped = items.map unstamped := by
  induction items generalizing ticks with
  | nil => rfl
  | cons item items ih =>
    rw [markStartedAll, List.map_cons, ih, List.map_cons]
    rfl

theorem markStartedAll_started {clock : Clock} {ticks tick : Nat} {items : List ScheduledRequest}
    (enqueued : ∀ item ∈ items, item.EnqueuedBy clock ticks) (order : ticks ≤ tick) :
    ∀ item ∈ markStartedAll clock tick items, item.StartedAfterEnqueued := by
  induction items generalizing tick with
  | nil => simp [markStartedAll]
  | cons first items ih =>
    intro item member
    rcases List.mem_cons.mp member with rfl | member
    · exact (enqueued first (by simp)).started order
    · exact ih (fun other among => enqueued other (List.mem_cons_of_mem _ among)) (Nat.le_succ_of_le order) item member

/-- The requests a scheduler has taken in, by the place each one is in. -/
def placed (st : PriorityState n) : Multiset ScheduledRequest :=
  (st.items.map QueuedRequest.item : Multiset ScheduledRequest) + Custody.total st.held +
    (st.returned.flatMap Dispatched.items : Multiset ScheduledRequest)

def Conserved (st : PriorityState n) : Prop :=
  (st.submitted : Multiset ScheduledRequest).map unstamped = st.placed.map unstamped

theorem Same.placed (same : st.Same t) : t.placed = st.placed := by
  rw [PriorityState.placed, same.items, same.held, same.returned]
  rfl

theorem Appends.placed {item : ScheduledRequest} (appends : st.Appends cfg t item) :
    t.placed = st.placed + {item} := by
  obtain ⟨tick, -, -, items⟩ := appends.items
  rw [PriorityState.placed, items, appends.held, appends.returned, List.map_append, ← Multiset.coe_add]
  simp only [PriorityState.placed, List.map_cons, List.map_nil, Multiset.coe_singleton]
  abel

theorem Same.conserved (same : st.Same t) (conserved : st.Conserved) : t.Conserved := by
  rw [Conserved, same.placed, same.submitted, conserved]

theorem Appends.conserved {item : ScheduledRequest} (appends : st.Appends cfg t item)
    (conserved : st.Conserved) : t.Conserved := by
  rw [Conserved, appends.placed, appends.submitted, ← Multiset.coe_add, Multiset.map_add, conserved,
    Multiset.map_add]
  rfl

theorem Pops.items_map {queued : QueuedRequest} (pops : st.Pops cfg t queued) :
    (st.items.map QueuedRequest.item : Multiset ScheduledRequest) =
      {queued.item} + (t.items.map QueuedRequest.item : Multiset ScheduledRequest) :=
  Multiset.coe_eq_coe.mpr ((popNextLocked_perm pops.found).map QueuedRequest.item)

theorem Effect.conserved (effect : Effect cfg st t) (conserved : st.Conserved) : t.Conserved := by
  cases effect with
  | quiet same waiters => exact same.conserved conserved
  | granted item appends waiters => exact appends.conserved conserved
  | takes i queued pops held returned waiters =>
    rw [Conserved, pops.submitted, conserved, placed, placed, pops.items_map, held, Custody.total_push, returned]
    congr 1
    abel
  | serves queued pops held returned waiters =>
    obtain ⟨tick, -, returned⟩ := returned
    rw [Conserved, pops.submitted, conserved, placed, placed, pops.items_map, held, returned,
      List.flatMap_append, ← Multiset.coe_add]
    simp only [Multiset.map_add, List.flatMap_singleton, Dispatched.items, Multiset.coe_singleton,
      Multiset.map_singleton]
    have same : unstamped { queued.item with
        request := queued.item.request.markStarted (cfg.perfCounter.reading tick) } = unstamped queued.item := rfl
    rw [same]
    abel
  | returns i batch full items counter submitted ticks held returned waiters =>
    obtain ⟨tick, createdAt, -, returned⟩ := returned
    have moved := Custody.total_clear st.held i
    have same := markStartedAll_unstamped cfg.perfCounter tick batch.items
    rw [Conserved, submitted, conserved, placed, placed, items, held, ← moved, full, returned,
      List.flatMap_append, ← Multiset.coe_add]
    simp only [Multiset.map_add, List.flatMap_singleton, Dispatched.items, Multiset.map_coe, same]
    abel

structure Ordered (cfg : SchedulerConfig) (st : PriorityState n) : Prop where
  sequences : st.items.Pairwise fun earlier later => earlier.sequence < later.sequence
  counted : ∀ queued ∈ st.items, queued.sequence ≤ st.counter
  arrivals : st.items.Pairwise fun earlier later => earlier.queuedAt ≤ later.queuedAt
  past : ∀ queued ∈ st.items, queued.queuedAt ≤ cfg.timeFn.reading st.ticks

theorem Ordered.sublist (ordered : st.Ordered cfg) (sublist : t.items.Sublist st.items)
    (counter : t.counter = st.counter) (ticks : st.ticks ≤ t.ticks) : t.Ordered cfg where
  sequences := ordered.sequences.sublist sublist
  counted := fun queued member => counter ▸ ordered.counted queued (sublist.subset member)
  arrivals := ordered.arrivals.sublist sublist
  past := fun queued member =>
    (ordered.past queued (sublist.subset member)).trans (cfg.timeFn.monotone ticks)

theorem Same.ordered (same : st.Same t) (ordered : st.Ordered cfg) : t.Ordered cfg :=
  ordered.sublist (same.items ▸ .refl _) same.counter same.ticks

theorem Appends.ordered {item : ScheduledRequest} (appends : st.Appends cfg t item)
    (ordered : st.Ordered cfg) : t.Ordered cfg := by
  obtain ⟨tick, after, before, items⟩ := appends.items
  have order := cfg.timeFn.monotone (after.trans before.le)
  refine ⟨?_, ?_, ?_, ?_⟩
  · rw [items, List.pairwise_append]
    refine ⟨ordered.sequences, List.pairwise_singleton _ _, fun earlier member later last => ?_⟩
    rw [List.mem_singleton.mp last]
    exact Nat.lt_succ_of_le (ordered.counted earlier member)
  · intro queued member
    rw [items] at member
    rw [appends.counter]
    rcases List.mem_append.mp member with member | last
    · exact Nat.le_succ_of_le (ordered.counted queued member)
    · rw [List.mem_singleton.mp last]
  · rw [items, List.pairwise_append]
    refine ⟨ordered.arrivals, List.pairwise_singleton _ _, fun earlier member later last => ?_⟩
    rw [List.mem_singleton.mp last]
    exact (ordered.past earlier member).trans (cfg.timeFn.monotone after)
  · intro queued member
    rw [items] at member
    rcases List.mem_append.mp member with member | last
    · exact (ordered.past queued member).trans order
    · rw [List.mem_singleton.mp last]
      exact cfg.timeFn.monotone before.le

theorem Effect.ordered (effect : Effect cfg st t) (ordered : st.Ordered cfg) : t.Ordered cfg := by
  cases effect with
  | quiet same waiters => exact same.ordered ordered
  | granted item appends waiters => exact appends.ordered ordered
  | takes i queued pops held returned waiters =>
    exact ordered.sublist (popNextLocked_sublist pops.found) pops.counter pops.ticks.le
  | serves queued pops held returned waiters =>
    exact ordered.sublist (popNextLocked_sublist pops.found) pops.counter pops.ticks.le
  | returns i batch full items counter submitted ticks held returned waiters =>
    exact ordered.sublist (items ▸ .refl _) counter ticks

theorem step_ordered {action : SchedulerAction n} (ordered : st.Ordered cfg)
    (taken : st.step cfg action = some t) : t.Ordered cfg := by
  rcases step_effect taken with ⟨item, -, arrival⟩ | ⟨-, effect⟩
  · cases arrival with
    | waits same waiters => exact same.ordered ordered
    | appends appends waiters => exact appends.ordered ordered
  · exact effect.ordered ordered

/-- Enqueue stamps are in the past, and everything returned is well formed. -/
structure Stamped (cfg : SchedulerConfig) (st : PriorityState n) : Prop where
  waiting : ∀ item ∈ st.submitters, item.EnqueuedBy cfg.perfCounter st.ticks
  queued : ∀ queued ∈ st.items, queued.item.EnqueuedBy cfg.perfCounter st.ticks
  collected : ∀ i, ∀ item ∈ st.held i, item.EnqueuedBy cfg.perfCounter st.ticks
  returned : ∀ dispatched ∈ st.returned, dispatched.WellFormed

theorem Appends.stamped {item : ScheduledRequest} (appends : st.Appends cfg t item)
    (fresh : item.EnqueuedBy cfg.perfCounter t.ticks) (waiters : ∀ waiter ∈ t.submitters, waiter ∈ st.submitters)
    (stamped : st.Stamped cfg) : t.Stamped cfg := by
  obtain ⟨tick, after, before, items⟩ := appends.items
  have order := after.trans before.le
  refine ⟨fun waiter member => (stamped.waiting waiter (waiters waiter member)).mono order, ?_, ?_, ?_⟩
  · intro queued member
    rw [items] at member
    rcases List.mem_append.mp member with member | last
    · exact (stamped.queued queued member).mono order
    · rw [List.mem_singleton.mp last]
      exact fresh
  · intro i member among
    rw [appends.held] at among
    exact (stamped.collected i member among).mono order
  · rw [appends.returned]
    exact stamped.returned

theorem Arrival.stamped {item : ScheduledRequest} (arrival : Arrival cfg st item t)
    (fresh : item.EnqueuedBy cfg.perfCounter st.ticks) (stamped : st.Stamped cfg) : t.Stamped cfg := by
  cases arrival with
  | waits same waiters =>
    refine ⟨?_, ?_, ?_, ?_⟩
    · intro waiter member
      rw [waiters] at member
      rcases List.mem_append.mp member with member | last
      · exact (stamped.waiting waiter member).mono same.ticks
      · rw [List.mem_singleton.mp last]
        exact fresh.mono same.ticks
    · rw [same.items]
      exact fun queued member => (stamped.queued queued member).mono same.ticks
    · rw [same.held]
      exact fun i item member => (stamped.collected i item member).mono same.ticks
    · rw [same.returned]
      exact stamped.returned
  | appends appends waiters =>
    obtain ⟨tick, after, before, -⟩ := appends.items
    exact appends.stamped (fresh.mono (after.trans before.le)) (waiters ▸ fun _ member => member) stamped

theorem Pops.stamped {queued : QueuedRequest} (pops : st.Pops cfg t queued) (stamped : st.Stamped cfg) :
    queued.item.EnqueuedBy cfg.perfCounter st.ticks ∧
      ∀ left ∈ t.items, left.item.EnqueuedBy cfg.perfCounter t.ticks := by
  refine ⟨stamped.queued queued ?_, fun left member => ?_⟩
  · exact (popNextLocked_perm pops.found).symm.subset (by simp)
  · exact (stamped.queued left ((popNextLocked_sublist pops.found).subset member)).mono pops.ticks.le

theorem Stamped.collected_update (stamped : st.Stamped cfg) {i : Fin n} {items : List ScheduledRequest}
    (moved : t.held = Function.update st.held i items) (order : st.ticks ≤ t.ticks)
    (fresh : ∀ item ∈ items, item.EnqueuedBy cfg.perfCounter t.ticks) :
    ∀ j, ∀ item ∈ t.held j, item.EnqueuedBy cfg.perfCounter t.ticks := by
  intro j item member
  rw [moved] at member
  by_cases same : j = i
  · subst same
    rw [Function.update_self] at member
    exact fresh item member
  · rw [Function.update_of_ne same] at member
    exact (stamped.collected j item member).mono order

theorem Effect.stamped (effect : Effect cfg st t) (stamped : st.Stamped cfg) : t.Stamped cfg := by
  cases effect with
  | quiet same waiters =>
    rcases same with ⟨items, -, -, returned, held, order⟩
    refine ⟨?_, ?_, ?_, returned ▸ stamped.returned⟩
    · exact waiters ▸ fun item member => (stamped.waiting item member).mono order
    · exact items ▸ fun queued member => (stamped.queued queued member).mono order
    · exact held ▸ fun i item member => (stamped.collected i item member).mono order
  | granted item appends waiters =>
    obtain ⟨tick, after, before, -⟩ := appends.items
    have fresh : item.EnqueuedBy cfg.perfCounter st.ticks := stamped.waiting item (waiters ▸ by simp)
    exact appends.stamped (fresh.mono (after.trans before.le))
      (waiters ▸ fun _ member => List.mem_cons_of_mem _ member) stamped
  | takes i queued pops held returned waiters =>
    obtain ⟨best, left⟩ := pops.stamped stamped
    refine ⟨?_, left, stamped.collected_update held pops.ticks.le ?_, returned ▸ stamped.returned⟩
    · exact waiters ▸ fun item member => (stamped.waiting item member).mono pops.ticks.le
    · intro item member
      rcases List.mem_append.mp member with member | last
      · exact (stamped.collected i item member).mono pops.ticks.le
      · rw [List.mem_singleton.mp last]
        exact best.mono pops.ticks.le
  | serves queued pops held returned waiters =>
    obtain ⟨best, left⟩ := pops.stamped stamped
    obtain ⟨tick, order, returned⟩ := returned
    refine ⟨?_, left, ?_, ?_⟩
    · exact waiters ▸ fun item member => (stamped.waiting item member).mono pops.ticks.le
    · exact held ▸ fun i item member => (stamped.collected i item member).mono pops.ticks.le
    · intro dispatched member
      rw [returned] at member
      rcases List.mem_append.mp member with member | last
      · exact stamped.returned dispatched member
      · rw [List.mem_singleton.mp last]
        refine ⟨le_refl _, le_refl _, fun item among => ?_⟩
        rw [List.mem_singleton.mp among]
        exact best.started order
  | returns i batch full items counter submitted ticks held returned waiters =>
    obtain ⟨tick, createdAt, order, returned⟩ := returned
    refine ⟨?_, ?_, ?_, ?_⟩
    · exact waiters ▸ fun item member => (stamped.waiting item member).mono ticks
    · exact items ▸ fun queued member => (stamped.queued queued member).mono ticks
    · exact stamped.collected_update held ticks (by simp)
    · intro dispatched member
      rw [returned] at member
      rcases List.mem_append.mp member with member | last
      · exact stamped.returned dispatched member
      · rw [List.mem_singleton.mp last]
        refine ⟨?_, ?_, markStartedAll_started (full ▸ stamped.collected i) order⟩
        · exact batch.sized.1.trans (length_markStartedAll _ _ _).ge
        · exact le_of_eq_of_le (congrArg Nat.cast (length_markStartedAll _ _ _)) batch.sized.2

structure Invariant (cfg : SchedulerConfig) (st : PriorityState n) : Prop where
  conserved : st.Conserved
  ordered : st.Ordered cfg
  stamped : st.Stamped cfg

theorem invariant_init (cfg : SchedulerConfig) : ({} : PriorityState n).Invariant cfg where
  conserved := by
    have nothing : Custody.total (held ({} : PriorityState n)) = 0 := by
      simp [Custody.total, held, ConsumerPoint.held]
    simp [Conserved, placed, nothing]
  ordered := ⟨.nil, by simp, .nil, by simp⟩
  stamped := ⟨by simp [submitters], by simp, by simp [held, ConsumerPoint.held], by simp⟩

theorem step_invariant {action : SchedulerAction n} (invariant : st.Invariant cfg)
    (taken : st.step cfg action = some t) : t.Invariant cfg := by
  obtain ⟨conserved, ordered, stamped⟩ := invariant
  have ordered := step_ordered ordered taken
  rcases step_effect taken with ⟨item, -, arrival⟩ | ⟨-, effect⟩
  · have kept := arrival.stamped ⟨st.ticks, le_refl _, rfl⟩ stamped
    cases arrival with
    | waits same waiters => exact ⟨same.conserved conserved, ordered, kept⟩
    | appends appends waiters => exact ⟨appends.conserved conserved, ordered, kept⟩
  · exact ⟨effect.conserved conserved, ordered, effect.stamped stamped⟩

theorem run_invariant {acts : List (SchedulerAction n)}
    (run : Transition.exec (step cfg) {} acts = some st) : st.Invariant cfg :=
  Transition.exec_invariant (fun _ _ _ invariant _ taken => step_invariant invariant taken)
    (invariant_init cfg) (fun _ _ => True.intro) run

def called (st : PriorityState n) : Multiset ScheduledRequest :=
  (st.submitters : Multiset ScheduledRequest) + (st.submitted : Multiset ScheduledRequest)

theorem Appends.called {item : ScheduledRequest} (appends : st.Appends cfg t item) :
    t.called = t.submitters + st.submitted + {item} := by
  rw [PriorityState.called, appends.submitted, ← Multiset.coe_add, ← add_assoc]
  rfl

theorem Arrival.called {item : ScheduledRequest} (arrival : Arrival cfg st item t) :
    t.called = st.called + {item} := by
  cases arrival with
  | waits same waiters =>
    rw [PriorityState.called, waiters, same.submitted, ← Multiset.coe_add, add_right_comm]
    rfl
  | appends appends waiters =>
    rw [appends.called, waiters]
    rfl

theorem Effect.called (effect : Effect cfg st t) : t.called = st.called := by
  cases effect with
  | quiet same waiters => rw [PriorityState.called, waiters, same.submitted, PriorityState.called]
  | granted item appends waiters =>
    rw [appends.called, PriorityState.called, waiters, ← Multiset.cons_coe, Multiset.cons_add, add_comm,
      Multiset.singleton_add]
  | takes i queued pops held returned waiters =>
    rw [PriorityState.called, waiters, pops.submitted, PriorityState.called]
  | serves queued pops held returned waiters =>
    rw [PriorityState.called, waiters, pops.submitted, PriorityState.called]
  | returns i batch full items counter submitted ticks held returned waiters =>
    rw [PriorityState.called, waiters, submitted, PriorityState.called]

theorem run_called {acts : List (SchedulerAction n)} (run : Transition.exec (step cfg) st acts = some t) :
    t.called.map unstamped =
      st.called.map unstamped + (acts.filterMap SchedulerAction.submits? : Multiset ScheduledRequest).map unstamped := by
  induction acts generalizing st with
  | nil =>
    cases run
    simp
  | cons action acts ih =>
    obtain ⟨u, taken, rest⟩ := Transition.exec_cons_some.mp run
    rw [ih rest]
    rcases step_effect taken with ⟨item, submits, arrival⟩ | ⟨submits, effect⟩
    · rw [arrival.called, List.filterMap_cons_some submits, ← Multiset.cons_coe, Multiset.map_add,
        Multiset.map_cons, Multiset.map_singleton, add_assoc, Multiset.singleton_add]
      rfl
    · rw [effect.called, List.filterMap_cons_none submits]

theorem requestIds_congr {some other : Multiset ScheduledRequest}
    (same : some.map unstamped = other.map unstamped) :
    some.map (·.request.requestId) = other.map (·.request.requestId) := by
  have ids := congrArg (Multiset.map fun item => item.request.requestId) same
  simpa only [Multiset.map_map, Function.comp_def, unstamped] using ids

/-- A scheduler loses and duplicates nothing: each request of a `submit` call still waits for the lock or is in
    one place, once. The queue is in order of arrival, and what was returned is well formed. -/
theorem nothing_lost_or_duplicated (cfg : SchedulerConfig) {acts : List (SchedulerAction n)}
    (run : Transition.exec (step cfg) {} acts = some st) :
    let calls := acts.filterMap SchedulerAction.submits?
    ((calls : Multiset ScheduledRequest).map unstamped = st.called.map unstamped ∧ st.Conserved) ∧
    ((calls.map (·.request.requestId)).Nodup →
      (((st.submitters : Multiset ScheduledRequest) + st.placed).map (·.request.requestId)).Nodup) ∧
    (st.items.Pairwise fun earlier later => earlier.sequence < later.sequence) ∧
    (st.items.Pairwise fun earlier later => earlier.queuedAt ≤ later.queuedAt) ∧
    ∀ dispatched ∈ st.returned, dispatched.WellFormed := by
  intro calls
  obtain ⟨conserved, ordered, stamped⟩ := run_invariant run
  have taken : (calls : Multiset ScheduledRequest).map unstamped = st.called.map unstamped := by
    have grown := run_called run
    rw [grown]
    simp [called, submitters, calls]
  refine ⟨⟨taken, conserved⟩, fun distinct => ?_, ordered.sequences, ordered.arrivals, stamped.returned⟩
  have everything : (calls : Multiset ScheduledRequest).map unstamped =
      ((st.submitters : Multiset ScheduledRequest) + st.placed).map unstamped := by
    rw [taken, called, Multiset.map_add, Multiset.map_add, conserved]
  rw [← requestIds_congr everything]
  exact Multiset.coe_nodup.mpr distinct

theorem nothing_lost_or_duplicated_pair :
    ∃ st : PriorityState 2, Transition.exec (step (.ticking .py311)) {}
        [.call 0 (.batch 2 9000), .call 1 .request, .submit (.ofBody { messages := [] } "a" 0) (some 0), .wake 0,
          .collect 0, .submit (.ofBody { messages := [] } "b" 0) none, .startWait 0, .grant (some 0), .wake 0,
          .resume 0, .collect 0, .collect 0] = some st ∧
      st.returned.map (·.items.length) = [2] ∧ st.Conserved := by
  have done : (Transition.exec (step (.ticking .py311)) ({} : PriorityState 2)
      [.call 0 (.batch 2 9000), .call 1 .request, .submit (.ofBody { messages := [] } "a" 0) (some 0), .wake 0,
        .collect 0, .submit (.ofBody { messages := [] } "b" 0) none, .startWait 0, .grant (some 0), .wake 0,
        .resume 0, .collect 0, .collect 0]).map (·.returned.map (·.items.length)) = some [2] := by
    decide +kernel
  obtain ⟨st, run, lengths⟩ := Option.map_eq_some_iff.mp done
  exact ⟨st, run, lengths, (nothing_lost_or_duplicated _ run).1.2⟩

end PriorityState

end LLMRuntime
