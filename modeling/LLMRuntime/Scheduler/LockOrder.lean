import Mathlib.Data.Fintype.Basic
import LLMRuntime.Foundation.Custody
import LLMRuntime.Scheduler.Effects
import LLMRuntime.Scheduler.Lock

namespace LLMRuntime

namespace ConsumerPoint

def collects : ConsumerPoint → Bool
  | .collecting _ => true
  | _ => false

/-- Has the lock, while it runs or waits for the task that acquires or releases it. -/
def locks : ConsumerPoint → Bool
  | .collecting _ => true
  | .more _ .spawned => true
  | .more _ (.handedBack _) => true
  | _ => false

def queues : ConsumerPoint → Bool
  | .first _ .entering => true
  | .first _ .reacquiring => true
  | .more _ (.reacquiring _) => true
  | _ => false

/-- Bounds the steps that a consumer and its timer can take without an item. -/
def work : ConsumerPoint → Nat
  | .idle => 2
  | .first _ .entering => 1
  | .first _ (.parked notified) => if notified then 2 else 0
  | .first _ .reacquiring => 1
  | .collecting _ => 9
  | .more _ .spawned => 8
  | .more _ (.parked .waiting) => 7
  | .more _ (.parked .notified) => 12
  | .more _ (.parked .cancelled) => 6
  | .more _ (.reacquiring expired) => if expired then 5 else 11
  | .more _ (.handedBack expired) => if expired then 4 else 10

variable {point : ConsumerPoint}

theorem notify_spec (parked : point.unnotified = true) :
    (point.collects = false ∧ point.locks = false ∧ point.queues = false) ∧
    (point.notify.collects = false ∧ point.notify.locks = false ∧ point.notify.queues = false) ∧
      point.notify.work ≤ point.work + 5 := by
  unfold unnotified at parked
  split at parked
  · next call notified =>
    cases notified with
    | false => exact ⟨⟨rfl, rfl, rfl⟩, ⟨rfl, rfl, rfl⟩, Nat.le_of_ble_eq_true rfl⟩
    | true => cases parked
  · next batch mark =>
    have waiting : mark = .waiting := by simpa using parked
    rw [waiting]
    exact ⟨⟨rfl, rfl, rfl⟩, ⟨rfl, rfl, rfl⟩, le_refl _⟩
  · cases parked

end ConsumerPoint

namespace PriorityState

variable {n : Nat} {cfg : SchedulerConfig} {st t : PriorityState n} {i : Fin n} {point : ConsumerPoint} {budget : Nat}

/-- The consumer that runs is the one in its loop, a lock that is taken is some consumer's, and every consumer
    that waits for it is in its queue once. -/
structure LockOrder (st : PriorityState n) : Prop where
  control : ∀ i, (st.consumers i).collects = true ↔ st.running = some i
  holder : st.locked = true → ∃ i, (st.consumers i).locks = true
  queued : ∀ i, st.lockWaiters.count (.consumer i) = (st.consumers i).queues.toNat

theorem lockOrder_init : ({} : PriorityState n).LockOrder := ⟨fun _ => ⟨nofun, nofun⟩, nofun, fun _ => rfl⟩

def work (st : PriorityState n) : Nat :=
  9 * st.items.length + 15 * st.submitters.length + ∑ i, (st.consumers i).work

/-- A step uses up work, and more of it when it returns a batch. -/
def Spends (st t : PriorityState n) : Prop := t.work + t.returned.length < st.work + st.returned.length

/-- A consumer goes to `point`, with at most `budget` of work left for it. It takes the lock, or releases the one
    it had. -/
structure Shift (st t : PriorityState n) (i : Fin n) (point : ConsumerPoint) (budget : Nat) : Prop where
  consumers : t.consumers = Function.update st.consumers i point
  running : t.running = if point.collects then some i else none
  locked : t.locked = true → point.locks = true ∨ st.locked = true ∧ (st.consumers i).locks = false
  spends : 9 * t.items.length + point.work + t.returned.length ≤ 9 * st.items.length + budget + st.returned.length

theorem work_update (consumers : t.consumers = Function.update st.consumers i point) :
    ∑ j, (t.consumers j).work + (st.consumers i).work = ∑ j, (st.consumers j).work + point.work := by
  have shares : (fun j => (t.consumers j).work) = Function.update (fun j => (st.consumers j).work) i point.work := by
    rw [consumers]
    exact funext fun j => Function.apply_update (fun _ => ConsumerPoint.work) st.consumers i point j
  have changed := Custody.sum_update (fun j => (st.consumers j).work) i point.work
  rw [← shares] at changed
  exact changed

theorem Shift.spent (shift : st.Shift t i point budget) (submitters : t.submitters = st.submitters)
    (less : budget < (st.consumers i).work) : st.Spends t := by
  have changed := work_update shift.consumers
  have spends := shift.spends
  unfold Spends work
  rw [submitters]
  omega

theorem Shift.mono (shift : st.Shift t i point budget) {more : Nat} (less : budget ≤ more) :
    st.Shift t i point more := { shift with spends := by have spends := shift.spends; omega }

theorem LockOrder.alone (order : st.LockOrder) (free : st.running = none ∨ st.running = some i) {j : Fin n}
    (other : j ≠ i) : (st.consumers j).collects = false := by
  rw [Bool.eq_false_iff]
  intro collects
  have running := (order.control j).mp collects
  rcases free with free | free
  · rw [free] at running
    cases running
  · rw [free] at running
    exact other (Option.some.inj running).symm

theorem Shift.order (shift : st.Shift t i point budget) (order : st.LockOrder)
    (free : st.running = none ∨ st.running = some i)
    (waiters : ∀ j, t.lockWaiters.count (.consumer j) =
      if j = i then point.queues.toNat else st.lockWaiters.count (.consumer j)) : t.LockOrder := by
  constructor
  · intro j
    rw [shift.consumers, shift.running]
    by_cases same : j = i
    · subst same
      rw [Function.update_self]
      split
      · next collects => simp [collects]
      · next quiet => simp [quiet]
    · rw [Function.update_of_ne same, order.alone free same]
      split
      · simp [Ne.symm same]
      · simp
  · intro locked
    rw [shift.consumers]
    rcases shift.locked locked with mine | ⟨before, notMine⟩
    · exact ⟨i, by rwa [Function.update_self]⟩
    · obtain ⟨j, holds⟩ := order.holder before
      have other : j ≠ i := by
        rintro rfl
        rw [notMine] at holds
        cases holds
      exact ⟨j, by rwa [Function.update_of_ne other]⟩
  · intro j
    rw [waiters j, shift.consumers]
    by_cases same : j = i
    · subst same
      rw [if_pos rfl, Function.update_self]
    · rw [if_neg same, Function.update_of_ne same, order.queued j]

theorem Shift.order_same (shift : st.Shift t i point budget) (order : st.LockOrder)
    (free : st.running = none ∨ st.running = some i) (waiters : t.lockWaiters = st.lockWaiters)
    (outside : (st.consumers i).queues = false) (stays : point.queues = false) : t.LockOrder := by
  apply shift.order order free
  intro j
  rw [waiters]
  split
  · next same => rw [same, order.queued, outside, stays]
  · rfl

section Steps

/-- Where the lock has been acquired, or the call ends: `takeFirst`, `finish` and the like leave its queue alone. -/
theorem takeFirst_shift (cfg : SchedulerConfig) (i : Fin n) (call : Call) (free : st.running = none) :
    ∃ point, st.Shift (st.takeFirst cfg i call) i point 0 ∧ point.queues = false ∧
      (st.takeFirst cfg i call).lockWaiters = st.lockWaiters := by
  unfold takeFirst
  split
  · exact ⟨.first call (.parked false), ⟨rfl, free, nofun, le_refl _⟩, rfl, rfl⟩
  · next queued items found =>
    have length := (popNextLocked_perm found).length_eq
    rw [List.length_cons] at length
    cases call with
    | request =>
      refine ⟨.idle, ⟨rfl, free, nofun, ?_⟩, rfl, rfl⟩
      change 9 * items.length + 2 + (st.returned ++ [_]).length ≤ _
      rw [List.length_append, List.length_singleton]
      omega
    | batch maxBatchSize batchTimeoutMs =>
      refine ⟨.collecting _, ⟨rfl, rfl, fun _ => .inl rfl, ?_⟩, rfl, rfl⟩
      change 9 * items.length + 9 + st.returned.length ≤ _
      omega

theorem finish_shift (st : PriorityState n) (ticks : Nat) (i : Fin n) (batch : PartialBatch) :
    st.Shift ({ st with ticks }.finish cfg i batch) i .idle 3 := by
  refine ⟨rfl, rfl, nofun, ?_⟩
  change 9 * st.items.length + 2 + (st.returned ++ [_]).length ≤ _
  rw [List.length_append, List.length_singleton]
  omega

theorem continueBatch_shift (cfg : SchedulerConfig) (st : PriorityState n) (i : Fin n) (batch : PartialBatch)
    (expired : Bool) : ∃ point, st.Shift (st.continueBatch cfg i batch expired) i point (if expired then 3 else 9) ∧
      point.queues = false ∧ (st.continueBatch cfg i batch expired).lockWaiters = st.lockWaiters := by
  cases expired with
  | true => exact ⟨.idle, finish_shift st st.ticks i batch, rfl, rfl⟩
  | false => exact ⟨.collecting batch, ⟨rfl, rfl, fun _ => .inl rfl, le_refl _⟩, rfl, rfl⟩

theorem rejoin_shift (cfg : SchedulerConfig) (i : Fin n) (batch : PartialBatch) (expired : Bool)
    (free : st.running = none) :
    ∃ point, st.Shift (st.rejoin cfg i batch expired) i point (if expired then 4 else 10) ∧
      point.queues = false ∧ (st.rejoin cfg i batch expired).lockWaiters = st.lockWaiters := by
  unfold rejoin
  cases cfg.version with
  | py311 => exact ⟨.more batch (.handedBack expired), ⟨rfl, free, fun _ => .inl rfl, le_refl _⟩, rfl, rfl⟩
  | py312 =>
    obtain ⟨point, shift, outside, waiters⟩ := continueBatch_shift cfg st i batch expired
    refine ⟨point, shift.mono ?_, outside, waiters⟩
    cases expired <;> decide

theorem acquired_shift (st : PriorityState n) (free : st.running = none) (taken : st.acquired cfg i = some t) :
    (∃ point budget, st.Shift t i point budget ∧ budget < (st.consumers i).work ∧ point.queues = false) ∧
      t.lockWaiters = st.lockWaiters := by
  unfold acquired at taken
  split at taken
  · next call here =>
    cases taken
    obtain ⟨point, shift, outside, waiters⟩ := takeFirst_shift cfg i call free
    refine ⟨⟨point, 0, shift, ?_, outside⟩, waiters⟩
    rw [here]
    exact Nat.one_pos
  · next call here =>
    cases taken
    obtain ⟨point, shift, outside, waiters⟩ := takeFirst_shift cfg i call free
    refine ⟨⟨point, 0, shift, ?_, outside⟩, waiters⟩
    rw [here]
    exact Nat.one_pos
  · next batch expired here =>
    cases taken
    obtain ⟨point, shift, outside, waiters⟩ := rejoin_shift cfg i batch expired free
    refine ⟨⟨point, _, shift, ?_, outside⟩, waiters⟩
    rw [here]
    cases expired with
    | true => exact Nat.lt_succ_self 4
    | false => exact Nat.lt_succ_self 10
  · cases taken

theorem queueFor_shift (free : st.running = none) (outside : (st.consumers i).locks = false)
    (quiet : point.collects = false) : st.Shift (st.queueFor i point) i point point.work := by
  refine ⟨rfl, ?_, fun locked => .inr ⟨locked, outside⟩, le_refl _⟩
  rw [quiet]
  exact free

theorem count_append_consumer (waiters : List (LockWaiter n)) (i j : Fin n) :
    List.count (LockWaiter.consumer j) (waiters ++ [LockWaiter.consumer i]) =
      waiters.count (.consumer j) + if j = i then 1 else 0 := by
  rw [List.count_append, List.count_singleton]
  by_cases same : j = i
  · simp [same]
  · simp [same, Ne.symm same]

theorem queueFor_order (order : st.LockOrder) (free : st.running = none) (before : (st.consumers i).queues = false)
    (outside : (st.consumers i).locks = false) (quiet : point.collects = false) (queues : point.queues = true) :
    (st.queueFor i point).LockOrder := by
  apply (queueFor_shift free outside quiet).order order (.inl free)
  intro j
  change List.count (LockWaiter.consumer j) (st.lockWaiters ++ [LockWaiter.consumer i]) = _
  rw [count_append_consumer]
  split
  · next same => rw [same, order.queued, before, queues]; rfl
  · rfl

theorem Shift.done (shift : st.Shift t i point budget) (order : st.LockOrder)
    (free : st.running = none ∨ st.running = some i) (waiters : t.lockWaiters = st.lockWaiters)
    (outside : (st.consumers i).queues = false) (stays : point.queues = false)
    (less : budget < (st.consumers i).work) : t.LockOrder ∧ st.Spends t := by
  refine ⟨shift.order_same order free waiters outside stays, shift.spent ?_ less⟩
  rw [submitters, submitters, waiters]

theorem queueFor_done (order : st.LockOrder) (free : st.running = none) (before : (st.consumers i).queues = false)
    (outside : (st.consumers i).locks = false) (quiet : point.collects = false) (queues : point.queues = true)
    (less : point.work < (st.consumers i).work) : (st.queueFor i point).LockOrder ∧ st.Spends (st.queueFor i point) :=
  ⟨queueFor_order order free before outside quiet queues,
    (queueFor_shift free outside quiet).spent submitters_queueFor less⟩

theorem call_order {call : Call} (order : st.LockOrder) (free : st.running = none)
    (taken : st.call cfg i call = some t) : t.LockOrder ∧ st.Spends t := by
  unfold PriorityState.call at taken
  split at taken
  · next here =>
    have outside : (st.consumers i).queues = false ∧ (st.consumers i).locks = false ∧ (st.consumers i).work = 2 := by
      rw [here]
      exact ⟨rfl, rfl, rfl⟩
    split at taken
    · cases taken
      obtain ⟨point, shift, stays, waiters⟩ := takeFirst_shift cfg i call free
      exact shift.done order (.inl free) waiters outside.1 stays (by omega)
    · cases taken
      refine queueFor_done order free outside.1 outside.2.1 rfl rfl ?_
      rw [outside.2.2]
      exact Nat.lt_succ_self 1
  · cases taken

theorem wake_order (order : st.LockOrder) (free : st.running = none) (taken : st.wake cfg i = some t) :
    t.LockOrder ∧ st.Spends t := by
  unfold wake at taken
  split at taken
  · next call here =>
    have outside : (st.consumers i).queues = false ∧ (st.consumers i).locks = false ∧ (st.consumers i).work = 2 := by
      rw [here]
      exact ⟨rfl, rfl, rfl⟩
    split at taken
    · cases taken
      obtain ⟨point, shift, stays, waiters⟩ := takeFirst_shift cfg i call free
      exact shift.done order (.inl free) waiters outside.1 stays (by omega)
    · cases taken
      refine queueFor_done order free outside.1 outside.2.1 rfl rfl ?_
      rw [outside.2.2]
      exact Nat.lt_succ_self 1
  · cases taken
  · next batch mark awake here =>
    have outside : (st.consumers i).queues = false ∧ (st.consumers i).locks = false := by
      rw [here]
      exact ⟨rfl, rfl⟩
    have room : (if mark == .cancelled then 5 else 11) < (st.consumers i).work := by
      rw [here]
      cases mark with
      | waiting => exact absurd rfl awake
      | notified => exact Nat.lt_succ_self 11
      | cancelled => exact Nat.lt_succ_self 5
    dsimp only at taken
    split at taken
    · cases taken
      obtain ⟨point, shift, stays, waiters⟩ := rejoin_shift cfg i batch (mark == .cancelled) free
      refine shift.done order (.inl free) waiters outside.1 stays (lt_trans ?_ room)
      split <;> decide
    · cases taken
      exact queueFor_done order free outside.1 outside.2 rfl rfl room
  · cases taken

theorem resume_order (order : st.LockOrder) (free : st.running = none) (taken : st.resume cfg i = some t) :
    t.LockOrder ∧ st.Spends t := by
  unfold resume at taken
  split at taken
  · next batch expired here =>
    cases taken
    obtain ⟨point, shift, stays, waiters⟩ := continueBatch_shift cfg st i batch expired
    refine shift.done order (.inl free) waiters (by rw [here]; rfl) stays ?_
    rw [here]
    cases expired with
    | true => exact Nat.lt_succ_self 3
    | false => exact Nat.lt_succ_self 9
  · cases taken

theorem startWait_order (order : st.LockOrder) (free : st.running = none) (taken : st.startWait i = some t) :
    t.LockOrder ∧ st.Spends t := by
  unfold startWait at taken
  split at taken
  · next batch here =>
    cases taken
    have shift : st.Shift ({ st with locked := false }.setPoint i (.more batch (.parked .waiting))) i
        (.more batch (.parked .waiting)) 7 := ⟨rfl, free, nofun, le_refl _⟩
    refine shift.done order (.inl free) rfl (by rw [here]; rfl) rfl ?_
    rw [here]
    exact Nat.lt_succ_self 7
  · cases taken

/-- A waiter for the lock that is cancelled goes to the end of the queue. -/
theorem expire_order (order : st.LockOrder) (free : st.running = none) (taken : st.expire i = some t) :
    t.LockOrder ∧ st.Spends t := by
  unfold expire at taken
  split at taken
  · cases taken
  · next batch mark others here =>
    cases taken
    have shift : st.Shift (st.setPoint i (.more batch (.parked .cancelled))) i (.more batch (.parked .cancelled)) 6 := by
      refine ⟨rfl, free, fun locked => .inr ⟨locked, ?_⟩, le_refl _⟩
      rw [here]
      rfl
    refine shift.done order (.inl free) rfl (by rw [here]; rfl) rfl ?_
    rw [here]
    cases mark with
    | waiting => exact Nat.lt_succ_self 6
    | notified =>
      change 6 < 12
      omega
    | cancelled => exact absurd rfl others
  · next batch here =>
    cases taken
    have shift : st.Shift ({ st with lockWaiters := st.lockWaiters.erase (.consumer i) }.queueFor i
        (.more batch (.reacquiring true))) i (.more batch (.reacquiring true)) 5 := by
      refine ⟨rfl, free, fun locked => .inr ⟨locked, ?_⟩, le_refl _⟩
      rw [here]
      rfl
    constructor
    · apply shift.order order (.inl free)
      intro j
      change List.count (LockWaiter.consumer j) (st.lockWaiters.erase (.consumer i) ++ [.consumer i]) = _
      rw [count_append_consumer]
      split
      · next same =>
        have once := order.queued i
        rw [here] at once
        rw [same, List.count_erase_self, once]
        rfl
      · next other =>
        have apart : LockWaiter.consumer j ≠ LockWaiter.consumer i := fun same => other (LockWaiter.consumer.inj same)
        exact List.count_erase_of_ne apart
    · refine shift.spent (submitters_queueFor.trans (filterMap_erase_consumer st.lockWaiters)) ?_
      rw [here]
      change 5 < 11
      omega
  · cases taken

theorem waitForMore_shift (cfg : SchedulerConfig) (st : PriorityState n) (i : Fin n) (batch : PartialBatch) :
    ∃ point, st.Shift (st.waitForMore cfg i batch) i point 8 ∧ point.queues = false ∧
      (st.waitForMore cfg i batch).lockWaiters = st.lockWaiters := by
  unfold waitForMore
  cases cfg.version with
  | py311 => exact ⟨.more batch .spawned, ⟨rfl, rfl, fun _ => .inl rfl, le_refl _⟩, rfl, rfl⟩
  | py312 =>
    have shift : st.Shift ({ st with running := none, locked := false }.setPoint i (.more batch (.parked .waiting))) i
        (.more batch (.parked .waiting)) 7 := ⟨rfl, rfl, nofun, le_refl _⟩
    exact ⟨.more batch (.parked .waiting), shift.mono (Nat.le_succ 7), rfl, rfl⟩

theorem collect_order (order : st.LockOrder) (running : st.running = some i) (taken : st.collect cfg i = some t) :
    t.LockOrder ∧ st.Spends t := by
  have reached {batch : PartialBatch} (here : st.consumers i = .collecting batch) {point : ConsumerPoint}
      (shift : st.Shift t i point 8) (stays : point.queues = false) (waiters : t.lockWaiters = st.lockWaiters) :
      t.LockOrder ∧ st.Spends t := by
    refine shift.done order (.inr running) waiters (by rw [here]; rfl) stays ?_
    rw [here]
    exact Nat.lt_succ_self 8
  unfold collect at taken
  split at taken
  · next batch here =>
    split at taken
    · next room =>
      split at taken
      · next queued items found =>
        cases taken
        have length := (popNextLocked_perm found).length_eq
        rw [List.length_cons] at length
        have shift : st.Shift ({ st with ticks := st.ticks + 1, items }.setPoint i
            (.collecting (batch.push queued.item room))) i (.collecting (batch.push queued.item room)) 8 := by
          refine ⟨rfl, running, fun _ => .inl rfl, ?_⟩
          change 9 * items.length + 9 + st.returned.length ≤ _
          omega
        exact reached here shift rfl rfl
      · split at taken
        · cases taken
          exact reached here ((finish_shift st st.ticks i batch).mono (by decide)) rfl rfl
        · dsimp only at taken
          split at taken
          · cases taken
            exact reached here ((finish_shift st (st.ticks + 1) i batch).mono (by decide)) rfl rfl
          · cases taken
            obtain ⟨point, shift, stays, waiters⟩ := waitForMore_shift cfg { st with ticks := st.ticks + 1 } i batch
            have moved : st.Shift (waitForMore cfg { st with ticks := st.ticks + 1 } i batch) i point 8 :=
              ⟨shift.consumers, shift.running, shift.locked, shift.spends⟩
            exact reached here moved stays waiters
    · cases taken
      exact reached here ((finish_shift st st.ticks i batch).mono (by decide)) rfl rfl
  · cases taken

theorem notify_order (st : PriorityState n) {wakes : Option (Fin n)} (order : st.LockOrder) (free : st.running = none)
    (allowed : st.CanNotify wakes) : (st.notify wakes).LockOrder ∧
      ∑ i, ((st.notify wakes).consumers i).work ≤ ∑ i, (st.consumers i).work + 5 := by
  cases wakes with
  | none => exact ⟨order, Nat.le_add_right _ _⟩
  | some i =>
    obtain ⟨before, after, work⟩ := ConsumerPoint.notify_spec allowed
    have shift : st.Shift (st.setPoint i (st.consumers i).notify) i (st.consumers i).notify
        (st.consumers i).notify.work := by
      refine ⟨rfl, ?_, fun locked => .inr ⟨locked, before.2.1⟩, le_refl _⟩
      rw [after.1]
      exact free
    have changed := work_update shift.consumers
    refine ⟨shift.order_same order (.inl free) rfl before.2.2 after.2.2, ?_⟩
    change ∑ j, ((st.setPoint i (st.consumers i).notify).consumers j).work ≤ _
    omega

theorem append_order {item : ScheduledRequest} {wakes : Option (Fin n)} (order : st.LockOrder)
    (free : st.running = none) (taken : st.append cfg item wakes = some t) :
    t.LockOrder ∧ t.work + t.returned.length ≤ st.work + st.returned.length + 14 := by
  have submitters := (append_appends taken).2
  obtain ⟨⟨tick, -, -, items⟩, -, -, returned, -⟩ := (append_appends taken).1
  unfold append at taken
  split at taken
  · next allowed =>
    have notified := Option.some.inj taken
    obtain ⟨kept, work⟩ := notify_order
      { st with
        ticks := st.ticks + 1
        counter := st.counter + 1
        items := st.items ++ [{ priority := item.request.priority, sequence := st.counter + 1
                                queuedAt := cfg.timeFn.reading st.ticks, item }]
        submitted := st.submitted ++ [item] } ⟨order.control, order.holder, order.queued⟩ free allowed
    rw [notified] at kept work
    refine ⟨kept, ?_⟩
    have length : t.items.length = st.items.length + 1 := by
      rw [items, List.length_append]
      rfl
    unfold PriorityState.work
    rw [submitters, returned, length]
    change ∑ j, (t.consumers j).work ≤ ∑ j, (st.consumers j).work + 5 at work
    omega
  · cases taken

theorem submit_order {item : ScheduledRequest} {wakes : Option (Fin n)} (order : st.LockOrder)
    (free : st.running = none) (taken : st.submit cfg item wakes = some t) :
    t.LockOrder ∧ t.work + t.returned.length ≤ st.work + st.returned.length + 15 := by
  unfold submit at taken
  dsimp only at taken
  split at taken
  · have ticked : ({ st with ticks := st.ticks + 1 } : PriorityState n).LockOrder :=
      ⟨order.control, order.holder, order.queued⟩
    obtain ⟨later, work⟩ := append_order ticked free taken
    exact ⟨later, le_trans work (Nat.le_succ _)⟩
  · cases taken
    constructor
    · refine ⟨order.control, order.holder, fun i => ?_⟩
      rw [← order.queued i]
      exact List.count_append.trans (Nat.add_zero _)
    · unfold PriorityState.work submitters
      rw [List.filterMap_append, List.length_append]
      change 9 * st.items.length + 15 * (_ + 1) + ∑ j, (st.consumers j).work + st.returned.length ≤ _
      omega

/-- A submitter pays for the item it appends and for the consumer it wakes. -/
theorem grant_order {wakes : Option (Fin n)} (order : st.LockOrder) (free : st.running = none)
    (taken : st.grant cfg wakes = some t) : t.LockOrder ∧ st.Spends t := by
  unfold grant at taken
  split at taken
  · cases taken
  · next unlocked =>
    split at taken
    · cases taken
    · next item rest queue =>
      have kept : ({ st with lockWaiters := rest } : PriorityState n).LockOrder := by
        refine ⟨order.control, order.holder, fun i => ?_⟩
        have apart : LockWaiter.submitter item ≠ LockWaiter.consumer i := nofun
        rw [← order.queued i, queue]
        exact (List.count_cons_of_ne apart).symm
      obtain ⟨later, work⟩ := append_order kept free taken
      refine ⟨later, ?_⟩
      have paid : st.work = ({ st with lockWaiters := rest } : PriorityState n).work + 15 := by
        have length : st.submitters.length = (rest.filterMap LockWaiter.item?).length + 1 := by
          rw [submitters, queue]
          rfl
        change _ = 9 * st.items.length + 15 * (rest.filterMap LockWaiter.item?).length +
          ∑ j, (st.consumers j).work + 15
        rw [PriorityState.work, length]
        omega
      unfold Spends
      change t.work + _ ≤ _ + st.returned.length + 14 at work
      omega
    · next i rest queue =>
      obtain ⟨⟨point, budget, shift, less, stays⟩, waiters⟩ := acquired_shift { st with lockWaiters := rest } free taken
      have moved : st.Shift t i point budget := ⟨shift.consumers, shift.running, shift.locked, shift.spends⟩
      constructor
      · apply moved.order order (.inl free)
        intro j
        rw [waiters]
        change List.count (LockWaiter.consumer j) rest = _
        split
        · next same =>
          subst same
          have once := order.queued j
          rw [queue, List.count_cons_self] at once
          have atMostOne := Bool.toNat_le (st.consumers j).queues
          rw [stays, Bool.toNat_false]
          omega
        · next other =>
          have apart : LockWaiter.consumer i ≠ LockWaiter.consumer j := fun same => other (LockWaiter.consumer.inj same).symm
          rw [queue, List.count_cons_of_ne apart]
      · refine moved.spent ?_ less
        rw [submitters, submitters, waiters, queue]
        rfl

theorem step_order {action : SchedulerAction n} (order : st.LockOrder) (taken : st.step cfg action = some t) :
    t.LockOrder ∧ (action.submits? = none → st.Spends t) := by
  rcases step_cases taken with ⟨free, moved⟩ | ⟨i, running, rfl, moved⟩
  · cases action with
    | submit item wakes => exact ⟨(submit_order order free moved).1, nofun⟩
    | call i call => exact (call_order order free moved).imp_right fun spent _ => spent
    | grant wakes => exact (grant_order order free moved).imp_right fun spent _ => spent
    | wake i => exact (wake_order order free moved).imp_right fun spent _ => spent
    | expire i => exact (expire_order order free moved).imp_right fun spent _ => spent
    | startWait i => exact (startWait_order order free moved).imp_right fun spent _ => spent
    | resume i => exact (resume_order order free moved).imp_right fun spent _ => spent
    | collect i => cases moved
  · exact (collect_order order running moved).imp_right fun spent _ => spent

theorem step_paid {action : SchedulerAction n} {item : ScheduledRequest} (order : st.LockOrder)
    (submits : action.submits? = some item) (taken : st.step cfg action = some t) :
    t.work + t.returned.length ≤ st.work + st.returned.length + 15 := by
  rcases step_cases taken with ⟨free, moved⟩ | ⟨i, running, rfl, moved⟩
  · cases action with
    | submit item wakes => exact (submit_order order free moved).2
    | _ => cases submits
  · cases submits

end Steps

end PriorityState

end LLMRuntime
