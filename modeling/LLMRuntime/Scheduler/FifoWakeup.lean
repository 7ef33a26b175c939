import Mathlib.Data.Fintype.Basic
import LLMRuntime.Foundation.Quiescence
import LLMRuntime.Foundation.Wakeups
import LLMRuntime.Scheduler.FifoModel

namespace LLMRuntime

open Transition

/-- What can happen to a `FIFOScheduler`: a step of the event loop, or `CancelledError` raised in a consumer that
    is suspended in its call. -/
inductive FifoMove (n : Nat) where
  | act (action : FifoAction n)
  | interrupt (i : Fin n) (wakes : Option (Fin n))
  deriving DecidableEq, Repr

/-- A step of a task that is ready to run. The others wait for a caller or for a timer. -/
def FifoAction.ready {n : Nat} : FifoAction n → Bool
  | .wake _ _ => true
  | .startGet _ => true
  | .resume _ => true
  | .collect _ => true
  | _ => false

namespace FifoPoint

def collects : FifoPoint → Bool
  | .collecting _ => true
  | _ => false

/-- Bounds the steps that a consumer and its timer can take without an item. -/
def work : FifoPoint → Nat
  | .idle => 1
  | .first _ notified => if notified then 1 else 0
  | .collecting _ => 7
  | .more _ _ .spawned => 6
  | .more _ _ (.handedBack item) => if item.isSome then 8 else 3
  | .more _ _ (.parked .waiting) => 5
  | .more _ _ (.parked .notified) => 6
  | .more _ _ (.parked (.cancelled notifiedBefore)) => if notifiedBefore then 5 else 4

variable {point : FifoPoint}

theorem not_woken_of_unnotified (asleep : point.unnotified = true) : point.woken = false := by
  unfold unnotified at asleep
  split at asleep
  · next call notified =>
    cases notified with
    | false => rfl
    | true => cases asleep
  · next batch room mark =>
    have waiting : mark = .waiting := by simpa using asleep
    rw [waiting]
    rfl
  · cases asleep

/-- What the first un-notified getter is after `_wakeup_next`. -/
theorem notify_spec (asleep : point.unnotified = true) : point.notify.unnotified = false ∧
    point.notify.woken = true ∧ point.notify.collects = false ∧ point.notify.work = point.work + 1 := by
  unfold unnotified at asleep
  split at asleep
  · next call notified =>
    cases notified with
    | false => exact ⟨rfl, rfl, rfl, rfl⟩
    | true => cases asleep
  · next batch room mark =>
    have waiting : mark = .waiting := by simpa using asleep
    rw [waiting]
    exact ⟨rfl, rfl, rfl, rfl⟩
  · cases asleep

end FifoPoint

namespace FifoState

variable {n : Nat} (version : PythonVersion) (clock : Clock) (st : FifoState n)

/-- A `wait_for` that has its result returns it when it is cancelled, and nothing is raised. -/
def move : FifoMove n → Option (FifoState n)
  | .act action => st.step version clock action
  | .interrupt i wakes => if st.running.isNone && !st.swallows version i then st.interrupt i wakes else none

/-- While some getter is parked un-notified, no more items are queued than notified getters are still to run. -/
def NoLostWakeup : Prop :=
  Wakeups.Covered FifoPoint.unnotified FifoPoint.woken st.consumers st.queue.length

/-- The consumer that runs is the one in its loop. -/
def Control : Prop := ∀ i, (st.consumers i).collects = true ↔ st.running = some i

structure Live : Prop where
  control : st.Control
  wakeups : st.NoLostWakeup

def work : Nat := 8 * st.queue.length + ∑ i, (st.consumers i).work

/-- A step uses up work, and more of it when it returns a batch. -/
def Spends (t : FifoState n) : Prop := t.work + t.returned.length < st.work + st.returned.length

/-- A consumer goes to `point`, with at most `budget` of work left for it. -/
structure Shift (t : FifoState n) (i : Fin n) (point : FifoPoint) (budget : Nat) : Prop where
  consumers : t.consumers = Function.update st.consumers i point
  running : t.running = if point.collects then some i else none
  cover : t.queue.length = 0 ∨ point.unnotified = false ∧
    t.queue.length + Wakeups.share FifoPoint.woken (st.consumers i) ≤
      st.queue.length + Wakeups.share FifoPoint.woken point
  spends : 8 * t.queue.length + point.work + t.returned.length ≤ 8 * st.queue.length + budget + st.returned.length

variable {version clock st} {t : FifoState n} {i : Fin n} {point : FifoPoint} {budget : Nat}

theorem live_init : ({} : FifoState n).Live :=
  ⟨fun _ => ⟨nofun, nofun⟩, Wakeups.covered_of_empty _⟩

theorem Control.alone (control : st.Control) (free : st.running = none ∨ st.running = some i) {j : Fin n}
    (other : j ≠ i) : (st.consumers j).collects = false := by
  rw [Bool.eq_false_iff]
  intro collects
  have running := (control j).mp collects
  rcases free with free | free
  · rw [free] at running
    cases running
  · rw [free] at running
    exact other (Option.some.inj running).symm

theorem Control.update (control : st.Control) (free : st.running = none ∨ st.running = some i)
    (consumers : t.consumers = Function.update st.consumers i point)
    (running : t.running = if point.collects then some i else none) : t.Control := by
  intro j
  rw [consumers, running]
  by_cases same : j = i
  · subst same
    rw [Function.update_self]
    split
    · next collects => simp [collects]
    · next quiet => simp [quiet]
  · rw [Function.update_of_ne same, control.alone free same]
    split
    · simp [Ne.symm same]
    · simp

theorem work_update (consumers : t.consumers = Function.update st.consumers i point) :
    t.work + (8 * st.queue.length + (st.consumers i).work) = st.work + (8 * t.queue.length + point.work) := by
  have shares : (fun j => (t.consumers j).work) = Function.update (fun j => (st.consumers j).work) i point.work := by
    rw [consumers]
    exact funext fun j => Function.apply_update (fun _ => FifoPoint.work) st.consumers i point j
  have changed := Custody.sum_update (fun j => (st.consumers j).work) i point.work
  rw [← shares] at changed
  beta_reduce at changed
  unfold work
  omega

theorem Shift.live (shift : st.Shift t i point budget) (live : st.Live)
    (free : st.running = none ∨ st.running = some i) : t.Live := by
  refine ⟨live.control.update free shift.consumers shift.running, ?_⟩
  unfold NoLostWakeup
  rw [shift.consumers]
  rcases shift.cover with empty | ⟨awake, balance⟩
  · rw [empty]
    exact Wakeups.covered_of_empty _
  · exact live.wakeups.move awake balance

theorem Shift.spent (shift : st.Shift t i point budget) (less : budget < (st.consumers i).work) : st.Spends t := by
  have changed := work_update shift.consumers
  have spends := shift.spends
  unfold Spends
  omega

theorem wakeupNext_cases {wakes : Option (Fin n)} (taken : st.wakeupNext wakes = some t) :
    (t = st ∧ ∀ i, (st.consumers i).unnotified = false) ∨
    ∃ i, (st.consumers i).unnotified = true ∧ t = st.setPoint i (st.consumers i).notify := by
  unfold wakeupNext at taken
  split at taken
  · next allowed =>
    cases taken
    cases wakes with
    | none => exact .inl ⟨rfl, allowed⟩
    | some i => exact .inr ⟨i, allowed, rfl⟩
  · cases taken

/-- The getter that is notified pays for the item that another one left behind, or that was just put. -/
theorem wakeupNext_live {wakes : Option (Fin n)} (control : st.Control) (free : st.running = none)
    (covered : Wakeups.Covered FifoPoint.unnotified FifoPoint.woken st.consumers (st.queue.length - 1))
    (taken : st.wakeupNext wakes = some t) : t.Live ∧ t.work ≤ st.work + 1 ∧ t.returned = st.returned := by
  rcases wakeupNext_cases taken with ⟨rfl, nobody⟩ | ⟨i, asleep, rfl⟩
  · exact ⟨⟨control, Wakeups.covered_of_nobody nobody _⟩, Nat.le_add_right _ _, rfl⟩
  · obtain ⟨awake, notified, quiet, work⟩ := FifoPoint.notify_spec asleep
    have running : st.running = if (st.consumers i).notify.collects then some i else none := by
      rw [quiet]
      exact free
    have changed : (st.setPoint i (st.consumers i).notify).work + _ = st.work + _ := work_update (i := i) rfl
    refine ⟨⟨control.update (.inl free) rfl running, ?_⟩, ?_, rfl⟩
    · exact covered.notify (FifoPoint.not_woken_of_unnotified asleep) awake notified
    · change _ + (8 * st.queue.length + _) = _ + (8 * st.queue.length + _) at changed
      omega

section Tasks

theorem finish_returns (st : FifoState n) (i : Fin n) (batch : PartialBatch) :
    (st.finish clock i batch).returned.length = st.returned.length + 1 := List.length_append

theorem finish_shift {batch : PartialBatch} (ticks : Nat) (asleep : (st.consumers i).woken = false) :
    st.Shift ({ st with ticks }.finish clock i batch) i .idle 2 := by
  refine ⟨rfl, rfl, .inr ⟨rfl, ?_⟩, ?_⟩
  · rw [Wakeups.share_of_not_woken asleep]
    exact Nat.le_add_right _ _
  · rw [finish_returns]
    change 8 * st.queue.length + 1 + (st.returned.length + 1) ≤ 8 * st.queue.length + 2 + st.returned.length
    omega

/-- An item for what may have been a wakeup. -/
theorem shift_takes {item : ScheduledRequest} (consumers : t.consumers = Function.update st.consumers i point)
    (running : t.running = if point.collects then some i else none) (queued : st.queue = item :: t.queue)
    (awake : point.unnotified = false) (weight : point.work + t.returned.length ≤ st.returned.length + 8) :
    st.Shift t i point 0 := by
  have length := congrArg List.length queued
  rw [List.length_cons] at length
  refine ⟨consumers, running, .inr ⟨awake, ?_⟩, ?_⟩
  · have atMostOne := Wakeups.share_le FifoPoint.woken (st.consumers i)
    omega
  · omega

theorem Shift.mono (shift : st.Shift t i point budget) {more : Nat} (less : budget ≤ more) :
    st.Shift t i point more := { shift with spends := by have spends := shift.spends; omega }

theorem takeFirst_shift (clock : Clock) (i : Fin n) (call : Call) (free : st.running = none) :
    ∃ point, st.Shift (st.takeFirst clock i call) i point 0 := by
  unfold takeFirst
  split
  · next empty =>
    refine ⟨.first call false, rfl, free, .inl ?_, ?_⟩
    · exact congrArg List.length empty
    · exact le_refl _
  · next item queue queued =>
    cases call with
    | request =>
      refine ⟨.idle, shift_takes rfl free queued rfl ?_⟩
      change 1 + (st.returned ++ [_]).length ≤ _
      rw [List.length_append, List.length_singleton]
      omega
    | batch maxBatchSize batchTimeoutMs =>
      refine ⟨.collecting _, shift_takes rfl rfl queued rfl ?_⟩
      change 7 + st.returned.length ≤ _
      omega

variable {batch : PartialBatch} {room : (batch.items.length : Int) < batch.maxBatchSize}

theorem takeMore_shift (version : PythonVersion) (i : Fin n) (room : (batch.items.length : Int) < batch.maxBatchSize)
    (free : st.running = none) :
    ∃ point, st.Shift (st.takeMore version i batch room) i point 5 := by
  unfold takeMore
  split
  · next empty =>
    refine ⟨.more batch room (.parked .waiting), rfl, free, .inl ?_, ?_⟩
    · exact congrArg List.length empty
    · exact le_refl _
  · next item queue queued =>
    cases version with
    | py311 =>
      refine ⟨.more batch room (.handedBack (some item)), Shift.mono (shift_takes rfl free queued rfl ?_) (Nat.zero_le _)⟩
      change 8 + st.returned.length ≤ _
      omega
    | py312 =>
      refine ⟨.collecting (batch.push item room), Shift.mono (shift_takes rfl rfl queued rfl ?_) (Nat.zero_le _)⟩
      change 7 + st.returned.length ≤ _
      omega

theorem extend_shift {item : ScheduledRequest} (here : st.consumers i = .more batch room (.handedBack (some item))) :
    st.Shift (st.extend i batch room item) i (.collecting (batch.push item room)) 7 := by
  refine ⟨rfl, rfl, .inr ⟨rfl, ?_⟩, le_refl _⟩
  rw [here]
  exact le_refl _

/-- A getter that ends leaves its wakeup, if it had one and an item is there, to the next. -/
theorem handsOn_live {wakes : Option (Fin n)} {ended : FifoState n} (live : st.Live) (free : st.running = none)
    (consumers : ended.consumers = Function.update st.consumers i point) (running : ended.running = none)
    (queue : ended.queue = st.queue) (awake : point.unnotified = false) (quiet : point.collects = false)
    (taken : ended.wakeupNext wakes = some t) :
    t.Live ∧ t.work + (st.consumers i).work + t.returned.length ≤
      st.work + point.work + ended.returned.length + 1 := by
  have stopped : ended.running = if point.collects then some i else none := by
    rw [running, quiet]
    rfl
  have control := live.control.update (.inl free) consumers stopped
  have covered : Wakeups.Covered FifoPoint.unnotified FifoPoint.woken ended.consumers (ended.queue.length - 1) := by
    rw [consumers, queue]
    exact live.wakeups.leave awake
  obtain ⟨lives, work, returned⟩ := wakeupNext_live control running covered taken
  have changed := work_update consumers
  rw [queue] at changed
  rw [returned]
  exact ⟨lives, by omega⟩

theorem quits_live {wakes : Option (Fin n)} {ended : FifoState n} (live : st.Live) (free : st.running = none)
    (taken : (if (st.consumers i).woken && !st.queue.isEmpty then ended.wakeupNext wakes else some ended) = some t)
    (consumers : ended.consumers = Function.update st.consumers i point) (running : ended.running = none)
    (queue : ended.queue = st.queue) (awake : point.unnotified = false) (quiet : point.collects = false) :
    t.Live ∧ t.work + (st.consumers i).work + t.returned.length ≤
      st.work + point.work + ended.returned.length + if (st.consumers i).woken then 1 else 0 := by
  split at taken
  · next both =>
    rw [Bool.and_eq_true] at both
    rw [both.1]
    exact handsOn_live live free consumers running queue awake quiet taken
  · next neither =>
    cases taken
    have lives : t.Live := by
      have stopped : t.running = if point.collects then some i else none := by
        rw [running, quiet]
        rfl
      refine ⟨live.control.update (.inl free) consumers stopped, ?_⟩
      unfold NoLostWakeup
      rw [consumers, queue]
      cases woken : (st.consumers i).woken with
      | true =>
        rw [woken, Bool.true_and, Bool.not_eq_true, Bool.not_eq_false', List.isEmpty_iff] at neither
        rw [neither]
        exact Wakeups.covered_of_empty _
      | false =>
        refine live.wakeups.move awake ?_
        rw [Wakeups.share_of_not_woken woken]
        exact Nat.le_add_right _ _
    have changed := work_update consumers
    rw [queue] at changed
    exact ⟨lives, by omega⟩

theorem abandon_live {notifiedBefore : Bool} {wakes : Option (Fin n)} (live : st.Live) (free : st.running = none)
    (here : st.consumers i = .more batch room (.parked (.cancelled notifiedBefore)))
    (taken : st.abandon version clock i batch room notifiedBefore wakes = some t) : t.Live ∧ st.Spends t := by
  have woken : (st.consumers i).woken = notifiedBefore := by
    rw [here]
    cases notifiedBefore <;> rfl
  have weight : (st.consumers i).work = if notifiedBefore then 5 else 4 := by
    rw [here]
    rfl
  unfold abandon at taken
  rw [← woken] at taken
  unfold Spends
  cases version with
  | py311 =>
    dsimp only at taken
    obtain ⟨lives, work⟩ := quits_live live free taken rfl free rfl rfl rfl
    refine ⟨lives, ?_⟩
    rw [woken, weight] at work
    change _ ≤ st.work + 3 + st.returned.length + _ at work
    cases notifiedBefore <;> simp only [Bool.false_eq_true, if_true, if_false] at work <;> omega
  | py312 =>
    dsimp only at taken
    obtain ⟨lives, work⟩ := quits_live live free taken rfl rfl rfl rfl rfl
    refine ⟨lives, ?_⟩
    rw [woken, weight, finish_returns] at work
    change _ ≤ st.work + 1 + (st.returned.length + 1) + _ at work
    cases notifiedBefore <;> simp only [Bool.false_eq_true, if_true, if_false] at work <;> omega

theorem waitForMore_shift (version : PythonVersion) (room : (batch.items.length : Int) < batch.maxBatchSize)
    (free : (st.consumers i).woken = false) :
    ∃ point, st.Shift (st.waitForMore version i batch room) i point 6 := by
  unfold waitForMore
  cases version with
  | py311 =>
    refine ⟨.more batch room .spawned, rfl, rfl, .inr ⟨rfl, ?_⟩, le_refl _⟩
    rw [Wakeups.share_of_not_woken free]
    exact Nat.le_add_right _ _
  | py312 =>
    have suspended : ({ st with running := none } : FifoState n).running = none := rfl
    obtain ⟨point, shift⟩ := takeMore_shift .py312 i room suspended
    refine ⟨point, shift.consumers, shift.running, shift.cover, ?_⟩
    exact (Shift.mono shift (Nat.le_succ 5)).spends

theorem collect_live (live : st.Live) (running : st.running = some i)
    (taken : st.collect version clock i = some t) : t.Live ∧ st.Spends t := by
  have reached {point : FifoPoint} {batch : PartialBatch} {s : FifoState n} (here : st.consumers i = .collecting batch)
      (same : s.consumers = st.consumers ∧ s.queue = st.queue ∧ s.returned = st.returned)
      (shift : s.Shift t i point 6) : t.Live ∧ st.Spends t := by
    have moved : st.Shift t i point 6 := by
      refine ⟨same.1 ▸ shift.consumers, shift.running, ?_, ?_⟩
      · rw [← same.1, ← same.2.1]
        exact shift.cover
      · rw [← same.2.1, ← same.2.2]
        exact shift.spends
    refine ⟨moved.live live (.inr running), moved.spent ?_⟩
    rw [here]
    exact Nat.lt_succ_self 6
  unfold collect at taken
  split at taken
  · next batch here =>
    have asleep : (st.consumers i).woken = false := by
      rw [here]
      rfl
    split at taken
    · next room =>
      split at taken
      · split at taken
        · cases taken
          exact reached here ⟨rfl, rfl, rfl⟩ (Shift.mono (finish_shift st.ticks asleep) (by decide))
        · next item queue queued =>
          cases taken
          refine reached here ⟨rfl, rfl, rfl⟩ (Shift.mono (shift_takes rfl rfl queued rfl ?_) (Nat.zero_le _))
          change 7 + st.returned.length ≤ _
          omega
      · dsimp only at taken
        split at taken
        · cases taken
          exact reached here ⟨rfl, rfl, rfl⟩ (Shift.mono (finish_shift (st.ticks + 1) asleep) (by decide))
        · cases taken
          obtain ⟨point, shift⟩ := @waitForMore_shift n { st with ticks := st.ticks + 1 } i batch version room asleep
          exact reached (s := { st with ticks := st.ticks + 1 }) here ⟨rfl, rfl, rfl⟩ shift
    · cases taken
      exact reached here ⟨rfl, rfl, rfl⟩ (Shift.mono (finish_shift st.ticks asleep) (by decide))
  · cases taken

theorem wake_live {wakes : Option (Fin n)} (live : st.Live) (free : st.running = none)
    (taken : st.wake version clock i wakes = some t) : t.Live ∧ st.Spends t := by
  unfold wake at taken
  split at taken
  · next call here =>
    cases taken
    obtain ⟨point, shift⟩ := takeFirst_shift clock i call free
    refine ⟨shift.live live (.inl free), shift.spent ?_⟩
    rw [here]
    exact Nat.one_pos
  · next batch room here =>
    cases taken
    obtain ⟨point, shift⟩ := takeMore_shift version i room free
    refine ⟨shift.live live (.inl free), shift.spent ?_⟩
    rw [here]
    exact Nat.lt_succ_self 5
  · next batch room notifiedBefore here => exact abandon_live live free here taken
  · cases taken

theorem startGet_live (live : st.Live) (free : st.running = none) (taken : st.startGet version i = some t) :
    t.Live ∧ st.Spends t := by
  unfold startGet at taken
  split at taken
  · next batch room here =>
    cases taken
    obtain ⟨point, shift⟩ := takeMore_shift version i room free
    refine ⟨shift.live live (.inl free), shift.spent ?_⟩
    rw [here]
    exact Nat.lt_succ_self 5
  · cases taken

theorem resume_live (live : st.Live) (free : st.running = none) (taken : st.resume clock i = some t) :
    t.Live ∧ st.Spends t := by
  unfold resume at taken
  split at taken
  · next batch room item here =>
    cases taken
    have shift := extend_shift here
    refine ⟨shift.live live (.inl free), shift.spent ?_⟩
    rw [here]
    exact Nat.lt_succ_self 7
  · next batch room here =>
    cases taken
    have asleep : (st.consumers i).woken = false := by
      rw [here]
      rfl
    have shift : st.Shift (st.finish clock i batch) i .idle 2 := finish_shift st.ticks asleep
    refine ⟨shift.live live (.inl free), shift.spent ?_⟩
    rw [here]
    exact Nat.lt_succ_self 2
  · cases taken

theorem call_live {call : Call} (live : st.Live) (free : st.running = none)
    (taken : st.call clock i call = some t) : t.Live ∧ st.Spends t := by
  unfold FifoState.call at taken
  split at taken
  · next here =>
    cases taken
    obtain ⟨point, shift⟩ := takeFirst_shift clock i call free
    refine ⟨shift.live live (.inl free), shift.spent ?_⟩
    rw [here]
    exact Nat.one_pos
  · cases taken

/-- A getter that is cancelled is skipped by later wakeups, and keeps the one it has. -/
theorem expire_live (live : st.Live) (free : st.running = none) (taken : st.expire i = some t) :
    t.Live ∧ st.Spends t := by
  unfold expire at taken
  split at taken
  · next batch room here =>
    cases taken
    have shift : st.Shift (st.setPoint i (.more batch room (.parked (.cancelled false)))) i
        (.more batch room (.parked (.cancelled false))) 4 := by
      refine ⟨rfl, free, .inr ⟨rfl, ?_⟩, le_refl _⟩
      rw [here]
      exact le_refl _
    refine ⟨shift.live live (.inl free), shift.spent ?_⟩
    rw [here]
    exact Nat.lt_succ_self 4
  · next batch room here =>
    cases taken
    have shift : st.Shift (st.setPoint i (.more batch room (.parked (.cancelled true)))) i
        (.more batch room (.parked (.cancelled true))) 5 := by
      refine ⟨rfl, free, .inr ⟨rfl, ?_⟩, le_refl _⟩
      rw [here]
      exact le_refl _
    refine ⟨shift.live live (.inl free), shift.spent ?_⟩
    rw [here]
    exact Nat.lt_succ_self 5
  · cases taken

end Tasks

section Callers

/-- A request brings the work that its item and the wakeup for it take. -/
theorem submit_live {item : ScheduledRequest} {wakes : Option (Fin n)} (live : st.Live) (free : st.running = none)
    (taken : st.submit clock item wakes = some t) :
    t.Live ∧ t.work + t.returned.length ≤ st.work + st.returned.length + 9 := by
  unfold submit at taken
  dsimp only at taken
  obtain ⟨lives, work, returned⟩ := wakeupNext_live (by exact live.control) (by exact free) (by
    rw [List.length_append]
    exact live.wakeups) taken
  refine ⟨lives, ?_⟩
  rw [returned]
  unfold FifoState.work at work ⊢
  rw [List.length_append, List.length_singleton] at work
  dsimp only at work ⊢
  omega

theorem interrupt_live {wakes : Option (Fin n)} (live : st.Live) (free : st.running = none)
    (taken : st.interrupt i wakes = some t) : t.Live := by
  unfold interrupt at taken
  exact (quits_live live free taken rfl free rfl rfl rfl).1

end Callers

theorem step_live {action : FifoAction n} (live : st.Live) (taken : st.step version clock action = some t) :
    t.Live ∧ (action.submits? = none → st.Spends t) := by
  rcases step_cases taken with ⟨free, moved⟩ | ⟨i, running, rfl, moved⟩
  · cases action with
    | submit item wakes => exact ⟨(submit_live live free moved).1, nofun⟩
    | call i call => exact (call_live live free moved).imp_right fun spent _ => spent
    | wake i wakes => exact (wake_live live free moved).imp_right fun spent _ => spent
    | expire i => exact (expire_live live free moved).imp_right fun spent _ => spent
    | startGet i => exact (startGet_live live free moved).imp_right fun spent _ => spent
    | resume i => exact (resume_live live free moved).imp_right fun spent _ => spent
    | collect i => cases moved
  · exact (collect_live live running moved).imp_right fun spent _ => spent

theorem step_paid {action : FifoAction n} {item : ScheduledRequest} (live : st.Live)
    (submits : action.submits? = some item) (taken : st.step version clock action = some t) :
    t.work + t.returned.length ≤ st.work + st.returned.length + 9 := by
  rcases step_cases taken with ⟨free, moved⟩ | ⟨i, running, rfl, moved⟩
  · cases action with
    | submit item wakes => exact (submit_live live free moved).2
    | _ => cases submits
  · cases submits

theorem move_live {m : FifoMove n} (live : st.Live) (taken : st.move version clock m = some t) : t.Live := by
  cases m with
  | act action => exact (step_live live taken).1
  | interrupt i wakes =>
    unfold move at taken
    dsimp only at taken
    split at taken
    · next allowed =>
      simp only [Bool.and_eq_true, Option.isNone_iff_eq_none] at allowed
      exact interrupt_live live allowed.1 taken
    · cases taken

section Rest

theorem exists_wakeupNext (st : FifoState n) : ∃ wakes t, st.wakeupNext wakes = some t := by
  by_cases nobody : ∀ i, (st.consumers i).unnotified = false
  · exact ⟨none, st, if_pos nobody⟩
  · simp only [not_forall, Bool.not_eq_false] at nobody
    obtain ⟨i, asleep⟩ := nobody
    exact ⟨some i, st.setPoint i (st.consumers i).notify, if_pos asleep⟩

theorem exists_abandon (version : PythonVersion) (clock : Clock) (st : FifoState n) (i : Fin n)
    (batch : PartialBatch) (room : (batch.items.length : Int) < batch.maxBatchSize) (notifiedBefore : Bool) :
    ∃ wakes t, st.abandon version clock i batch room notifiedBefore wakes = some t := by
  unfold abandon
  dsimp only
  split
  · exact exists_wakeupNext _
  · exact ⟨none, _, rfl⟩

theorem exists_collect (version : PythonVersion) (clock : Clock) (collects : (st.consumers i).collects = true) :
    ∃ t, st.collect version clock i = some t := by
  have here : ∃ batch, st.consumers i = .collecting batch := by
    unfold FifoPoint.collects at collects
    split at collects
    · next batch here => exact ⟨batch, here⟩
    · cases collects
  obtain ⟨batch, here⟩ := here
  unfold collect
  rw [here]
  dsimp only
  split
  · split
    · split
      · exact ⟨_, rfl⟩
      · exact ⟨_, rfl⟩
    · split
      · exact ⟨_, rfl⟩
      · exact ⟨_, rfl⟩
  · exact ⟨_, rfl⟩

/-- A consumer that is suspended in its call, and not parked un-notified, can go on. -/
theorem exists_event (version : PythonVersion) (clock : Clock) (inCall : st.consumers i ≠ .idle)
    (quiet : (st.consumers i).collects = false) (awake : (st.consumers i).unnotified = false) :
    ∃ action t, action.ready = true ∧ st.eventStep version clock action = some t := by
  cases here : st.consumers i with
  | idle => exact absurd here inCall
  | first call notified =>
    rw [here] at awake
    cases notified with
    | false => cases awake
    | true => exact ⟨.wake i none, st.takeFirst clock i call, rfl, by simp [eventStep, wake, here]⟩
  | collecting batch =>
    rw [here] at quiet
    cases quiet
  | more batch room point =>
    rw [here] at awake
    cases point with
    | spawned => exact ⟨.startGet i, st.takeMore version i batch room, rfl, by simp [eventStep, startGet, here]⟩
    | handedBack item =>
      cases item with
      | some item => exact ⟨.resume i, st.extend i batch room item, rfl, by simp [eventStep, resume, here]⟩
      | none => exact ⟨.resume i, st.finish clock i batch, rfl, by simp [eventStep, resume, here]⟩
    | parked mark =>
      cases mark with
      | waiting => cases awake
      | notified => exact ⟨.wake i none, st.takeMore version i batch room, rfl, by simp [eventStep, wake, here]⟩
      | cancelled notifiedBefore =>
        obtain ⟨wakes, t, taken⟩ := exists_abandon version clock st i batch room notifiedBefore
        exact ⟨.wake i wakes, t, rfl, by simpa [eventStep, wake, here] using taken⟩

/-- Where no task can run, a queued request means that every consumer is outside its call. -/
theorem rest_of_live (live : st.Live)
    (rest : Quiescence.AtRest (FifoState.step version clock) (fun action => action.ready = true) st) :
    st.queue = [] ∨ ∀ i, st.consumers i = .idle := by
  have free : st.running = none := by
    cases running : st.running with
    | none => rfl
    | some i =>
      obtain ⟨t, taken⟩ := exists_collect version clock ((live.control i).mpr running)
      have stuck := rest (.collect i) rfl
      simp [step, running, taken] at stuck
  have idleOrParked (i : Fin n) (inCall : st.consumers i ≠ .idle) : (st.consumers i).unnotified = true := by
    by_contra awake
    have quiet : (st.consumers i).collects = false := by
      rw [Bool.eq_false_iff]
      intro collects
      have running := (live.control i).mp collects
      rw [free] at running
      cases running
    obtain ⟨action, t, ready, taken⟩ := exists_event version clock inCall quiet (by simpa using awake)
    have stuck := rest action ready
    simp [step, free, taken] at stuck
  by_contra both
  simp only [not_or, not_forall] at both
  obtain ⟨queued, i, inCall⟩ := both
  obtain ⟨j, woken⟩ := live.wakeups.exists_woken (idleOrParked i inCall) (List.length_pos_iff.mpr queued)
  have outside : st.consumers j ≠ .idle := by
    intro idle
    rw [idle] at woken
    cases woken
  rw [FifoPoint.not_woken_of_unnotified (idleOrParked j outside)] at woken
  cases woken

end Rest

end FifoState

/-- Whoever is cancelled where, a queued request does not wait for a lost wakeup: unless more is submitted, the
    tasks, the timers and the callers take at most `work` steps, and return what they return with them; where no
    task can run, no request is queued, or no consumer is in a call. -/
theorem FifoState.never_strands_requests (version : PythonVersion) (clock : Clock) {n : Nat}
    {moves : List (FifoMove n)} {st : FifoState n} (run : exec (FifoState.move version clock) {} moves = some st) :
    st.NoLostWakeup ∧
    ∀ acts t, (∀ action ∈ acts, action.submits? = none) → exec (FifoState.step version clock) st acts = some t →
      acts.length + (t.work + t.returned.length) ≤ st.work + st.returned.length ∧
      ((∀ action, action.ready = true → t.step version clock action = none) →
        t.queue = [] ∨ ∀ i, t.consumers i = .idle) := by
  have moved (s : FifoState n) (m : FifoMove n) (t : FifoState n) (live : s.Live) (_ : True)
      (taken : s.move version clock m = some t) : t.Live := move_live live taken
  have live : st.Live := exec_invariant moved live_init (fun _ _ => True.intro) run
  refine ⟨live.wakeups, fun acts t quiet going => ?_⟩
  have spends (s : FifoState n) (action : FifoAction n) (t : FifoState n) (live : s.Live)
      (quiet : action.submits? = none) (taken : s.step version clock action = some t) : t.Live ∧ s.Spends t :=
    (step_live live taken).imp_right fun spent => spent quiet
  have later : t.Live :=
    exec_invariant (fun s action t live quiet taken => (spends s action t live quiet taken).1) live quiet going
  exact ⟨Quiescence.exec_length_le spends live quiet going, rest_of_live later⟩

theorem FifoState.never_strands_requests_two :
    let clock : Clock := ⟨fun tick => tick, monotone_tick⟩
    ∃ st t : FifoState 2,
      exec (FifoState.move .py311 clock) {} [.act (.call 0 (.batch 2 1000)), .act (.call 1 (.batch 2 1000)),
        .act (.submit (.ofBody { messages := [] } "a" 0) (some 0)), .interrupt 0 (some 1)] = some st ∧
      exec (FifoState.step .py311 clock) st [.wake 1 none] = some t ∧
      st.queue.length = 1 ∧ t.queue = [] ∧ st.NoLostWakeup ∧
      1 + (t.work + t.returned.length) ≤ st.work + st.returned.length := by
  intro clock
  have done : (exec (FifoState.move .py311 clock) ({} : FifoState 2)
      [.act (.call 0 (.batch 2 1000)), .act (.call 1 (.batch 2 1000)),
        .act (.submit (.ofBody { messages := [] } "a" 0) (some 0)), .interrupt 0 (some 1)]).any
      (fun st => st.queue.length = 1 ∧
        (exec (FifoState.step .py311 clock) st [.wake 1 none]).any (fun t => t.queue = []) = true) = true := by
    decide +kernel
  obtain ⟨st, run, held⟩ := (Option.any_eq_true _ _).mp done
  obtain ⟨length, further⟩ := of_decide_eq_true held
  obtain ⟨t, going, empty⟩ := (Option.any_eq_true _ _).mp further
  obtain ⟨wakeups, bounded⟩ := never_strands_requests .py311 clock run
  have quiet : ∀ action ∈ [FifoAction.wake (1 : Fin 2) none], action.submits? = none := List.forall_mem_singleton.mpr rfl
  exact ⟨st, t, run, going, length, of_decide_eq_true empty, wakeups, (bounded [.wake 1 none] t quiet going).1⟩

end LLMRuntime
