import LLMRuntime.Scheduler.FifoWakeup
import LLMRuntime.Scheduler.LockOrder
import LLMRuntime.Scheduler.PriorityModel
import LLMRuntime.Scheduler.Wakeup

namespace LLMRuntime

/-- What makes workers that all make the same `call` get on: a `submit` brings at most `price` of work and every
    other step uses some up, and more of it when it returns a batch; and where nobody can move, no request is left. -/
structure SchedulerModel.Progress {n : Nat} (M : SchedulerModel n) (call : Call) where
  holds : M.State → Prop
  work : M.State → Nat
  price : Nat
  init : holds M.init
  kept : ∀ s a t, holds s → (∀ other ∈ M.calls? a, other = call) → M.step s a = some t → holds t
  spends : ∀ s a t, holds s → (∀ other ∈ M.calls? a, other = call) → M.submits? a = none → M.step s a = some t →
    work t + (M.places t).returned.length < work s + (M.places s).returned.length
  pays : ∀ s a t item, holds s → M.submits? a = some item → M.step s a = some t →
    work t + (M.places t).returned.length ≤ work s + (M.places s).returned.length + price
  runs : ∀ s, holds s → M.suspended s = false → ∃ a i t, M.submits? a = none ∧ M.calls? a = none ∧
    M.consumer? s a = some i ∧ (M.places s).held i ≠ [] ∧ M.step s a = some t
  rests : ∀ s, holds s → M.suspended s = true →
    (∀ a, M.submits? a = none → (∀ other ∈ M.calls? a, other = call) → M.step s a = none) →
    (M.places s).waiting = [] ∧ (M.places s).queue = [] ∧ ∀ i, (M.places s).held i = []

theorem SchedulerModel.forall_calls {n : Nat} {M : SchedulerModel n} {action : M.Action} (call : Call)
    (none : M.calls? action = .none) : ∀ other ∈ M.calls? action, other = call := by
  intro other made
  rw [none] at made
  cases made

namespace FifoState

variable {n : Nat} {version : PythonVersion} {clock : Clock} {st : FifoState n} {i : Fin n}

theorem ready_quiet (version : PythonVersion) (clock : Clock) {action : FifoAction n} (ready : action.ready = true) :
    (fifoModel version clock n).submits? action = none ∧ (fifoModel version clock n).calls? action = none := by
  cases action with
  | submit => cases ready
  | call => cases ready
  | wake => exact ⟨rfl, rfl⟩
  | expire => cases ready
  | startGet => exact ⟨rfl, rfl⟩
  | resume => exact ⟨rfl, rfl⟩
  | collect => exact ⟨rfl, rfl⟩

theorem step_collect (running : st.running = some i) :
    st.step version clock (.collect i) = st.collect version clock i := by
  rw [step, running]
  exact if_pos rfl

theorem held_of_collects (collects : (st.consumers i).collects = true) : st.places.held i ≠ [] := by
  change requestIds (st.consumers i).held ≠ []
  unfold FifoPoint.collects at collects
  split at collects
  · next batch here =>
    rw [here]
    have nonempty : batch.items ≠ [] := List.ne_nil_of_length_pos batch.sized.1
    simpa [FifoPoint.held, requestIds] using nonempty
  · cases collects

/-- A consumer that only its timer or a new request can move holds nothing, once the timer is through. -/
theorem held_of_stuck (version : PythonVersion) (clock : Clock) (live : st.Live) (free : st.running = none)
    (stuck : ∀ action, action.ready = true → st.step version clock action = none) (expired : st.expire i = none) :
    st.places.held i = [] := by
  change requestIds (st.consumers i).held = []
  cases here : st.consumers i with
  | idle => rfl
  | first => rfl
  | collecting batch =>
    have running := (live.control i).mp (by rw [here]; rfl)
    rw [free] at running
    cases running
  | more batch room point =>
    have awake : (st.consumers i).unnotified = true := by
      by_contra awake
      have inCall : st.consumers i ≠ .idle := by
        rw [here]
        exact FifoPoint.noConfusion
      have quiet : (st.consumers i).collects = false := by rw [here]; rfl
      obtain ⟨action, t, ready, taken⟩ := exists_event version clock inCall quiet (by simpa using awake)
      have blocked := stuck action ready
      simp [step, free, taken] at blocked
    have parked : point = .parked .waiting := by
      rw [here] at awake
      unfold FifoPoint.unnotified at awake
      split at awake
      · next same => cases same
      · next same =>
        cases same
        rw [beq_iff_eq.mp awake]
      · cases awake
    rw [expire, here, parked] at expired
    cases expired

theorem rests (version : PythonVersion) (clock : Clock) (call : Call) (some : 0 < n) (live : st.Live)
    (free : st.running = none) (stuck : ∀ action, action.submits? = none →
      (∀ other ∈ (fifoModel version clock n).calls? action, other = call) → st.step version clock action = none) :
    st.places.waiting = [] ∧ st.places.queue = [] ∧ ∀ i, st.places.held i = [] := by
  have blocked (action : FifoAction n) (ready : action.ready = true) : st.step version clock action = none := by
    obtain ⟨submits, calls⟩ := ready_quiet version clock ready
    exact stuck action submits (SchedulerModel.forall_calls call calls)
  have called (i : Fin n) : st.consumers i ≠ .idle := by
    intro idle
    have none := stuck (.call i call) rfl (fun other same => (Option.some.inj same).symm)
    simp [step, free, eventStep, FifoState.call, idle] at none
  refine ⟨rfl, ?_, fun i => ?_⟩
  · rcases rest_of_live live blocked with empty | idle
    · exact congrArg requestIds empty
    · exact absurd (idle ⟨0, some⟩) (called ⟨0, some⟩)
  · have expired := stuck (.expire i) rfl (SchedulerModel.forall_calls call rfl)
    rw [step, free] at expired
    exact held_of_stuck version clock live free blocked expired

end FifoState

def fifoProgress (version : PythonVersion) (clock : Clock) {n : Nat} (some : 0 < n) (call : Call) :
    (fifoModel version clock n).Progress call where
  holds := FifoState.Live
  work := FifoState.work
  price := 9
  init := FifoState.live_init
  kept _ _ _ live _ taken := (FifoState.step_live live taken).1
  spends _ _ _ live _ quiet taken := (FifoState.step_live live taken).2 quiet
  pays _ _ _ _ live submits taken := FifoState.step_paid live submits taken
  runs st live busy := by
    obtain ⟨i, running⟩ := Option.ne_none_iff_exists'.mp fun free : st.running = none =>
      Bool.false_ne_true (busy.symm.trans (Option.isNone_iff_eq_none.mpr free))
    have collects := (live.control i).mpr running
    obtain ⟨t, taken⟩ := FifoState.exists_collect version clock collects
    exact ⟨.collect i, i, t, rfl, rfl, rfl, FifoState.held_of_collects collects,
      (FifoState.step_collect running).trans taken⟩
  rests st live suspended stuck :=
    FifoState.rests version clock call some live (Option.isNone_iff_eq_none.mp suspended) stuck

namespace PriorityState

variable {n : Nat} {cfg : SchedulerConfig} {st t : PriorityState n} {i : Fin n}

/-- How the workers of a layout use the scheduler: there is one of them, or each asks for one request at a time. -/
inductive Attends (maxBatchSize batchTimeoutMs : Int) : ∀ {n : Nat}, PriorityState n → Prop where
  | single {st : PriorityState 1} (settled : st.Settled) : Attends maxBatchSize batchTimeoutMs st
  | native {n : Nat} {st : PriorityState n} (size : maxBatchSize = 1) (timeout : batchTimeoutMs = 0)
      (one : st.OneByOne) : Attends maxBatchSize batchTimeoutMs st

variable {maxBatchSize batchTimeoutMs : Int}

theorem attends_init (shape : n = 1 ∨ 0 < n ∧ maxBatchSize = 1 ∧ batchTimeoutMs = 0) :
    ({} : PriorityState n).Attends maxBatchSize batchTimeoutMs := by
  rcases shape with rfl | ⟨-, size, timeout⟩
  · exact .single True.intro
  · exact .native size timeout ⟨lockIdle_init, fun _ => True.intro, nofun⟩

theorem Attends.step {action : SchedulerAction n} (attends : st.Attends maxBatchSize batchTimeoutMs)
    (worker : action.CallsWith maxBatchSize batchTimeoutMs) (taken : st.step cfg action = some t) :
    t.Attends maxBatchSize batchTimeoutMs := by
  cases attends with
  | single settled => exact .single (step_settled settled taken)
  | native size timeout one =>
    subst size timeout
    exact .native rfl rfl (step_oneByOne worker one taken)

theorem Attends.noLostWakeup (attends : st.Attends maxBatchSize batchTimeoutMs) : st.NoLostWakeup := by
  cases attends with
  | single settled => exact settled.noLostWakeup
  | native size timeout one => exact one.wakeups

theorem NoLostWakeup.empty (wakeups : st.NoLostWakeup) (some : 0 < n)
    (parked : ∀ i, (st.consumers i).unnotified = true) : st.items = [] := by
  have nobody : st.notifiedCount = 0 := by
    refine Finset.card_eq_zero.mpr (Finset.filter_eq_empty_iff.mpr fun i _ => ?_)
    rw [ConsumerPoint.not_notified_of_unnotified (parked i)]
    exact Bool.false_ne_true
  have bound := wakeups ⟨0, some⟩ (parked _)
  rw [nobody] at bound
  exact List.eq_nil_of_length_eq_zero (Nat.le_zero.mp bound)

theorem step_collect (running : st.running = some i) : st.step cfg (.collect i) = st.collect cfg i := by
  rw [PriorityState.step, running]
  exact if_pos rfl

theorem exists_collect (cfg : SchedulerConfig) (collects : (st.consumers i).collects = true) :
    st.places.held i ≠ [] ∧ ∃ t, st.collect cfg i = some t := by
  unfold ConsumerPoint.collects at collects
  split at collects
  · next batch here =>
    constructor
    · change requestIds (st.consumers i).held ≠ []
      rw [here]
      have nonempty : batch.items ≠ [] := List.ne_nil_of_length_pos batch.sized.1
      simpa [ConsumerPoint.held, requestIds] using nonempty
    · unfold collect
      rw [here]
      dsimp only
      split
      · split
        · exact ⟨_, rfl⟩
        · split
          · exact ⟨_, rfl⟩
          · split
            · exact ⟨_, rfl⟩
            · exact ⟨_, rfl⟩
      · exact ⟨_, rfl⟩
  · cases collects

theorem exists_acquired (cfg : SchedulerConfig) (st : PriorityState n) (queues : (st.consumers i).queues = true) :
    ∃ t, st.acquired cfg i = some t := by
  unfold ConsumerPoint.queues at queues
  split at queues
  · next call here =>
    have taken : st.acquired cfg i = some (st.takeFirst cfg i call) := by rw [acquired, here]
    exact ⟨_, taken⟩
  · next call here =>
    have taken : st.acquired cfg i = some (st.takeFirst cfg i call) := by rw [acquired, here]
    exact ⟨_, taken⟩
  · next batch expired here =>
    have taken : st.acquired cfg i = some (st.rejoin cfg i batch expired) := by rw [acquired, here]
    exact ⟨_, taken⟩
  · cases queues

theorem exists_append (cfg : SchedulerConfig) (st : PriorityState n) (item : ScheduledRequest) :
    ∃ wakes t, st.append cfg item wakes = some t := by
  by_cases nobody : ∀ i, (st.consumers i).unnotified = false
  · exact ⟨none, _, if_pos nobody⟩
  · simp only [not_forall, Bool.not_eq_false] at nobody
    obtain ⟨i, parked⟩ := nobody
    exact ⟨some i, _, if_pos parked⟩

section Rest

variable (order : st.LockOrder) (free : st.running = none)
    (stuck : ∀ action : SchedulerAction n, action.submits? = none → (priorityModel cfg n).calls? action = none →
      st.eventStep cfg action = none)

include order free

theorem not_collects (i : Fin n) : (st.consumers i).collects = false := by
  rw [Bool.eq_false_iff]
  intro collects
  have running := (order.control i).mp collects
  rw [free] at running
  cases running

include stuck

theorem unlocked_of_stuck : st.locked = false := by
  by_contra taken
  obtain ⟨i, locks⟩ := order.holder (by simpa using taken)
  unfold ConsumerPoint.locks at locks
  split at locks
  · next batch here =>
    have quiet := not_collects order free i
    rw [here] at quiet
    cases quiet
  · next batch here =>
    have blocked := stuck (.startWait i) rfl rfl
    simp [eventStep, startWait, here] at blocked
  · next batch expired here =>
    have blocked := stuck (.resume i) rfl rfl
    simp [eventStep, resume, here] at blocked
  · cases locks

theorem lockWaiters_of_stuck : st.lockWaiters = [] := by
  have unlocked : ¬ st.locked = true := by
    rw [unlocked_of_stuck order free stuck]
    exact Bool.false_ne_true
  have blocked (wakes : Option (Fin n)) : st.grant cfg wakes = none := stuck (.grant wakes) rfl rfl
  cases waiters : st.lockWaiters with
  | nil => rfl
  | cons head rest =>
    cases head with
    | submitter item =>
      obtain ⟨wakes, t, appended⟩ := exists_append cfg { st with lockWaiters := rest } item
      have granted : st.grant cfg wakes = some t := by
        rw [grant, if_neg unlocked, waiters]
        exact appended
      rw [blocked wakes] at granted
      cases granted
    | consumer i =>
      have queues : (st.consumers i).queues = true := by
        have once := order.queued i
        rw [waiters, List.count_cons_self] at once
        cases queues : (st.consumers i).queues with
        | true => rfl
        | false =>
          rw [queues] at once
          cases once
      obtain ⟨t, acquired⟩ := exists_acquired cfg { st with lockWaiters := rest } queues
      have granted : st.grant cfg none = some t := by
        rw [grant, if_neg unlocked, waiters]
        exact acquired
      rw [blocked none] at granted
      cases granted

theorem parked_of_stuck (inCall : st.consumers i ≠ .idle) :
    (st.consumers i).unnotified = true ∧ st.places.held i = [] := by
  have empty := lockWaiters_of_stuck order free stuck
  have outside : (st.consumers i).queues = false := by
    have once := order.queued i
    rw [empty] at once
    cases queues : (st.consumers i).queues with
    | true =>
      rw [queues] at once
      cases once
    | false => rfl
  have quiet := not_collects order free i
  have woken : st.wake cfg i = none := stuck (.wake i) rfl rfl
  have expired : st.expire i = none := stuck (.expire i) rfl rfl
  have waits : st.startWait i = none := stuck (.startWait i) rfl rfl
  have resumed : st.resume cfg i = none := stuck (.resume i) rfl rfl
  change _ ∧ requestIds (st.consumers i).held = []
  cases here : st.consumers i with
  | idle => exact absurd here inCall
  | collecting batch =>
    rw [here] at quiet
    cases quiet
  | first call point =>
    refine ⟨?_, rfl⟩
    cases point with
    | entering =>
      rw [here] at outside
      cases outside
    | reacquiring =>
      rw [here] at outside
      cases outside
    | parked notified =>
      cases notified with
      | false => rfl
      | true =>
        rw [wake, here] at woken
        dsimp only at woken
        split at woken <;> cases woken
  | more batch point =>
    cases point with
    | spawned =>
      rw [startWait, here] at waits
      cases waits
    | handedBack expired =>
      rw [resume, here] at resumed
      cases resumed
    | reacquiring expired =>
      rw [here] at outside
      cases outside
    | parked mark =>
      cases mark with
      | waiting =>
        rw [expire, here] at expired
        cases expired
      | notified =>
        rw [expire, here] at expired
        cases expired
      | cancelled =>
        rw [wake, here] at woken
        dsimp only at woken
        split at woken <;> cases woken

end Rest

theorem rests {call : Call} (some : 0 < n) (order : st.LockOrder) (wakeups : st.NoLostWakeup)
    (free : st.running = none) (stuck : ∀ action, action.submits? = none →
      (∀ other ∈ (priorityModel cfg n).calls? action, other = call) → st.step cfg action = none) :
    st.places.waiting = [] ∧ st.places.queue = [] ∧ ∀ i, st.places.held i = [] := by
  have blocked (action : SchedulerAction n) (quiet : action.submits? = none)
      (own : (priorityModel cfg n).calls? action = none) : st.eventStep cfg action = none := by
    have none := stuck action quiet (SchedulerModel.forall_calls call own)
    rwa [PriorityState.step, free] at none
  have called (i : Fin n) : st.consumers i ≠ .idle := by
    intro idle
    have none := stuck (.call i call) rfl (fun other same => (Option.some.inj same).symm)
    rw [PriorityState.step, free] at none
    change st.call cfg i call = _ at none
    rw [PriorityState.call, idle] at none
    dsimp only at none
    split at none <;> cases none
  have parked (i : Fin n) := parked_of_stuck order free blocked (called i)
  refine ⟨?_, ?_, fun i => (parked i).2⟩
  · change requestIds (st.lockWaiters.filterMap LockWaiter.item?) = []
    rw [lockWaiters_of_stuck order free blocked]
    rfl
  · change requestIds (st.items.map QueuedRequest.item) = []
    rw [wakeups.empty some fun i => (parked i).1]
    rfl

end PriorityState

def priorityProgress (cfg : SchedulerConfig) {n : Nat} {maxBatchSize batchTimeoutMs : Int}
    (shape : n = 1 ∨ 0 < n ∧ maxBatchSize = 1 ∧ batchTimeoutMs = 0) :
    (priorityModel cfg n).Progress (.batch maxBatchSize batchTimeoutMs) where
  holds st := PriorityState.LockOrder st ∧ PriorityState.Attends maxBatchSize batchTimeoutMs st
  work := PriorityState.work
  price := 15
  init := ⟨PriorityState.lockOrder_init, PriorityState.attends_init shape⟩
  kept st action t holds calls taken := by
    have worker : action.CallsWith maxBatchSize batchTimeoutMs := by
      cases action with
      | call i call => exact calls call rfl
      | _ => exact True.intro
    exact ⟨(PriorityState.step_order holds.1 taken).1, holds.2.step worker taken⟩
  spends st action t holds _ quiet taken := (PriorityState.step_order holds.1 taken).2 quiet
  pays st action t item holds submits taken := PriorityState.step_paid holds.1 submits taken
  runs st holds busy := by
    obtain ⟨i, running⟩ := Option.ne_none_iff_exists'.mp fun free : st.running = none =>
      Bool.false_ne_true (busy.symm.trans (Option.isNone_iff_eq_none.mpr free))
    obtain ⟨holding, t, taken⟩ := PriorityState.exists_collect cfg ((holds.1.control i).mpr running)
    exact ⟨.collect i, i, t, rfl, rfl, rfl, holding, (PriorityState.step_collect running).trans taken⟩
  rests st holds suspended stuck := by
    have some : 0 < n := shape.elim (fun single => single ▸ Nat.one_pos) And.left
    exact PriorityState.rests some holds.1 holds.2.noLostWakeup (Option.isNone_iff_eq_none.mp suspended) stuck

end LLMRuntime
