import LLMRuntime.Api.Routes
import LLMRuntime.Scheduler.Effects
import LLMRuntime.Scheduler.Fifo
import LLMRuntime.Scheduler.Lock

namespace LLMRuntime

/-- What the application sees of a scheduler and its `n` consumers. -/
structure SchedulerSystem (n : Nat) (σ α : Type) where
  step : σ → α → Option σ
  size : σ → Nat
  submit : ScheduledRequest → Option (Fin n) → α
  isSubmit : α → Bool

def fifoSystem (n : Nat) (version : PythonVersion) (clock : Clock) :
    SchedulerSystem n (FifoState n) (FifoAction n) where
  step := FifoState.step version clock
  size := FifoState.size
  submit := .submit
  isSubmit action := action.submits?.isSome

def prioritySystem (n : Nat) (cfg : SchedulerConfig) :
    SchedulerSystem n (PriorityState n) (SchedulerAction n) where
  step := PriorityState.step cfg
  size := PriorityState.size
  submit := .submit
  isSubmit action := action.submits?.isSome

structure Application (σ : Type) where
  services : Services := {}
  admission : AdmissionController
  scheduler : σ

/-- `handle` is `create_chat_completion` up to the first suspension of its `submit`. -/
inductive ApplicationAction (n : Nat) (α : Type) where
  | handle (body : ChatCompletionRequest) (requestId : String) (now : ℚ) (wakes : Option (Fin n))
  | work (action : α)

namespace Application

open Transition

variable {n : Nat} {σ α : Type}

def step (clock : Clock) (system : SchedulerSystem n σ α) (app : Application σ) :
    ApplicationAction n α → Option (Application σ)
  | .handle body requestId now wakes =>
    let answer := app.admission.admitRequest (system.size app.scheduler) now
    let received := receiveRequest clock app.services body requestId answer.1
    match received.2 with
    | .error _ => some { app with services := received.1, admission := answer.2 }
    | .ok item =>
      (system.step app.scheduler (system.submit item wakes)).map fun scheduler =>
        { services := received.1, admission := answer.2, scheduler }
  | .work action =>
    if system.isSubmit action then none
    else (system.step app.scheduler action).map fun scheduler => { app with scheduler }

def WithinCap (system : SchedulerSystem n σ α) (app : Application σ) : Prop :=
  (system.size app.scheduler : Int) ≤ app.admission.maxQueueSize

/-- A request that is admitted is counted against the cap, together with all of `load`. -/
def AdmitsBelow (system : SchedulerSystem n σ α) (load : σ → Nat) (app : Application σ) :
    ApplicationAction n α → Prop
  | .handle _ _ now _ =>
    (app.admission.admitRequest (system.size app.scheduler) now).1.accepted = true →
      (load app.scheduler : Int) < app.admission.maxQueueSize
  | .work _ => True

/-- `load` bounds the queue, grows by one with each submission and never otherwise. -/
structure Metered (system : SchedulerSystem n σ α) (load : σ → Nat) : Prop where
  size_le : ∀ s, system.size s ≤ load s
  submission : ∀ s item wakes t, system.step s (system.submit item wakes) = some t → load t ≤ load s + 1
  work : ∀ s action t, system.isSubmit action = false → system.step s action = some t → load t ≤ load s

variable {clock : Clock} {system : SchedulerSystem n σ α} {load : σ → Nat} {app next : Application σ}

theorem receiveRequest_accepted {s : Services} {body : ChatCompletionRequest} {requestId : String}
    {admission : AdmissionDecision} {item : ScheduledRequest}
    (received : (receiveRequest clock s body requestId admission).2 = .ok item) : admission.accepted = true := by
  unfold receiveRequest at received
  dsimp only at received
  split at received
  · next accepted => exact accepted
  · cases received

/-- A handler is turned away or submits in the same step; everything else is left to the scheduler. -/
theorem step_cases {action : ApplicationAction n α} (taken : app.step clock system action = some next) :
    next.admission.maxQueueSize = app.admission.maxQueueSize ∧
    (next.scheduler = app.scheduler ∨
      (∃ body requestId now wakes item, action = .handle body requestId now wakes ∧
        (app.admission.admitRequest (system.size app.scheduler) now).1.accepted = true ∧
        system.step app.scheduler (system.submit item wakes) = some next.scheduler) ∨
      ∃ work, action = .work work ∧ system.isSubmit work = false ∧
        system.step app.scheduler work = some next.scheduler) := by
  cases action with
  | handle body requestId now wakes =>
    simp only [step] at taken
    split at taken
    · have same := Option.some.inj taken
      rw [← same]
      exact ⟨AdmissionController.admitRequest_maxQueueSize _ _ _, .inl rfl⟩
    · next item received =>
      obtain ⟨scheduler, submitted, same⟩ := Option.map_eq_some_iff.mp taken
      rw [← same]
      have accepted := receiveRequest_accepted received
      exact ⟨AdmissionController.admitRequest_maxQueueSize _ _ _,
        .inr (.inl ⟨body, requestId, now, wakes, item, rfl, accepted, submitted⟩)⟩
  | work work =>
    simp only [step] at taken
    split at taken
    · cases taken
    · next other =>
      obtain ⟨scheduler, moved, same⟩ := Option.map_eq_some_iff.mp taken
      cases same
      exact ⟨rfl, .inr (.inr ⟨work, rfl, by simpa using other, moved⟩)⟩

theorem load_kept (metered : Metered system load) {action : ApplicationAction n α}
    (within : (load app.scheduler : Int) ≤ app.admission.maxQueueSize)
    (below : app.AdmitsBelow system load action) (taken : app.step clock system action = some next) :
    (load next.scheduler : Int) ≤ next.admission.maxQueueSize := by
  obtain ⟨cap, moved⟩ := step_cases taken
  rw [cap]
  rcases moved with same | ⟨body, requestId, now, wakes, item, rfl, accepted, submitted⟩ | ⟨work, rfl, other, moved⟩
  · rwa [same]
  · have room : (load app.scheduler : Int) < app.admission.maxQueueSize := below accepted
    have grown := metered.submission _ _ _ _ submitted
    omega
  · have shrunk := metered.work _ _ _ other moved
    omega

theorem fifo_metered (version : PythonVersion) (clock : Clock) :
    Metered (fifoSystem n version clock) FifoState.size where
  size_le _ := le_refl _
  submission s item wakes t moved := by
    rcases FifoState.step_queue moved with ⟨other, -, queue⟩ | ⟨nothing, -⟩
    · simp [FifoState.size, queue]
    · cases nothing
  work s action t other moved := by
    rcases FifoState.step_queue moved with ⟨item, submits, -⟩ | ⟨-, queue⟩
    · simp [fifoSystem, submits] at other
    · exact queue.length_le

def priorityLoad (st : PriorityState n) : Nat := st.size + st.submitters.length

theorem arrival_load {cfg : SchedulerConfig} {s t : PriorityState n} {item : ScheduledRequest}
    (arrival : PriorityState.Arrival cfg s item t) : priorityLoad t = priorityLoad s + 1 := by
  cases arrival with
  | waits same waiters =>
    simp only [priorityLoad, PriorityState.size, same.items, waiters, List.length_append, List.length_singleton]
    omega
  | appends appends waiters =>
    obtain ⟨tick, -, -, items⟩ := appends.items
    simp only [priorityLoad, PriorityState.size, items, waiters, List.length_append, List.length_singleton]
    omega

theorem effect_load {cfg : SchedulerConfig} {s t : PriorityState n} (effect : PriorityState.Effect cfg s t) :
    priorityLoad t ≤ priorityLoad s := by
  have popped : ∀ queued, s.Pops cfg t queued → t.size ≤ s.size := fun queued pops =>
    (popNextLocked_sublist pops.found).length_le
  cases effect with
  | quiet same waiters =>
    simp only [priorityLoad, PriorityState.size, same.items, waiters]
    exact le_refl _
  | granted item appends waiters =>
    obtain ⟨tick, -, -, items⟩ := appends.items
    simp only [priorityLoad, PriorityState.size, items, waiters, List.length_append, List.length_cons,
      List.length_nil]
    omega
  | takes i queued pops held returned waiters =>
    have fewer := popped queued pops
    simp only [priorityLoad, waiters]
    omega
  | serves queued pops held returned waiters =>
    have fewer := popped queued pops
    simp only [priorityLoad, waiters]
    omega
  | returns i batch full items counter submitted ticks held returned waiters =>
    simp only [priorityLoad, PriorityState.size, items, waiters]
    exact le_refl _

theorem priority_metered (cfg : SchedulerConfig) : Metered (prioritySystem n cfg) priorityLoad where
  size_le s := Nat.le_add_right _ _
  submission s item wakes t moved := by
    rcases PriorityState.step_effect moved with ⟨other, -, arrival⟩ | ⟨nothing, -⟩
    · exact (arrival_load arrival).le
    · cases nothing
  work s action t other moved := by
    rcases PriorityState.step_effect moved with ⟨item, submits, -⟩ | ⟨-, effect⟩
    · simp [prioritySystem, submits] at other
    · exact effect_load effect

theorem priorityLoad_of_lockIdle {st : PriorityState n} (idle : st.LockIdle) : priorityLoad st = st.size := by
  simp [priorityLoad, PriorityState.submitters, idle.waiters]

/-- While nobody waits for the lock, the queue size that `admit` is given counts every admitted request. -/
theorem admitsBelow_of_current {action : ApplicationAction n α} (capped : 0 < app.admission.maxQueueSize)
    (current : load app.scheduler = system.size app.scheduler) : app.AdmitsBelow system load action := by
  cases action with
  | handle body requestId now wakes =>
    intro accepted
    rw [current]
    exact AdmissionController.admitRequest_accepted_below capped accepted
  | work work => exact True.intro

theorem scheduler_kept {I : σ → Prop} (kept : ∀ s action t, I s → system.step s action = some t → I t)
    {action : ApplicationAction n α} (holds : I app.scheduler) (taken : app.step clock system action = some next) :
    I next.scheduler := by
  rcases (step_cases taken).2 with same | ⟨_, _, _, _, item, -, -, submitted⟩ | ⟨work, -, -, moved⟩
  · rwa [same]
  · exact kept _ _ _ holds submitted
  · exact kept _ _ _ holds moved

theorem run_withinCap (metered : Metered system load) {start : Application σ}
    (empty : (load start.scheduler : Int) ≤ start.admission.maxQueueSize) {acts : List (ApplicationAction n α)}
    (below : Guarded (step clock system) (AdmitsBelow system load) start acts)
    (run : exec (step clock system) start acts = some app) : app.WithinCap system := by
  have within : (load app.scheduler : Int) ≤ app.admission.maxQueueSize :=
    exec_guarded (fun _ _ _ within below taken => load_kept metered within below taken) empty below run
  exact (Int.ofNat_le.mpr (metered.size_le _)).trans within

theorem run_withinCap_of_current (metered : Metered system load) {I : σ → Prop}
    (kept : ∀ s action t, I s → system.step s action = some t → I t)
    (current : ∀ s, I s → load s = system.size s) {start : Application σ} (holds : I start.scheduler)
    (capped : 0 < start.admission.maxQueueSize) (empty : load start.scheduler = 0)
    {acts : List (ApplicationAction n α)} (run : exec (step clock system) start acts = some app) :
    app.WithinCap system := by
  let J : Application σ → Prop := fun app =>
    I app.scheduler ∧ 0 < app.admission.maxQueueSize ∧ (load app.scheduler : Int) ≤ app.admission.maxQueueSize
  have kept' : ∀ app (action : ApplicationAction n α) next, J app → True → app.step clock system action = some next →
      J next := by
    rintro app action next ⟨holds, capped, within⟩ - taken
    refine ⟨scheduler_kept kept holds taken, ?_, ?_⟩
    · rw [(step_cases taken).1]
      exact capped
    · exact load_kept metered within (admitsBelow_of_current capped (current _ holds)) taken
  have invariant : J app := exec_invariant kept' ⟨holds, capped, by omega⟩ (fun _ _ => True.intro) run
  exact (Int.ofNat_le.mpr (metered.size_le _)).trans invariant.2.2

/-- The queue cap holds in every run with the FIFO scheduler, in every run with the priority scheduler when
    `wait_for` runs inline, and in every run with the priority scheduler that admits no request once the queue
    and the `submit` calls that wait for its lock have used up the cap. -/
theorem queue_cap (clock : Clock) (cfg : SchedulerConfig) (admission : AdmissionController)
    (capped : 0 < admission.maxQueueSize) :
    let fifo := fifoSystem n cfg.version cfg.perfCounter
    let priority := prioritySystem n cfg
    (∀ acts app, exec (step clock fifo) { admission, scheduler := {} } acts = some app → app.WithinCap fifo) ∧
    (cfg.version = .py312 → ∀ acts app,
      exec (step clock priority) { admission, scheduler := {} } acts = some app → app.WithinCap priority) ∧
    ∀ acts app, Guarded (step clock priority) (AdmitsBelow priority priorityLoad) { admission, scheduler := {} } acts →
      exec (step clock priority) { admission, scheduler := {} } acts = some app → app.WithinCap priority := by
  intro fifo priority
  refine ⟨fun acts app run => ?_, fun inline acts app run => ?_, fun acts app below run => ?_⟩
  · exact run_withinCap_of_current (fifo_metered _ _) (I := fun _ => True) (fun _ _ _ _ _ => True.intro)
      (fun _ _ => rfl) True.intro capped rfl run
  · exact run_withinCap_of_current (priority_metered cfg)
      (fun _ _ _ idle taken => PriorityState.step_lockIdle inline idle taken)
      (fun _ idle => priorityLoad_of_lockIdle idle)
      PriorityState.lockIdle_init capped rfl run
  · have empty : (priorityLoad ({} : PriorityState n) : Int) ≤ admission.maxQueueSize := capped.le
    exact run_withinCap (priority_metered cfg) empty below run

/-- One worker that collects a batch, and a cap of one request. Between the start of its timed wait and the task
    that runs it, two handlers are admitted to the queue it has emptied, and both wait for the lock. -/
theorem queue_cap_exceeded :
    ∃ app, exec (step ⟨fun _ => 0, monotone_const⟩ (prioritySystem 1 (.ticking .py311)))
        { admission := .create 1 0 0 0, scheduler := {} }
        [.work (.call 0 (.batch 2 9000)), .handle { messages := [] } "a" 0 (some 0), .work (.wake 0),
          .work (.collect 0), .handle { messages := [] } "b" 0 none, .handle { messages := [] } "c" 0 none,
          .work (.startWait 0), .work (.grant (some 0)), .work (.grant none)] = some app ∧
      app.admission.maxQueueSize = 1 ∧ app.scheduler.size = 2 ∧
      ¬ app.WithinCap (prioritySystem 1 (.ticking .py311)) := by
  have done : (exec (step ⟨fun _ => 0, monotone_const⟩ (prioritySystem 1 (.ticking .py311)))
      { admission := .create 1 0 0 0, scheduler := {} }
      [.work (.call 0 (.batch 2 9000)), .handle { messages := [] } "a" 0 (some 0), .work (.wake 0),
        .work (.collect 0), .handle { messages := [] } "b" 0 none, .handle { messages := [] } "c" 0 none,
        .work (.startWait 0), .work (.grant (some 0)), .work (.grant none)]).map
        (fun app => (app.admission.maxQueueSize, app.scheduler.size)) = some (1, 2) := by
    decide +kernel
  obtain ⟨app, run, values⟩ := Option.map_eq_some_iff.mp done
  obtain ⟨cap, size⟩ := Prod.mk.inj values
  refine ⟨app, run, cap, size, ?_⟩
  show ¬ (app.scheduler.size : Int) ≤ app.admission.maxQueueSize
  rw [cap, size]
  decide

/-- The same run with room for three: two handlers wait for the lock at once. -/
theorem queue_cap_kept :
    ∃ app, exec (step ⟨fun _ => 0, monotone_const⟩ (prioritySystem 1 (.ticking .py311)))
        { admission := .create 3 0 0 0, scheduler := {} }
        [.work (.call 0 (.batch 2 9000)), .handle { messages := [] } "a" 0 (some 0), .work (.wake 0),
          .work (.collect 0), .handle { messages := [] } "b" 0 none, .handle { messages := [] } "c" 0 none,
          .work (.startWait 0), .work (.grant (some 0)), .work (.grant none)] = some app ∧
      app.scheduler.size = 2 ∧ app.WithinCap (prioritySystem 1 (.ticking .py311)) := by
  have done : (exec (step ⟨fun _ => 0, monotone_const⟩ (prioritySystem 1 (.ticking .py311)))
      { admission := .create 3 0 0 0, scheduler := {} }
      [.work (.call 0 (.batch 2 9000)), .handle { messages := [] } "a" 0 (some 0), .work (.wake 0),
        .work (.collect 0), .handle { messages := [] } "b" 0 none, .handle { messages := [] } "c" 0 none,
        .work (.startWait 0), .work (.grant (some 0)), .work (.grant none)]).map (fun app => app.scheduler.size) =
      some 2 := by
    decide +kernel
  obtain ⟨app, run, size⟩ := Option.map_eq_some_iff.mp done
  let below : Application (PriorityState 1) → ApplicationAction 1 (SchedulerAction 1) → Bool
    | app, .handle _ _ _ _ => (priorityLoad app.scheduler : Int) < app.admission.maxQueueSize
    | _, .work _ => true
  refine ⟨app, run, size, (queue_cap ⟨fun _ => 0, monotone_const⟩ (.ticking .py311) (.create 3 0 0 0) (by decide)).2.2
    _ app (.of_passes below ?_ (by decide +kernel)) run⟩
  rintro app (⟨body, requestId, now, wakes⟩ | work) passed
  · exact fun _ => of_decide_eq_true passed
  · exact True.intro

end Application

end LLMRuntime
