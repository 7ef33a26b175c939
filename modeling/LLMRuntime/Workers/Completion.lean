import LLMRuntime.Scheduler.Progress
import LLMRuntime.Workers.BatchAccounting

namespace LLMRuntime

open Transition

namespace PoolAction

variable {n : Nat} {M : SchedulerModel n}

/-- What the pool does by itself: a task or a timer of the scheduler moves on, a worker calls `next_batch` again,
    or the iteration over the backend's events ends. -/
def chore : PoolAction M → Bool
  | .schedule action => (M.submits? action).isNone
  | .ends _ _ => true
  | _ => false

def submits : PoolAction M → Bool
  | .schedule action => (M.submits? action).isSome
  | _ => false

def serves : PoolAction M → Bool
  | .schedule _ => true
  | .yields _ _ => true
  | .ends _ _ => true
  | .cancel _ => true
  | _ => false

theorem serves_of_chore {action : PoolAction M} (chore : action.chore = true) :
    action.serves = true ∧ action.submits = false := by
  cases action with
  | schedule action =>
    have quiet : M.submits? action = none := Option.isNone_iff_eq_none.mp chore
    exact ⟨rfl, congrArg Option.isSome quiet⟩
  | ends => exact ⟨rfl, rfl⟩
  | _ => cases chore

end PoolAction

namespace Pool

variable {n : Nat} {M : SchedulerModel n} {p q : Pool M} {cfg : WorkerConfig} {i : Fin n}

section Executing

def executing (p : Pool M) : Nat := ∑ i, (p.executions i).isSome.toNat

theorem executing_update {execution : Option Execution}
    (executions : q.executions = Function.update p.executions i execution) :
    q.executing + (p.executions i).isSome.toNat = p.executing + execution.isSome.toNat := by
  have shares : (fun j => (q.executions j).isSome.toNat) =
      Function.update (fun j => (p.executions j).isSome.toNat) i execution.isSome.toNat := by
    rw [executions]
    exact funext fun j => Function.apply_update (fun _ e => Option.isSome e |>.toNat) p.executions i execution j
  have changed := Custody.sum_update (fun j => (p.executions j).isSome.toNat) i execution.isSome.toNat
  rw [← shares] at changed
  exact changed

theorem executing_le {execution : Option Execution}
    (executions : q.executions = Function.update p.executions i execution) : q.executing ≤ p.executing + 1 := by
  have changed := executing_update executions
  have one := Bool.toNat_le execution.isSome
  omega

theorem start_executing (cfg : WorkerConfig) (p : Pool M) (i : Fin n) (items : List ScheduledRequest) :
    (p.start cfg i items).executing ≤ p.executing + 1 := by
  unfold start
  dsimp only
  split
  · exact Nat.le_succ p.executing
  · apply executing_le
    rfl

theorem returned_le {action : M.Action} {s t : M.State} (lawful : M.Lawful) (moved : M.step s action = some t) :
    (M.places s).returned.length ≤ (M.places t).returned.length := by
  have turned {i : Fin n} (turn : (M.places s).Turn i (M.places t)) :
      (M.places s).returned.length ≤ (M.places t).returned.length := by
    cases turn with
    | quiet same => rw [same]
    | takes id waiting queue held returned => rw [returned]
    | dispatches dispatched taken waiting queue items held returned =>
      rw [returned, List.length_append]
      exact Nat.le_add_right _ _
  cases lawful.flow s action t moved with
  | waits item submits places => rw [places]; rfl
  | appends item submits places => rw [places]; rfl
  | granted id submits consumer waiting places => rw [places]; rfl
  | turn i submits consumer turn => exact turned turn
  | aside i submits consumer turn => exact turned turn

theorem advance_executing (cfg : WorkerConfig) {action : M.Action} {t : M.State} (lawful : M.Lawful)
    (moved : M.step p.scheduler action = some t) :
    (p.advance cfg action t).executing + p.places.returned.length ≤ p.executing + (M.places t).returned.length := by
  have followed : (p.follow action t).executing = p.executing := by
    obtain ⟨known, handles, frame, -⟩ := receive_frame p action
    rw [follow, frame]
    rfl
  have grown : p.places.returned.length ≤ (M.places t).returned.length := returned_le lawful moved
  unfold advance
  split
  · next i dispatched rest called dropped =>
    have more := congrArg List.length dropped
    rw [List.length_drop, List.length_cons] at more
    have started := start_executing cfg (p.follow action t) i dispatched.items
    omega
  · omega

theorem yields_executing (cfg : WorkerConfig) {execution : Execution} (executes : p.executions i = some execution) (event : BatchEvent) :
    (p.yields cfg i execution event).executing ≤ p.executing := by
  have updated : ∃ after, (p.yields cfg i execution event).executions = Function.update p.executions i after := by
    unfold yields
    split <;> exact ⟨_, rfl⟩
  obtain ⟨after, executions⟩ := updated
  have changed := executing_update executions
  rw [executes, Option.isSome_some, Bool.toNat_true] at changed
  have one := Bool.toNat_le after.isSome
  omega

theorem ends_executing (cfg : WorkerConfig) {execution : Execution} (executes : p.executions i = some execution) (ending : Ending) :
    (p.ends cfg i execution ending).executing + 1 = p.executing := by
  have updated : (p.ends cfg i execution ending).executions = Function.update p.executions i none := by
    cases ending with
    | raised exc => rfl
    | normal =>
      unfold ends
      dsimp only
      split <;> rfl
  have changed := executing_update updated
  rwa [executes, Option.isSome_some, Bool.toNat_true, Option.isSome_none, Bool.toNat_false] at changed

end Executing

section Serving

variable (progress : M.Progress (.batch cfg.maxBatchSize cfg.batchTimeoutMs))

structure Healthy (p : Pool M) : Prop where
  accounted : p.Accounted
  sound : p.Sound
  serving : p.phase = .serving
  holds : progress.holds p.scheduler

def work (p : Pool M) : Nat := progress.work p.scheduler + p.executing

variable {progress}

theorem advance_scheduler (cfg : WorkerConfig) (p : Pool M) (action : M.Action) (t : M.State) :
    (p.advance cfg action t).scheduler = t ∧ (p.advance cfg action t).phase = p.phase := by
  obtain ⟨s, executions, frame⟩ := advance_frame cfg p action t
  obtain ⟨known, handles, received, -⟩ := receive_frame p action
  rw [frame, follow, received]
  exact ⟨rfl, rfl⟩

theorem advance_known (cfg : WorkerConfig) (action : M.Action) (t : M.State) :
    p.known ⊆ (p.advance cfg action t).known := by
  obtain ⟨s, executions, frame⟩ := advance_frame cfg p action t
  rw [frame]
  cases submits : M.submits? action with
  | none =>
    rw [follow, receive_none submits]
    exact List.Subset.refl p.known
  | some item =>
    rw [follow, receive_some submits]
    exact List.subset_append_left p.known _

/-- As long as the pool serves, its scheduler has only been called by its workers, and never been interrupted. -/
theorem step_holds {action : PoolAction M} (sound : p.Sound) (held : p.phase = .serving → progress.holds p.scheduler)
    (taken : p.step cfg action = some q) : q.phase = .serving → progress.holds q.scheduler := by
  intro serving
  cases step_moves taken with
  | schedule admits enables moved =>
    obtain ⟨scheduler, phase⟩ := advance_scheduler cfg p _ _
    rw [phase] at serving
    rw [scheduler]
    exact progress.kept _ _ _ (held serving) enables.1 moved
  | yields executes =>
    obtain ⟨scheduler, -, phase⟩ := yields_kept _
    rw [phase] at serving
    rw [scheduler]
    exact held serving
  | ends executes =>
    obtain ⟨scheduler, -, phase⟩ := ends_kept _
    rw [phase] at serving
    rw [scheduler]
    exact held serving
  | cancel => exact held serving
  | stop => cases serving
  | throws executes cancelling => exact held serving
  | swallows swallows => exact held serving
  | interrupts idle cancelling moved => exact absurd serving (sound.cancelling _ cancelling)
  | returns stopping => cases serving

theorem run_healthy {acts : List (PoolAction M)} (lawful : M.Lawful) (run : exec (step cfg) {} acts = some p)
    (serving : p.phase = .serving) : p.Healthy progress := by
  obtain ⟨accounted, sound⟩ := run_accounted lawful run
  have kept (p : Pool M) (action : PoolAction M) (q : Pool M)
      (held : p.Sound ∧ (p.phase = .serving → progress.holds p.scheduler)) (_ : True)
      (taken : step cfg p action = some q) : q.Sound ∧ (q.phase = .serving → progress.holds q.scheduler) :=
    ⟨step_sound lawful held.1 taken, step_holds held.1 held.2 taken⟩
  have held := exec_invariant kept ⟨init_sound lawful, fun _ => progress.init⟩ (fun _ _ => True.intro) run
  exact ⟨accounted, sound, serving, held.2 serving⟩

/-- A chore uses up work, a request brings some, and neither the backend's events nor the callers change it. -/
theorem Healthy.moves {action : PoolAction M} (lawful : M.Lawful) (healthy : p.Healthy progress)
    (serves : action.serves = true) (taken : p.step cfg action = some q) :
    (q.Healthy progress ∧ p.known ⊆ q.known) ∧
      action.chore.toNat + q.work progress ≤ p.work progress + progress.price * action.submits.toNat := by
  have accounted := step_accounted healthy.accounted healthy.sound taken
  have sound := step_sound lawful healthy.sound taken
  have holds := step_holds healthy.sound (fun _ => healthy.holds) taken
  cases step_moves taken with
  | @schedule action t admits enables moved =>
    obtain ⟨scheduler, phase⟩ := advance_scheduler cfg p action t
    have serving := phase.trans healthy.serving
    refine ⟨⟨⟨accounted, sound, serving, holds serving⟩, advance_known cfg action t⟩, ?_⟩
    have executing := advance_executing cfg lawful moved
    rw [work, work, scheduler, PoolAction.chore, PoolAction.submits]
    cases submits : M.submits? action with
    | none =>
      have spent := progress.spends _ _ _ healthy.holds enables.1 submits moved
      change progress.work t + _ < _ + p.places.returned.length at spent
      change 1 + _ ≤ _ + progress.price * 0
      omega
    | some item =>
      have paid := progress.pays _ _ _ item healthy.holds submits moved
      change progress.work t + _ ≤ _ + p.places.returned.length + _ at paid
      change 0 + _ ≤ _ + progress.price * 1
      omega
  | @yields i event execution executes =>
    obtain ⟨scheduler, known, phase⟩ := @yields_kept n M p cfg i execution event
    have serving := phase.trans healthy.serving
    refine ⟨⟨⟨accounted, sound, serving, holds serving⟩, known ▸ List.Subset.refl _⟩, ?_⟩
    have executing := yields_executing cfg executes event
    rw [work, work, scheduler]
    change 0 + _ ≤ _ + progress.price * 0
    omega
  | @ends i ending execution executes =>
    obtain ⟨scheduler, known, phase⟩ := @ends_kept n M p cfg i execution ending
    have serving := phase.trans healthy.serving
    refine ⟨⟨⟨accounted, sound, serving, holds serving⟩, known ▸ List.Subset.refl _⟩, ?_⟩
    have executing := ends_executing cfg executes ending
    rw [work, work, scheduler]
    change 1 + _ ≤ _ + progress.price * 0
    omega
  | cancel =>
    refine ⟨⟨⟨accounted, sound, healthy.serving, healthy.holds⟩, List.Subset.refl p.known⟩, ?_⟩
    exact Nat.le_of_eq (Nat.zero_add _)
  | _ => cases serves

theorem Healthy.rests (healthy : p.Healthy progress)
    (rest : Quiescence.AtRest (step cfg) (fun action => action.chore = true) p) :
    ∀ id ∈ p.known, (p.handles id).closed = true := by
  have lives (i : Fin n) : p.cancelling i = false ∧ p.ended i = false := by
    refine ⟨?_, healthy.accounted.alive healthy.serving i⟩
    by_contra cancelling
    exact healthy.sound.cancelling i (by simpa using cancelling) healthy.serving
  have scheduled {action : M.Action} {t : M.State} (quiet : M.submits? action = none)
      (calls : ∀ other ∈ M.calls? action, other = .batch cfg.maxBatchSize cfg.batchTimeoutMs)
      (idle : ∀ i ∈ M.consumer? p.scheduler action, p.executions i = none)
      (moved : M.step p.scheduler action = some t) : False := by
    have admits : p.Admits action := by
      intro item submits
      rw [quiet] at submits
      cases submits
    have enables : p.Enables cfg action := by
      refine ⟨calls, fun i called => ⟨(lives i).2, fun _ => (lives i).1, ?_⟩⟩
      exact Option.isNone_iff_eq_none.mpr (idle i called)
    have stuck := rest (.schedule action) (Option.isNone_iff_eq_none.mpr quiet)
    simp [step, schedule, admits, enables, moved] at stuck
  have suspended : M.suspended p.scheduler = true := by
    by_contra busy
    obtain ⟨action, i, t, quiet, calls, called, holding, moved⟩ := progress.runs _ healthy.holds (by simpa using busy)
    refine scheduled quiet (SchedulerModel.forall_calls _ calls) (fun j same => ?_) moved
    rw [called] at same
    cases same
    by_contra executes
    obtain ⟨execution, executes⟩ := Option.ne_none_iff_exists'.mp executes
    exact holding (healthy.sound.executing i execution executes).1
  have idle (i : Fin n) : p.executions i = none := by
    by_contra executes
    obtain ⟨execution, executes⟩ := Option.ne_none_iff_exists'.mp executes
    have stuck := rest (.ends i .normal) rfl
    simp [step, suspended, (lives i).1, (lives i).2, executes] at stuck
  obtain ⟨waiting, queue, held⟩ := progress.rests _ healthy.holds suspended fun action quiet calls => by
    by_contra moves
    obtain ⟨t, moved⟩ := Option.ne_none_iff_exists'.mp moves
    exact scheduled quiet calls (fun i _ => idle i) moved
  intro id known
  rcases healthy.sound.covered id known with closed | placed | caught
  · exact closed
  · rcases mem_custody.mp placed with waits | queued | ⟨i, inHand⟩
    · exact absurd (waiting ▸ waits : id ∈ ([] : List String)) List.not_mem_nil
    · exact absurd (queue ▸ queued : id ∈ ([] : List String)) List.not_mem_nil
    · rw [hands_idle (idle i)] at inHand
      exact absurd (held i ▸ inHand : id ∈ ([] : List String)) List.not_mem_nil
  · exact absurd healthy.serving (healthy.sound.stopping id caught)

variable (progress)

/-- The chores of a pool that serves are paid for by its requests, everybody is answered when none is left, and the
    pool gets there if it is left to itself. -/
theorem completes {acts : List (PoolAction M)} (lawful : M.Lawful) (run : exec (Pool.step cfg) {} acts = some p)
    (serving : p.phase = .serving) :
    (∀ more q, (∀ action ∈ more, action.serves = true) → exec (Pool.step cfg) p more = some q →
      more.countP PoolAction.chore + q.work progress ≤
        p.work progress + progress.price * more.countP PoolAction.submits ∧
      (Quiescence.AtRest (Pool.step cfg) (fun action => action.chore = true) q →
        ∀ id ∈ q.known, (q.handles id).closed = true)) ∧
    ∃ more q, (∀ action ∈ more, action.chore = true) ∧ exec (Pool.step cfg) p more = some q ∧
      ∀ id ∈ p.known, (q.handles id).closed = true := by
  have begin : p.Healthy progress := run_healthy lawful run serving
  constructor
  · intro more q serves going
    have moves (s : Pool M) (action : PoolAction M) (t : Pool M) (healthy : s.Healthy progress)
        (serves : action.serves = true) (taken : Pool.step cfg s action = some t) :
        t.Healthy progress ∧
          action.chore.toNat + t.work progress ≤ s.work progress + progress.price * action.submits.toNat :=
      (healthy.moves lawful serves taken).imp_left And.left
    have kept (s : Pool M) (action : PoolAction M) (t : Pool M) (healthy : s.Healthy progress)
        (serves : action.serves = true) (taken : Pool.step cfg s action = some t) : t.Healthy progress :=
      (moves s action t healthy serves taken).1
    exact ⟨Quiescence.countP_exec_le moves begin serves going, (exec_invariant kept begin serves going).rests⟩
  · have spends (s : Pool M) (action : PoolAction M) (t : Pool M) (inv : s.Healthy progress ∧ p.known ⊆ s.known)
        (chore : action.chore = true) (taken : Pool.step cfg s action = some t) :
        (t.Healthy progress ∧ p.known ⊆ t.known) ∧ t.work progress < s.work progress := by
      obtain ⟨serves, quiet⟩ := PoolAction.serves_of_chore chore
      obtain ⟨⟨healthy, known⟩, less⟩ := inv.1.moves lawful serves taken
      rw [chore, quiet, Bool.toNat_true, Bool.toNat_false] at less
      exact ⟨⟨healthy, List.Subset.trans inv.2 known⟩, by omega⟩
    have kept (s : Pool M) (action : PoolAction M) (t : Pool M) (inv : s.Healthy progress ∧ p.known ⊆ s.known)
        (chore : action.chore = true) (taken : Pool.step cfg s action = some t) :
        t.Healthy progress ∧ p.known ⊆ t.known := (spends s action t inv chore taken).1
    have first : p.Healthy progress ∧ p.known ⊆ p.known := ⟨begin, List.Subset.refl p.known⟩
    obtain ⟨more, q, chores, going, rest⟩ := Quiescence.exists_atRest spends first
    obtain ⟨healthy, known⟩ := exec_invariant kept first chores going
    exact ⟨more, q, chores, going, fun id asked => healthy.rests rest id (known asked)⟩

end Serving

end Pool

namespace Scheduling

/-- The workers that a scheduler can serve: any number of them calls a `FIFOScheduler`, those of a `WorkerLayout` a
    `PriorityScheduler`. -/
def Fits (n : Nat) (maxBatchSize batchTimeoutMs : Int) : Scheduling → Prop
  | .fifo _ _ => 0 < n
  | .priority _ => n = 1 ∨ 0 < n ∧ maxBatchSize = 1 ∧ batchTimeoutMs = 0

theorem fits_layout (scheduling : Scheduling) (layout : WorkerLayout) :
    scheduling.Fits layout.workers layout.maxBatchSize layout.batchTimeoutMs := by
  cases scheduling with
  | fifo version clock => exact layout.workers_pos
  | priority cfg => exact layout.shape

def progress {n : Nat} {maxBatchSize batchTimeoutMs : Int} : (scheduling : Scheduling) →
    scheduling.Fits n maxBatchSize batchTimeoutMs → (scheduling.model n).Progress (.batch maxBatchSize batchTimeoutMs)
  | .fifo version clock, workers => fifoProgress version clock workers _
  | .priority cfg, shape => priorityProgress cfg shape

theorem price_le {n : Nat} {maxBatchSize batchTimeoutMs : Int} (scheduling : Scheduling)
    (fits : scheduling.Fits n maxBatchSize batchTimeoutMs) : (scheduling.progress fits).price ≤ 15 := by
  cases scheduling with
  | fifo version clock => exact Nat.le_of_ble_eq_true rfl
  | priority cfg => exact le_refl 15

end Scheduling

/-- As long as `stop` is not called, the chores of a pool are bounded by the work there is and a constant for each
    request that comes, whatever the backend yields and whoever gives up meanwhile; when none is left, every request
    has been answered or its caller has given up, and that is always within reach. -/
theorem Scheduling.answers_everyone (scheduling : Scheduling) {n : Nat} (cfg : WorkerConfig)
    (fits : scheduling.Fits n cfg.maxBatchSize cfg.batchTimeoutMs) {acts : List (PoolAction (scheduling.model n))}
    {p : Pool (scheduling.model n)} (run : exec (Pool.step cfg) {} acts = some p) (serving : p.phase = .serving) :
    (∀ more q, (∀ action ∈ more, action.serves = true) → exec (Pool.step cfg) p more = some q →
      more.countP PoolAction.chore ≤ p.work (scheduling.progress fits) + 15 * more.countP PoolAction.submits ∧
      ((∀ action, action.chore = true → q.step cfg action = none) → ∀ id ∈ q.known, (q.handles id).closed = true)) ∧
    ∃ more q, (∀ action ∈ more, action.chore = true) ∧ exec (Pool.step cfg) p more = some q ∧
      ∀ id ∈ p.known, (q.handles id).closed = true := by
  obtain ⟨bounded, reached⟩ := Pool.completes (scheduling.progress fits) (scheduling.model_lawful n) run serving
  refine ⟨fun more q serves going => ?_, reached⟩
  obtain ⟨paid, closes⟩ := bounded more q serves going
  have price := Nat.mul_le_mul_right (more.countP PoolAction.submits) (scheduling.price_le fits)
  exact ⟨by omega, closes⟩

namespace Scheduling

/-- Two native workers and a `PriorityScheduler`: a request arrives while both wait. -/
def awaited : Scheduling := .priority (.ticking .py311)

def awaitedConfig : WorkerConfig :=
  { clock := ⟨fun tick => tick, monotone_tick⟩, maxBatchSize := 1, batchTimeoutMs := 0, iter := id
    anyOrder := inOrder_perm }

def awaitedRun : Option (Pool (awaited.model 2)) :=
  let first : Fin 2 := ⟨0, Nat.two_pos⟩
  let second : Fin 2 := ⟨1, Nat.one_lt_two⟩
  exec (Pool.step awaitedConfig) {} [.schedule (SchedulerAction.call first (.batch 1 0)),
    .schedule (SchedulerAction.call second (.batch 1 0)),
    .schedule (SchedulerAction.submit (.ofBody { messages := [] } "a" 0) (some second))]

theorem answers_everyone_awaited :
    ∃ p, awaitedRun = some p ∧ (p.handles "a").closed = false ∧
      ∃ more q, (∀ action ∈ more, action.chore = true) ∧ exec (Pool.step awaitedConfig) p more = some q ∧
        (q.handles "a").closed = true := by
  have awaiting : awaitedRun.any (fun p => p.phase = .serving ∧ p.known = ["a"] ∧
      (p.handles "a").closed = false) = true := by
    decide +kernel
  rcases (Option.any_eq_true _ _).mp awaiting with ⟨p, run, held⟩
  rcases of_decide_eq_true held with ⟨serving, known, opened⟩
  have fits : awaited.Fits 2 1 0 := .inr ⟨Nat.two_pos, rfl, rfl⟩
  rcases (answers_everyone awaited awaitedConfig fits run serving).2 with ⟨more, q, chores, going, closes⟩
  exact ⟨p, run, opened, more, q, chores, going, closes "a" (by simp [known])⟩

end Scheduling

end LLMRuntime
