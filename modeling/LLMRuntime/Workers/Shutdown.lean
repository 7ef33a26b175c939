import LLMRuntime.Scheduler.FifoModel
import LLMRuntime.Scheduler.PriorityModel
import LLMRuntime.Workers.PoolSteps

namespace LLMRuntime

open Transition

namespace Pool

variable {n : Nat} {M : SchedulerModel n}

section Resistance

variable {p q : Pool M} {cfg : WorkerConfig} {i : Fin n} {t : M.State} {action : M.Action}

theorem advance_frame (cfg : WorkerConfig) (p : Pool M) (action : M.Action) (t : M.State) :
    ∃ s executions, p.advance cfg action t = { p.follow action t with services := s, executions } := by
  unfold advance
  split
  · unfold start
    dsimp only
    split
    · exact ⟨_, (p.follow action t).executions, rfl⟩
    · exact ⟨_, _, rfl⟩
  · exact ⟨_, _, rfl⟩

theorem receive_frame (p : Pool M) (action : M.Action) : ∃ known handles,
    p.receive action = { p with known, handles } ∧
      ∀ id ∈ p.known, p.Admits action → handles id = p.handles id := by
  cases submits : M.submits? action with
  | none => exact ⟨p.known, p.handles, receive_none submits, fun _ _ _ => rfl⟩
  | some item =>
    refine ⟨_, _, receive_some submits, fun id known admits => Function.update_of_ne ?_ _ _⟩
    rintro rfl
    exact (admits item submits).1 known

theorem yields_frame (execution : Execution) (event : BatchEvent) : (p.yields cfg i execution event).phase = p.phase ∧
    (p.yields cfg i execution event).resisted = p.resisted := by
  unfold yields
  split <;> exact ⟨rfl, rfl⟩

theorem ends_frame (execution : Execution) (ending : Ending) : (p.ends cfg i execution ending).phase = p.phase ∧
    (p.ends cfg i execution ending).resisted = p.resisted := by
  cases ending with
  | normal =>
    unfold ends
    dsimp only
    split <;> exact ⟨rfl, rfl⟩
  | raised exc => exact ⟨rfl, rfl⟩

/-- Only a consumer whose call goes on in another task takes a request although it is cancelled. -/
theorem resists_cases (lawful : M.Lawful) (enables : p.Enables cfg action) (moved : M.step p.scheduler action = some t)
    (resists : p.Resists action t = true) : M.version = .py311 := by
  unfold Resists at resists
  split at resists
  · next i consumer =>
    rw [Bool.and_eq_true, decide_eq_true_eq] at resists
    obtain ⟨cancelling, shorter⟩ := resists
    cases lawful.flow p.scheduler action t moved with
    | waits item submits places =>
      rw [places] at shorter
      exact absurd shorter (Nat.lt_irrefl _)
    | appends item submits places =>
      rw [places, Places.put, List.length_append] at shorter
      exact absurd shorter (Nat.not_lt.mpr (Nat.le_add_right _ _))
    | granted id submits nobody waiting places =>
      rw [nobody] at consumer
      cases consumer
    | turn j submits same turn own =>
      have running := (enables.2 j same).2.1 own
      rw [same] at consumer
      cases consumer
      rw [running] at cancelling
      cases cancelling
    | aside j submits same turn returned detached =>
      rcases detached with places | ⟨version, -⟩
      · rw [places] at shorter
        exact absurd shorter (Nat.lt_irrefl _)
      · exact version
  · cases resists

theorem step_resisted {action : PoolAction M} (lawful : M.Lawful) (version : M.version ≠ .py311)
    (calm : p.resisted = false) (taken : p.step cfg action = some q) : q.resisted = false := by
  cases step_moves taken with
  | @schedule action t admits enables moved =>
    obtain ⟨s, executions, same⟩ := advance_frame cfg p action t
    rw [same]
    change (p.resisted || p.Resists action t) = false
    rw [calm, Bool.false_or]
    by_contra resists
    exact version (resists_cases lawful enables moved (Bool.not_eq_false _ ▸ resists))
  | yields => rw [(yields_frame _ _).2, calm]
  | ends => rw [(ends_frame _ _).2, calm]
  | cancel => exact calm
  | stop => exact calm
  | throws => exact calm
  | swallows swallows => exact absurd (lawful.swallows p.scheduler _ swallows) version
  | interrupts => exact calm
  | returns => exact calm

/-- Every worker has been cancelled, and nobody has answered what they had in hand. -/
structure Undisturbed (p : Pool M) : Prop where
  cancelled : ∀ i, p.cancelling i = true ∨ p.ended i = true
  unanswered : ∀ id ∈ p.caught, (p.handles id).Unanswered

theorem Undisturbed.not_running (undisturbed : p.Undisturbed) (running : p.cancelling i = false)
    (lives : p.ended i = false) : False := by
  rcases undisturbed.cancelled i with cancelling | ended
  · exact absurd (running.symm.trans cancelling) (by decide)
  · exact absurd (lives.symm.trans ended) (by decide)

theorem Undisturbed.queue_stays (undisturbed : p.Undisturbed) (lawful : M.Lawful) (enables : p.Enables cfg action)
    (moved : M.step p.scheduler action = some t) (calm : p.Resists action t = false) :
    ∀ id ∈ p.places.queue, id ∈ (M.places t).queue := by
  cases lawful.flow p.scheduler action t moved with
  | waits item submits places =>
    rw [places]
    exact fun _ queued => queued
  | appends item submits places =>
    rw [places]
    exact fun _ queued => List.mem_append_left _ queued
  | granted id submits nobody waiting places =>
    rw [places]
    exact fun _ queued => List.mem_append_left _ queued
  | turn i submits consumer turn own =>
    obtain ⟨lives, running, -⟩ := enables.2 i consumer
    exact (undisturbed.not_running (running own) lives).elim
  | aside i submits consumer turn returned detached =>
    have cancelling : p.cancelling i = true :=
      (undisturbed.cancelled i).resolve_right fun ended => by
        rw [(enables.2 i consumer).1] at ended
        cases ended
    rw [Resists, consumer] at calm
    simp only [cancelling, Bool.true_and, decide_eq_false_iff_not] at calm
    cases turn with
    | quiet same =>
      rw [same]
      exact fun _ queued => queued
    | takes id waiting queue held _ =>
      refine absurd ?_ calm
      rw [places, queue.length_eq]
      exact Nat.lt_succ_self _
    | dispatches dispatched taken waiting queue items held more =>
      have lengths := congrArg List.length (returned.symm.trans more)
      simp at lengths

theorem Undisturbed.ends (undisturbed : p.Undisturbed) (i j : Fin n) :
    p.cancelling j = true ∨ Function.update p.ended i true j = true := by
  by_cases same : j = i
  · subst same
    exact .inr (Function.update_self _ _ _)
  · rw [Function.update_of_ne same]
    exact undisturbed.cancelled j

theorem step_undisturbed {action : PoolAction M} (lawful : M.Lawful) (sound : p.Sound)
    (undisturbed : p.resisted = false → p.phase ≠ .serving → p.Undisturbed) (taken : p.step cfg action = some q)
    (calm : q.resisted = false) (stopping : q.phase ≠ .serving) : q.Undisturbed := by
  cases step_moves taken with
  | @schedule action t admits enables moved =>
    obtain ⟨s, executions, same⟩ := advance_frame cfg p action t
    obtain ⟨known, handles, receives, kept⟩ := receive_frame p action
    rw [same, follow, receives] at calm stopping ⊢
    obtain ⟨before, quiet⟩ := Bool.or_eq_false_iff.mp calm
    have held := undisturbed before stopping
    refine ⟨held.cancelled, fun id caught => ?_⟩
    have none : p.catches t = [] := catches_nil (held.queue_stays lawful enables moved quiet)
    change id ∈ p.caught ++ p.catches t at caught
    rw [none, List.append_nil] at caught
    change (handles id).Unanswered
    rw [kept id (sound.outside id caught).1 admits]
    exact held.unanswered id caught
  | yields _ running lives =>
    rw [(yields_frame _ _).2] at calm
    rw [(yields_frame _ _).1] at stopping
    exact ((undisturbed calm stopping).not_running running lives).elim
  | ends _ running lives =>
    rw [(ends_frame _ _).2] at calm
    rw [(ends_frame _ _).1] at stopping
    exact ((undisturbed calm stopping).not_running running lives).elim
  | @cancel requestId =>
    have held := undisturbed calm stopping
    refine ⟨held.cancelled, fun id caught => ?_⟩
    change (Function.update p.handles requestId (p.handles requestId).cancel id).Unanswered
    by_cases same : id = requestId
    · subst same
      rw [Function.update_self]
      exact (held.unanswered id caught).cancel
    · rw [Function.update_of_ne same]
      exact held.unanswered id caught
  | stop =>
    refine ⟨fun i => ?_, fun id caught => ?_⟩
    · change (!p.ended i) = true ∨ p.ended i = true
      cases p.ended i <;> simp
    · obtain ⟨i, inHand⟩ := mem_stop_caught.mp caught
      exact sound.unanswered id (mem_custody_of_hands inHand)
  | throws =>
    have held := undisturbed calm stopping
    exact ⟨held.ends _, held.unanswered⟩
  | swallows => cases calm
  | interrupts =>
    have held := undisturbed calm stopping
    exact ⟨held.ends _, held.unanswered⟩
  | returns before =>
    have held := undisturbed calm before
    exact ⟨held.cancelled, held.unanswered⟩

end Resistance

section Runs

variable {p q : Pool M} {cfg : WorkerConfig}

theorem Sound.nothingDropped_iff (sound : p.Sound) (stopping : p.phase ≠ .serving) :
    p.NothingDropped ↔ ∀ id ∈ p.caught, (p.handles id).closed = true := by
  constructor
  · intro nothing id caught
    obtain ⟨known, absent, apart⟩ := sound.outside id caught
    by_contra opened
    exact apart (nothing id known absent (Bool.not_eq_true _ ▸ opened))
  · intro closes id known absent opened
    have notClosed (closed : (p.handles id).closed = true) : False := by
      rw [opened] at closed
      cases closed
    rcases sound.covered id known with closed | inside | caught
    · exact (notClosed closed).elim
    · rcases mem_custody.mp inside with waits | queued | ⟨i, inHand⟩
      · exact absurd waits absent
      · exact queued
      · exact (notClosed (closes id (sound.grasped stopping i id inHand))).elim
    · exact (notClosed (closes id caught)).elim

theorem run_sound {acts : List (PoolAction M)} (lawful : M.Lawful) (run : exec (step cfg) {} acts = some p) :
    p.Sound ∧ (p.resisted = false → p.phase ≠ .serving → p.Undisturbed) := by
  have kept (p : Pool M) (action : PoolAction M) (q : Pool M)
      (held : p.Sound ∧ (p.resisted = false → p.phase ≠ .serving → p.Undisturbed)) (_ : True)
      (taken : step cfg p action = some q) :
      q.Sound ∧ (q.resisted = false → q.phase ≠ .serving → q.Undisturbed) :=
    ⟨step_sound lawful held.1 taken, step_undisturbed lawful held.1 held.2 taken⟩
  exact exec_invariant kept ⟨init_sound lawful, fun _ stopping => absurd rfl stopping⟩ (fun _ _ => True.intro) run

theorem run_resisted {acts : List (PoolAction M)} (lawful : M.Lawful) (version : M.version ≠ .py311)
    (run : exec (step cfg) {} acts = some p) : p.resisted = false := by
  have kept (p : Pool M) (action : PoolAction M) (q : Pool M) (calm : p.resisted = false) (_ : True)
      (taken : step cfg p action = some q) : q.resisted = false := step_resisted lawful version calm taken
  exact exec_invariant kept rfl (fun _ _ => True.intro) run

end Runs

end Pool

/-- The scheduler that `_build_scheduler` builds. -/
inductive Scheduling where
  | fifo (version : PythonVersion) (clock : Clock)
  | priority (cfg : SchedulerConfig)

namespace Scheduling

def model (n : Nat) : Scheduling → SchedulerModel n
  | .fifo version clock => fifoModel version clock n
  | .priority cfg => priorityModel cfg n

def version : Scheduling → PythonVersion
  | .fifo version _ => version
  | .priority cfg => cfg.version

theorem model_lawful (n : Nat) (scheduling : Scheduling) : (scheduling.model n).Lawful := by
  cases scheduling with
  | fifo version clock => exact fifoModel_lawful version clock n
  | priority cfg => exact priorityModel_lawful cfg n

theorem model_version (n : Nat) (scheduling : Scheduling) : (scheduling.model n).version = scheduling.version := by
  cases scheduling <;> rfl

/-- When `stop` returns, nothing has been dropped exactly when no request that it caught in a worker's hands is
    still open; on Python 3.12 those are the requests that their callers have not cancelled. -/
theorem stop_drops_nothing_iff (scheduling : Scheduling) (n : Nat) (cfg : WorkerConfig)
    {acts : List (PoolAction (scheduling.model n))} {p : Pool (scheduling.model n)}
    (run : exec (Pool.step cfg) {} acts = some p) (stopped : p.phase = .stopped) :
    (p.NothingDropped ↔ ∀ id ∈ p.caught, (p.handles id).closed = true) ∧
      (p.resisted = false → (p.NothingDropped ↔ ∀ id ∈ p.caught, (p.handles id).cancelled = true)) ∧
      (scheduling.version = .py312 → p.resisted = false) := by
  obtain ⟨sound, undisturbed⟩ := Pool.run_sound (scheduling.model_lawful n) run
  have stopping : p.phase ≠ .serving := by
    rw [stopped]
    decide
  have closes := sound.nothingDropped_iff stopping
  refine ⟨closes, fun calm => ?_, fun version => ?_⟩
  · rw [closes]
    exact forall₂_congr fun id caught => ((undisturbed calm stopping).unanswered id caught).closed_iff
  · refine Pool.run_resisted (scheduling.model_lawful n) ?_ run
    rw [scheduling.model_version n, version]
    decide

section Caught

def ticking : Scheduling := .fifo .py312 ⟨fun tick => tick, monotone_tick⟩

theorem onlyPriority_nonneg : (0 : Int) ≤ 3 := by decide

/-- One worker has the only request in hand when `stop` cancels it: it executes a batch, or it waits for more when
    `maxBatchSize` leaves room. -/
def caughtRun (maxBatchSize batchTimeoutMs : Int) (afterwards : List (PoolAction (ticking.model 1))) :
    Option (Pool (ticking.model 1)) :=
  let item := ScheduledRequest.ofBody { messages := [], priority := 3, priority_nonneg := onlyPriority_nonneg } "only" 0
  let cfg : WorkerConfig :=
    { clock := ⟨fun tick => tick, monotone_tick⟩, maxBatchSize, batchTimeoutMs, iter := id, anyOrder := fun _ => .refl _ }
  let only : Fin 1 := ⟨0, Nat.one_pos⟩
  exec (Pool.step cfg) {} ([.schedule (FifoAction.submit item none),
    .schedule (FifoAction.call only (.batch maxBatchSize batchTimeoutMs)), .schedule (FifoAction.collect only), .stop] ++
      afterwards)

theorem stop_drops_nothing_iff_cancelled : ∃ p, caughtRun 1 0 [.cancel "only", .interrupt 0 none, .returns] = some p ∧
    p.caught = ["only"] ∧ p.NothingDropped := by
  have returned : (caughtRun 1 0 [.cancel "only", .interrupt 0 none, .returns]).any (fun p =>
      p.phase = .stopped ∧ p.caught = ["only"] ∧ (p.handles "only").cancelled = true) = true := by
    decide +kernel
  obtain ⟨p, run, held⟩ := (Option.any_eq_true _ _).mp returned
  obtain ⟨stopped, caught, cancelled⟩ := of_decide_eq_true held
  obtain ⟨-, verdict, calm⟩ := stop_drops_nothing_iff ticking 1 _ run stopped
  refine ⟨p, run, caught, (verdict (calm rfl)).mpr ?_⟩
  rw [caught]
  exact List.forall_mem_singleton.mpr cancelled

/-- A batch between two events of the backend, and a partial batch that a call collects. -/
theorem stop_drops_caught :
    (∃ p, caughtRun 1 0 [.interrupt 0 none, .returns] = some p ∧ p.phase = .stopped ∧ ¬p.NothingDropped) ∧
      (∃ p, caughtRun 2 9000 [] = some p ∧ p.places.held 0 = ["only"]) ∧
      ∃ p, caughtRun 2 9000 [.interrupt 0 none, .returns] = some p ∧ p.phase = .stopped ∧ ¬p.NothingDropped := by
  have executing : (caughtRun 1 0 [.interrupt 0 none, .returns]).any
      (fun p => p.phase = .stopped ∧ ¬p.NothingDropped) = true := by
    decide +kernel
  have partly : (caughtRun 2 9000 []).any (fun p => p.places.held 0 = ["only"]) = true := by
    decide +kernel
  have collecting : (caughtRun 2 9000 [.interrupt 0 none, .returns]).any
      (fun p => p.phase = .stopped ∧ ¬p.NothingDropped) = true := by
    decide +kernel
  obtain ⟨p, run, held⟩ := (Option.any_eq_true _ _).mp executing
  obtain ⟨caught, before, holds⟩ := (Option.any_eq_true _ _).mp partly
  obtain ⟨q, other, dropped⟩ := (Option.any_eq_true _ _).mp collecting
  exact ⟨⟨p, run, of_decide_eq_true held⟩, ⟨caught, before, of_decide_eq_true holds⟩, q, other,
    of_decide_eq_true dropped⟩

end Caught

end Scheduling

end LLMRuntime
