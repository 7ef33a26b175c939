import LLMRuntime.Backends.Server

namespace LLMRuntime

/-- How a worker task ends: `_worker_loop` never returns. -/
inductive WorkerEnd where
  | cancelled
  | died (error : PyException)
  deriving DecidableEq, Repr

/-- `WorkerManager.stop`: `gather` ends with the first of the cancelled tasks that ends, and `suppress` lets
    only a `CancelledError` go. `ends` lists how they end, first those that had ended before, then the others in
    the order in which they do; `none` when no task ends. -/
def WorkerManager.stop (ends : List WorkerEnd) : Option Exit :=
  match ends with
  | [] => none
  | .cancelled :: _ => some .returned
  | .died error :: _ => some (.raised error)

/-- The backend of a `RuntimeServices`: `MockBackend` has neither `start` nor `stop`. -/
inductive RuntimeBackend where
  | mock
  | server (backend : ServerBackend)
  deriving DecidableEq, Repr

namespace RuntimeServices

/-- `manager.start` only creates tasks. -/
def start (backend : RuntimeBackend) (run : StartRun) : Exit × RuntimeBackend :=
  match backend with
  | .mock => (.returned, .mock)
  | .server b => ((b.start run).1, .server (b.start run).2)

def stop (backend : RuntimeBackend) (ends : List WorkerEnd) (obeys : Bool) : Option (Exit × RuntimeBackend) :=
  match WorkerManager.stop ends with
  | none => none
  | some .returned =>
    match backend with
    | .mock => some (.returned, .mock)
    | .server b => some (.returned, .server (b.stop obeys))
  | some exit => some (exit, backend)

end RuntimeServices

/-- The world during one lifespan: `served` is how the application between startup and shutdown ends, and
    `crashes` says that the subprocess exits by itself while it serves. -/
structure LifespanRun where
  start : StartRun
  served : Exit := .returned
  crashes : Bool := false
  ends : List WorkerEnd
  obeys : Bool := true

namespace RuntimeBackend

def crash : RuntimeBackend → RuntimeBackend
  | .mock => .mock
  | .server b => .server b.crash

/-- No subprocess of the backend is alive and its client is closed. -/
def Released : RuntimeBackend → Prop
  | .mock => True
  | .server b => b.Released

/-- The startup spawns nothing, or its subprocess becomes healthy and no dead worker stands in the way of
    the shutdown. -/
def CleansUp (backend : RuntimeBackend) (run : LifespanRun) : Prop :=
  match backend with
  | .mock => True
  | .server b => run.start.spawn ≠ .returned ∨
      b.BecomesHealthy run.start.health ∧ ∀ error, run.ends.head? ≠ some (.died error)

end RuntimeBackend

/-- `create_app.lifespan`: how it ends and what is left of the backend; `none` when the shutdown never ends. -/
def lifespan (backend : RuntimeBackend) (run : LifespanRun) : Option (Exit × RuntimeBackend) :=
  match RuntimeServices.start backend run.start with
  | (.returned, backend) =>
    let backend := if run.crashes then backend.crash else backend
    (RuntimeServices.stop backend run.ends run.obeys).map fun stopped =>
      (if stopped.1 = .returned then run.served else stopped.1, stopped.2)
  | (exit, backend) => some (exit, backend)

theorem WorkerManager.stop_cases {ends : List WorkerEnd} {exit : Exit} (stopped : WorkerManager.stop ends = some exit) :
    (exit = .returned ∧ ∀ error, ends.head? ≠ some (.died error)) ∨
      ∃ error, exit = .raised error ∧ ends.head? = some (.died error) := by
  cases ends with
  | nil => cases stopped
  | cons first rest =>
    cases first with
    | cancelled =>
      cases stopped
      exact .inl ⟨rfl, by simp⟩
    | died error =>
      cases stopped
      exact .inr ⟨error, rfl, rfl⟩

/-- Shutting down releases what the backend holds exactly when `manager.stop` does not raise. -/
theorem RuntimeServices.stop_released_iff {b : ServerBackend} (holds : b.Holds) {ends : List WorkerEnd} {obeys : Bool}
    {stopped : Exit × RuntimeBackend} (ended : RuntimeServices.stop (.server b) ends obeys = some stopped) :
    stopped.2.Released ↔ ∀ error, ends.head? ≠ some (.died error) := by
  unfold RuntimeServices.stop at ended
  cases manager : WorkerManager.stop ends with
  | none =>
    rw [manager] at ended
    cases ended
  | some exit =>
    rw [manager] at ended
    rcases WorkerManager.stop_cases manager with ⟨rfl, alive⟩ | ⟨error, rfl, dead⟩
    · cases ended
      exact ⟨fun _ => alive, fun _ => holds.2.stop obeys⟩
    · cases ended
      constructor
      · intro released
        have client : b.client = false := released.1
        rw [holds.1] at client
        cases client
      · intro alive
        exact absurd dead (alive error)

theorem RuntimeBackend.crash_holds {b : ServerBackend} (holds : b.Holds) (crashes : Bool) :
    ∃ b' : ServerBackend, b'.Holds ∧
      (if crashes then (RuntimeBackend.server b).crash else .server b) = .server b' := by
  cases crashes with
  | false => exact ⟨b, holds, rfl⟩
  | true => exact ⟨b.crash, holds.onProcess _, rfl⟩

theorem lifespan_mock {run : LifespanRun} {outcome : Exit × RuntimeBackend}
    (ended : lifespan .mock run = some outcome) : outcome.2 = .mock := by
  simp only [lifespan, RuntimeServices.start, RuntimeBackend.crash, ite_self] at ended
  obtain ⟨stopped, down, rfl⟩ := Option.map_eq_some_iff.mp ended
  unfold RuntimeServices.stop at down
  split at down
  · cases down
  · cases down
    rfl
  · cases down
    rfl

/-- A lifespan that has ended leaves no subprocess and no client behind exactly when its startup did not fail
    after spawning and the first worker task to end did not die of an exception. -/
theorem lifespan_released_iff (backend : RuntimeBackend) (run : LifespanRun) (clean : backend.Released)
    {outcome : Exit × RuntimeBackend} (ended : lifespan backend run = some outcome) :
    outcome.2.Released ↔ backend.CleansUp run := by
  cases backend with
  | mock =>
    rw [lifespan_mock ended]
    exact ⟨fun _ => True.intro, fun _ => True.intro⟩
  | server b =>
    have clean : b.Released := clean
    have shutdown : (RuntimeBackend.server b).CleansUp run ↔ run.start.spawn ≠ .returned ∨
      b.BecomesHealthy run.start.health ∧ ∀ error, run.ends.head? ≠ some (.died error) := Iff.rfl
    rw [shutdown]
    unfold lifespan RuntimeServices.start at ended
    dsimp only at ended
    rcases ServerBackend.start_of_released clean run.start with ⟨unspawned, same⟩ | ⟨spawned, healthy, holds⟩
    · rw [same] at ended
      have left : outcome.2 = .server b := by
        cases spawn : run.start.spawn with
        | returned => exact absurd spawn unspawned
        | raised error =>
          rw [spawn] at ended
          cases ended
          rfl
        | cancelled =>
          rw [spawn] at ended
          cases ended
          rfl
      rw [left]
      exact ⟨fun _ => .inl unspawned, fun _ => clean⟩
    · have leaks (failed : (b.start run.start).1 ≠ .returned)
          (same : outcome.2 = .server (b.start run.start).2) :
          outcome.2.Released ↔ run.start.spawn ≠ .returned ∨
            b.BecomesHealthy run.start.health ∧ ∀ error, run.ends.head? ≠ some (.died error) := by
        rw [same]
        constructor
        · intro released
          have client : (b.start run.start).2.client = false := released.1
          rw [holds.1] at client
          cases client
        · rintro (unspawned | ⟨answers, -⟩)
          · exact absurd spawned unspawned
          · exact absurd (healthy.mpr answers) failed
      cases exit : (b.start run.start).1 with
      | raised error =>
        rw [exit] at ended leaks
        cases ended
        exact leaks (by simp) rfl
      | cancelled =>
        rw [exit] at ended leaks
        cases ended
        exact leaks (by simp) rfl
      | returned =>
        rw [exit] at ended
        obtain ⟨serving, held, crashed⟩ := RuntimeBackend.crash_holds holds run.crashes
        dsimp only at ended
        rw [crashed] at ended
        obtain ⟨stopped, down, rfl⟩ := Option.map_eq_some_iff.mp ended
        rw [RuntimeServices.stop_released_iff held down]
        constructor
        · intro alive
          exact .inr ⟨healthy.mp exit, alive⟩
        · rintro (unspawned | ⟨-, alive⟩)
          · exact absurd spawned unspawned
          · exact alive

/-- A server that refuses two connections, then answers 503, then 200, and a worker that is cancelled. -/
def slowStart : LifespanRun where
  start := { health := fun attempt => ⟨if attempt < 2 then .connectError
    else if attempt < 3 then .status 503 else .status 200, false⟩ }
  ends := [.cancelled]

theorem lifespan_released_iff_slowStart :
    ∃ outcome, lifespan (.server (VLLMBackend.create "model")) slowStart = some outcome ∧ outcome.2.Released := by
  have clean : (RuntimeBackend.server (VLLMBackend.create "model")).Released := ⟨rfl, by simp [VLLMBackend.create]⟩
  obtain ⟨outcome, ended⟩ :
      ∃ outcome, lifespan (.server (VLLMBackend.create "model")) slowStart = some outcome := ⟨_, rfl⟩
  refine ⟨outcome, ended, (lifespan_released_iff _ slowStart clean ended).mpr ?_⟩
  refine .inr ⟨⟨3, by decide, rfl, fun j before => ?_⟩, by simp [slowStart]⟩
  rw [Nat.zero_add]
  obtain rfl | rfl | rfl : j = 0 ∨ j = 1 ∨ j = 2 := by omega
  · exact ⟨rfl, .inl rfl⟩
  · exact ⟨rfl, .inl rfl⟩
  · exact ⟨rfl, .inr ⟨503, by decide, rfl⟩⟩

/-- A health check that times out and a worker that has died each leave the server running. -/
theorem failed_lifespan_leaks_server :
    (∃ outcome, lifespan (.server (VLLMBackend.create "model"))
        { start := { health := fun _ => ⟨.otherError (.other "ReadTimeout" ""), false⟩ }, ends := [] } = some outcome ∧
      ¬ outcome.2.Released) ∧
    ∃ outcome, lifespan (.server (LlamaCppBackend.create "model"))
        { start := { health := fun _ => ⟨.status 200, false⟩ }
          ends := [.died (.other "OSError" "No space left on device")] } = some outcome ∧
      ¬ outcome.2.Released := by
  refine ⟨⟨_, rfl, fun released => ?_⟩, _, rfl, fun released => ?_⟩
  · exact absurd released.1 (by decide)
  · exact absurd released.1 (by decide)

end LLMRuntime
