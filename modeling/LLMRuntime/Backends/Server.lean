import LLMRuntime.Core.Response
import Mathlib.Data.List.Basic

namespace LLMRuntime

/-- How an awaited call ends; `cancelled` is the `CancelledError` that no `except Exception` catches. -/
inductive Exit where
  | returned
  | raised (error : PyException)
  | cancelled
  deriving DecidableEq, Repr

inductive HealthReply where
  | status (code : Nat)
  | connectError
  | otherError (error : PyException)
  | cancelled
  deriving DecidableEq, Repr

structure HealthPoll where
  reply : HealthReply
  sleepCancelled : Bool := false
  deriving DecidableEq, Repr

def HealthPoll.Waits (poll : HealthPoll) : Prop :=
  poll.sleepCancelled = false ∧ (poll.reply = .connectError ∨ ∃ code ≠ 200, poll.reply = .status code)

/-- A subprocess as the operating system sees it; `answered` and `killed` are history variables. -/
structure ServerProcess where
  alive : Bool := true
  answered : Bool := false
  killed : Bool := false
  deriving DecidableEq, Repr

/-- What `VLLMBackend` and `LlamaCppBackend` have in common. `process` is an index into `spawned`, the list
    of all subprocesses so far, which is a history variable. -/
structure ServerBackend where
  server : String
  modelPath : String
  baseUrl : String
  pollAttempts : Nat
  stopTimeoutS : ℚ
  process : Option Nat := none
  client : Bool := false
  spawned : List ServerProcess := []
  deriving DecidableEq, Repr

def VLLMBackend.create (modelPath : String) (port : Nat := 8082) : ServerBackend where
  server := "vllm serve"
  modelPath := modelPath
  baseUrl := "http://127.0.0.1:" ++ toString port
  pollAttempts := 600
  stopTimeoutS := 10

def LlamaCppBackend.create (modelPath : String) (port : Nat := 8081) : ServerBackend where
  server := "llama-server"
  modelPath := modelPath
  baseUrl := "http://127.0.0.1:" ++ toString port
  pollAttempts := 120
  stopTimeoutS := 5

/-- The world during one call of `start`: how `create_subprocess_exec` ends, what each poll meets, and
    whether the subprocess exits by itself meanwhile. -/
structure StartRun where
  spawn : Exit := .returned
  health : Nat → HealthPoll
  crashes : Bool := false

namespace ServerBackend

variable (b : ServerBackend)

def startError : PyException :=
  .other "RuntimeError" (b.server ++ " failed to start on " ++ b.baseUrl ++ " (model=" ++ b.modelPath ++ ")")

def onProcess (f : ServerProcess → ServerProcess) : ServerBackend :=
  match b.process with
  | none => b
  | some pid => { b with spawned := b.spawned.modify pid f }

/-- A reply to `GET /health` comes from the subprocess that the backend holds: it alone listens on the port. -/
def hear (reply : HealthReply) : ServerBackend :=
  if reply = .status 200 then b.onProcess fun process => { process with answered := true } else b

/-- The `for attempt in range(...)` of `start`, with `left` attempts to go. -/
def poll (health : Nat → HealthPoll) : ServerBackend → (left attempt : Nat) → Exit × ServerBackend
  | b, 0, _ => (.raised b.startError, b)
  | b, left + 1, attempt =>
    let b := b.hear (health attempt).reply
    match (health attempt).reply with
    | .otherError error => (.raised error, b)
    | .cancelled => (.cancelled, b)
    | reply =>
      if reply = .status 200 then (.returned, b)
      else if (health attempt).sleepCancelled then (.cancelled, b)
      else b.poll health left (attempt + 1)

def crash : ServerBackend := b.onProcess fun process => { process with alive := false }

def connect : ServerBackend :=
  { b with process := some b.spawned.length, client := true, spawned := b.spawned ++ [{}] }

def start (run : StartRun) : Exit × ServerBackend :=
  if b.client then (.returned, b)
  else
    match run.spawn with
    | .returned =>
      let (exit, b) := b.connect.poll run.health b.pollAttempts 0
      (exit, if run.crashes then b.crash else b)
    | exit => (exit, b)

def running : Bool :=
  match b.process with
  | none => false
  | some pid => (b.spawned[pid]?.map ServerProcess.alive).getD false

/-- `obeys` says that the subprocess ends within `stopTimeoutS` after `terminate()`; else it is killed. -/
def stop (obeys : Bool) : ServerBackend :=
  let b := { b with client := false }
  if b.running then
    { b.onProcess fun process => { process with alive := false, killed := !obeys } with process := none }
  else b

def Released : Prop := b.client = false ∧ ∀ process ∈ b.spawned, process.alive = false

def Owned : Prop :=
  ∀ pid process, b.spawned[pid]? = some process → process.alive = true → b.process = some pid

def AnswersWithin (health : Nat → HealthPoll) (left attempt : Nat) : Prop :=
  ∃ k < left, (health (attempt + k)).reply = .status 200 ∧ ∀ j < k, (health (attempt + j)).Waits

def BecomesHealthy (health : Nat → HealthPoll) : Prop := AnswersWithin health b.pollAttempts 0

variable {b} {health : Nat → HealthPoll} {left attempt : Nat}

theorem answersWithin_succ : AnswersWithin health (left + 1) attempt ↔
    (health attempt).reply = .status 200 ∨ (health attempt).Waits ∧ AnswersWithin health left (attempt + 1) := by
  constructor
  · rintro ⟨k, bound, answered, waits⟩
    cases k with
    | zero => exact .inl answered
    | succ k =>
      refine .inr ⟨waits 0 (Nat.succ_pos k), k, by omega, ?_, fun j before => ?_⟩
      · rwa [Nat.add_right_comm, Nat.add_assoc]
      · rw [Nat.add_right_comm, Nat.add_assoc]
        exact waits (j + 1) (by omega)
  · rintro (answered | ⟨first, k, bound, answered, waits⟩)
    · exact ⟨0, Nat.succ_pos left, answered, fun j before => absurd before (Nat.not_lt_zero j)⟩
    · refine ⟨k + 1, by omega, ?_, fun j before => ?_⟩
      · rwa [Nat.add_right_comm, Nat.add_assoc] at answered
      · cases j with
        | zero => exact first
        | succ j =>
          have later := waits j (by omega)
          rwa [Nat.add_right_comm, Nat.add_assoc] at later

theorem poll_succ_returned : (b.poll health (left + 1) attempt).1 = .returned ↔
    (health attempt).reply = .status 200 ∨
      (health attempt).Waits ∧ ((b.hear (health attempt).reply).poll health left (attempt + 1)).1 = .returned := by
  rw [poll, HealthPoll.Waits]
  cases (health attempt).reply with
  | otherError error => simp
  | cancelled => simp
  | connectError => cases (health attempt).sleepCancelled <;> simp
  | status code =>
    by_cases ok : code = 200
    · simp [ok]
    · cases (health attempt).sleepCancelled <;> simp [ok]

theorem poll_returned_iff : (b.poll health left attempt).1 = .returned ↔ AnswersWithin health left attempt := by
  induction left generalizing b attempt with
  | zero =>
    constructor
    · intro returned
      cases returned
    · rintro ⟨k, bound, -⟩
      exact absurd bound (Nat.not_lt_zero k)
  | succ left ih => rw [poll_succ_returned, answersWithin_succ, ih]

/-- The subprocess has answered with status 200 when the loop returns, and not otherwise. -/
theorem poll_leaves : (b.poll health left attempt).2 =
    if (b.poll health left attempt).1 = .returned then
      b.onProcess fun process => { process with answered := true }
    else b := by
  induction left generalizing attempt with
  | zero => rfl
  | succ left ih =>
    rw [poll, hear]
    cases (health attempt).reply with
    | otherError error => rfl
    | cancelled => rfl
    | connectError =>
      cases (health attempt).sleepCancelled with
      | true => rfl
      | false => exact ih
    | status code =>
      by_cases ok : code = 200
      · simp [ok]
      · cases (health attempt).sleepCancelled with
        | true => simp [ok]
        | false => simpa [ok] using ih

@[simp] theorem onProcess_process (f : ServerProcess → ServerProcess) : (b.onProcess f).process = b.process := by
  unfold onProcess
  split <;> rfl

@[simp] theorem onProcess_client (f : ServerProcess → ServerProcess) : (b.onProcess f).client = b.client := by
  unfold onProcess
  split <;> rfl

theorem onProcess_spawned {f : ServerProcess → ServerProcess} {pid : Nat} {process : ServerProcess}
    (found : (b.onProcess f).spawned[pid]? = some process) :
    ∃ before, b.spawned[pid]? = some before ∧ process = if b.process = some pid then f before else before := by
  unfold onProcess at found
  split at found
  · next nothing =>
    rw [nothing]
    exact ⟨process, found, by simp⟩
  · next own held =>
    rw [List.getElem?_modify] at found
    obtain ⟨before, there, same⟩ := Option.map_eq_some_iff.mp found
    refine ⟨before, there, ?_⟩
    rw [held, ← same]
    simp only [Option.some.injEq]

theorem Owned.onProcess (owned : b.Owned) (f : ServerProcess → ServerProcess) : (b.onProcess f).Owned := by
  intro pid process found alive
  rw [onProcess_process]
  obtain ⟨before, there, same⟩ := onProcess_spawned found
  by_cases held : b.process = some pid
  · exact held
  · rw [if_neg held] at same
    exact owned pid before there (same ▸ alive)

def Holds (b : ServerBackend) : Prop := b.client = true ∧ b.Owned

theorem Holds.onProcess (holds : b.Holds) (f : ServerProcess → ServerProcess) : (b.onProcess f).Holds :=
  ⟨(onProcess_client f).trans holds.1, holds.2.onProcess f⟩

theorem Owned.stop (owned : b.Owned) (obeys : Bool) : (b.stop obeys).Released := by
  have released (process : ServerProcess) (member : process ∈ (b.stop obeys).spawned) : process.alive = false := by
    by_contra alive
    rw [Bool.not_eq_false] at alive
    obtain ⟨pid, found⟩ := List.getElem?_of_mem member
    unfold ServerBackend.stop at found
    dsimp only at found
    split at found
    · obtain ⟨before, there, same⟩ := onProcess_spawned found
      dsimp only at there same
      by_cases held : b.process = some pid
      · rw [if_pos held] at same
        rw [same] at alive
        cases alive
      · rw [if_neg held] at same
        exact held (owned pid before there (same ▸ alive))
    · next idle =>
      have held := owned pid process found alive
      have runs : b.running = true := by simp_all [running]
      exact idle runs
  refine ⟨?_, released⟩
  unfold ServerBackend.stop
  dsimp only
  split
  · exact onProcess_client _
  · rfl

theorem Released.connect (released : b.Released) : b.connect.Holds := by
  refine ⟨rfl, ?_⟩
  intro pid process found alive
  rw [ServerBackend.connect, List.getElem?_append] at found
  split at found
  · have dead := released.2 process (List.mem_of_getElem? found)
    rw [alive] at dead
    cases dead
  · next outside =>
    have last : pid - b.spawned.length = 0 := by
      have bound := (List.getElem?_eq_some_iff.mp found).1
      simpa using bound
    rw [show pid = b.spawned.length by omega]
    rfl

theorem start_spawns (unopened : b.client = false) {run : StartRun} (spawned : run.spawn = .returned) :
    let exit := (b.connect.poll run.health b.pollAttempts 0).1
    let after :=
      if exit = .returned then b.connect.onProcess fun process => { process with answered := true } else b.connect
    b.start run = (exit, if run.crashes then after.crash else after) := by
  intro exit after
  have left : (b.connect.poll run.health b.pollAttempts 0).2 = after := poll_leaves
  simp only [start, unopened, Bool.false_eq_true, if_false, spawned, left]
  rfl

/-- A call that finds no client spawns nothing, or it leaves the client and one subprocess to `stop`
    and returns only if that subprocess becomes healthy. -/
theorem start_of_released (released : b.Released) (run : StartRun) :
    (run.spawn ≠ .returned ∧ b.start run = (run.spawn, b)) ∨
      (run.spawn = .returned ∧ ((b.start run).1 = .returned ↔ b.BecomesHealthy run.health) ∧
        (b.start run).2.Holds) := by
  have unopened : b.client = false := released.1
  cases spawned : run.spawn with
  | raised error =>
    refine .inl ⟨by simp, ?_⟩
    simp [start, unopened, spawned]
  | cancelled =>
    refine .inl ⟨by simp, ?_⟩
    simp [start, unopened, spawned]
  | returned =>
    have started := start_spawns unopened spawned
    dsimp only at started
    have marked : (if (b.connect.poll run.health b.pollAttempts 0).1 = .returned then
        b.connect.onProcess fun process => { process with answered := true } else b.connect).Holds := by
      split
      · exact released.connect.onProcess _
      · exact released.connect
    rw [started]
    refine .inr ⟨rfl, poll_returned_iff, ?_⟩
    split
    · exact marked.onProcess _
    · exact marked

end ServerBackend

end LLMRuntime
