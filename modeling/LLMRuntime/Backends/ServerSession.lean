import LLMRuntime.Backends.Server
import LLMRuntime.Foundation.Transition

namespace LLMRuntime

open Transition

/-- How the wait for the subprocess ends, after `terminate()`: it ends, within the timeout or after `kill()`, or the
    call is cancelled before or after `kill()`. -/
inductive StopWait where
  | ends (obeys : Bool)
  | cancelled (killed : Bool)
  deriving DecidableEq, Repr

structure StopRun where
  close : Exit := .returned
  wait : StopWait

namespace ServerBackend

variable (b : ServerBackend)

def stopRun (run : StopRun) : Exit × ServerBackend :=
  if b.client ∧ run.close ≠ .returned then (run.close, b)
  else
    match run.wait with
    | .ends obeys => (.returned, b.stop obeys)
    | .cancelled killed =>
      let b := { b with client := false }
      if b.running then
        (.cancelled, if killed then b.onProcess fun process => { process with alive := false, killed := true } else b)
      else (.returned, b)

def exits (pid : Nat) : ServerBackend :=
  { b with spawned := b.spawned.modify pid fun process => { process with alive := false } }

def live : Nat := b.spawned.countP ServerProcess.alive

variable {b}

theorem live_le_one_of_same {spawned : List ServerProcess}
    (same : ∀ (i j : Nat) (p q : ServerProcess), spawned[i]? = some p → spawned[j]? = some q → p.alive = true →
      q.alive = true → i = j) :
    spawned.countP ServerProcess.alive ≤ 1 := by
  induction spawned with
  | nil => exact Nat.zero_le 1
  | cons process spawned ih =>
    by_cases alive : process.alive = true
    · have dead : spawned.countP ServerProcess.alive = 0 := by
        apply List.countP_eq_zero.mpr
        intro other member lives
        obtain ⟨i, found⟩ := List.getElem?_of_mem member
        have index : 0 = i + 1 := same 0 (i + 1) process other rfl found alive lives
        omega
      rw [List.countP_cons_of_pos alive, dead]
    · rw [List.countP_cons_of_neg alive]
      apply ih
      intro i j p q first second lives livesToo
      have index : i + 1 = j + 1 := same (i + 1) (j + 1) p q first second lives livesToo
      omega

theorem Owned.live_le_one (owned : b.Owned) : b.live ≤ 1 := by
  apply live_le_one_of_same
  intro i j p q first second lives livesToo
  have held := owned i p first lives
  rw [owned j q second livesToo] at held
  exact (Option.some.inj held).symm

theorem running_iff : b.running = true ↔ ∃ pid process, b.process = some pid ∧ b.spawned[pid]? = some process ∧
    process.alive = true := by
  unfold running
  cases b.process with
  | none => simp
  | some pid => cases found : b.spawned[pid]? <;> simp [found]

theorem Owned.idle (owned : b.Owned) (idle : b.running = false) : ∀ process ∈ b.spawned, process.alive = false := by
  intro process member
  by_contra alive
  rw [Bool.not_eq_false] at alive
  obtain ⟨pid, found⟩ := List.getElem?_of_mem member
  have runs := running_iff.mpr ⟨pid, process, owned pid process found alive, found, alive⟩
  rw [idle] at runs
  cases runs

theorem connect_live (runs : b.running = true) : 2 ≤ b.connect.live := by
  obtain ⟨pid, process, -, found, alive⟩ := running_iff.mp runs
  have one : 0 < b.spawned.countP ServerProcess.alive := List.countP_pos_iff.mpr ⟨process, List.mem_of_getElem? found, alive⟩
  have two : b.connect.live = b.spawned.countP ServerProcess.alive + 1 := List.countP_append
  omega

theorem Owned.exits (owned : b.Owned) (pid : Nat) : (b.exits pid).Owned := by
  intro other process found alive
  rw [ServerBackend.exits, List.getElem?_modify] at found
  obtain ⟨before, there, same⟩ := Option.map_eq_some_iff.mp found
  by_cases own : pid = other
  · rw [if_pos own] at same
    rw [← same] at alive
    cases alive
  · rw [if_neg own] at same
    exact owned other before there (same ▸ alive)

theorem onProcess_held {pid : Nat} (held : b.process = some pid) (f : ServerProcess → ServerProcess) :
    (b.onProcess f).spawned[pid]? = b.spawned[pid]?.map f := by
  unfold ServerBackend.onProcess
  rw [held]
  simp

theorem start_spawned (unopened : b.client = false) {run : StartRun} (spawned : run.spawn = .returned) :
    (b.start run).2.client = true ∧ (b.start run).2.process = some b.spawned.length ∧
      ∃ process, (b.start run).2.spawned[b.spawned.length]? = some process ∧
        (process.answered = true ↔ (b.start run).1 = .returned) := by
  have last : b.connect.spawned[b.spawned.length]? = some {} := by simp [connect]
  have started := start_spawns unopened spawned
  dsimp only at started
  have answered : ∃ after : ServerBackend, after.client = true ∧ after.process = some b.spawned.length ∧
      (∃ process, after.spawned[b.spawned.length]? = some process ∧
        (process.answered = true ↔ (b.start run).1 = .returned)) ∧
      (b.start run).2 = if run.crashes then after.crash else after := by
    rw [started]
    refine ⟨_, ?_, ?_, ?_, rfl⟩
    · split
      · exact onProcess_client _
      · rfl
    · split
      · exact onProcess_process _
      · rfl
    · split
      · next returned => exact ⟨_, (onProcess_held rfl _).trans (congrArg (Option.map _) last), iff_of_true rfl returned⟩
      · next raised => exact ⟨_, last, iff_of_false Bool.false_ne_true raised⟩
  obtain ⟨after, client, held, ⟨process, found, iff⟩, same⟩ := answered
  rw [same]
  split
  · refine ⟨(onProcess_client _).trans client, (onProcess_process _).trans held, { process with alive := false }, ?_, iff⟩
    exact (onProcess_held held _).trans (congrArg (Option.map _) found)
  · exact ⟨client, held, process, found, iff⟩

theorem Owned.stopRun (owned : b.Owned) (run : StopRun) : (b.stopRun run).2.Owned := by
  have idle (obeys : Bool) : (b.stop obeys).Owned := by
    intro pid process found alive
    have dead := (owned.stop obeys).2 process (List.mem_of_getElem? found)
    rw [alive] at dead
    cases dead
  unfold ServerBackend.stopRun
  split
  · exact owned
  split
  · exact idle _
  dsimp only
  have unopened : ({ b with client := false } : ServerBackend).Owned := owned
  split
  · split
    · exact unopened.onProcess _
    · exact unopened
  · exact unopened

theorem exits_answered (pid other : Nat) :
    (∃ process, (b.exits other).spawned[pid]? = some process ∧ process.answered = true) ↔
      ∃ process, b.spawned[pid]? = some process ∧ process.answered = true := by
  rw [ServerBackend.exits, List.getElem?_modify]
  cases b.spawned[pid]? with
  | none => simp
  | some process => by_cases own : other = pid <;> simp [own]

end ServerBackend

inductive ServerCall where
  | start (run : StartRun)
  | stop (run : StopRun)
  | exits (pid : Nat)

/-- A backend with the history of the calls on it: the states it was in during the last call, whether this was a
    `start` that returned, how many subprocesses there were at the last `stop`, and whether a call that raised has left
    the client open. -/
structure ServerSession where
  backend : ServerBackend
  points : List ServerBackend
  started : Bool := false
  stopped : Nat := 0
  left : Bool := false

namespace ServerSession

variable (s : ServerSession)

def call : ServerCall → ServerSession
  | .start run =>
    let (exit, after) := s.backend.start run
    let spawns : Bool := !s.backend.client && run.spawn = .returned
    { s with
      backend := after
      points := if spawns then [s.backend.connect, after] else [after]
      started := exit = .returned
      left := if s.backend.client then s.left else spawns && exit ≠ .returned }
  | .stop run =>
    let (_, after) := s.backend.stopRun run
    { backend := after, points := [after], stopped := after.spawned.length, left := after.client }
  | .exits pid =>
    let after := s.backend.exits pid
    { s with backend := after, points := [after], started := false }

/-- The backend owns a subprocess that was spawned after the last `stop` and has answered `/health` with status 200;
    whose replies these are is what `hear` takes for granted. -/
def Serves : Prop :=
  ∃ pid process, s.backend.process = some pid ∧ s.stopped ≤ pid ∧ s.backend.spawned[pid]? = some process ∧
    process.answered = true

def Lawful : Prop := (s.started = true → s.Serves) ∧ ∀ point ∈ s.points, point.live ≤ 1

/-- No `start` finds a client that a call left open as it raised, and none spawns a subprocess beside one that a
    cancelled `stop` has not seen end. -/
def Orderly : ServerCall → Prop
  | .start run => s.left = false ∧ (s.backend.client = false → run.spawn = .returned → s.backend.running = false)
  | _ => True

structure Inv : Prop where
  lawful : s.Lawful
  owned : s.backend.Owned
  bounded : s.stopped ≤ s.backend.spawned.length
  serving : s.backend.client = true → (s.left = false ↔ s.Serves)
  closed : s.backend.client = false → s.left = false

def begin (backend : ServerBackend) : ServerSession := { backend, points := [backend] }

def step (s : ServerSession) (call : ServerCall) : Option ServerSession := some (s.call call)

variable {s} {run : StartRun}

theorem call_open (client : s.backend.client = true) :
    s.call (.start run) = { s with points := [s.backend], started := true } := by
  have same : s.backend.start run = (.returned, s.backend) := by simp [ServerBackend.start, client]
  simp [call, same, client]

theorem call_unspawned (client : s.backend.client = false) (unspawned : run.spawn ≠ .returned) :
    s.call (.start run) = { s with points := [s.backend], started := false, left := false } := by
  have same : s.backend.start run = (run.spawn, s.backend) := by
    unfold ServerBackend.start
    rw [client]
    cases spawn : run.spawn with
    | returned => exact absurd spawn unspawned
    | raised error => rfl
    | cancelled => rfl
  simp [call, same, client, unspawned]

theorem call_spawned (client : s.backend.client = false) (spawned : run.spawn = .returned) :
    s.call (.start run) =
      { s with
        backend := (s.backend.start run).2
        points := [s.backend.connect, (s.backend.start run).2]
        started := (s.backend.start run).1 = .returned
        left := (s.backend.start run).1 ≠ .returned } := by
  simp [call, client, spawned]

theorem Inv.start (inv : s.Inv) (orderly : s.Orderly (.start run)) : (s.call (.start run)).Inv := by
  obtain ⟨fresh, apart⟩ := orderly
  have alone : ∀ point ∈ [s.backend], point.live ≤ 1 := List.forall_mem_singleton.mpr inv.owned.live_le_one
  cases client : s.backend.client with
  | true =>
    have serves : s.Serves := (inv.serving client).mp fresh
    rw [call_open client]
    exact ⟨⟨fun _ => serves, alone⟩, inv.owned, inv.bounded, inv.serving, inv.closed⟩
  | false =>
    by_cases spawned : run.spawn = .returned
    · have released : s.backend.Released := ⟨client, inv.owned.idle (apart client spawned)⟩
      rw [call_spawned client spawned]
      rcases s.backend.start_of_released released run with ⟨unspawned, -⟩ | ⟨-, -, -, owned⟩
      · exact absurd spawned unspawned
      obtain ⟨opened, held, process, found, answered⟩ := ServerBackend.start_spawned client spawned
      have serves : ServerSession.Serves { s with backend := (s.backend.start run).2 } ↔ (s.backend.start run).1 = .returned := by
        constructor
        · rintro ⟨pid, other, own, -, there, answers⟩
          rw [held] at own
          rw [← Option.some.inj own, found] at there
          rw [← Option.some.inj there] at answers
          exact answered.mp answers
        · intro returned
          exact ⟨_, process, held, inv.bounded, found, answered.mpr returned⟩
      refine ⟨⟨?_, ?_⟩, owned, ?_, ?_, ?_⟩
      · intro started
        exact serves.mpr (of_decide_eq_true started)
      · simp only [List.forall_mem_cons]
        exact ⟨released.connect.2.live_le_one, owned.live_le_one, fun _ member => absurd member List.not_mem_nil⟩
      · have bound := (List.getElem?_eq_some_iff.mp found).1
        have earlier := inv.bounded
        show s.stopped ≤ (s.backend.start run).2.spawned.length
        omega
      · intro _
        exact Iff.trans (by simp) serves.symm
      · intro closed
        rw [opened] at closed
        cases closed
    · rw [call_unspawned client spawned]
      refine ⟨⟨fun started => ?_, alone⟩, inv.owned, inv.bounded, fun opened => ?_, fun _ => rfl⟩
      · cases started
      · rw [client] at opened
        cases opened

theorem Inv.stop (inv : s.Inv) (run : StopRun) : (s.call (.stop run)).Inv := by
  have owned := inv.owned.stopRun run
  refine ⟨⟨?_, ?_⟩, owned, le_rfl, ?_, ?_⟩
  · intro started
    cases started
  · exact List.forall_mem_singleton.mpr owned.live_le_one
  · intro opened
    refine iff_of_false ?_ ?_
    · show ¬ (s.backend.stopRun run).2.client = false
      rw [show (s.backend.stopRun run).2.client = true from opened]
      decide
    · rintro ⟨pid, process, -, later, found, -⟩
      have bound : pid < (s.backend.stopRun run).2.spawned.length := (List.getElem?_eq_some_iff.mp found).1
      have later : (s.backend.stopRun run).2.spawned.length ≤ pid := later
      omega
  · exact fun closed => closed

theorem Inv.exits (inv : s.Inv) (pid : Nat) : (s.call (.exits pid)).Inv := by
  have owned := inv.owned.exits pid
  have serves : (s.call (.exits pid)).Serves ↔ s.Serves := by
    constructor
    · rintro ⟨own, process, held, fresh, found, answers⟩
      obtain ⟨before, there, answered⟩ := (ServerBackend.exits_answered own pid).mp ⟨process, found, answers⟩
      exact ⟨own, before, held, fresh, there, answered⟩
    · rintro ⟨own, process, held, fresh, found, answers⟩
      obtain ⟨after, there, answered⟩ := (ServerBackend.exits_answered own pid).mpr ⟨process, found, answers⟩
      exact ⟨own, after, held, fresh, there, answered⟩
  refine ⟨⟨?_, ?_⟩, owned, ?_, ?_, inv.closed⟩
  · intro started
    cases started
  · exact List.forall_mem_singleton.mpr owned.live_le_one
  · show s.stopped ≤ (s.backend.exits pid).spawned.length
    rw [ServerBackend.exits, List.length_modify]
    exact inv.bounded
  · intro opened
    rw [serves]
    exact inv.serving opened

theorem Inv.broken (inv : s.Inv) {call : ServerCall} (disorderly : ¬ s.Orderly call) : ¬ (s.call call).Lawful := by
  intro lawful
  cases call with
  | stop run => exact disorderly trivial
  | exits pid => exact disorderly trivial
  | start run =>
    by_cases left : s.left = true
    · have client : s.backend.client = true := by
        by_contra closed
        rw [inv.closed (Bool.not_eq_true _ ▸ closed)] at left
        cases left
      rw [call_open client] at lawful
      have fresh : s.left = false := (inv.serving client).mpr (lawful.1 rfl)
      rw [left] at fresh
      cases fresh
    · obtain ⟨client, spawned, runs⟩ : s.backend.client = false ∧ run.spawn = .returned ∧ s.backend.running = true := by
        by_contra apart
        refine disorderly ⟨Bool.not_eq_true _ ▸ left, fun client spawned => ?_⟩
        by_contra runs
        exact apart ⟨client, spawned, Bool.not_eq_false _ ▸ runs⟩
      rw [call_spawned client spawned] at lawful
      have least := ServerBackend.connect_live runs
      have most := lawful.2 s.backend.connect List.mem_cons_self
      omega

end ServerSession

end LLMRuntime
