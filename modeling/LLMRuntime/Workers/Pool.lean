import LLMRuntime.Foundation.Custody
import LLMRuntime.Foundation.Transition
import LLMRuntime.Scheduler.Places
import LLMRuntime.Workers.Execution

namespace LLMRuntime

/-- What `WorkerManager` is made with. `iter` is the order in which Python iterates over a set of strings. -/
structure WorkerConfig where
  clock : Clock
  maxBatchSize : Int
  batchTimeoutMs : Int
  iter : List String → List String
  anyOrder : ∀ ids, (iter ids).Perm ids

def Services.recordBatch (s : Services) (batchSize : Nat) : Services :=
  { s with metrics := s.metrics.recordBatch batchSize, counted := s.counted }

/-- A batch that a worker executes, between two events of the backend. -/
structure Execution where
  state : BatchState
  batchStart : ℚ

def Execution.pending : Option Execution → List String
  | none => []
  | some execution => execution.state.pending

inductive ShutdownPhase where
  | serving
  | stopping
  | stopped
  deriving DecidableEq, Repr

/-- A `WorkerManager` with its scheduler and the callers of the requests. `handles` is shared by all of them;
    `services` has what the workers record, not the failure that a caller records when it gives up.
    A worker is `cancelling` from `task.cancel()` until the exception comes out of it and it has `ended`.
    `known`, `caught` and `resisted` are history variables: the requests that were passed to `submit`, those that
    the workers had in hand when `stop` cancelled them or took from then on, and whether a `wait_for` handed its
    result to a cancelled worker. -/
structure Pool {n : Nat} (M : SchedulerModel n) where
  scheduler : M.State := M.init
  services : Services := {}
  handles : String → ResponseHandle := fun _ => .completion .create
  known : List String := []
  executions : Fin n → Option Execution := fun _ => none
  phase : ShutdownPhase := .serving
  cancelling : Fin n → Bool := fun _ => false
  ended : Fin n → Bool := fun _ => false
  caught : List String := []
  resisted : Bool := false

/-- `schedule` is a step of the scheduler, `yields` an event of the backend and `ends` the end of its iteration;
    `interrupt` raises `CancelledError` in a worker and `returns` is the end of `stop`. -/
inductive PoolAction {n : Nat} (M : SchedulerModel n) where
  | schedule (action : M.Action)
  | yields (i : Fin n) (event : BatchEvent)
  | ends (i : Fin n) (ending : Ending)
  | cancel (requestId : String)
  | stop
  | interrupt (i : Fin n) (wakes : Option (Fin n))
  | returns

namespace Pool

variable {n : Nat} {M : SchedulerModel n} (cfg : WorkerConfig) (p : Pool M)

def places : Places n := M.places p.scheduler

/-- The requests a worker has taken out of the queue and not answered: its partial batch, or what is pending of
    the batch it executes. -/
def hands (i : Fin n) : List String := p.places.held i ++ Execution.pending (p.executions i)

section Execute

/-- The batch as it is when the worker runs: its items have their current handles. -/
def load (execution : Execution) : BatchState :=
  { execution.state with
    services := p.services
    items := fun id => (execution.state.items id).map fun item => { item with handle := p.handles id } }

def store (st : BatchState) : Pool M :=
  { p with
    services := st.services
    handles := fun id => ((st.items id).map (·.handle)).getD (p.handles id) }

def setExecution (i : Fin n) (execution : Option Execution) : Pool M :=
  { p with executions := Function.update p.executions i execution }

/-- The rest of `_worker_loop` after `next_batch`, to the first event of `_execute_batch`. -/
def start (i : Fin n) (items : List ScheduledRequest) : Pool M :=
  let s := (p.services.recordBatch items.length).emit (.batchFormed items.length (requestIds items))
  let active := activeItems (items.map fun item => { item with handle := p.handles item.requestId })
  if active.isEmpty then { p with services := s }
  else
    let (batchStart, s) := s.perfCounter cfg.clock
    { p with services := s }.setExecution i (some {
      state := { services := s, items := itemsById active, tokens := fun _ => [], pending := (requestIds active).dedup }
      batchStart })

/-- The `except Exception` clause of `_execute_batch`; what it raises itself ends the worker. -/
def fail (i : Fin n) (st : BatchState) (exc : PyException) : Pool M :=
  let (st, raised) := st.sweep (fun s item _ => failItem cfg.clock s item exc) (cfg.iter st.pending)
  { (p.store st).setExecution i none with ended := Function.update p.ended i (p.ended i || raised.isSome) }

def yields (i : Fin n) (execution : Execution) (event : BatchEvent) : Pool M :=
  match (p.load execution).handleEvent cfg.clock execution.batchStart event with
  | (st, none) => (p.store st).setExecution i (some { execution with state := st })
  | (st, some exc) => p.fail cfg i st exc

def ends (i : Fin n) (execution : Execution) : Ending → Pool M
  | .raised exc => p.fail cfg i (p.load execution) exc
  | .normal =>
    let st := p.load execution
    match st.sweep (fun s item tokens => completeItem cfg.clock s item tokens execution.batchStart)
      (cfg.iter st.pending) with
    | (st, none) => (p.store st).setExecution i none
    | (st, some exc) => p.fail cfg i st exc

end Execute

section Schedule

/-- Request ids are fresh UUIDs, and the handles of new requests are new. -/
def Admits (action : M.Action) : Prop :=
  ∀ item ∈ M.submits? action,
    item.requestId ∉ p.known ∧ (item.handle = .completion .create ∨ item.handle = .streaming .create)

instance (action : M.Action) : Decidable (p.Admits action) :=
  inferInstanceAs (Decidable (∀ item ∈ M.submits? action, _))

/-- Workers call `next_batch` only, between two batches; a cancelled task does not go on. -/
def Enables (action : M.Action) : Prop :=
  (∀ call ∈ M.calls? action, call = .batch cfg.maxBatchSize cfg.batchTimeoutMs) ∧
    ∀ i ∈ M.consumer? p.scheduler action, p.ended i = false ∧
      (M.own p.scheduler action = true → p.cancelling i = false) ∧ (p.executions i).isNone = true

instance (action : M.Action) : Decidable (p.Enables cfg action) := inferInstanceAs (Decidable (_ ∧ _))

def receive (action : M.Action) : Pool M :=
  match M.submits? action with
  | some item =>
    { p with known := p.known ++ [item.requestId], handles := Function.update p.handles item.requestId item.handle }
  | none => p

/-- A cancelled consumer took a request out of the queue. -/
def Resists (action : M.Action) (t : M.State) : Bool :=
  match M.consumer? p.scheduler action with
  | some i => p.cancelling i && decide ((M.places t).queue.length < p.places.queue.length)
  | none => false

/-- What a step takes out of the queue once `stop` has been called. -/
def catches (t : M.State) : List String :=
  if p.phase = .serving then [] else p.places.queue.filter (· ∉ (M.places t).queue)

def follow (action : M.Action) (t : M.State) : Pool M :=
  { p.receive action with
    scheduler := t
    caught := p.caught ++ p.catches t
    resisted := p.resisted || p.Resists action t }

/-- A worker whose call has returned goes on with its batch. -/
def advance (action : M.Action) (t : M.State) : Pool M :=
  match M.consumer? p.scheduler action, (M.places t).returned.drop p.places.returned.length with
  | some i, dispatched :: _ => (p.follow action t).start cfg i dispatched.items
  | _, _ => p.follow action t

def schedule (action : M.Action) : Option (Pool M) :=
  if p.Admits action ∧ p.Enables cfg action then (M.step p.scheduler action).map (p.advance cfg action) else none

end Schedule

/-- A caller gives up. The failure it then records itself is left to the model of the requests. -/
def cancel (requestId : String) : Pool M :=
  { p with handles := Function.update p.handles requestId (p.handles requestId).cancel }

/-- `task.cancel()` for every worker. -/
def stop : Pool M :=
  { p with
    phase := .stopping
    cancelling := fun i => !p.ended i
    caught := (List.finRange n).flatMap p.hands }

/-- The worker's task runs with its cancellation pending. In `_execute_batch` nothing handles `CancelledError`. -/
def interrupt (i : Fin n) (wakes : Option (Fin n)) : Option (Pool M) :=
  match p.executions i with
  | some _ => some { p.setExecution i none with ended := Function.update p.ended i true }
  | none =>
    if M.swallows p.scheduler i then
      some { p with cancelling := Function.update p.cancelling i false, resisted := true }
    else
      (M.interrupt p.scheduler i wakes).map fun t =>
        { p with scheduler := t, ended := Function.update p.ended i true }

/-- Every action but those of the scheduler needs all tasks suspended. -/
def step (action : PoolAction M) : Option (Pool M) :=
  match action with
  | .schedule action => p.schedule cfg action
  | .yields i event =>
    if M.suspended p.scheduler ∧ p.cancelling i = false ∧ p.ended i = false then
      (p.executions i).map fun execution => p.yields cfg i execution event
    else none
  | .ends i ending =>
    if M.suspended p.scheduler ∧ p.cancelling i = false ∧ p.ended i = false then
      (p.executions i).map fun execution => p.ends cfg i execution ending
    else none
  | .cancel requestId =>
    if M.suspended p.scheduler ∧ requestId ∈ p.known then some (p.cancel requestId) else none
  | .stop => if M.suspended p.scheduler ∧ p.phase = .serving then some p.stop else none
  | .interrupt i wakes =>
    if M.suspended p.scheduler ∧ p.cancelling i = true ∧ p.ended i = false then p.interrupt i wakes else none
  | .returns =>
    if M.suspended p.scheduler ∧ p.phase = .stopping ∧ ∃ i, p.ended i = true then some { p with phase := .stopped }
    else none

/-- Whatever `submit` has put into the queue and nobody has closed is still there. -/
def NothingDropped : Prop :=
  ∀ id ∈ p.known, id ∉ p.places.waiting → (p.handles id).closed = false → id ∈ p.places.queue

instance : Decidable p.NothingDropped := inferInstanceAs (Decidable (∀ id ∈ p.known, _))

end Pool

end LLMRuntime
