import Mathlib.Data.Nat.Cast.Order.Ring
import LLMRuntime.Core.Response

namespace LLMRuntime

/-- How `wait_for` runs the coroutine it is given: in a task of its own, or inline in the calling task. -/
inductive PythonVersion where
  | py311
  | py312
  deriving DecidableEq, Repr

structure SchedulerConfig where
  version : PythonVersion
  perfCounter : Clock
  timeFn : Clock
  agingBoostIntervalS : ℚ

def SchedulerConfig.ticking (version : PythonVersion) : SchedulerConfig :=
  ⟨version, ⟨fun tick => tick, Nat.mono_cast⟩, ⟨fun tick => tick, Nat.mono_cast⟩, 1⟩

inductive Call where
  | request
  | batch (maxBatchSize batchTimeoutMs : Int)
  deriving DecidableEq, Repr

structure Batch where
  items : List ScheduledRequest
  createdAt : ℚ
  deriving DecidableEq, Repr

inductive Dispatched where
  | request (item : ScheduledRequest)
  | batch (maxBatchSize : Int) (batch : Batch)
  deriving DecidableEq, Repr

def Dispatched.items : Dispatched → List ScheduledRequest
  | .request item => [item]
  | .batch _ formed => formed.items

def Dispatched.limit : Dispatched → Int
  | .request _ => 1
  | .batch maxBatchSize _ => max 1 maxBatchSize

/-- The local variables of a `next_batch` call that has its first item. -/
structure PartialBatch where
  maxBatchSize : Int
  batchTimeoutMs : Int
  items : List ScheduledRequest
  deadline : ℚ
  sized : 1 ≤ items.length ∧ (items.length : Int) ≤ max 1 maxBatchSize
  deriving DecidableEq, Repr

def PartialBatch.push (b : PartialBatch) (item : ScheduledRequest) (room : b.items.length < b.maxBatchSize) :
    PartialBatch :=
  { b with
    items := b.items ++ [item]
    sized := by
      have sized := b.sized
      simp only [List.length_append, List.length_singleton]
      omega }

def markStartedAll (clock : Clock) (ticks : Nat) : List ScheduledRequest → List ScheduledRequest
  | [] => []
  | item :: items =>
    { item with request := item.request.markStarted (clock.reading ticks) } ::
      markStartedAll clock (ticks + 1) items

end LLMRuntime
