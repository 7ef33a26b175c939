import LLMRuntime.Backends.Base

namespace LLMRuntime

structure Settings where
  enableBatching : Bool := true
  maxBatchSize : Int := 8
  batchTimeoutMs : Int := 10
  nativeBackendConcurrency : Int := 4
  maxBatchSize_pos : 1 ≤ maxBatchSize := by decide
  batchTimeoutMs_nonneg : 0 ≤ batchTimeoutMs := by decide
  nativeBackendConcurrency_pos : 1 ≤ nativeBackendConcurrency := by decide

variable (configured : Settings) (capabilities : BackendCapability)

def dispatchBatchParams : Int × Int :=
  if !configured.enableBatching then (1, 0)
  else if capabilities.nativeBatching then (1, 0)
  else (configured.maxBatchSize, configured.batchTimeoutMs)

def dispatchWorkerCount : Int :=
  if capabilities.nativeBatching then configured.nativeBackendConcurrency else 1

/-- The worker loops of a `WorkerManager`: several only where none of them collects a batch. -/
structure WorkerLayout where
  maxBatchSize : Int
  batchTimeoutMs : Int
  workers : Nat
  shape : workers = 1 ∨ 0 < workers ∧ maxBatchSize = 1 ∧ batchTimeoutMs = 0

/-- The arguments `RuntimeServices.create` gives its `WorkerManager`. -/
def RuntimeServices.workerLayout : WorkerLayout where
  maxBatchSize := (dispatchBatchParams configured capabilities).1
  batchTimeoutMs := (dispatchBatchParams configured capabilities).2
  workers := (max 1 (dispatchWorkerCount configured capabilities)).toNat
  shape := by
    cases native : capabilities.nativeBatching with
    | false => simp [dispatchWorkerCount, native]
    | true =>
      right
      have params : dispatchBatchParams configured capabilities = (1, 0) := by
        simp [dispatchBatchParams, native]
      rw [params]
      exact ⟨by omega, rfl, rfl⟩

theorem WorkerLayout.workers_pos (layout : WorkerLayout) : 0 < layout.workers := by
  rcases layout.shape with one | ⟨some, -⟩
  · omega
  · exact some

end LLMRuntime
