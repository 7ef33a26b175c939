import Mathlib.Data.Rat.Floor
import LLMRuntime.Foundation.TokenBucket

namespace LLMRuntime

structure AdmissionDecision where
  accepted : Bool
  reason : String := ""
  detail : String := ""
  statusCode : Nat := 200
  deriving DecidableEq, Repr

structure AdmissionController where
  maxQueueSize : Int
  requestRateLimitPerS : ℚ
  requestRateLimitBurst : Int
  capacity : Int
  tokens : ℚ
  lastRefillAt : ℚ
  deriving DecidableEq, Repr

def bucketCapacity (requestRateLimitPerS : ℚ) (requestRateLimitBurst : Int) : Int :=
  if requestRateLimitPerS ≤ 0 then 0
  else if requestRateLimitBurst > 0 then requestRateLimitBurst
  else max 1 ⌈requestRateLimitPerS⌉

namespace AdmissionController

/-- `__init__`, with the clock reading `now` of its call of `time_fn`. -/
def create (maxQueueSize : Int) (requestRateLimitPerS : ℚ) (requestRateLimitBurst : Int) (now : ℚ) :
    AdmissionController :=
  let capacity := bucketCapacity requestRateLimitPerS requestRateLimitBurst
  { maxQueueSize, requestRateLimitPerS, requestRateLimitBurst, capacity,
    tokens := capacity, lastRefillAt := now }

def refillLocked (c : AdmissionController) (now : ℚ) : AdmissionController :=
  let elapsedS := max 0 (now - c.lastRefillAt)
  { c with
    lastRefillAt := now
    tokens := min (c.capacity : ℚ) (c.tokens + elapsedS * c.requestRateLimitPerS) }

def queueFull : AdmissionDecision :=
  { accepted := false, reason := "queue_full", detail := "scheduler queue is full", statusCode := 503 }

def rateLimited : AdmissionDecision :=
  { accepted := false, reason := "rate_limited", detail := "request rate limit exceeded",
    statusCode := 429 }

def QueueFull (c : AdmissionController) (queueSize : Int) : Prop :=
  c.maxQueueSize > 0 ∧ queueSize ≥ c.maxQueueSize

instance (c : AdmissionController) (queueSize : Int) : Decidable (c.QueueFull queueSize) :=
  inferInstanceAs (Decidable (_ ∧ _))

/-- `now` is the reading `_refill_locked` takes; the other branches read no clock. -/
def admitRequest (c : AdmissionController) (queueSize : Int) (now : ℚ) :
    AdmissionDecision × AdmissionController :=
  if c.QueueFull queueSize then (queueFull, c)
  else if c.requestRateLimitPerS ≤ 0 then ({ accepted := true }, c)
  else
    let refilled := c.refillLocked now
    if refilled.tokens < 1 then (rateLimited, refilled)
    else ({ accepted := true }, { refilled with tokens := refilled.tokens - 1 })

theorem admitRequest_accepted_below {c : AdmissionController} {queueSize : Int} {now : ℚ}
    (capped : 0 < c.maxQueueSize) (accepted : (c.admitRequest queueSize now).1.accepted = true) :
    queueSize < c.maxQueueSize := by
  by_contra full
  have queueFull : c.QueueFull queueSize := ⟨capped, not_lt.mp full⟩
  simp [admitRequest, queueFull, AdmissionController.queueFull] at accepted

@[simp] theorem admitRequest_maxQueueSize (c : AdmissionController) (queueSize : Int) (now : ℚ) :
    (c.admitRequest queueSize now).2.maxQueueSize = c.maxQueueSize := by
  unfold admitRequest
  split
  · rfl
  · split
    · rfl
    · dsimp only
      split <;> rfl

end AdmissionController

end LLMRuntime
