import LLMRuntime.Core.Request
import Mathlib.Data.List.Nodup

namespace LLMRuntime

def latencyBuckets : List ℚ :=
  [1/1000, 5/1000, 1/100, 25/1000, 5/100, 1/10, 25/100, 5/10, 1, 25/10, 5, 10]

structure Histogram where
  boundaries : List ℚ
  counts : List Int
  sum : ℚ
  total : Int
  sized : counts.length = boundaries.length + 1

namespace Histogram

def create (buckets : List ℚ) : Histogram :=
  let boundaries := if buckets.isEmpty then latencyBuckets else buckets
  { boundaries, counts := List.replicate (boundaries.length + 1) 0, sum := 0, total := 0,
    sized := List.length_replicate }

/-- The bucket an observation is counted in: the first boundary it does not exceed, else `+Inf`. -/
def bucketIndex (h : Histogram) (value : ℚ) : Nat :=
  (h.boundaries.findIdx? fun boundary => value ≤ boundary).getD (h.counts.length - 1)

def observe (h : Histogram) (value : ℚ) : Histogram :=
  { h with
    sum := h.sum + value
    total := h.total + 1
    counts := h.counts.modify (h.bucketIndex value) (· + 1)
    sized := by rw [List.length_modify]; exact h.sized }

end Histogram

/-- `collections.Counter`, in insertion order. -/
abbrev Counter (κ : Type) := List (κ × Int)

def Counter.increment {κ : Type} [DecidableEq κ] (counter : Counter κ) (key : κ) : Counter κ :=
  if counter.any fun entry => entry.1 = key
  then counter.map fun entry => if entry.1 = key then (entry.1, entry.2 + 1) else entry
  else counter ++ [(key, 1)]

section Increment

variable {κ : Type} [DecidableEq κ] {counter : Counter κ}

theorem Counter.known_iff {key : κ} : (counter.any fun entry => entry.1 = key) = true ↔ key ∈ counter.map Prod.fst := by
  simp [List.any_eq_true]

theorem Counter.nodup_increment (nodup : (counter.map Prod.fst).Nodup) (key : κ) : ((counter.increment key).map Prod.fst).Nodup := by
  unfold Counter.increment
  split
  · have kept : (counter.map fun entry => if entry.1 = key then (entry.1, entry.2 + 1) else entry).map Prod.fst =
        counter.map Prod.fst := by
      rw [List.map_map]
      refine List.map_congr_left fun entry _ => ?_
      rw [Function.comp_apply]
      split <;> rfl
    rw [kept]
    exact nodup
  · next fresh =>
    have absent : key ∉ counter.map Prod.fst := fun member => fresh (Counter.known_iff.mpr member)
    rw [List.map_append]
    exact List.nodup_append.mpr ⟨nodup, List.nodup_singleton _, by
      rintro a member b inside rfl
      rw [List.mem_singleton.mp inside] at member
      exact absent member⟩

theorem Counter.mem_increment (counter : Counter κ) (key : κ) :
    key ∈ (counter.increment key).map Prod.fst := by
  unfold Counter.increment
  split
  · next known =>
    obtain ⟨entry, member, same⟩ := List.any_eq_true.mp known
    have key : entry.1 = key := of_decide_eq_true same
    exact List.mem_map.mpr ⟨_, List.mem_map_of_mem member, by rw [if_pos key, key]⟩
  · simp

/-- What a counter says about the values it has counted. -/
structure Counter.Counts (counter : Counter κ) (values : List κ) : Prop where
  distinct : (counter.map Prod.fst).Nodup
  entry : ∀ key n, (key, n) ∈ counter ↔ key ∈ values ∧ n = values.count key

theorem Counter.Counts.increment {values : List κ} (counts : counter.Counts values) (key : κ) :
    (counter.increment key).Counts (values ++ [key]) := by
  refine ⟨Counter.nodup_increment counts.distinct key, fun other n => ?_⟩
  have elsewhere (apart : other ≠ key) : [key].count other = 0 := List.count_eq_zero_of_not_mem (by simpa using apart)
  unfold Counter.increment
  split
  · next known =>
    have counted : key ∈ values := by
      obtain ⟨⟨old, count⟩, member, rfl⟩ := List.mem_map.mp (Counter.known_iff.mp known)
      exact ((counts.entry old count).mp member).1
    have member : (other, n) ∈ (counter.map fun entry => if entry.1 = key then (entry.1, entry.2 + 1) else entry) ↔
        other = key ∧ (key, n - 1) ∈ counter ∨ other ≠ key ∧ (other, n) ∈ counter := by
      rw [List.mem_map]
      constructor
      · rintro ⟨⟨old, count⟩, member, same⟩
        split at same
        · next own =>
          obtain ⟨rfl, rfl⟩ := Prod.mk.inj same
          exact .inl ⟨own, by rwa [← own, add_sub_cancel_right]⟩
        · next apart =>
          obtain ⟨rfl, rfl⟩ := Prod.mk.inj same
          exact .inr ⟨apart, member⟩
      · rintro (⟨rfl, member⟩ | ⟨apart, member⟩)
        · exact ⟨_, member, by rw [if_pos rfl, sub_add_cancel]⟩
        · exact ⟨_, member, if_neg apart⟩
    rw [member, counts.entry, counts.entry, List.count_append, List.mem_append, List.mem_singleton]
    by_cases own : other = key
    · subst own
      simp [counted, sub_eq_iff_eq_add]
    · simp [own, elsewhere own]
  · next fresh =>
    have uncounted : key ∉ values := by
      intro counted
      exact fresh (Counter.known_iff.mpr (List.mem_map_of_mem ((counts.entry key _).mpr ⟨counted, rfl⟩)))
    rw [List.mem_append, List.mem_singleton, counts.entry, List.count_append, List.mem_append, List.mem_singleton]
    by_cases own : other = key
    · subst own
      simp [uncounted, List.count_eq_zero_of_not_mem uncounted]
    · simp [own, elsewhere own]

end Increment

structure MetricsCollector where
  requestCount : Int := 0
  completedCount : Int := 0
  failedCount : Int := 0
  rejectedCount : Int := 0
  rejectionsByReason : Counter String := []
  rejectionsByPriority : Counter String := []
  rejectionsByReasonPriority : Counter (String × String) := []
  activeRequests : Int := 0
  generatedTokensTotal : Int := 0
  batchCount : Int := 0
  batchSizes : List Nat := []
  queueWaitTimes : List ℚ := []
  ttftTimes : List ℚ := []
  totalLatencies : List ℚ := []
  queueWaitHistogram : Histogram := .create []
  ttftHistogram : Histogram := .create []
  totalLatencyHistogram : Histogram := .create []

/-- Python's `x or y` on optional floats: `None` and `0.0` are both false. -/
def floatOr (first second : Option ℚ) : Option ℚ :=
  match first with
  | some value => if value = 0 then second else some value
  | none => second

namespace MetricsCollector

def recordRequest (m : MetricsCollector) : MetricsCollector :=
  { m with requestCount := m.requestCount + 1, activeRequests := m.activeRequests + 1 }

def recordQueueWait (m : MetricsCollector) (request : RuntimeRequest) : MetricsCollector :=
  match request.enqueuedAt, request.startedAt with
  | some enqueuedAt, some startedAt =>
    let wait := startedAt - enqueuedAt
    { m with
      queueWaitTimes := m.queueWaitTimes ++ [wait]
      queueWaitHistogram := m.queueWaitHistogram.observe wait }
  | _, _ => m

def recordTtft (m : MetricsCollector) (request : RuntimeRequest) : MetricsCollector :=
  match request.firstTokenAt with
  | some firstTokenAt =>
    let ttft := firstTokenAt - request.createdAt
    { m with
      ttftTimes := m.ttftTimes ++ [ttft]
      ttftHistogram := m.ttftHistogram.observe ttft }
  | none => m

def recordTotal (m : MetricsCollector) (request : RuntimeRequest) : MetricsCollector :=
  match floatOr request.completedAt request.failedAt with
  | some endTime =>
    let total := endTime - request.createdAt
    { m with
      totalLatencies := m.totalLatencies ++ [total]
      totalLatencyHistogram := m.totalLatencyHistogram.observe total }
  | none => m

def recordTiming (m : MetricsCollector) (request : RuntimeRequest) : MetricsCollector :=
  ((m.recordQueueWait request).recordTtft request).recordTotal request

def recordSuccess (m : MetricsCollector) (request : RuntimeRequest) (generatedTokens : Nat) :
    MetricsCollector :=
  ({ m with
    completedCount := m.completedCount + 1
    activeRequests := max 0 (m.activeRequests - 1)
    generatedTokensTotal := m.generatedTokensTotal + generatedTokens }).recordTiming request

def recordFailure (m : MetricsCollector) (request : RuntimeRequest) : MetricsCollector :=
  ({ m with
    failedCount := m.failedCount + 1
    activeRequests := max 0 (m.activeRequests - 1) }).recordTiming request

def recordRejection (m : MetricsCollector) (priority : Int) (reason : String) : MetricsCollector :=
  let normalizedReason := if reason.isEmpty then "unknown" else reason
  let priorityLabel := toString priority
  { m with
    rejectedCount := m.rejectedCount + 1
    rejectionsByReason := m.rejectionsByReason.increment normalizedReason
    rejectionsByPriority := m.rejectionsByPriority.increment priorityLabel
    rejectionsByReasonPriority :=
      m.rejectionsByReasonPriority.increment (normalizedReason, priorityLabel) }

def recordBatch (m : MetricsCollector) (batchSize : Nat) : MetricsCollector :=
  { m with batchCount := m.batchCount + 1, batchSizes := m.batchSizes ++ [batchSize] }

/-- Everything the collector holds but its rejection counters. -/
def withoutRejections (m : MetricsCollector) : MetricsCollector :=
  { m with
    rejectedCount := 0
    rejectionsByReason := []
    rejectionsByPriority := []
    rejectionsByReasonPriority := [] }

@[simp] theorem withoutRejections_idem (m : MetricsCollector) :
    m.withoutRejections.withoutRejections = m.withoutRejections := rfl

@[simp] theorem recordRejection_withoutRejections (m : MetricsCollector) (priority : Int) (reason : String) :
    (m.recordRejection priority reason).withoutRejections = m.withoutRejections := rfl

theorem recordTiming_withoutRejections (m : MetricsCollector) (request : RuntimeRequest) :
    (m.recordTiming request).withoutRejections = m.withoutRejections.recordTiming request := by
  have wait (m : MetricsCollector) :
      (m.recordQueueWait request).withoutRejections = m.withoutRejections.recordQueueWait request := by
    unfold recordQueueWait
    split <;> rfl
  have ttft (m : MetricsCollector) :
      (m.recordTtft request).withoutRejections = m.withoutRejections.recordTtft request := by
    unfold recordTtft
    split <;> rfl
  have total (m : MetricsCollector) :
      (m.recordTotal request).withoutRejections = m.withoutRejections.recordTotal request := by
    unfold recordTotal
    split <;> rfl
  rw [recordTiming, total, ttft, wait, recordTiming]

theorem recordSuccess_withoutRejections (m : MetricsCollector) (request : RuntimeRequest) (n : Nat) :
    (m.recordSuccess request n).withoutRejections = m.withoutRejections.recordSuccess request n :=
  recordTiming_withoutRejections _ request

theorem recordFailure_withoutRejections (m : MetricsCollector) (request : RuntimeRequest) :
    (m.recordFailure request).withoutRejections = m.withoutRejections.recordFailure request :=
  recordTiming_withoutRejections _ request

def counters (m : MetricsCollector) : Int × Int × Int × Int × Int :=
  (m.requestCount, m.completedCount, m.failedCount, m.activeRequests, m.generatedTokensTotal)

@[simp] theorem recordTiming_counters (m : MetricsCollector) (request : RuntimeRequest) :
    (m.recordTiming request).counters = m.counters := by
  have wait (m : MetricsCollector) : (m.recordQueueWait request).counters = m.counters := by
    unfold recordQueueWait
    split <;> rfl
  have ttft (m : MetricsCollector) : (m.recordTtft request).counters = m.counters := by
    unfold recordTtft
    split <;> rfl
  have total (m : MetricsCollector) : (m.recordTotal request).counters = m.counters := by
    unfold recordTotal
    split <;> rfl
  rw [recordTiming, total, ttft, wait]

def batches (m : MetricsCollector) : Int × List Nat := (m.batchCount, m.batchSizes)

@[simp] theorem recordTiming_batches (m : MetricsCollector) (request : RuntimeRequest) :
    (m.recordTiming request).batches = m.batches := by
  have wait (m : MetricsCollector) : (m.recordQueueWait request).batches = m.batches := by
    unfold recordQueueWait
    split <;> rfl
  have ttft (m : MetricsCollector) : (m.recordTtft request).batches = m.batches := by
    unfold recordTtft
    split <;> rfl
  have total (m : MetricsCollector) : (m.recordTotal request).batches = m.batches := by
    unfold recordTotal
    split <;> rfl
  rw [recordTiming, total, ttft, wait]

@[simp] theorem recordSuccess_counters (m : MetricsCollector) (request : RuntimeRequest) (n : Nat) :
    (m.recordSuccess request n).counters =
      (m.requestCount, m.completedCount + 1, m.failedCount, max 0 (m.activeRequests - 1),
        m.generatedTokensTotal + n) := by
  rw [recordSuccess, recordTiming_counters]
  rfl

@[simp] theorem recordFailure_counters (m : MetricsCollector) (request : RuntimeRequest) :
    (m.recordFailure request).counters =
      (m.requestCount, m.completedCount, m.failedCount + 1, max 0 (m.activeRequests - 1),
        m.generatedTokensTotal) := by
  rw [recordFailure, recordTiming_counters]
  rfl

def settled (m : MetricsCollector) : Int × Int × Int :=
  (m.completedCount, m.failedCount, m.generatedTokensTotal)

@[simp] theorem recordRequest_settled (m : MetricsCollector) : m.recordRequest.settled = m.settled := rfl

@[simp] theorem recordSuccess_settled (m : MetricsCollector) (request : RuntimeRequest) (n : Nat) :
    (m.recordSuccess request n).settled = m.settled + (1, 0, (n : Int)) := by
  have counters := recordSuccess_counters m request n
  simp only [MetricsCollector.counters, Prod.mk.injEq] at counters
  simp [settled, counters]

@[simp] theorem recordFailure_settled (m : MetricsCollector) (request : RuntimeRequest) :
    (m.recordFailure request).settled = m.settled + (0, 1, 0) := by
  have counters := recordFailure_counters m request
  simp only [MetricsCollector.counters, Prod.mk.injEq] at counters
  simp [settled, counters]

end MetricsCollector

inductive LatencyMetric where
  | queueWait
  | ttft
  | totalLatency

namespace LatencyMetric

/-- The sample that a request's timing gives. -/
def sample : LatencyMetric → RuntimeRequest → Option ℚ
  | queueWait, request =>
    match request.enqueuedAt, request.startedAt with
    | some enqueuedAt, some startedAt => some (startedAt - enqueuedAt)
    | _, _ => none
  | ttft, request => request.firstTokenAt.map (· - request.createdAt)
  | totalLatency, request => (floatOr request.completedAt request.failedAt).map (· - request.createdAt)

def times : LatencyMetric → MetricsCollector → List ℚ
  | queueWait, m => m.queueWaitTimes
  | ttft, m => m.ttftTimes
  | totalLatency, m => m.totalLatencies

theorem times_recordTiming (metric : LatencyMetric) (m : MetricsCollector) (request : RuntimeRequest) :
    metric.times (m.recordTiming request) = metric.times m ++ (metric.sample request).toList := by
  have wait (m : MetricsCollector) : metric.times (m.recordQueueWait request) =
      metric.times m ++ if metric matches queueWait then (queueWait.sample request).toList else [] := by
    unfold MetricsCollector.recordQueueWait sample
    cases metric
    all_goals split <;> simp_all [times]
  have ttft (m : MetricsCollector) : metric.times (m.recordTtft request) =
      metric.times m ++ if metric matches ttft then (ttft.sample request).toList else [] := by
    unfold MetricsCollector.recordTtft sample
    cases metric
    all_goals split <;> simp_all [times]
  have total (m : MetricsCollector) : metric.times (m.recordTotal request) =
      metric.times m ++ if metric matches totalLatency then (totalLatency.sample request).toList else [] := by
    unfold MetricsCollector.recordTotal sample
    cases metric
    all_goals split <;> simp_all [times]
  rw [MetricsCollector.recordTiming, total, ttft, wait]
  cases metric
  all_goals simp

end LatencyMetric

end LLMRuntime
