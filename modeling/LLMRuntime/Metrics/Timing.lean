import LLMRuntime.Foundation.Chronicle
import LLMRuntime.Metrics.Collector
import Mathlib.Data.List.ReduceOption
import Mathlib.Tactic.Linarith

namespace LLMRuntime

open Chronicle

namespace RuntimeRequest

/-- The stamps of a request that are set, in the order of its life. -/
def stamps (r : RuntimeRequest) : List ℚ :=
  [some r.createdAt, r.enqueuedAt, r.startedAt, r.firstTokenAt, r.completedAt].reduceOption

/-- The stamps that are set when the request is recorded, with its end time. -/
def timeline (r : RuntimeRequest) : List ℚ :=
  [some r.createdAt, r.enqueuedAt, r.startedAt, r.firstTokenAt, floatOr r.completedAt r.failedAt].reduceOption

variable {r : RuntimeRequest} {now : ℚ}

theorem stamps_markEnqueued (unstamped : r.enqueuedAt = none) (started : r.startedAt = none)
    (token : r.firstTokenAt = none) (completed : r.completedAt = none) :
    (r.markEnqueued now).stamps = r.stamps ++ [now] := by
  simp [stamps, markEnqueued, unstamped, started, token, completed, List.reduceOption]

theorem stamps_markStarted (unstamped : r.startedAt = none) (token : r.firstTokenAt = none)
    (completed : r.completedAt = none) : (r.markStarted now).stamps = r.stamps ++ [now] := by
  cases enqueued : r.enqueuedAt <;>
    simp [stamps, markStarted, enqueued, unstamped, token, completed, List.reduceOption]

theorem stamps_markFirstToken (unstamped : r.firstTokenAt = none) (completed : r.completedAt = none) :
    (r.markFirstToken now).stamps = r.stamps ++ [now] := by
  cases enqueued : r.enqueuedAt <;> cases started : r.startedAt <;>
    simp [stamps, markFirstToken, enqueued, started, unstamped, completed, List.reduceOption]

theorem stamps_markCompleted (unstamped : r.completedAt = none) :
    (r.markCompleted now).stamps = r.stamps ++ [now] := by
  cases enqueued : r.enqueuedAt <;> cases started : r.startedAt <;> cases token : r.firstTokenAt <;>
    simp [stamps, markCompleted, enqueued, started, token, unstamped, List.reduceOption]

theorem timeline_of_completed {last : ℚ} (completed : r.completedAt = some last) (nonzero : last ≠ 0) :
    r.timeline = r.stamps := by
  rw [timeline, stamps, completed, floatOr, if_neg nonzero]

theorem timeline_markFailed (unfinished : r.completedAt = none) : (r.markFailed now).timeline = r.stamps ++ [now] := by
  cases enqueued : r.enqueuedAt <;> cases started : r.startedAt <;> cases token : r.firstTokenAt <;>
    simp [timeline, stamps, markFailed, enqueued, started, token, unfinished, floatOr, List.reduceOption]

theorem mem_stamps_of_completed {last : ℚ} (completed : r.completedAt = some last) : last ∈ r.stamps := by
  simp [stamps, completed, List.reduceOption_mem_iff]

variable {clock : Clock} {ticks : Nat}

theorem completed_timeline (positive : ∀ k, 0 < clock.reading k) (taken : Taken clock.reading ticks r.stamps)
    {last : ℚ} (completed : r.completedAt = some last) : r.timeline.Pairwise (· ≤ ·) := by
  have later : 0 < last := taken.forall_mem positive last (mem_stamps_of_completed completed)
  rw [timeline_of_completed completed later.ne']
  exact taken.ordered

/-- A failure is recorded with the stamps in order, whether or not the request was completed before. -/
theorem failed_timeline (positive : ∀ k, 0 < clock.reading k) (taken : Taken clock.reading ticks r.stamps) :
    (r.markFailed (clock.reading ticks)).timeline.Pairwise (· ≤ ·) := by
  cases completed : r.completedAt with
  | none =>
    rw [timeline_markFailed completed]
    exact (taken.push clock.monotone).ordered
  | some last => exact completed_timeline positive (r := r.markFailed (clock.reading ticks)) taken completed

end RuntimeRequest

namespace LatencyMetric

variable {r : RuntimeRequest}

structure InOrder (r : RuntimeRequest) : Prop where
  nonneg : ∀ metric : LatencyMetric, ∀ x, metric.sample r = some x → 0 ≤ x
  within : ∀ metric : LatencyMetric, ∀ x total, metric.sample r = some x → totalLatency.sample r = some total → x ≤ total

theorem queueWait_sample {x : ℚ} (sampled : queueWait.sample r = some x) :
    ∃ enqueued started, r.enqueuedAt = some enqueued ∧ r.startedAt = some started ∧ x = started - enqueued := by
  simp only [sample] at sampled
  split at sampled
  · next enqueued started isEnqueued isStarted =>
    exact ⟨enqueued, started, isEnqueued, isStarted, (Option.some.inj sampled).symm⟩
  · cases sampled

theorem ttft_sample {x : ℚ} (sampled : ttft.sample r = some x) :
    ∃ token, r.firstTokenAt = some token ∧ x = token - r.createdAt := by
  obtain ⟨token, isToken, same⟩ := Option.map_eq_some_iff.mp sampled
  exact ⟨token, isToken, same.symm⟩

theorem totalLatency_sample {x : ℚ} (sampled : totalLatency.sample r = some x) :
    ∃ last, floatOr r.completedAt r.failedAt = some last ∧ x = last - r.createdAt := by
  obtain ⟨last, isLast, same⟩ := Option.map_eq_some_iff.mp sampled
  exact ⟨last, isLast, same.symm⟩

theorem inOrder_of_timeline (ordered : r.timeline.Pairwise (· ≤ ·)) : InOrder r := by
  simp only [RuntimeRequest.timeline, List.reduceOption, List.pairwise_filterMap, List.pairwise_cons, List.forall_mem_cons,
    id_eq] at ordered
  obtain ⟨⟨createdEnqueued, createdStarted, createdToken, createdLast, -⟩, ⟨enqueuedStarted, -⟩,
    ⟨-, startedLast, -⟩, ⟨tokenLast, -⟩, -⟩ := ordered
  constructor
  · intro metric x sampled
    cases metric with
    | queueWait =>
      obtain ⟨enqueued, started, isEnqueued, isStarted, rfl⟩ := queueWait_sample sampled
      exact sub_nonneg.mpr (enqueuedStarted enqueued isEnqueued started isStarted)
    | ttft =>
      obtain ⟨token, isToken, rfl⟩ := ttft_sample sampled
      exact sub_nonneg.mpr (createdToken r.createdAt rfl token isToken)
    | totalLatency =>
      obtain ⟨last, isLast, rfl⟩ := totalLatency_sample sampled
      exact sub_nonneg.mpr (createdLast r.createdAt rfl last isLast)
  · intro metric x total sampled ended
    obtain ⟨last, isLast, rfl⟩ := totalLatency_sample ended
    cases metric with
    | queueWait =>
      obtain ⟨enqueued, started, isEnqueued, isStarted, rfl⟩ := queueWait_sample sampled
      have later := createdEnqueued r.createdAt rfl enqueued isEnqueued
      have earlier := startedLast started isStarted last isLast
      linarith
    | ttft =>
      obtain ⟨token, isToken, rfl⟩ := ttft_sample sampled
      have earlier := tokenLast token isToken last isLast
      linarith
    | totalLatency =>
      rw [ended] at sampled
      exact (Option.some.inj sampled).ge

end LatencyMetric

end LLMRuntime
