import LLMRuntime.Foundation.WindowMean
import LLMRuntime.Metrics.Snapshot
import Mathlib.Algebra.BigOperators.Ring.Finset

namespace LLMRuntime

open FloatText WindowMean

section Workload

structure WorkloadMetrics where
  completedCount : Int
  failedCount : Int
  generatedTokensTotal : Int
  queueWaitTimeAvgS : ℚ
  ttftAvgS : ℚ
  totalLatencyAvgS : ℚ
  batchCount : Int
  batchSizeAvg : ℚ
  batchSizeMax : Nat
  batchSizeDistribution : TextDict

def deltaAverage (before after : MetricsSnapshot) (average : MetricsSnapshot → ℚ) (count : MetricsSnapshot → Int) : ℚ :=
  let deltaCount := count after - count before
  if deltaCount = 0 then 0
  else (average after * count after - average before * count before) / deltaCount

def deltaDistribution (before after : MetricsSnapshot) : TextDict :=
  TextDict.ofEntries <| after.batchSizeDistribution.filterMap fun (size, count) =>
    let delta := count - before.batchSizeDistribution.get size 0
    if 0 < delta then some (size, delta) else none

def maxNewBatchSize (before after : MetricsSnapshot) : Nat :=
  (((deltaDistribution before after).map fun (size, _) => Nat.ofDigitChars 10 size 0).max?).getD 0

def workloadMetrics (before after : MetricsSnapshot) : WorkloadMetrics where
  completedCount := after.completedCount - before.completedCount
  failedCount := after.failedCount - before.failedCount
  generatedTokensTotal := after.generatedTokensTotal - before.generatedTokensTotal
  queueWaitTimeAvgS := deltaAverage before after (·.queueWaitTime.avgS) (·.completedCount)
  ttftAvgS := deltaAverage before after (·.ttft.avgS) (·.completedCount)
  totalLatencyAvgS := deltaAverage before after (·.totalLatency.avgS) (·.completedCount)
  batchCount := after.batchCount - before.batchCount
  batchSizeAvg := deltaAverage before after (·.batchSizeAvg) (·.batchCount)
  batchSizeMax := maxNewBatchSize before after
  batchSizeDistribution := deltaDistribution before after

end Workload

section Recordings

/-- A call of one of the recording methods; a failure reads the clock. -/
inductive Recording where
  | request
  | success (request : RuntimeRequest) (generatedTokens : Nat)
  | failure (request : RuntimeRequest) (now : ℚ)
  | rejection (priority : Int) (reason : String)
  | batch (batchSize : Nat)

def Recording.record (m : MetricsCollector) : Recording → MetricsCollector
  | .request => m.recordRequest
  | .success r generatedTokens => m.recordSuccess r generatedTokens
  | .failure r now => m.recordFailure (r.markFailed now)
  | .rejection priority reason => m.recordRejection priority reason
  | .batch batchSize => m.recordBatch batchSize

def recorded (run : List Recording) : MetricsCollector := run.foldl Recording.record {}

namespace LatencyMetric

def reported : LatencyMetric → WorkloadMetrics → ℚ
  | queueWait, w => w.queueWaitTimeAvgS
  | ttft, w => w.ttftAvgS
  | totalLatency, w => w.totalLatencyAvgS

def step (metric : LatencyMetric) : Recording → Step
  | .success request _ => (true, metric.sample request)
  | .failure request now => (false, metric.sample (request.markFailed now))
  | _ => (false, none)

def Matched (metric : LatencyMetric) : Recording → Prop
  | .success request _ => metric.sample request ≠ none
  | .failure request now => metric.sample (request.markFailed now) = none
  | _ => True

theorem times_record (metric : LatencyMetric) (m : MetricsCollector) (recording : Recording) :
    metric.times (recording.record m) = metric.times m ++ (metric.step recording).2.toList := by
  cases recording with
  | success request tokens =>
    rw [Recording.record, MetricsCollector.recordSuccess, times_recordTiming]
    cases metric <;> rfl
  | failure request now =>
    rw [Recording.record, MetricsCollector.recordFailure, times_recordTiming]
    cases metric <;> rfl
  | request => cases metric <;> exact (List.append_nil _).symm
  | rejection => cases metric <;> exact (List.append_nil _).symm
  | batch => cases metric <;> exact (List.append_nil _).symm

theorem completed_record (metric : LatencyMetric) (m : MetricsCollector) (recording : Recording) :
    (recording.record m).completedCount = m.completedCount + counted [metric.step recording] := by
  cases recording with
  | success request tokens =>
    have settled := congrArg Prod.fst (MetricsCollector.recordSuccess_settled m request tokens)
    exact settled
  | failure request now =>
    have settled := congrArg Prod.fst (MetricsCollector.recordFailure_settled m (request.markFailed now))
    exact settled
  | request => exact (add_zero _).symm
  | rejection => exact (add_zero _).symm
  | batch => exact (add_zero _).symm

end LatencyMetric

def Recording.batchSize? : Recording → Option Nat
  | .batch batchSize => some batchSize
  | _ => none

def batchStep (recording : Recording) : Step := (recording.batchSize?.isSome, recording.batchSize?.map Nat.cast)

theorem batches_record (m : MetricsCollector) (recording : Recording) :
    (recording.record m).batches =
      (m.batchCount + counted [batchStep recording], m.batchSizes ++ recording.batchSize?.toList) := by
  have same : m.batches = (m.batchCount + 0, m.batchSizes ++ []) := by
    rw [add_zero, List.append_nil]
    rfl
  cases recording with
  | success request tokens => exact (MetricsCollector.recordTiming_batches _ request).trans same
  | failure request now => exact (MetricsCollector.recordTiming_batches _ _).trans same
  | batch size => rfl
  | request => exact same
  | rejection => exact same

section Runs

variable {step : Recording → Step} (run : List Recording)

/-- A list that every recording appends to holds the samples of the run. -/
theorem samples_recorded {read : MetricsCollector → List ℚ} (start : read {} = [])
    (each : ∀ m recording, read (Recording.record m recording) = read m ++ (step recording).2.toList) :
    read (recorded run) = samples (run.map step) := by
  have grown (m : MetricsCollector) : read (run.foldl Recording.record m) = read m ++ samples (run.map step) := by
    induction run generalizing m with
    | nil => exact (List.append_nil _).symm
    | cons recording run ih => rw [List.foldl_cons, ih, each, List.map_cons, samples_cons, List.append_assoc]
  rw [recorded, grown, start, List.nil_append]

/-- A counter that every recording advances counts the steps of the run. -/
theorem counted_recorded {read : MetricsCollector → Int} (start : read {} = 0)
    (each : ∀ m recording, read (Recording.record m recording) = read m + counted [step recording]) :
    read (recorded run) = counted (run.map step) := by
  have grown (m : MetricsCollector) : read (run.foldl Recording.record m) = read m + counted (run.map step) := by
    induction run generalizing m with
    | nil => exact (add_zero _).symm
    | cons recording run ih =>
      rw [List.foldl_cons, ih, each, List.map_cons, counted_cons (step recording) (run.map step)]
      push_cast
      ring
  rw [recorded, grown, start, zero_add]

theorem times_recorded (metric : LatencyMetric) : metric.times (recorded run) = samples (run.map metric.step) :=
  samples_recorded run (by cases metric <;> rfl) metric.times_record

theorem completed_recorded (metric : LatencyMetric) : (recorded run).completedCount = counted (run.map metric.step) :=
  counted_recorded run rfl metric.completed_record

theorem batchCount_recorded : (recorded run).batchCount = counted (run.map batchStep) :=
  counted_recorded run rfl fun m recording => congrArg Prod.fst (batches_record m recording)

theorem batchSizes_recorded : (recorded run).batchSizes = run.filterMap Recording.batchSize? := by
  have grown (m : MetricsCollector) :
      (run.foldl Recording.record m).batchSizes = m.batchSizes ++ run.filterMap Recording.batchSize? := by
    induction run generalizing m with
    | nil => exact (List.append_nil _).symm
    | cons recording run ih =>
      have first : (recording.record m).batchSizes = m.batchSizes ++ recording.batchSize?.toList :=
        congrArg Prod.snd (batches_record m recording)
      rw [List.foldl_cons, ih, first, List.append_assoc, List.filterMap_cons]
      cases recording.batchSize? <;> rfl
  exact grown {}

theorem samples_batchStep : samples (run.map batchStep) = (run.filterMap Recording.batchSize?).map Nat.cast := by
  rw [samples, List.filterMap_map, List.map_filterMap]
  rfl

end Runs

end Recordings

section Averages

variable {before after : MetricsSnapshot} {earlier window : List Step}

theorem avgTimes_eq_mean (values : List ℚ) : avgTimes values = mean values := by
  unfold avgTimes
  split
  · next empty =>
    rw [List.isEmpty_iff.mp empty, mean_nil]
  · rfl

theorem avg_eq_mean (values : List Nat) : avg values = mean (values.map Nat.cast) := by
  unfold avg
  split
  · next empty =>
    rw [List.isEmpty_iff.mp empty, List.map_nil, mean_nil]
  · rw [mean, List.length_map, Nat.cast_list_sum]

/-- The difference of two running averages is taken with the counter of both snapshots. -/
theorem deltaAverage_eq_recovered (average : MetricsSnapshot → ℚ) (count : MetricsSnapshot → Int)
    (averageBefore : average before = mean (samples earlier))
    (averageAfter : average after = mean (samples (earlier ++ window)))
    (countBefore : count before = counted earlier) (countAfter : count after = counted (earlier ++ window)) :
    deltaAverage before after average count = recovered earlier window := by
  have delta : count after - count before = counted window := by
    rw [countBefore, countAfter, counted_append]
    push_cast
    ring
  unfold deltaAverage recovered
  dsimp only
  rw [delta, averageBefore, averageAfter, countBefore, countAfter]
  norm_cast

end Averages

section Distribution

variable {before after : MetricsSnapshot} {earlier window : List Nat}

structure Distributes (dict : TextDict) (sizes : List Nat) : Prop where
  distinct : (dict.map Prod.fst).Nodup
  entry : ∀ text n, (text, n) ∈ dict ↔ ∃ size ∈ sizes, text = intText size ∧ n = sizes.count size

theorem Distributes.get {dict : TextDict} {sizes : List Nat} (distributes : Distributes dict sizes) (size : Nat) :
    dict.get (intText size) 0 = sizes.count size := by
  by_cases member : size ∈ sizes
  · exact TextDict.get_of_mem distributes.distinct ((distributes.entry _ _).mpr ⟨size, member, rfl, rfl⟩) 0
  · rw [List.count_eq_zero_of_not_mem member]
    apply TextDict.get_of_absent
    intro listed
    obtain ⟨⟨text, n⟩, inside, same⟩ := List.mem_map.mp listed
    obtain ⟨other, found, text, -⟩ := (distributes.entry _ _).mp inside
    have equal : (other : Int) = size := intText_injective (text.symm.trans same)
    exact member (Nat.cast_injective equal ▸ found)

theorem snapshot_distributes (m : MetricsCollector) (gpu : GPUSnapshot) :
    Distributes (m.snapshot gpu).batchSizeDistribution m.batchSizes := by
  have counts := countBatches_counts m.batchSizes
  have sorted : (sortedItems (countBatches m.batchSizes)).Perm (countBatches m.batchSizes) := List.perm_insertionSort _ _
  have distinct : (((sortedItems (countBatches m.batchSizes)).map fun entry => (intText entry.1, entry.2)).map
      Prod.fst).Nodup := by
    have keys := ((sorted.map Prod.fst).nodup_iff).mpr counts.distinct
    rw [List.map_map]
    apply List.pairwise_map.mpr
    apply (List.pairwise_map.mp keys).imp
    intro a b differ same
    have sizes : (a.1 : Int) = b.1 := intText_injective same
    exact differ (Nat.cast_injective sizes)
  have entries : (m.snapshot gpu).batchSizeDistribution =
      (sortedItems (countBatches m.batchSizes)).map fun entry => (intText entry.1, entry.2) :=
    TextDict.ofEntries_eq distinct
  rw [entries]
  refine ⟨distinct, fun text n => ?_⟩
  rw [List.mem_map]
  constructor
  · rintro ⟨⟨size, count⟩, member, same⟩
    obtain ⟨rfl, rfl⟩ := Prod.mk.inj same
    obtain ⟨counted, number⟩ := (counts.entry size count).mp (sorted.mem_iff.mp member)
    exact ⟨size, counted, rfl, number⟩
  · rintro ⟨size, counted, rfl, rfl⟩
    exact ⟨_, sorted.mem_iff.mpr ((counts.entry size _).mpr ⟨counted, rfl⟩), rfl⟩

theorem deltaDistribution_distributes (first : Distributes before.batchSizeDistribution earlier)
    (last : Distributes after.batchSizeDistribution (earlier ++ window)) :
    Distributes (deltaDistribution before after) window := by
  have delta (size : Nat) : ((earlier ++ window).count size : Int) -
      before.batchSizeDistribution.get (intText size) 0 = window.count size := by
    rw [first.get, List.count_append]
    push_cast
    omega
  have distinct : ((after.batchSizeDistribution.filterMap fun (size, count) =>
      let delta := count - before.batchSizeDistribution.get size 0
      if 0 < delta then some (size, delta) else none).map Prod.fst).Nodup := by
    apply List.pairwise_map.mpr
    refine (List.pairwise_map.mp last.distinct).filterMap _ fun a b differ c kept d kept' same => differ ?_
    simp only [Option.ite_none_right_eq_some, Option.some.injEq] at kept kept'
    rw [← kept.2, ← kept'.2] at same
    exact same
  rw [deltaDistribution, TextDict.ofEntries_eq distinct]
  refine ⟨distinct, fun text n => ?_⟩
  rw [List.mem_filterMap]
  constructor
  · rintro ⟨⟨size, count⟩, member, kept⟩
    obtain ⟨number, -, rfl, rfl⟩ := (last.entry _ _).mp member
    dsimp only at kept
    rw [delta] at kept
    simp only [Option.ite_none_right_eq_some, Option.some.injEq, Prod.mk.injEq] at kept
    obtain ⟨positive, rfl, rfl⟩ := kept
    exact ⟨number, List.count_pos_iff.mp (by omega), rfl, rfl⟩
  · rintro ⟨size, counted, rfl, rfl⟩
    have positive := List.count_pos_iff.mpr counted
    refine ⟨_, (last.entry _ _).mpr ⟨size, List.mem_append_right _ counted, rfl, rfl⟩, ?_⟩
    dsimp only
    rw [delta]
    exact if_pos (by omega)

theorem max_congr {first second : List Nat} (same : ∀ value, value ∈ first ↔ value ∈ second) : first.max? = second.max? := by
  ext value
  simp only [List.max?_eq_some_iff, same]

theorem maxNewBatchSize_eq (distributes : Distributes (deltaDistribution before after) window) :
    maxNewBatchSize before after = window.max?.getD 0 := by
  rw [maxNewBatchSize]
  congr 1
  apply max_congr
  intro value
  have parsed (size : Nat) : Nat.ofDigitChars 10 (intText size) 0 = size := by
    rw [intText, if_neg (by simp)]
    exact Nat.ofDigitChars_ten_toDigits
  rw [List.mem_map]
  constructor
  · rintro ⟨⟨text, n⟩, member, rfl⟩
    obtain ⟨size, counted, rfl, -⟩ := (distributes.entry _ _).mp member
    show Nat.ofDigitChars 10 (intText size) 0 ∈ window
    rw [parsed]
    exact counted
  · intro counted
    exact ⟨_, (distributes.entry _ _).mpr ⟨value, counted, rfl, rfl⟩, parsed value⟩

end Distribution

section Windows

variable {before window : List Recording} (gpu gpu' : GPUSnapshot)

theorem reported_eq_recovered (metric : LatencyMetric) :
    metric.reported (workloadMetrics ((recorded before).snapshot gpu) ((recorded (before ++ window)).snapshot gpu')) =
      recovered (before.map metric.step) (window.map metric.step) := by
  have earlier : avgTimes (metric.times (recorded before)) = mean (samples (before.map metric.step)) := by
    rw [avgTimes_eq_mean, times_recorded]
  have later : avgTimes (metric.times (recorded (before ++ window))) =
      mean (samples (before.map metric.step ++ window.map metric.step)) := by
    rw [avgTimes_eq_mean, times_recorded, List.map_append]
  have countBefore := completed_recorded before metric
  have countAfter := completed_recorded (before ++ window) metric
  rw [List.map_append] at countAfter
  cases metric with
  | queueWait => exact deltaAverage_eq_recovered (·.queueWaitTime.avgS) (·.completedCount) earlier later countBefore countAfter
  | ttft => exact deltaAverage_eq_recovered (·.ttft.avgS) (·.completedCount) earlier later countBefore countAfter
  | totalLatency =>
    exact deltaAverage_eq_recovered (·.totalLatency.avgS) (·.completedCount) earlier later countBefore countAfter

theorem batchSizeAvg_eq :
    (workloadMetrics ((recorded before).snapshot gpu) ((recorded (before ++ window)).snapshot gpu')).batchSizeAvg =
      mean ((window.filterMap Recording.batchSize?).map Nat.cast) := by
  have earlier : avg (recorded before).batchSizes = mean (samples (before.map batchStep)) := by
    rw [avg_eq_mean, batchSizes_recorded, samples_batchStep]
  have later : avg (recorded (before ++ window)).batchSizes =
      mean (samples (before.map batchStep ++ window.map batchStep)) := by
    rw [avg_eq_mean, batchSizes_recorded, ← samples_batchStep, List.map_append]
  have countBefore := batchCount_recorded before
  have countAfter := batchCount_recorded (before ++ window)
  rw [List.map_append] at countAfter
  have paired : ∀ step ∈ before.map batchStep ++ window.map batchStep, Paired step := by
    rw [← List.map_append]
    intro step member
    obtain ⟨recording, -, rfl⟩ := List.mem_map.mp member
    cases recording <;> rfl
  rw [← samples_batchStep, ← recovered_of_paired paired]
  exact deltaAverage_eq_recovered (·.batchSizeAvg) (·.batchCount) earlier later countBefore countAfter

theorem distribution_window :
    Distributes
      (workloadMetrics ((recorded before).snapshot gpu) ((recorded (before ++ window)).snapshot gpu')).batchSizeDistribution
      (window.filterMap Recording.batchSize?) := by
  have first := snapshot_distributes (recorded before) gpu
  have last := snapshot_distributes (recorded (before ++ window)) gpu'
  rw [batchSizes_recorded] at first last
  rw [List.filterMap_append] at last
  exact deltaDistribution_distributes first last

theorem matched_iff (metric : LatencyMetric) (recording : Recording) :
    metric.Matched recording ↔ Paired (metric.step recording) := by
  cases recording with
  | success request tokens => cases sample : metric.sample request <;> simp [LatencyMetric.Matched, Paired, LatencyMetric.step, sample]
  | failure request now =>
    cases sample : metric.sample (request.markFailed now) <;>
      simp [LatencyMetric.Matched, Paired, LatencyMetric.step, sample]
  | request => exact iff_of_true trivial rfl
  | rejection => exact iff_of_true trivial rfl
  | batch => exact iff_of_true trivial rfl

end Windows

/-- The batch values are those of the window. A latency average is the mean of the window's samples, for every window of
    a run, when the run has no samples or successes have samples and failures have none; with positive samples only then. -/
theorem workload_window_iff (run : List Recording) (gpu gpu' : GPUSnapshot) :
    let reports (before window : List Recording) :=
      workloadMetrics ((recorded before).snapshot gpu) ((recorded (before ++ window)).snapshot gpu')
    let sizes (window : List Recording) := window.filterMap Recording.batchSize?
    (∀ before window rest, run = before ++ (window ++ rest) →
      (reports before window).batchSizeAvg = mean ((sizes window).map Nat.cast) ∧
      Distributes (reports before window).batchSizeDistribution (sizes window) ∧
      (reports before window).batchSizeMax = (sizes window).max?.getD 0) ∧
    ∀ metric : LatencyMetric,
      let recordedSamples (window : List Recording) := samples (window.map metric.step)
      let correct := ∀ before window rest, run = before ++ (window ++ rest) →
        metric.reported (reports before window) = mean (recordedSamples window)
      let matched := recordedSamples run = [] ∨ ∀ recording ∈ run, metric.Matched recording
      (matched → correct) ∧ ((∀ value ∈ recordedSamples run, 0 < value) → correct → matched) := by
  intro reports sizes
  constructor
  · intro before window rest _
    exact ⟨batchSizeAvg_eq gpu gpu', distribution_window gpu gpu', maxNewBatchSize_eq (distribution_window gpu gpu')⟩
  intro metric recordedSamples correct matched
  have allMatched : (∀ recording ∈ run, metric.Matched recording) ↔ ∀ step ∈ run.map metric.step, Paired step := by
    rw [List.forall_mem_map]
    exact forall₂_congr fun recording _ => matched_iff metric recording
  constructor
  · intro holds before window rest split
    show metric.reported (workloadMetrics _ _) = _
    rw [reported_eq_recovered]
    have inside : ∀ step ∈ before.map metric.step ++ window.map metric.step, step ∈ run.map metric.step := by
      intro step member
      rw [split, ← List.append_assoc, List.map_append, List.map_append]
      exact List.mem_append_left _ member
    rcases holds with silent | paired
    · apply recovered_of_silent
      apply List.filterMap_eq_nil_iff.mpr
      exact fun step member => List.filterMap_eq_nil_iff.mp silent step (inside step member)
    · apply recovered_of_paired
      exact fun step member => allMatched.mp paired step (inside step member)
  · intro positive holds
    rw [show matched = (samples (run.map metric.step) = [] ∨ ∀ recording ∈ run, metric.Matched recording) from rfl, allMatched]
    apply paired_of_recovered positive
    intro before window rest split
    obtain ⟨first, others, rfl, rfl, later⟩ := List.map_eq_append_iff.mp split
    obtain ⟨second, last, rfl, rfl, rfl⟩ := List.map_eq_append_iff.mp later
    rw [← reported_eq_recovered gpu gpu']
    exact holds first second last rfl

/-- A request that waited from one second to another, with its first token a second later. -/
def servedRequest (enqueuedAt startedAt : ℚ) : RuntimeRequest where
  requestId := "req"
  messages := []
  priority := 0
  stream := false
  sampling := { maxTokens := 16, temperature := 0, topP := 1 }
  createdAt := enqueuedAt
  enqueuedAt := some enqueuedAt
  startedAt := some startedAt
  firstTokenAt := some (startedAt + 1)
  completedAt := some (startedAt + 2)

def noDevices : GPUSnapshot :=
  { status := "unavailable", source := "nvidia-smi", gpuCount := 0, memoryUsedMb := 0, memoryTotalMb := 0
    utilizationPct := 0, gpus := [] }

theorem workload_window_iff_served :
    LatencyMetric.ttft.reported
      (workloadMetrics ((recorded [.success (servedRequest 1 2) 4]).snapshot noDevices)
        ((recorded ([.success (servedRequest 1 2) 4] ++ [.batch 1, .success (servedRequest 3 7) 4])).snapshot noDevices)) =
      mean [5] := by
  have matched := (workload_window_iff [.success (servedRequest 1 2) 4, .batch 1, .success (servedRequest 3 7) 4] noDevices
    noDevices).2 .ttft
  refine (matched.1 (.inr ?_) [.success (servedRequest 1 2) 4] [.batch 1, .success (servedRequest 3 7) 4] [] rfl).trans ?_
  · intro recording member
    simp only [List.mem_cons, List.not_mem_nil, or_false] at member
    rcases member with rfl | rfl | rfl <;> simp [LatencyMetric.Matched, LatencyMetric.sample, servedRequest]
  · decide +kernel

/-- A request that fails after it was handed out adds a waiting time, and the average is computed as if it had not. -/
theorem failed_wait_miscounted :
    let before : List Recording := [.success (servedRequest 1 2) 4]
    let window : List Recording := [.failure { servedRequest 1 4 with completedAt := none } 5, .success (servedRequest 6 7) 4]
    let metrics := workloadMetrics ((recorded before).snapshot noDevices) ((recorded (before ++ window)).snapshot noDevices)
    let waits := samples (window.map LatencyMetric.queueWait.step)
    waits = [3, 1] ∧ mean waits = 2 ∧ metrics.queueWaitTimeAvgS = 7 / 3 ∧ metrics.queueWaitTimeAvgS ≠ mean waits := by
  decide +kernel

end LLMRuntime
