import LLMRuntime.Metrics.Prometheus

namespace LLMRuntime

open FloatText

/-- A dictionary with text keys, in the order the keys were first set. -/
abbrev TextDict := List (List Char × Int)

def TextDict.set (dict : TextDict) (key : List Char) (value : Int) : TextDict :=
  if dict.any fun entry => entry.1 = key
  then dict.map fun entry => if entry.1 = key then (key, value) else entry
  else dict ++ [(key, value)]

def TextDict.get (dict : TextDict) (key : List Char) (default : Int) : Int :=
  ((dict.find? fun entry => entry.1 = key).map Prod.snd).getD default

def TextDict.ofEntries (entries : List (List Char × Int)) : TextDict :=
  entries.foldl (fun dict entry => TextDict.set dict entry.1 entry.2) []

namespace TextDict

theorem set_new {dict : TextDict} {key : List Char} {value : Int} (fresh : key ∉ dict.map Prod.fst) :
    dict.set key value = dict ++ [(key, value)] := by
  rw [set, if_neg]
  rw [List.any_eq_true]
  rintro ⟨entry, member, same⟩
  apply fresh
  rw [← of_decide_eq_true same]
  exact List.mem_map_of_mem member

theorem ofEntries_eq {entries : List (List Char × Int)} (distinct : (entries.map Prod.fst).Nodup) :
    ofEntries entries = entries := by
  have grown : ∀ (dict : TextDict) (entries : List (List Char × Int)),
      ((dict ++ entries).map Prod.fst).Nodup →
        entries.foldl (fun dict entry => TextDict.set dict entry.1 entry.2) dict = dict ++ entries := by
    intro dict entries
    induction entries generalizing dict with
    | nil =>
      intro
      rw [List.foldl_nil, List.append_nil]
    | cons entry entries ih =>
      intro distinct
      have fresh : entry.1 ∉ dict.map Prod.fst := by
        rw [List.map_append, List.map_cons] at distinct
        intro old
        exact List.disjoint_of_nodup_append distinct old List.mem_cons_self
      rw [List.foldl_cons, set_new fresh, ih, List.append_assoc, List.singleton_append]
      rw [List.append_assoc, List.singleton_append]
      exact distinct
  exact grown [] entries distinct

theorem get_of_mem {dict : TextDict} (distinct : (dict.map Prod.fst).Nodup) {key : List Char} {value : Int}
    (member : (key, value) ∈ dict) (default : Int) : dict.get key default = value := by
  induction dict with
  | nil => cases member
  | cons entry dict ih =>
    rw [List.map_cons, List.nodup_cons] at distinct
    rcases List.mem_cons.mp member with rfl | member
    · simp [get]
    · have other : entry.1 ≠ key := by
        intro same
        exact distinct.1 (same ▸ List.mem_map_of_mem member)
      have rest := ih distinct.2 member
      rw [get] at rest ⊢
      rw [List.find?_cons_of_neg (by simpa using other)]
      exact rest

theorem get_of_absent {dict : TextDict} {key : List Char} (absent : key ∉ dict.map Prod.fst) (default : Int) :
    dict.get key default = default := by
  have none : (dict.find? fun entry => entry.1 = key) = none := by
    apply List.find?_eq_none.mpr
    intro entry member same
    exact absent (of_decide_eq_true same ▸ List.mem_map_of_mem member)
  rw [get, none]
  rfl

end TextDict

structure HistogramSnapshot where
  count : Int
  sum : ℚ
  buckets : TextDict
  inf : Int

def Histogram.snapshot (h : Histogram) : HistogramSnapshot where
  count := h.total
  sum := FloatText.roundHalfEven (h.sum * 10 ^ 6) / 10 ^ 6
  buckets := TextDict.ofEntries ((h.boundaries.zip h.counts).map fun (boundary, count) => (floatText boundary, count))
  inf := h.counts.getLastD 0

/-- `_avg` of a list of floats. -/
def avgTimes (values : List ℚ) : ℚ := if values.isEmpty then 0 else values.sum / values.length

structure LatencySnapshot where
  avgS : ℚ
  p50S : ℚ
  p95S : ℚ
  p99S : ℚ
  histogram : HistogramSnapshot

def latencySnapshot (times : List ℚ) (histogram : Histogram) : LatencySnapshot where
  avgS := avgTimes times
  p50S := percentile times 50
  p95S := percentile times 95
  p99S := percentile times 99
  histogram := histogram.snapshot

structure MetricsSnapshot where
  requestCount : Int
  completedCount : Int
  failedCount : Int
  rejectedCount : Int
  rejectionsByReason : Counter String
  rejectionsByPriority : Counter String
  activeRequests : Int
  generatedTokensTotal : Int
  batchCount : Int
  batchSizeAvg : ℚ
  batchSizeMax : Nat
  batchSizeDistribution : TextDict
  queueWaitTime : LatencySnapshot
  ttft : LatencySnapshot
  totalLatency : LatencySnapshot
  gpu : GPUSnapshot

/-- `sorted` on the items of a counter. -/
def sortedItems {κ : Type} [LT κ] [DecidableLT κ] [DecidableEq κ] (counter : Counter κ) : Counter κ :=
  counter.insertionSort fun a b => a.1 < b.1 ∨ a.1 = b.1 ∧ a.2 ≤ b.2

/-- `Counter` of a list. -/
def countBatches (batchSizes : List Nat) : Counter Nat := batchSizes.foldl Counter.increment []

namespace MetricsCollector

def snapshot (m : MetricsCollector) (gpuSampler : GPUSnapshot) : MetricsSnapshot where
  requestCount := m.requestCount
  completedCount := m.completedCount
  failedCount := m.failedCount
  rejectedCount := m.rejectedCount
  rejectionsByReason := sortedItems m.rejectionsByReason
  rejectionsByPriority := sortedItems m.rejectionsByPriority
  activeRequests := m.activeRequests
  generatedTokensTotal := m.generatedTokensTotal
  batchCount := m.batchCount
  batchSizeAvg := avg m.batchSizes
  batchSizeMax := m.batchSizes.foldl max 0
  batchSizeDistribution :=
    TextDict.ofEntries ((sortedItems (countBatches m.batchSizes)).map fun (size, count) => (intText size, count))
  queueWaitTime := latencySnapshot m.queueWaitTimes m.queueWaitHistogram
  ttft := latencySnapshot m.ttftTimes m.ttftHistogram
  totalLatency := latencySnapshot m.totalLatencies m.totalLatencyHistogram
  gpu := gpuSampler

end MetricsCollector

section Batches

theorem countBatches_counts (batchSizes : List Nat) : (countBatches batchSizes).Counts batchSizes := by
  have grown : ∀ (counter : Counter Nat) (counted rest : List Nat), counter.Counts counted →
      (rest.foldl Counter.increment counter).Counts (counted ++ rest) := by
    intro counter counted rest counts
    induction rest generalizing counter counted with
    | nil =>
      rw [List.append_nil]
      exact counts
    | cons size rest ih =>
      have next := ih _ _ (counts.increment size)
      rw [List.append_assoc] at next
      exact next
  exact grown [] [] batchSizes ⟨List.nodup_nil, by simp⟩

end Batches

end LLMRuntime
