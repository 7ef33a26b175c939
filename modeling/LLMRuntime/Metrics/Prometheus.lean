import LLMRuntime.Foundation.Exposition
import LLMRuntime.Metrics.Collector
import LLMRuntime.Metrics.Latency

namespace LLMRuntime

open Exposition FloatText

structure GPUDeviceSnapshot where
  index : Int
  name : String
  memoryUsedMb : Int
  memoryTotalMb : Int
  utilizationPct : Int

structure GPUSnapshot where
  status : String
  source : String
  gpuCount : Int
  memoryUsedMb : Int
  memoryTotalMb : Int
  utilizationPct : Int
  gpus : List GPUDeviceSnapshot
  reason : Option String := none

section Labels

/-- `str.replace` of one character. -/
def replace (old : Char) (new : List Char) (text : List Char) : List Char :=
  text.flatMap fun c => if c = old then new else [c]

def escapeLabel (value : List Char) : List Char :=
  replace '\n' ['\\', 'n'] (replace '"' ['\\', '"'] (replace '\\' ['\\', '\\'] value))

/-- The three replacements do what one pass over the characters does. -/
theorem escapeLabel_eq_escape (value : List Char) : escapeLabel value = escape value := by
  have appends (old : Char) (new first second : List Char) :
      replace old new (first ++ second) = replace old new first ++ replace old new second := List.flatMap_append
  induction value with
  | nil => rfl
  | cons c value ih =>
    have split : escapeLabel (c :: value) = escapeLabel [c] ++ escapeLabel value := by
      have cons : c :: value = [c] ++ value := rfl
      unfold escapeLabel
      rw [cons, appends, appends, appends]
    rw [split, ih, escape_cons]
    refine congrArg (· ++ _) ?_
    by_cases slash : c = '\\'
    · subst slash
      rfl
    by_cases quote : c = '"'
    · subst quote
      rfl
    by_cases newline : c = '\n'
    · subst newline
      rfl
    rw [escape_plain slash quote newline]
    simp [escapeLabel, replace, slash, quote, newline]

end Labels

section Families

def avg (values : List Nat) : ℚ := if values.isEmpty then 0 else (values.sum : ℚ) / values.length

def single (family text kind : String) (value : List Char) : Block :=
  { family, text := text.toList, kind, samples := [(family, [], value)] }

/-- The bucket samples of a histogram, with `cumulative` observations in the buckets before them. -/
def bucketSamples (name : String) :
    (cumulative : Int) → List (ℚ × Int) → List (String × List (String × List Char) × List Char)
  | _, [] => []
  | cumulative, (boundary, count) :: buckets =>
    (name ++ "_bucket", [("le", floatText boundary)], intText (cumulative + count)) ::
      bucketSamples name (cumulative + count) buckets

def Histogram.block (h : Histogram) (name helpText : String) : Block :=
  { family := name, text := helpText.toList, kind := "histogram"
    samples := bucketSamples name 0 (h.boundaries.zip h.counts) ++
      [(name ++ "_bucket", [("le", "+Inf".toList)], intText h.total),
        (name ++ "_sum", [], floatText h.sum),
        (name ++ "_count", [], intText h.total)] }

def Histogram.prometheusLines (h : Histogram) (name helpText : String) : List Char :=
  if h.total = 0 then [] else write (h.block name helpText).lines

def available (status : String) : Int := if status = "available" then 1 else 0

section GPU

variable (snapshot : GPUSnapshot)

def sourced (family text : String) (value : Int) : Block :=
  { family, text := text.toList, kind := "gauge"
    samples := [(family, [("source", escapeLabel snapshot.source.toList)], intText value)] }

def gpuAvailable : Block :=
  sourced snapshot "llm_gpu_available" "Whether GPU metrics are available from the sampler." (available snapshot.status)

def gpuTotals : List Block :=
  [sourced snapshot "llm_gpu_count" "Number of GPUs reported by the sampler." snapshot.gpuCount,
    sourced snapshot "llm_gpu_memory_used_bytes" "Total GPU memory used." (snapshot.memoryUsedMb * 1024 * 1024),
    sourced snapshot "llm_gpu_memory_total_bytes" "Total GPU memory capacity." (snapshot.memoryTotalMb * 1024 * 1024),
    sourced snapshot "llm_gpu_utilization_percent" "Average GPU utilization percent." snapshot.utilizationPct]

def deviceHeaders : List Line :=
  [.help "llm_gpu_device_memory_used_bytes" "Per-GPU memory used.".toList,
    .type "llm_gpu_device_memory_used_bytes" "gauge",
    .help "llm_gpu_device_memory_total_bytes" "Per-GPU memory capacity.".toList,
    .type "llm_gpu_device_memory_total_bytes" "gauge",
    .help "llm_gpu_device_utilization_percent" "Per-GPU utilization percent.".toList,
    .type "llm_gpu_device_utilization_percent" "gauge"]

def deviceLabels (gpu : GPUDeviceSnapshot) : List (String × List Char) :=
  [("gpu", escapeLabel (intText gpu.index)), ("name", escapeLabel gpu.name.toList),
    ("source", escapeLabel snapshot.source.toList)]

def deviceLines (gpu : GPUDeviceSnapshot) : List Line :=
  [.sample "llm_gpu_device_memory_used_bytes" (deviceLabels snapshot gpu) (intText (gpu.memoryUsedMb * 1024 * 1024)),
    .sample "llm_gpu_device_memory_total_bytes" (deviceLabels snapshot gpu) (intText (gpu.memoryTotalMb * 1024 * 1024)),
    .sample "llm_gpu_device_utilization_percent" (deviceLabels snapshot gpu) (intText gpu.utilizationPct)]

def deviceSection : List Line :=
  if snapshot.gpus.isEmpty then [] else .blank :: (deviceHeaders ++ snapshot.gpus.flatMap (deviceLines snapshot))

def gpuPrometheusLines : List Line :=
  (gpuAvailable snapshot).lines ++ (spaced (gpuTotals snapshot) ++ deviceSection snapshot)

end GPU

def quantiles (name : String) (values : List ℚ) : Block :=
  { family := name, text := "Latency quantiles in seconds.".toList, kind := "gauge"
    samples := [(name, [("quantile", "0.5".toList)], floatText (percentile values 50)),
      (name, [("quantile", "0.95".toList)], floatText (percentile values 95)),
      (name, [("quantile", "0.99".toList)], floatText (percentile values 99))] }

end Families

namespace MetricsCollector

variable (m : MetricsCollector)

def requestsTotal : Block :=
  { family := "llm_requests_total", text := "Total requests received.".toList, kind := "counter"
    samples := [("llm_requests_total", [("status", "received".toList)], intText (m.requestCount + m.rejectedCount)),
      ("llm_requests_total", [("status", "accepted".toList)], intText m.requestCount),
      ("llm_requests_total", [("status", "completed".toList)], intText m.completedCount),
      ("llm_requests_total", [("status", "failed".toList)], intText m.failedCount),
      ("llm_requests_total", [("status", "rejected".toList)], intText m.rejectedCount)] }

/-- Python's order on the items of the rejection counter. -/
def itemLe (a b : (String × String) × Int) : Prop :=
  a.1.1 < b.1.1 ∨ a.1.1 = b.1.1 ∧ (a.1.2 < b.1.2 ∨ a.1.2 = b.1.2 ∧ a.2 ≤ b.2)

instance : DecidableRel itemLe := fun _ _ => inferInstanceAs (Decidable (_ ∨ _))

def rejectionSample (item : (String × String) × Int) : String × List (String × List Char) × List Char :=
  ("llm_rejected_requests_total",
    [("reason", escapeLabel item.1.1.toList), ("priority", escapeLabel item.1.2.toList)], intText item.2)

def rejectedRequestsTotal : Block :=
  { family := "llm_rejected_requests_total", text := "Total rejected requests.".toList, kind := "counter"
    samples := (m.rejectionsByReasonPriority.insertionSort itemLe).map rejectionSample }

def scalars (queueSize : Int) : List Block :=
  [single "llm_generated_tokens_total" "Total generated tokens." "counter" (intText m.generatedTokensTotal),
    single "llm_batches_total" "Total batch executions." "counter" (intText m.batchCount),
    single "llm_active_requests" "Currently active requests." "gauge" (intText m.activeRequests),
    single "llm_queue_size" "Current scheduler queue depth." "gauge" (intText queueSize),
    single "llm_batch_size_avg" "Average observed batch size." "gauge" (floatText (avg m.batchSizes)),
    single "llm_batch_size_max" "Maximum observed batch size." "gauge" (intText (m.batchSizes.foldl max 0 : Nat))]

def latencyQuantiles : List Block :=
  [quantiles "llm_queue_wait_quantile_seconds" m.queueWaitTimes, quantiles "llm_ttft_quantile_seconds" m.ttftTimes,
    quantiles "llm_total_latency_quantile_seconds" m.totalLatencies]

def latencyHistograms : List (String × Histogram × String) :=
  [("llm_queue_wait_seconds", m.queueWaitHistogram, "Queue wait time histogram."),
    ("llm_ttft_seconds", m.ttftHistogram, "Time-to-first-token histogram."),
    ("llm_total_latency_seconds", m.totalLatencyHistogram, "Total request latency histogram.")]

def snapshotLines (queueSize : Int) (gpu : GPUSnapshot) : List Line :=
  m.requestsTotal.lines ++ (spaced (m.rejectedRequestsTotal :: m.scalars queueSize) ++
    (.blank :: gpuPrometheusLines gpu ++ spaced m.latencyQuantiles))

/-- What the loop over the histograms appends to the lines. -/
def histogramTexts : List (List Char) :=
  m.latencyHistograms.flatMap fun (name, histogram, helpText) =>
    let text := histogram.prometheusLines name helpText
    if text.isEmpty then [] else [[], text.rdropWhile isSpace]

def snapshotPrometheus (queueSize : Int) (gpu : GPUSnapshot) : List Char :=
  List.intercalate ['\n'] ((m.snapshotLines queueSize gpu).map Line.text ++ m.histogramTexts) ++ ['\n']

end MetricsCollector

end LLMRuntime
