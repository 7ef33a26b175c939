import LLMRuntime.Metrics.Prometheus

namespace LLMRuntime

open Exposition FloatText

section States

namespace MetricsCollector

/-- The states that the recording methods lead to. -/
inductive Reached : MetricsCollector → Prop
  | start : Reached {}
  | request {m} (before : Reached m) : Reached m.recordRequest
  | success {m} (before : Reached m) (request : RuntimeRequest) (generatedTokens : Nat) :
      Reached (m.recordSuccess request generatedTokens)
  | failure {m} (before : Reached m) (request : RuntimeRequest) : Reached (m.recordFailure request)
  | rejection {m} (before : Reached m) (priority : Int) (reason : String) : Reached (m.recordRejection priority reason)
  | batch {m} (before : Reached m) (batchSize : Nat) : Reached (m.recordBatch batchSize)

structure Sound (m : MetricsCollector) : Prop where
  keys : (m.rejectionsByReasonPriority.map Prod.fst).Nodup
  queueWait : m.queueWaitHistogram.boundaries = latencyBuckets
  ttft : m.ttftHistogram.boundaries = latencyBuckets
  total : m.totalLatencyHistogram.boundaries = latencyBuckets

theorem Sound.recordTiming {m : MetricsCollector} (sound : m.Sound) (request : RuntimeRequest) :
    (m.recordTiming request).Sound := by
  have wait {m : MetricsCollector} (sound : m.Sound) : (m.recordQueueWait request).Sound := by
    unfold recordQueueWait
    split
    · exact ⟨sound.keys, sound.queueWait, sound.ttft, sound.total⟩
    · exact sound
  have ttft {m : MetricsCollector} (sound : m.Sound) : (m.recordTtft request).Sound := by
    unfold recordTtft
    split
    · exact ⟨sound.keys, sound.queueWait, sound.ttft, sound.total⟩
    · exact sound
  have total {m : MetricsCollector} (sound : m.Sound) : (m.recordTotal request).Sound := by
    unfold recordTotal
    split
    · exact ⟨sound.keys, sound.queueWait, sound.ttft, sound.total⟩
    · exact sound
  exact total (ttft (wait sound))

theorem Reached.sound {m : MetricsCollector} (reached : m.Reached) : m.Sound := by
  induction reached with
  | start => exact ⟨List.nodup_nil, rfl, rfl, rfl⟩
  | request _ sound => exact ⟨sound.keys, sound.queueWait, sound.ttft, sound.total⟩
  | success _ request tokens sound =>
    apply Sound.recordTiming
    exact ⟨sound.keys, sound.queueWait, sound.ttft, sound.total⟩
  | failure _ request sound =>
    apply Sound.recordTiming
    exact ⟨sound.keys, sound.queueWait, sound.ttft, sound.total⟩
  | rejection _ priority reason sound =>
    exact ⟨Counter.nodup_increment sound.keys _, sound.queueWait, sound.ttft, sound.total⟩
  | batch _ size sound => exact ⟨sound.keys, sound.queueWait, sound.ttft, sound.total⟩

end MetricsCollector

end States

section Export

theorem intText_ne_nil (n : Int) : intText n ≠ [] := by
  unfold intText
  split
  · exact List.cons_ne_nil _ _
  · exact Nat.toDigits_ne_nil

theorem isSpace_number {c : Char} (number : isNumberChar c = true) : isSpace c = false := by
  have bounds : 0x21 ≤ c.toNat ∧ c.toNat ≤ 0x7e := by
    unfold isNumberChar Char.isDigit at number
    simp only [Bool.or_eq_true, Bool.and_eq_true, decide_eq_true_eq, List.mem_cons, List.not_mem_nil, or_false] at number
    rcases number with ⟨low, high⟩ | rfl | rfl | rfl | rfl
    · change '0'.toNat ≤ c.toNat at low
      change c.toNat ≤ '9'.toNat at high
      exact ⟨le_trans (by decide) low, le_trans high (by decide)⟩
    all_goals decide
  unfold isSpace
  dsimp only
  simp only [Bool.or_eq_false_iff, Bool.and_eq_false_iff, decide_eq_false_iff_not, beq_eq_false_iff_ne]
  omega

/-- `rstrip` takes the final line feed off the text of a histogram and nothing else. -/
theorem rstrip_block (h : Histogram) (name helpText : String) :
    (write (h.block name helpText).lines).rdropWhile isSpace =
      List.intercalate ['\n'] ((h.block name helpText).lines.map Line.text) := by
  obtain ⟨lead, ends⟩ : ∃ lead, List.intercalate ['\n'] ((h.block name helpText).lines.map Line.text) =
      lead ++ intText h.total := by
    obtain ⟨first, inner, lines⟩ : ∃ first inner, (h.block name helpText).lines =
        first :: (inner ++ [.sample (name ++ "_count") [] (intText h.total)]) := by
      refine ⟨.help name helpText.toList, .type name "histogram" :: (bucketSamples name 0 (h.boundaries.zip h.counts) ++
        [(name ++ "_bucket", [("le", "+Inf".toList)], intText h.total), (name ++ "_sum", [], floatText h.sum)]).map
          fun s => .sample s.1 s.2.1 s.2.2, ?_⟩
      simp [Block.lines, Block.sampleLines, Histogram.block]
    have count : (Line.sample (name ++ "_count") [] (intText h.total)).text =
        (name ++ "_count").toList ++ ' ' :: intText h.total := rfl
    rw [lines, List.map_cons, List.map_append, join_cons, List.flatMap_append, List.map_singleton,
      List.flatMap_singleton, count]
    exact ⟨first.text ++ (_ ++ '\n' :: ((name ++ "_count").toList ++ [' '])), by simp; rfl⟩
  have newline : ∀ c ∈ ['\n'], isSpace c = true := List.forall_mem_singleton.mpr (by decide)
  rw [write, TextLines.rdropWhile_append_spaces _ newline, ends, List.rdropWhile_eq_self_iff]
  intro nonempty
  rw [List.getLast_append_of_ne_nil _ (intText_ne_nil _), isSpace_number (intText_number _ _ (List.getLast_mem _))]
  decide

namespace MetricsCollector

variable (m : MetricsCollector) (queueSize : Int) (gpu : GPUSnapshot)

def histogramBlocks : List Block :=
  m.latencyHistograms.flatMap fun entry => if entry.2.1.total = 0 then [] else [entry.2.1.block entry.1 entry.2.2]

def exportLines : List Line := m.snapshotLines queueSize gpu ++ spaced m.histogramBlocks

def blockTexts (b : Block) : List Char × List (List Char) :=
  ((Line.help b.family b.text).text, (.type b.family b.kind :: b.sampleLines).map Line.text)

theorem histogramTexts_eq :
    m.histogramTexts = (m.histogramBlocks.map blockTexts).flatMap fun g => [[], List.intercalate ['\n'] (g.1 :: g.2)] := by
  unfold histogramTexts histogramBlocks
  rw [List.flatMap_map, List.flatMap_assoc]
  refine List.flatMap_congr fun entry _ => ?_
  obtain ⟨name, histogram, helpText⟩ := entry
  by_cases none : histogram.total = 0
  · simp [Histogram.prometheusLines, none]
  · have text : histogram.prometheusLines name helpText = write (histogram.block name helpText).lines := if_neg none
    have written : (write (histogram.block name helpText).lines).isEmpty = false := by
      rw [write]
      simp
    dsimp only
    rw [text, written, rstrip_block, if_neg none]
    rfl

theorem spaced_texts (blocks : List Block) :
    (spaced blocks).map Line.text = (blocks.map blockTexts).flatMap fun g => [] :: g.1 :: g.2 := by
  unfold spaced
  rw [List.map_flatMap, List.flatMap_map]
  rfl

theorem snapshotPrometheus_eq_write : m.snapshotPrometheus queueSize gpu = write (m.exportLines queueSize gpu) := by
  obtain ⟨first, rest, lines⟩ : ∃ first rest, m.snapshotLines queueSize gpu = first :: rest := ⟨_, _, rfl⟩
  rw [snapshotPrometheus, write, exportLines, List.map_append, lines, List.map_cons, List.cons_append,
    histogramTexts_eq, spaced_texts, List.cons_append, join_nested]

end MetricsCollector

end Export

section Blocks

def Headed (text : List Char) (kind : String) : Prop :=
  '\n' ∉ text ∧ '\n' ∉ kind.toList ∧ kind ≠ "histogram"

instance (text : List Char) (kind : String) : Decidable (Headed text kind) := inferInstanceAs (Decidable (_ ∧ _ ∧ _))

theorem headed_literal {text kind : String} {letters kindLetters : List Char} (spelled : text = String.ofList letters)
    (kindSpelled : kind = String.ofList kindLetters) (oneLine : '\n' ∉ letters ∧ '\n' ∉ kindLetters)
    (plain : kind ≠ "histogram") : Headed text.toList kind :=
  ⟨TextLines.not_mem_toList spelled oneLine.1, TextLines.not_mem_toList kindSpelled oneLine.2, plain⟩

def Escaped (label : String × List Char) : Prop := Name label.1 ∧ ∃ raw, label.2 = escape raw

/-- A block whose samples all have the name of the family and the same label names. -/
structure Plain (keys : List String) (b : Block) : Prop where
  headed : Headed b.text b.kind
  nodup : keys.Nodup
  own : ∀ s ∈ b.samples, s.1 = b.family
  labelled : ∀ s ∈ b.samples, s.2.1.map Prod.fst = keys
  escaped : ∀ s ∈ b.samples, ∀ label ∈ s.2.1, Escaped label
  value : ∀ s ∈ b.samples, ∀ c ∈ s.2.2, isNumberChar c = true

theorem newline_not_mem_number {text : List Char} (number : ∀ c ∈ text, isNumberChar c = true) : '\n' ∉ text := by
  intro member
  have char := number _ member
  revert char
  decide

theorem escape_number {text : List Char} (number : ∀ c ∈ text, isNumberChar c = true) : escape text = text := by
  induction text with
  | nil => rfl
  | cons c text ih =>
    obtain ⟨first, rest⟩ := List.forall_mem_cons.mp number
    rw [escape_cons, ih rest, escape_plain]
    · rfl
    all_goals
      rintro rfl
      revert first
      decide

theorem Plain.valid {keys : List String} {b : Block} (plain : Plain keys b) (name : Name b.family) :
    ∀ line ∈ b.lines, line.Valid := by
  obtain ⟨text, kind, -⟩ := plain.headed
  intro line member
  rcases List.mem_cons.mp member with rfl | member
  · exact ⟨name, text⟩
  rcases List.mem_cons.mp member with rfl | member
  · exact ⟨name, kind⟩
  obtain ⟨s, inside, rfl⟩ := List.mem_map.mp member
  exact ⟨plain.own s inside ▸ name, plain.escaped s inside, newline_not_mem_number (plain.value s inside)⟩

theorem Plain.within {keys : List String} {b : Block} (plain : Plain keys b) (apart : b.series.Nodup) :
    b.samples.Pairwise fun s t => ¬ SameSeries (s.1, s.2.1) (t.1, t.2.1) :=
  within_of_nodup (fun _ => keys) (fun _ => plain.nodup) plain.labelled apart

theorem escaped_label {name : String} (named : Name name) (value : List Char) : Escaped (name, escapeLabel value) :=
  ⟨named, value, escapeLabel_eq_escape value⟩

theorem escaped_text {name : String} (named : Name name) {text : List Char} (same : text = escape text) :
    Escaped (name, text) := ⟨named, text, same⟩

theorem single_plain {family text kind : String} {value : List Char} (headed : Headed text.toList kind)
    (number : ∀ c ∈ value, isNumberChar c = true) : Plain [] (single family text kind value) where
  headed := headed
  nodup := List.nodup_nil
  own := List.forall_mem_singleton.mpr rfl
  labelled := List.forall_mem_singleton.mpr rfl
  escaped := List.forall_mem_singleton.mpr fun _ member => absurd member List.not_mem_nil
  value := List.forall_mem_singleton.mpr number

theorem sourced_plain (snapshot : GPUSnapshot) {family text : String} (headed : Headed text.toList "gauge")
    (value : Int) : Plain ["source"] (sourced snapshot family text value) where
  headed := headed
  nodup := List.nodup_singleton _
  own := List.forall_mem_singleton.mpr rfl
  labelled := List.forall_mem_singleton.mpr rfl
  escaped := List.forall_mem_singleton.mpr (List.forall_mem_singleton.mpr (escaped_label (by decide) _))
  value := List.forall_mem_singleton.mpr (intText_number _)

theorem quantiles_plain {name : String} (headed : Headed "Latency quantiles in seconds.".toList "gauge")
    (values : List ℚ) : Plain ["quantile"] (quantiles name values) where
  headed := headed
  nodup := List.nodup_singleton _
  own := by simp [quantiles]
  labelled := by simp [quantiles]
  escaped := by
    intro s member label listed
    simp only [quantiles, List.mem_cons, List.not_mem_nil, or_false] at member
    rcases member with rfl | rfl | rfl <;>
      (rw [List.mem_singleton.mp listed]; exact escaped_text (by decide) (by decide))
  value := by
    intro s member
    simp only [quantiles, List.mem_cons, List.not_mem_nil, or_false] at member
    rcases member with rfl | rfl | rfl <;> exact floatText_number _

theorem requestsTotal_plain (m : MetricsCollector) : Plain ["status"] m.requestsTotal where
  headed := headed_literal rfl rfl (by decide) (by decide : "counter" ≠ "histogram")
  nodup := List.nodup_singleton _
  own := by simp [MetricsCollector.requestsTotal]
  labelled := by simp [MetricsCollector.requestsTotal]
  escaped := by
    intro s member label listed
    simp only [MetricsCollector.requestsTotal, List.mem_cons, List.not_mem_nil, or_false] at member
    rcases member with rfl | rfl | rfl | rfl | rfl <;>
      (rw [List.mem_singleton.mp listed]; exact escaped_text (by decide) (by decide))
  value := by
    intro s member
    simp only [MetricsCollector.requestsTotal, List.mem_cons, List.not_mem_nil, or_false] at member
    rcases member with rfl | rfl | rfl | rfl | rfl <;> exact intText_number _

theorem rejectedRequestsTotal_plain (m : MetricsCollector) : Plain ["reason", "priority"] m.rejectedRequestsTotal where
  headed := headed_literal rfl rfl (by decide) (by decide : "counter" ≠ "histogram")
  nodup := by decide
  own := List.forall_mem_map.mpr fun _ _ => rfl
  labelled := List.forall_mem_map.mpr fun _ _ => rfl
  escaped := List.forall_mem_map.mpr fun _ _ => List.forall_mem_cons.mpr
    ⟨escaped_label (by decide) _, List.forall_mem_singleton.mpr (escaped_label (by decide) _)⟩
  value := List.forall_mem_map.mpr fun _ _ => intText_number _

def deviceBlock (snapshot : GPUSnapshot) (family text : String) (value : GPUDeviceSnapshot → Int) : Block :=
  { family, text := text.toList, kind := "gauge"
    samples := snapshot.gpus.map fun gpu => (family, deviceLabels snapshot gpu, intText (value gpu)) }

def deviceBlocks (snapshot : GPUSnapshot) : List Block :=
  if snapshot.gpus.isEmpty then [] else
    [deviceBlock snapshot "llm_gpu_device_memory_used_bytes" "Per-GPU memory used." fun gpu => gpu.memoryUsedMb * 1024 * 1024,
      deviceBlock snapshot "llm_gpu_device_memory_total_bytes" "Per-GPU memory capacity." fun gpu =>
        gpu.memoryTotalMb * 1024 * 1024,
      deviceBlock snapshot "llm_gpu_device_utilization_percent" "Per-GPU utilization percent." fun gpu => gpu.utilizationPct]

theorem deviceBlock_plain (snapshot : GPUSnapshot) {family text : String} (headed : Headed text.toList "gauge")
    (value : GPUDeviceSnapshot → Int) : Plain ["gpu", "name", "source"] (deviceBlock snapshot family text value) where
  headed := headed
  nodup := by decide
  own := List.forall_mem_map.mpr fun _ _ => rfl
  labelled := List.forall_mem_map.mpr fun _ _ => rfl
  escaped := List.forall_mem_map.mpr fun _ _ => List.forall_mem_cons.mpr ⟨escaped_label (by decide) _,
    List.forall_mem_cons.mpr ⟨escaped_label (by decide) _, List.forall_mem_singleton.mpr (escaped_label (by decide) _)⟩⟩
  value := List.forall_mem_map.mpr fun _ _ => intText_number _

theorem name_append {name suffix : String} (named : Name name) (tail : ∀ c ∈ suffix.toList, isNameChar c = true) :
    Name (name ++ suffix) := by
  rw [Name, String.toList_append]
  refine ⟨List.append_ne_nil_of_left_ne_nil named.1 _, fun c member => ?_⟩
  rcases List.mem_append.mp member with member | member
  · exact named.2 c member
  · exact tail c member

theorem suffix_ne (name : String) {first second : String} (differ : first ≠ second) : name ++ first ≠ name ++ second := by
  intro same
  exact differ ((String.append_right_inj name).mp same)

section Histograms

variable {name : String}

theorem mem_bucketSamples {cumulative : Int} {buckets : List (ℚ × Int)}
    {s : String × List (String × List Char) × List Char} (member : s ∈ bucketSamples name cumulative buckets) :
    s.1 = name ++ "_bucket" ∧ (∃ boundary, s.2.1 = [("le", floatText boundary)]) ∧ ∀ c ∈ s.2.2, isNumberChar c = true := by
  induction buckets generalizing cumulative with
  | nil => cases member
  | cons bucket buckets ih =>
    rcases List.mem_cons.mp member with rfl | member
    · exact ⟨rfl, ⟨_, rfl⟩, intText_number _⟩
    · exact ih member

theorem bucketSamples_series (cumulative : Int) (buckets : List (ℚ × Int)) :
    (bucketSamples name cumulative buckets).map (fun s => (s.1, s.2.1)) =
      (buckets.map Prod.fst).map fun boundary => (name ++ "_bucket", [("le", floatText boundary)]) := by
  induction buckets generalizing cumulative with
  | nil => rfl
  | cons bucket buckets ih =>
    rw [bucketSamples, List.map_cons, ih]
    rfl

variable {h : Histogram} {helpText : String}

/-- The samples of a histogram: its buckets, and then the sum and the count. -/
theorem mem_histogram {s : String × List (String × List Char) × List Char}
    (member : s ∈ (h.block name helpText).samples) :
    (∀ c ∈ s.2.2, isNumberChar c = true) ∧
      (s.1 = name ++ "_bucket" ∧ (∃ text, s.2.1 = [("le", text)] ∧ text = escape text) ∨
        (s.1 = name ++ "_sum" ∨ s.1 = name ++ "_count") ∧ s.2.1 = []) := by
  rcases List.mem_append.mp member with member | member
  · obtain ⟨bucket, ⟨boundary, label⟩, number⟩ := mem_bucketSamples member
    exact ⟨number, .inl ⟨bucket, _, label, (escape_number (floatText_number boundary)).symm⟩⟩
  · simp only [List.mem_cons, List.not_mem_nil, or_false] at member
    rcases member with rfl | rfl | rfl
    · exact ⟨intText_number _, .inl ⟨rfl, _, rfl, by decide⟩⟩
    · exact ⟨floatText_number _, .inr ⟨.inl rfl, rfl⟩⟩
    · exact ⟨intText_number _, .inr ⟨.inr rfl, rfl⟩⟩

theorem histogram_own : ∀ s ∈ (h.block name helpText).samples, Suffixed name s.1 := by
  intro s member
  rcases (mem_histogram member).2 with ⟨bucket, -⟩ | ⟨total, -⟩
  · exact .inl bucket
  · exact .inr total

theorem histogram_valid (named : Name name) (text : '\n' ∉ helpText.toList) :
    ∀ line ∈ (h.block name helpText).lines, line.Valid := by
  intro line member
  rcases List.mem_cons.mp member with rfl | member
  · exact ⟨named, text⟩
  rcases List.mem_cons.mp member with rfl | member
  · exact ⟨named, (by decide : '\n' ∉ "histogram".toList)⟩
  obtain ⟨s, inside, rfl⟩ := List.mem_map.mp member
  obtain ⟨number, shape⟩ := mem_histogram inside
  refine ⟨?_, ?_, newline_not_mem_number number⟩
  · rcases histogram_own s inside with bucket | sum | count
    · exact bucket ▸ name_append named (TextLines.forall_mem_of_all (by decide))
    · exact sum ▸ name_append named (TextLines.forall_mem_of_all (by decide))
    · exact count ▸ name_append named (TextLines.forall_mem_of_all (by decide))
  · intro label listed
    rcases shape with ⟨-, text, labels, same⟩ | ⟨-, none⟩
    · rw [labels, List.mem_singleton] at listed
      exact listed ▸ escaped_text (by decide) same
    · rw [none] at listed
      cases listed

theorem bucketTexts_nodup : (latencyBuckets.map floatText ++ ["+Inf".toList]).Nodup := by decide +kernel

theorem histogram_apart (boundaries : h.boundaries = latencyBuckets) : (h.block name helpText).series.Nodup := by
  have zipped : (h.boundaries.zip h.counts).map Prod.fst = latencyBuckets := by
    rw [List.map_fst_zip (by rw [h.sized]; omega), boundaries]
  have split : (h.block name helpText).series =
      (latencyBuckets.map floatText ++ ["+Inf".toList]).map (fun text => (name ++ "_bucket", [("le", text)])) ++
        [(name ++ "_sum", []), (name ++ "_count", [])] := by
    change (bucketSamples name 0 (h.boundaries.zip h.counts) ++ _).map _ = _
    rw [List.map_append, bucketSamples_series, zipped, List.map_append, List.map_map, List.append_assoc]
    rfl
  rw [split]
  refine List.nodup_append.mpr ⟨bucketTexts_nodup.map ?_, ?_, ?_⟩
  · intro first second same
    exact (Prod.mk.inj (List.singleton_inj.mp (Prod.mk.inj same).2)).2
  · refine List.nodup_cons.mpr ⟨fun member => ?_, List.nodup_singleton _⟩
    exact suffix_ne name (by decide) (Prod.mk.inj (List.mem_singleton.mp member)).1
  · rintro a member b inside rfl
    obtain ⟨text, -, rfl⟩ := List.mem_map.mp member
    simp at inside

theorem histogram_within (boundaries : h.boundaries = latencyBuckets) :
    (h.block name helpText).samples.Pairwise fun s t => ¬ SameSeries (s.1, s.2.1) (t.1, t.2.1) := by
  have keys : ∀ s ∈ (h.block name helpText).samples,
      s.2.1.map Prod.fst = if s.1 = name ++ "_bucket" then ["le"] else [] := by
    intro s member
    rcases (mem_histogram member).2 with ⟨bucket, text, labels, -⟩ | ⟨total, none⟩
    · rw [labels, if_pos bucket]
      rfl
    · have other : s.1 ≠ name ++ "_bucket" := by
        rcases total with sum | count
        · exact sum ▸ suffix_ne name (by decide)
        · exact count ▸ suffix_ne name (by decide)
      rw [none, if_neg other]
      rfl
  refine within_of_nodup (fun key => if key = name ++ "_bucket" then ["le"] else []) ?_ keys (histogram_apart boundaries)
  intro key
  split
  · exact List.nodup_singleton _
  · exact List.nodup_nil

end Histograms

end Blocks

namespace MetricsCollector

section Document

variable (m : MetricsCollector) (queueSize : Int) (gpu : GPUSnapshot)

/-- The families of the export, with the lines of every device family put together. -/
def blocks : List Block :=
  m.requestsTotal :: m.rejectedRequestsTotal :: m.scalars queueSize ++ gpuAvailable gpu :: gpuTotals gpu ++
    deviceBlocks gpu ++ m.latencyQuantiles ++ m.histogramBlocks

def histogramFamilies : List String := ["llm_queue_wait_seconds", "llm_ttft_seconds", "llm_total_latency_seconds"]

def families : List String :=
  ["llm_requests_total", "llm_rejected_requests_total", "llm_generated_tokens_total", "llm_batches_total",
    "llm_active_requests", "llm_queue_size", "llm_batch_size_avg", "llm_batch_size_max", "llm_gpu_available",
    "llm_gpu_count", "llm_gpu_memory_used_bytes", "llm_gpu_memory_total_bytes", "llm_gpu_utilization_percent",
    "llm_gpu_device_memory_used_bytes", "llm_gpu_device_memory_total_bytes", "llm_gpu_device_utilization_percent",
    "llm_queue_wait_quantile_seconds", "llm_ttft_quantile_seconds", "llm_total_latency_quantile_seconds"]

theorem families_sublist :
    ((m.blocks queueSize gpu).map Block.family).Sublist (families ++ histogramFamilies) := by
  have devices : ((deviceBlocks gpu).map Block.family).Sublist
      ["llm_gpu_device_memory_used_bytes", "llm_gpu_device_memory_total_bytes",
        "llm_gpu_device_utilization_percent"] := by
    unfold deviceBlocks
    split
    · exact List.nil_sublist _
    · exact List.Sublist.refl _
  have kept (histogram : Histogram) (name helpText : String) :
      ((if histogram.total = 0 then [] else [histogram.block name helpText]).map Block.family).Sublist [name] := by
    split
    · exact List.nil_sublist _
    · exact List.Sublist.refl _
  have histograms : (m.histogramBlocks.map Block.family).Sublist histogramFamilies := by
    unfold histogramBlocks latencyHistograms
    rw [List.map_flatMap, List.flatMap_cons, List.flatMap_cons, List.flatMap_cons, List.flatMap_nil]
    exact (kept _ _ _).append ((kept _ _ _).append ((kept _ _ _).append (List.Sublist.refl [])))
  have leading := List.Sublist.refl
    ((m.requestsTotal :: m.rejectedRequestsTotal :: m.scalars queueSize ++ gpuAvailable gpu :: gpuTotals gpu).map
      Block.family)
  have quantiles := List.Sublist.refl (m.latencyQuantiles.map Block.family)
  unfold blocks
  rw [List.map_append, List.map_append, List.map_append]
  exact ((leading.append devices).append quantiles).append histograms

theorem families_nodup : ((m.blocks queueSize gpu).map Block.family).Nodup :=
  (m.families_sublist queueSize gpu).nodup (by decide +kernel)

variable {m queueSize gpu}

theorem mem_histogramBlocks {b : Block} (member : b ∈ m.histogramBlocks) :
    ∃ entry ∈ m.latencyHistograms, b = entry.2.1.block entry.1 entry.2.2 := by
  obtain ⟨entry, listed, inside⟩ := List.mem_flatMap.mp member
  split at inside
  · cases inside
  · exact ⟨entry, listed, List.mem_singleton.mp inside⟩

theorem scalars_plain {b : Block} (member : b ∈ m.scalars queueSize) : ∃ keys, Plain keys b := by
  simp only [scalars, List.mem_cons, List.not_mem_nil, or_false] at member
  rcases member with rfl | rfl | rfl | rfl | rfl | rfl
  · exact ⟨_, single_plain (headed_literal rfl rfl (by decide) (by decide)) (intText_number _)⟩
  · exact ⟨_, single_plain (headed_literal rfl rfl (by decide) (by decide)) (intText_number _)⟩
  · exact ⟨_, single_plain (headed_literal rfl rfl (by decide) (by decide)) (intText_number _)⟩
  · exact ⟨_, single_plain (headed_literal rfl rfl (by decide) (by decide)) (intText_number _)⟩
  · exact ⟨_, single_plain (headed_literal rfl rfl (by decide) (by decide)) (floatText_number _)⟩
  · exact ⟨_, single_plain (headed_literal rfl rfl (by decide) (by decide)) (intText_number _)⟩

theorem gpuTotals_plain {b : Block} (member : b ∈ gpuTotals gpu) : ∃ keys, Plain keys b := by
  simp only [gpuTotals, List.mem_cons, List.not_mem_nil, or_false] at member
  rcases member with rfl | rfl | rfl | rfl
  · exact ⟨_, sourced_plain gpu (headed_literal rfl rfl (by decide) (by decide)) _⟩
  · exact ⟨_, sourced_plain gpu (headed_literal rfl rfl (by decide) (by decide)) _⟩
  · exact ⟨_, sourced_plain gpu (headed_literal rfl rfl (by decide) (by decide)) _⟩
  · exact ⟨_, sourced_plain gpu (headed_literal rfl rfl (by decide) (by decide)) _⟩

theorem deviceBlocks_plain {b : Block} (member : b ∈ deviceBlocks gpu) : ∃ keys, Plain keys b := by
  unfold deviceBlocks at member
  split at member
  · cases member
  · simp only [List.mem_cons, List.not_mem_nil, or_false] at member
    rcases member with rfl | rfl | rfl
    · exact ⟨_, deviceBlock_plain gpu (headed_literal rfl rfl (by decide) (by decide)) _⟩
    · exact ⟨_, deviceBlock_plain gpu (headed_literal rfl rfl (by decide) (by decide)) _⟩
    · exact ⟨_, deviceBlock_plain gpu (headed_literal rfl rfl (by decide) (by decide)) _⟩

theorem latencyQuantiles_plain {b : Block} (member : b ∈ m.latencyQuantiles) : ∃ keys, Plain keys b := by
  simp only [latencyQuantiles, List.mem_cons, List.not_mem_nil, or_false] at member
  rcases member with rfl | rfl | rfl
  · exact ⟨_, quantiles_plain (headed_literal rfl rfl (by decide) (by decide)) _⟩
  · exact ⟨_, quantiles_plain (headed_literal rfl rfl (by decide) (by decide)) _⟩
  · exact ⟨_, quantiles_plain (headed_literal rfl rfl (by decide) (by decide)) _⟩

theorem histogramBlocks_shape (sound : m.Sound) {b : Block} (member : b ∈ m.histogramBlocks) :
    b.family ∈ histogramFamilies ∧ ∃ h helpText, h.boundaries = latencyBuckets ∧
      '\n' ∉ helpText.toList ∧ b = Histogram.block h b.family helpText := by
  obtain ⟨entry, listed, rfl⟩ := mem_histogramBlocks member
  have known : entry.1 ∈ histogramFamilies ∧ entry.2.1.boundaries = latencyBuckets ∧ '\n' ∉ entry.2.2.toList := by
    simp only [latencyHistograms, List.mem_cons, List.not_mem_nil, or_false] at listed
    rcases listed with rfl | rfl | rfl
    · exact ⟨.head _, sound.queueWait, TextLines.not_mem_toList rfl (by decide)⟩
    · exact ⟨.tail _ (.head _), sound.ttft, TextLines.not_mem_toList rfl (by decide)⟩
    · exact ⟨.tail _ (.tail _ (.head _)), sound.total, TextLines.not_mem_toList rfl (by decide)⟩
  exact ⟨known.1, entry.2.1, entry.2.2, known.2.1, known.2.2, rfl⟩

theorem plain_or_histogram (sound : m.Sound) {b : Block} (member : b ∈ m.blocks queueSize gpu) :
    (∃ keys, Plain keys b) ∨
      b ∈ m.histogramBlocks ∧ b.family ∈ histogramFamilies ∧ ∃ h helpText, h.boundaries = latencyBuckets ∧
        '\n' ∉ helpText.toList ∧ b = Histogram.block h b.family helpText := by
  simp only [blocks, List.mem_append, List.mem_cons] at member
  rcases member with ((((rfl | rfl | scalar) | rfl | total) | device) | quantile) | histogram
  · exact .inl ⟨_, requestsTotal_plain m⟩
  · exact .inl ⟨_, rejectedRequestsTotal_plain m⟩
  · exact .inl (scalars_plain scalar)
  · exact .inl ⟨_, sourced_plain gpu (headed_literal rfl rfl (by decide) (by decide)) _⟩
  · exact .inl (gpuTotals_plain total)
  · exact .inl (deviceBlocks_plain device)
  · exact .inl (latencyQuantiles_plain quantile)
  · exact .inr ⟨histogram, histogramBlocks_shape sound histogram⟩

theorem family_mem {b : Block} (member : b ∈ m.blocks queueSize gpu) : b.family ∈ families ++ histogramFamilies :=
  (m.families_sublist queueSize gpu).subset (List.mem_map_of_mem member)

theorem families_name : ∀ name ∈ families ++ histogramFamilies, Name name := by decide +kernel

theorem family_name {b : Block} (member : b ∈ m.blocks queueSize gpu) : Name b.family :=
  families_name _ (family_mem member)

theorem mem_spaced {blocks : List Block} {line : Line} (member : line ∈ spaced blocks) :
    line = .blank ∨ ∃ b ∈ blocks, line ∈ b.lines := by
  obtain ⟨b, listed, inside⟩ := List.mem_flatMap.mp member
  rcases List.mem_cons.mp inside with blank | inside
  · exact .inl blank
  · exact .inr ⟨b, listed, inside⟩

theorem mem_deviceSection {line : Line} (member : line ∈ deviceSection gpu) :
    line = .blank ∨ ∃ b ∈ deviceBlocks gpu, line ∈ b.lines := by
  unfold deviceSection at member
  split at member
  · cases member
  next some =>
  have sample (family text : String) (value : GPUDeviceSnapshot → Int) {device : GPUDeviceSnapshot}
      (listed : device ∈ gpu.gpus) : .sample family (deviceLabels gpu device) (intText (value device)) ∈
        (deviceBlock gpu family text value).lines := by
    refine List.mem_cons_of_mem _ (List.mem_cons_of_mem _ ?_)
    exact List.mem_map.mpr ⟨_, List.mem_map_of_mem listed, rfl⟩
  unfold deviceBlocks
  rw [if_neg some]
  simp only [List.mem_cons, List.mem_append, deviceHeaders, List.not_mem_nil, or_false] at member
  rcases member with blank | (rfl | rfl | rfl | rfl | rfl | rfl) | device
  · exact .inl blank
  · exact .inr ⟨_, .head _, .head _⟩
  · exact .inr ⟨_, .head _, .tail _ (.head _)⟩
  · exact .inr ⟨_, .tail _ (.head _), .head _⟩
  · exact .inr ⟨_, .tail _ (.head _), .tail _ (.head _)⟩
  · exact .inr ⟨_, .tail _ (.tail _ (.head _)), .head _⟩
  · exact .inr ⟨_, .tail _ (.tail _ (.head _)), .tail _ (.head _)⟩
  · obtain ⟨device, listed, inside⟩ := List.mem_flatMap.mp device
    simp only [deviceLines, List.mem_cons, List.not_mem_nil, or_false] at inside
    rcases inside with rfl | rfl | rfl
    · exact .inr ⟨_, .head _, sample _ _ _ listed⟩
    · exact .inr ⟨_, .tail _ (.head _), sample _ _ _ listed⟩
    · exact .inr ⟨_, .tail _ (.tail _ (.head _)), sample _ _ (fun gpu => gpu.utilizationPct) listed⟩

theorem mem_exportLines {line : Line} (member : line ∈ m.exportLines queueSize gpu) :
    line = .blank ∨ ∃ b ∈ m.blocks queueSize gpu, line ∈ b.lines := by
  have wider {blocks : List Block} (within : ∀ b ∈ blocks, b ∈ m.blocks queueSize gpu)
      (found : line = .blank ∨ ∃ b ∈ blocks, line ∈ b.lines) :
      line = .blank ∨ ∃ b ∈ m.blocks queueSize gpu, line ∈ b.lines :=
    found.imp_right fun ⟨b, listed, inside⟩ => ⟨b, within b listed, inside⟩
  simp only [exportLines, snapshotLines, gpuPrometheusLines, List.mem_append, List.mem_cons] at member
  rcases member with (requests | scalar | (rfl | available | total | device) | quantile) | histogram
  · exact .inr ⟨_, by simp [blocks], requests⟩
  · exact wider (by simp +contextual [blocks]) (mem_spaced scalar)
  · exact .inl rfl
  · exact .inr ⟨_, by simp [blocks], available⟩
  · exact wider (by simp +contextual [blocks]) (mem_spaced total)
  · exact wider (by simp +contextual [blocks]) (mem_deviceSection device)
  · exact wider (by simp +contextual [blocks]) (mem_spaced quantile)
  · exact wider (by simp +contextual [blocks]) (mem_spaced histogram)

theorem exportLines_valid (sound : m.Sound) : ∀ line ∈ m.exportLines queueSize gpu, line.Valid := by
  intro line member
  rcases mem_exportLines member with rfl | ⟨b, listed, inside⟩
  · exact True.intro
  rcases plain_or_histogram sound listed with ⟨keys, plain⟩ | ⟨-, family, h, helpText, -, text, same⟩
  · exact plain.valid (family_name listed) line inside
  · rw [same] at inside
    exact histogram_valid (family_name listed) text line inside

theorem histograms_subset (sound : m.Sound) {family : String} (declared : family ∈ histograms (m.exportLines queueSize gpu)) :
    family ∈ histogramFamilies := by
  rcases mem_exportLines (mem_histograms.mp declared) with blank | ⟨b, listed, inside⟩
  · cases blank
  have header : b.family = family ∧ b.kind = "histogram" := by
    rcases List.mem_cons.mp inside with help | inside
    · cases help
    rcases List.mem_cons.mp inside with type | inside
    · exact ⟨(Line.type.inj type).1.symm, (Line.type.inj type).2.symm⟩
    · obtain ⟨s, -, sample⟩ := List.mem_map.mp inside
      cases sample
  rcases plain_or_histogram sound listed with ⟨keys, plain⟩ | ⟨-, family, -⟩
  · exact absurd header.2 plain.headed.2.2
  · exact header.1 ▸ family

theorem histograms_declared {b : Block} (member : b ∈ m.histogramBlocks) :
    b.family ∈ histograms (m.exportLines queueSize gpu) := by
  have kind : b.kind = "histogram" := by
    obtain ⟨entry, -, rfl⟩ := mem_histogramBlocks member
    rfl
  refine mem_histograms.mpr (List.mem_append_right _ (List.mem_flatMap.mpr ⟨b, member, ?_⟩))
  exact kind ▸ .tail _ (.tail _ (.head _))

theorem plain_names : ∀ base ∈ histogramFamilies, ∀ name ∈ families ++ histogramFamilies, ¬ Suffixed base name := by
  decide +kernel

theorem suffixed_names : ∀ base ∈ histogramFamilies, ∀ other ∈ histogramFamilies,
    ∀ suffix ∈ ["_bucket", "_sum", "_count"], Suffixed other (base ++ suffix) → other = base := by decide +kernel

theorem blocks_own (sound : m.Sound) : ∀ b ∈ m.blocks queueSize gpu, ∀ s ∈ b.samples,
    baseName (histograms (m.exportLines queueSize gpu)) s.1 = b.family := by
  intro b listed s inside
  rcases plain_or_histogram sound listed with ⟨keys, plain⟩ | ⟨declared, family, h, helpText, -, -, same⟩
  · rw [plain.own s inside]
    refine baseName_plain fun base declared => ?_
    exact plain_names base (histograms_subset sound declared) _ (family_mem listed)
  · have suffixed : Suffixed b.family s.1 := histogram_own s (same ▸ inside)
    refine baseName_suffixed (histograms_declared declared) suffixed fun other otherDeclared otherSuffixed => ?_
    have known := histograms_subset sound otherDeclared
    rcases suffixed with bucket | sum | count
    · exact suffixed_names _ family _ known "_bucket" (by decide) (bucket ▸ otherSuffixed)
    · exact suffixed_names _ family _ known "_sum" (by decide) (sum ▸ otherSuffixed)
    · exact suffixed_names _ family _ known "_count" (by decide) (count ▸ otherSuffixed)

theorem present_exportLines (noDevices : gpu.gpus = []) :
    present (m.exportLines queueSize gpu) = (m.blocks queueSize gpu).flatMap Block.lines := by
  have empty : deviceSection gpu = [] := by simp [deviceSection, noDevices]
  have blocksEmpty : deviceBlocks gpu = [] := by simp [deviceBlocks, noDevices]
  have blank (lines : List Line) : present (.blank :: lines) = present lines := rfl
  simp only [exportLines, snapshotLines, gpuPrometheusLines, blocks, empty, blocksEmpty, blank, List.cons_append,
    present_append, present_lines, present_spaced, List.flatMap_append, List.flatMap_cons, List.append_assoc,
    List.append_nil]

theorem series_deviceSection : ((deviceSection gpu).filterMap Line.series?).Perm ((deviceBlocks gpu).flatMap Block.series) := by
  unfold deviceSection deviceBlocks
  split
  · exact .nil
  have lines : (Line.blank :: (deviceHeaders ++ gpu.gpus.flatMap (deviceLines gpu))).filterMap Line.series? =
      gpu.gpus.flatMap fun device => [("llm_gpu_device_memory_used_bytes", deviceLabels gpu device)] ++
        ([("llm_gpu_device_memory_total_bytes", deviceLabels gpu device)] ++
          [("llm_gpu_device_utilization_percent", deviceLabels gpu device)]) := by
    change (gpu.gpus.flatMap (deviceLines gpu)).filterMap Line.series? = _
    rw [List.filterMap_flatMap]
    rfl
  have series (family text : String) (value : GPUDeviceSnapshot → Int) : (deviceBlock gpu family text value).series =
      gpu.gpus.flatMap fun device => [(family, deviceLabels gpu device)] := by
    rw [← List.map_eq_flatMap, Block.series, deviceBlock, List.map_map]
    rfl
  rw [lines, List.flatMap_cons, List.flatMap_cons, List.flatMap_singleton, series, series, series]
  refine ((List.flatMap_append_perm _ _ _).symm.trans ?_)
  exact (List.flatMap_append_perm _ _ _).symm.append_left _

theorem series_exportLines :
    ((m.exportLines queueSize gpu).filterMap Line.series?).Perm ((m.blocks queueSize gpu).flatMap Block.series) := by
  have blank (lines : List Line) : (Line.blank :: lines).filterMap Line.series? = lines.filterMap Line.series? := rfl
  simp only [exportLines, snapshotLines, gpuPrometheusLines, blocks, blank, List.cons_append, List.filterMap_append,
    series_lines, series_spaced, List.flatMap_append, List.flatMap_cons, List.append_assoc]
  have devices : ((deviceSection gpu).filterMap Line.series?).Perm ((deviceBlocks gpu).flatMap Block.series) :=
    series_deviceSection
  exact (((((devices.append_right _).append_left _).append_left _).append_left _).append_left _).append_left _

theorem rejected_apart (sound : m.Sound) : m.rejectedRequestsTotal.series.Nodup := by
  have items : ((m.rejectionsByReasonPriority.insertionSort itemLe).map Prod.fst).Nodup :=
    ((List.perm_insertionSort itemLe m.rejectionsByReasonPriority).map Prod.fst).nodup_iff.mpr sound.keys
  change (((m.rejectionsByReasonPriority.insertionSort itemLe).map rejectionSample).map _).Nodup
  rw [List.map_map]
  refine List.pairwise_map.mpr ((List.pairwise_map.mp items).imp fun {a b} differ same => differ ?_)
  have labels := (Prod.mk.inj same).2
  simp only [rejectionSample, escapeLabel_eq_escape, List.cons.injEq, Prod.mk.injEq, true_and, and_true] at labels
  exact Prod.ext (String.toList_inj.mp (escape_injective labels.1)) (String.toList_inj.mp (escape_injective labels.2))

theorem device_apart (indices : (gpu.gpus.map GPUDeviceSnapshot.index).Nodup) (family text : String)
    (value : GPUDeviceSnapshot → Int) : (deviceBlock gpu family text value).series.Nodup := by
  rw [Block.series, deviceBlock, List.map_map]
  refine List.pairwise_map.mpr ((List.pairwise_map.mp indices).imp fun {a b} differ same => differ ?_)
  have labels := (Prod.mk.inj same).2
  simp only [deviceLabels, escapeLabel_eq_escape, List.cons.injEq, Prod.mk.injEq, true_and] at labels
  exact intText_injective (escape_injective labels.1)

theorem quantiles_apart (name : String) (values : List ℚ) : (quantiles name values).series.Nodup := by
  apply List.Nodup.of_map Prod.snd
  change [[("quantile", "0.5".toList)], [("quantile", "0.95".toList)], [("quantile", "0.99".toList)]].Nodup
  decide

theorem requests_apart : m.requestsTotal.series.Nodup := by
  apply List.Nodup.of_map fun series => series.2.map Prod.snd
  change [["received".toList], ["accepted".toList], ["completed".toList], ["failed".toList], ["rejected".toList]].Nodup
  decide

theorem blocks_within (sound : m.Sound) (indices : (gpu.gpus.map GPUDeviceSnapshot.index).Nodup) :
    ∀ b ∈ m.blocks queueSize gpu, b.samples.Pairwise fun s t => ¬ SameSeries (s.1, s.2.1) (t.1, t.2.1) := by
  intro b member
  have listed := member
  rcases plain_or_histogram sound member with ⟨keys, plain⟩ | ⟨-, -, h, helpText, boundaries, -, same⟩
  · apply plain.within
    simp only [blocks, List.mem_append, List.mem_cons] at listed
    rcases listed with ((((rfl | rfl | scalar) | rfl | total) | device) | quantile) | histogram
    · exact requests_apart
    · exact rejected_apart sound
    · simp only [scalars, List.mem_cons, List.not_mem_nil, or_false] at scalar
      rcases scalar with rfl | rfl | rfl | rfl | rfl | rfl <;> exact List.nodup_singleton _
    · exact List.nodup_singleton _
    · simp only [gpuTotals, List.mem_cons, List.not_mem_nil, or_false] at total
      rcases total with rfl | rfl | rfl | rfl <;> exact List.nodup_singleton _
    · unfold deviceBlocks at device
      split at device
      · cases device
      · simp only [List.mem_cons, List.not_mem_nil, or_false] at device
        rcases device with rfl | rfl | rfl <;> exact device_apart indices _ _ _
    · simp only [latencyQuantiles, List.mem_cons, List.not_mem_nil, or_false] at quantile
      rcases quantile with rfl | rfl | rfl <;> exact quantiles_apart _ _
    · obtain ⟨entry, -, rfl⟩ := mem_histogramBlocks histogram
      exact absurd rfl plain.headed.2.2
  · rw [same]
    exact histogram_within boundaries

theorem exportLines_grouped (sound : m.Sound) (noDevices : gpu.gpus = []) : Grouped (m.exportLines queueSize gpu) :=
  grouped_of_blocks (present_exportLines noDevices) (m.families_nodup queueSize gpu) (blocks_own sound)

theorem exportLines_distinct (sound : m.Sound) (indices : (gpu.gpus.map GPUDeviceSnapshot.index).Nodup) :
    Distinct (m.exportLines queueSize gpu) :=
  distinct_of_blocks series_exportLines (m.families_nodup queueSize gpu) (blocks_own sound) (blocks_within sound indices)

theorem deviceSection_sublist (m : MetricsCollector) (queueSize : Int) (gpu : GPUSnapshot) :
    (deviceSection gpu).Sublist (m.exportLines queueSize gpu) := by
  have ofGpu : (deviceSection gpu).Sublist (gpuPrometheusLines gpu) :=
    (List.sublist_append_right _ _).trans (List.sublist_append_right _ _)
  have ofSnapshot : (gpuPrometheusLines gpu).Sublist (m.snapshotLines queueSize gpu) :=
    (((List.sublist_cons_self _ _).trans (List.sublist_append_left _ _)).trans (List.sublist_append_right _ _)).trans
      (List.sublist_append_right _ _)
  exact (ofGpu.trans ofSnapshot).trans (List.sublist_append_left _ _)

/-- The export is read back, with the label values before their escaping. -/
theorem read_snapshotPrometheus (sound : m.Sound) :
    read (m.snapshotPrometheus queueSize gpu) = some ((m.exportLines queueSize gpu).map Line.decode) := by
  rw [snapshotPrometheus_eq_write]
  exact read_write (List.append_ne_nil_of_left_ne_nil (List.cons_ne_nil _ _) _) (exportLines_valid sound)

/-- With a device, a sample of the first device family comes after the header of the second. -/
theorem not_grouped_of_device (sound : m.Sound) (devices : gpu.gpus ≠ []) :
    ¬ Grouped ((m.exportLines queueSize gpu).map Line.decode) := by
  intro grouped
  obtain ⟨device, others, listed⟩ := List.exists_cons_of_ne_nil devices
  let used : Line := .help "llm_gpu_device_memory_used_bytes" "Per-GPU memory used.".toList
  let total : Line := .help "llm_gpu_device_memory_total_bytes" "Per-GPU memory capacity.".toList
  let sample : Line := .sample "llm_gpu_device_memory_used_bytes" (deviceLabels gpu device)
    (intText (device.memoryUsedMb * 1024 * 1024))
  have written : [used, total, sample].Sublist (deviceSection gpu) := by
    have headers : [used, total].Sublist deviceHeaders := by decide
    have first : [sample].Sublist (gpu.gpus.flatMap (deviceLines gpu)) := by
      rw [listed]
      exact List.singleton_sublist.mpr (List.mem_append_left _ List.mem_cons_self)
    unfold deviceSection
    rw [if_neg (by simpa using devices)]
    exact (headers.append first).cons _
  have order : [used, total, sample.decode].Sublist (present ((m.exportLines queueSize gpu).map Line.decode)) := by
    have shown := (written.trans (m.deviceSection_sublist queueSize gpu)).filter fun line => line ≠ Line.blank
    rw [present_decode]
    exact shown.map Line.decode
  have own : sample.decode.family? ((m.exportLines queueSize gpu).map Line.decode) =
      some "llm_gpu_device_memory_used_bytes" := by
    rw [family_decode]
    refine congrArg some (baseName_plain fun base declared => ?_)
    exact plain_names base (histograms_subset sound declared) _ (by decide)
  have between := grouped.contiguous order rfl own
  exact absurd (Option.some.inj between) (by decide)

end Document

end MetricsCollector

/-- The export is read back whatever the collector has recorded, and no series occurs in it twice; its families are
    grouped exactly when the sampler lists no device. -/
theorem export_grouped_iff {m : MetricsCollector} (reached : m.Reached) (queueSize : Int) (gpu : GPUSnapshot) :
    ∃ doc, read (m.snapshotPrometheus queueSize gpu) = some doc ∧ (Grouped doc ↔ gpu.gpus = []) ∧
      ((gpu.gpus.map GPUDeviceSnapshot.index).Nodup → Distinct doc) := by
  have sound := reached.sound
  refine ⟨_, MetricsCollector.read_snapshotPrometheus sound, ⟨fun grouped => ?_, fun noDevices => ?_⟩, fun indices => ?_⟩
  · by_contra devices
    exact MetricsCollector.not_grouped_of_device sound devices grouped
  · exact grouped_decode (MetricsCollector.exportLines_grouped sound noDevices)
  · exact distinct_decode (MetricsCollector.exportLines_valid sound) (MetricsCollector.exportLines_distinct sound indices)

def oneDevice : GPUSnapshot :=
  { status := "available", source := "nvidia-smi", gpuCount := 1, memoryUsedMb := 100, memoryTotalMb := 1000
    utilizationPct := 10
    gpus := [{ index := 0, name := "GPU 0", memoryUsedMb := 100, memoryTotalMb := 1000, utilizationPct := 10 }] }

theorem export_grouped_iff_oneDevice :
    ∃ doc, read ((({} : MetricsCollector).recordRejection 2 "queue full").snapshotPrometheus 3 oneDevice) = some doc ∧
      (Grouped doc ↔ oneDevice.gpus = []) ∧ Distinct doc := by
  obtain ⟨doc, found, grouped, distinct⟩ := export_grouped_iff (.rejection .start 2 "queue full") 3 oneDevice
  exact ⟨doc, found, grouped, distinct (by decide)⟩

theorem one_device_not_grouped :
    ¬ ∀ m : MetricsCollector, m.Reached → ∀ (queueSize : Int) (gpu : GPUSnapshot),
      ∃ doc, read (m.snapshotPrometheus queueSize gpu) = some doc ∧ Grouped doc ∧
        ((gpu.gpus.map GPUDeviceSnapshot.index).Nodup → (m.rejectionsByReasonPriority.map Prod.fst).Nodup → Distinct doc) := by
  intro always
  have sound := MetricsCollector.Reached.start.sound
  obtain ⟨doc, found, grouped, -⟩ := always {} .start 0 oneDevice
  rw [MetricsCollector.read_snapshotPrometheus sound] at found
  rw [← Option.some.inj found] at grouped
  exact MetricsCollector.not_grouped_of_device sound (List.cons_ne_nil _ _) grouped

end LLMRuntime
