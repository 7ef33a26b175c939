import LLMRuntime.Metrics.ExpositionFormat

namespace LLMRuntime

open Exposition FloatText

theorem escapeLabel_injective : Function.Injective escapeLabel := by
  intro first second same
  rw [escapeLabel_eq_escape, escapeLabel_eq_escape] at same
  exact escape_injective same

/-- Labels that are written differently only by their values are written the same only with the same values. -/
theorem labelsText_injective {first second : List (String × List Char)} (some : first ≠ []) (other : second ≠ [])
    (valid : ∀ label ∈ first, Escaped label) (valid' : ∀ label ∈ second, Escaped label)
    (same : labelsText first = labelsText second) : decodeLabels first = decodeLabels second := by
  have braced {labels : List (String × List Char)} (some : labels ≠ []) :
      labelsText labels = '{' :: (List.intercalate [','] (labels.map labelText) ++ ['}']) := by
    have filled : labels.isEmpty = false := by simpa using some
    rw [labelsText, filled]
    rfl
  rw [braced some, braced other] at same
  have inner := (List.cons_eq_cons.mp same).2
  have read := readLabels_text some valid (Nat.le_max_left first.length second.length) []
  have read' := readLabels_text other valid' (Nat.le_max_right first.length second.length) []
  rw [inner, read'] at read
  exact (Prod.mk.inj (Option.some.inj read)).1.symm

namespace MetricsCollector

variable {m : MetricsCollector} {queueSize : Int} {gpu : GPUSnapshot} {family : String}

/-- A sample outside of its family's block would have that family's name. -/
theorem name_ne {b : Block} (sound : m.Sound) (listed : b ∈ m.blocks queueSize gpu) (known : family ∈ families)
    (other : b.family ≠ family) : ∀ s ∈ b.samples, s.1 ≠ family := by
  rcases plain_or_histogram sound listed with ⟨keys, plain⟩ | ⟨-, declared, h, helpText, -, -, same⟩
  · intro s member
    rw [plain.own s member]
    exact other
  · intro s member named
    rw [same] at member
    have suffixed := histogram_own s member
    rw [named] at suffixed
    exact plain_names _ declared family (List.mem_append_left _ known) suffixed

theorem samplesOf_deviceBlock (name text : String) (value : GPUDeviceSnapshot → Int) :
    samplesOf family (deviceBlock gpu name text value).lines =
      if name = family then gpu.gpus.map fun device => (deviceLabels gpu device, intText (value device)) else [] := by
  have named : ∀ s ∈ (deviceBlock gpu name text value).samples, s.1 = name := List.forall_mem_map.mpr fun _ _ => rfl
  split
  · next own =>
    rw [samplesOf_own fun s member => (named s member).trans own]
    exact List.map_map
  · next other => exact samplesOf_other fun s member same => other ((named s member).symm.trans same)

theorem samplesOf_deviceSection :
    samplesOf family (deviceSection gpu) = (deviceBlocks gpu).flatMap fun b => samplesOf family b.lines := by
  unfold deviceSection deviceBlocks
  split
  · rfl
  have lines : samplesOf family (.blank :: (deviceHeaders ++ gpu.gpus.flatMap (deviceLines gpu))) =
      gpu.gpus.flatMap fun device => samplesOf family (deviceLines gpu device) := by
    change (gpu.gpus.flatMap (deviceLines gpu)).filterMap _ = _
    exact List.filterMap_flatMap
  simp only [lines, List.flatMap_cons, List.flatMap_nil, List.append_nil, samplesOf_deviceBlock]
  by_cases used : "llm_gpu_device_memory_used_bytes" = family
  · subst used
    simp [samplesOf, deviceLines, List.map_eq_flatMap]
  by_cases total : "llm_gpu_device_memory_total_bytes" = family
  · subst total
    simp [samplesOf, deviceLines, List.map_eq_flatMap]
  by_cases utilization : "llm_gpu_device_utilization_percent" = family
  · subst utilization
    simp [samplesOf, deviceLines, List.map_eq_flatMap]
  simp [samplesOf, deviceLines, used, total, utilization]

theorem samplesOf_exportLines :
    samplesOf family (m.exportLines queueSize gpu) = (m.blocks queueSize gpu).flatMap fun b => samplesOf family b.lines := by
  simp only [exportLines, snapshotLines, gpuPrometheusLines, blocks, samplesOf_append, samplesOf_blank, samplesOf_spaced,
    samplesOf_deviceSection, List.cons_append, List.flatMap_append, List.flatMap_cons, List.append_assoc]

theorem samplesOf_foreign {blocks : List Block} (sound : m.Sound) (listed : ∀ b ∈ blocks, b ∈ m.blocks queueSize gpu)
    (known : family ∈ families) (other : ∀ b ∈ blocks, b.family ≠ family) :
    (blocks.flatMap fun b => samplesOf family b.lines) = [] := by
  apply List.flatMap_eq_nil_iff.mpr
  intro b member
  exact samplesOf_other (name_ne sound (listed b member) known (other b member))

theorem samplesOf_block {b : Block} (sound : m.Sound) (listed : b ∈ m.blocks queueSize gpu) (known : b.family ∈ families)
    (own : ∀ s ∈ b.samples, s.1 = b.family) :
    samplesOf b.family (m.exportLines queueSize gpu) = b.samples.map Prod.snd := by
  have apart := m.families_nodup queueSize gpu
  obtain ⟨before, after, split⟩ := List.append_of_mem listed
  rw [split, List.map_append, List.map_cons] at apart
  obtain ⟨-, tail, between⟩ := List.nodup_append.mp apart
  have inside : ∀ {c}, c ∈ before ∨ c ∈ after → c ∈ m.blocks queueSize gpu := by
    intro c member
    rw [split, List.mem_append, List.mem_cons]
    rcases member with member | member
    · exact .inl member
    · exact .inr (.inr member)
  have first := samplesOf_foreign sound (fun c member => inside (.inl member)) known fun c member same =>
    between _ (List.mem_map_of_mem member) _ List.mem_cons_self same
  have last := samplesOf_foreign sound (fun c member => inside (.inr member)) known fun c member same =>
    (List.nodup_cons.mp tail).1 (same ▸ List.mem_map_of_mem member)
  rw [samplesOf_exportLines, split, List.flatMap_append, List.flatMap_cons, first, last, List.nil_append, List.append_nil,
    samplesOf_own own]

def deviceFamilies : List (String × (GPUDeviceSnapshot → Int)) :=
  [("llm_gpu_device_memory_used_bytes", fun device => device.memoryUsedMb * 1024 * 1024),
    ("llm_gpu_device_memory_total_bytes", fun device => device.memoryTotalMb * 1024 * 1024),
    ("llm_gpu_device_utilization_percent", fun device => device.utilizationPct)]

theorem device_family_absent (none : deviceBlocks gpu = []) {b : Block} (member : b ∈ m.blocks queueSize gpu) :
    b.family ∉ deviceFamilies.map Prod.fst := by
  simp only [blocks, none, List.append_nil, List.mem_append, List.mem_cons] at member
  rcases member with (((rfl | rfl | scalar) | rfl | total) | quantile) | histogram
  · simp [requestsTotal, deviceFamilies]
  · simp [rejectedRequestsTotal, deviceFamilies]
  · simp only [scalars, List.mem_cons, List.not_mem_nil, or_false] at scalar
    rcases scalar with rfl | rfl | rfl | rfl | rfl | rfl
    all_goals simp [single, deviceFamilies]
  · simp [gpuAvailable, sourced, deviceFamilies]
  · simp only [gpuTotals, List.mem_cons, List.not_mem_nil, or_false] at total
    rcases total with rfl | rfl | rfl | rfl
    all_goals simp [sourced, deviceFamilies]
  · simp only [latencyQuantiles, List.mem_cons, List.not_mem_nil, or_false] at quantile
    rcases quantile with rfl | rfl | rfl
    all_goals simp [quantiles, deviceFamilies]
  · obtain ⟨entry, listed, rfl⟩ := mem_histogramBlocks histogram
    simp only [latencyHistograms, List.mem_cons, List.not_mem_nil, or_false] at listed
    rcases listed with rfl | rfl | rfl
    all_goals simp [Histogram.block, deviceFamilies]

theorem samplesOf_devices {entry : String × (GPUDeviceSnapshot → Int)} (sound : m.Sound) (listed : entry ∈ deviceFamilies) :
    samplesOf entry.1 (m.exportLines queueSize gpu) =
      gpu.gpus.map fun device => (deviceLabels gpu device, intText (entry.2 device)) := by
  have known : entry.1 ∈ families := by
    revert entry
    decide
  by_cases none : gpu.gpus = []
  · have empty : deviceBlocks gpu = [] := by simp [deviceBlocks, none]
    rw [none, samplesOf_exportLines]
    exact samplesOf_foreign sound (fun b member => member) known fun b member same =>
      device_family_absent empty member (same ▸ List.mem_map_of_mem listed)
  · obtain ⟨text, block⟩ : ∃ text, deviceBlock gpu entry.1 text entry.2 ∈ deviceBlocks gpu := by
      have some : ¬ gpu.gpus.isEmpty = true := by simpa using none
      rw [deviceBlocks, if_neg some]
      simp only [deviceFamilies, List.mem_cons, List.not_mem_nil, or_false] at listed
      rcases listed with rfl | rfl | rfl
      · exact ⟨_, .head _⟩
      · exact ⟨_, .tail _ (.head _)⟩
      · exact ⟨_, .tail _ (.tail _ (.head _))⟩
    have member : deviceBlock gpu entry.1 text entry.2 ∈ m.blocks queueSize gpu := by simp [blocks, block]
    have samples := samplesOf_block sound member known (List.forall_mem_map.mpr fun _ _ => rfl)
    exact samples.trans List.map_map

theorem decodeLabels_escapeLabel (labels : List (String × List Char)) :
    decodeLabels (labels.map fun label => (label.1, escapeLabel label.2)) = labels := by
  have same (label : String × List Char) : (label.1, unescape (escapeLabel label.2)) = label := by
    rw [escapeLabel_eq_escape, unescape_escape]
  rw [decodeLabels, List.map_map]
  exact (List.map_congr_left fun label _ => same label).trans (List.map_id _)

section Read

variable (m queueSize gpu)

/-- The document that the export is read back as. -/
def readBack : List Line := (m.exportLines queueSize gpu).map Line.decode

variable {m queueSize gpu}

theorem readBack_rejected (sound : m.Sound) : samplesOf "llm_rejected_requests_total" (m.readBack queueSize gpu) =
    (m.rejectionsByReasonPriority.insertionSort itemLe).map fun item =>
      ([("reason", item.1.1.toList), ("priority", item.1.2.toList)], intText item.2) := by
  have listed : m.rejectedRequestsTotal ∈ m.blocks queueSize gpu := by simp [blocks]
  have own : ∀ s ∈ m.rejectedRequestsTotal.samples, s.1 = "llm_rejected_requests_total" :=
    List.forall_mem_map.mpr fun _ _ => rfl
  have samples : samplesOf "llm_rejected_requests_total" (m.exportLines queueSize gpu) =
      m.rejectedRequestsTotal.samples.map Prod.snd :=
    samplesOf_block sound listed (show "llm_rejected_requests_total" ∈ families by decide) own
  rw [readBack, samplesOf_decode, samples, List.map_map]
  change ((m.rejectionsByReasonPriority.insertionSort itemLe).map rejectionSample).map _ = _
  rw [List.map_map]
  apply List.map_congr_left
  intro item _
  have labels := decodeLabels_escapeLabel [("reason", item.1.1.toList), ("priority", item.1.2.toList)]
  exact congrArg (·, intText item.2) labels

theorem readBack_sourced (sound : m.Sound) {b : Block} (listed : b ∈ gpuAvailable gpu :: gpuTotals gpu) :
    samplesOf b.family (m.readBack queueSize gpu) = b.samples.map fun s => ([("source", gpu.source.toList)], s.2.2) := by
  obtain ⟨family, text, value, same, known⟩ : ∃ family text value, b = sourced gpu family text value ∧ family ∈ families := by
    simp only [gpuTotals, List.mem_cons, List.not_mem_nil, or_false] at listed
    rcases listed with rfl | rfl | rfl | rfl | rfl
    all_goals exact ⟨_, _, _, rfl, by decide⟩
  have member : b ∈ m.blocks queueSize gpu := by
    rcases List.mem_cons.mp listed with rfl | total
    · simp [blocks]
    · simp [blocks, total]
  subst same
  have samples := samplesOf_block sound member known (List.forall_mem_singleton.mpr rfl)
  rw [readBack, samplesOf_decode, samples]
  have labels := decodeLabels_escapeLabel [("source", gpu.source.toList)]
  exact congrArg (fun labels => [(labels, intText value)]) labels

theorem readBack_devices (sound : m.Sound) {entry : String × (GPUDeviceSnapshot → Int)} (listed : entry ∈ deviceFamilies) :
    samplesOf entry.1 (m.readBack queueSize gpu) = gpu.gpus.map fun device =>
      ([("gpu", intText device.index), ("name", device.name.toList), ("source", gpu.source.toList)],
        intText (entry.2 device)) := by
  rw [readBack, samplesOf_decode, samplesOf_devices sound listed, List.map_map]
  apply List.map_congr_left
  intro device _
  have labels := decodeLabels_escapeLabel
    [("gpu", intText device.index), ("name", device.name.toList), ("source", gpu.source.toList)]
  exact congrArg (·, intText (entry.2 device)) labels

end Read

theorem toString_eq_intText (n : Int) : (toString n).toList = intText n := by
  cases n with
  | ofNat n =>
    change (Nat.repr n).toList = _
    rw [intText, if_neg (by simp)]
    exact String.toList_ofList
  | negSucc n =>
    change ("-" ++ Nat.repr (n + 1)).toList = _
    rw [intText, if_pos (Int.negSucc_lt_zero n), String.toList_append]
    exact congrArg ('-' :: ·) String.toList_ofList

def rejectionSeries (reason : String) (priority : Int) : List Char :=
  "llm_rejected_requests_total".toList ++
    labelsText [("reason", escapeLabel reason.toList), ("priority", escapeLabel (toString priority).toList)]

theorem rejectionSeries_injective {reason reason' : String} {priority priority' : Int}
    (same : rejectionSeries reason priority = rejectionSeries reason' priority') :
    reason = reason' ∧ priority = priority' := by
  have escaped (reason priority : List Char) :
      ∀ label ∈ [("reason", escapeLabel reason), ("priority", escapeLabel priority)], Escaped label :=
    List.forall_mem_cons.mpr ⟨escaped_label (by decide) _, List.forall_mem_singleton.mpr (escaped_label (by decide) _)⟩
  have labels := labelsText_injective (List.cons_ne_nil _ _) (List.cons_ne_nil _ _) (escaped _ _) (escaped _ _)
    (List.append_cancel_left same)
  have first := decodeLabels_escapeLabel [("reason", reason.toList), ("priority", (toString priority).toList)]
  have second := decodeLabels_escapeLabel [("reason", reason'.toList), ("priority", (toString priority').toList)]
  have equal := first.symm.trans (labels.trans second)
  simp only [List.cons.injEq, Prod.mk.injEq, true_and, and_true, String.toList_inj] at equal
  have texts := congrArg String.toList equal.2
  rw [toString_eq_intText, toString_eq_intText] at texts
  exact ⟨equal.1, intText_injective texts⟩

end MetricsCollector

/-- Every line of the export is read by itself, and the labels that are read back are the strings that were recorded;
    escaping loses nothing, and what it gives has no line feed and no quote that could end the label. -/
theorem labels_survive_export {m : MetricsCollector} (reached : m.Reached) (queueSize : Int) (gpu : GPUSnapshot) :
    (splitLines (m.snapshotPrometheus queueSize gpu) = (m.exportLines queueSize gpu).map Line.text ∧
      ∀ line ∈ m.exportLines queueSize gpu, Exposition.readLine line.text = some line.decode) ∧
    (∃ doc, read (m.snapshotPrometheus queueSize gpu) = some doc ∧
      (samplesOf "llm_rejected_requests_total" doc =
        (m.rejectionsByReasonPriority.insertionSort MetricsCollector.itemLe).map fun item =>
          ([("reason", item.1.1.toList), ("priority", item.1.2.toList)], intText item.2)) ∧
      (∀ b ∈ gpuAvailable gpu :: gpuTotals gpu,
        samplesOf b.family doc = b.samples.map fun s => ([("source", gpu.source.toList)], s.2.2)) ∧
      ∀ entry ∈ MetricsCollector.deviceFamilies, samplesOf entry.1 doc = gpu.gpus.map fun device =>
        ([("gpu", intText device.index), ("name", device.name.toList), ("source", gpu.source.toList)],
          intText (entry.2 device))) ∧
    (∀ reason priority, reason ≠ "" →
      (reason, toString priority) ∈ (m.recordRejection priority reason).rejectionsByReasonPriority.map Prod.fst) ∧
    (∀ value rest, readValue (escapeLabel value ++ '"' :: rest) = some (value, rest)) ∧
    Function.Injective escapeLabel ∧
    (∀ value, '\n' ∉ escapeLabel value) ∧
    (∀ value front back, escapeLabel value = front ++ '"' :: back → slashes front % 2 = 1) ∧
    ∀ reason priority reason' priority',
      MetricsCollector.rejectionSeries reason priority = MetricsCollector.rejectionSeries reason' priority' →
        reason = reason' ∧ priority = priority' := by
  have sound := reached.sound
  have valid : ∀ line ∈ m.exportLines queueSize gpu, line.Valid := MetricsCollector.exportLines_valid sound
  refine ⟨⟨?_, ?_⟩, ⟨_, MetricsCollector.read_snapshotPrometheus sound, ?_, ?_, ?_⟩, ?_, ?_, ?_, ?_, ?_, ?_⟩
  · rw [MetricsCollector.snapshotPrometheus_eq_write]
    apply splitLines_join
    · exact List.cons_ne_nil _ _
    · intro text member
      obtain ⟨line, inside, rfl⟩ := List.mem_map.mp member
      exact newline_not_mem_text (valid line inside)
  · exact fun line member => readLine_text (valid line member)
  · exact MetricsCollector.readBack_rejected sound
  · exact fun b listed => MetricsCollector.readBack_sourced sound listed
  · exact fun entry listed => MetricsCollector.readBack_devices sound listed
  · intro reason priority nonempty
    have normalized : (if reason.isEmpty then "unknown" else reason) = reason := if_neg (by simpa using nonempty)
    change _ ∈ (m.rejectionsByReasonPriority.increment (if reason.isEmpty then "unknown" else reason, _)).map Prod.fst
    rw [normalized]
    exact Counter.mem_increment _ _
  · intro value rest
    rw [escapeLabel_eq_escape]
    exact readValue_escape value rest
  · exact escapeLabel_injective
  · intro value
    rw [escapeLabel_eq_escape]
    exact newline_not_mem_escape value
  · intro value front back split
    rw [escapeLabel_eq_escape] at split
    exact slashes_before_quote split
  · exact fun _ _ _ _ => MetricsCollector.rejectionSeries_injective

example : escapeLabel "a\"b\\\n".toList = "a\\\"b\\\\\\n".toList := by decide

theorem labels_survive_export_quoted :
    ∃ doc, read ((({} : MetricsCollector).recordRejection 2 "a\"b\\\n").snapshotPrometheus 3 oneDevice) = some doc ∧
      samplesOf "llm_rejected_requests_total" doc =
        [([("reason", "a\"b\\\n".toList), ("priority", ['2'])], ['1'])] := by
  obtain ⟨-, ⟨doc, found, rejected, -⟩, -⟩ := labels_survive_export (.rejection .start 2 "a\"b\\\n") 3 oneDevice
  refine ⟨doc, found, rejected.trans ?_⟩
  decide

end LLMRuntime
