import LLMRuntime.Metrics.LabelSafety

namespace LLMRuntime

open Exposition FloatText

section Growth

def Counter.Grows {κ : Type} (c d : Counter κ) : Prop := ∀ key n, (key, n) ∈ c → ∃ more, n ≤ more ∧ (key, more) ∈ d

theorem Counter.Grows.refl {κ : Type} (c : Counter κ) : c.Grows c := fun _ n member => ⟨n, le_refl n, member⟩

theorem Counter.Grows.trans {κ : Type} {c d e : Counter κ} (first : c.Grows d) (second : d.Grows e) : c.Grows e := by
  intro key n member
  obtain ⟨more, le, found⟩ := first key n member
  obtain ⟨most, le', last⟩ := second key more found
  exact ⟨most, le.trans le', last⟩

theorem Counter.grows_increment {κ : Type} [DecidableEq κ] (c : Counter κ) (key : κ) : c.Grows (c.increment key) := by
  intro other n member
  unfold Counter.increment
  split
  · by_cases own : other = key
    · exact ⟨n + 1, Int.le_of_lt (Int.lt_succ n), List.mem_map.mpr ⟨_, member, by rw [if_pos own]⟩⟩
    · exact ⟨n, le_refl n, List.mem_map.mpr ⟨_, member, by rw [if_neg own]⟩⟩
  · exact ⟨n, le_refl n, List.mem_append_left _ member⟩

structure Histogram.Grows (h k : Histogram) : Prop where
  boundaries : k.boundaries = h.boundaries
  counts : List.Forall₂ (· ≤ ·) h.counts k.counts
  total : h.total ≤ k.total

theorem Histogram.Grows.refl (h : Histogram) : h.Grows h := ⟨rfl, List.forall₂_refl _, le_refl _⟩

theorem Histogram.Grows.trans {h k l : Histogram} (first : h.Grows k) (second : k.Grows l) : h.Grows l := by
  refine ⟨second.boundaries.trans first.boundaries, ?_, first.total.trans second.total⟩
  have both {a b c : List Int} (le : List.Forall₂ (· ≤ ·) a b) (le' : List.Forall₂ (· ≤ ·) b c) :
      List.Forall₂ (· ≤ ·) a c := by
    induction le generalizing c with
    | nil =>
      cases le'
      exact .nil
    | cons head tail ih =>
      cases le' with
      | cons head' tail' => exact .cons (head.trans head') (ih tail')
  exact both first.counts second.counts

theorem Histogram.grows_observe (h : Histogram) (value : ℚ) : h.Grows (h.observe value) := by
  refine ⟨rfl, ?_, Int.le_of_lt (Int.lt_succ h.total)⟩
  have bumped (counts : List Int) (i : Nat) : List.Forall₂ (· ≤ ·) counts (counts.modify i (· + 1)) := by
    induction counts generalizing i with
    | nil =>
      rw [List.modify_nil]
      exact .nil
    | cons count counts ih =>
      cases i with
      | zero => exact .cons (Int.le_of_lt (Int.lt_succ count)) (List.forall₂_refl _)
      | succ i => exact .cons (le_refl count) (ih i)
  exact bumped h.counts _

namespace MetricsCollector

structure Grows (m n : MetricsCollector) : Prop where
  requests : m.requestCount ≤ n.requestCount
  completed : m.completedCount ≤ n.completedCount
  failed : m.failedCount ≤ n.failedCount
  rejected : m.rejectedCount ≤ n.rejectedCount
  tokens : m.generatedTokensTotal ≤ n.generatedTokensTotal
  batches : m.batchCount ≤ n.batchCount
  reasons : m.rejectionsByReasonPriority.Grows n.rejectionsByReasonPriority
  queueWait : m.queueWaitHistogram.Grows n.queueWaitHistogram
  ttft : m.ttftHistogram.Grows n.ttftHistogram
  totalLatency : m.totalLatencyHistogram.Grows n.totalLatencyHistogram

/-- The states that the recording methods lead to from `m`. -/
inductive Later (m : MetricsCollector) : MetricsCollector → Prop
  | now : Later m m
  | request {n} (before : Later m n) : Later m n.recordRequest
  | success {n} (before : Later m n) (request : RuntimeRequest) (generatedTokens : Nat) :
      Later m (n.recordSuccess request generatedTokens)
  | failure {n} (before : Later m n) (request : RuntimeRequest) : Later m (n.recordFailure request)
  | rejection {n} (before : Later m n) (priority : Int) (reason : String) : Later m (n.recordRejection priority reason)
  | batch {n} (before : Later m n) (batchSize : Nat) : Later m (n.recordBatch batchSize)

variable {m n : MetricsCollector}

theorem Grows.refl (m : MetricsCollector) : m.Grows m :=
  ⟨le_refl _, le_refl _, le_refl _, le_refl _, le_refl _, le_refl _, .refl _, .refl _, .refl _, .refl _⟩

theorem Grows.trans {o : MetricsCollector} (first : m.Grows n) (second : n.Grows o) : m.Grows o where
  requests := first.requests.trans second.requests
  completed := first.completed.trans second.completed
  failed := first.failed.trans second.failed
  rejected := first.rejected.trans second.rejected
  tokens := first.tokens.trans second.tokens
  batches := first.batches.trans second.batches
  reasons := first.reasons.trans second.reasons
  queueWait := first.queueWait.trans second.queueWait
  ttft := first.ttft.trans second.ttft
  totalLatency := first.totalLatency.trans second.totalLatency

theorem grows_recordTiming (m : MetricsCollector) (request : RuntimeRequest) : m.Grows (m.recordTiming request) := by
  have wait (m : MetricsCollector) : m.Grows (m.recordQueueWait request) := by
    unfold recordQueueWait
    split
    · exact { Grows.refl m with queueWait := Histogram.grows_observe _ _ }
    · exact .refl m
  have ttft (m : MetricsCollector) : m.Grows (m.recordTtft request) := by
    unfold recordTtft
    split
    · exact { Grows.refl m with ttft := Histogram.grows_observe _ _ }
    · exact .refl m
  have total (m : MetricsCollector) : m.Grows (m.recordTotal request) := by
    unfold recordTotal
    split
    · exact { Grows.refl m with totalLatency := Histogram.grows_observe _ _ }
    · exact .refl m
  exact ((wait m).trans (ttft _)).trans (total _)

theorem Later.grows (later : m.Later n) : m.Grows n := by
  induction later with
  | now => exact .refl m
  | @request n _ ih => exact ih.trans { Grows.refl n with requests := Int.le_of_lt (Int.lt_succ _) }
  | @success n _ request generatedTokens ih =>
    refine ih.trans (Grows.trans ?_ (grows_recordTiming _ request))
    have more : n.generatedTokensTotal ≤ n.generatedTokensTotal + generatedTokens := by omega
    exact { Grows.refl n with completed := Int.le_of_lt (Int.lt_succ _), tokens := more }
  | @failure n _ request ih =>
    refine ih.trans (Grows.trans ?_ (grows_recordTiming _ request))
    exact { Grows.refl n with failed := Int.le_of_lt (Int.lt_succ _) }
  | @rejection n _ priority reason ih =>
    refine ih.trans { Grows.refl n with rejected := Int.le_of_lt (Int.lt_succ _), reasons := ?_ }
    exact Counter.grows_increment _ _
  | @batch n _ batchSize ih => exact ih.trans { Grows.refl n with batches := Int.le_of_lt (Int.lt_succ _) }

theorem Later.reached (reached : m.Reached) (later : m.Later n) : n.Reached := by
  induction later with
  | now => exact reached
  | request _ ih => exact .request ih
  | success _ request generatedTokens ih => exact .success ih request generatedTokens
  | failure _ request ih => exact .failure ih request
  | rejection _ priority reason ih => exact .rejection ih priority reason
  | batch _ batchSize ih => exact .batch ih batchSize

theorem Reached.later (reached : m.Reached) : Later {} m := by
  induction reached with
  | start => exact .now
  | request _ ih => exact .request ih
  | success _ request generatedTokens ih => exact .success ih request generatedTokens
  | failure _ request ih => exact .failure ih request
  | rejection _ priority reason ih => exact .rejection ih priority reason
  | batch _ batchSize ih => exact .batch ih batchSize

end MetricsCollector

end Growth

section Blocks

def Rises (value value' : List Char) : Prop := ∃ a b : Int, a ≤ b ∧ value = intText a ∧ value' = intText b

/-- Every series of a block but the sum of a histogram is in the other one, with a value that is not smaller. -/
def RisesTo (b c : Block) : Prop :=
  ∀ s ∈ b.samples, (b.kind = "histogram" → s.1 ≠ b.family ++ "_sum") →
    ∃ value', (s.1, s.2.1, value') ∈ c.samples ∧ Rises s.2.2 value'

theorem rises_of_le {a b : Int} (le : a ≤ b) : Rises (intText a) (intText b) := ⟨a, b, le, rfl, rfl⟩

theorem single_rises (family text : String) {a b : Int} (le : a ≤ b) :
    RisesTo (single family text "counter" (intText a)) (single family text "counter" (intText b)) := by
  intro s member _
  rw [List.mem_singleton.mp member]
  exact ⟨_, List.mem_singleton_self _, rises_of_le le⟩

theorem bucketSamples_rise (name : String) {c d : Int} (le : c ≤ d) (boundaries : List ℚ) {counts counts' : List Int}
    (grow : List.Forall₂ (· ≤ ·) counts counts') : ∀ s ∈ bucketSamples name c (boundaries.zip counts),
      ∃ value', (s.1, s.2.1, value') ∈ bucketSamples name d (boundaries.zip counts') ∧ Rises s.2.2 value' := by
  induction grow generalizing c d boundaries with
  | nil =>
    intro s member
    rw [List.zip_nil_right] at member
    cases member
  | @cons count count' counts counts' more rest ih =>
    cases boundaries with
    | nil =>
      intro s member
      cases member
    | cons boundary boundaries =>
      have sums : c + count ≤ d + count' := by omega
      intro s member
      rcases List.mem_cons.mp member with rfl | member
      · exact ⟨_, List.mem_cons_self, rises_of_le sums⟩
      · obtain ⟨value', found, rises⟩ := ih sums boundaries s member
        exact ⟨value', List.mem_cons_of_mem _ found, rises⟩

theorem Histogram.block_rises {h k : Histogram} (grows : h.Grows k) (name helpText : String) :
    RisesTo (h.block name helpText) (k.block name helpText) := by
  intro s member apart
  rcases List.mem_append.mp member with bucket | last
  · obtain ⟨value', found, rises⟩ := bucketSamples_rise name (le_refl 0) h.boundaries grows.counts s bucket
    rw [← grows.boundaries] at found
    exact ⟨value', List.mem_append_left _ found, rises⟩
  · simp only [List.mem_cons, List.not_mem_nil, or_false] at last
    rcases last with rfl | rfl | rfl
    · exact ⟨_, List.mem_append_right _ (.head _), rises_of_le grows.total⟩
    · exact absurd rfl (apart rfl)
    · exact ⟨_, List.mem_append_right _ (.tail _ (.tail _ (.head _))), rises_of_le grows.total⟩

namespace MetricsCollector

variable {m n : MetricsCollector}

theorem requestsTotal_rises (grows : m.Grows n) : RisesTo m.requestsTotal n.requestsTotal := by
  intro s member _
  have received : m.requestCount + m.rejectedCount ≤ n.requestCount + n.rejectedCount :=
    add_le_add grows.requests grows.rejected
  simp only [requestsTotal, List.mem_cons, List.not_mem_nil, or_false] at member
  rcases member with rfl | rfl | rfl | rfl | rfl
  · exact ⟨_, .head _, rises_of_le received⟩
  · exact ⟨_, .tail _ (.head _), rises_of_le grows.requests⟩
  · exact ⟨_, .tail _ (.tail _ (.head _)), rises_of_le grows.completed⟩
  · exact ⟨_, .tail _ (.tail _ (.tail _ (.head _))), rises_of_le grows.failed⟩
  · exact ⟨_, .tail _ (.tail _ (.tail _ (.tail _ (.head _)))), rises_of_le grows.rejected⟩

theorem rejectedRequestsTotal_rises (grows : m.Grows n) : RisesTo m.rejectedRequestsTotal n.rejectedRequestsTotal := by
  intro s member _
  obtain ⟨⟨key, count⟩, listed, rfl⟩ := List.mem_map.mp member
  obtain ⟨more, le, found⟩ := grows.reasons key count ((List.mem_insertionSort itemLe).mp listed)
  have sorted := (List.mem_insertionSort itemLe).mpr found
  exact ⟨intText more, List.mem_map.mpr ⟨(key, more), sorted, rfl⟩, rises_of_le le⟩

variable {queueSize queueSize' : Int} {gpu gpu' : GPUSnapshot}

theorem histogramBlocks_rise (started : Grows {} m) (grows : m.Grows n) {b : Block} (member : b ∈ m.histogramBlocks) :
    ∃ c ∈ n.histogramBlocks, RisesTo b c := by
  have kept {h k : Histogram} (grows : h.Grows k) (some : 0 ≤ h.total) (name helpText : String)
      (inside : b ∈ if h.total = 0 then [] else [h.block name helpText]) :
      ∃ c ∈ (if k.total = 0 then [] else [k.block name helpText]), RisesTo b c := by
    split at inside
    · cases inside
    next observed =>
    have more := grows.total
    have still : ¬ k.total = 0 := by omega
    rw [if_neg still]
    refine ⟨_, List.mem_singleton_self _, ?_⟩
    rw [List.mem_singleton.mp inside]
    exact Histogram.block_rises grows name helpText
  unfold histogramBlocks latencyHistograms at member ⊢
  simp only [List.flatMap_cons, List.flatMap_nil, List.append_nil, List.mem_append] at member ⊢
  rcases member with wait | ttft | total
  · obtain ⟨c, listed, rises⟩ := kept grows.queueWait started.queueWait.total _ _ wait
    exact ⟨c, .inl listed, rises⟩
  · obtain ⟨c, listed, rises⟩ := kept grows.ttft started.ttft.total _ _ ttft
    exact ⟨c, .inr (.inl listed), rises⟩
  · obtain ⟨c, listed, rises⟩ := kept grows.totalLatency started.totalLatency.total _ _ total
    exact ⟨c, .inr (.inr listed), rises⟩

theorem cumulative_rises (started : Grows {} m) (grows : m.Grows n) (queueSize' : Int) (gpu' : GPUSnapshot) {b : Block}
    (member : b ∈ m.blocks queueSize gpu) (cumulative : b.kind = "counter" ∨ b.kind = "histogram") :
    ∃ c, RisesTo b c ∧ ∀ line ∈ c.lines, line ∈ n.exportLines queueSize' gpu' := by
  have gauge (kind : b.kind = "gauge") : False := by
    rw [kind] at cumulative
    exact absurd cumulative (by decide)
  simp only [blocks, List.mem_append, List.mem_cons] at member
  rcases member with ((((rfl | rfl | scalar) | rfl | total) | device) | quantile) | histogram
  · exact ⟨n.requestsTotal, requestsTotal_rises grows, fun line listed => by simp [exportLines, snapshotLines, listed]⟩
  · refine ⟨n.rejectedRequestsTotal, rejectedRequestsTotal_rises grows, fun line listed => ?_⟩
    simp [exportLines, snapshotLines, spaced, listed]
  · simp only [scalars, List.mem_cons, List.not_mem_nil, or_false] at scalar
    rcases scalar with rfl | rfl | rfl | rfl | rfl | rfl
    · refine ⟨_, single_rises _ _ grows.tokens, fun line listed => ?_⟩
      simp [exportLines, snapshotLines, spaced, scalars, listed]
    · refine ⟨_, single_rises _ _ grows.batches, fun line listed => ?_⟩
      simp [exportLines, snapshotLines, spaced, scalars, listed]
    all_goals exact (gauge rfl).elim
  · exact (gauge rfl).elim
  · simp only [gpuTotals, List.mem_cons, List.not_mem_nil, or_false] at total
    rcases total with rfl | rfl | rfl | rfl
    all_goals exact (gauge rfl).elim
  · unfold deviceBlocks at device
    split at device
    · cases device
    · simp only [List.mem_cons, List.not_mem_nil, or_false] at device
      rcases device with rfl | rfl | rfl
      all_goals exact (gauge rfl).elim
  · simp only [latencyQuantiles, List.mem_cons, List.not_mem_nil, or_false] at quantile
    rcases quantile with rfl | rfl | rfl
    all_goals exact (gauge rfl).elim
  · obtain ⟨c, listed, rises⟩ := histogramBlocks_rise started grows histogram
    refine ⟨c, rises, fun line inside => ?_⟩
    exact List.mem_append_right _ (List.mem_flatMap.mpr ⟨c, listed, List.mem_cons_of_mem _ inside⟩)

/-- The block that a sample stands in is the one with its family's header. -/
theorem block_of_sample (sound : m.Sound) {name family kind : String} {labels : List (String × List Char)}
    {value : List Char} (listed : .sample name labels value ∈ m.exportLines queueSize gpu)
    (own : (Line.sample name labels value).family? (m.exportLines queueSize gpu) = some family)
    (typed : .type family kind ∈ m.exportLines queueSize gpu) :
    ∃ b ∈ m.blocks queueSize gpu, b.family = family ∧ b.kind = kind ∧ (name, labels, value) ∈ b.samples := by
  rcases mem_exportLines listed with blank | ⟨b, member, inside⟩
  · cases blank
  have sample : (name, labels, value) ∈ b.samples := by
    rcases List.mem_cons.mp inside with help | inside
    · cases help
    rcases List.mem_cons.mp inside with type | inside
    · cases type
    obtain ⟨⟨name', labels', value'⟩, found, same⟩ := List.mem_map.mp inside
    cases same
    exact found
  have named : b.family = family := (blocks_own sound b member _ sample).symm.trans (Option.some.inj own)
  rcases mem_exportLines typed with blank | ⟨c, other, within⟩
  · cases blank
  have header : c.family = family ∧ c.kind = kind := by
    rcases List.mem_cons.mp within with help | within
    · cases help
    rcases List.mem_cons.mp within with type | within
    · exact ⟨(Line.type.inj type).1.symm, (Line.type.inj type).2.symm⟩
    · obtain ⟨s, -, sample⟩ := List.mem_map.mp within
      cases sample
  have same : b = c := List.inj_on_of_nodup_map (m.families_nodup queueSize gpu) member other (named.trans header.1.symm)
  exact ⟨b, member, named, same ▸ header.2, sample⟩

end MetricsCollector

end Blocks

/-- From one scrape of `/metrics` to a later one no series of a counter, and none of a histogram but its sum,
    disappears or goes down, whatever was recorded between them. -/
theorem series_never_decrease {m n : MetricsCollector} (reached : m.Reached) (later : m.Later n)
    (queueSize queueSize' : Int) (gpu gpu' : GPUSnapshot) :
    ∃ doc doc', read (m.snapshotPrometheus queueSize gpu) = some doc ∧
      read (n.snapshotPrometheus queueSize' gpu') = some doc' ∧
      ∀ name labels value family kind, .sample name labels value ∈ doc →
        (Line.sample name labels value).family? doc = some family → .type family kind ∈ doc →
        kind = "counter" ∨ kind = "histogram" ∧ name ≠ family ++ "_sum" →
        ∃ value', .sample name labels value' ∈ doc' ∧ Rises value value' := by
  have sound := reached.sound
  have sound' := (later.reached reached).sound
  refine ⟨_, _, MetricsCollector.read_snapshotPrometheus sound, MetricsCollector.read_snapshotPrometheus sound', ?_⟩
  intro name labels value family kind listed own typed shape
  have cumulative : kind = "counter" ∨ kind = "histogram" := shape.imp_right And.left
  have apart : kind = "histogram" → name ≠ family ++ "_sum" := by
    intro histogram
    rcases shape with counter | ⟨-, apart⟩
    · rw [histogram] at counter
      exact absurd counter (by decide)
    · exact apart
  obtain ⟨line, written, decoded⟩ := List.mem_map.mp listed
  rw [← decoded, family_decode] at own
  obtain ⟨header, headed, same⟩ := List.mem_map.mp typed
  cases line with
  | sample name' labels' value' =>
    cases header with
    | type family' kind' =>
      cases same
      obtain ⟨rfl, rfl, rfl⟩ := Line.sample.inj decoded
      obtain ⟨b, member, rfl, rfl, inside⟩ := MetricsCollector.block_of_sample sound written own headed
      obtain ⟨c, rises, shown⟩ := MetricsCollector.cumulative_rises reached.later.grows later.grows queueSize' gpu' member
        cumulative
      obtain ⟨value'', found, more⟩ := rises _ inside apart
      have line' := shown _ (List.mem_cons_of_mem _ (List.mem_cons_of_mem _ (List.mem_map_of_mem found)))
      exact ⟨value'', List.mem_map.mpr ⟨_, line', rfl⟩, more⟩
    | blank => cases same
    | help => cases same
    | sample => cases same
  | blank => cases decoded
  | help => cases decoded
  | type => cases decoded

theorem series_never_decrease_rejections :
    let m := ({} : MetricsCollector).recordRejection 2 "queue full"
    let n := (m.recordRejection 2 "queue full").recordBatch 3
    ∃ doc doc', read (m.snapshotPrometheus 4 oneDevice) = some doc ∧ read (n.snapshotPrometheus 0 oneDevice) = some doc' ∧
      ∀ name labels value family kind, .sample name labels value ∈ doc →
        (Line.sample name labels value).family? doc = some family → .type family kind ∈ doc →
        kind = "counter" ∨ kind = "histogram" ∧ name ≠ family ++ "_sum" →
        ∃ value', .sample name labels value' ∈ doc' ∧ Rises value value' :=
  series_never_decrease (.rejection .start 2 "queue full") (.batch (.rejection .now 2 "queue full") 3) 4 0 oneDevice oneDevice

end LLMRuntime
