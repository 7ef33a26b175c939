import LLMRuntime.Foundation.Buckets
import LLMRuntime.Foundation.FloatRoundTrip
import LLMRuntime.Metrics.Snapshot

namespace LLMRuntime

open Exposition FloatText

theorem map_snd_zip (keys : List ℚ) (counts : List Int) :
    (keys.zip counts).map Prod.snd = counts.take keys.length := by
  induction keys generalizing counts with
  | nil => simp
  | cons key keys ih =>
    cases counts with
    | nil => rfl
    | cons count counts =>
      rw [List.zip_cons_cons, List.map_cons, ih, List.length_cons, List.take_succ_cons]

namespace Histogram

variable {h : Histogram} {observations : List ℚ}

theorem observe_counts (h : Histogram) (value : ℚ) :
    (h.observe value).counts = Buckets.record h.boundaries h.counts value := by
  have index : h.bucketIndex value = Buckets.place h.boundaries value := by
    rw [bucketIndex, Buckets.place, List.findIdx_eq_getD_findIdx?, h.sized, Nat.add_sub_cancel]
  change h.counts.modify (h.bucketIndex value) (· + 1) = _
  rw [index]
  rfl

theorem foldl_observe (h : Histogram) (observations : List ℚ) :
    (observations.foldl observe h).boundaries = h.boundaries ∧
      (observations.foldl observe h).counts = observations.foldl (Buckets.record h.boundaries) h.counts ∧
      (observations.foldl observe h).sum = h.sum + observations.sum ∧
      (observations.foldl observe h).total = h.total + observations.length := by
  induction observations generalizing h with
  | nil => simp
  | cons value observations ih =>
    obtain ⟨boundaries, counts, sum, total⟩ := ih (h.observe value)
    rw [List.foldl_cons]
    refine ⟨boundaries, ?_, ?_, ?_⟩
    · rw [counts, observe_counts]
      rfl
    · rw [sum, List.sum_cons, ← add_assoc]
      rfl
    · rw [total, List.length_cons]
      change h.total + 1 + (observations.length : Int) = h.total + ((observations.length + 1 : Nat) : Int)
      omega

/-- The printed values of the buckets are the running sums of their counts. -/
theorem bucketSamples_eq (name : String) (value : ℚ → Int) (cumulative : Int) (boundaries : List ℚ)
    (counts : List Int) (sized : boundaries.length ≤ counts.length)
    (sums : ∀ i (bound : i < boundaries.length), cumulative + (counts.take (i + 1)).sum = value boundaries[i]) :
    bucketSamples name cumulative (boundaries.zip counts) =
      boundaries.map fun b => (name ++ "_bucket", [("le", floatText b)], intText (value b)) := by
  induction boundaries generalizing cumulative counts with
  | nil => rfl
  | cons boundary boundaries ih =>
    cases counts with
    | nil => cases sized
    | cons count counts =>
      have first := sums 0 (by simp)
      simp only [zero_add, List.take_succ_cons, List.take_zero, List.sum_singleton, List.getElem_cons_zero] at first
      rw [List.zip_cons_cons, bucketSamples, List.map_cons, first]
      congr 1
      apply ih
      · simpa using sized
      · intro i bound
        have next := sums (i + 1) (by simpa using bound)
        rw [List.take_succ_cons, List.sum_cons, List.getElem_cons_succ] at next
        rw [← first, ← next]
        simp only [add_assoc]

section Observed

variable {boundaries : List ℚ}

theorem create_boundaries (nonempty : boundaries ≠ []) : (create boundaries).boundaries = boundaries := by
  have filled : boundaries.isEmpty = false := by simpa using nonempty
  change (if boundaries.isEmpty then latencyBuckets else boundaries) = boundaries
  rw [filled]
  rfl

theorem observed_counts (nonempty : boundaries ≠ []) (increasing : boundaries.Pairwise (· < ·))
    (observations : List ℚ) :
    let h := observations.foldl observe (create boundaries)
    h.boundaries = boundaries ∧ h.sum = observations.sum ∧ h.total = observations.length ∧
      h.counts.sum = observations.length ∧
      ∀ i (bound : i < boundaries.length),
        (h.counts.take (i + 1)).sum = observations.countP (· ≤ boundaries[i]) := by
  intro h
  obtain ⟨kept, counts, sum, total⟩ := foldl_observe (create boundaries) observations
  rw [create_boundaries nonempty] at kept counts
  have zeros : (create boundaries).counts = List.replicate (boundaries.length + 1) 0 := by
    change List.replicate ((create boundaries).boundaries.length + 1) 0 = _
    rw [create_boundaries nonempty]
  have sized : (create boundaries).counts.length = boundaries.length + 1 := by
    rw [zeros, List.length_replicate]
  refine ⟨kept, ?_, ?_, ?_, ?_⟩
  · exact sum.trans (zero_add _)
  · exact total.trans (zero_add _)
  · rw [counts, Buckets.sum_foldl_record sized, zeros, List.sum_replicate, nsmul_zero, zero_add]
  · intro i bound
    rw [counts, Buckets.sum_take_foldl_record increasing sized bound, zeros, List.take_replicate,
      List.sum_replicate, nsmul_zero, zero_add]

end Observed

end Histogram

/-- Histogram export has "less or equal" semantics: a bucket shows the number of observations up to its boundary,
    `+Inf` and `_count` show all of them, and the snapshot's disjoint counts add up to the same values. The boundaries
    are floats. -/
theorem histogram_export {boundaries observations : List ℚ} (name helpText : String) (nonempty : boundaries ≠ [])
    (increasing : boundaries.Pairwise (· < ·)) (observed : observations ≠ [])
    (floats : ∀ b ∈ boundaries, Representable |b|) :
    let h := observations.foldl Histogram.observe (Histogram.create boundaries)
    (h.prometheusLines name helpText = write (h.block name helpText).lines ∧
      (h.block name helpText).samples =
        boundaries.map (fun b =>
          (name ++ "_bucket", [("le", floatText b)], intText (observations.countP (· ≤ b)))) ++
        [(name ++ "_bucket", [("le", "+Inf".toList)], intText observations.length),
          (name ++ "_sum", [], floatText observations.sum), (name ++ "_count", [], intText observations.length)]) ∧
    (boundaries.Pairwise fun a b => observations.countP (· ≤ a) ≤ observations.countP (· ≤ b)) ∧
    (∀ b, observations.countP (· ≤ b) ≤ observations.length) ∧
    h.snapshot.count = observations.length ∧
    (h.snapshot.buckets.map Prod.snd).sum + h.snapshot.inf = h.snapshot.count ∧
    h.snapshot.buckets.map Prod.fst = boundaries.map floatText ∧
    ∀ i (bound : i < boundaries.length),
      ((h.snapshot.buckets.take (i + 1)).map Prod.snd).sum = observations.countP (· ≤ boundaries[i]) := by
  intro h
  obtain ⟨kept, sum, total, whole, running⟩ := Histogram.observed_counts nonempty increasing observations
  have sized : h.counts.length = boundaries.length + 1 := by rw [h.sized, kept]
  have distinct : (boundaries.map floatText).Nodup := by
    apply List.pairwise_map.mpr
    apply increasing.imp_of_mem
    intro a b first second less same
    exact less.ne (floatText_injective (floats a first) (floats b second) same)
  have some : h.total ≠ 0 := by
    have positive := List.length_pos_of_ne_nil observed
    rw [total]
    omega
  have entries : h.snapshot.buckets = (boundaries.zip h.counts).map fun entry => (floatText entry.1, entry.2) := by
    rw [Histogram.snapshot, kept]
    apply TextDict.ofEntries_eq
    rw [List.map_map]
    change ((boundaries.zip h.counts).map (floatText ∘ Prod.fst)).Nodup
    rw [← List.map_map, List.map_fst_zip (by omega)]
    exact distinct
  have values : h.snapshot.buckets.map Prod.snd = h.counts.take boundaries.length := by
    rw [entries, List.map_map]
    exact map_snd_zip boundaries h.counts
  refine ⟨⟨if_neg some, ?_⟩, ?_, fun b => List.countP_le_length, total, ?_, ?_, ?_⟩
  · change bucketSamples name 0 (h.boundaries.zip h.counts) ++ _ = _
    rw [kept, sum, total]
    congr 1
    apply Histogram.bucketSamples_eq
    · omega
    · intro i bound
      rw [zero_add]
      exact running i bound
  · apply increasing.imp
    intro a b less
    apply List.countP_mono_left
    intro value _ small
    rw [decide_eq_true_eq] at small ⊢
    exact small.trans less.le
  · obtain ⟨front, last, split⟩ : ∃ front last, h.counts = front ++ [last] := by
      rcases List.eq_nil_or_concat h.counts with empty | split
      · rw [empty] at sized
        cases sized
      · simpa using split
    have length : front.length = boundaries.length := by
      rw [split, List.length_append, List.length_singleton] at sized
      omega
    have inf : h.snapshot.inf = last := by
      change h.counts.getLastD 0 = last
      rw [split, List.getLastD_concat]
    have count : h.snapshot.count = h.counts.sum := total.trans whole.symm
    rw [values, inf, count, split, ← length, List.take_left, List.sum_append, List.sum_singleton]
  · rw [entries, List.map_map]
    change (boundaries.zip h.counts).map (floatText ∘ Prod.fst) = _
    rw [← List.map_map, List.map_fst_zip (by omega)]
  · intro i bound
    rw [List.map_take, values, List.take_take, min_eq_left (by omega)]
    exact running i bound

theorem histogram_export_quarters :
    let h := [1 / 8, 1 / 4, 3].foldl Histogram.observe (Histogram.create [1 / 4, 1])
    h.snapshot.count = 3 ∧ (h.snapshot.buckets.map Prod.snd).sum + h.snapshot.inf = h.snapshot.count ∧
      h.snapshot.buckets.map Prod.fst = ["0.25".toList, "1.0".toList] := by
  have floats : ∀ b ∈ [(1 / 4 : ℚ), 1], Representable |b| := by
    intro b member
    rw [List.mem_cons, List.mem_singleton] at member
    rcases member with rfl | rfl
    · exact ⟨1, -2, by norm_num, by norm_num, by norm_num [abs_of_pos]⟩
    · exact ⟨1, 0, by norm_num, by norm_num, by norm_num⟩
  have nonempty : [(1 / 4 : ℚ), 1] ≠ [] := List.cons_ne_nil _ _
  have observed : [(1 / 8 : ℚ), 1 / 4, 3] ≠ [] := List.cons_ne_nil _ _
  obtain ⟨-, -, -, count, total, keys, -⟩ := histogram_export "llm_ttft_seconds" "Time-to-first-token histogram." nonempty
    (by norm_num) observed floats
  exact ⟨count, total, keys.trans (by decide +kernel)⟩

end LLMRuntime
