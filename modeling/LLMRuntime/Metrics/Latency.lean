import LLMRuntime.Foundation.FloatText
import LLMRuntime.Foundation.NearestRank
import Mathlib.Data.List.GetD
import Mathlib.Data.List.Sort

namespace LLMRuntime

open FloatText NearestRank

def percentile (values : List ℚ) (pct : ℚ) : ℚ :=
  if values.isEmpty then 0
  else
    let sortedValues := values.insertionSort (· ≤ ·)
    let last : ℤ := sortedValues.length - 1
    let index := min last (max 0 (FloatText.roundHalfEven (pct / 100 * last)))
    sortedValues.getD index.toNat 0

example : percentile [4, 1, 3, 2] 50 = 3 := by decide +kernel

theorem percentile_mem {values : List ℚ} (nonempty : values ≠ []) (pct : ℚ) : percentile values pct ∈ values := by
  have perm := List.perm_insertionSort (· ≤ ·) values
  have positive := List.length_pos_of_ne_nil nonempty
  rw [← perm.length_eq] at positive
  unfold percentile
  rw [if_neg (by simpa using nonempty)]
  dsimp only
  rw [List.getD_eq_getElem _ _ (by omega)]
  exact perm.subset (List.getElem_mem _)

/-- By how much the scaled rank of `percentile` falls short of the next one after the nearest rank. -/
def shortfall (pct : ℚ) (length : Nat) : ℚ := rank length (pct / 100) - pct / 100 * length + pct / 100

/-- The index is rounded to the one after the nearest rank. -/
def Overshoots (pct : ℚ) (length : Nat) : Prop :=
  shortfall pct length < 1 / 2 ∨ shortfall pct length = 1 / 2 ∧ rank length (pct / 100) % 2 = 0

/-- The index is rounded to the one before the nearest rank. -/
def Undershoots (pct : ℚ) (length : Nat) : Prop :=
  3 / 2 < shortfall pct length ∨ shortfall pct length = 3 / 2 ∧ rank length (pct / 100) % 2 = 0

instance (pct : ℚ) (length : Nat) : Decidable (Overshoots pct length) := inferInstanceAs (Decidable (_ ∨ _))

instance (pct : ℚ) (length : Nat) : Decidable (Undershoots pct length) := inferInstanceAs (Decidable (_ ∨ _))

section Index

variable (pct : ℚ) (length : Nat)

/-- The scaled rank lies at distance `1 - shortfall` above the nearest rank, both counted from zero. -/
theorem scaled_rank :
    pct / 100 * ((length : ℤ) - 1 : ℤ) = ((rank length (pct / 100) - 1 : ℤ) : ℚ) + (1 - shortfall pct length) := by
  rw [shortfall]
  push_cast
  ring

theorem index_eq_iff (k : ℤ) :
    FloatText.roundHalfEven (pct / 100 * ((length : ℤ) - 1 : ℤ)) = rank length (pct / 100) - 1 + k ↔
      |1 - shortfall pct length - k| < 1 / 2 ∨
        |1 - shortfall pct length - k| = 1 / 2 ∧ (rank length (pct / 100) - 1 + k : ℤ) % 2 = 0 := by
  have same : pct / 100 * ((length : ℤ) - 1 : ℤ) - (((rank length (pct / 100) : ℤ) - 1 + k : ℤ) : ℚ) =
      1 - shortfall pct length - k := by
    rw [scaled_rank]
    push_cast
    ring
  rw [roundHalfEven_eq_iff, same]

variable {pct length}

theorem index_overshoots (above : 0 < shortfall pct length) (isOver : Overshoots pct length) :
    FloatText.roundHalfEven (pct / 100 * ((length : ℤ) - 1 : ℤ)) = rank length (pct / 100) - 1 + 1 := by
  have distance : |1 - shortfall pct length - (1 : ℤ)| = shortfall pct length := by
    rw [abs_of_nonpos (by push_cast; linarith)]
    push_cast
    ring
  rw [index_eq_iff, distance]
  rcases isOver with less | ⟨half, even⟩
  · exact .inl less
  · exact .inr ⟨half, by omega⟩

theorem index_undershoots (below : shortfall pct length < 2) (under : Undershoots pct length) :
    FloatText.roundHalfEven (pct / 100 * ((length : ℤ) - 1 : ℤ)) = rank length (pct / 100) - 1 + -1 := by
  have distance : |1 - shortfall pct length - (-1 : ℤ)| = 2 - shortfall pct length := by
    rw [abs_of_nonneg (by push_cast; linarith)]
    push_cast
    ring
  rw [index_eq_iff, distance]
  rcases under with more | ⟨half, even⟩
  · exact .inl (by linarith)
  · exact .inr ⟨by linarith, by omega⟩

theorem index_nearest (isOver : ¬ Overshoots pct length) (under : ¬ Undershoots pct length) :
    FloatText.roundHalfEven (pct / 100 * ((length : ℤ) - 1 : ℤ)) = rank length (pct / 100) - 1 + 0 := by
  rw [Overshoots, not_or, not_lt, not_and] at isOver
  rw [Undershoots, not_or, not_lt, not_and] at under
  rw [index_eq_iff, Int.cast_zero, sub_zero]
  rcases isOver.1.lt_or_eq with more | half
  · rcases under.1.lt_or_eq with less | half
    · left
      rw [abs_lt]
      constructor <;> linarith
    · right
      refine ⟨?_, by have odd := under.2 half; omega⟩
      rw [half]
      norm_num
  · right
    refine ⟨?_, by have odd := isOver.2 half.symm; omega⟩
    rw [← half]
    norm_num

variable (positive : 0 < pct) (whole : pct ≤ 100) (nonempty : 0 < length)

include positive nonempty

theorem index_nonneg : 0 ≤ FloatText.roundHalfEven (pct / 100 * ((length : ℤ) - 1 : ℤ)) := by
  have last : (0 : ℚ) ≤ ((length : ℤ) - 1 : ℤ) := by
    have atLeast : (0 : ℤ) ≤ (length : ℤ) - 1 := by omega
    exact_mod_cast atLeast
  apply le_roundHalfEven
  rw [Int.cast_zero]
  exact mul_nonneg (div_pos positive (by norm_num)).le last

include whole

theorem shortfall_bounds : 0 < shortfall pct length ∧ shortfall pct length < 2 := by
  have share : 0 < pct / 100 := div_pos positive (by norm_num)
  have unit : pct / 100 ≤ 1 := (div_le_one (by norm_num)).mpr whole
  have counted : 0 < rank length (pct / 100) := rank_pos share nonempty
  have ceil : ((rank length (pct / 100) : ℕ) : ℤ) = ⌈pct / 100 * length⌉ := by
    rw [rank] at counted ⊢
    omega
  have below := Int.le_ceil (pct / 100 * (length : ℚ))
  have above := Int.ceil_lt_add_one (pct / 100 * (length : ℚ))
  rw [← ceil] at below above
  push_cast at below above
  rw [shortfall]
  constructor <;> linarith

theorem index_clamped :
    min ((length : ℤ) - 1) (max 0 (FloatText.roundHalfEven (pct / 100 * ((length : ℤ) - 1 : ℤ)))) =
      FloatText.roundHalfEven (pct / 100 * ((length : ℤ) - 1 : ℤ)) := by
  have last : (0 : ℚ) ≤ ((length : ℤ) - 1 : ℤ) := by
    have atLeast : (0 : ℤ) ≤ (length : ℤ) - 1 := by omega
    exact_mod_cast atLeast
  have unit : pct / 100 ≤ 1 := (div_le_one (by norm_num)).mpr whole
  have low := index_nonneg positive nonempty
  have high : FloatText.roundHalfEven (pct / 100 * ((length : ℤ) - 1 : ℤ)) ≤ (length : ℤ) - 1 := by
    apply roundHalfEven_le
    exact mul_le_of_le_one_left last unit
  rw [max_eq_right low, min_eq_right high]

theorem index_cases :
    (FloatText.roundHalfEven (pct / 100 * ((length : ℤ) - 1 : ℤ)) = rank length (pct / 100) - 1 + 0 ∧
      ¬ Overshoots pct length ∧ ¬ Undershoots pct length) ∨
    (FloatText.roundHalfEven (pct / 100 * ((length : ℤ) - 1 : ℤ)) = rank length (pct / 100) - 1 + 1 ∧
      Overshoots pct length ∧ ¬ Undershoots pct length) ∨
    (FloatText.roundHalfEven (pct / 100 * ((length : ℤ) - 1 : ℤ)) = rank length (pct / 100) - 1 + -1 ∧
      ¬ Overshoots pct length ∧ Undershoots pct length) := by
  obtain ⟨low, high⟩ := shortfall_bounds positive whole nonempty
  have apart : Overshoots pct length → ¬ Undershoots pct length := by
    rintro (less | ⟨half, -⟩) (more | ⟨other, -⟩) <;> linarith
  by_cases isOver : Overshoots pct length
  · exact .inr (.inl ⟨index_overshoots low isOver, isOver, apart isOver⟩)
  · by_cases under : Undershoots pct length
    · exact .inr (.inr ⟨index_undershoots high under, isOver, under⟩)
    · exact .inl ⟨index_nearest isOver under, isOver, under⟩

end Index

def orderStatistic (values : List ℚ) (place : Nat) : Option ℚ := (values.insertionSort (· ≤ ·))[place]?

section Percentile

variable {values : List ℚ} {pct : ℚ} (nonempty : values ≠ []) (positive : 0 < pct) (whole : pct ≤ 100)

theorem exceed_iff_covers (v : ℚ) :
    (values.countP (v < ·) : ℚ) ≤ (1 - pct / 100) * values.length ↔ Covers values (pct / 100) v := by
  have split := List.length_eq_countP_add_countP (fun w : ℚ => decide (w ≤ v)) (l := values)
  have others : values.countP (fun w : ℚ => decide ¬ decide (w ≤ v) = true) = values.countP (v < ·) := by
    congr 1
    funext w
    simp [not_le]
  rw [others] at split
  have total : (values.length : ℚ) = values.countP (· ≤ v) + values.countP (v < ·) := by
    exact_mod_cast split
  rw [Covers]
  constructor <;> intro bound <;> linarith

include nonempty positive whole

/-- `percentile` picks the value at its index, which needs no clamping. -/
theorem percentile_at {place : Nat}
    (index : FloatText.roundHalfEven (pct / 100 * ((values.length : ℤ) - 1 : ℤ)) = place) :
    ∃ bound : place < (values.insertionSort (· ≤ ·)).length,
      percentile values pct = (values.insertionSort (· ≤ ·))[place] := by
  have length : 0 < values.length := List.length_pos_of_ne_nil nonempty
  have clamped := index_clamped positive whole length
  rw [index] at clamped
  have bound : place < (values.insertionSort (· ≤ ·)).length := by
    rw [List.length_insertionSort]
    omega
  refine ⟨bound, ?_⟩
  rw [percentile, if_neg (by simpa using nonempty)]
  dsimp only
  rw [List.length_insertionSort, index, clamped, Int.toNat_natCast, List.getD_eq_getElem _ _ bound]

/-- `percentile` is the nearest-rank percentile exactly when its index is not rounded to the rank after or before
    the nearest one, or the values at the two ranks agree. Too large a share of the values exceeds it exactly when
    the index is rounded to the rank before, and the values there differ. -/
theorem percentile_nearest_rank_iff :
    (IsQuantile values (pct / 100) (percentile values pct) ↔
      (Overshoots pct values.length → orderStatistic values (rank values.length (pct / 100)) =
        orderStatistic values (rank values.length (pct / 100) - 1)) ∧
      (Undershoots pct values.length → orderStatistic values (rank values.length (pct / 100) - 2) =
        orderStatistic values (rank values.length (pct / 100) - 1))) ∧
    ((values.countP (percentile values pct < ·) : ℚ) ≤ (1 - pct / 100) * values.length ↔
      (Undershoots pct values.length → orderStatistic values (rank values.length (pct / 100) - 2) =
        orderStatistic values (rank values.length (pct / 100) - 1))) := by
  have length : 0 < values.length := List.length_pos_of_ne_nil nonempty
  have counted : 0 < rank values.length (pct / 100) := rank_pos (div_pos positive (by norm_num)) length
  have most : rank values.length (pct / 100) ≤ values.length := rank_le ((div_le_one (by norm_num)).mpr whole)
  have size : (values.insertionSort (· ≤ ·)).length = values.length := List.length_insertionSort _ values
  have same : values.Perm (values.insertionSort (· ≤ ·)) := (List.perm_insertionSort _ values).symm
  have ascending : (values.insertionSort (· ≤ ·)).Pairwise (· ≤ ·) := List.pairwise_insertionSort _ values
  have inside : rank (values.insertionSort (· ≤ ·)).length (pct / 100) - 1 <
      (values.insertionSort (· ≤ ·)).length := by
    rw [size]
    omega
  have quantile := fun v => isQuantile_iff (v := v) same ascending (by rwa [size]) inside
  have covers := fun w => (covers_perm same).trans (covers_iff_getElem (w := w) ascending (by rwa [size]) inside)
  simp only [size] at quantile covers inside
  have inside : rank values.length (pct / 100) - 1 < (values.insertionSort (· ≤ ·)).length := by
    rwa [size]
  have order := List.pairwise_iff_getElem.mp ascending
  rw [quantile, exceed_iff_covers, covers]
  rcases index_cases positive whole length with ⟨index, isOver, under⟩ | ⟨index, isOver, under⟩ | ⟨index, isOver, under⟩
  · obtain ⟨bound, value⟩ := percentile_at nonempty positive whole
      (show _ = ((rank values.length (pct / 100) - 1 : ℕ) : ℤ) by rw [index]; omega)
    rw [value]
    exact ⟨iff_of_true rfl ⟨fun yes => (isOver yes).elim, fun yes => (under yes).elim⟩,
      iff_of_true le_rfl fun yes => (under yes).elim⟩
  · obtain ⟨bound, value⟩ := percentile_at nonempty positive whole
      (show _ = ((rank values.length (pct / 100) : ℕ) : ℤ) by rw [index]; omega)
    rw [orderStatistic, orderStatistic, List.getElem?_eq_getElem bound, List.getElem?_eq_getElem inside,
      Option.some_inj, value]
    refine ⟨⟨fun tie => ⟨fun _ => tie, fun yes => (under yes).elim⟩, fun ties => ties.1 isOver⟩, ?_⟩
    exact iff_of_true (order _ _ inside bound (by omega)) fun yes => (under yes).elim
  · obtain ⟨bound, value⟩ := percentile_at nonempty positive whole
      (show _ = ((rank values.length (pct / 100) - 2 : ℕ) : ℤ) by
        have low := index_nonneg positive length
        omega)
    rw [orderStatistic, orderStatistic, orderStatistic, List.getElem?_eq_getElem bound,
      List.getElem?_eq_getElem inside, Option.some_inj, value]
    refine ⟨⟨fun tie => ⟨fun yes => (isOver yes).elim, fun _ => tie⟩, fun ties => ties.2 under⟩, ?_⟩
    constructor
    · intro above _
      have low := index_nonneg positive length
      exact le_antisymm (order _ _ bound inside (by omega)) above
    · intro tie
      exact (tie under).ge

end Percentile

theorem percentile_nearest_rank_iff_median : IsQuantile [3, 1, 2] (50 / 100) (percentile [3, 1, 2] 50) := by
  have isOver : ¬ Overshoots 50 [(3 : ℚ), 1, 2].length := by decide +kernel
  have under : ¬ Undershoots 50 [(3 : ℚ), 1, 2].length := by decide +kernel
  exact (percentile_nearest_rank_iff (by simp) (by norm_num) (by norm_num)).1.mpr
    ⟨fun yes => (isOver yes).elim, fun yes => (under yes).elim⟩

def thirteen : List ℚ := [1, 2, 3, 4, 5, 6, 7, 8, 9, 10, 11, 12, 13]

/-- Of thirteen values one exceeds the reported p95, which is more than five percent of them. -/
theorem p95_of_thirteen :
    percentile thirteen 95 = 12 ∧ ¬ IsQuantile thirteen (95 / 100) (percentile thirteen 95) ∧
      5 / 100 * (thirteen.length : ℚ) < thirteen.countP (percentile thirteen 95 < ·) := by
  have value : percentile thirteen 95 = 12 := by decide +kernel
  rw [value]
  refine ⟨rfl, ?_, by decide +kernel⟩
  intro quantile
  have covers := quantile.covers
  have short : ¬ (95 / 100 * (thirteen.length : ℚ) ≤ thirteen.countP (· ≤ 12)) := by decide +kernel
  exact short covers

end LLMRuntime
