import Mathlib.Algebra.BigOperators.Group.List.Basic
import Mathlib.Data.List.Basic
import Mathlib.Order.Nat
import Mathlib.Tactic.Ring

/-! Counting observations in disjoint buckets, and what the running sums of the counts say about them. -/

namespace Buckets

variable {α : Type*} [LinearOrder α] {boundaries observations : List α} {counts : List ℤ} {value : α}

/-- The bucket of a value: the first boundary it does not exceed, or the one past the last. -/
def place (boundaries : List α) (value : α) : Nat := boundaries.findIdx (value ≤ ·)

def record (boundaries : List α) (counts : List ℤ) (value : α) : List ℤ :=
  counts.modify (place boundaries value) (· + 1)

theorem place_le_length (boundaries : List α) (value : α) : place boundaries value ≤ boundaries.length :=
  List.findIdx_le_length

theorem place_le_iff (increasing : boundaries.Pairwise (· < ·)) {i : Nat} (bound : i < boundaries.length) :
    place boundaries value ≤ i ↔ value ≤ boundaries[i] := by
  constructor
  · intro before
    have inside : place boundaries value < boundaries.length := by omega
    have first : value ≤ boundaries[place boundaries value] := by
      have found := List.findIdx_getElem (w := inside)
      rwa [decide_eq_true_eq] at found
    rcases Nat.eq_or_lt_of_le before with same | less
    · simpa only [same] using first
    · exact first.trans (List.pairwise_iff_getElem.mp increasing _ _ inside bound less).le
  · intro small
    by_contra later
    have large := List.not_of_lt_findIdx (show i < List.findIdx (value ≤ ·) boundaries from Nat.lt_of_not_le later)
    simp [small] at large

theorem sum_take_modify (counts : List ℤ) (j i : Nat) (bound : i ≤ counts.length) :
    ((counts.modify j (· + 1)).take i).sum = (counts.take i).sum + if j < i then 1 else 0 := by
  induction counts generalizing i j with
  | nil =>
    have none : i = 0 := by simpa using bound
    simp [none]
  | cons count counts ih =>
    cases i with
    | zero => simp
    | succ i =>
      cases j with
      | zero =>
        simp
        ring
      | succ j =>
        have rest := ih j i (by simpa using bound)
        simp only [List.modify_succ_cons, List.take_succ_cons, List.sum_cons, rest, Nat.succ_lt_succ_iff]
        ring

theorem length_record : (record boundaries counts value).length = counts.length := List.length_modify ..

/-- The first counts add up to the number of observations that do not exceed their last boundary. -/
theorem sum_take_foldl_record (increasing : boundaries.Pairwise (· < ·))
    (sized : counts.length = boundaries.length + 1) {i : Nat} (bound : i < boundaries.length) :
    ((observations.foldl (record boundaries) counts).take (i + 1)).sum =
      (counts.take (i + 1)).sum + observations.countP (· ≤ boundaries[i]) := by
  induction observations generalizing counts with
  | nil => simp
  | cons value observations ih =>
    have sizedAfter : (record boundaries counts value).length = boundaries.length + 1 := length_record.trans sized
    rw [List.foldl_cons, ih sizedAfter, record, sum_take_modify _ _ _ (by omega), List.countP_cons]
    simp only [Nat.lt_succ_iff, place_le_iff increasing bound, decide_eq_true_eq]
    push_cast
    ring

theorem sum_foldl_record (sized : counts.length = boundaries.length + 1) :
    (observations.foldl (record boundaries) counts).sum = counts.sum + observations.length := by
  induction observations generalizing counts with
  | nil => simp
  | cons value observations ih =>
    have sizedAfter : (record boundaries counts value).length = boundaries.length + 1 := length_record.trans sized
    have whole := sum_take_modify counts (place boundaries value) counts.length le_rfl
    have inside : place boundaries value < counts.length := by
      have order := place_le_length boundaries value
      omega
    rw [List.take_of_length_le (by rw [List.length_modify]), List.take_length, if_pos inside] at whole
    rw [List.foldl_cons, ih sizedAfter, record, whole, List.length_cons]
    push_cast
    ring

end Buckets
