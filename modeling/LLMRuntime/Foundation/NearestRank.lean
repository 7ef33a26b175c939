import Mathlib.Algebra.Order.Floor.Ring
import Mathlib.Data.List.Sort
import Mathlib.Data.Rat.Floor

/-! Nearest-rank quantiles of a list, and where they stand in the sorted list. -/

namespace NearestRank

def rank (length : Nat) (share : ℚ) : Nat := ⌈share * length⌉.toNat

theorem rank_pos {length : Nat} {share : ℚ} (positive : 0 < share) (nonempty : 0 < length) : 0 < rank length share := by
  have above : 0 < ⌈share * length⌉ := Int.ceil_pos.mpr (mul_pos positive (Nat.cast_pos.mpr nonempty))
  rw [rank]
  omega

theorem rank_le {length : Nat} {share : ℚ} (whole : share ≤ 1) : rank length share ≤ length := by
  have bound : ⌈share * length⌉ ≤ (length : ℤ) := by
    apply Int.ceil_le.mpr
    push_cast
    exact mul_le_of_le_one_left (Nat.cast_nonneg _) whole
  rw [rank]
  omega

variable {α : Type*} [LinearOrder α]

def Covers (values : List α) (share : ℚ) (v : α) : Prop :=
  share * values.length ≤ values.countP (· ≤ v)

/-- The least of the values that covers the share. -/
structure IsQuantile (values : List α) (share : ℚ) (v : α) : Prop where
  mem : v ∈ values
  covers : Covers values share v
  least : ∀ w ∈ values, Covers values share w → v ≤ w

variable {values sorted : List α} {share : ℚ} {v w : α}

theorem covers_iff : Covers values share v ↔ rank values.length share ≤ values.countP (· ≤ v) := by
  rw [Covers, rank, Int.toNat_le, Int.ceil_le]
  push_cast
  rfl

theorem covers_perm (same : values.Perm sorted) : Covers values share v ↔ Covers sorted share v := by
  rw [Covers, Covers, same.length_eq, same.countP_eq]

theorem lt_countP_iff (ascending : sorted.Pairwise (· ≤ ·)) {k : Nat} (bound : k < sorted.length) :
    k < sorted.countP (· ≤ w) ↔ sorted[k] ≤ w := by
  induction ascending generalizing k with
  | nil => exact absurd bound (Nat.not_lt_zero k)
  | @cons x rest below ordered ih =>
    by_cases first : x ≤ w
    · rw [List.countP_cons_of_pos (by simpa using first)]
      cases k with
      | zero => simp [first]
      | succ k =>
        rw [Nat.succ_lt_succ_iff, List.getElem_cons_succ]
        exact ih (by simpa using bound)
    · have none : (x :: rest).countP (· ≤ w) = 0 := by
        rw [List.countP_eq_zero]
        intro y member
        rcases List.mem_cons.mp member with rfl | member
        · simpa using first
        · have order := below y member
          simp only [decide_eq_true_eq]
          exact fun small => first (order.trans small)
      rw [none]
      constructor
      · intro positive
        exact absurd positive (Nat.not_lt_zero k)
      · intro small
        have least : x ≤ (x :: rest)[k] := by
          cases k with
          | zero => exact le_rfl
          | succ k => exact below _ (List.getElem_mem _)
        exact (first (least.trans small)).elim

theorem covers_iff_getElem (ascending : sorted.Pairwise (· ≤ ·)) (positive : 0 < rank sorted.length share)
    (bound : rank sorted.length share - 1 < sorted.length) :
    Covers sorted share w ↔ sorted[rank sorted.length share - 1] ≤ w := by
  rw [covers_iff, ← lt_countP_iff ascending bound]
  omega

/-- The quantile is the value of its rank in the sorted list. -/
theorem isQuantile_iff (same : values.Perm sorted) (ascending : sorted.Pairwise (· ≤ ·))
    (positive : 0 < rank sorted.length share) (bound : rank sorted.length share - 1 < sorted.length) :
    IsQuantile values share v ↔ v = sorted[rank sorted.length share - 1] := by
  have covers : ∀ w, Covers values share w ↔ sorted[rank sorted.length share - 1] ≤ w := by
    intro w
    rw [covers_perm same, covers_iff_getElem ascending positive bound]
  have member : sorted[rank sorted.length share - 1] ∈ values := same.mem_iff.mpr (List.getElem_mem _)
  constructor
  · intro quantile
    apply le_antisymm
    · exact quantile.least _ member ((covers _).mpr le_rfl)
    · exact (covers v).mp quantile.covers
  · intro here
    rw [here]
    exact ⟨member, (covers _).mpr le_rfl, fun w _ covered => (covers w).mp covered⟩

end NearestRank
