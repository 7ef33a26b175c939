import Mathlib.Data.List.Basic

namespace StayAhead

variable {α β : Type*} {p : α → Bool} {q : β → Bool} {ours : List α} {rival : List β}

/-- How many of the first `k` offers were taken. -/
def taken (p : α → Bool) (log : List α) (k : Nat) : Nat := (log.take k).countP p

@[simp] theorem taken_zero (p : α → Bool) (log : List α) : taken p log 0 = 0 := by simp [taken]

theorem taken_succ (p : α → Bool) (log : List α) (k : Nat) (bound : k < log.length) :
    taken p log (k + 1) = taken p log k + if p log[k] then 1 else 0 := by
  unfold taken
  rw [List.take_succ_eq_append_getElem bound, List.countP_append, List.countP_singleton]

theorem taken_mono (p : α → Bool) (log : List α) {j k : Nat} (order : j ≤ k) : taken p log j ≤ taken p log k :=
  (List.take_sublist_take_left order).countP_le

theorem taken_of_le (p : α → Bool) (log : List α) {k : Nat} (past : log.length ≤ k) :
    taken p log k = log.countP p := by
  unfold taken
  rw [List.take_of_length_le past]

theorem taken_add_drop (p : α → Bool) (log : List α) {j k : Nat} (order : j ≤ k) :
    taken p log j + ((log.take k).drop j).countP p = taken p log k := by
  have split : (log.take k).take j = log.take j := by rw [List.take_take, Nat.min_eq_left order]
  unfold taken
  rw [← split, ← List.countP_append, List.take_append_drop]

/-- One log turned an offer down that the other took only where it already led by one: then it always leads. -/
theorem taken_le_taken (sameOffers : rival.length ≤ ours.length)
    (blocked : ∀ k (inRival : k < rival.length) (inOurs : k < ours.length),
      q rival[k] = true → p ours[k] = false → ∃ j ≤ k,
        taken q rival (k + 1) + taken p ours j ≤ taken p ours k + taken q rival j) (k : Nat) :
    taken q rival k ≤ taken p ours k := by
  induction k using Nat.strongRecOn with
  | ind k ih =>
    rcases k with - | k
    · simp
    by_cases inRival : k < rival.length
    · have before := ih k (Nat.lt_succ_self k)
      have inOurs : k < ours.length := Nat.lt_of_lt_of_le inRival sameOffers
      have ourStep := taken_succ p ours k inOurs
      have rivalStep := taken_succ q rival k inRival
      cases mine : p ours[k] with
      | true =>
        rw [mine, if_pos rfl] at ourStep
        split at rivalStep <;> omega
      | false =>
        cases theirs : q rival[k] with
        | true =>
          rcases blocked k inRival inOurs theirs mine with ⟨j, earlier, lead⟩
          have behind := ih j (Nat.lt_succ_of_le earlier)
          have grows := taken_mono p ours (Nat.le_succ k)
          omega
        | false =>
          rw [theirs, if_neg Bool.false_ne_true] at rivalStep
          rw [mine, if_neg Bool.false_ne_true] at ourStep
          omega
    · have stopped : rival.length ≤ k := Nat.not_lt.mp inRival
      have before := ih k (Nat.lt_succ_self k)
      rw [taken_of_le q rival stopped] at before
      rw [taken_of_le q rival (Nat.le_trans stopped (Nat.le_succ k))]
      exact Nat.le_trans before (taken_mono p ours (Nat.le_succ k))

end StayAhead
