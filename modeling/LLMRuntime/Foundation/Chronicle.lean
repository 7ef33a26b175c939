import Mathlib.Order.Monotone.Basic
import Mathlib.Data.List.Pairwise

/-! Stamps that are readings of one clock, taken one after another. -/

namespace Chronicle

variable {τ : Type*} [Preorder τ]

/-- The stamps are in order, and each of them was read before the next reading. -/
structure Taken (reading : Nat → τ) (ticks : Nat) (stamps : List τ) : Prop where
  ordered : stamps.Pairwise (· ≤ ·)
  past : ∀ stamp ∈ stamps, ∃ k < ticks, stamp = reading k

variable {reading : Nat → τ} {ticks : Nat} {stamps : List τ}

theorem Taken.single (k : Nat) : Taken reading (k + 1) [reading k] where
  ordered := List.pairwise_singleton _ _
  past := by
    intro stamp member
    exact ⟨k, Nat.lt_succ_self k, List.mem_singleton.mp member⟩

theorem Taken.later (taken : Taken reading ticks stamps) {after : Nat} (order : ticks ≤ after) :
    Taken reading after stamps where
  ordered := taken.ordered
  past := by
    intro stamp member
    obtain ⟨k, before, same⟩ := taken.past stamp member
    exact ⟨k, by omega, same⟩

/-- The next reading is the latest stamp. -/
theorem Taken.push (monotone : Monotone reading) (taken : Taken reading ticks stamps) :
    Taken reading (ticks + 1) (stamps ++ [reading ticks]) where
  ordered := by
    apply List.pairwise_append.mpr
    refine ⟨taken.ordered, List.pairwise_singleton _ _, ?_⟩
    intro earlier member last isLast
    obtain ⟨k, before, rfl⟩ := taken.past earlier member
    rw [List.mem_singleton.mp isLast]
    exact monotone before.le
  past := by
    intro stamp member
    rcases List.mem_append.mp member with earlier | last
    · obtain ⟨k, before, same⟩ := taken.past stamp earlier
      exact ⟨k, by omega, same⟩
    · exact ⟨ticks, Nat.lt_succ_self ticks, List.mem_singleton.mp last⟩

theorem Taken.forall_mem {P : τ → Prop} (always : ∀ k, P (reading k)) (taken : Taken reading ticks stamps) :
    ∀ stamp ∈ stamps, P stamp := by
  intro stamp member
  obtain ⟨k, -, rfl⟩ := taken.past stamp member
  exact always k

end Chronicle
