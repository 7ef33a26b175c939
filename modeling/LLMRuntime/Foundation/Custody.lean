import Mathlib.Algebra.BigOperators.Group.Finset.Piecewise
import Mathlib.Algebra.Order.BigOperators.Group.Multiset
import Mathlib.Tactic.Abel

namespace Custody

variable {ι : Type*} [Fintype ι]

def total {α : Type*} (hold : ι → List α) : Multiset α := ∑ i, (hold i : Multiset α)

theorem mem_total {α : Type*} {hold : ι → List α} {item : α} : item ∈ total hold ↔ ∃ i, item ∈ hold i := by
  simp [total, Multiset.mem_sum]

variable [DecidableEq ι]

theorem sum_update {M : Type*} [AddCommMonoid M] (share : ι → M) (i : ι) (value : M) :
    ∑ j, Function.update share i value j + share i = ∑ j, share j + value := by
  have split := Finset.sum_sdiff (f := share) (Finset.singleton_subset_iff.mpr (Finset.mem_univ i))
  rw [Finset.sum_singleton] at split
  rw [Finset.sum_update_of_mem (Finset.mem_univ i), ← split]
  abel

variable {α : Type*} (hold : ι → List α) (i : ι)

theorem total_update (items : List α) :
    total (Function.update hold i items) + hold i = total hold + items := by
  have moved : (fun j => (Function.update hold i items j : Multiset α)) =
      Function.update (fun j => (hold j : Multiset α)) i items :=
    funext fun j => Function.apply_update (fun _ (held : List α) => (held : Multiset α)) hold i items j
  have changed := sum_update (fun j => (hold j : Multiset α)) i (items : Multiset α)
  rw [← moved] at changed
  exact changed

theorem total_push (item : α) :
    total (Function.update hold i (hold i ++ [item])) = total hold + {item} := by
  have moved := total_update hold i (hold i ++ [item])
  rw [← Multiset.coe_add, add_comm (hold i : Multiset α), ← add_assoc] at moved
  exact add_right_cancel moved

theorem total_clear : total (Function.update hold i []) + hold i = total hold := by
  simpa using total_update hold i []

end Custody
