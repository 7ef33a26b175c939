import Mathlib.Data.List.Sort
import Mathlib.Order.Basic

variable {α β : Type*} [LinearOrder β]

/-- The first minimum of a list under a key, with its index: what `min` with a `key` returns. -/
def firstMin (key : α → β) : List α → Option (Nat × α)
  | [] => none
  | x :: xs =>
    match firstMin key xs with
    | none => some (0, x)
    | some (index, y) => if key y < key x then some (index + 1, y) else some (0, x)

theorem firstMin_eq_none_iff {key : α → β} {xs : List α} : firstMin key xs = none ↔ xs = [] := by
  cases xs with
  | nil => simp [firstMin]
  | cons x xs =>
    simp only [firstMin, reduceCtorEq, iff_false]
    split
    · simp
    · split <;> simp

theorem firstMin_getElem {key : α → β} {xs : List α} {index : Nat} {y : α}
    (found : firstMin key xs = some (index, y)) : xs[index]? = some y := by
  induction xs generalizing index y with
  | nil => cases found
  | cons x xs ih =>
    simp only [firstMin] at found
    split at found
    · cases found
      rfl
    · next later other inner =>
      split at found
      · cases found
        exact ih inner
      · cases found
        rfl

theorem firstMin_le {key : α → β} {xs : List α} {index : Nat} {y : α}
    (found : firstMin key xs = some (index, y)) : ∀ x ∈ xs, key y ≤ key x := by
  induction xs generalizing index y with
  | nil => cases found
  | cons first xs ih =>
    simp only [firstMin] at found
    split at found
    · next inner =>
      cases found
      rw [firstMin_eq_none_iff.mp inner]
      simp
    · next later other inner =>
      intro x member
      have tail := ih inner
      split at found
      · next smaller =>
        cases found
        rcases List.mem_cons.mp member with rfl | member
        · exact smaller.le
        · exact tail x member
      · next notSmaller =>
        cases found
        rcases List.mem_cons.mp member with rfl | member
        · exact le_refl _
        · exact (not_lt.mp notSmaller).trans (tail x member)

theorem firstMin_cons_of_le {key : α → β} {x : α} {xs : List α} (least : ∀ y ∈ xs, key x ≤ key y) :
    firstMin key (x :: xs) = some (0, x) := by
  rw [firstMin]
  split
  · rfl
  · next index y found =>
    have member := List.mem_of_getElem? (firstMin_getElem found)
    rw [if_neg (not_lt.mpr (least y member))]

/-- The list in the order of a key; elements with equal keys keep their order. -/
def sortedBy (key : α → β) (xs : List α) : List α := xs.insertionSort fun x y => key x ≤ key y

theorem sortedBy_perm (key : α → β) (xs : List α) : (sortedBy key xs).Perm xs := List.perm_insertionSort _ xs

theorem sortedBy_length (key : α → β) (xs : List α) : (sortedBy key xs).length = xs.length :=
  (sortedBy_perm key xs).length_eq

theorem sortedBy_pairwise (key : α → β) (xs : List α) :
    (sortedBy key xs).Pairwise fun x y => key x ≤ key y := by
  have : Std.Total fun x y : α => key x ≤ key y := ⟨fun x y => le_total (key x) (key y)⟩
  have : IsTrans α fun x y => key x ≤ key y := ⟨fun _ _ _ => le_trans⟩
  apply List.pairwise_insertionSort

/-- One round of a selection sort: what is taken out first is a least element, when no two keys agree. -/
theorem sortedBy_eq_cons {key : α → β} {xs rest : List α} {y : α} (taken : xs.Perm (y :: rest))
    (least : ∀ x ∈ xs, key y ≤ key x) (distinct : ∀ x ∈ xs, ∀ z ∈ xs, key x = key z → x = z) :
    sortedBy key xs = y :: sortedBy key rest := by
  have same : (sortedBy key xs).Perm (y :: sortedBy key rest) :=
    ((sortedBy_perm key xs).trans taken).trans ((sortedBy_perm key rest).symm.cons y)
  apply same.eq_of_pairwise _ (sortedBy_pairwise key xs)
  · apply List.Pairwise.cons _ (sortedBy_pairwise key rest)
    intro x member
    apply least
    rw [taken.mem_iff]
    exact List.mem_cons_of_mem y ((sortedBy_perm key rest).mem_iff.mp member)
  · intro x z left right below above
    apply distinct x ((sortedBy_perm key xs).mem_iff.mp left) z
    · exact taken.mem_iff.mpr (((sortedBy_perm key rest).cons y).mem_iff.mp right)
    · exact le_antisymm below above
