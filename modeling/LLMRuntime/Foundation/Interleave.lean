import Mathlib.Data.List.Nodup
import Mathlib.Data.List.Flatten
import Mathlib.Tactic.Common

namespace Interleave

variable {ι α κ : Type*} [DecidableEq κ]

/-- `n` rounds over the same sources; in round `k` each source contributes `emit k` of itself. -/
def rounds (sources : List ι) (emit : Nat → ι → List α) (n : Nat) : List α :=
  (List.range n).flatMap fun k => sources.flatMap (emit k)

theorem flatMap_of_unique {sources : List ι} {f : ι → List α} {i : ι} (distinct : sources.Nodup)
    (member : i ∈ sources) (others : ∀ j ∈ sources, j ≠ i → f j = []) : sources.flatMap f = f i := by
  induction sources with
  | nil => cases member
  | cons j js ih =>
    obtain ⟨fresh, distinct⟩ := List.nodup_cons.mp distinct
    rw [List.flatMap_cons]
    by_cases here : i = j
    · subst here
      have silent : js.flatMap f = [] := List.flatMap_eq_nil_iff.mpr fun k listed =>
        others k (List.mem_cons_of_mem _ listed) fun same => fresh (same ▸ listed)
      rw [silent, List.append_nil]
    · have later : i ∈ js := (List.mem_cons.mp member).resolve_left here
      rw [others j (by simp) (Ne.symm here), List.nil_append]
      exact ih distinct later fun k listed => others k (List.mem_cons_of_mem _ listed)

section Owners

variable {owner : α → κ} {key : ι → κ} {emit : Nat → ι → List α}

theorem filter_owned (owned : ∀ k i, ∀ a ∈ emit k i, owner a = key i) (k : Nat) (i : ι) (c : κ) :
    (emit k i).filter (owner · = c) = if key i = c then emit k i else [] := by
  by_cases same : key i = c
  · rw [if_pos same]
    exact List.filter_eq_self.mpr fun a listed => by simpa [owned k i a listed] using same
  · rw [if_neg same]
    exact List.filter_eq_nil_iff.mpr fun a listed => by simpa [owned k i a listed] using same

/-- Seen through one key, the rounds are that source's own contributions in order. -/
theorem filter_rounds {sources : List ι} (owned : ∀ k i, ∀ a ∈ emit k i, owner a = key i)
    (distinct : (sources.map key).Nodup) {i : ι} (member : i ∈ sources) (n : Nat) :
    (rounds sources emit n).filter (owner · = key i) = (List.range n).flatMap fun k => emit k i := by
  rw [rounds, List.filter_flatMap]
  refine congrArg (fun f => (List.range n).flatMap f) (funext fun k => ?_)
  rw [List.filter_flatMap, flatMap_of_unique distinct.of_map member, filter_owned owned, if_pos rfl]
  intro j listed apart
  rw [filter_owned owned, if_neg]
  exact fun same => apart (List.inj_on_of_nodup_map distinct listed member same)

end Owners

end Interleave
