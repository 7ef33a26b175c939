import Mathlib.Algebra.BigOperators.Group.List.Basic
import Mathlib.Algebra.Order.BigOperators.Group.List
import Mathlib.Algebra.Order.Ring.Rat
import Mathlib.Data.Rat.Defs
import Mathlib.Tactic.Linarith
import Mathlib.Tactic.Ring

/-! Means of a window of a run, recovered from two running means and a counter: when the counter counts the samples. -/

namespace WindowMean

abbrev Step := Bool × Option ℚ

def Paired (step : Step) : Prop := step.1 = step.2.isSome

instance (step : Step) : Decidable (Paired step) := inferInstanceAs (Decidable (_ = _))

def samples (steps : List Step) : List ℚ := steps.filterMap Prod.snd

def counted (steps : List Step) : Nat := steps.countP Prod.fst

def mean (values : List ℚ) : ℚ := values.sum / values.length

/-- What two running means and the counter say about the steps between them. -/
def recovered (before window : List Step) : ℚ :=
  if counted window = 0 then 0
  else (mean (samples (before ++ window)) * counted (before ++ window) - mean (samples before) * counted before) /
    counted window

variable {steps before window rest : List Step} {step : Step}

@[simp] theorem samples_append (first second : List Step) : samples (first ++ second) = samples first ++ samples second :=
  List.filterMap_append

@[simp] theorem counted_append (first second : List Step) : counted (first ++ second) = counted first + counted second :=
  List.countP_append

theorem samples_cons (step : Step) (steps : List Step) : samples (step :: steps) = step.2.toList ++ samples steps := by
  obtain ⟨count, sample⟩ := step
  cases sample <;> rfl

theorem counted_cons (step : Step) (steps : List Step) : counted (step :: steps) = counted [step] + counted steps :=
  counted_append [step] steps

@[simp] theorem mean_nil : mean [] = 0 := by simp [mean]

theorem mean_mul_length (values : List ℚ) : mean values * values.length = values.sum := by
  by_cases empty : values = []
  · rw [empty]
    simp
  · have positive : (values.length : ℚ) ≠ 0 := by
      exact_mod_cast (List.length_pos_of_ne_nil empty).ne'
    rw [mean, div_mul_cancel₀ _ positive]

theorem counted_of_paired (paired : ∀ step ∈ steps, Paired step) : counted steps = (samples steps).length := by
  induction steps with
  | nil => rfl
  | cons step steps ih =>
    obtain ⟨own, later⟩ := List.forall_mem_cons.mp paired
    obtain ⟨count, sample⟩ := step
    have rest := ih later
    cases sample with
    | none =>
      have none : count = false := own
      subst none
      exact rest
    | some value =>
      have some : count = true := own
      subst some
      rw [counted, List.countP_cons_of_pos rfl]
      exact congrArg (· + 1) rest

/-- When every step is counted exactly if it adds a sample, the mean of the window is recovered. -/
theorem recovered_of_paired (paired : ∀ step ∈ before ++ window, Paired step) :
    recovered before window = mean (samples window) := by
  have earlier := counted_of_paired fun step member => paired step (List.mem_append_left _ member)
  have inside := counted_of_paired fun step member => paired step (List.mem_append_right _ member)
  have all := counted_of_paired paired
  unfold recovered
  split
  · next none =>
    have empty : samples window = [] := List.length_eq_zero_iff.mp (inside.symm.trans none)
    rw [empty, mean_nil]
  · rw [all, mean_mul_length, earlier, mean_mul_length, inside, samples_append, List.sum_append, add_sub_cancel_left, mean]

theorem recovered_of_silent (silent : samples (before ++ window) = []) : recovered before window = mean (samples window) := by
  have parts := silent
  rw [samples_append, List.append_eq_nil_iff] at parts
  unfold recovered
  rw [silent, parts.1, parts.2]
  simp

theorem recovered_uncounted (value : ℚ) : recovered before [(false, some value)] = 0 := rfl

theorem mean_single (count : Bool) (value : ℚ) : mean (samples [(count, some value)]) = value := by
  simp [samples, mean]

theorem recovered_unsampled : recovered before [(true, none)] = mean (samples before) := by
  have one : counted [(true, none)] = 1 := rfl
  have none : samples [(true, none)] = [] := rfl
  unfold recovered
  rw [one, if_neg one_ne_zero, samples_append, none, List.append_nil, counted_append, one]
  push_cast
  ring

theorem recovered_first (silent : samples before = []) (value : ℚ) :
    recovered before [(true, some value)] = value * (counted before + 1) := by
  have one : counted [(true, some value)] = 1 := rfl
  have single : samples [(true, some value)] = [value] := rfl
  unfold recovered
  rw [one, if_neg one_ne_zero, samples_append, silent, single, counted_append, one]
  simp [mean]

theorem exists_first {p : Step → Bool} (found : ∃ step ∈ steps, p step = true) :
    ∃ before step rest, steps = before ++ step :: rest ∧ p step = true ∧ ∀ step ∈ before, p step = false := by
  obtain ⟨step, search⟩ := Option.isSome_iff_exists.mp (List.find?_isSome.mpr found)
  obtain ⟨holds, before, rest, split, earlier⟩ := List.find?_eq_some_iff_append.mp search
  refine ⟨before, step, rest, split, holds, fun step member => ?_⟩
  simpa using earlier step member

/-- With positive samples a counted step before the first sample makes a window wrong. -/
theorem silent_of_recovered (silent : samples before = []) (some : counted before ≠ 0)
    (positive : ∀ value ∈ samples rest, 0 < value)
    (all : ∀ quiet step later, rest = quiet ++ step :: later →
      recovered (before ++ quiet) [step] = mean (samples [step])) : samples rest = [] := by
  by_contra heard
  have found : ∃ step ∈ rest, step.2.isSome = true := by
    obtain ⟨value, member⟩ := List.exists_mem_of_ne_nil _ heard
    obtain ⟨step, inside, sample⟩ := List.mem_filterMap.mp member
    exact ⟨step, inside, by rw [sample]; rfl⟩
  obtain ⟨quiet, step, later, split, heard, earlier⟩ := exists_first found
  have none : samples (before ++ quiet) = [] := by
    rw [samples_append, silent, List.nil_append]
    apply List.filterMap_eq_nil_iff.mpr
    intro step member
    simpa using earlier step member
  have single := all quiet step later split
  obtain ⟨count, sample⟩ := step
  obtain ⟨value, rfl⟩ := Option.isSome_iff_exists.mp heard
  have more : 0 < value := positive value (by simp [split, samples])
  cases count with
  | false =>
    rw [recovered_uncounted, mean_single] at single
    exact more.ne single
  | true =>
    rw [recovered_first none, mean_single] at single
    have least : (0 : ℚ) < counted before := by exact_mod_cast Nat.pos_of_ne_zero some
    have total : (counted (before ++ quiet) : ℚ) = counted before + counted quiet := by
      rw [counted_append]
      push_cast
      rfl
    have grown : 0 ≤ (counted quiet : ℚ) := Nat.cast_nonneg _
    have zero : value * (counted (before ++ quiet) : ℚ) = 0 := by linarith
    have above : 0 < value * (counted (before ++ quiet) : ℚ) := by
      apply mul_pos more
      rw [total]
      linarith
    exact above.ne' zero

/-- With positive samples nothing else recovers the mean of every window. -/
theorem paired_of_recovered (positive : ∀ value ∈ samples steps, 0 < value)
    (all : ∀ before window rest, steps = before ++ (window ++ rest) → recovered before window = mean (samples window)) :
    samples steps = [] ∨ ∀ step ∈ steps, Paired step := by
  by_cases paired : ∀ step ∈ steps, Paired step
  · exact .inr paired
  left
  have found : ∃ step ∈ steps, (fun step : Step => decide (¬ Paired step)) step = true := by
    simp only [not_forall] at paired
    obtain ⟨step, member, unpaired⟩ := paired
    exact ⟨step, member, decide_eq_true unpaired⟩
  obtain ⟨before, step, rest, split, unpaired, earlier⟩ := exists_first found
  have unpaired : ¬ Paired step := of_decide_eq_true unpaired
  have earlier : ∀ step ∈ before, Paired step := fun step member => by simpa using earlier step member
  have single := all before [step] rest split
  obtain ⟨count, sample⟩ := step
  cases sample with
  | some value =>
    cases count with
    | true => exact absurd rfl unpaired
    | false =>
      have more : 0 < value := positive value (by simp [split, samples])
      rw [recovered_uncounted, mean_single] at single
      exact absurd single more.ne
  | none =>
    cases count with
    | false => exact absurd rfl unpaired
    | true =>
      -- a step that is counted without a sample repeats the mean of what came before it
      have quiet : samples before = [] := by
        by_contra heard
        have sum : 0 < (samples before).sum := List.sum_pos _ (fun value member => positive value (by simp [split, member])) heard
        have length : (0 : ℚ) < (samples before).length := by exact_mod_cast List.length_pos_of_ne_nil heard
        have repeated : mean (samples before) = 0 := by
          rw [← recovered_unsampled, single]
          exact mean_nil
        exact (div_pos sum length).ne' repeated
      have silent : samples (before ++ [(true, none)]) = [] := by
        rw [samples_append, quiet]
        rfl
      have counts : counted (before ++ [(true, none)]) ≠ 0 := by
        rw [counted_append]
        exact Nat.succ_ne_zero _
      have later : samples rest = [] := by
        apply silent_of_recovered silent counts
        · intro value member
          apply positive
          rw [split, ← List.singleton_append, samples_append, samples_append]
          exact List.mem_append_right _ (List.mem_append_right _ member)
        · intro quiet step later same
          apply all _ [step] later
          rw [split, same]
          simp
      rw [split, ← List.singleton_append, ← List.append_assoc, samples_append, silent, later]
      rfl

end WindowMean
