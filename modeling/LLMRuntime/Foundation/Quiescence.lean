import LLMRuntime.Foundation.Transition

namespace Quiescence

open Transition

variable {σ α : Type*} {step : σ → α → Option σ} {work : σ → Nat} {I : σ → Prop}

def AtRest (step : σ → α → Option σ) (busy : α → Prop) (s : σ) : Prop := ∀ a, busy a → step s a = none

section Counting

variable {allowed : α → Prop} {counted credited : α → Bool} {price : Nat}

theorem countP_cons_toNat (p : α → Bool) (a : α) (acts : List α) :
    (a :: acts).countP p = (p a).toNat + acts.countP p := by
  rw [List.countP_cons, Nat.add_comm]
  cases p a <;> rfl

/-- Where the counted steps use up work, and only the credited ones add some, at most `price` each, a run has no
    more counted steps than there is work. -/
theorem countP_exec_le
    (spends : ∀ s a t, I s → allowed a → step s a = some t →
      I t ∧ (counted a).toNat + work t ≤ work s + price * (credited a).toNat) {s t : σ}
    {acts : List α} (start : I s) (allowedRun : ∀ a ∈ acts, allowed a) (run : exec step s acts = some t) :
    acts.countP counted + work t ≤ work s + price * acts.countP credited := by
  induction acts generalizing s with
  | nil =>
    cases run
    exact Nat.le_of_eq (Nat.add_comm _ _)
  | cons a as ih =>
    obtain ⟨next, taken, rest⟩ := exec_cons_some.mp run
    obtain ⟨kept, less⟩ := spends s a next start (allowedRun a (by simp)) taken
    have later := ih kept (fun b member => allowedRun b (List.mem_cons_of_mem _ member)) rest
    rw [countP_cons_toNat, countP_cons_toNat, Nat.mul_add]
    omega

end Counting

section Spending

variable {busy : α → Prop} (spends : ∀ s a t, I s → busy a → step s a = some t → I t ∧ work t < work s)

include spends

/-- A run of steps that each use up work is no longer than the work there is. -/
theorem exec_length_le {s t : σ} {acts : List α} (start : I s) (busyRun : ∀ a ∈ acts, busy a)
    (run : exec step s acts = some t) : acts.length + work t ≤ work s := by
  have each (s : σ) (a : α) (t : σ) (inv : I s) (allowed : busy a) (taken : step s a = some t) :
      I t ∧ (true : Bool).toNat + work t ≤ work s + 0 * (false : Bool).toNat := by
    have spent := spends s a t inv allowed taken
    refine ⟨spent.1, ?_⟩
    rw [Bool.toNat_true]
    omega
  have counted : acts.countP (fun _ => true) + work t ≤ work s + 0 * acts.countP (fun _ => false) :=
    countP_exec_le each start busyRun run
  rwa [List.countP_true, Nat.zero_mul, Nat.add_zero] at counted

theorem exists_atRest {s : σ} (start : I s) :
    ∃ acts t, (∀ a ∈ acts, busy a) ∧ exec step s acts = some t ∧ AtRest step busy t := by
  induction amount : work s using Nat.strongRecOn generalizing s with
  | ind amount ih =>
    subst amount
    by_cases resting : AtRest step busy s
    · exact ⟨[], s, List.forall_mem_nil _, rfl, resting⟩
    · simp only [AtRest, not_forall] at resting
      obtain ⟨a, busyStep, moves⟩ := resting
      obtain ⟨next, taken⟩ := Option.ne_none_iff_exists'.mp moves
      obtain ⟨kept, less⟩ := spends s a next start busyStep taken
      obtain ⟨acts, t, busyRun, run, rests⟩ := ih (work next) less kept rfl
      exact ⟨a :: acts, t, List.forall_mem_cons.mpr ⟨busyStep, busyRun⟩, exec_cons_some.mpr ⟨next, taken, run⟩, rests⟩

end Spending

end Quiescence
