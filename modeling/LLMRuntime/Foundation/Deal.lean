import LLMRuntime.Foundation.Transition

/-! Items that leave a queue one by one, each to one of several takers. -/

namespace Deal

variable {ι α : Type*} [DecidableEq ι] (log : List (ι × α)) (i : ι)

def hand : List α := (log.filter fun entry => entry.1 = i).map Prod.snd

@[simp] theorem hand_nil : hand ([] : List (ι × α)) i = [] := rfl

@[simp] theorem hand_append (more : List (ι × α)) : hand (log ++ more) i = hand log i ++ hand more i := by
  simp [hand]

theorem hand_sublist : (hand log i).Sublist (log.map Prod.snd) := List.filter_sublist.map Prod.snd

theorem hand_of_single (single : ∀ j, j = i) : hand log i = log.map Prod.snd := by
  have all : log.filter (fun entry => entry.1 = i) = log :=
    List.filter_eq_self.mpr fun entry _ => decide_eq_true (single entry.1)
  rw [hand, all]

theorem hand_to_self (items : List α) : hand (items.map fun item => (i, item)) i = items := by
  simp [hand, List.filter_map, Function.comp_def]

theorem hand_to_other {j : ι} (other : j ≠ i) (items : List α) : hand (items.map fun item => (i, item)) j = [] := by
  simp [hand, List.filter_map, Function.comp_def, Ne.symm other]

/-- The queue and what each taker holds, before and after: `added` joined the queue at its end, `log` was dealt off
    its front, and each taker gave up `out` before anything it was dealt later. -/
structure Dealt (queue : List α) (held : ι → List α) (added : List α) (out : ι → List α) (queueAfter : List α)
    (heldAfter : ι → List α) : Prop where
  queue : queue ++ added = log.map Prod.snd ++ queueAfter
  hands : ∀ i, held i ++ hand log i = out i ++ heldAfter i

variable {log}

theorem Dealt.trans {more : List (ι × α)} {queue₀ queue₁ queue₂ added added' : List α}
    {held₀ held₁ held₂ out out' : ι → List α} (first : Dealt log queue₀ held₀ added out queue₁ held₁)
    (second : Dealt more queue₁ held₁ added' out' queue₂ held₂) :
    Dealt (log ++ more) queue₀ held₀ (added ++ added') (fun i => out i ++ out' i) queue₂ held₂ := by
  constructor
  · rw [← List.append_assoc, first.queue, List.append_assoc, second.queue, List.map_append, List.append_assoc]
  · intro i
    rw [hand_append, ← List.append_assoc, first.hands, List.append_assoc, second.hands, List.append_assoc]

section Run

open Transition

variable {σ A β : Type*} {step : σ → A → Option σ} (queue : σ → List α) (held : σ → ι → List α)
  (adds : A → List α) (ends : ι → σ → A → Option β) (items : β → List α)

theorem exec_dealt
    (one : ∀ s a t, step s a = some t →
      ∃ log, Dealt log (queue s) (held s) (adds a) (fun i => (ends i s a).toList.flatMap items) (queue t) (held t))
    {s t : σ} {acts : List A} (run : exec step s acts = some t) :
    ∃ log, Dealt log (queue s) (held s) (acts.flatMap adds)
      (fun i => (observe step (ends i) s acts).flatMap items) (queue t) (held t) := by
  induction acts generalizing s with
  | nil =>
    cases run
    exact ⟨[], by simp, fun i => by simp [observe]⟩
  | cons a as ih =>
    obtain ⟨next, taken, rest⟩ := exec_cons_some.mp run
    obtain ⟨log, first⟩ := one s a next taken
    obtain ⟨more, later⟩ := ih rest
    have both := first.trans later
    refine ⟨log ++ more, both.queue, fun i => ?_⟩
    rw [both.hands, observe, taken, List.flatMap_append]

end Run

end Deal
