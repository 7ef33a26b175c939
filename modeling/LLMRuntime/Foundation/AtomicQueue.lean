import Mathlib.Order.Basic
import LLMRuntime.Foundation.Transition

/-! A queue whose operations take effect at once, each at some time: `take` removes the most urgent element, and of
equally urgent ones the first. -/

namespace AtomicQueue

variable {ι α τ κ : Type*}

inductive Op (ι α τ : Type*) where
  | put (a : α) (now : τ)
  | take (i : ι) (a : α) (now : τ)
  deriving DecidableEq, Repr

def Op.put? : Op ι α τ → Option α
  | .put a _ => some a
  | .take _ _ _ => none

def Op.take? : Op ι α τ → Option (ι × α)
  | .put _ _ => none
  | .take i a _ => some (i, a)

/-- The operations in `log`, at times that do not decrease, lead from the queue `s` to the queue `t`. What is least
    under `level` is most urgent. -/
inductive History [LE τ] [LE κ] [LT κ] (level : τ → α → κ) : τ → List α → List (Op ι α τ) → τ → List α → Prop
  | nil {start finish : τ} {s : List α} (order : start ≤ finish) : History level start s [] finish s
  | put {start now finish : τ} {s t : List α} {a : α} {log : List (Op ι α τ)} (order : start ≤ now)
      (rest : History level now (s ++ [a]) log finish t) : History level start s (.put a now :: log) finish t
  | take {start now finish : τ} {before after t : List α} {i : ι} {a : α} {log : List (Op ι α τ)}
      (order : start ≤ now) (earlier : ∀ b ∈ before, level now a < level now b)
      (later : ∀ b ∈ after, level now a ≤ level now b)
      (rest : History level now (before ++ after) log finish t) :
      History level start (before ++ a :: after) (.take i a now :: log) finish t

section History

variable [Preorder τ] [LE κ] [LT κ] {level : τ → α → κ} {start middle finish : τ} {s t u : List α}
  {log more : List (Op ι α τ)}

theorem History.since {earlier : τ} (order : earlier ≤ start) (history : History level start s log finish t) :
    History level earlier s log finish t := by
  cases history with
  | nil first => exact .nil (order.trans first)
  | put first rest => exact .put (order.trans first) rest
  | take first before after rest => exact .take (order.trans first) before after rest

theorem History.trans (history : History level start s log middle t) (next : History level middle t more finish u) :
    History level start s (log ++ more) finish u := by
  induction history with
  | nil order => exact next.since order
  | put order rest ih => exact .put order (ih next)
  | take order earlier later rest ih => exact .take order earlier later (ih next)

end History

section Run

open Transition

variable [Preorder τ] [LE κ] [LT κ] {level : τ → α → κ} {σ A : Type*} {step : σ → A → Option σ}
  {op : σ → A → Option (Op ι α τ)} {time : σ → τ} {queue : σ → List α} {I : σ → Prop}

/-- Where every step is at most one operation, a run is a history. -/
theorem exec_history
    (one : ∀ s a t, I s → step s a = some t →
      I t ∧ History level (time s) (queue s) (op s a).toList (time t) (queue t))
    {s t : σ} {acts : List A} (begin : I s) (run : exec step s acts = some t) :
    History level (time s) (queue s) (observe step op s acts) (time t) (queue t) := by
  induction acts generalizing s with
  | nil =>
    cases run
    exact .nil le_rfl
  | cons a as ih =>
    rcases exec_cons_some.mp run with ⟨next, taken, rest⟩
    rcases one s a next begin taken with ⟨kept, first⟩
    rw [observe, taken]
    exact first.trans (ih kept rest)

end Run

end AtomicQueue
