import LLMRuntime.Foundation.Transition
import Mathlib.Data.List.Basic

structure BatchQueue (α : Type*) where
  waiting : List α := []
  taken : List (List α) := []

namespace BatchQueue

variable {α : Type*} (queue : BatchQueue α)

def put (a : α) : BatchQueue α := { queue with waiting := queue.waiting ++ [a] }

def take (limit : Nat) : Option (BatchQueue α) :=
  match queue.waiting with
  | [] => none
  | a :: rest => some {
      waiting := rest.drop (limit - 1)
      taken := queue.taken ++ [a :: rest.take (limit - 1)] }

/-- What an observer sees: how much waits, and every batch so far. -/
def report : Nat × List (List α) := (queue.waiting.length, queue.taken)

variable {queue}

theorem take_cases {limit : Nat} {after : BatchQueue α} (found : queue.take limit = some after) :
    ∃ a rest, queue.waiting = a :: rest ∧ after.waiting = rest.drop (limit - 1) ∧
      after.taken = queue.taken ++ [a :: rest.take (limit - 1)] := by
  unfold take at found
  split at found
  · cases found
  · next a rest waiting =>
    cases found
    exact ⟨a, rest, waiting, rfl, rfl⟩

theorem take_flatten {limit : Nat} {after : BatchQueue α} (found : queue.take limit = some after) :
    after.taken.flatten ++ after.waiting = queue.taken.flatten ++ queue.waiting := by
  obtain ⟨a, rest, headed, left, batch⟩ := take_cases found
  rw [headed, left, batch, List.flatten_append, List.flatten_singleton, List.append_assoc, List.cons_append,
    List.take_append_drop]

section Filling

open Transition

variable {σ β : Type*} {step : σ → β → Option σ} {busy : σ → Bool} {act : β} {limit : Nat}
  {filling filled : σ → List α → List α → Prop}

variable (filling filled) in
/-- A loop that moves one waiting element at a time into its batch ends, with as many as the limit allows. -/
theorem runWhile_fill
    (working : ∀ s waiting batch, filling s waiting batch → busy s = true)
    (idle : ∀ s waiting batch, filled s waiting batch → busy s = false)
    (push : ∀ s a waiting batch, filling s (a :: waiting) batch → batch.length < limit →
      ∃ t, step s act = some t ∧ filling t waiting (batch ++ [a]))
    (stop : ∀ s waiting batch, filling s waiting batch → waiting = [] ∨ limit ≤ batch.length →
      ∃ t, step s act = some t ∧ filled t waiting batch)
    {s : σ} {waiting batch : List α} (start : filling s waiting batch) {fuel : Nat}
    (enough : waiting.length < fuel) :
    ∃ t, runWhile step busy act fuel s = some t ∧
      filled t (waiting.drop (limit - batch.length)) (batch ++ waiting.take (limit - batch.length)) := by
  induction fuel generalizing s waiting batch with
  | zero => omega
  | succ fuel ih =>
    have first : runWhile step busy act (fuel + 1) s = (step s act).bind (runWhile step busy act fuel) := by
      simp [runWhile, working s waiting batch start]
    have stopped (ended : waiting = [] ∨ limit ≤ batch.length) :
        ∃ t, runWhile step busy act (fuel + 1) s = some t ∧ filled t waiting batch := by
      obtain ⟨t, taken, done⟩ := stop s waiting batch start ended
      refine ⟨t, ?_, done⟩
      rw [first, taken, Option.bind_some, runWhile_idle (idle t waiting batch done)]
    cases waiting with
    | nil => simpa using stopped (.inl rfl)
    | cons a rest =>
      by_cases room : batch.length < limit
      · obtain ⟨t, taken, more⟩ := push s a rest batch start room
        obtain ⟨u, done, result⟩ := ih more (by simpa using enough)
        obtain ⟨k, left⟩ : ∃ k, limit - batch.length = k + 1 := ⟨limit - batch.length - 1, by omega⟩
        have leftAfter : limit - (batch ++ [a]).length = k := by
          simp only [List.length_append, List.length_singleton]
          omega
        refine ⟨u, by rw [first, taken, Option.bind_some, done], ?_⟩
        rw [leftAfter] at result
        rw [left]
        simpa using result
      · have full : limit - batch.length = 0 := by omega
        rw [full, List.drop_zero, List.take_zero, List.append_nil]
        exact stopped (.inr (by omega))

end Filling

end BatchQueue
