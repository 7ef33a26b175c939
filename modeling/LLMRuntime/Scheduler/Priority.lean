import Mathlib.Algebra.Order.Floor.Ring
import Mathlib.Data.List.Perm.Basic
import Mathlib.Data.Prod.Lex
import Mathlib.Data.Rat.Floor
import Mathlib.Tactic.Linarith
import LLMRuntime.Core.Response
import LLMRuntime.Foundation.FirstMin

namespace LLMRuntime

structure QueuedRequest where
  priority : Int
  sequence : Nat
  queuedAt : ℚ
  item : ScheduledRequest
  deriving DecidableEq, Repr

variable (agingBoostIntervalS : ℚ)

def effectivePriority (queued : QueuedRequest) (now : ℚ) : Int :=
  if agingBoostIntervalS ≤ 0 then queued.priority
  else
    let waitedS := max 0 (now - queued.queuedAt)
    let boost := ⌊waitedS / agingBoostIntervalS⌋
    max 0 (queued.priority - boost)

/-- The key of the `min` in `_pop_next_locked`: tuples compare lexicographically. -/
def dequeueKey (now : ℚ) (queued : QueuedRequest) : ℤ ×ₗ ℕ :=
  toLex (effectivePriority agingBoostIntervalS queued now, queued.sequence)

/-- `_pop_next_locked` at clock reading `now`; only an empty list has no best index. -/
def popNextLocked (now : ℚ) (items : List QueuedRequest) : Option (QueuedRequest × List QueuedRequest) :=
  (firstMin (dequeueKey agingBoostIntervalS now) items).map fun best => (best.2, items.eraseIdx best.1)

variable {agingBoostIntervalS} {now : ℚ} {items rest : List QueuedRequest} {popped : QueuedRequest}

theorem popNextLocked_eq_none_iff : popNextLocked agingBoostIntervalS now items = none ↔ items = [] := by
  rw [popNextLocked, Option.map_eq_none_iff, firstMin_eq_none_iff]

theorem popNextLocked_perm (found : popNextLocked agingBoostIntervalS now items = some (popped, rest)) :
    items.Perm (popped :: rest) := by
  obtain ⟨⟨index, best⟩, first, same⟩ := Option.map_eq_some_iff.mp found
  cases same
  obtain ⟨bound, rfl⟩ := List.getElem?_eq_some_iff.mp (firstMin_getElem first)
  exact (List.getElem_cons_eraseIdx_perm bound).symm

theorem popNextLocked_sublist (found : popNextLocked agingBoostIntervalS now items = some (popped, rest)) :
    rest.Sublist items := by
  obtain ⟨best, -, same⟩ := Option.map_eq_some_iff.mp found
  cases same
  exact List.eraseIdx_sublist items best.1

theorem popNextLocked_le (found : popNextLocked agingBoostIntervalS now items = some (popped, rest)) :
    ∀ queued ∈ items, dequeueKey agingBoostIntervalS now popped ≤ dequeueKey agingBoostIntervalS now queued := by
  obtain ⟨best, first, same⟩ := Option.map_eq_some_iff.mp found
  cases same
  exact firstMin_le first

theorem popNextLocked_head {queued : QueuedRequest}
    (least : ∀ other ∈ rest,
      dequeueKey agingBoostIntervalS now queued ≤ dequeueKey agingBoostIntervalS now other) :
    popNextLocked agingBoostIntervalS now (queued :: rest) = some (queued, rest) := by
  rw [popNextLocked, firstMin_cons_of_le least]
  rfl

/-- Whatever the clock shows, aging keeps equal priorities in the order of their arrival. -/
theorem effectivePriority_mono {y z : QueuedRequest} (level : y.priority = z.priority)
    (order : y.queuedAt ≤ z.queuedAt) :
    effectivePriority agingBoostIntervalS y now ≤ effectivePriority agingBoostIntervalS z now := by
  unfold effectivePriority
  split
  · exact level.le
  · next positive =>
    have waited : max 0 (now - z.queuedAt) ≤ max 0 (now - y.queuedAt) :=
      max_le_max le_rfl (sub_le_sub_left order now)
    have boost : ⌊max 0 (now - z.queuedAt) / agingBoostIntervalS⌋ ≤
        ⌊max 0 (now - y.queuedAt) / agingBoostIntervalS⌋ :=
      Int.floor_le_floor (div_le_div_of_nonneg_right waited (not_le.mp positive).le)
    exact max_le_max le_rfl (by omega)

theorem dequeueKey_mono {y z : QueuedRequest} (level : y.priority = z.priority)
    (order : y.queuedAt ≤ z.queuedAt) (earlier : y.sequence < z.sequence) :
    dequeueKey agingBoostIntervalS now y ≤ dequeueKey agingBoostIntervalS now z := by
  rcases (effectivePriority_mono level order).lt_or_eq with less | same
  · exact Prod.Lex.toLex_le_toLex.mpr (.inl less)
  · exact Prod.Lex.toLex_le_toLex.mpr (.inr ⟨same, earlier.le⟩)

/-- Aging bounds overtaking: a later request goes first only if it arrived less than its advantage in
    priority levels, counted in boost intervals, after the earlier one. -/
theorem overtaking_bound {y z : QueuedRequest} (positive : 0 < agingBoostIntervalS)
    (order : y.queuedAt ≤ z.queuedAt) (past : z.queuedAt ≤ now) (earlier : y.sequence < z.sequence)
    (first : dequeueKey agingBoostIntervalS now z ≤ dequeueKey agingBoostIntervalS now y) :
    z.queuedAt - y.queuedAt < (y.priority - z.priority) * agingBoostIntervalS := by
  have better : effectivePriority agingBoostIntervalS z now < effectivePriority agingBoostIntervalS y now := by
    rcases Prod.Lex.toLex_le_toLex.mp first with less | ⟨-, sequence⟩
    · exact less
    · exact absurd sequence (not_le.mpr earlier)
  simp only [effectivePriority, if_neg (not_le.mpr positive), max_eq_right (sub_nonneg.mpr past),
    max_eq_right (sub_nonneg.mpr (order.trans past))] at better
  -- The waiting times differ by the arrival times, and floors are superadditive.
  have apart : ⌊(now - z.queuedAt) / agingBoostIntervalS⌋ + ⌊(z.queuedAt - y.queuedAt) / agingBoostIntervalS⌋ ≤
      ⌊(now - y.queuedAt) / agingBoostIntervalS⌋ := by
    have sum : (now - y.queuedAt) / agingBoostIntervalS =
        (now - z.queuedAt) / agingBoostIntervalS + (z.queuedAt - y.queuedAt) / agingBoostIntervalS := by
      rw [← add_div]
      congr 1
      ring
    rw [sum]
    exact Int.le_floor_add _ _
  have levels : ⌊(z.queuedAt - y.queuedAt) / agingBoostIntervalS⌋ < y.priority - z.priority := by
    omega
  have below := Int.floor_lt.mp levels
  rw [div_lt_iff₀ positive] at below
  exact_mod_cast below

end LLMRuntime
