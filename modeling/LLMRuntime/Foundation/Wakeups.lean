import LLMRuntime.Foundation.Custody

namespace Wakeups

variable {ι P : Type*} [Fintype ι] (parked woken : P → Bool)

def share (point : P) : Nat := if woken point = true then 1 else 0

/-- How many waiters are notified and have not run since. -/
def pending (points : ι → P) : Nat := ∑ i, share woken (points i)

/-- While some waiter is parked un-notified, there is a wakeup under way for every queued item. -/
def Covered (points : ι → P) (queued : Nat) : Prop :=
  ∀ i, parked (points i) = true → queued ≤ pending woken points

variable {parked woken} {points : ι → P} {queued : Nat}

theorem share_le (woken : P → Bool) (point : P) : share woken point ≤ 1 := by
  unfold share
  split <;> omega

theorem share_of_not_woken {point : P} (asleep : woken point = false) : share woken point = 0 := by
  simp [share, asleep]

theorem share_of_woken {point : P} (notified : woken point = true) : share woken point = 1 := by
  simp [share, notified]

theorem pending_pos_iff : 0 < pending woken points ↔ ∃ i, woken (points i) = true := by
  unfold pending
  rw [Nat.pos_iff_ne_zero, Ne, Finset.sum_eq_zero_iff]
  simp [share]

theorem Covered.exists_woken (covered : Covered parked woken points queued) {i : ι}
    (waits : parked (points i) = true) (some : 0 < queued) : ∃ j, woken (points j) = true :=
  pending_pos_iff.mp (lt_of_lt_of_le some (covered i waits))

theorem covered_of_empty (points : ι → P) : Covered parked woken points 0 := fun _ _ => Nat.zero_le _

theorem covered_of_nobody (nobody : ∀ i, parked (points i) = false) (queued : Nat) :
    Covered parked woken points queued := by
  intro i waits
  rw [nobody i] at waits
  cases waits

variable [DecidableEq ι]

theorem pending_update (woken : P → Bool) (points : ι → P) (i : ι) (point : P) :
    pending woken (Function.update points i point) + share woken (points i) =
      pending woken points + share woken point := by
  have shares : (fun j => share woken (Function.update points i point j)) =
      Function.update (fun j => share woken (points j)) i (share woken point) :=
    funext fun j => Function.apply_update (fun _ => share woken) points i point j
  unfold pending
  rw [shares]
  exact Custody.sum_update (fun j => share woken (points j)) i (share woken point)

/-- A waiter that moves on without parking keeps the cover, if it takes an item for a wakeup it uses. -/
theorem Covered.move (covered : Covered parked woken points queued) {i : ι} {point : P}
    (awake : parked point = false) {now : Nat} (balance : now + share woken (points i) ≤ queued + share woken point) :
    Covered parked woken (Function.update points i point) now := by
  intro j waits
  have elsewhere : parked (points j) = true := by
    by_cases same : j = i
    · subst same
      rw [Function.update_self, awake] at waits
      cases waits
    · rwa [Function.update_of_ne same] at waits
  have before := covered j elsewhere
  have counted := pending_update woken points i point
  omega

theorem Covered.leave (covered : Covered parked woken points queued) {i : ι} {point : P}
    (awake : parked point = false) : Covered parked woken (Function.update points i point) (queued - 1) := by
  cases queued with
  | zero => exact covered_of_empty _
  | succ rest =>
    have atMostOne := share_le woken (points i)
    refine covered.move awake ?_
    omega

theorem Covered.notify (covered : Covered parked woken points (queued - 1)) {i : ι} {point : P}
    (asleep : woken (points i) = false) (awake : parked point = false) (notified : woken point = true) :
    Covered parked woken (Function.update points i point) queued := by
  have before := share_of_not_woken asleep
  have after := share_of_woken notified
  refine covered.move awake ?_
  omega

end Wakeups
