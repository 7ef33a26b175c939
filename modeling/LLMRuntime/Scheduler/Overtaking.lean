import LLMRuntime.Scheduler.Conservation

namespace LLMRuntime

namespace PriorityState

open Transition

variable {n : Nat} {cfg : SchedulerConfig} {st t : PriorityState n} {y z : QueuedRequest}

theorem Ordered.queuedAt_le (ordered : st.Ordered cfg) (first : y ∈ st.items) (second : z ∈ st.items)
    (earlier : y.sequence < z.sequence) : y.queuedAt ≤ z.queuedAt := by
  obtain ⟨i, iBound, rfl⟩ := List.getElem_of_mem first
  obtain ⟨j, jBound, rfl⟩ := List.getElem_of_mem second
  rcases lt_trichotomy i j with less | same | greater
  · exact List.pairwise_iff_getElem.mp ordered.arrivals i j iBound jBound less
  · subst same
    exact absurd earlier (lt_irrefl _)
  · have later := List.pairwise_iff_getElem.mp ordered.sequences j i jBound iBound greater
    exact absurd earlier later.not_gt

theorem dequeued_first {action : SchedulerAction n} (taken : st.step cfg action = some t)
    (queued : z ∈ st.items) (dequeued : z ∉ t.items) :
    popNextLocked cfg.agingBoostIntervalS (cfg.timeFn.reading st.ticks) st.items = some (z, t.items) := by
  have popped : ∀ best, st.Pops cfg t best →
      popNextLocked cfg.agingBoostIntervalS (cfg.timeFn.reading st.ticks) st.items = some (z, t.items) := by
    intro best pops
    rcases List.mem_cons.mp ((popNextLocked_perm pops.found).subset queued) with same | left
    · rw [same]
      exact pops.found
    · exact absurd left dequeued
  have appended : ∀ item, st.Appends cfg t item → z ∈ t.items := by
    intro item appends
    obtain ⟨tick, -, -, items⟩ := appends.items
    rw [items]
    exact List.mem_append_left _ queued
  rcases step_effect taken with ⟨item, -, arrival⟩ | ⟨-, effect⟩
  · cases arrival with
    | waits same waiters => exact absurd (same.items ▸ queued) dequeued
    | appends appends waiters => exact absurd (appended _ appends) dequeued
  · cases effect with
    | quiet same waiters => exact absurd (same.items ▸ queued) dequeued
    | granted item appends waiters => exact absurd (appended _ appends) dequeued
    | takes i best pops held returned waiters => exact popped best pops
    | serves best pops held returned waiters => exact popped best pops
    | returns i batch full items counter submitted ticks held returned waiters =>
      exact absurd (items ▸ queued) dequeued

/-- When a request is dequeued while an earlier one is queued, it has the better priority and arrived less than
    its advantage, in boost intervals, after the earlier one. -/
theorem aging_bounds_overtaking (cfg : SchedulerConfig) (positive : 0 < cfg.agingBoostIntervalS)
    {acts : List (SchedulerAction n)} (run : exec (step cfg) {} acts = some st) {action : SchedulerAction n}
    (taken : st.step cfg action = some t) (first : y ∈ st.items) (second : z ∈ st.items)
    (earlier : y.sequence < z.sequence) (dequeued : z ∉ t.items) :
    z.queuedAt - y.queuedAt < (y.priority - z.priority) * cfg.agingBoostIntervalS ∧
    z.priority < y.priority ∧
    (0 ≤ z.priority → z.queuedAt - y.queuedAt < y.priority * cfg.agingBoostIntervalS) := by
  have ordered := (run_invariant run).ordered
  have order := ordered.queuedAt_le first second earlier
  have found := dequeued_first taken second dequeued
  have bound := overtaking_bound positive order (ordered.past z second) earlier (popNextLocked_le found y first)
  refine ⟨bound, ?_, fun nonneg => ?_⟩
  · have advantage : 0 < (y.priority - z.priority) * cfg.agingBoostIntervalS :=
      (sub_nonneg.mpr order).trans_lt bound
    have levels := sub_pos.mp ((mul_pos_iff_of_pos_right positive).mp advantage)
    exact_mod_cast levels
  · have clamped : ((0 : ℤ) : ℚ) ≤ z.priority := Int.cast_le.mpr nonneg
    have fewer : (y.priority - z.priority) * cfg.agingBoostIntervalS ≤ y.priority * cfg.agingBoostIntervalS :=
      mul_le_mul_of_nonneg_right (by simpa using clamped) positive.le
    exact bound.trans_le fewer

theorem aging_bounds_overtaking_urgent :
    let y : ScheduledRequest := .ofBody { messages := [], priority := 5 } "y" 0
    let z : ScheduledRequest := .ofBody { messages := [] } "z" 0
    ∃ st t : PriorityState 1, ∃ first second : QueuedRequest,
      exec (step (.ticking .py312)) {} [.submit y none, .submit z none] = some st ∧
      st.step (.ticking .py312) (.call 0 .request) = some t ∧
      st.items = [first, second] ∧ t.items = [first] ∧
      second.queuedAt - first.queuedAt < (first.priority - second.priority) * 1 := by
  intro y z
  let first : QueuedRequest :=
    { priority := 5, sequence := 1, queuedAt := 1, item := { y with request := y.request.markEnqueued 0 } }
  let second : QueuedRequest :=
    { priority := 0, sequence := 2, queuedAt := 3, item := { z with request := z.request.markEnqueued 2 } }
  have done : ((exec (step (.ticking .py312)) ({} : PriorityState 1) [.submit y none, .submit z none]).bind
      fun st => (st.step (.ticking .py312) (.call 0 .request)).map fun t => (st.items, t.items)) =
      some ([first, second], [first]) := by
    decide +kernel
  obtain ⟨st, run, rest⟩ := Option.bind_eq_some_iff.mp done
  obtain ⟨t, taken, lists⟩ := Option.map_eq_some_iff.mp rest
  obtain ⟨before, after⟩ := Prod.mk.inj lists
  refine ⟨st, t, first, second, run, taken, before, after, ?_⟩
  exact (aging_bounds_overtaking (.ticking .py312) (by decide +kernel) run taken (by simp [before])
    (by simp [before]) (by decide) (by rw [after]; decide +kernel)).1

end PriorityState

end LLMRuntime
