import LLMRuntime.Core.RateLimit
import LLMRuntime.Foundation.StayAhead

namespace LLMRuntime.AdmissionController

open TokenBucket StayAhead

/-- A rate-limiting controller under a monotone clock; calls it turns away as `queue_full` included. -/
structure Clocked (c : AdmissionController) (calls : List AdmitCall) : Prop where
  limited : 0 < c.requestRateLimitPerS
  started : ∀ call ∈ calls, c.lastRefillAt ≤ call.time
  ordered : calls.Pairwise fun earlier later => earlier.time ≤ later.time

/-- What any admission policy owes: the queue cap, and at most `capacity + rate * d` in a window of length `d`. -/
structure WithinLimits (c : AdmissionController) (log : List (AdmitCall × AdmissionDecision)) : Prop where
  queue : ∀ entry ∈ log, entry.2.accepted = true → ¬ c.QueueFull entry.1.queueSize
  rate : ∀ a d, 0 ≤ d → (acceptedWithin log a d : ℚ) ≤ c.capacity + c.requestRateLimitPerS * d

variable {c : AdmissionController} {calls : List AdmitCall} {call : AdmitCall}

def acceptedCount (log : List (AdmitCall × AdmissionDecision)) (k : Nat) : Nat :=
  taken (fun entry => entry.2.accepted) log k

theorem Clocked.left {more : List AdmitCall} (run : Clocked c (calls ++ more)) : Clocked c calls where
  limited := run.limited
  started call member := run.started call (List.mem_append_left _ member)
  ordered := (List.pairwise_append.mp run.ordered).1

theorem Clocked.take (run : Clocked c calls) (k : Nat) : Clocked c (calls.take k) := by
  rw [← List.take_append_drop k calls] at run
  exact run.left

theorem Clocked.le_last (run : Clocked c (calls ++ [call])) : ∀ earlier ∈ calls, earlier.time ≤ call.time :=
  fun earlier member => (List.pairwise_append.mp run.ordered).2.2 earlier member call (by simp)

theorem Clocked.stamp_le (run : Clocked c (calls ++ [call])) {t : ℚ} (later : call.time ≤ t) :
    (c.bucket.replay (history (c.serve calls))).stamp ≤ t := by
  apply Bucket.replay_stamp_le _ _ _ ((run.started call (by simp)).trans later)
  intro entry member
  rcases serve_time_mem member with ⟨earlier, inCalls, time⟩
  rw [← time]
  exact (run.le_last earlier inCalls).trans later

theorem admitRequest_queueFull (full : c.QueueFull call.queueSize) :
    c.admitRequest call.queueSize call.time = (queueFull, c) := by
  simp [admitRequest, full]

theorem history_serve_snoc (c : AdmissionController) (calls : List AdmitCall) (call : AdmitCall) :
    history (c.serve (calls ++ [call])) = history (c.serve calls) ++
      [(call.time, if ((c.afterCalls calls).admitRequest call.queueSize call.time).1.accepted then 1 else 0)] := by
  simp [serve_append, history, serve]

theorem afterCalls_requestRateLimitPerS (c : AdmissionController) (calls : List AdmitCall) :
    (c.afterCalls calls).requestRateLimitPerS = c.requestRateLimitPerS := by
  induction calls using List.reverseRecOn with
  | nil => rfl
  | append_singleton calls call ih =>
    rw [afterCalls_snoc, ← ih]
    unfold admitRequest
    split
    · rfl
    · split
      · rfl
      · dsimp only
        split <;> rfl

theorem afterCalls_QueueFull (c : AdmissionController) (calls : List AdmitCall) (queueSize : Int) :
    (c.afterCalls calls).QueueFull queueSize ↔ c.QueueFull queueSize := by
  simp [QueueFull]

theorem Clocked.lastRefillAt_le (run : Clocked c (calls ++ [call])) :
    (c.afterCalls calls).lastRefillAt ≤ call.time := by
  have bounded : ∀ earlier ∈ calls, earlier.time ≤ call.time := run.le_last
  have start := run.started call (by simp)
  clear run
  induction calls using List.reverseRecOn with
  | nil => exact start
  | append_singleton calls last ih =>
    rw [afterCalls_snoc]
    rcases admitRequest_lastRefillAt (c.afterCalls calls) last.queueSize last.time with kept | moved
    · rw [kept]
      exact ih fun earlier member => bounded earlier (by simp [member])
    · rw [moved]
      exact bounded last (by simp)

/-- For whoever asks next the controller is the bucket its served log describes: a call turned away at the
    queue cap leaves the refill it did not make to the next one. -/
theorem Clocked.refill_afterCalls (run : Clocked c calls) {t : ℚ} (later : ∀ call ∈ calls, call.time ≤ t) :
    (c.afterCalls calls).bucket.refill t = (c.bucket.replay (history (c.serve calls))).refill t := by
  induction calls using List.reverseRecOn generalizing t with
  | nil => rfl
  | append_singleton calls call ih =>
    have before := fun earlier member => later earlier (List.mem_append_left [call] member)
    have now : call.time ≤ t := later call (by simp)
    rw [afterCalls_snoc, history_serve_snoc, Bucket.replay_snoc]
    by_cases full : (c.afterCalls calls).QueueFull call.queueSize
    · have growing : 0 ≤ (c.bucket.replay (history (c.serve calls))).rate := by
        rw [Bucket.replay_rate]
        exact run.limited.le
      rw [admitRequest_queueFull full, ih run.left before, ← Bucket.refill_refill _ growing now]
      simp [queueFull, Bucket.spend]
    · have limited : 0 < (c.afterCalls calls).requestRateLimitPerS := by
        rw [afterCalls_requestRateLimitPerS]
        exact run.limited
      have spent := (admitRequest_bucket _ call full limited run.lastRefillAt_le).2
      rw [spent, ih run.left run.le_last]

theorem Clocked.accepted_iff_level (run : Clocked c (calls ++ [call])) (reach : ¬ c.QueueFull call.queueSize) :
    ((c.afterCalls calls).admitRequest call.queueSize call.time).1.accepted = true ↔
      1 ≤ ((c.bucket.replay (history (c.serve calls))).refill call.time).level := by
  have reached : ¬ (c.afterCalls calls).QueueFull call.queueSize := by rwa [afterCalls_QueueFull]
  have limited : 0 < (c.afterCalls calls).requestRateLimitPerS := by
    rw [afterCalls_requestRateLimitPerS]
    exact run.limited
  have level := (admitRequest_bucket _ call reached limited run.lastRefillAt_le).1
  rw [run.left.refill_afterCalls run.le_last] at level
  exact level

theorem Clocked.history_started (run : Clocked c calls) :
    ∀ entry ∈ history (c.serve calls), c.bucket.stamp ≤ entry.1 := by
  intro entry member
  rcases serve_time_mem member with ⟨call, inCalls, time⟩
  rw [← time]
  exact run.started call inCalls

theorem Clocked.covers (run : Clocked c calls) (full : c.tokens = c.capacity) (room : (0 : ℚ) ≤ c.capacity) :
    c.bucket.Covers (history (c.serve calls)) := by
  induction calls using List.reverseRecOn with
  | nil => exact Bucket.covers_nil _
  | append_singleton calls call ih =>
    have covered := ih run.left
    rw [history_serve_snoc]
    apply covered.snoc
    cases decided : ((c.afterCalls calls).admitRequest call.queueSize call.time).1.accepted with
    | true =>
      have reach : ¬ c.QueueFull call.queueSize := by
        intro queueFull
        rw [admitRequest_queueFull ((afterCalls_QueueFull c calls _).mpr queueFull)] at decided
        cases decided
      exact (run.accepted_iff_level reach).mp decided
    | false =>
      have started : 0 ≤ c.bucket.level := by
        change 0 ≤ c.tokens
        rw [full]
        exact room
      apply Bucket.refill_level_nonneg _ _ (covered.level_nonneg started) _ _ (run.stamp_le le_rfl)
      · rw [Bucket.replay_capacity]
        exact room
      · rw [Bucket.replay_rate]
        exact run.limited.le

theorem serve_accepted_reached {entry : AdmitCall × AdmissionDecision}
    (served : entry ∈ c.serve calls) (accepted : entry.2.accepted = true) : ¬ c.QueueFull entry.1.queueSize := by
  rcases List.getElem_of_mem served with ⟨k, bound, rfl⟩
  have inCalls : k < calls.length := by rwa [serve_length] at bound
  rw [serve_getElem c calls k inCalls bound] at accepted ⊢
  intro queueFull
  rw [admitRequest_queueFull ((afterCalls_QueueFull c _ _).mpr queueFull)] at accepted
  cases accepted

theorem Clocked.withinLimits (run : Clocked c calls) (full : c.tokens = c.capacity) (room : 0 ≤ c.capacity) :
    WithinLimits c (c.serve calls) where
  queue _ served accepted := serve_accepted_reached served accepted
  rate a d length := by
    have roomRat : (0 : ℚ) ≤ c.capacity := by exact_mod_cast room
    have amounts : ∀ entry ∈ history (c.serve calls), 0 ≤ entry.2 := by
      intro entry member
      rcases List.mem_map.mp member with ⟨served, -, rfl⟩
      dsimp only
      split <;> norm_num
    have spent := c.bucket.window_spent_le full run.limited.le roomRat _ run.history_started amounts
      (run.covers full roomRat) a d length
    rw [window_history] at spent
    rw [mul_comm]
    exact spent

/-- A call the rate check turned down would have overdrawn a window that ends with it. -/
theorem Clocked.overdrawn (run : Clocked c calls) (full : c.tokens = c.capacity) (room : 1 ≤ c.capacity) (k : Nat)
    (bound : k < (c.serve calls).length) (reach : ¬ c.QueueFull (c.serve calls)[k].1.queueSize)
    (rejected : (c.serve calls)[k].2.accepted = false) :
    ∃ j, ∃ earlier : j < k, (c.capacity : ℚ) + c.requestRateLimitPerS *
      ((c.serve calls)[k].1.time - (c.serve calls)[j].1.time) < acceptedFrom ((c.serve calls).take k) j + 1 := by
  have inCalls : k < calls.length := by rwa [serve_length] at bound
  have upTo : Clocked c (calls.take k ++ [calls[k]]) := by
    rw [List.take_append_getElem]
    exact run.take (k + 1)
  have roomRat : (1 : ℚ) ≤ c.bucket.capacity := by
    change (1 : ℚ) ≤ (c.capacity : ℚ)
    exact_mod_cast room
  have lastStarted := upTo.started calls[k] (List.mem_append_right _ (List.mem_singleton_self _))
  rw [serve_getElem c calls k inCalls bound] at reach rejected
  dsimp only at reach rejected
  have short := mt (upTo.accepted_iff_level reach).mpr (Bool.eq_false_iff.mp rejected)
  rw [c.bucket.le_refill_replay_iff full run.limited.le _ upTo.left.history_started _ lastStarted] at short
  push Not at short
  rcases short roomRat with ⟨j, inHistory, exceeds⟩
  have earlier : j < k := by
    simp only [history, List.length_map, serve_length, List.length_take] at inHistory
    omega
  use j, earlier
  rw [spentFrom_history] at exceeds
  simp only [history, List.getElem_map, ← serve_take c calls k inCalls.le, List.getElem_take, bucket] at exceeds
  rw [serve_getElem c calls k inCalls bound]
  linarith

theorem acceptedCount_add_from (log : List (AdmitCall × AdmissionDecision)) {j k : Nat} (order : j ≤ k) :
    acceptedCount log j + acceptedFrom (log.take k) j = acceptedCount log k :=
  taken_add_drop _ log order

theorem acceptedFrom_le_within {log : List (AdmitCall × AdmissionDecision)}
    (ordered : (log.map Prod.fst).Pairwise fun earlier later => earlier.time ≤ later.time)
    (j k : Nat) (bound : k < log.length) (earlier : j < k) :
    acceptedFrom (log.take (k + 1)) j ≤ acceptedWithin log log[j].1.time (log[k].1.time - log[j].1.time) := by
  have timed : ∀ m n (inside : n < log.length) (order : m ≤ n), log[m].1.time ≤ log[n].1.time := by
    intro m n inside order
    rw [List.pairwise_map] at ordered
    rcases order.lt_or_eq with before | rfl
    · exact List.pairwise_iff_getElem.mp ordered m n (by omega) inside before
    · exact le_refl _
  have counted : acceptedFrom (log.take (k + 1)) j ≤ acceptedWithin (log.take (k + 1)) log[j].1.time
      (log[k].1.time - log[j].1.time) := by
    unfold acceptedFrom acceptedWithin
    apply le_trans _ (List.Sublist.countP_le (List.drop_sublist j _))
    apply List.countP_mono_left
    intro entry member accepted
    rcases List.getElem_of_mem member with ⟨m, inDrop, rfl⟩
    rw [List.length_drop, List.length_take] at inDrop
    rw [List.getElem_drop, List.getElem_take] at accepted ⊢
    have opens := timed j (j + m) (by omega) (by omega)
    have closes := timed (j + m) k bound (by omega)
    simp only [accepted, within, Bool.true_and, decide_eq_true_eq]
    exact ⟨opens, by linarith⟩
  exact counted.trans (List.Sublist.countP_le (List.take_sublist _ _))

theorem Clocked.acceptedCount_le (run : Clocked c calls) (full : c.tokens = c.capacity) (room : 1 ≤ c.capacity)
    {rival : List (AdmitCall × AdmissionDecision)} (sameCalls : rival.map Prod.fst = calls)
    (limits : WithinLimits c rival) (k : Nat) :
    acceptedCount rival k ≤ acceptedCount (c.serve calls) k := by
  have sameCall : ∀ k (inRival : k < rival.length) (served : k < (c.serve calls).length),
      rival[k].1 = (c.serve calls)[k].1 := by
    intro k inRival served
    have same := sameCalls.trans (c.serve_calls calls).symm
    have at_k := congrArg (fun l => l[k]?) same
    simpa [inRival, served] using at_k
  have sameLength : rival.length = (c.serve calls).length := by
    rw [serve_length, ← sameCalls, List.length_map]
  apply taken_le_taken sameLength.le
  intro k inRival served theirs mine
  have reach : ¬ c.QueueFull (c.serve calls)[k].1.queueSize := by
    rw [← sameCall k inRival served]
    exact limits.queue _ (List.getElem_mem inRival) theirs
  rcases run.overdrawn full room k served reach mine with ⟨j, earlier, exceeds⟩
  have order : rival[j].1.time ≤ rival[k].1.time := by
    have sorted := run.ordered
    rw [← sameCalls, List.pairwise_map] at sorted
    exact List.pairwise_iff_getElem.mp sorted j k (by omega) inRival earlier
  have sorted := run.ordered
  rw [← sameCalls] at sorted
  have window : (acceptedFrom (rival.take (k + 1)) j : ℚ) ≤ _ :=
    (Nat.cast_le.mpr (acceptedFrom_le_within sorted j k inRival earlier)).trans
      (limits.rate _ _ (sub_nonneg.mpr order))
  rw [sameCall k inRival served, sameCall j (by omega) (by omega)] at window
  have fewer : acceptedFrom (rival.take (k + 1)) j < acceptedFrom ((c.serve calls).take k) j + 1 := by
    exact_mod_cast window.trans_lt exceeds
  have ourSplit := acceptedCount_add_from (c.serve calls) earlier.le
  have rivalSplit := acceptedCount_add_from rival (by omega : j ≤ k + 1)
  use j, earlier.le
  unfold acceptedCount at ourSplit rivalSplit
  omega

/-- Whatever a policy that knows all the calls beforehand accepts within the limits, the controller has accepted at
    least as many at every moment, and itself stays within them, reckoned exactly. -/
theorem admits_most (maxQueueSize burst : Int) (rate start : ℚ) (positive : 0 < rate) (calls : List AdmitCall)
    (clock : (start :: calls.map AdmitCall.time).Pairwise (· ≤ ·)) :
    let c := create maxQueueSize rate burst start
    WithinLimits c (c.serve calls) ∧
      ∀ rival : List (AdmitCall × AdmissionDecision), rival.map Prod.fst = calls → WithinLimits c rival →
        ∀ k, acceptedCount rival k ≤ acceptedCount (c.serve calls) k := by
  intro c
  have started := List.pairwise_cons.mp clock
  have run : Clocked c calls :=
    ⟨positive, fun call member => started.1 _ (List.mem_map_of_mem member), List.pairwise_map.mp started.2⟩
  have full : c.tokens = c.capacity := rfl
  have room : 1 ≤ c.capacity := bucketCapacity_pos rate burst positive
  constructor
  · exact run.withinLimits full (by omega)
  · intro rival sameCalls limits
    exact run.acceptedCount_le full room sameCalls limits

theorem admits_most_three :
    let c := create 2 2 2 0
    let calls := [⟨0, 0⟩, ⟨2, 0⟩, ⟨1, 0⟩, ⟨1, 1/4⟩, ⟨0, 1/2⟩]
    acceptedCount (c.serve calls) 5 = 3 ∧
      ∀ rival : List (AdmitCall × AdmissionDecision), rival.map Prod.fst = calls → WithinLimits c rival →
        acceptedCount rival 5 ≤ 3 := by
  intro c calls
  have served : acceptedCount (c.serve calls) 5 = 3 := by decide +kernel
  constructor
  · exact served
  · intro rival sameCalls limits
    rw [← served]
    exact (admits_most 2 2 2 0 (by norm_num) calls (by decide +kernel)).2 rival sameCalls limits 5

end LLMRuntime.AdmissionController
