import LLMRuntime.Core.Admission

namespace LLMRuntime.AdmissionController

open TokenBucket

structure AdmitCall where
  queueSize : Int
  time : ℚ
  deriving DecidableEq, Repr

def afterCalls (c : AdmissionController) (calls : List AdmitCall) : AdmissionController :=
  calls.foldl (fun c call => (c.admitRequest call.queueSize call.time).2) c

def serve (c : AdmissionController) : List AdmitCall → List (AdmitCall × AdmissionDecision)
  | [] => []
  | call :: calls =>
    let (decision, after) := c.admitRequest call.queueSize call.time
    (call, decision) :: after.serve calls

def bucket (c : AdmissionController) : Bucket ℚ :=
  { capacity := c.capacity, rate := c.requestRateLimitPerS, level := c.tokens, stamp := c.lastRefillAt }

section Refills

variable {c d : AdmissionController}

theorem bucket_refillLocked {t : ℚ} (later : c.lastRefillAt ≤ t) :
    (c.refillLocked t).bucket = c.bucket.refill t := by
  have elapsed : max 0 (t - c.lastRefillAt) = t - c.lastRefillAt := max_eq_right (sub_nonneg.mpr later)
  simp only [bucket, refillLocked, Bucket.refill, elapsed]

theorem refillLocked_refillLocked {t u : ℚ} (limited : 0 ≤ c.requestRateLimitPerS) (started : c.lastRefillAt ≤ t)
    (later : t ≤ u) : (c.refillLocked t).refillLocked u = c.refillLocked u := by
  have twice : ((c.refillLocked t).refillLocked u).bucket = (c.refillLocked u).bucket := by
    rw [bucket_refillLocked (c := c.refillLocked t) later, bucket_refillLocked started,
      bucket_refillLocked (started.trans later)]
    exact Bucket.refill_refill c.bucket limited later
  have tokens : ((c.refillLocked t).refillLocked u).tokens = (c.refillLocked u).tokens :=
    congrArg Bucket.level twice
  simp only [refillLocked] at tokens ⊢
  rw [tokens]

/-- Whatever is asked after the last refill of `c`, the two controllers hold the same budget for it. -/
def AgreesFrom (c d : AdmissionController) : Prop :=
  ∀ t, c.lastRefillAt ≤ t → d.refillLocked t = c.refillLocked t

theorem AgreesFrom.refl (c : AdmissionController) : c.AgreesFrom c := fun _ _ => rfl

theorem AgreesFrom.settings (agree : c.AgreesFrom d) :
    d.maxQueueSize = c.maxQueueSize ∧ d.requestRateLimitPerS = c.requestRateLimitPerS := by
  have refilled := agree c.lastRefillAt le_rfl
  have cap := congrArg AdmissionController.maxQueueSize refilled
  have rate := congrArg AdmissionController.requestRateLimitPerS refilled
  exact ⟨cap, rate⟩

theorem AgreesFrom.decision (agree : c.AgreesFrom d) {queueSize : Int} {now : ℚ}
    (later : c.lastRefillAt ≤ now) :
    (d.admitRequest queueSize now).1 = (c.admitRequest queueSize now).1 := by
  obtain ⟨cap, rate⟩ := agree.settings
  simp only [admitRequest, QueueFull, cap, rate, agree now later]
  split
  · rfl
  · split
    · rfl
    · split <;> rfl

/-- A rejection, for whichever reason, takes nothing from the budget of the calls behind it. -/
theorem AgreesFrom.rejected (agree : c.AgreesFrom d) {queueSize : Int} {now : ℚ}
    (later : c.lastRefillAt ≤ now) (rejected : (c.admitRequest queueSize now).1.accepted = false) :
    (c.admitRequest queueSize now).2.AgreesFrom d := by
  unfold admitRequest at rejected ⊢
  split
  · exact agree
  · next reach =>
    split
    · exact agree
    · next limited =>
      rw [if_neg reach, if_neg limited] at rejected
      dsimp only at rejected ⊢
      split
      · intro t after
        rw [refillLocked_refillLocked (not_le.mp limited).le later after]
        exact agree t (later.trans after)
      · next enough =>
        rw [if_neg enough] at rejected
        cases rejected

theorem AgreesFrom.accepted (agree : c.AgreesFrom d) {queueSize : Int} {now : ℚ}
    (later : c.lastRefillAt ≤ now) (accepted : (c.admitRequest queueSize now).1.accepted = true) :
    (c.admitRequest queueSize now).2.AgreesFrom (d.admitRequest queueSize now).2 := by
  obtain ⟨cap, rate⟩ := agree.settings
  have full : d.QueueFull queueSize ↔ c.QueueFull queueSize := by simp only [QueueFull, cap]
  by_cases reach : c.QueueFull queueSize
  · simp [admitRequest, reach, queueFull] at accepted
  · by_cases limited : c.requestRateLimitPerS ≤ 0
    · simpa [admitRequest, full, reach, rate, limited] using agree
    · have same : d.admitRequest queueSize now = c.admitRequest queueSize now := by
        simp only [admitRequest, full, reach, rate, limited, agree now later, if_false]
      rw [same]
      exact .refl _

theorem admitRequest_lastRefillAt (c : AdmissionController) (queueSize : Int) (now : ℚ) :
    (c.admitRequest queueSize now).2.lastRefillAt = c.lastRefillAt ∨
      (c.admitRequest queueSize now).2.lastRefillAt = now := by
  unfold admitRequest
  split
  · exact .inl rfl
  · split
    · exact .inl rfl
    · dsimp only
      split <;> exact .inr rfl

end Refills

/-- The tokens each served call took, at its time. -/
def history (log : List (AdmitCall × AdmissionDecision)) : List (ℚ × ℚ) :=
  log.map fun entry => (entry.1.time, if entry.2.accepted then 1 else 0)

def acceptedFrom (log : List (AdmitCall × AdmissionDecision)) (j : Nat) : Nat :=
  (log.drop j).countP fun entry => entry.2.accepted

def acceptedWithin (log : List (AdmitCall × AdmissionDecision)) (a d : ℚ) : Nat :=
  log.countP fun entry => entry.2.accepted && within a d entry.1.time

theorem serve_append (c : AdmissionController) (calls more : List AdmitCall) :
    c.serve (calls ++ more) = c.serve calls ++ (c.afterCalls calls).serve more := by
  induction calls generalizing c with
  | nil => rfl
  | cons call calls ih => simpa [serve, afterCalls] using ih _

theorem serve_calls (c : AdmissionController) (calls : List AdmitCall) :
    (c.serve calls).map Prod.fst = calls := by
  induction calls generalizing c with
  | nil => rfl
  | cons call calls ih => simpa [serve] using ih _

theorem serve_length (c : AdmissionController) (calls : List AdmitCall) :
    (c.serve calls).length = calls.length := by
  simpa using congrArg List.length (c.serve_calls calls)

theorem afterCalls_snoc (c : AdmissionController) (calls : List AdmitCall) (call : AdmitCall) :
    c.afterCalls (calls ++ [call]) =
      ((c.afterCalls calls).admitRequest call.queueSize call.time).2 := by
  simp [afterCalls]

@[simp] theorem afterCalls_maxQueueSize (c : AdmissionController) (calls : List AdmitCall) :
    (c.afterCalls calls).maxQueueSize = c.maxQueueSize := by
  induction calls using List.reverseRecOn with
  | nil => rfl
  | append_singleton calls call ih => simpa [afterCalls_snoc] using ih

/-- A call that reaches the rate check refills the bucket and takes a whole token when there is one. -/
theorem admitRequest_bucket (c : AdmissionController) (call : AdmitCall)
    (reach : ¬ c.QueueFull call.queueSize) (limited : 0 < c.requestRateLimitPerS)
    (clock : c.lastRefillAt ≤ call.time) :
    ((c.admitRequest call.queueSize call.time).1.accepted = true ↔ 1 ≤ (c.bucket.refill call.time).level) ∧
      (c.admitRequest call.queueSize call.time).2.bucket = (c.bucket.refill call.time).spend
        (if (c.admitRequest call.queueSize call.time).1.accepted then 1 else 0) := by
  have elapsed : max 0 (call.time - c.lastRefillAt) = call.time - c.lastRefillAt :=
    max_eq_right (sub_nonneg.mpr clock)
  have level : (c.refillLocked call.time).tokens = (c.bucket.refill call.time).level := by
    simp [refillLocked, bucket, Bucket.refill, elapsed]
  simp only [admitRequest, reach, not_le.mpr limited, if_false]
  by_cases short : (c.refillLocked call.time).tokens < 1
  · simp only [short, if_true]
    refine ⟨by simpa [rateLimited, level] using short, ?_⟩
    simp [rateLimited, bucket, Bucket.refill, Bucket.spend, refillLocked, elapsed]
  · simp only [short, if_false]
    refine ⟨by simpa [level] using short, ?_⟩
    simp [bucket, Bucket.refill, Bucket.spend, refillLocked, elapsed]

theorem spentFrom_history (log : List (AdmitCall × AdmissionDecision)) (j : Nat) :
    spentFrom (history log) j = acceptedFrom log j := by
  unfold spentFrom history acceptedFrom
  rw [← List.map_drop]
  induction log.drop j with
  | nil => simp
  | cons entry rest ih =>
    simp only [List.map_cons, List.sum_cons, ih, List.countP_cons]
    cases entry.2.accepted <;> simp [add_comm]

theorem window_history (log : List (AdmitCall × AdmissionDecision)) (a d : ℚ) :
    (((history log).filter fun entry => within a d entry.1).map Prod.snd).sum =
      acceptedWithin log a d := by
  unfold history acceptedWithin
  induction log with
  | nil => simp
  | cons entry rest ih =>
    simp only [List.map_cons, List.filter_cons, List.countP_cons]
    cases inside : within a d entry.1.time <;> cases entry.2.accepted <;> simp [ih, add_comm]

/-- The calls all get past the queue test of a rate-limiting controller, under a monotone clock. -/
structure ReachRateCheck (c : AdmissionController) (calls : List AdmitCall) : Prop where
  limited : 0 < c.requestRateLimitPerS
  reach : ∀ call ∈ calls, ¬ c.QueueFull call.queueSize
  started : ∀ call ∈ calls, c.lastRefillAt ≤ call.time
  ordered : calls.Pairwise fun earlier later => earlier.time ≤ later.time

theorem ReachRateCheck.left {c : AdmissionController} {calls more : List AdmitCall}
    (run : ReachRateCheck c (calls ++ more)) : ReachRateCheck c calls where
  limited := run.limited
  reach call member := run.reach call (List.mem_append_left _ member)
  started call member := run.started call (List.mem_append_left _ member)
  ordered := (List.pairwise_append.mp run.ordered).1

theorem serve_time_mem {c : AdmissionController} {calls : List AdmitCall} {entry : ℚ × ℚ}
    (member : entry ∈ history (c.serve calls)) : ∃ call ∈ calls, call.time = entry.1 := by
  obtain ⟨served, inLog, rfl⟩ := List.mem_map.mp member
  refine ⟨served.1, ?_, rfl⟩
  rw [← c.serve_calls calls]
  exact List.mem_map_of_mem inLog

theorem ReachRateCheck.stamp_le {c : AdmissionController} {calls : List AdmitCall} {call : AdmitCall}
    (run : ReachRateCheck c (calls ++ [call])) :
    (c.bucket.replay (history (c.serve calls))).stamp ≤ call.time := by
  apply Bucket.replay_stamp_le _ _ _ (run.started call (by simp))
  intro entry member
  obtain ⟨earlier, inCalls, time⟩ := serve_time_mem member
  rw [← time]
  exact (List.pairwise_append.mp run.ordered).2.2 earlier inCalls call (by simp)

theorem ReachRateCheck.next {c : AdmissionController} {calls : List AdmitCall} {call : AdmitCall}
    (run : ReachRateCheck c (calls ++ [call]))
    (same : (c.afterCalls calls).bucket = c.bucket.replay (history (c.serve calls))) :
    let decided := (c.afterCalls calls).admitRequest call.queueSize call.time
    let refilled := (c.bucket.replay (history (c.serve calls))).refill call.time
    (decided.1.accepted = true ↔ 1 ≤ refilled.level) ∧
      decided.2.bucket = refilled.spend (if decided.1.accepted then 1 else 0) := by
  have reach : ¬ (c.afterCalls calls).QueueFull call.queueSize := by
    have reachFirst := run.reach call (by simp)
    simpa [QueueFull] using reachFirst
  have limited : 0 < (c.afterCalls calls).requestRateLimitPerS := by
    have rate : (c.afterCalls calls).requestRateLimitPerS = c.requestRateLimitPerS :=
      (congrArg Bucket.rate same).trans (Bucket.replay_rate _ _)
    rw [rate]
    exact run.limited
  have clock : (c.afterCalls calls).lastRefillAt ≤ call.time := by
    have stamp : (c.afterCalls calls).lastRefillAt =
        (c.bucket.replay (history (c.serve calls))).stamp := congrArg Bucket.stamp same
    rw [stamp]
    exact run.stamp_le
  have step := admitRequest_bucket _ call reach limited clock
  rw [same] at step
  exact step

/-- The controller is the bucket that its served log describes. -/
theorem ReachRateCheck.bucket_afterCalls {c : AdmissionController} {calls : List AdmitCall}
    (run : ReachRateCheck c calls) :
    (c.afterCalls calls).bucket = c.bucket.replay (history (c.serve calls)) := by
  induction calls using List.reverseRecOn with
  | nil => rfl
  | append_singleton calls call ih =>
    have step := (run.next (ih run.left)).2
    rw [afterCalls_snoc, step, serve_append]
    simp [serve, history, Bucket.replay_snoc]

theorem ReachRateCheck.history_started {c : AdmissionController} {calls : List AdmitCall}
    (run : ReachRateCheck c calls) : ∀ entry ∈ history (c.serve calls), c.bucket.stamp ≤ entry.1 := by
  intro entry member
  obtain ⟨call, inCalls, time⟩ := serve_time_mem member
  rw [← time]
  exact run.started call inCalls

/-- The last call is accepted exactly when one more request fits every window that ends with it. -/
theorem ReachRateCheck.last_accepted_iff {c : AdmissionController} {calls : List AdmitCall}
    {call : AdmitCall} (run : ReachRateCheck c (calls ++ [call])) (full : c.tokens = c.capacity)
    (room : 1 ≤ c.capacity) :
    ((c.afterCalls calls).admitRequest call.queueSize call.time).1.accepted = true ↔
      ∀ j (bound : j < (c.serve calls).length),
        1 + (acceptedFrom (c.serve calls) j : ℚ) ≤
          c.capacity + (call.time - (c.serve calls)[j].1.time) * c.requestRateLimitPerS := by
  have level := c.bucket.le_refill_replay_iff full run.limited.le (history (c.serve calls))
    run.left.history_started call.time (run.started call (by simp)) 1
  have roomRat : (1 : ℚ) ≤ c.bucket.capacity := by
    change (1 : ℚ) ≤ (c.capacity : ℚ)
    exact_mod_cast room
  rw [(run.next run.left.bucket_afterCalls).1, level]
  simp only [roomRat, true_and, spentFrom_history]
  simp [history, bucket]

theorem ReachRateCheck.refilled_nonneg {c : AdmissionController} {calls : List AdmitCall}
    {call : AdmitCall} (run : ReachRateCheck c (calls ++ [call])) (room : 0 ≤ c.capacity)
    (nonneg : 0 ≤ (c.afterCalls calls).tokens) :
    0 ≤ ((c.bucket.replay (history (c.serve calls))).refill call.time).level := by
  have roomRat : (0 : ℚ) ≤ c.capacity := by exact_mod_cast room
  apply Bucket.refill_level_nonneg _ _ _ _ _ run.stamp_le
  · rw [← run.left.bucket_afterCalls]
    exact nonneg
  · rw [Bucket.replay_capacity]
    exact roomRat
  · rw [Bucket.replay_rate]
    exact run.limited.le

theorem ReachRateCheck.tokens_bounds {c : AdmissionController} {calls : List AdmitCall}
    (run : ReachRateCheck c calls) (full : c.tokens = c.capacity) (room : 0 ≤ c.capacity) :
    0 ≤ (c.afterCalls calls).tokens ∧ (c.afterCalls calls).tokens ≤ c.capacity := by
  have roomRat : (0 : ℚ) ≤ c.capacity := by exact_mod_cast room
  induction calls using List.reverseRecOn with
  | nil => exact ⟨full ▸ roomRat, full.le⟩
  | append_singleton calls call ih =>
    have same := run.left.bucket_afterCalls
    obtain ⟨accepted, spent⟩ := run.next same
    have level : (c.afterCalls (calls ++ [call])).tokens =
        ((c.bucket.replay (history (c.serve calls))).refill call.time).level -
          (if ((c.afterCalls calls).admitRequest call.queueSize call.time).1.accepted then 1 else 0) := by
      rw [afterCalls_snoc]
      exact congrArg Bucket.level spent
    have nonneg := run.refilled_nonneg room (ih run.left).1
    have capped : ((c.bucket.replay (history (c.serve calls))).refill call.time).level ≤ c.capacity :=
      (Bucket.refill_level_le _ _).trans_eq (Bucket.replay_capacity _ _)
    rw [level]
    cases decided : ((c.afterCalls calls).admitRequest call.queueSize call.time).1.accepted with
    | false => simpa using ⟨nonneg, capped⟩
    | true =>
      have whole := accepted.mp decided
      simp only [if_true]
      exact ⟨by linarith, by linarith⟩

theorem ReachRateCheck.covers {c : AdmissionController} {calls : List AdmitCall}
    (run : ReachRateCheck c calls) (full : c.tokens = c.capacity) (room : 0 ≤ c.capacity) :
    c.bucket.Covers (history (c.serve calls)) := by
  induction calls using List.reverseRecOn with
  | nil => exact Bucket.covers_nil _
  | append_singleton calls call ih =>
    have same := run.left.bucket_afterCalls
    obtain ⟨accepted, -⟩ := run.next same
    have snoc : history (c.serve (calls ++ [call])) = history (c.serve calls) ++
        [(call.time, if ((c.afterCalls calls).admitRequest call.queueSize call.time).1.accepted
          then 1 else 0)] := by
      simp [serve_append, history, serve]
    rw [snoc]
    apply (ih run.left).snoc
    cases decided : ((c.afterCalls calls).admitRequest call.queueSize call.time).1.accepted with
    | true => simpa using accepted.mp decided
    | false => simpa using run.refilled_nonneg room (run.left.tokens_bounds full room).1

theorem serve_getElem (c : AdmissionController) (calls : List AdmitCall) (k : Nat)
    (bound : k < calls.length) (served : k < (c.serve calls).length) :
    (c.serve calls)[k] = (calls[k],
      ((c.afterCalls (calls.take k)).admitRequest calls[k].queueSize calls[k].time).1) := by
  induction calls generalizing c k with
  | nil => simp at bound
  | cons call calls ih =>
    cases k with
    | zero => rfl
    | succ k => exact ih _ k (Nat.lt_of_succ_lt_succ bound) (Nat.lt_of_succ_lt_succ served)

theorem serve_take (c : AdmissionController) (calls : List AdmitCall) (k : Nat) (bound : k ≤ calls.length) :
    (c.serve calls).take k = c.serve (calls.take k) := by
  have split := c.serve_append (calls.take k) (calls.drop k)
  rw [List.take_append_drop] at split
  rw [split]
  apply List.take_left'
  simp [serve_length, bound]

theorem ReachRateCheck.take {c : AdmissionController} {calls : List AdmitCall}
    (run : ReachRateCheck c calls) (k : Nat) : ReachRateCheck c (calls.take k) := by
  rw [← List.take_append_drop k calls] at run
  exact run.left

theorem bucketCapacity_pos (rate : ℚ) (burst : Int) (positive : 0 < rate) : 1 ≤ bucketCapacity rate burst := by
  unfold bucketCapacity
  rw [if_neg (not_le.mpr positive)]
  split
  · omega
  · exact le_max_left _ _

theorem ReachRateCheck.accepted_iff {c : AdmissionController} {calls : List AdmitCall}
    (run : ReachRateCheck c calls) (full : c.tokens = c.capacity) (room : 1 ≤ c.capacity)
    (k : Nat) (bound : k < (c.serve calls).length) :
    (c.serve calls)[k].2.accepted = true ↔ ∀ j (earlier : j ≤ k),
      (acceptedFrom ((c.serve calls).take k) j + 1 : ℚ) ≤
        c.capacity + c.requestRateLimitPerS * ((c.serve calls)[k].1.time - (c.serve calls)[j].1.time) := by
  have inCalls : k < calls.length := by rwa [serve_length] at bound
  have upTo : ReachRateCheck c (calls.take k ++ [calls[k]]) := by
    rw [List.take_append_getElem]
    exact run.take (k + 1)
  have roomRat : (1 : ℚ) ≤ c.capacity := by exact_mod_cast room
  have decided := upTo.last_accepted_iff full room
  rw [serve_getElem c calls k inCalls bound, decided, ← serve_take c calls k inCalls.le]
  refine ⟨fun windows j earlier => ?_, fun windows j inside => ?_⟩
  · rcases earlier.lt_or_eq with inside | rfl
    · have window := windows j (by simp; omega)
      rw [List.getElem_take] at window
      linarith
    · have none : acceptedFrom ((c.serve calls).take j) j = 0 := by simp [acceptedFrom]
      rw [none, serve_getElem c calls j inCalls bound]
      simpa using roomRat
  · have inside' : j < k := by
      have := inside
      simp at this
      omega
    have window := windows j inside'.le
    rw [List.getElem_take]
    linarith

theorem ReachRateCheck.time_le {c : AdmissionController} {calls : List AdmitCall}
    (run : ReachRateCheck c calls) (m n : Nat) (bound : n < (c.serve calls).length) (order : m ≤ n) :
    (c.serve calls)[m].1.time ≤ (c.serve calls)[n].1.time := by
  have sorted : ((c.serve calls).map Prod.fst).Pairwise fun earlier later => earlier.time ≤ later.time := by
    rw [c.serve_calls calls]
    exact run.ordered
  rw [List.pairwise_map] at sorted
  rcases order.lt_or_eq with before | rfl
  · exact List.pairwise_iff_getElem.mp sorted m n (by omega) bound before
  · exact le_refl _

theorem ReachRateCheck.acceptedFrom_le_within {c : AdmissionController} {calls : List AdmitCall}
    (run : ReachRateCheck c calls) (k j : Nat) (bound : k < (c.serve calls).length) (earlier : j ≤ k) :
    acceptedFrom ((c.serve calls).take k) j ≤
      acceptedWithin ((c.serve calls).take k) (c.serve calls)[j].1.time
        ((c.serve calls)[k].1.time - (c.serve calls)[j].1.time) := by
  unfold acceptedFrom acceptedWithin
  refine le_trans ?_ (List.Sublist.countP_le (List.drop_sublist j _))
  apply List.countP_mono_left
  intro entry member accepted
  obtain ⟨m, inDrop, rfl⟩ := List.getElem_of_mem member
  rw [List.length_drop, List.length_take] at inDrop
  rw [List.getElem_drop, List.getElem_take] at accepted ⊢
  have opens := run.time_le j (j + m) (by omega) (by omega)
  have closes := run.time_le (j + m) k bound (by omega)
  simp only [accepted, within, Bool.true_and, decide_eq_true_eq]
  exact ⟨opens, by linarith⟩

/-- The token bucket is the closed form over all windows of its whole history, in both directions. -/
theorem rate_limit_exact (maxQueueSize burst : Int) (rate start : ℚ) (positive : 0 < rate)
    (calls : List AdmitCall)
    (reach : ∀ call ∈ calls, ¬ (create maxQueueSize rate burst start).QueueFull call.queueSize)
    (clock : (start :: calls.map AdmitCall.time).Pairwise (· ≤ ·)) :
    let c := create maxQueueSize rate burst start
    let capacity : ℚ := bucketCapacity rate burst
    let log := c.serve calls
    log.map Prod.fst = calls ∧
    (∀ k (bound : k < log.length), log[k].2.accepted = true ↔ ∀ j (earlier : j ≤ k),
      (acceptedFrom (log.take k) j + 1 : ℚ) ≤ capacity + rate * (log[k].1.time - log[j].1.time)) ∧
    (∀ k, 0 ≤ (c.afterCalls (calls.take k)).tokens ∧ (c.afterCalls (calls.take k)).tokens ≤ capacity) ∧
    (∀ a d, 0 ≤ d → (acceptedWithin log a d : ℚ) ≤ capacity + rate * d) ∧
    (∀ k (bound : k < log.length), log[k].2.accepted = false → ∃ a d, 0 ≤ d ∧
      within a d log[k].1.time = true ∧ capacity + rate * d < acceptedWithin (log.take k) a d + 1) := by
  intro c capacity log
  obtain ⟨started, ordered⟩ := List.pairwise_cons.mp clock
  have run : ReachRateCheck c calls :=
    ⟨positive, reach, fun call member => started _ (List.mem_map_of_mem member), List.pairwise_map.mp ordered⟩
  have full : c.tokens = c.capacity := rfl
  have room : 1 ≤ c.capacity := bucketCapacity_pos rate burst positive
  have roomRat : (0 : ℚ) ≤ c.capacity := by exact_mod_cast (by omega : 0 ≤ c.capacity)
  have exact := run.accepted_iff full room
  refine ⟨c.serve_calls calls, exact, fun k => (run.take k).tokens_bounds full (by omega), ?_, ?_⟩
  · intro a d length
    have amounts : ∀ entry ∈ history log, 0 ≤ entry.2 := by
      intro entry member
      obtain ⟨served, -, rfl⟩ := List.mem_map.mp member
      dsimp only
      split <;> norm_num
    have spent := c.bucket.window_spent_le full positive.le roomRat (history log) run.history_started
      amounts (run.covers full (by omega)) a d length
    rw [window_history] at spent
    rw [mul_comm]
    exact spent
  · intro k bound rejected
    have refused : ¬ log[k].2.accepted = true := by simp [rejected]
    rw [exact k bound] at refused
    push Not at refused
    obtain ⟨j, earlier, exceeds⟩ := refused
    have inWindow : (acceptedFrom (log.take k) j : ℚ) ≤
        acceptedWithin (log.take k) log[j].1.time (log[k].1.time - log[j].1.time) := by
      exact_mod_cast run.acceptedFrom_le_within k j bound earlier
    have order : log[j].1.time ≤ log[k].1.time := run.time_le j k bound earlier
    refine ⟨log[j].1.time, log[k].1.time - log[j].1.time, by linarith, ?_, ?_⟩
    · simp [within, order]
    · calc capacity + rate * (log[k].1.time - log[j].1.time)
          < acceptedFrom (log.take k) j + 1 := exceeds
        _ ≤ acceptedWithin (log.take k) log[j].1.time (log[k].1.time - log[j].1.time) + 1 := by
          linarith

theorem rate_limit_exact_burst :
    let c := create 2 2 2 0
    let log := c.serve [⟨0, 0⟩, ⟨1, 0⟩, ⟨1, 0⟩, ⟨0, 1/2⟩]
    log.map (fun entry => entry.2.accepted) = [true, true, false, true] ∧
      (acceptedWithin log 0 (1/2) : ℚ) ≤ bucketCapacity 2 2 + 2 * (1/2) :=
  ⟨by decide +kernel,
    (rate_limit_exact 2 2 2 0 (by norm_num) [⟨0, 0⟩, ⟨1, 0⟩, ⟨1, 0⟩, ⟨0, 1/2⟩]
      (by decide +kernel) (by decide +kernel)).2.2.2.1 0 (1/2) (by norm_num)⟩

end LLMRuntime.AdmissionController
