import LLMRuntime.Api.Timeline

namespace LLMRuntime

open Chronicle Transition

theorem receiveRequest_arrival (clock : Clock) (s : Services) (body : ChatCompletionRequest) (requestId : String)
    (admission : AdmissionDecision) :
    (receiveRequest clock s body requestId admission).1.ticks = s.ticks + 1 ∧
    (receiveRequest clock s body requestId admission).1.terminal = s.terminal ∧
    (∀ metric : LatencyMetric,
      metric.times (receiveRequest clock s body requestId admission).1.metrics = metric.times s.metrics) ∧
    ∀ item, (receiveRequest clock s body requestId admission).2 = .ok item →
      item.request = .fromChatRequest body requestId (clock.reading s.ticks) := by
  have requested (metric : LatencyMetric) : metric.times s.metrics.recordRequest = metric.times s.metrics := by
    cases metric <;> rfl
  have rejected (metric : LatencyMetric) :
      metric.times (s.metrics.recordRejection body.priority admission.reason) = metric.times s.metrics := by
    cases metric <;> rfl
  unfold receiveRequest
  cases admission.accepted with
  | true =>
    refine ⟨rfl, rfl, requested, fun item accepted => ?_⟩
    cases accepted
    rfl
  | false =>
    refine ⟨rfl, rfl, rejected, fun item accepted => ?_⟩
    cases accepted

namespace InFlight

variable {clock : Clock} {requestTimeoutS : ℚ} {st t : InFlight} {past : List TimelineAction}
  {action : TimelineAction}

/-- Nothing is recorded, or the request that moves is recorded once, with its stamps in order. -/
def RecordsInOrder (past : List TimelineAction) (action : TimelineAction) (st t : InFlight) : Prop :=
  (t.services.terminal = st.services.terminal ∧
    ∀ metric : LatencyMetric, metric.times t.services.metrics = metric.times st.services.metrics) ∨
  ∃ r, t.requests action.requestId = some r ∧ r.item.request.requestId = action.requestId ∧
    st.services.Calls t.services r.item.request ∧
    (∀ metric : LatencyMetric, metric.times t.services.metrics =
      metric.times st.services.metrics ++ (metric.sample r.item.request).toList) ∧
    r.item.request.timeline.Pairwise (· ≤ ·) ∧ LatencyMetric.InOrder r.item.request ∧
    (LatencyMetric.queueWait.sample r.item.request ≠ none →
      .act (.startBatch action.requestId) ∈ past ++ [action])

structure Chronicled (clock : Clock) (past : List TimelineAction) (st : InFlight) : Prop where
  named : ∀ id r, st.requests id = some r → r.item.request.requestId = id
  timely : ∀ id r, st.requests id = some r → r.Timely clock st.services
  handedOut : ∀ id r, st.requests id = some r → r.worker.handedOut = true → .act (.startBatch id) ∈ past
  nonneg : ∀ metric : LatencyMetric, ∀ x ∈ metric.times st.services.metrics, 0 ≤ x

theorem start_chronicled : start.Chronicled clock [] where
  named := by
    intro id r found
    cases found
  timely := by
    intro id r found
    cases found
  handedOut := by
    intro id r found
    cases found
  nonneg := by
    intro metric x member
    have none : metric.times start.services.metrics = [] := by cases metric <;> rfl
    rw [none] at member
    cases member

theorem timelineStep_cases (taken : st.timelineStep clock requestTimeoutS action = some t) :
    (∃ requestId body admission, action = .act (.arrive requestId body admission) ∧
      t.services = (receiveRequest clock st.services body requestId admission).1 ∧
      (t.requests = st.requests ∨ ∃ item caller,
        (receiveRequest clock st.services body requestId admission).2 = .ok item ∧
        t.requests = Function.update st.requests requestId (some { item, caller, worker := .absent }))) ∨
    ∃ r r', st.requests action.requestId = some r ∧
      t.requests = Function.update st.requests action.requestId (some r') ∧
      ((∀ k, 0 < clock.reading k) → r.Timely clock st.services → Accepted.Moved clock st.services r t.services r') ∧
      (r'.worker.handedOut = true → r.worker.handedOut = true ∨ action = .act (.startBatch action.requestId)) := by
  cases action with
  | stamp requestId =>
    obtain ⟨r, services, r', found, stamped, rfl⟩ := moveRequest_some taken
    refine .inr ⟨r, r', found, rfl, fun _ timely => timely.stamp stamped, fun out => ?_⟩
    rw [Accepted.stamp_worker stamped] at out
    exact .inl out
  | append requestId =>
    obtain ⟨r, services, r', found, appended, rfl⟩ := moveRequest_some taken
    refine .inr ⟨r, r', found, rfl, fun _ timely => timely.append appended, fun out => ?_⟩
    rw [Accepted.append_handedOut appended] at out
    cases out
  | act action =>
    simp only [timelineStep] at taken
    split at taken
    · cases taken
    · next direct =>
      rcases step_cases taken with ⟨requestId, body, admission, services, reply, rfl, received, rfl⟩ |
        ⟨requestId, body, admission, services, item, rfl, fresh, received, rfl⟩ |
        ⟨r, services, r', found, acted, rfl⟩
      · exact .inl ⟨requestId, body, admission, rfl, by rw [received], .inl rfl⟩
      · exact .inl ⟨requestId, body, admission, rfl, by rw [received], .inr ⟨item, _, by rw [received], rfl⟩⟩
      · have other : action.submits = false := by simpa using direct
        refine .inr ⟨r, r', found, rfl, fun positive timely => timely.act positive other acted, fun out => ?_⟩
        rcases Accepted.act_handedOut other acted out with before | now
        · exact .inl before
        · exact .inr (congrArg TimelineAction.act now)

theorem Chronicled.step (positive : ∀ k, 0 < clock.reading k) (chronicled : st.Chronicled clock past)
    (taken : st.timelineStep clock requestTimeoutS action = some t) :
    t.Chronicled clock (past ++ [action]) ∧ RecordsInOrder past action st t := by
  have earlier {id : String} (member : .act (.startBatch id) ∈ past) : .act (.startBatch id) ∈ past ++ [action] :=
    List.mem_append_left _ member
  rcases timelineStep_cases taken with ⟨requestId, body, admission, rfl, services, requests⟩ |
    ⟨r, r', found, requests, moves, hands⟩
  · obtain ⟨ticks, terminal, times, accepted⟩ := receiveRequest_arrival clock st.services body requestId admission
    rw [← services] at ticks terminal times
    have later : st.services.ticks ≤ t.services.ticks := by omega
    refine ⟨?_, .inl ⟨terminal, times⟩⟩
    have nonneg : ∀ metric : LatencyMetric, ∀ x ∈ metric.times t.services.metrics, 0 ≤ x := by
      intro metric x member
      rw [times] at member
      exact chronicled.nonneg metric x member
    have others (id : String) (r : Accepted) (found : st.requests id = some r) : r.Timely clock t.services :=
      (chronicled.timely id r found).later later
    have out (id : String) (r : Accepted) (found : st.requests id = some r) (handed : r.worker.handedOut = true) :=
      earlier (chronicled.handedOut id r found handed)
    rcases requests with same | ⟨item, caller, received, same⟩
    · exact ⟨by rw [same]; exact chronicled.named, by rw [same]; exact others, by rw [same]; exact out, nonneg⟩
    · have request := accepted item received
      have fresh : Accepted.Timely clock t.services { item, caller, worker := .absent } := by
        constructor
        · show Taken clock.reading t.services.ticks item.request.stamps
          rw [ticks, request]
          exact .single _
        · show Accepted.Unstamped item.request .absent
          rw [request]
          exact ⟨rfl, rfl, rfl⟩
      have own : item.request.requestId = requestId := by
        rw [request]
        rfl
      refine ⟨?_, ?_, ?_, nonneg⟩
      · rw [same]
        exact forall_update_some own fun id r _ => chronicled.named id r
      · rw [same]
        exact forall_update_some fresh fun id r _ => others id r
      · rw [same]
        exact forall_update_some nofun fun id r _ => out id r
  · have timely := chronicled.timely _ r found
    have moved := moves positive timely
    have named : r'.item.request.requestId = action.requestId := moved.named.trans (chronicled.named _ r found)
    have handedOut (out : r'.worker.handedOut = true) : .act (.startBatch action.requestId) ∈ past ++ [action] := by
      rcases hands out with before | now
      · exact earlier (chronicled.handedOut _ r found before)
      · rw [← now]
        exact List.mem_append_right _ (List.mem_singleton_self action)
    have records : RecordsInOrder past action st t := by
      rcases moved.recorded with ⟨terminal, metrics⟩ | ⟨calls, ordered⟩
      · exact .inl ⟨terminal, fun metric => by rw [metrics]⟩
      · right
        refine ⟨r', by rw [requests, Function.update_self], named, calls, calls.times, ordered,
          LatencyMetric.inOrder_of_timeline ordered, fun sampled => ?_⟩
        obtain ⟨x, sample⟩ := Option.ne_none_iff_exists'.mp sampled
        obtain ⟨enqueued, started, -, isStarted, -⟩ := LatencyMetric.queueWait_sample sample
        apply handedOut
        by_contra waiting
        rw [moved.timely.started (Bool.eq_false_of_not_eq_true waiting)] at isStarted
        cases isStarted
    refine ⟨⟨?_, ?_, ?_, ?_⟩, records⟩
    · rw [requests]
      exact forall_update_some named fun id r _ => chronicled.named id r
    · rw [requests]
      exact forall_update_some moved.timely fun id r _ found => (chronicled.timely id r found).later moved.later
    · rw [requests]
      exact forall_update_some handedOut fun id r _ found out => earlier (chronicled.handedOut id r found out)
    · intro metric x member
      rcases records with ⟨-, times⟩ | ⟨r, -, -, -, times, -, inOrder, -⟩
      · rw [times] at member
        exact chronicled.nonneg metric x member
      · rw [times] at member
        rcases List.mem_append.mp member with before | new
        · exact chronicled.nonneg metric x before
        · exact inOrder.nonneg metric x (Option.mem_toList.mp new)

/-- In every run every record is made with the stamps in order, and every sample lies between zero and the
    total latency. -/
theorem stamps_in_order (clock : Clock) (positive : ∀ k, 0 < clock.reading k) (requestTimeoutS : ℚ)
    {past : List TimelineAction} {st : InFlight}
    (ran : exec (timelineStep clock requestTimeoutS) start past = some st) :
    (∀ metric : LatencyMetric, ∀ x ∈ metric.times st.services.metrics, 0 ≤ x) ∧
    ∀ action t, st.timelineStep clock requestTimeoutS action = some t → RecordsInOrder past action st t := by
  have chronicled : st.Chronicled clock past :=
    exec_history (fun _ _ _ _ now taken => (now.step positive taken).1) start_chronicled ran
  exact ⟨chronicled.nonneg, fun _ _ taken => (chronicled.step positive taken).2⟩

def risingClock : Clock where
  reading k := k + 1
  monotone := fun _ _ order => by simpa using order

/-- One request times out in the queue and is handed out nevertheless; another one is served after it. -/
def timedOutThenServed : List TimelineAction :=
  [.act (.arrive "late" { messages := [] } { accepted := true }), .stamp "late", .append "late",
    .act (.deliver "late" .timeout), .act (.resume "late"), .act (.startBatch "late"),
    .act (.arrive "served" { messages := [] } { accepted := true }), .stamp "served", .append "served",
    .act (.startBatch "served"), .act (.generate "served" "x")]

theorem stamps_in_order_served :
    ∃ st t, exec (timelineStep risingClock 30) start timedOutThenServed = some st ∧
      st.timelineStep risingClock 30 (.act (.complete "served")) = some t ∧
      t.services.metrics.queueWaitTimes = [2] ∧ t.services.metrics.totalLatencies = [3, 6] ∧
      RecordsInOrder timedOutThenServed (.act (.complete "served")) st t ∧
      ∀ metric : LatencyMetric, ∀ x ∈ metric.times st.services.metrics, 0 ≤ x := by
  have evaluated : (exec (timelineStep risingClock 30) start timedOutThenServed).bind (fun st =>
      (st.timelineStep risingClock 30 (.act (.complete "served"))).map fun t =>
        (t.services.metrics.queueWaitTimes, t.services.metrics.totalLatencies)) = some ([2], [3, 6]) := by
    decide +kernel
  obtain ⟨st, ran, stepped⟩ := Option.bind_eq_some_iff.mp evaluated
  obtain ⟨t, taken, seen⟩ := Option.map_eq_some_iff.mp stepped
  obtain ⟨waits, totals⟩ := Prod.mk.inj seen
  obtain ⟨nonneg, records⟩ := stamps_in_order risingClock (fun k => Nat.cast_add_one_pos k) 30 ran
  exact ⟨st, t, ran, taken, waits, totals, records _ t taken, nonneg⟩

end InFlight

end LLMRuntime
