import LLMRuntime.Api.Traffic
import LLMRuntime.Core.RateLimit

namespace LLMRuntime

namespace Services

/-- What accepted traffic can tell of the shared services: not the rejection counters and not the log. -/
def visible (s : Services) : Services :=
  { s with metrics := s.metrics.withoutRejections, log := [], counted := s.counted }

variable (clock : Clock) (s : Services) (request : RuntimeRequest)

@[simp] theorem visible_idem : s.visible.visible = s.visible := rfl

@[simp] theorem visible_emit (event : LogEvent) : (s.emit event).visible = s.visible := rfl

@[simp] theorem visible_rewind : s.rewind.visible = s.visible.rewind := rfl

@[simp] theorem perfCounter_visible_fst : (s.visible.perfCounter clock).1 = (s.perfCounter clock).1 := rfl

@[simp] theorem visible_perfCounter :
    (s.perfCounter clock).2.visible = (s.visible.perfCounter clock).2 := rfl

@[simp] theorem visible_recordRequest : s.recordRequest.visible = s.visible.recordRequest := rfl

@[simp] theorem visible_recordRejection (priority : Int) (reason : String) :
    (s.recordRejection priority reason).visible = s.visible := rfl

@[simp] theorem visible_raiseInvalidState : s.raiseInvalidState.visible = s.visible.raiseInvalidState := rfl

@[simp] theorem visible_recordSuccess (n : Nat) :
    (s.recordSuccess request n).visible = s.visible.recordSuccess request n := by
  simp only [visible, recordSuccess, MetricsCollector.recordSuccess_withoutRejections]

@[simp] theorem recordFailure_visible_fst :
    (s.visible.recordFailure clock request).1 = (s.recordFailure clock request).1 := rfl

@[simp] theorem visible_recordFailure :
    (s.recordFailure clock request).2.visible = (s.visible.recordFailure clock request).2 := by
  simp only [visible, recordFailure, perfCounter, MetricsCollector.recordFailure_withoutRejections]

end Services

section Congruence

variable (clock : Clock) (s : Services)

def ItemResult.visible (r : ItemResult) : ItemResult := { r with services := r.services.visible }

theorem completeItem_visible (item : ScheduledRequest) (tokens : List String) (batchStart : ℚ) :
    (completeItem clock s.visible item tokens batchStart).visible =
      (completeItem clock s item tokens batchStart).visible := by
  unfold completeItem
  split
  · rfl
  · cases item.handle with
    | completion handle =>
      dsimp only
      split
      · simp [ItemResult.visible, recordCompletion]
      · rw [RuntimeRequest.markCompleted_requestId, RuntimeRequest.markCompleted_requestId]
        cases handle.future.setResult { requestId := item.request.requestId, tokens } with
        | ok future => simp [ItemResult.visible, recordCompletion]
        | error error => simp [ItemResult.visible]
    | streaming handle =>
      dsimp only
      split <;> simp [ItemResult.visible, recordCompletion]

theorem failItem_visible (item : ScheduledRequest) (exc : PyException) :
    (failItem clock s.visible item exc).visible = (failItem clock s item exc).visible := by
  unfold failItem
  split
  · rfl
  · cases item.handle with
    | completion handle =>
      dsimp only
      split
      · simp [ItemResult.visible]
      · split <;> simp [ItemResult.visible]
    | streaming handle => simp [ItemResult.visible]

theorem failItem_congr {s t : Services} (same : s.visible = t.visible) (item : ScheduledRequest)
    (exc : PyException) : (failItem clock s item exc).visible = (failItem clock t item exc).visible := by
  rw [← failItem_visible clock s, same, failItem_visible]

theorem deliverToken_visible (item : ScheduledRequest) (token : String) :
    (deliverToken clock s.visible item token).visible = (deliverToken clock s item token).visible := by
  unfold deliverToken
  cases item.handle <;> cases item.request.firstTokenAt <;> simp [ItemResult.visible]

variable (r : Accepted)

/-- The outcome of an action, as far as accepted traffic can tell. -/
def seen (outcome : Option (Services × Accepted)) : Option (Services × Accepted) :=
  outcome.map (Prod.map Services.visible id)

theorem resumeHandler_visible (requestTimeoutS : ℚ) (model : String) (point : HandlerPoint)
    (request : RuntimeRequest) (handle : CompletionHandle) :
    (resumeHandler clock requestTimeoutS model point s.visible request handle).map
        (fun result => (result.services.visible, result.item, result.reply)) =
      (resumeHandler clock requestTimeoutS model point s request handle).map
        fun result => (result.services.visible, result.item, result.reply) := by
  unfold resumeHandler
  cases point with
  | submitting => rfl
  | responded reply => rfl
  | signalled t0 signal => cases signal <;> simp [timeoutBranch, disconnectBranch, giveUp]
  | waiting t0 =>
    cases handle.future with
    | pending => rfl
    | result result => simp [successBranch]
    | cancelled => simp [disconnectBranch, giveUp]
    | exception exc =>
      dsimp only
      split <;> simp [timeoutBranch, errorBranch, giveUp]

theorem moveStream_visible
    (move : ChatStream → StreamingHandle → Option (Bool × ChatStream × StreamingHandle)) :
    seen (r.moveStream clock s.visible move) = seen (r.moveStream clock s move) := by
  have after (moved : Bool × ChatStream × StreamingHandle) :
      Prod.map Services.visible id (r.afterStream clock s.visible moved) =
        Prod.map Services.visible id (r.afterStream clock s moved) := by
    unfold Accepted.afterStream
    cases moved.1 <;> simp [cancelStream]
  unfold Accepted.moveStream seen
  split
  · rfl
  · rw [Option.map_map, Option.map_map]
    exact congrArg (fun f => Option.map f _) (funext after)
  · rfl

theorem act_visible (requestTimeoutS : ℚ) (action : InFlightAction) :
    seen (InFlight.act clock requestTimeoutS s.visible r action) =
      seen (InFlight.act clock requestTimeoutS s r action) := by
  cases action with
  | arrive requestId body admission => rfl
  | enqueue requestId =>
    simp only [InFlight.act, Accepted.enqueue, seen]
    split
    · cases r.caller with
      | handler model point =>
        simp only [Option.map_some, Prod.map, Services.visible_perfCounter, Services.visible_emit]
        rfl
      | stream generator => simp
    · rfl
  | deliver requestId signal =>
    simp only [InFlight.act, Accepted.deliver, seen]
    split <;> rfl
  | resume requestId =>
    simp only [InFlight.act, Accepted.resume, seen]
    split
    · next model point handle caller shape =>
      have same := congrArg (Option.map fun result =>
        (result.1, ({ r with item := result.2.1, caller := .handler model (.responded result.2.2) } : Accepted)))
          (resumeHandler_visible clock s requestTimeoutS model point r.item.request handle)
      simpa [Option.map_map, Function.comp_def] using same
    · rfl
  | advance requestId => exact moveStream_visible clock s r _
  | close requestId => exact moveStream_visible clock s r _
  | startBatch requestId =>
    simp only [InFlight.act, Accepted.startBatch, seen]
    split
    · split
      · next dropped =>
        rw [if_pos (by exact dropped)]
        rfl
      · next kept =>
        rw [if_neg (by exact kept)]
        rfl
    · rfl
  | generate requestId token =>
    simp only [InFlight.act, Accepted.generate, seen]
    split
    · split
      · rfl
      · have same := deliverToken_visible clock s r.item token
        simp only [ItemResult.visible, ItemResult.mk.injEq] at same
        simp [same]
    · rfl
  | complete requestId =>
    simp only [InFlight.act, Accepted.complete, seen]
    split
    · next tokens batchStart running =>
      have same := completeItem_visible clock s r.item tokens batchStart
      generalize completeItem clock s.visible r.item tokens batchStart = first at same ⊢
      generalize completeItem clock s r.item tokens batchStart = second at same ⊢
      obtain ⟨item, services, raised⟩ := first
      obtain ⟨item', services', raised'⟩ := second
      simp only [ItemResult.visible, ItemResult.mk.injEq] at same
      obtain ⟨rfl, same, rfl⟩ := same
      cases raised with
      | none => simp [same]
      | some error =>
        have failed := failItem_congr clock same item error
        simp only [ItemResult.visible, ItemResult.mk.injEq] at failed
        simp [failed]
    · rfl
  | fail requestId exc =>
    simp only [InFlight.act, Accepted.fail, seen]
    split
    · have same := failItem_visible clock s r.item exc
      simp only [ItemResult.visible, ItemResult.mk.injEq] at same
      simp [same]
    · rfl

end Congruence

namespace InFlight

variable {clock : Clock} {requestTimeoutS : ℚ} {s t u : InFlight}

/-- The two hold the same accepted requests and show them the same services. -/
structure Alike (s u : InFlight) : Prop where
  accepted : u.accepted = s.accepted
  requests : u.requests = s.requests
  services : u.services.visible = s.services.visible

theorem Alike.trans {w : InFlight} (first : s.Alike u) (second : u.Alike w) : s.Alike w where
  accepted := second.accepted.trans first.accepted
  requests := second.requests.trans first.requests
  services := second.services.trans first.services

theorem Alike.rewind (alike : s.Alike u) : s.rewind.Alike u.rewind where
  accepted := alike.accepted
  requests := alike.requests
  services := congrArg Services.rewind alike.services

theorem receiveRequest_visible (clock : Clock) {first second : Services} (same : second.visible = first.visible)
    (body : ChatCompletionRequest) (requestId : String) (admission : AdmissionDecision) :
    (receiveRequest clock second body requestId admission).2 =
        (receiveRequest clock first body requestId admission).2 ∧
      (receiveRequest clock second body requestId admission).1.visible =
        (receiveRequest clock first body requestId admission).1.visible := by
  have reading : (second.perfCounter clock).1 = (first.perfCounter clock).1 := by
    rw [← Services.perfCounter_visible_fst, same, Services.perfCounter_visible_fst]
  unfold receiveRequest
  cases admission.accepted <;> simp [same, reading]

theorem act_alike {first second services : Services} (same : second.visible = first.visible)
    {action : InFlightAction} {r r' : Accepted}
    (acted : act clock requestTimeoutS first r action = some (services, r')) :
    ∃ services', act clock requestTimeoutS second r action = some (services', r') ∧
      services'.visible = services.visible := by
  have outcome : seen (act clock requestTimeoutS second r action) =
      seen (act clock requestTimeoutS first r action) := by
    rw [← act_visible, same, act_visible]
  rw [acted] at outcome
  obtain ⟨⟨services', moved⟩, found, shown⟩ := Option.map_eq_some_iff.mp outcome
  obtain ⟨sameServices, rfl⟩ := Prod.mk.inj shown
  exact ⟨services', found, sameServices⟩

theorem Alike.arrive {requestId : String} {body : ChatCompletionRequest} {admission : AdmissionDecision}
    (alike : s.Alike u) (taken : s.step clock requestTimeoutS (.arrive requestId body admission) = some t) :
    ∃ v, u.step clock requestTimeoutS (.arrive requestId body admission) = some v ∧ t.Alike v := by
  obtain ⟨outcome, shown⟩ := receiveRequest_visible clock alike.services body requestId admission
  simp only [InFlight.step, alike.accepted] at taken ⊢
  split at taken
  · cases taken
  · next fresh =>
    rw [if_neg fresh]
    generalize receiveRequest clock s.services body requestId admission = first at outcome shown taken
    generalize receiveRequest clock u.services body requestId admission = second at outcome shown ⊢
    obtain ⟨services, result⟩ := first
    obtain ⟨services', result'⟩ := second
    cases outcome
    cases result with
    | error reply =>
      cases taken
      exact ⟨_, rfl, rfl, alike.requests, shown⟩
    | ok item =>
      cases taken
      exact ⟨_, rfl, rfl, by rw [alike.requests], shown⟩

theorem Alike.step {action : InFlightAction} (alike : s.Alike u)
    (taken : s.step clock requestTimeoutS action = some t) :
    ∃ v, u.step clock requestTimeoutS action = some v ∧ t.Alike v := by
  cases arrival : action.isArrival with
  | true =>
    cases action with
    | arrive requestId body admission => exact alike.arrive taken
    | _ => cases arrival
  | false =>
    rcases step_cases taken with ⟨requestId, body, admission, services, reply, rfl, -, -⟩ |
      ⟨requestId, body, admission, services, item, rfl, -, -, -⟩ | ⟨r, services, r', found, acted, rfl⟩
    · cases arrival
    · cases arrival
    · obtain ⟨services', acted', sameServices⟩ := act_alike alike.services acted
      refine ⟨_, step_of_act (by rw [alike.requests]; exact found) acted', alike.accepted, ?_, sameServices⟩
      rw [alike.requests]

theorem rejected_alike {requestId : String} {body : ChatCompletionRequest} {admission : AdmissionDecision}
    (rejected : admission.accepted = false)
    (taken : s.step clock requestTimeoutS (.arrive requestId body admission) = some t) :
    t.rewind.Alike s.rewind := by
  simp only [InFlight.step, receiveRequest, rejected] at taken
  split at taken
  · cases taken
  · cases taken
    exact ⟨rfl, rfl, rfl⟩

end InFlight

namespace Traffic

open Transition

variable {n : Nat} {σ α : Type} {system : SchedulerSystem n σ α} {requestTimeoutS : ℚ} {s t u : Traffic σ}
  {action : TrafficAction n α}

/-- The two states serve every later step alike: only rejections, the log and refills tell them apart. -/
structure Alike (s u : Traffic σ) : Prop where
  admission : s.admission.AgreesFrom u.admission
  inFlight : s.inFlight.rewind.Alike u.inFlight.rewind
  scheduler : u.scheduler = s.scheduler

/-- An arrival does not come before the last refill. -/
def Timely (s : Traffic σ) (action : TrafficAction n α) : Prop :=
  ∀ now, action.arrivalTime? = some now → s.admission.lastRefillAt ≤ now

theorem Alike.decision (alike : s.Alike u) (timely : s.Timely action) :
    u.decision system action = s.decision system action := by
  cases action with
  | arrive clock requestId body now wakes =>
    simp only [Traffic.decision, admits, alike.scheduler, alike.admission.decision (timely now rfl)]
  | serve clock action => rfl
  | schedule action => rfl

theorem Alike.rejected (alike : s.Alike u) (timely : s.Timely action) (rejected : s.rejects system action = true)
    (taken : s.step system requestTimeoutS action = some t) : t.Alike u := by
  cases action with
  | arrive clock requestId body now wakes =>
    have refused : (s.admits system now).1.accepted = false := by simpa [rejects, Traffic.decision] using rejected
    obtain ⟨inFlight, arrived, rest⟩ := Option.bind_eq_some_iff.mp taken
    rw [if_neg (by rw [refused]; exact Bool.false_ne_true)] at rest
    cases rest
    have unchanged := InFlight.rejected_alike refused arrived
    exact ⟨alike.admission.rejected (timely now rfl) refused, unchanged.trans alike.inFlight, alike.scheduler⟩
  | serve clock action => cases rejected
  | schedule action => cases rejected

theorem Alike.step (alike : s.Alike u) (timely : s.Timely action) (kept : s.rejects system action = false)
    (taken : s.step system requestTimeoutS action = some t) :
    ∃ v, u.step system requestTimeoutS action = some v ∧ t.Alike v := by
  cases action with
  | arrive clock requestId body now wakes =>
    have accepted : (s.admits system now).1.accepted = true := by simpa [rejects, Traffic.decision] using kept
    have answer : (u.admits system now).1 = (s.admits system now).1 := by
      simp only [admits, alike.scheduler, alike.admission.decision (timely now rfl)]
    obtain ⟨inFlight, arrived, rest⟩ := Option.bind_eq_some_iff.mp taken
    obtain ⟨inFlight', arrived', same⟩ := alike.inFlight.step arrived
    rw [if_pos accepted] at rest
    obtain ⟨scheduler, submitted, rfl⟩ := Option.map_eq_some_iff.mp rest
    refine ⟨{ admission := (u.admits system now).2, inFlight := inFlight', scheduler }, ?_, ?_, same.rewind, rfl⟩
    · simp only [Traffic.step, answer, arrived', Option.bind_some, accepted, if_true, alike.scheduler, submitted,
        Option.map_some]
    · have agree := alike.admission.accepted (timely now rfl) accepted
      simpa only [admits, alike.scheduler] using agree
  | serve clock action =>
    simp only [Traffic.step] at taken ⊢
    split at taken
    · cases taken
    · next other =>
      obtain ⟨inFlight, moved, rfl⟩ := Option.map_eq_some_iff.mp taken
      obtain ⟨inFlight', moved', same⟩ := alike.inFlight.step moved
      rw [if_neg other, moved']
      exact ⟨_, rfl, alike.admission, same.rewind, alike.scheduler⟩
  | schedule action =>
    simp only [Traffic.step] at taken ⊢
    split at taken
    · cases taken
    · next other =>
      obtain ⟨scheduler, moved, rfl⟩ := Option.map_eq_some_iff.mp taken
      rw [if_neg other, alike.scheduler, moved]
      exact ⟨_, rfl, alike.admission, alike.inFlight, rfl⟩

theorem step_lastRefillAt (taken : s.step system requestTimeoutS action = some t) :
    t.admission.lastRefillAt = s.admission.lastRefillAt ∨ action.arrivalTime? = some t.admission.lastRefillAt := by
  cases action with
  | arrive clock requestId body now wakes =>
    have refilled : t.admission = (s.admits system now).2 := by
      obtain ⟨inFlight, -, rest⟩ := Option.bind_eq_some_iff.mp taken
      split at rest
      · obtain ⟨scheduler, -, rfl⟩ := Option.map_eq_some_iff.mp rest
        rfl
      · cases rest
        rfl
    rw [refilled]
    rcases s.admission.admitRequest_lastRefillAt (system.size s.scheduler) now with same | moved
    · exact .inl same
    · exact .inr (congrArg some moved.symm)
  | serve clock action =>
    simp only [Traffic.step] at taken
    split at taken
    · cases taken
    · obtain ⟨inFlight, -, rfl⟩ := Option.map_eq_some_iff.mp taken
      exact .inl rfl
  | schedule action =>
    simp only [Traffic.step] at taken
    split at taken
    · cases taken
    · obtain ⟨scheduler, -, rfl⟩ := Option.map_eq_some_iff.mp taken
      exact .inl rfl

/-- Under monotone arrival times no arrival comes before a refill that the run has made. -/
theorem guarded_timely {acts : List (TrafficAction n α)}
    (ordered : (acts.filterMap TrafficAction.arrivalTime?).Pairwise (· ≤ ·))
    (started : ∀ now ∈ acts.filterMap TrafficAction.arrivalTime?, s.admission.lastRefillAt ≤ now) :
    Guarded (Traffic.step system requestTimeoutS) Timely s acts := by
  induction acts generalizing s with
  | nil => exact True.intro
  | cons action acts ih =>
    intro t taken
    have timely : s.Timely action := by
      intro now arrives
      exact started now (by simp [arrives])
    have orderedRest : (acts.filterMap TrafficAction.arrivalTime?).Pairwise (· ≤ ·) :=
      ordered.sublist ((List.sublist_cons_self action acts).filterMap _)
    refine ⟨timely, ih orderedRest fun now later => ?_⟩
    have startedRest := started now (by
      obtain ⟨other, member, arrives⟩ := List.mem_filterMap.mp later
      exact List.mem_filterMap.mpr ⟨other, List.mem_cons_of_mem _ member, arrives⟩)
    rcases step_lastRefillAt taken with same | refilled
    · rw [same]
      exact startedRest
    · rw [List.filterMap_cons_some refilled] at ordered
      exact List.rel_of_pairwise_cons ordered later

theorem decisions_accepted (acts : List (TrafficAction n α)) :
    observe (Traffic.step system requestTimeoutS)
        (fun s a => if Traffic.rejects system s a then none else Traffic.decision system s a) s acts =
      (s.decisions system requestTimeoutS acts).filter (·.2.accepted) := by
  unfold decisions
  induction acts generalizing s with
  | nil => rfl
  | cons action acts ih =>
    simp only [observe]
    cases s.step system requestTimeoutS action with
    | none => rfl
    | some t =>
      dsimp only
      rw [ih, List.filter_append, rejects]
      refine congrArg (· ++ _) ?_
      cases s.decision system action with
      | none => rfl
      | some answer => cases accepted : answer.2.accepted <;> simp [accepted]

/-- Deleting the rejected arrivals from a run changes no other decision and nothing that accepted traffic
    can tell; from the last refill on the two runs hold the same budget. -/
theorem rejections_leave_no_trace (system : SchedulerSystem n σ α) (requestTimeoutS : ℚ) {s t : Traffic σ}
    {acts : List (TrafficAction n α)}
    (ordered : (acts.filterMap TrafficAction.arrivalTime?).Pairwise (· ≤ ·))
    (started : ∀ now ∈ acts.filterMap TrafficAction.arrivalTime?, s.admission.lastRefillAt ≤ now)
    (run : exec (Traffic.step system requestTimeoutS) s acts = some t) :
    ∃ u, exec (Traffic.step system requestTimeoutS) s (s.withoutRejected system requestTimeoutS acts) = some u ∧
      s.decisions system requestTimeoutS (s.withoutRejected system requestTimeoutS acts) =
        (s.decisions system requestTimeoutS acts).filter (·.2.accepted) ∧
      u.scheduler = t.scheduler ∧
      u.inFlight.accepted = t.inFlight.accepted ∧
      u.inFlight.requests = t.inFlight.requests ∧
      u.inFlight.services.metrics.withoutRejections = t.inFlight.services.metrics.withoutRejections ∧
      u.inFlight.services.terminal = t.inFlight.services.terminal ∧
      ∀ later, t.admission.lastRefillAt ≤ later →
        u.admission.refillLocked later = t.admission.refillLocked later := by
  obtain ⟨u, done, alike, shown⟩ := exec_purge (Traffic.rejects system) (Traffic.decision system) Alike Timely
    (fun _ _ _ _ alike timely rejected taken => alike.rejected timely rejected taken)
    (fun _ _ _ _ alike timely kept taken => ⟨alike.decision timely, alike.step timely kept taken⟩)
    ⟨.refl _, ⟨rfl, rfl, rfl⟩, rfl⟩ (guarded_timely ordered started) run
  rw [decisions_accepted] at shown
  have services := alike.inFlight.services
  have metrics := congrArg Services.metrics services
  have terminal := congrArg Services.terminal services
  exact ⟨u, done, shown, alike.scheduler, alike.inFlight.accepted, alike.inFlight.requests, metrics, terminal,
    alike.admission⟩

/-- Two accepted arrivals, one turned away for its rate, and one for the full queue. -/
def mixedArrivals : List (TrafficAction 1 (FifoAction 1)) :=
  [("a", 0), ("b", 1 / 2), ("c", 1), ("d", 2)].map fun (requestId, now) =>
    .arrive ⟨fun _ => now, monotone_const⟩ requestId { messages := [] } now none

theorem rejections_leave_no_trace_mixed :
    let system := fifoSystem 1 .py311 ⟨fun _ => 0, monotone_const⟩
    let s : Traffic (FifoState 1) := { admission := .create 2 1 1 0, inFlight := .start, scheduler := {} }
    ∃ t u, exec (Traffic.step system 30) s mixedArrivals = some t ∧
      exec (Traffic.step system 30) s (s.withoutRejected system 30 mixedArrivals) = some u ∧
      s.decisions system 30 (s.withoutRejected system 30 mixedArrivals) =
        (s.decisions system 30 mixedArrivals).filter (·.2.accepted) ∧
      u.scheduler = t.scheduler ∧
      u.inFlight.services.metrics.withoutRejections = t.inFlight.services.metrics.withoutRejections ∧
      t.inFlight.services.metrics.rejectionsByReason = [("rate_limited", 1), ("queue_full", 1)] := by
  intro system s
  have done : (exec (Traffic.step system 30) s mixedArrivals).map
      (fun t => t.inFlight.services.metrics.rejectionsByReason) =
        some [("rate_limited", 1), ("queue_full", 1)] := by
    decide +kernel
  obtain ⟨t, run, reasons⟩ := Option.map_eq_some_iff.mp done
  have ordered : (mixedArrivals.filterMap TrafficAction.arrivalTime?).Pairwise (· ≤ ·) := by decide +kernel
  have started : ∀ now ∈ mixedArrivals.filterMap TrafficAction.arrivalTime?, s.admission.lastRefillAt ≤ now := by
    decide +kernel
  obtain ⟨u, purged, decided, scheduler, -, -, metrics, -, -⟩ :=
    rejections_leave_no_trace system 30 ordered started run
  exact ⟨t, u, run, purged, decided, scheduler, metrics, reasons⟩

end Traffic

end LLMRuntime
