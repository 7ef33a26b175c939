import LLMRuntime.Api.RequestPhases
import LLMRuntime.Foundation.Ledger

namespace LLMRuntime

open Transition

theorem tally_total (records : List Outcome) : (tally records).1 + (tally records).2.1 = records.length := by
  induction records with
  | nil => rfl
  | cons o records ih =>
    have split : tally (o :: records) = o.worth + tally records := by simp [tally]
    rw [split]
    cases o <;> simp [Outcome.worth] <;> omega

namespace Services

/-- The collector's counters are those of a ledger: opened by `record_request`, closed by a terminal record. -/
structure Keeps (s : Services) (l : Ledger String) : Prop where
  closed : s.terminal.map Prod.fst = l.closed
  requestCount : s.metrics.requestCount = l.opened.length
  activeRequests : s.metrics.activeRequests = l.opened.length - l.closed.length

variable {s t : Services} {l : Ledger String} {id : String}

theorem recordsOf_eq_nil_iff : s.recordsOf id = [] ↔ id ∉ s.terminal.map Prod.fst := by
  rw [recordsOf, List.map_eq_nil_iff, List.filter_eq_nil_iff]
  simp only [decide_eq_true_eq, List.mem_map, not_exists, not_and]

theorem Keeps.quiet (keeps : s.Keeps l) (recorded : s.Records t id []) : t.Keeps l where
  closed := by simp [recorded.terminal, keeps.closed]
  requestCount := recorded.requestCount.trans keeps.requestCount
  activeRequests := recorded.activeRequests.trans keeps.activeRequests

theorem Keeps.settle (keeps : s.Keeps l) {o : Outcome} (recorded : s.Records t id [o])
    (known : id ∈ l.opened) (unclosed : id ∉ l.closed) : t.Keeps (l.closeEntry id known unclosed) where
  closed := by simp [recorded.terminal, keeps.closed, Ledger.closeEntry]
  requestCount := recorded.requestCount.trans keeps.requestCount
  activeRequests := by
    have room := l.length_closed_lt known unclosed
    have active := recorded.activeRequests
    simp only [List.foldl_cons, List.foldl_nil, keeps.activeRequests] at active
    rw [active]
    simp only [Ledger.closeEntry, List.length_append, List.length_singleton]
    omega

theorem Keeps.accept (keeps : s.Keeps l) (fresh : id ∉ l.opened) (terminal : t.terminal = s.terminal)
    (requestCount : t.metrics.requestCount = s.metrics.requestCount + 1)
    (activeRequests : t.metrics.activeRequests = s.metrics.activeRequests + 1) :
    t.Keeps (l.openEntry id fresh) where
  closed := by rw [terminal, keeps.closed, Ledger.openEntry]
  requestCount := by
    rw [requestCount, keeps.requestCount]
    simp [Ledger.openEntry]
  activeRequests := by
    rw [activeRequests, keeps.activeRequests]
    simp [Ledger.openEntry]
    omega

theorem Keeps.active_length (keeps : s.Keeps l) :
    s.metrics.activeRequests = (l.opened.filter fun id => s.recordsOf id = []).length := by
  have sameFilter : (l.opened.filter fun id => s.recordsOf id = []) = l.active := by
    apply List.filter_congr
    intro id _
    simp only [recordsOf_eq_nil_iff, keeps.closed]
  have length := l.length_active
  rw [keeps.activeRequests, sameFilter]
  omega

theorem Keeps.balance (keeps : s.Keeps l) :
    s.metrics.requestCount = s.metrics.completedCount + s.metrics.failedCount + s.metrics.activeRequests := by
  have total := tally_total (s.terminal.map Prod.snd)
  rw [← s.counted] at total
  simp only [MetricsCollector.settled, List.length_map] at total
  have closed := congrArg List.length keeps.closed
  rw [List.length_map] at closed
  rw [keeps.requestCount, keeps.activeRequests, total, closed]
  omega

end Services

namespace InFlight

variable {clock : Clock} {requestTimeoutS : ℚ} {st t : InFlight} {action : InFlightAction}

structure Inv (st : InFlight) : Prop where
  ledger : ∃ l : Ledger String, l.opened = st.accepted ∧ st.services.Keeps l
  known : ∀ id, id ∈ st.accepted ↔ ∃ r, st.requests id = some r
  sound : ∀ id r, st.requests id = some r →
    r.item.request.requestId = id ∧ r.Sound (st.services.recordsOf id)

theorem start_inv : InFlight.start.Inv where
  ledger := ⟨.empty, rfl, rfl, rfl, rfl⟩
  known := by simp [start]
  sound := by
    intro id r found
    cases found

theorem receiveRequest_rejected {s services : Services} {body : ChatCompletionRequest} {requestId : String}
    {admission : AdmissionDecision} {reply : Reply}
    (received : receiveRequest clock s body requestId admission = (services, .error reply)) (id : String) :
    s.Records services id [] := by
  unfold receiveRequest at received
  dsimp only at received
  split at received
  · cases received
  · cases received
    exact .of_counters rfl rfl

theorem receiveRequest_accepted {s services : Services} {body : ChatCompletionRequest} {requestId : String}
    {admission : AdmissionDecision} {item : ScheduledRequest}
    (received : receiveRequest clock s body requestId admission = (services, .ok item)) :
    services.terminal = s.terminal ∧
      services.metrics.requestCount = s.metrics.requestCount + 1 ∧
      services.metrics.activeRequests = s.metrics.activeRequests + 1 ∧
      item.request.requestId = requestId ∧
      item.handle = if body.stream then .streaming .create else .completion .create := by
  unfold receiveRequest at received
  dsimp only at received
  split at received
  · cases received
    exact ⟨rfl, rfl, rfl, rfl, rfl⟩
  · cases received

theorem Inv.rejected {services : Services} (inv : st.Inv) (quiet : ∀ id, st.services.Records services id []) :
    Inv { st with services } := by
  obtain ⟨l, sameOpened, keeps⟩ := inv.ledger
  refine ⟨⟨l, sameOpened, keeps.quiet (quiet "")⟩, inv.known, fun id r found => ?_⟩
  have sameRecords := (quiet id).recordsOf id
  simp only [ite_self, List.append_nil] at sameRecords
  rw [sameRecords]
  exact inv.sound id r found

theorem sound_of_received {body : ChatCompletionRequest} {requestId : String} {item : ScheduledRequest}
    (handle : item.handle = if body.stream then .streaming .create else .completion .create) :
    ({ item, caller := callerOf body requestId, worker := .absent } : Accepted).Sound [] := by
  refine .unanswered [] ?_ (by simp) ?_
  · rw [handle]
    split <;> rfl
  · unfold callerOf
    split <;> simp [Accepted.Asking]

theorem Inv.received {services : Services} {body : ChatCompletionRequest} {requestId : String}
    {admission : AdmissionDecision} {item : ScheduledRequest} (inv : st.Inv) (fresh : requestId ∉ st.accepted)
    (received : receiveRequest clock st.services body requestId admission = (services, .ok item)) :
    Inv { services, accepted := st.accepted ++ [requestId],
          requests := Function.update st.requests requestId
            (some { item, caller := callerOf body requestId, worker := .absent }) } := by
  obtain ⟨l, sameOpened, keeps⟩ := inv.ledger
  obtain ⟨terminal, requestCount, activeRequests, named, handle⟩ := receiveRequest_accepted received
  have notOpened : requestId ∉ l.opened := by rwa [sameOpened]
  have sameRecords : ∀ id, services.recordsOf id = st.services.recordsOf id := by
    intro id
    rw [Services.recordsOf, Services.recordsOf, terminal]
  have unrecorded : services.recordsOf requestId = [] := by
    rw [sameRecords, Services.recordsOf_eq_nil_iff, keeps.closed]
    intro inside
    exact notOpened (l.closed_subset inside)
  constructor
  · exact ⟨l.openEntry requestId notOpened, by simp [Ledger.openEntry, sameOpened],
      keeps.accept notOpened terminal requestCount activeRequests⟩
  · apply (Function.forall_update_iff _ fun id r => id ∈ st.accepted ++ [requestId] ↔ ∃ accepted, r = some accepted).mpr
    constructor
    · simp
    · intro id other
      simp [other, inv.known]
  · apply forall_update_some
    · rw [unrecorded]
      exact ⟨named, sound_of_received handle⟩
    · intro id r _ found
      rw [sameRecords]
      exact inv.sound id r found

theorem Inv.acted {services : Services} {r r' : Accepted} (inv : st.Inv)
    (found : st.requests action.requestId = some r)
    (acted : act clock requestTimeoutS st.services r action = some (services, r')) (inTime : r.late action = false) :
    Inv { st with services, requests := Function.update st.requests action.requestId (some r') } := by
  obtain ⟨l, sameOpened, keeps⟩ := inv.ledger
  obtain ⟨named, sound⟩ := inv.sound _ r found
  obtain ⟨sameId, new, recorded, soundAfter⟩ := sound.act acted inTime
  rw [named] at recorded
  have recordsAfter := recorded.recordsOf
  have known : action.requestId ∈ st.accepted := (inv.known _).mpr ⟨r, found⟩
  have opened : action.requestId ∈ l.opened := by rwa [sameOpened]
  constructor
  -- a sound request has one record at most, so the ledger closes its entry once
  · have bound := soundAfter.length_le
    rw [List.length_append] at bound
    rcases new with _ | ⟨o, _ | ⟨p, rest⟩⟩
    · exact ⟨l, sameOpened, keeps.quiet recorded⟩
    · have none : st.services.recordsOf action.requestId = [] := by
        rw [List.length_singleton] at bound
        exact List.length_eq_zero_iff.mp (by omega)
      rw [Services.recordsOf_eq_nil_iff, keeps.closed] at none
      exact ⟨l.closeEntry _ opened none, sameOpened, keeps.settle recorded opened none⟩
    · rw [List.length_cons, List.length_cons] at bound
      omega
  · apply (Function.forall_update_iff _ fun id r => id ∈ st.accepted ↔ ∃ accepted, r = some accepted).mpr
    constructor
    · simp [known]
    · intro id _
      exact inv.known id
  · apply forall_update_some
    · rw [recordsAfter, if_pos rfl]
      exact ⟨sameId.trans named, soundAfter⟩
    · intro id q other present
      rw [recordsAfter, if_neg other, List.append_nil]
      exact inv.sound id q present

theorem Inv.step (inv : st.Inv) (taken : step clock requestTimeoutS st action = some t)
    (inTime : ∀ r, st.requests action.requestId = some r → r.late action = false) : t.Inv := by
  rcases step_cases taken with ⟨requestId, body, admission, services, reply, -, received, rfl⟩ |
    ⟨requestId, body, admission, services, item, -, fresh, received, rfl⟩ | ⟨r, services, r', found, acted, rfl⟩
  · exact inv.rejected (receiveRequest_rejected received)
  · exact inv.received fresh received
  · exact inv.acted found acted (inTime r found)

structure ExactlyOnce (st : InFlight) : Prop where
  atMostOnce : ∀ id ∈ st.accepted, (st.services.recordsOf id).length ≤ 1
  onceWhenDone : ∀ id r, st.requests id = some r → r.Done → (st.services.recordsOf id).length = 1
  activeRequests : st.services.metrics.activeRequests =
    (st.accepted.filter fun id => st.services.recordsOf id = []).length
  requestCount : st.services.metrics.requestCount = st.services.metrics.completedCount +
    st.services.metrics.failedCount + st.services.metrics.activeRequests

structure AtMostOnce (st : InFlight) : Prop where
  atMostOnce : ∀ id ∈ st.accepted, (st.services.recordsOf id).length ≤ 1
  activeRequests : st.services.metrics.activeRequests =
    (st.accepted.filter fun id => st.services.recordsOf id = []).length

theorem Inv.atMostOnce (inv : st.Inv) : ∀ id ∈ st.accepted, (st.services.recordsOf id).length ≤ 1 := by
  intro id member
  obtain ⟨r, found⟩ := (inv.known id).mp member
  exact (inv.sound id r found).2.length_le

theorem Inv.activeRequests (inv : st.Inv) : st.services.metrics.activeRequests =
    (st.accepted.filter fun id => st.services.recordsOf id = []).length := by
  obtain ⟨l, sameOpened, keeps⟩ := inv.ledger
  rw [keeps.active_length, sameOpened]

theorem Inv.exactlyOnce (inv : st.Inv) : st.ExactlyOnce where
  atMostOnce := inv.atMostOnce
  onceWhenDone := fun id r found done => (inv.sound id r found).2.length_of_done done
  activeRequests := inv.activeRequests
  requestCount := by
    obtain ⟨l, -, keeps⟩ := inv.ledger
    exact keeps.balance

theorem recorded_twice {services : Services} {id : String} {r r' : Accepted} (inv : st.Inv)
    (found : st.requests id = some r) (once : ∃ o, st.services.recordsOf id = [o])
    (recorded : st.services.Records services r.item.request.requestId [.failure]) :
    let t : InFlight := { st with services, requests := Function.update st.requests id (some r') }
    ¬ ∀ id ∈ t.accepted, (t.services.recordsOf id).length ≤ 1 := by
  intro t atMost
  obtain ⟨named, -⟩ := inv.sound id r found
  obtain ⟨o, once⟩ := once
  have twice := recorded.recordsOf id
  rw [named, if_pos rfl, once] at twice
  have bound := atMost id ((inv.known id).mpr ⟨r, found⟩)
  rw [twice] at bound
  simp at bound

def AllStreams (stream : Bool) (st : InFlight) : Prop :=
  ∀ id r, st.requests id = some r → r.caller.streams = stream

theorem AllStreams.step {stream : Bool} (all : st.AllStreams stream)
    (allowed : action.arrivesWith stream = true) (taken : step clock requestTimeoutS st action = some t) :
    t.AllStreams stream := by
  rcases step_cases taken with ⟨requestId, body, admission, services, reply, -, received, rfl⟩ |
    ⟨requestId, body, admission, services, item, rfl, fresh, received, rfl⟩ | ⟨r, services, r', found, acted, rfl⟩
  · exact all
  · apply forall_update_some
    · have kind : body.stream = stream := by simpa [InFlightAction.arrivesWith] using allowed
      rw [← kind]
      unfold callerOf
      split <;> simp_all [Caller.streams]
    · intro id r _ found
      exact all id r found
  · apply forall_update_some
    · exact (Accepted.act_streams acted).trans (all _ r found)
    · intro id q _ present
      exact all id q present

/-- No handler enters its timeout or its disconnect branch once its future is resolved. -/
def ResumesInTime (st : InFlight) (action : InFlightAction) : Prop :=
  ∀ requestId r, action = .resume requestId → st.requests requestId = some r → r.answersLate = false

/-- No generator is closed, once it has started, while its terminal event waits in its queue. -/
def ClosesInTime (st : InFlight) (action : InFlightAction) : Prop :=
  ∀ requestId r, action = .close requestId → st.requests requestId = some r → r.closesLate = false

/-- Without streams, each accepted request is counted exactly once as long as, and only as long as,
    every handler that gives up does so before its future is resolved. -/
theorem non_streaming_accounting (clock : Clock) (requestTimeoutS : ℚ) (actions : List InFlightAction)
    (plain : ∀ action ∈ actions, action.arrivesWith false = true) :
    Throughout (step clock requestTimeoutS) ExactlyOnce start actions ↔
      Guarded (step clock requestTimeoutS) ResumesInTime start actions := by
  refine throughout_iff_guarded (I := fun st => st.Inv ∧ st.AllStreams false) (fun st inv => inv.1.exactlyOnce)
    ?_ ?_ ⟨start_inv, fun id r found => nomatch found⟩ plain
  · intro st action t inv allowed inTime taken
    refine ⟨inv.1.step taken fun r found => ?_, inv.2.step allowed taken⟩
    cases action with
    | resume requestId => exact inTime requestId r rfl found
    | close requestId => exact Accepted.closesLate_of_handler (inv.2 requestId r found)
    | _ => rfl
  · intro st action t inv allowed late taken law
    simp only [ResumesInTime, not_forall, Bool.not_eq_false] at late
    obtain ⟨requestId, r, rfl, found, isLate⟩ := late
    rcases step_cases taken with ⟨_, _, _, _, _, isArrive, -⟩ | ⟨_, _, _, _, _, isArrive, -⟩ |
      ⟨r', services, after, found', acted, rfl⟩
    · cases isArrive
    · cases isArrive
    · cases found.symm.trans found'
      obtain ⟨once, recorded⟩ := (inv.1.sound requestId r found).2.resume_late acted isLate
      exact recorded_twice inv.1 found once recorded law.atMostOnce

/-- A timeout reaches the handler, the worker completes the request, and only then the handler runs. -/
def lateTimeout : List InFlightAction :=
  [.arrive "late" { messages := [] } { accepted := true },
    .arrive "other" { messages := [] } { accepted := true },
    .enqueue "late", .startBatch "late", .generate "late" "x", .deliver "late" .timeout, .complete "late",
    .resume "late"]

theorem late_timeout_counts_twice :
    ∃ t, exec (step ⟨fun _ => 0, monotone_const⟩ 30) start lateTimeout = some t ∧
      t.services.recordsOf "late" = [.success 1, .failure] ∧ t.services.recordsOf "other" = [] ∧
      t.services.metrics.activeRequests = 0 ∧ ¬ t.ExactlyOnce := by
  have evaluated : (exec (step ⟨fun _ => 0, monotone_const⟩ 30) start lateTimeout).map
      (fun t => (t.services.recordsOf "late", t.services.recordsOf "other",
        t.services.metrics.activeRequests, t.accepted)) =
      some ([.success 1, .failure], [], 0, ["late", "other"]) := by decide +kernel
  obtain ⟨t, ran, seen⟩ := Option.map_eq_some_iff.mp evaluated
  simp only [Prod.mk.injEq] at seen
  obtain ⟨twice, none, active, accepted⟩ := seen
  refine ⟨t, ran, twice, none, active, fun law => ?_⟩
  have bound := law.atMostOnce "late" (by simp [accepted])
  simp [twice] at bound

/-- One request is answered, and the handler of another runs into its timeout before the worker is done with it. -/
theorem non_streaming_accounting_answered :
    Throughout (step ⟨fun _ => 0, monotone_const⟩ 30) ExactlyOnce start
      [.arrive "plain" { messages := [] } { accepted := true }, .arrive "slow" { messages := [] } { accepted := true },
        .enqueue "plain", .enqueue "slow", .startBatch "plain", .startBatch "slow", .generate "plain" "x",
        .complete "plain", .resume "plain", .generate "slow" "y", .deliver "slow" .timeout, .resume "slow",
        .complete "slow"] := by
  let inTime : InFlight → InFlightAction → Bool
    | st, .resume requestId => (st.requests requestId).all fun r => !r.answersLate
    | _, _ => true
  refine (non_streaming_accounting ⟨fun _ => 0, monotone_const⟩ 30 _ (by decide)).mpr
    (.of_passes inTime ?_ (by decide +kernel))
  rintro st action passed requestId r rfl found
  have handled : (st.requests requestId).all (fun r => !r.answersLate) = true := passed
  rw [found, Option.all_some, Bool.not_eq_true'] at handled
  exact handled

/-- With streams only, each accepted request is counted at most once as long as, and only as long as,
    no generator is closed between its terminal event's arrival and its delivery. -/
theorem streaming_accounting (clock : Clock) (requestTimeoutS : ℚ) (actions : List InFlightAction)
    (streaming : ∀ action ∈ actions, action.arrivesWith true = true) :
    Throughout (step clock requestTimeoutS) AtMostOnce start actions ↔
      Guarded (step clock requestTimeoutS) ClosesInTime start actions := by
  refine throughout_iff_guarded (I := fun st => st.Inv ∧ st.AllStreams true)
    (fun st inv => ⟨inv.1.atMostOnce, inv.1.activeRequests⟩) ?_ ?_
    ⟨start_inv, fun id r found => nomatch found⟩ streaming
  · intro st action t inv allowed inTime taken
    refine ⟨inv.1.step taken fun r found => ?_, inv.2.step allowed taken⟩
    cases action with
    | close requestId => exact inTime requestId r rfl found
    | resume requestId => exact Accepted.answersLate_of_stream (inv.2 requestId r found)
    | _ => rfl
  · intro st action t inv allowed late taken law
    simp only [ClosesInTime, not_forall, Bool.not_eq_false] at late
    obtain ⟨requestId, r, rfl, found, isLate⟩ := late
    rcases step_cases taken with ⟨_, _, _, _, _, isArrive, -⟩ | ⟨_, _, _, _, _, isArrive, -⟩ |
      ⟨r', services, after, found', acted, rfl⟩
    · cases isArrive
    · cases isArrive
    · cases found.symm.trans found'
      obtain ⟨once, recorded⟩ := (inv.1.sound requestId r found).2.close_late acted isLate
      exact recorded_twice inv.1 found once recorded law.atMostOnce

/-- The client goes away while the completion event is still in the queue behind a token. -/
def lateClose : List InFlightAction :=
  [.arrive "stream" { messages := [], stream := true } { accepted := true }, .enqueue "stream",
    .advance "stream", .startBatch "stream", .generate "stream" "x", .advance "stream", .complete "stream",
    .close "stream"]

theorem late_close_counts_twice :
    ∃ t, exec (step ⟨fun _ => 0, monotone_const⟩ 30) start lateClose = some t ∧
      t.services.recordsOf "stream" = [.success 1, .failure] ∧ ¬ t.AtMostOnce := by
  have evaluated : (exec (step ⟨fun _ => 0, monotone_const⟩ 30) start lateClose).map
      (fun t => (t.services.recordsOf "stream", t.accepted)) =
      some ([.success 1, .failure], ["stream"]) := by decide +kernel
  obtain ⟨t, ran, seen⟩ := Option.map_eq_some_iff.mp evaluated
  simp only [Prod.mk.injEq] at seen
  obtain ⟨twice, accepted⟩ := seen
  refine ⟨t, ran, twice, fun law => ?_⟩
  have bound := law.atMostOnce "stream" (by simp [accepted])
  simp [twice] at bound

theorem streaming_accounting_completed :
    Throughout (step ⟨fun _ => 0, monotone_const⟩ 30) AtMostOnce start
      [.arrive "stream" { messages := [], stream := true } { accepted := true }, .enqueue "stream",
        .advance "stream", .startBatch "stream", .generate "stream" "x", .advance "stream",
        .complete "stream", .advance "stream"] := by
  refine (streaming_accounting ⟨fun _ => 0, monotone_const⟩ 30 _ (by decide)).mpr (.of_forall ?_ _)
  intro action member st requestId r closes
  subst closes
  simp at member

end InFlight

end LLMRuntime
