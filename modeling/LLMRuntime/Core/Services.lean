import Mathlib.Algebra.BigOperators.Group.List.Basic
import Mathlib.Algebra.Group.Prod
import LLMRuntime.Core.Response
import LLMRuntime.Metrics.Collector

namespace LLMRuntime

/-- The structured events of `RequestLogger`, with the fields each one carries. -/
inductive LogEvent where
  | requestReceived (requestId model : String) (stream : Bool)
  | requestEnqueued (requestId : String)
  | requestRejected (requestId reason : String) (statusCode : Nat)
  | batchFormed (batchSize : Nat) (requestIds : List String)
  | requestCompleted (requestId : String) (tokens : Nat) (elapsedMs : ℚ)
  | requestFailed (requestId error : String)
  deriving DecidableEq, Repr

inductive Outcome where
  | success (generatedTokens : Nat)
  | failure
  deriving DecidableEq, Repr

/-- What one terminal record adds to the completed, failed and generated-token counters. -/
def Outcome.worth : Outcome → Int × Int × Int
  | .success generatedTokens => (1, 0, generatedTokens)
  | .failure => (0, 1, 0)

def tally (records : List Outcome) : Int × Int × Int := (records.map Outcome.worth).sum

@[simp] theorem tally_nil : tally [] = 0 := rfl

@[simp] theorem tally_append (first second : List Outcome) :
    tally (first ++ second) = tally first + tally second := by
  simp [tally]

@[simp] theorem tally_singleton (o : Outcome) : tally [o] = o.worth := by
  simp [tally]

theorem start_counted : ({} : MetricsCollector).settled = tally (([] : List (String × Outcome)).map Prod.snd) := rfl

/-- What the parties of the runtime share. `terminal` and `invalidStateErrors` are history variables:
    the `record_success` and `record_failure` calls so far, and how often a done future was set again. -/
structure Services where
  ticks : Nat := 0
  metrics : MetricsCollector := {}
  log : List LogEvent := []
  terminal : List (String × Outcome) := []
  invalidStateErrors : Nat := 0
  counted : metrics.settled = tally (terminal.map Prod.snd) := by
    first | exact LLMRuntime.start_counted | rfl

namespace Services

def perfCounter (clock : Clock) (s : Services) : ℚ × Services :=
  (clock.reading s.ticks, { s with ticks := s.ticks + 1 })

def emit (s : Services) (event : LogEvent) : Services := { s with log := s.log ++ [event] }

def recordRequest (s : Services) : Services := { s with metrics := s.metrics.recordRequest }

def recordRejection (s : Services) (priority : Int) (reason : String) : Services :=
  { s with metrics := s.metrics.recordRejection priority reason, counted := s.counted }

def recordSuccess (s : Services) (request : RuntimeRequest) (generatedTokens : Nat) : Services :=
  { s with
    metrics := s.metrics.recordSuccess request generatedTokens
    terminal := s.terminal ++ [(request.requestId, .success generatedTokens)]
    counted := by simp [s.counted, Outcome.worth] }

def recordFailure (clock : Clock) (s : Services) (request : RuntimeRequest) : RuntimeRequest × Services :=
  let (now, s) := s.perfCounter clock
  let request := request.markFailed now
  (request, { s with
    metrics := s.metrics.recordFailure request
    terminal := s.terminal ++ [(request.requestId, .failure)]
    counted := by simp [s.counted, Outcome.worth] })

def raiseInvalidState (s : Services) : Services :=
  { s with invalidStateErrors := s.invalidStateErrors + 1 }

def recordsOf (s : Services) (requestId : String) : List Outcome :=
  (s.terminal.filter fun record => record.1 = requestId).map Prod.snd

variable (clock : Clock) (s : Services) (request : RuntimeRequest)

@[simp] theorem perfCounter_metrics : (s.perfCounter clock).2.metrics = s.metrics := rfl
@[simp] theorem perfCounter_terminal : (s.perfCounter clock).2.terminal = s.terminal := rfl
@[simp] theorem perfCounter_invalidStateErrors :
    (s.perfCounter clock).2.invalidStateErrors = s.invalidStateErrors := rfl

@[simp] theorem emit_metrics (event : LogEvent) : (s.emit event).metrics = s.metrics := rfl
@[simp] theorem emit_terminal (event : LogEvent) : (s.emit event).terminal = s.terminal := rfl
@[simp] theorem emit_invalidStateErrors (event : LogEvent) :
    (s.emit event).invalidStateErrors = s.invalidStateErrors := rfl

@[simp] theorem recordRequest_terminal : s.recordRequest.terminal = s.terminal := rfl
@[simp] theorem recordRequest_invalidStateErrors :
    s.recordRequest.invalidStateErrors = s.invalidStateErrors := rfl

@[simp] theorem recordRejection_terminal (priority : Int) (reason : String) :
    (s.recordRejection priority reason).terminal = s.terminal := rfl

@[simp] theorem recordSuccess_terminal (n : Nat) :
    (s.recordSuccess request n).terminal = s.terminal ++ [(request.requestId, .success n)] := rfl
@[simp] theorem recordSuccess_invalidStateErrors (n : Nat) :
    (s.recordSuccess request n).invalidStateErrors = s.invalidStateErrors := rfl

@[simp] theorem recordFailure_terminal :
    (s.recordFailure clock request).2.terminal = s.terminal ++ [(request.requestId, .failure)] := rfl
@[simp] theorem recordFailure_invalidStateErrors :
    (s.recordFailure clock request).2.invalidStateErrors = s.invalidStateErrors := rfl
@[simp] theorem recordFailure_requestId :
    (s.recordFailure clock request).1.requestId = request.requestId := rfl

/-- `t` is `s` after `records` have been counted for one request, its other counters untouched. -/
structure Records (s t : Services) (requestId : String) (records : List Outcome) : Prop where
  terminal : t.terminal = s.terminal ++ records.map fun o => (requestId, o)
  requestCount : t.metrics.requestCount = s.metrics.requestCount
  activeRequests : t.metrics.activeRequests =
    records.foldl (fun active _ => max 0 (active - 1)) s.metrics.activeRequests

theorem Records.trans {s t u : Services} {requestId : String} {first second : List Outcome}
    (before : s.Records t requestId first) (after : t.Records u requestId second) :
    s.Records u requestId (first ++ second) where
  terminal := by rw [after.terminal, before.terminal, List.map_append, List.append_assoc]
  requestCount := after.requestCount.trans before.requestCount
  activeRequests := by rw [after.activeRequests, before.activeRequests, List.foldl_append]

theorem Records.recordsOf {s t : Services} {requestId : String} {records : List Outcome}
    (recorded : s.Records t requestId records) (id : String) :
    t.recordsOf id = s.recordsOf id ++ if id = requestId then records else [] := by
  unfold Services.recordsOf
  rw [recorded.terminal, List.filter_append, List.map_append]
  by_cases same : id = requestId
  · subst same
    simp [List.filter_map, Function.comp_def]
  · simp [List.filter_map, Function.comp_def, same, Ne.symm same]

section Counting

variable {s t : Services} {requestId : String}

theorem Records.of_counters (terminal : t.terminal = s.terminal)
    (counters : t.metrics.counters = s.metrics.counters) : s.Records t requestId [] := by
  simp only [MetricsCollector.counters, Prod.mk.injEq] at counters
  exact ⟨by simp [terminal], counters.1, counters.2.2.2.1⟩

@[simp] theorem Records.refl : s.Records s requestId [] := .of_counters rfl rfl

@[simp] theorem records_emit {event : LogEvent} {records : List Outcome} :
    s.Records (t.emit event) requestId records ↔ s.Records t requestId records :=
  ⟨fun h => ⟨h.terminal, h.requestCount, h.activeRequests⟩,
    fun h => ⟨h.terminal, h.requestCount, h.activeRequests⟩⟩

@[simp] theorem records_perfCounter {records : List Outcome} :
    s.Records (t.perfCounter clock).2 requestId records ↔ s.Records t requestId records :=
  ⟨fun h => ⟨h.terminal, h.requestCount, h.activeRequests⟩,
    fun h => ⟨h.terminal, h.requestCount, h.activeRequests⟩⟩

theorem records_recordSuccess {n : Nat} (quiet : s.Records t requestId [])
    (named : request.requestId = requestId) :
    s.Records (t.recordSuccess request n) requestId [.success n] := by
  have counters := t.metrics.recordSuccess_counters request n
  simp only [MetricsCollector.counters, Prod.mk.injEq] at counters
  refine quiet.trans ⟨?_, counters.1, counters.2.2.2.1⟩
  rw [← named]
  rfl

@[simp] theorem records_recordFailure (quiet : s.Records t requestId [])
    (named : request.requestId = requestId) :
    s.Records (t.recordFailure clock request).2 requestId [.failure] := by
  have counters := t.metrics.recordFailure_counters (t.recordFailure clock request).1
  simp only [MetricsCollector.counters, Prod.mk.injEq] at counters
  refine quiet.trans ⟨?_, counters.1, counters.2.2.2.1⟩
  rw [← named]
  rfl

end Counting

end Services

end LLMRuntime
