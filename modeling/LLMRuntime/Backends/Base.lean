import LLMRuntime.Core.Response

namespace LLMRuntime

structure BackendCapability where
  streaming : Bool := false
  nativeBatching : Bool := false
  gpuMetrics : Bool := false
  deriving DecidableEq, Repr

inductive BatchEvent where
  | token (requestId token : String)
  | completed (requestId : String)
  deriving DecidableEq, Repr

def BatchEvent.requestId : BatchEvent → String
  | .token requestId _ => requestId
  | .completed requestId => requestId

/-- How an async iteration ends: exhausted, or with an exception out of `__anext__`. -/
inductive Ending where
  | normal
  | raised (error : PyException)
  deriving DecidableEq, Repr

structure Generation where
  tokens : List String
  ending : Ending
  deriving DecidableEq, Repr

/-- `Backend.generate_batch`, the single-request compatibility mode: an error ends the whole iteration. -/
def generateBatch (generate : RuntimeRequest → Generation) :
    List RuntimeRequest → List BatchEvent × Ending
  | [] => ([], .normal)
  | request :: requests =>
    let tokens := (generate request).tokens.map (BatchEvent.token request.requestId)
    match (generate request).ending with
    | .raised error => (tokens, .raised error)
    | .normal =>
      let (events, ending) := generateBatch generate requests
      (tokens ++ .completed request.requestId :: events, ending)

def completedEvents (generate : RuntimeRequest → Generation) (request : RuntimeRequest) : List BatchEvent :=
  (generate request).tokens.map (BatchEvent.token request.requestId) ++ [.completed request.requestId]

section Events

variable {generate : RuntimeRequest → Generation}

theorem generateBatch_append {before : List RuntimeRequest} (after : List RuntimeRequest)
    (normal : ∀ request ∈ before, (generate request).ending = .normal) :
    generateBatch generate (before ++ after) =
      (before.flatMap (completedEvents generate) ++ (generateBatch generate after).1,
        (generateBatch generate after).2) := by
  induction before with
  | nil => rfl
  | cons request before ih =>
    have rest := ih fun other member => normal other (List.mem_cons_of_mem _ member)
    rw [List.cons_append, generateBatch, normal request (by simp)]
    simp [rest, completedEvents]

theorem generateBatch_raised {request : RuntimeRequest} (after : List RuntimeRequest) {error : PyException}
    (raised : (generate request).ending = .raised error) :
    generateBatch generate (request :: after) =
      ((generate request).tokens.map (BatchEvent.token request.requestId), .raised error) := by
  rw [generateBatch, raised]

theorem generateBatch_normal {request : RuntimeRequest} (after : List RuntimeRequest)
    (normal : (generate request).ending = .normal) :
    generateBatch generate (request :: after) =
      (completedEvents generate request ++ (generateBatch generate after).1,
        (generateBatch generate after).2) := by
  rw [generateBatch, normal]
  simp [completedEvents]

theorem completedEvents_owner {request : RuntimeRequest} {event : BatchEvent}
    (yielded : event ∈ completedEvents generate request) : event.requestId = request.requestId := by
  rcases List.mem_append.mp yielded with token | completed
  · obtain ⟨text, -, rfl⟩ := List.mem_map.mp token
    rfl
  · rw [List.mem_singleton.mp completed]
    rfl

theorem generateBatch_owner {requests : List RuntimeRequest} {event : BatchEvent}
    (yielded : event ∈ (generateBatch generate requests).1) :
    ∃ request ∈ requests, event.requestId = request.requestId := by
  induction requests with
  | nil => cases yielded
  | cons request requests ih =>
    cases ending : (generate request).ending with
    | raised error =>
      rw [generateBatch_raised requests ending] at yielded
      exact ⟨request, by simp, completedEvents_owner (List.mem_append_left _ yielded)⟩
    | normal =>
      rw [generateBatch_normal requests ending] at yielded
      rcases List.mem_append.mp yielded with first | later
      · exact ⟨request, by simp, completedEvents_owner first⟩
      · obtain ⟨other, member, named⟩ := ih later
        exact ⟨other, List.mem_cons_of_mem _ member, named⟩

end Events

end LLMRuntime
