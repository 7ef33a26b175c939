import LLMRuntime.Backends.Base
import LLMRuntime.Foundation.Interleave
import Mathlib.Tactic.Ring

namespace LLMRuntime

inductive MockStep (ε : Type) where
  | prefill
  | decode
  | emit (value : ε)
  deriving DecidableEq, Repr

namespace MockStep

variable {ε : Type}

def value? : MockStep ε → Option ε
  | .emit value => some value
  | _ => none

def yields (steps : List (MockStep ε)) : List ε := steps.filterMap value?

def prefillSleeps (steps : List (MockStep ε)) : Nat :=
  steps.countP fun
    | .prefill => true
    | _ => false

def decodeSleeps (steps : List (MockStep ε)) : Nat :=
  steps.countP fun
    | .decode => true
    | _ => false

@[simp] theorem yields_nil : yields ([] : List (MockStep ε)) = [] := rfl

@[simp] theorem yields_append (steps more : List (MockStep ε)) :
    yields (steps ++ more) = yields steps ++ yields more := List.filterMap_append

@[simp] theorem yields_prefill (steps : List (MockStep ε)) : yields (.prefill :: steps) = yields steps := rfl

@[simp] theorem yields_decode (steps : List (MockStep ε)) : yields (.decode :: steps) = yields steps := rfl

@[simp] theorem yields_map_emit (values : List ε) : yields (values.map .emit) = values := by
  induction values with
  | nil => rfl
  | cons value values ih => exact congrArg (value :: ·) ih

@[simp] theorem decodeSleeps_map_emit (values : List ε) : decodeSleeps (values.map .emit) = 0 := by
  simp [decodeSleeps]

@[simp] theorem prefillSleeps_map_emit (values : List ε) : prefillSleeps (values.map .emit) = 0 := by
  simp [prefillSleeps]

theorem yields_flatMap {ι : Type} (sources : List ι) (f : ι → List (MockStep ε)) :
    yields (sources.flatMap f) = sources.flatMap fun i => yields (f i) := List.filterMap_flatMap

end MockStep

structure MockBackend where
  prefillLatencyS : ℚ
  decodeLatencyS : ℚ
  deriving DecidableEq, Repr

namespace MockBackend

def tokenText (index : Nat) : String := "tok" ++ toString index ++ " "

def generate (request : RuntimeRequest) : List (MockStep String) :=
  .prefill :: (List.range request.sampling.maxTokens.toNat).flatMap fun index =>
    [.decode, .emit (tokenText index)]

/-- The body of the inner loop of `generate_batch`: what one request yields in round `index`. -/
def roundEvents (index : Nat) (request : RuntimeRequest) : List BatchEvent :=
  if request.sampling.maxTokens ≤ index then
    []
  else
    .token request.requestId (tokenText index) ::
      if index + 1 = request.sampling.maxTokens then [.completed request.requestId] else []

def generateBatch (requests : List RuntimeRequest) : List (MockStep BatchEvent) :=
  match (requests.map fun request => request.sampling.maxTokens).max? with
  | none => []
  | some maxTokens =>
    .prefill :: (List.range maxTokens.toNat).flatMap fun index =>
      .decode :: (requests.flatMap (roundEvents index)).map .emit

def sleepTime (backend : MockBackend) {ε : Type} (steps : List (MockStep ε)) : ℚ :=
  (steps.map fun
    | .prefill => backend.prefillLatencyS
    | .decode => backend.decodeLatencyS
    | .emit _ => 0).sum

/-- `MockBackend.generate` as the worker's compatibility mode sees it. -/
def generation (request : RuntimeRequest) : Generation where
  tokens := MockStep.yields (generate request)
  ending := .normal

theorem tokens_eq (request : RuntimeRequest) :
    (generation request).tokens = (List.range request.sampling.maxTokens.toNat).map tokenText := by
  simp only [generation, generate, MockStep.yields_prefill, MockStep.yields_flatMap]
  exact List.flatMap_pure_eq_map ..

theorem roundEvents_requestId (index : Nat) (request : RuntimeRequest) :
    ∀ event ∈ roundEvents index request, event.requestId = request.requestId := by
  intro event emitted
  unfold roundEvents at emitted
  split at emitted
  · cases emitted
  · rcases List.mem_cons.mp emitted with rfl | finished
    · rfl
    · split at finished
      · rw [List.mem_singleton.mp finished]
        rfl
      · cases finished

theorem flatMap_roundEvents (request : RuntimeRequest) (positive : 1 ≤ request.sampling.maxTokens) (n : Nat)
    (enough : request.sampling.maxTokens.toNat ≤ n) :
    ((List.range n).flatMap fun index => roundEvents index request) =
      (generation request).tokens.map (.token request.requestId) ++ [.completed request.requestId] := by
  obtain ⟨last, length⟩ : ∃ last : Nat, request.sampling.maxTokens = (last + 1 : Nat) :=
    ⟨request.sampling.maxTokens.toNat - 1, by omega⟩
  obtain ⟨extra, rfl⟩ : ∃ extra, n = last + 1 + extra := ⟨n - (last + 1), by omega⟩
  have before : ∀ index ∈ List.range last,
      roundEvents index request = [.token request.requestId (tokenText index)] := by
    intro index early
    have below := List.mem_range.mp early
    rw [roundEvents, if_neg (by omega), if_neg (by omega)]
  have final : roundEvents last request =
      [.token request.requestId (tokenText last), .completed request.requestId] := by
    rw [roundEvents, if_neg (by omega), if_pos (by omega)]
  have after : ((List.range extra).map (last + 1 + ·)).flatMap (fun index => roundEvents index request) = [] := by
    refine List.flatMap_eq_nil_iff.mpr fun index late => ?_
    obtain ⟨k, -, rfl⟩ := List.mem_map.mp late
    rw [roundEvents, if_pos (by omega)]
  have early : ((List.range last).flatMap fun index => roundEvents index request) =
      (List.range last).map fun index => .token request.requestId (tokenText index) := by
    rw [← List.flatMap_pure_eq_map]
    exact List.flatMap_congr before
  rw [List.range_add, List.flatMap_append, after, List.append_nil, List.range_succ, List.flatMap_append, early,
    List.flatMap_singleton, final, tokens_eq, length, Int.toNat_natCast, List.range_succ]
  simp [Function.comp_def]

theorem generateBatch_yields {requests : List RuntimeRequest} {maxTokens : Int}
    (longest : (requests.map fun request => request.sampling.maxTokens).max? = some maxTokens) :
    MockStep.yields (generateBatch requests) =
      Interleave.rounds requests roundEvents maxTokens.toNat := by
  rw [generateBatch, longest]
  simp only [MockStep.yields_prefill, MockStep.yields_flatMap, MockStep.yields_decode,
    MockStep.yields_map_emit]
  rfl

theorem generateBatch_sleeps {requests : List RuntimeRequest} {maxTokens : Int}
    (longest : (requests.map fun request => request.sampling.maxTokens).max? = some maxTokens) :
    MockStep.prefillSleeps (generateBatch requests) = 1 ∧
      MockStep.decodeSleeps (generateBatch requests) = maxTokens.toNat := by
  rw [generateBatch, longest]
  constructor
  · have silent (index : Nat) := MockStep.prefillSleeps_map_emit (requests.flatMap (roundEvents index))
    simp only [MockStep.prefillSleeps] at silent ⊢
    simp [List.countP_flatMap, Function.comp_def, silent]
  · have silent (index : Nat) := MockStep.decodeSleeps_map_emit (requests.flatMap (roundEvents index))
    simp only [MockStep.decodeSleeps] at silent ⊢
    simp [List.countP_flatMap, Function.comp_def, silent]

theorem sleepTime_eq (backend : MockBackend) {ε : Type} (steps : List (MockStep ε)) :
    backend.sleepTime steps = MockStep.prefillSleeps steps * backend.prefillLatencyS +
      MockStep.decodeSleeps steps * backend.decodeLatencyS := by
  unfold sleepTime MockStep.prefillSleeps MockStep.decodeSleeps
  induction steps with
  | nil => simp
  | cons step steps ih =>
    rw [List.map_cons, List.sum_cons, ih, List.countP_cons, List.countP_cons]
    cases step with
    | prefill =>
      simp
      ring
    | decode =>
      simp
      ring
    | emit value => simp

/-- The whole batch costs one prefill and as many decode steps as its longest request. -/
theorem generateBatch_sleepTime (backend : MockBackend) {requests : List RuntimeRequest} {maxTokens : Int}
    (longest : (requests.map fun request => request.sampling.maxTokens).max? = some maxTokens) :
    backend.sleepTime (generateBatch requests) =
      backend.prefillLatencyS + maxTokens.toNat * backend.decodeLatencyS := by
  obtain ⟨prefills, decodes⟩ := generateBatch_sleeps longest
  rw [sleepTime_eq, prefills, decodes, Nat.cast_one, one_mul]

theorem filter_compatible {requests : List RuntimeRequest}
    (distinct : (requests.map (·.requestId)).Nodup) {request : RuntimeRequest} (member : request ∈ requests) :
    (LLMRuntime.generateBatch generation requests).1.filter (·.requestId = request.requestId) =
      completedEvents generation request := by
  have normal : ∀ other ∈ requests, (generation other).ending = .normal := fun other _ => rfl
  have batched := generateBatch_append [] normal
  rw [List.append_nil] at batched
  have owned : ∀ (k : Nat) i, ∀ event ∈ completedEvents generation i, event.requestId = i.requestId :=
    fun _ i event => completedEvents_owner
  have once := Interleave.filter_rounds owned distinct member 1
  simpa [batched, LLMRuntime.generateBatch, Interleave.rounds] using once

/-- Per request the batched path yields what the compatibility mode yields, and nothing else. -/
theorem batched_agrees_with_plain (requests : List RuntimeRequest) (nonempty : requests ≠ [])
    (distinct : (requests.map (·.requestId)).Nodup)
    (positive : ∀ request ∈ requests, 1 ≤ request.sampling.maxTokens) :
    (∀ request ∈ requests,
      (MockStep.yields (generateBatch requests)).filter (·.requestId = request.requestId) =
          (MockStep.yields (generate request)).map (.token request.requestId) ++ [.completed request.requestId] ∧
        (LLMRuntime.generateBatch generation requests).1.filter (·.requestId = request.requestId) =
          (MockStep.yields (generateBatch requests)).filter (·.requestId = request.requestId)) ∧
      (∀ event ∈ MockStep.yields (generateBatch requests), ∃ request ∈ requests,
        event.requestId = request.requestId) ∧
      (requests.map fun request => request.sampling.maxTokens).max? =
        some (MockStep.decodeSleeps (generateBatch requests) : Int) := by
  have some : (requests.map fun request => request.sampling.maxTokens).max?.isSome :=
    List.isSome_max?_iff.mpr fun empty => nonempty (List.map_eq_nil_iff.mp empty)
  obtain ⟨maxTokens, longest⟩ := Option.isSome_iff_exists.mp some
  obtain ⟨attained, bound⟩ := List.max?_eq_some_iff.mp longest
  refine ⟨fun request member => ?_, fun event yielded => ?_, ?_⟩
  · have within := bound _ (List.mem_map_of_mem member)
    have projected : (MockStep.yields (generateBatch requests)).filter (·.requestId = request.requestId) =
        completedEvents generation request := by
      rw [generateBatch_yields longest, Interleave.filter_rounds roundEvents_requestId distinct member,
        flatMap_roundEvents request (positive request member) _ (by omega)]
      rfl
    exact ⟨projected, (filter_compatible distinct member).trans projected.symm⟩
  · rw [generateBatch_yields longest] at yielded
    obtain ⟨index, -, inRound⟩ := List.mem_flatMap.mp yielded
    obtain ⟨request, member, emitted⟩ := List.mem_flatMap.mp inRound
    exact ⟨request, member, roundEvents_requestId index request event emitted⟩
  · obtain ⟨request, member, rfl⟩ := List.mem_map.mp attained
    have lower := positive request member
    rw [(generateBatch_sleeps longest).2, Int.toNat_of_nonneg (by omega)]
    exact longest

def mixedLengths : List RuntimeRequest :=
  [("a", 2), ("b", 1), ("c", 2)].map fun (requestId, maxTokens) =>
    { requestId, messages := [], priority := 0, stream := true,
      sampling := { maxTokens, temperature := 0, topP := 1 }, createdAt := 0 }

theorem batched_agrees_with_plain_mixed :
    (∀ request ∈ mixedLengths,
      (MockStep.yields (generateBatch mixedLengths)).filter (·.requestId = request.requestId) =
          (MockStep.yields (generate request)).map (.token request.requestId) ++ [.completed request.requestId] ∧
        (LLMRuntime.generateBatch generation mixedLengths).1.filter (·.requestId = request.requestId) =
          (MockStep.yields (generateBatch mixedLengths)).filter (·.requestId = request.requestId)) ∧
      (∀ event ∈ MockStep.yields (generateBatch mixedLengths), ∃ request ∈ mixedLengths,
        event.requestId = request.requestId) ∧
      (mixedLengths.map fun request => request.sampling.maxTokens).max? =
        some (MockStep.decodeSleeps (generateBatch mixedLengths) : Int) :=
  batched_agrees_with_plain mixedLengths (by decide) (by decide) (by decide)

example : MockStep.yields (generateBatch mixedLengths) =
    [.token "a" "tok0 ", .token "b" "tok0 ", .completed "b", .token "c" "tok0 ",
      .token "a" "tok1 ", .completed "a", .token "c" "tok1 ", .completed "c"] := by decide

end MockBackend

end LLMRuntime
