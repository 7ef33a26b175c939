import Mathlib.Data.Rat.Defs
import Mathlib.Algebra.Order.Ring.Rat
import Mathlib.Order.Monotone.Basic
import Mathlib.Tactic.NormNum

namespace LLMRuntime

/-- `perf_counter`: successive readings of one monotone clock. -/
structure Clock where
  reading : Nat → ℚ
  monotone : Monotone reading

theorem monotone_tick : Monotone fun tick : Nat => (tick : ℚ) := Nat.mono_cast

inductive Role where
  | system
  | user
  | assistant
  | tool
  deriving DecidableEq, Repr

def Role.value : Role → String
  | .system => "system"
  | .user => "user"
  | .assistant => "assistant"
  | .tool => "tool"

structure ChatMessage where
  role : Role := .user
  content : String
  deriving DecidableEq, Repr

theorem defaultMaxTokens_range : (1 : Int) ≤ 16 ∧ (16 : Int) ≤ 4096 := by decide

theorem defaultTemperature_nonneg : (0 : ℚ) ≤ 7 / 10 := by norm_num

theorem defaultTopP_range : (0 : ℚ) ≤ 1 ∧ (1 : ℚ) ≤ 1 := by norm_num

theorem defaultPriority_nonneg : (0 : Int) ≤ 0 := by decide

/-- The validated request body: the field bounds of the schema are part of the value. -/
structure ChatCompletionRequest where
  model : String := "mock-llm"
  messages : List ChatMessage
  maxTokens : Int := 16
  temperature : ℚ := 7 / 10
  topP : ℚ := 1
  stream : Bool := false
  priority : Int := 0
  maxTokens_range : 1 ≤ maxTokens ∧ maxTokens ≤ 4096 := by
    first | exact LLMRuntime.defaultMaxTokens_range | decide
  temperature_nonneg : 0 ≤ temperature := by
    first | exact LLMRuntime.defaultTemperature_nonneg | norm_num
  topP_range : 0 ≤ topP ∧ topP ≤ 1 := by
    first | exact LLMRuntime.defaultTopP_range | norm_num
  priority_nonneg : 0 ≤ priority := by
    first | exact LLMRuntime.defaultPriority_nonneg | decide

structure SamplingParams where
  maxTokens : Int
  temperature : ℚ
  topP : ℚ
  deriving DecidableEq, Repr

structure RuntimeRequest where
  requestId : String
  messages : List ChatMessage
  priority : Int
  stream : Bool
  sampling : SamplingParams
  createdAt : ℚ
  enqueuedAt : Option ℚ := none
  startedAt : Option ℚ := none
  firstTokenAt : Option ℚ := none
  completedAt : Option ℚ := none
  failedAt : Option ℚ := none
  deriving DecidableEq, Repr

/-- The characters `str.split()` with no argument separates words at. -/
def isSpace (c : Char) : Bool :=
  let n := c.toNat
  (0x09 ≤ n && n ≤ 0x0d) || (0x1c ≤ n && n ≤ 0x20) || n == 0x85 || n == 0xa0 || n == 0x1680 ||
    (0x2000 ≤ n && n ≤ 0x200a) || n == 0x2028 || n == 0x2029 || n == 0x202f || n == 0x205f || n == 0x3000

def splitWords (text : String) : List (List Char) :=
  (text.toList.splitOnP isSpace).filter fun word => !word.isEmpty

namespace RuntimeRequest

def fromChatRequest (request : ChatCompletionRequest) (requestId : String) (now : ℚ) : RuntimeRequest where
  requestId := requestId
  messages := request.messages
  priority := request.priority
  stream := request.stream
  sampling := { maxTokens := request.maxTokens, temperature := request.temperature, topP := request.topP }
  createdAt := now

def prompt (r : RuntimeRequest) : String :=
  "\n".intercalate (r.messages.map fun message => message.role.value ++ ": " ++ message.content)

def promptTokenEstimate (r : RuntimeRequest) : Nat := max 1 (splitWords r.prompt).length

def markEnqueued (r : RuntimeRequest) (now : ℚ) : RuntimeRequest := { r with enqueuedAt := some now }

def markStarted (r : RuntimeRequest) (now : ℚ) : RuntimeRequest := { r with startedAt := some now }

def markFirstToken (r : RuntimeRequest) (now : ℚ) : RuntimeRequest :=
  if r.firstTokenAt.isNone then { r with firstTokenAt := some now } else r

def markCompleted (r : RuntimeRequest) (now : ℚ) : RuntimeRequest := { r with completedAt := some now }

def markFailed (r : RuntimeRequest) (now : ℚ) : RuntimeRequest := { r with failedAt := some now }

@[simp] theorem fromChatRequest_requestId (request : ChatCompletionRequest) (id : String) (now : ℚ) :
    (fromChatRequest request id now).requestId = id := rfl

@[simp] theorem markEnqueued_requestId (r : RuntimeRequest) (now : ℚ) :
    (r.markEnqueued now).requestId = r.requestId := rfl

@[simp] theorem markStarted_requestId (r : RuntimeRequest) (now : ℚ) :
    (r.markStarted now).requestId = r.requestId := rfl

@[simp] theorem markFirstToken_requestId (r : RuntimeRequest) (now : ℚ) :
    (r.markFirstToken now).requestId = r.requestId := by
  unfold markFirstToken
  split <;> rfl

@[simp] theorem markCompleted_requestId (r : RuntimeRequest) (now : ℚ) :
    (r.markCompleted now).requestId = r.requestId := rfl

@[simp] theorem markFailed_requestId (r : RuntimeRequest) (now : ℚ) :
    (r.markFailed now).requestId = r.requestId := rfl

end RuntimeRequest

end LLMRuntime
