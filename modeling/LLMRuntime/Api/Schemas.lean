import LLMRuntime.Core.Response

namespace LLMRuntime

structure ChatCompletionChoice where
  index : Nat
  message : ChatMessage
  finishReason : String := "stop"
  deriving DecidableEq, Repr

structure Usage where
  promptTokens : Nat
  completionTokens : Nat
  totalTokens : Nat
  total : totalTokens = promptTokens + completionTokens
  deriving DecidableEq, Repr

structure ChatCompletionResponse where
  id : String
  object : String := "chat.completion"
  model : String
  choices : List ChatCompletionChoice
  usage : Usage
  deriving DecidableEq, Repr

/-- The body of the JSON answer that `create_chat_completion` returns for `result`. -/
def ChatCompletionResponse.ofResult (model : String) (request : RuntimeRequest) (result : GenerationResult) :
    ChatCompletionResponse :=
  let content := String.join result.tokens
  let completionTokens := result.tokens.length
  let promptTokens := request.promptTokenEstimate
  { id := result.requestId
    model := model
    choices := [{ index := 0, message := { role := .assistant, content } }]
    usage := { promptTokens, completionTokens, totalTokens := promptTokens + completionTokens, total := rfl } }

def ChatCompletionResponse.content (r : ChatCompletionResponse) : String :=
  String.join (r.choices.map fun choice => choice.message.content)

end LLMRuntime
