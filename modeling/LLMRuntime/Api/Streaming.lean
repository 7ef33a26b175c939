import LLMRuntime.Core.Response

namespace LLMRuntime

structure SseChunk where
  id : String
  object : String := "chat.completion.chunk"
  model : String
  index : Nat := 0
  deltaContent : String
  finishReason : Option String := none
  deriving DecidableEq, Repr

/-- The payload of one Server-Sent Event data frame. -/
inductive SseFrame where
  | chunk (payload : SseChunk)
  | done
  | error (message : String)
  deriving DecidableEq, Repr

def SseFrame.deltaContent : SseFrame → String
  | .chunk payload => payload.deltaContent
  | _ => ""

def sseFrame (requestId model : String) : StreamEvent → SseFrame
  | .token text => .chunk { id := requestId, model, deltaContent := text }
  | .completed _ => .done
  | .error message => .error message

/-- The frames of a stream that nobody closes, from the events of its queue. -/
def chatCompletionStream (requestId model : String) : List StreamEvent → List SseFrame
  | [] => []
  | event :: events =>
    sseFrame requestId model event ::
      if event.isTerminal then [] else chatCompletionStream requestId model events

def deltaContents (frames : List SseFrame) : String := String.join (frames.map SseFrame.deltaContent)

/-- Where the generator of `chat_completion_stream` is suspended. -/
inductive StreamPoint where
  | notStarted
  | awaiting
  | yielded
  | yieldedLast
  | finished
  deriving DecidableEq, Repr

/-- The generator of one stream: where it is suspended and what it has sent. -/
structure ChatStream where
  requestId : String
  model : String
  point : StreamPoint := .notStarted
  sent : List SseFrame := []
  deriving DecidableEq, Repr

namespace ChatStream

/-- One pass of the loop: `queue.get()` suspends only when the queue is empty. -/
def receive (c : ChatStream) (handle : StreamingHandle) : ChatStream × StreamingHandle :=
  match handle.queue with
  | [] => ({ c with point := .awaiting }, handle)
  | event :: events =>
    let handle := { handle with queue := events }
    let sent := c.sent ++ [sseFrame c.requestId c.model event]
    if event.isTerminal then ({ c with point := .yieldedLast, sent }, handle.markCompleted)
    else ({ c with point := .yielded, sent }, handle)

/-- The `finally` clause; the flag says that `on_cancel` is to be awaited. -/
def leave (c : ChatStream) (handle : StreamingHandle) : Bool × ChatStream × StreamingHandle :=
  (handle.cancel.1, { c with point := .finished }, handle.cancel.2)

/-- The consumer asks for the next frame, or an item arrives at the `get()` the generator waits in. -/
def advance (c : ChatStream) (handle : StreamingHandle) : Option (Bool × ChatStream × StreamingHandle) :=
  match c.point with
  | .notStarted => some (false, c.receive handle)
  | .yielded => some (false, c.receive handle)
  | .awaiting => if handle.queue.isEmpty then none else some (false, c.receive handle)
  | .yieldedLast => some (c.leave handle)
  | .finished => none

/-- The generator is closed: before its first step its body, and so its `finally`, never runs. -/
def close (c : ChatStream) (handle : StreamingHandle) : Option (Bool × ChatStream × StreamingHandle) :=
  match c.point with
  | .notStarted => some (false, { c with point := .finished }, handle)
  | .finished => none
  | _ => some (c.leave handle)

end ChatStream

theorem chatCompletionStream_tokens (requestId model : String) (tokens : List String) (last : StreamEvent)
    (terminal : last.isTerminal = true) :
    chatCompletionStream requestId model (tokens.map StreamEvent.token ++ [last]) =
      (tokens.map StreamEvent.token ++ [last]).map (sseFrame requestId model) := by
  induction tokens with
  | nil => simp [chatCompletionStream, terminal]
  | cons token tokens ih =>
    rw [List.map_cons, List.cons_append, chatCompletionStream, ih]
    rfl

/-- The delta contents of a completed stream are its tokens, in order. -/
theorem deltaContents_completed (requestId model : String) (tokens : List String) (reason : String) :
    deltaContents (chatCompletionStream requestId model (tokens.map .token ++ [.completed reason])) =
      String.join tokens := by
  rw [chatCompletionStream_tokens requestId model tokens (.completed reason) rfl]
  simp [deltaContents, sseFrame, SseFrame.deltaContent, Function.comp_def]

end LLMRuntime
