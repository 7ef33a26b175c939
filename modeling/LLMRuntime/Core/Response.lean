import LLMRuntime.Core.Request

namespace LLMRuntime

/-- What an `except Exception` clause can catch: `TimeoutError` is told apart because a handler does. -/
inductive PyException where
  | timeoutError (message : String)
  | invalidStateError
  | other (typeName message : String)
  deriving DecidableEq, Repr

def PyException.str : PyException → String
  | .timeoutError message => message
  | .invalidStateError => "invalid state"
  | .other _ message => message

def PyException.isTimeoutError : PyException → Bool
  | .timeoutError _ => true
  | _ => false

structure GenerationResult where
  requestId : String
  tokens : List String
  finishReason : String := "stop"
  deriving DecidableEq, Repr

inductive StreamEvent where
  | token (token : String)
  | completed (finishReason : String)
  | error (message : String)
  deriving DecidableEq, Repr

def StreamEvent.isTerminal : StreamEvent → Bool
  | .token _ => false
  | _ => true

inductive Future (α : Type) where
  | pending
  | result (value : α)
  | exception (error : PyException)
  | cancelled
  deriving DecidableEq, Repr

namespace Future

variable {α : Type}

def done : Future α → Bool
  | .pending => false
  | _ => true

def isCancelled : Future α → Bool
  | .cancelled => true
  | _ => false

def setResult (f : Future α) (value : α) : Except PyException (Future α) :=
  if f.done then .error .invalidStateError else .ok (.result value)

def setException (f : Future α) (error : PyException) : Except PyException (Future α) :=
  if f.done then .error .invalidStateError else .ok (.exception error)

end Future

structure CompletionHandle where
  future : Future GenerationResult
  cancelled : Bool := false
  deriving DecidableEq, Repr

def CompletionHandle.create : CompletionHandle := { future := .pending }

def CompletionHandle.cancel (h : CompletionHandle) : Bool × CompletionHandle :=
  if h.cancelled then (false, h)
  else (true, { cancelled := true, future := if h.future.done then h.future else .cancelled })

structure StreamingHandle where
  queue : List StreamEvent
  cancelled : Bool := false
  completed : Bool := false
  deriving DecidableEq, Repr

def StreamingHandle.create : StreamingHandle := { queue := [] }

def StreamingHandle.cancel (h : StreamingHandle) : Bool × StreamingHandle :=
  if h.cancelled || h.completed then (false, h) else (true, { h with cancelled := true })

def StreamingHandle.markCompleted (h : StreamingHandle) : StreamingHandle := { h with completed := true }

/-- `queue.put` and `queue.put_nowait`: the queue is unbounded, so neither suspends. -/
def StreamingHandle.put (h : StreamingHandle) (event : StreamEvent) : StreamingHandle :=
  { h with queue := h.queue ++ [event] }

inductive ResponseHandle where
  | completion (handle : CompletionHandle)
  | streaming (handle : StreamingHandle)
  deriving DecidableEq, Repr

namespace ResponseHandle

def cancelled : ResponseHandle → Bool
  | .completion handle => handle.cancelled
  | .streaming handle => handle.cancelled

def cancel : ResponseHandle → ResponseHandle
  | .completion handle => .completion handle.cancel.2
  | .streaming handle => .streaming handle.cancel.2

end ResponseHandle

structure ScheduledRequest where
  request : RuntimeRequest
  handle : ResponseHandle
  deriving DecidableEq, Repr

namespace ScheduledRequest

def ofBody (body : ChatCompletionRequest) (requestId : String) (now : ℚ) : ScheduledRequest where
  request := .fromChatRequest body requestId now
  handle := if body.stream then .streaming .create else .completion .create

def cancelled (item : ScheduledRequest) : Bool := item.handle.cancelled

def cancel (item : ScheduledRequest) : ScheduledRequest := { item with handle := item.handle.cancel }

@[simp] theorem cancel_request (item : ScheduledRequest) : item.cancel.request = item.request := rfl

end ScheduledRequest

end LLMRuntime
