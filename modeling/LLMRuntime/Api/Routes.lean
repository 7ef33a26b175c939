import LLMRuntime.Api.Schemas
import LLMRuntime.Api.Streaming
import LLMRuntime.Core.Admission
import LLMRuntime.Core.Services
import LLMRuntime.Foundation.FloatText

namespace LLMRuntime

/-- The format `:.3f` of a number that is not negative. -/
def fixed3 (q : ℚ) : String :=
  let thousandths := (FloatText.roundHalfEven (q * 1000)).toNat
  let fraction := toString (1000 + thousandths % 1000)
  toString (thousandths / 1000) ++ "." ++ (fraction.drop 1).toString

inductive Reply where
  | completion (response : ChatCompletionResponse)
  | httpError (statusCode : Nat) (detail : String)
  | cancelled
  deriving DecidableEq, Repr

/-- What can reach a handler that waits for its future. -/
inductive Signal where
  | timeout
  | disconnect
  deriving DecidableEq, Repr

/-- Where the non-streaming branch of `create_chat_completion` is suspended; `t0` is its clock reading. -/
inductive HandlerPoint where
  | submitting
  | waiting (t0 : ℚ)
  | signalled (t0 : ℚ) (signal : Signal)
  | responded (reply : Reply)
  deriving DecidableEq, Repr

variable (clock : Clock)

/-- `create_chat_completion` up to `submit`: the request, unless admission rejects it. -/
def receiveRequest (s : Services) (body : ChatCompletionRequest) (requestId : String)
    (admission : AdmissionDecision) : Services × Except Reply ScheduledRequest :=
  let (createdAt, s) := s.perfCounter clock
  let s := s.emit (.requestReceived requestId body.model body.stream)
  if admission.accepted then (s.recordRequest, .ok (.ofBody body requestId createdAt))
  else
    let s := s.recordRejection body.priority admission.reason
    (s.emit (.requestRejected requestId admission.reason admission.statusCode),
      .error (.httpError admission.statusCode admission.detail))

structure HandlerResult where
  services : Services
  item : ScheduledRequest
  reply : Reply

/-- `completion_handle.cancel()`, whose result the handler ignores, and `record_failure`. -/
def giveUp (s : Services) (request : RuntimeRequest) (handle : CompletionHandle) (error : String)
    (reply : Reply) : HandlerResult :=
  let (request, s) := s.recordFailure clock request
  { services := s.emit (.requestFailed request.requestId error)
    item := { request, handle := .completion handle.cancel.2 }
    reply }

def timeoutBranch (requestTimeoutS : ℚ) (s : Services) (request : RuntimeRequest)
    (handle : CompletionHandle) : HandlerResult :=
  giveUp clock s request handle ("request timed out after " ++ fixed3 requestTimeoutS ++ "s")
    (.httpError 504 "request timed out")

def disconnectBranch (s : Services) (request : RuntimeRequest) (handle : CompletionHandle) : HandlerResult :=
  giveUp clock s request handle "client disconnected" .cancelled

/-- The `except Exception` branch: the worker has already recorded the failure. -/
def errorBranch (s : Services) (request : RuntimeRequest) (handle : CompletionHandle) (exc : PyException) :
    HandlerResult where
  services := s.emit (.requestFailed request.requestId exc.str)
  item := { request, handle := .completion handle }
  reply := .httpError 500 exc.str

def successBranch (model : String) (t0 : ℚ) (s : Services) (request : RuntimeRequest)
    (handle : CompletionHandle) (result : GenerationResult) : HandlerResult :=
  let (now, s) := s.perfCounter clock
  let elapsedMs := (now - t0) * 1000
  { services := s.emit (.requestCompleted request.requestId result.tokens.length elapsedMs)
    item := { request, handle := .completion handle }
    reply := .completion (.ofResult model request result) }

/-- The handler runs again: a delivered signal wins over the future, whatever the future holds by then. -/
def resumeHandler (requestTimeoutS : ℚ) (model : String) (point : HandlerPoint) (s : Services)
    (request : RuntimeRequest) (handle : CompletionHandle) : Option HandlerResult :=
  match point with
  | .signalled _ .timeout => some (timeoutBranch clock requestTimeoutS s request handle)
  | .signalled _ .disconnect => some (disconnectBranch clock s request handle)
  | .waiting t0 =>
    match handle.future with
    | .pending => none
    | .result result => some (successBranch clock model t0 s request handle result)
    | .exception exc =>
      if exc.isTimeoutError then some (timeoutBranch clock requestTimeoutS s request handle)
      else some (errorBranch s request handle exc)
    | .cancelled => some (disconnectBranch clock s request handle)
  | _ => none

def cancelStream (s : Services) (item : ScheduledRequest) : Services × ScheduledRequest :=
  let (request, s) := s.recordFailure clock item.request
  (s.emit (.requestFailed request.requestId "stream disconnected"), { item with request })

end LLMRuntime
