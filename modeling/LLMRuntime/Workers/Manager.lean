import Mathlib.Data.List.Dedup
import Mathlib.Logic.Function.Basic
import LLMRuntime.Core.Services
import LLMRuntime.Backends.Base

namespace LLMRuntime

/-- What a method of the worker leaves behind for one item, and the exception it raised, if any. -/
structure ItemResult where
  item : ScheduledRequest
  services : Services
  raised : Option PyException := none

variable (clock : Clock)

def recordCompletion (s : Services) (item : ScheduledRequest) (tokens : List String) (elapsedMs : ℚ) :
    ItemResult where
  item := item
  services := (s.recordSuccess item.request tokens.length).emit
    (.requestCompleted item.request.requestId tokens.length elapsedMs)

def completeItem (s : Services) (item : ScheduledRequest) (tokens : List String) (batchStart : ℚ) :
    ItemResult :=
  if item.cancelled then { item, services := s }
  else
    let (now, s) := s.perfCounter clock
    let request := item.request.markCompleted now
    let (later, s) := s.perfCounter clock
    let elapsedMs := (later - batchStart) * 1000
    match item.handle with
    | .completion handle =>
      if handle.future.isCancelled then recordCompletion s { item with request } tokens elapsedMs
      else
        match handle.future.setResult { requestId := request.requestId, tokens } with
        | .ok future =>
          recordCompletion s { request, handle := .completion { handle with future } } tokens elapsedMs
        | .error error =>
          { item := { item with request }, services := s.raiseInvalidState, raised := some error }
    | .streaming handle =>
      if handle.cancelled then { item := { item with request }, services := s }
      else
        recordCompletion s { request, handle := .streaming (handle.put (.completed "stop")) } tokens elapsedMs

def failItem (s : Services) (item : ScheduledRequest) (exc : PyException) : ItemResult :=
  if item.cancelled then { item, services := s }
  else
    let (request, s) := s.recordFailure clock item.request
    let s := s.emit (.requestFailed request.requestId exc.str)
    match item.handle with
    | .completion handle =>
      if handle.future.isCancelled then { item := { item with request }, services := s }
      else
        match handle.future.setException exc with
        | .ok future => { item := { request, handle := .completion { handle with future } }, services := s }
        | .error error =>
          { item := { item with request }, services := s.raiseInvalidState, raised := some error }
    | .streaming handle =>
      { item := { request, handle := .streaming (handle.put (.error exc.str)) }, services := s }

/-- `mark_first_token` and the `TokenEvent` of a streaming handle; the clock is read for the first token only. -/
def deliverToken (s : Services) (item : ScheduledRequest) (token : String) : ItemResult :=
  let (request, s) :=
    if item.request.firstTokenAt.isNone then
      let (now, s) := s.perfCounter clock
      (item.request.markFirstToken now, s)
    else (item.request, s)
  match item.handle with
  | .completion _ => { item := { item with request }, services := s }
  | .streaming handle => { item := { request, handle := .streaming (handle.put (.token token)) }, services := s }

/-- The local variables of `_execute_batch`: the dicts `items` and `tokens` and the set `pending`. -/
structure BatchState where
  services : Services
  items : String → Option ScheduledRequest
  tokens : String → List String
  pending : List String

/-- What happens while the backend iterates: an event it yields, or a handle its caller cancels meanwhile. -/
inductive BatchAction where
  | event (event : BatchEvent)
  | cancel (requestId : String)
  deriving DecidableEq, Repr

def BatchAction.requestId : BatchAction → String
  | .event yielded => yielded.requestId
  | .cancel requestId => requestId

def keyError (key : String) : PyException := .other "KeyError" key

namespace BatchState

def setItem (st : BatchState) (requestId : String) (result : ItemResult) : BatchState :=
  { st with
    services := result.services
    items := Function.update st.items requestId (some result.item) }

def discard (st : BatchState) (requestId : String) : BatchState :=
  { st with pending := st.pending.filter (· ≠ requestId) }

/-- The body of the `async for` loop. -/
def handleEvent (st : BatchState) (batchStart : ℚ) (event : BatchEvent) : BatchState × Option PyException :=
  if event.requestId ∉ st.pending then (st, none)
  else
    match st.items event.requestId with
    | none => (st, some (keyError event.requestId))
    | some item =>
      if item.cancelled then (st.discard event.requestId, none)
      else
        match event with
        | .token requestId token =>
          let tokens := Function.update st.tokens requestId (st.tokens requestId ++ [token])
          (({ st with tokens }).setItem requestId (deliverToken clock st.services item token), none)
        | .completed requestId =>
          let result := completeItem clock st.services item (st.tokens requestId) batchStart
          match result.raised with
          | some error => (st.setItem requestId result, some error)
          | none => ((st.setItem requestId result).discard requestId, none)

def act (st : BatchState) (batchStart : ℚ) : BatchAction → BatchState × Option PyException
  | .event yielded => st.handleEvent clock batchStart yielded
  | .cancel requestId =>
    ({ st with items := Function.update st.items requestId ((st.items requestId).map (·.cancel)) }, none)

def runActions (st : BatchState) (batchStart : ℚ) : List BatchAction → BatchState × Option PyException
  | [] => (st, none)
  | action :: actions =>
    match st.act clock batchStart action with
    | (st, none) => st.runActions batchStart actions
    | (st, some error) => (st, some error)

/-- `for request_id in pending: ... if not item.cancelled: finish(item)`. -/
def sweep (finish : Services → ScheduledRequest → List String → ItemResult) (st : BatchState) :
    List String → BatchState × Option PyException
  | [] => (st, none)
  | requestId :: rest =>
    match st.items requestId with
    | none => (st, some (keyError requestId))
    | some item =>
      if item.cancelled then st.sweep finish rest
      else
        let result := finish st.services item (st.tokens requestId)
        match result.raised with
        | some error => (st.setItem requestId result, some error)
        | none => (st.setItem requestId result).sweep finish rest

end BatchState

/-- `passed` is the argument of `generate_batch`, when it was called. -/
structure BatchResult where
  state : BatchState
  passed : Option (List RuntimeRequest)
  raised : Option PyException

def activeItems (batch : List ScheduledRequest) : List ScheduledRequest :=
  batch.filter fun item => !item.cancelled

/-- The dict comprehension `{item.request.request_id: item for item in active_items}`. -/
def itemsById (active : List ScheduledRequest) : String → Option ScheduledRequest :=
  active.foldl (fun items item => Function.update items item.request.requestId (some item)) fun _ => none

/-- `iter` is the order in which Python iterates over a set of strings. -/
def executeBatch (iter : List String → List String) (s : Services) (batch : List ScheduledRequest)
    (actions : List BatchAction) (ending : Ending) : BatchResult :=
  let active := activeItems batch
  let start : BatchState :=
    { services := s, items := itemsById active, tokens := fun _ => []
      pending := (active.map fun item => item.request.requestId).dedup }
  if active.isEmpty then { state := start, passed := none, raised := none }
  else
    let (batchStart, s) := s.perfCounter clock
    let body : BatchState × Option PyException :=
      match { start with services := s }.runActions clock batchStart actions, ending with
      | (st, some error), _ => (st, some error)
      | (st, none), .raised error => (st, some error)
      | (st, none), .normal =>
        st.sweep (fun s item tokens => completeItem clock s item tokens batchStart) (iter st.pending)
    let passed := some (active.map (·.request))
    match body with
    | (st, none) => { state := st, passed, raised := none }
    | (st, some exc) =>
      let (st, raised) := st.sweep (fun s item _ => failItem clock s item exc) (iter st.pending)
      { state := st, passed, raised }

def BatchResult.item (r : BatchResult) (item : ScheduledRequest) : ScheduledRequest :=
  (r.state.items item.request.requestId).getD item

end LLMRuntime
