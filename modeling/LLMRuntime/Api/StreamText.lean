import LLMRuntime.Api.Streaming
import LLMRuntime.Backends.ChunkReader
import LLMRuntime.Foundation.JsonDumps

namespace LLMRuntime

open Json TextLines

def SseChunk.payload (c : SseChunk) : Value :=
  .obj [
    (ofString "id", .str (ofString c.id)),
    (ofString "object", .str (ofString c.object)),
    (ofString "model", .str (ofString c.model)),
    (ofString "choices", .arr [.obj [
      (ofString "index", .num (toString c.index).toList),
      (ofString "delta", .obj [(ofString "content", .str (ofString c.deltaContent))]),
      (ofString "finish_reason", match c.finishReason with
        | none => .null
        | some reason => .str (ofString reason))]])]

def errorPayload (message : String) : Value :=
  .obj [(ofString "error", .obj [(ofString "message", .str (ofString message))])]

def sseEvent (payload : Value) : List Char := dataPrefix ++ (dumps payload ++ "\n\n".toList)

namespace SseFrame

def text : SseFrame → List Char
  | .chunk payload => sseEvent payload.payload
  | .done => "data: [DONE]\n\n".toList
  | .error message => sseEvent (errorPayload message)

def dataLine : SseFrame → List Char
  | .chunk payload => dataPrefix ++ dumps payload.payload
  | .done => doneLine
  | .error message => dataPrefix ++ dumps (errorPayload message)

end SseFrame

def streamText (frames : List SseFrame) : List Char := frames.flatMap SseFrame.text

def eventLines (frames : List SseFrame) : List (List Char) := frames.flatMap fun frame => [frame.dataLine, []]

theorem scalar_ofString (s : String) : ∀ point ∈ ofString s, Scalar point := by
  intro point member
  obtain ⟨c, -, rfl⟩ := List.mem_map.mp member
  rcases c.valid with low | ⟨above, below⟩
  · have bound : c.toNat < 0xd800 := low
    exact ⟨by omega, by omega⟩
  · have lower : 0xdfff < c.toNat := above
    have upper : c.toNat < 0x110000 := below
    exact ⟨upper, by omega⟩

theorem SseChunk.payload_plain {c : SseChunk} (first : c.index = 0) : Plain c.payload := by
  have zero : NumberText (toString c.index).toList := by
    rw [first]
    exact ⟨[], ['0'], [], [], rfl, .inl rfl, .inl rfl, .inl rfl, .inl rfl⟩
  have reason : Plain (match c.finishReason with
      | none => .null
      | some reason => .str (ofString reason)) := by
    cases c.finishReason with
    | none => trivial
    | some reason => exact scalar_ofString reason
  simp only [SseChunk.payload, Plain, PlainMembers, PlainItems, and_true]
  exact ⟨scalar_ofString _, scalar_ofString _, scalar_ofString _, scalar_ofString _, scalar_ofString _, scalar_ofString _,
    scalar_ofString _, scalar_ofString _, zero, scalar_ofString _, ⟨scalar_ofString _, scalar_ofString _⟩,
    scalar_ofString _, reason⟩

theorem SseChunk.payload_nesting (c : SseChunk) : c.payload.nesting = 4 := by
  obtain ⟨id, object, model, index, content, reason⟩ := c
  cases reason <;> rfl

theorem SseChunk.payload_intsFit {c : SseChunk} (first : c.index = 0) : c.payload.intsFit = true := by
  have short : intFits (toString c.index).toList = true := by
    rw [first]
    decide
  have reason : (match c.finishReason with
      | none => Value.null
      | some reason => .str (ofString reason)).intsFit = true := by
    cases c.finishReason <;> rfl
  simp only [SseChunk.payload, Value.intsFit, Value.itemsFit, Value.membersFit, short, reason, Bool.and_true]

theorem errorPayload_plain (message : String) : Plain (errorPayload message) := by
  simp only [errorPayload, Plain, PlainMembers, and_true]
  exact ⟨scalar_ofString _, scalar_ofString _, scalar_ofString _⟩

namespace SseFrame

/-- The payload of the frame, if it has one, is a JSON value, of a choice with a short index. -/
def Sound : SseFrame → Prop
  | .chunk payload => Plain payload.payload ∧ payload.payload.intsFit = true
  | _ => True

theorem text_eq (frame : SseFrame) : frame.text = frame.dataLine ++ '\n' :: ['\n'] := by
  have event (payload : Value) : sseEvent payload = dataPrefix ++ dumps payload ++ '\n' :: ['\n'] := by
    rw [sseEvent, List.append_assoc]
    rfl
  cases frame with
  | chunk payload => exact event payload.payload
  | done => rfl
  | error message => exact event (errorPayload message)

end SseFrame

theorem sseFrame_sound (requestId model : String) (event : StreamEvent) : (sseFrame requestId model event).Sound := by
  cases event with
  | token text =>
    let chunk : SseChunk := { id := requestId, model, deltaContent := text }
    have plain : Plain chunk.payload := SseChunk.payload_plain rfl
    exact ⟨plain, SseChunk.payload_intsFit rfl⟩
  | completed reason => trivial
  | error message => trivial

theorem isLineBreak_of_printable {c : Char} (printable : Printable c) : isLineBreak c = false := by
  rw [← Bool.not_eq_true]
  intro ends
  simp only [isLineBreak, decide_eq_true_eq, List.mem_cons, List.not_mem_nil, or_false] at ends
  obtain ⟨low, high⟩ := printable
  rcases ends with rfl | rfl | rfl | rfl | rfl | rfl | rfl | rfl | rfl | rfl
  all_goals simp at low high

section Framing

variable {python : Interpreter}

theorem SseFrame.dataLine_printable {frame : SseFrame} (sound : frame.Sound) : ∀ c ∈ frame.dataLine, Printable c := by
  have event {payload : Value} (plain : Plain payload) : ∀ c ∈ dataPrefix ++ dumps payload, Printable c := by
    intro c member
    rcases List.mem_append.mp member with member | member
    · have all : ∀ d ∈ dataPrefix, Printable d := forall_mem_of_all (by decide)
      exact all c member
    · exact dumps_printable payload plain c member
  cases frame with
  | chunk payload => exact event sound.1
  | done =>
    have all : ∀ c ∈ doneLine, Printable c := forall_mem_of_all (by decide)
    exact all
  | error message => exact event (errorPayload_plain message)

theorem splitlines_frame {frame : SseFrame} (sound : frame.Sound) (rest : List Char) :
    splitlines (frame.text ++ rest) = frame.dataLine :: [] :: splitlines rest := by
  have inner (c : Char) (member : c ∈ frame.dataLine) : isLineBreak c = false :=
    isLineBreak_of_printable (SseFrame.dataLine_printable sound c member)
  have same (text : List Char) : afterBreak '\n' text = text := by simp [afterBreak]
  rw [frame.text_eq, List.append_assoc, List.cons_append, splitlines_first inner (by decide), same,
    List.singleton_append, splitlines_break (by decide), same]

theorem splitlines_streamText {frames : List SseFrame} (sound : ∀ frame ∈ frames, frame.Sound) :
    splitlines (streamText frames) = eventLines frames := by
  induction frames with
  | nil => rfl
  | cons frame frames ih =>
    have later := ih fun other member => sound other (List.mem_cons_of_mem frame member)
    have first := splitlines_frame (sound frame List.mem_cons_self) (streamText frames)
    rw [streamText, List.flatMap_cons]
    change splitlines (frame.text ++ streamText frames) = _
    rw [first, later]
    rfl

theorem readLines_frames (frames : List SseFrame) :
    readLines python (eventLines frames) =
      frames.foldr (fun frame received => (readLine python frame.dataLine).andThen received) {} := by
  induction frames with
  | nil => rfl
  | cons frame frames ih =>
    rw [eventLines, List.flatMap_cons, readLines_append]
    change (readLines python [frame.dataLine, []]).andThen (readLines python (eventLines frames)) = _
    rw [ih, readLines, readLines, readLine_nil, readLines]
    simp

theorem readLine_dumps {members : List (List Nat × Value)} (plain : Plain (.obj members))
    (fits : Value.Fits python (.obj members)) :
    readLine python (dataPrefix ++ dumps (.obj members)) = chunkTokens (.obj members) := by
  have written : dumps (.obj members) = '{' :: dumpsMembers members ++ ['}'] := by rw [dumps]; rfl
  have visible : ∃ c ∈ dumps (.obj members), isSpace c = false := ⟨'{', by rw [written]; simp, by decide⟩
  have whole : (dumps (.obj members)).rdropWhile isSpace = dumps (.obj members) := by
    rw [written]
    exact List.rdropWhile_concat_neg _ _ _ (by decide)
  have other : dumps (.obj members) ≠ "[DONE]".toList := by
    rw [written]
    intro same
    cases List.head_eq_of_cons_eq same
  rw [readLine_data visible, whole, if_neg other, dataTokens,
    loads_of_isText (.of_encodes (dumps_encodes _ plain)) fits]

def contentTokens (content : String) : List Value := if content = "" then [] else [.str (ofString content)]

theorem truthy_str (s : String) : (Value.str (ofString s)).truthy = decide (s ≠ "") := by
  rw [Value.truthy, ofString, List.isEmpty_map]
  by_cases empty : s = ""
  · rw [empty]
    rfl
  · have nonempty : s.toList.isEmpty = false := by
      rw [← Bool.not_eq_true, List.isEmpty_iff, String.toList_eq_nil_iff]
      exact empty
    simp [nonempty, empty]

theorem chunkTokens_payload (c : SseChunk) : chunkTokens c.payload = { tokens := contentTokens c.deltaContent } := by
  let choice : Value := .obj [
    (ofString "index", .num (toString c.index).toList),
    (ofString "delta", .obj [(ofString "content", .str (ofString c.deltaContent))]),
    (ofString "finish_reason", match c.finishReason with
      | none => .null
      | some reason => .str (ofString reason))]
  have choices : c.payload.get "choices" (.arr []) = some (.arr [choice]) := rfl
  have token : (choice.get "delta" (.obj [])).bind (fun delta => delta.get "content" (.str [])) =
      some (.str (ofString c.deltaContent)) := rfl
  rw [chunkTokens, choices]
  dsimp only [Value.iter]
  rw [choiceTokens, choiceTokens, Received.andThen_nothing, choiceToken, token]
  dsimp only
  rw [truthy_str, contentTokens]
  by_cases empty : c.deltaContent = ""
  · simp [empty]
  · simp [empty]

theorem chunkTokens_error (message : String) : chunkTokens (errorPayload message) = {} := rfl

theorem readLine_dataLine {frame : SseFrame} (sound : frame.Sound) :
    readLine python frame.dataLine = { tokens := contentTokens frame.deltaContent } := by
  cases frame with
  | chunk payload =>
    have fits : payload.payload.Fits python := ⟨sound.2, (SseChunk.payload_nesting payload).trans_le python.room⟩
    exact (readLine_dumps sound.1 fits).trans (chunkTokens_payload payload)
  | done => exact readLine_doneLine
  | error message =>
    have fits : (errorPayload message).Fits python := ⟨rfl, le_trans (show 2 ≤ 4 by decide) python.room⟩
    exact (readLine_dumps (errorPayload_plain message) fits).trans (chunkTokens_error message)

/-- The adapters' parser never raises on a stream, whatever event it ends with. -/
theorem readBody_streamText {frames : List SseFrame} (sound : ∀ frame ∈ frames, frame.Sound) :
    readBody python (streamText frames) = { tokens := frames.flatMap fun frame => contentTokens frame.deltaContent } := by
  rw [readBody, splitlines_streamText sound, readLines_frames]
  induction frames with
  | nil => rfl
  | cons frame frames ih =>
    rw [List.foldr_cons, ih fun other member => sound other (List.mem_cons_of_mem frame member),
      readLine_dataLine (sound frame List.mem_cons_self), List.flatMap_cons]
    rfl

theorem contentTokens_flatMap (requestId model : String) (tokens : List String) :
    (tokens.map fun token => sseFrame requestId model (.token token)).flatMap (fun frame => contentTokens frame.deltaContent) =
      (tokens.filter (· ≠ "")).map fun token => .str (ofString token) := by
  induction tokens with
  | nil => rfl
  | cons token tokens ih =>
    rw [List.map_cons, List.flatMap_cons, ih]
    by_cases empty : token = ""
    · subst empty
      rfl
    · rw [List.filter_cons_of_pos (by simpa using empty), List.map_cons]
      change contentTokens token ++ _ = _
      rw [contentTokens, if_neg empty]
      rfl

theorem dataLine_chunk_ne_done (payload : SseChunk) : (SseFrame.chunk payload).dataLine ≠ doneLine := by
  intro same
  have tail : dumps payload.payload = "[DONE]".toList := (List.append_right_inj dataPrefix).mp same
  rw [SseChunk.payload, dumps] at tail
  cases List.head_eq_of_cons_eq tail

theorem nil_ne_doneLine : [] ≠ doneLine := by decide

/-- `[DONE]` after frames that are no such line: where it stands among the lines. -/
theorem doneLine_position {frames : List SseFrame} (other : ∀ frame ∈ frames, frame.dataLine ≠ doneLine) (k : Nat) :
    (eventLines (frames ++ [SseFrame.done]))[k]? = some doneLine ↔ k = 2 * frames.length := by
  have lines (frame : SseFrame) (later : List SseFrame) :
      eventLines (frame :: later) = frame.dataLine :: [] :: eventLines later := rfl
  have blank (n : Nat) : some [] = some doneLine ↔ 1 = 2 * n := by
    constructor
    · intro same
      exact absurd (Option.some.inj same) nil_ne_doneLine
    · omega
  induction frames generalizing k with
  | nil =>
    rw [List.nil_append, lines, List.length_nil]
    match k with
    | 0 => exact ⟨fun _ => rfl, fun _ => rfl⟩
    | 1 => exact blank 0
    | k + 2 =>
      have past : (eventLines [])[k]? = none := rfl
      rw [List.getElem?_cons_succ, List.getElem?_cons_succ, past]
      exact ⟨fun found => (by cases found), fun same => (by omega)⟩
  | cons frame frames ih =>
    have first := other frame List.mem_cons_self
    have later := ih fun next member => other next (List.mem_cons_of_mem frame member)
    rw [List.cons_append, lines, List.length_cons]
    match k with
    | 0 => exact ⟨fun same => absurd (Option.some.inj same) first, fun same => (by omega)⟩
    | 1 => exact blank _
    | k + 2 =>
      rw [List.getElem?_cons_succ, List.getElem?_cons_succ]
      exact (later k).trans (by omega)

theorem frames_completed (requestId model : String) (tokens : List String) (last : StreamEvent)
    (terminal : last.isTerminal = true) :
    chatCompletionStream requestId model (tokens.map .token ++ [last]) =
      (tokens.map fun token => sseFrame requestId model (.token token)) ++ [sseFrame requestId model last] := by
  rw [chatCompletionStream_tokens requestId model tokens last terminal, List.map_append, List.map_map]
  rfl

theorem chatCompletionStream_sound (requestId model : String) (events : List StreamEvent) :
    ∀ frame ∈ chatCompletionStream requestId model events, frame.Sound := by
  induction events with
  | nil => simp [chatCompletionStream]
  | cons event events ih =>
    rw [chatCompletionStream, List.forall_mem_cons]
    refine ⟨sseFrame_sound requestId model event, ?_⟩
    split
    · simp
    · exact ih

/-- Whatever the tokens are, the text of a completed stream has one data line and one blank line for each event,
    `data: [DONE]` is the last data line only, and the adapters read back the tokens that are not empty. -/
theorem content_forges_no_frame (python : Interpreter) (requestId model : String) (tokens : List String) (reason : String) :
    let frames := chatCompletionStream requestId model (tokens.map .token ++ [.completed reason])
    let lines := splitlines (streamText frames)
    frames.length = tokens.length + 1 ∧ lines = eventLines frames ∧
      (∀ frame ∈ frames, dataPrefix <+: frame.dataLine) ∧ (∀ k, lines[k]? = some doneLine ↔ k = 2 * tokens.length) ∧
      readBody python (streamText frames) = { tokens := (tokens.filter (· ≠ "")).map fun token => .str (ofString token) } := by
  intro frames lines
  have sound : ∀ frame ∈ frames, frame.Sound := chatCompletionStream_sound requestId model _
  have split : lines = eventLines frames := splitlines_streamText sound
  have ordered : frames = (tokens.map fun token => sseFrame requestId model (.token token)) ++ [.done] :=
    frames_completed requestId model tokens (.completed reason) rfl
  refine ⟨by simp [ordered], split, ?_, fun k => ?_, ?_⟩
  · intro frame _
    cases frame with
    | chunk payload => exact List.prefix_append _ _
    | done => exact ⟨"[DONE]".toList, rfl⟩
    | error message => exact List.prefix_append _ _
  · have other : ∀ frame ∈ tokens.map fun token => sseFrame requestId model (.token token),
        frame.dataLine ≠ doneLine := by
      intro frame member
      obtain ⟨token, -, rfl⟩ := List.mem_map.mp member
      exact dataLine_chunk_ne_done _
    rw [split, ordered, doneLine_position other, List.length_map]
  · rw [readBody_streamText sound, ordered, List.flatMap_append, contentTokens_flatMap]
    simp [SseFrame.deltaContent, contentTokens]

end Framing

section Failure

theorem generate_streamText {python : Interpreter} {b : ServerBackend} (started : b.client = true) (requestId model : String)
    (events : List StreamEvent) :
    (b.generate python 200 (streamText (chatCompletionStream requestId model events))).error = none := by
  rw [ServerBackend.generate_ok started, readBody_streamText (chatCompletionStream_sound requestId model events)]

/-- The adapters raise for a stream that ends with an error frame exactly when it does not end with one: an error
    frame has no choices, so they take it for the end of a complete answer. -/
theorem failure_reported_iff (python : Interpreter) {b : ServerBackend} (started : b.client = true)
    (requestId model : String) (tokens : List String) (last : StreamEvent) (terminal : last.isTerminal = true) :
    let received := b.generate python 200 (streamText (chatCompletionStream requestId model (tokens.map .token ++ [last])))
    ((received.error = none → ∃ reason, last = .completed reason) ∧
        ((∃ message, last = .error message) → received.error ≠ none)) ↔
      ¬ ∃ message, last = .error message := by
  intro received
  have quiet : received.error = none := generate_streamText started requestId model _
  constructor
  · rintro ⟨-, raises⟩ failed
    exact raises failed quiet
  · intro reported
    refine ⟨fun _ => ?_, fun failed => absurd failed reported⟩
    cases last with
    | token text => cases terminal
    | completed reason => exact ⟨reason, rfl⟩
    | error message => exact absurd ⟨message, rfl⟩ reported

def python311 : Interpreter := ⟨900, by decide⟩

def startedVllm : ServerBackend := { VLLMBackend.create "model" with client := true, process := some 0, spawned := [{}] }

theorem failure_reported_iff_error :
    ¬ (((startedVllm.generate python311 200 (streamText (chatCompletionStream "chatcmpl-1" "mock-llm"
          [.token "tok0 ", .token "tok1 ", .error "out of memory"]))).error = none →
        ∃ reason, StreamEvent.error "out of memory" = .completed reason) ∧
      ((∃ message, StreamEvent.error "out of memory" = .error message) →
        (startedVllm.generate python311 200 (streamText (chatCompletionStream "chatcmpl-1" "mock-llm"
          [.token "tok0 ", .token "tok1 ", .error "out of memory"]))).error ≠ none)) :=
  fun reported => (failure_reported_iff python311 (b := startedVllm) rfl "chatcmpl-1" "mock-llm" ["tok0 ", "tok1 "]
    (.error "out of memory") rfl).mp reported ⟨"out of memory", rfl⟩

/-- Two tokens and then an error: `generate` yields the tokens and ends as after a complete answer. -/
theorem relayed_failure_ends_normally :
    let received := startedVllm.generate python311 200 (streamText (chatCompletionStream "chatcmpl-1" "mock-llm"
      [.token "tok0 ", .token "tok1 ", .error "out of memory"]))
    received.error = none ∧ received.tokens = [.str (ofString "tok0 "), .str (ofString "tok1 ")] := by
  intro received
  have read : received = _ := (ServerBackend.generate_ok rfl _).trans
    (readBody_streamText (chatCompletionStream_sound "chatcmpl-1" "mock-llm" _))
  rw [read]
  exact ⟨rfl, rfl⟩

end Failure

end LLMRuntime
