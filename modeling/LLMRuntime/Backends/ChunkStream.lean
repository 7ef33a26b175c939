import LLMRuntime.Backends.ChunkReader
import LLMRuntime.Foundation.JsonDumps

namespace LLMRuntime

open Json TextLines

inductive SseLine where
  | chunk (json : List Char)
  | comment (text : List Char)
  | blank
  | done

def SseLine.text : SseLine → List Char
  | .chunk json => dataPrefix ++ json
  | .comment text => ':' :: text
  | .blank => []
  | .done => doneLine

inductive Eol where
  | lf
  | crlf
  | cr

def Eol.text : Eol → List Char
  | .lf => ['\n']
  | .crlf => ['\r', '\n']
  | .cr => ['\r']

def serverText (lines : List (SseLine × Eol)) : List Char := lines.flatMap fun line => line.1.text ++ line.2.text

def OneLine (text : List Char) : Prop := ∀ c ∈ text, c ≠ '\n' ∧ c ≠ '\r'

def Silent (choice : Value) : Prop :=
  ∃ delta content, choice.get "delta" (.obj []) = some delta ∧ delta.get "content" (.str []) = some content ∧
    (content = .str [] ∨ content = .null)

/-- `data` carries `content` in `choices[0].delta.content`, and nothing in further choices. -/
def Carries (data : Value) (content : List Nat) : Prop :=
  ∃ first others delta, data.get "choices" (.arr []) = some (.arr (first :: others)) ∧
    first.get "delta" (.obj []) = some delta ∧ delta.get "content" (.str []) = some (.str content) ∧
    ∀ choice ∈ others, Silent choice

/-- The lines of a server that sends these contents, a chunk each, in any RFC 8259 encoding that fits in a line. -/
inductive Sends : List (SseLine × Eol) → List (List Nat) → Prop where
  | nil : Sends [] []
  | chunk {json : List Char} {data : Value} {content : List Nat} {lines : List (SseLine × Eol)}
      {contents : List (List Nat)} (eol : Eol) (line : OneLine json) (encoded : IsText json data)
      (carries : Carries data content) (nonempty : content ≠ []) (rest : Sends lines contents) :
      Sends ((.chunk json, eol) :: lines) (content :: contents)
  | comment {text : List Char} {lines : List (SseLine × Eol)} {contents : List (List Nat)} (eol : Eol)
      (line : OneLine text) (rest : Sends lines contents) : Sends ((.comment text, eol) :: lines) contents
  | blank {lines : List (SseLine × Eol)} {contents : List (List Nat)} (eol : Eol) (rest : Sends lines contents) :
      Sends ((.blank, eol) :: lines) contents
  | done {lines : List (SseLine × Eol)} {contents : List (List Nat)} (eol : Eol) (rest : Sends lines contents) :
      Sends ((.done, eol) :: lines) contents

def pieces (line : List Char) : List (List Char) := splitlines (line ++ ['\n'])

/-- A line that `generate` passes over: if it is a data line, then `[DONE]` or a chunk without content. -/
def Inert (python : Interpreter) (rawLine : List Char) : Prop :=
  let line := strip isSpace rawLine
  dataPrefix <+: line → line = doneLine ∨ ∃ data, loads python (line.drop 6) = some data ∧ chunkTokens data = {}

/-- A JSON text without a boundary of `str.splitlines`, of a value within the limits of the interpreter. -/
def Loadable (python : Interpreter) (json : List Char) : Prop :=
  (∀ c ∈ json, isLineBreak c = false) ∧ ∀ data, IsText json data → data.Fits python

/-- Every JSON text can be loaded from its line, and no comment hides a data line behind a boundary. -/
def Unbroken (python : Interpreter) (lines : List (SseLine × Eol)) : Prop :=
  ∀ line ∈ lines,
    match line.1 with
    | .chunk json => Loadable python json
    | .comment text => ∀ piece ∈ pieces (':' :: text), Inert python piece
    | _ => True

variable {python : Interpreter}

section Splitting

theorem splitlines_eol {line : List Char} (oneLine : OneLine line) {b : Char} (ends : isLineBreak b = true) :
    splitlines (line ++ [b]) = pieces line := by
  unfold pieces
  induction line with
  | nil =>
    rw [List.nil_append, List.nil_append, splitlines_break ends, splitlines_break (by decide)]
    simp [afterBreak]
  | cons c line ih =>
    have later := ih fun d member => oneLine d (List.mem_cons_of_mem c member)
    rw [List.cons_append, List.cons_append]
    by_cases first : isLineBreak c = true
    · have single (text : List Char) : afterBreak c text = text := by
        simp [afterBreak, (oneLine c List.mem_cons_self).2]
      rw [splitlines_break first, splitlines_break first, single, single, later]
    · have inner : isLineBreak c = false := by simpa using first
      rw [splitlines_char inner, splitlines_char inner, later]

/-- A line feed after a carriage return makes no difference: the adapters pass over blank lines. -/
theorem readLines_afterBreak (rest : List Char) :
    readLines python (splitlines (afterBreak '\r' rest)) = readBody python rest := by
  unfold afterBreak
  split
  · next pair =>
    obtain ⟨tail, rfl⟩ := List.head?_eq_some_iff.mp pair.2
    have same : afterBreak '\n' tail = tail := by simp [afterBreak]
    rw [readBody, splitlines_break (by decide), same, readLines, readLine_nil]
    rfl
  · rfl

theorem readBody_line {line : List Char} (oneLine : OneLine line) (eol : Eol) (rest : List Char) :
    readBody python (line ++ (eol.text ++ rest)) = (readLines python (pieces line)).andThen (readBody python rest) := by
  have feed (text : List Char) : afterBreak '\n' text = text := by simp [afterBreak]
  have pair : afterBreak '\r' ('\n' :: rest) = rest := by simp [afterBreak]
  have lf : isLineBreak '\n' = true := by decide
  have cr : isLineBreak '\r' = true := by decide
  cases eol with
  | lf =>
    change readBody python (line ++ '\n' :: rest) = _
    rw [readBody, splitlines_append_break line lf, feed, readLines_append]
    rfl
  | crlf =>
    change readBody python (line ++ '\r' :: '\n' :: rest) = _
    rw [readBody, splitlines_append_break line cr, pair, readLines_append, splitlines_eol oneLine cr]
    rfl
  | cr =>
    change readBody python (line ++ '\r' :: rest) = _
    rw [readBody, splitlines_append_break line cr, readLines_append, splitlines_eol oneLine cr, readLines_afterBreak]

theorem pieces_unbroken {line : List Char} (inner : ∀ c ∈ line, isLineBreak c = false) : pieces line = [line] :=
  splitlines_line inner (by decide)

end Splitting

section Chunks

theorem isWs_isSpace {c : Char} (space : isWs c = true) : isSpace c = true := by
  simp only [isWs, decide_eq_true_eq, List.mem_cons, List.not_mem_nil, or_false] at space
  rcases space with rfl | rfl | rfl | rfl <;> decide

theorem isLineBreak_of_isWs {c : Char} (space : isWs c = true) (line : c ≠ '\n' ∧ c ≠ '\r') : isLineBreak c = false := by
  simp only [isWs, decide_eq_true_eq, List.mem_cons, List.not_mem_nil, or_false] at space
  rcases space with rfl | rfl | rfl | rfl
  · decide
  · decide
  · exact absurd rfl line.1
  · exact absurd rfl line.2

theorem choiceToken_silent {choice : Value} (silent : Silent choice) : choiceToken choice = {} := by
  obtain ⟨delta, content, found, carried, empty⟩ := silent
  rw [choiceToken, found, Option.bind_some, carried]
  rcases empty with rfl | rfl <;> rfl

theorem choiceTokens_silent {choices : List Value} (silent : ∀ choice ∈ choices, Silent choice) :
    choiceTokens choices = {} := by
  induction choices with
  | nil => rfl
  | cons choice choices ih =>
    rw [choiceTokens, choiceToken_silent (silent choice List.mem_cons_self),
      ih fun other member => silent other (List.mem_cons_of_mem choice member)]
    rfl

theorem chunkTokens_carries {data : Value} {content : List Nat} (carries : Carries data content)
    (nonempty : content ≠ []) : chunkTokens data = { tokens := [.str content] } := by
  obtain ⟨first, others, delta, choices, found, carried, silent⟩ := carries
  have truthy : (Value.str content).truthy = true := by simpa [Value.truthy] using nonempty
  have token : choiceToken first = { tokens := [.str content] } := by
    rw [choiceToken, found, Option.bind_some, carried]
    dsimp only
    rw [if_pos truthy]
  rw [chunkTokens, choices]
  dsimp only [Value.iter]
  rw [choiceTokens, token, choiceTokens_silent silent, Received.andThen_nothing]

theorem Carries.object {data : Value} {content : List Nat} (carries : Carries data content) :
    ∃ members, data = .obj members := by
  obtain ⟨first, others, delta, choices, -⟩ := carries
  cases data with
  | obj members => exact ⟨members, rfl⟩
  | null => cases choices
  | bool b => cases choices
  | num lexeme => cases choices
  | str points => cases choices
  | arr items => cases choices

theorem isText_object {json : List Char} {members : List (List Nat × Value)} (encoded : IsText json (.obj members)) :
    ∃ l inside r, json = l ++ ('{' :: (inside ++ '}' :: r)) ∧ Blank l ∧ Blank r ∧
      IsText (l ++ ('{' :: (inside ++ ['}']))) (.obj members) := by
  obtain ⟨l, inner, r, rfl, left, derived, right⟩ := encoded
  have closed : IsText (l ++ inner) (.obj members) :=
    ⟨l, inner, [], by rw [List.append_nil], left, derived, blank_nil⟩
  cases derived with
  | @emptyObject w blank => exact ⟨l, w, r, by simp, left, right, closed⟩
  | @object text ms inside => exact ⟨l, text, r, by simp, left, right, closed⟩

theorem ne_doneText {text : List Char} (brace : '{' ∈ text) : text ≠ "[DONE]".toList := by
  rintro rfl
  exact absurd brace (by decide)

variable {json : List Char} {data : Value} {content : List Nat}

theorem readLines_whole {members : List (List Nat × Value)} (encoded : IsText json (.obj members))
    (unbroken : ∀ c ∈ json, isLineBreak c = false) :
    ∃ closed, IsText closed (.obj members) ∧
      readLines python (pieces (dataPrefix ++ json)) = dataTokens python closed := by
  obtain ⟨l, inside, r, rfl, left, right, closed⟩ := isText_object encoded
  have inner (c : Char) (member : c ∈ dataPrefix ++ (l ++ ('{' :: (inside ++ '}' :: r)))) : isLineBreak c = false := by
    rcases List.mem_append.mp member with member | member
    · have all : ∀ d ∈ dataPrefix, isLineBreak d = false := forall_mem_of_all (by decide)
      exact all c member
    · exact unbroken c member
  have stripped : (l ++ ('{' :: (inside ++ '}' :: r))).rdropWhile isSpace = l ++ ('{' :: (inside ++ ['}'])) := by
    have apart : l ++ ('{' :: (inside ++ '}' :: r)) = (l ++ '{' :: inside) ++ ['}'] ++ r := by simp
    have brace : ¬ isSpace '}' = true := by decide
    rw [apart, rdropWhile_append_spaces _ fun c member => isWs_isSpace (right c member),
      List.rdropWhile_concat_neg _ _ _ brace]
    simp
  have other : l ++ ('{' :: (inside ++ ['}'])) ≠ "[DONE]".toList := ne_doneText (by simp)
  refine ⟨_, closed, ?_⟩
  rw [pieces_unbroken inner, readLines, readLines, Received.andThen_nothing,
    readLine_data ⟨'{', by simp, by decide⟩, stripped, if_neg other]

theorem readLines_chunk (encoded : IsText json data) (carries : Carries data content) (nonempty : content ≠ [])
    (loadable : Loadable python json) :
    readLines python (pieces (dataPrefix ++ json)) = { tokens := [.str content] } := by
  obtain ⟨members, rfl⟩ := carries.object
  obtain ⟨closed, text, read⟩ := readLines_whole encoded loadable.1
  rw [read, dataTokens, loads_of_isText text (loadable.2 _ encoded)]
  exact chunkTokens_carries carries nonempty

/-- A boundary inside the JSON text cuts it off, and `json.loads` raises. -/
theorem readLines_broken (line : OneLine json) (encoded : IsText json data) (carries : Carries data content)
    (broken : ¬ ∀ c ∈ json, isLineBreak c = false) :
    (readLines python (pieces (dataPrefix ++ json))).error = some .notLoaded := by
  obtain ⟨members, rfl⟩ := carries.object
  obtain ⟨l, inside, r, same, left, -, -⟩ := isText_object encoded
  obtain ⟨first, b, rest, rfl, ends, inner⟩ := exists_first_break broken
  have lineB : b ≠ '\n' ∧ b ≠ '\r' := line b (by simp)
  have notWs : isWs b = false := by
    rw [← Bool.not_eq_true]
    intro space
    rw [isLineBreak_of_isWs space lineB] at ends
    cases ends
  have brace : '{' ∈ first := by
    rcases List.append_eq_append_iff.mp same with ⟨more, ahead, tail⟩ | ⟨more, ahead, tail⟩
    · cases more with
      | nil =>
        have opened : b = '{' := List.head_eq_of_cons_eq tail
        rw [opened] at ends
        exact absurd ends (by decide)
      | cons c more =>
        have blank := left b (by
          rw [ahead, List.head_eq_of_cons_eq tail]
          simp)
        rw [notWs] at blank
        cases blank
    · cases more with
      | nil =>
        have opened : '{' = b := List.head_eq_of_cons_eq tail
        rw [← opened] at ends
        exact absurd ends (by decide)
      | cons c more =>
        have opened : '{' = c := List.head_eq_of_cons_eq tail
        rw [ahead, opened]
        simp
  obtain ⟨spaces, blank, trimmed⟩ := exists_rdropWhile_append isSpace first
  have kept : '{' ∈ first.rdropWhile isSpace := by
    rw [trimmed] at brace
    rcases List.mem_append.mp brace with member | member
    · exact member
    · exact absurd (blank '{' member) (by decide)
  have cut : decode (first.rdropWhile isSpace) = none := by
    cases part : decode (first.rdropWhile isSpace) with
    | none => rfl
    | some v =>
      have whole : decode (first.rdropWhile isSpace ++ (spaces ++ b :: rest)) = some (.obj members) := by
        rw [← List.append_assoc, ← trimmed]
        exact decode_of_isText encoded
      have space := blank_of_decode whole part b (by simp)
      rw [notWs] at space
      cases space
  have cutLine : ∀ c ∈ dataPrefix ++ first, isLineBreak c = false := by
    intro c member
    rcases List.mem_append.mp member with member | member
    · have all : ∀ d ∈ dataPrefix, isLineBreak d = false := forall_mem_of_all (by decide)
      exact all c member
    · exact inner c member
  have split : pieces (dataPrefix ++ (first ++ b :: rest)) =
      (dataPrefix ++ first) :: splitlines (afterBreak b (rest ++ ['\n'])) := by
    have apart : dataPrefix ++ (first ++ b :: rest) ++ ['\n'] = (dataPrefix ++ first) ++ b :: (rest ++ ['\n']) := by simp
    rw [pieces, apart, splitlines_first cutLine ends]
  rw [split, readLines, readLine_data ⟨'{', brace, by decide⟩, if_neg (ne_doneText kept), dataTokens,
    loads_of_decode_none cut]
  rfl

theorem readLines_unloadable (line : OneLine json) (encoded : IsText json data) (carries : Carries data content)
    (unloadable : ¬ Loadable python json) :
    (readLines python (pieces (dataPrefix ++ json))).error = some .notLoaded := by
  by_cases unbroken : ∀ c ∈ json, isLineBreak c = false
  · have beyond : ¬ data.Fits python := by
      intro fits
      refine unloadable ⟨unbroken, fun other text => ?_⟩
      have same := decode_of_isText encoded
      rw [decode_of_isText text] at same
      cases same
      exact fits
    obtain ⟨members, rfl⟩ := carries.object
    obtain ⟨closed, text, read⟩ := readLines_whole encoded unbroken
    rw [read, dataTokens, loads_beyond text beyond]
  · exact readLines_broken line encoded carries unbroken

end Chunks

section Comments

theorem readLines_eq_nothing {lines : List (List Char)} :
    readLines python lines = {} ↔ ∀ line ∈ lines, readLine python line = {} := by
  induction lines with
  | nil => simp [readLines]
  | cons line lines ih => rw [readLines, Received.andThen_eq_nothing, ih, List.forall_mem_cons]

theorem readLine_inert {rawLine : List Char} : readLine python rawLine = {} ↔ Inert python rawLine := by
  unfold readLine Inert
  dsimp only
  by_cases marked : dataPrefix <+: strip isSpace rawLine
  · obtain ⟨rest, same⟩ := marked
    rw [← same]
    have nonempty : (dataPrefix ++ rest).isEmpty = false := rfl
    have first : (dataPrefix ++ rest).head? = some 'd' := rfl
    have isPrefix : dataPrefix.isPrefixOf (dataPrefix ++ rest) = true :=
      List.isPrefixOf_iff_prefix.mpr (List.prefix_append _ _)
    by_cases done : dataPrefix ++ rest = doneLine
    · simp [done]
    · have going : ¬ ((dataPrefix ++ rest).isEmpty = true ∨ (dataPrefix ++ rest).head? = some ':' ∨
          dataPrefix ++ rest = doneLine) := by
        rintro (empty | comment | last)
        · rw [nonempty] at empty
          cases empty
        · rw [first] at comment
          cases comment
        · exact done last
      rw [if_neg going, if_pos isPrefix, dataTokens]
      cases loads python ((dataPrefix ++ rest).drop 6) with
      | none => simp [done]
      | some data => simp [done]
  · have unmarked : ¬ dataPrefix.isPrefixOf (strip isSpace rawLine) = true :=
      fun isPrefix => marked (List.isPrefixOf_iff_prefix.mp isPrefix)
    rw [if_neg unmarked, ite_self]
    exact ⟨fun _ isPrefix => absurd isPrefix marked, fun _ => rfl⟩

theorem inert_comment (text : List Char) : Inert python (':' :: text) := by
  intro marked
  have whole : strip isSpace (':' :: text) <+: ':' :: text := by
    rw [strip_eq (by decide)]
    exact List.rdropWhile_prefix _ _
  obtain ⟨rest, same⟩ := marked.trans whole
  cases List.head_eq_of_cons_eq same

end Comments

section Streams

variable {lines : List (SseLine × Eol)} {contents : List (List Nat)}

theorem readBody_serverText_cons {line : SseLine} (oneLine : OneLine line.text) (eol : Eol) :
    readBody python (serverText ((line, eol) :: lines)) = (readLines python (pieces line.text)).andThen (readBody python (serverText lines)) := by
  have text : serverText ((line, eol) :: lines) = line.text ++ (eol.text ++ serverText lines) := by
    rw [serverText, List.flatMap_cons, List.append_assoc]
    rfl
  rw [text, readBody_line oneLine]

theorem oneLine_chunk {json : List Char} (line : OneLine json) : OneLine (SseLine.chunk json).text := by
  intro c member
  rcases List.mem_append.mp member with member | member
  · have all : ∀ d ∈ dataPrefix, d ≠ '\n' ∧ d ≠ '\r' := forall_mem_of_all (by decide)
    exact all c member
  · exact line c member

theorem oneLine_comment {text : List Char} (line : OneLine text) : OneLine (SseLine.comment text).text := by
  intro c member
  rcases List.mem_cons.mp member with rfl | member
  · decide
  · exact line c member

theorem readBody_blank (eol : Eol) : readBody python (serverText ((.blank, eol) :: lines)) = readBody python (serverText lines) := by
  rw [readBody_serverText_cons (by simp [OneLine, SseLine.text])]
  rfl

theorem readBody_done (eol : Eol) : readBody python (serverText ((.done, eol) :: lines)) = readBody python (serverText lines) := by
  have oneLine : OneLine SseLine.done.text := by
    have all : ∀ c ∈ doneLine, c ≠ '\n' ∧ c ≠ '\r' := forall_mem_of_all (by decide)
    exact all
  have single : pieces doneLine = [doneLine] := by
    have all : ∀ c ∈ doneLine, isLineBreak c = false := forall_mem_of_all (by decide)
    exact pieces_unbroken all
  rw [readBody_serverText_cons oneLine]
  change (readLines python (pieces doneLine)).andThen _ = _
  rw [single, readLines, readLine_doneLine]
  rfl

/-- A stream that is read without an exception yields all its contents, and perhaps more. -/
theorem Sends.length_le (sent : Sends lines contents) (quiet : (readBody python (serverText lines)).error = none) :
    contents.length ≤ (readBody python (serverText lines)).tokens.length := by
  induction sent with
  | nil => exact Nat.zero_le _
  | @chunk json data content lines contents eol line encoded carries nonempty rest ih =>
    rw [readBody_serverText_cons (oneLine_chunk line)] at quiet ⊢
    by_cases loadable : Loadable python json
    · have read : readLines python (pieces (SseLine.chunk json).text) = { tokens := [.str content] } :=
        readLines_chunk encoded carries nonempty loadable
      rw [read] at quiet ⊢
      have later := ih quiet
      simp only [Received.andThen, List.length_append, List.length_cons, List.length_nil]
      omega
    · have failed : (readLines python (pieces (SseLine.chunk json).text)).error = some .notLoaded :=
        readLines_unloadable line encoded carries loadable
      rw [(Received.andThen_error_none.mp quiet).1] at failed
      cases failed
  | @comment text lines contents eol line rest ih =>
    rw [readBody_serverText_cons (oneLine_comment line)] at quiet ⊢
    obtain ⟨first, second⟩ := Received.andThen_error_none.mp quiet
    have later := ih second
    rw [Received.andThen_tokens first, List.length_append]
    omega
  | @blank lines contents eol rest ih =>
    rw [readBody_blank] at quiet ⊢
    exact ih quiet
  | @done lines contents eol rest ih =>
    rw [readBody_done] at quiet ⊢
    exact ih quiet

theorem Unbroken.cons_iff {line : SseLine × Eol} :
    Unbroken python (line :: lines) ↔ Unbroken python [line] ∧ Unbroken python lines := by
  simp [Unbroken]

theorem Sends.readBody_iff (sent : Sends lines contents) :
    readBody python (serverText lines) = { tokens := contents.map .str } ↔ Unbroken python lines := by
  induction sent with
  | nil => exact ⟨fun _ => by simp [Unbroken], fun _ => rfl⟩
  | @chunk json data content lines contents eol line encoded carries nonempty rest ih =>
    rw [readBody_serverText_cons (oneLine_chunk line), Unbroken.cons_iff, ← ih]
    have single : Unbroken python [(SseLine.chunk json, eol)] ↔ Loadable python json := by simp [Unbroken]
    rw [single]
    by_cases loadable : Loadable python json
    · have read : readLines python (pieces (SseLine.chunk json).text) = { tokens := [.str content] } :=
        readLines_chunk encoded carries nonempty loadable
      rw [read, and_iff_right loadable]
      obtain ⟨tokens, error⟩ := readBody python (serverText lines)
      simp [Received.andThen]
    · have failed : (readLines python (pieces (SseLine.chunk json).text)).error = some .notLoaded :=
        readLines_unloadable line encoded carries loadable
      constructor
      · intro same
        have quiet := congrArg Received.error same
        rw [(Received.andThen_error_none.mp quiet).1] at failed
        cases failed
      · rintro ⟨all, -⟩
        exact absurd all loadable
  | @comment text lines contents eol line rest ih =>
    rw [readBody_serverText_cons (oneLine_comment line), Unbroken.cons_iff, ← ih]
    have single : Unbroken python [(SseLine.comment text, eol)] ↔ readLines python (pieces (SseLine.comment text).text) = {} := by
      rw [readLines_eq_nothing]
      simp only [readLine_inert]
      simp [Unbroken, SseLine.text]
    rw [single]
    constructor
    · intro same
      obtain ⟨first, second⟩ := Received.andThen_error_none.mp (congrArg Received.error same)
      have tokens := congrArg Received.tokens same
      rw [Received.andThen_tokens first] at tokens
      have all := rest.length_le second
      have lengths := congrArg List.length tokens
      rw [List.length_append, List.length_map] at lengths
      have none_ : (readLines python (pieces (SseLine.comment text).text)).tokens = [] := List.length_eq_zero_iff.mp (by omega)
      rw [none_, List.nil_append] at tokens
      exact ⟨Received.ext none_ first, Received.ext tokens second⟩
    · rintro ⟨nothing, later⟩
      rw [nothing, later]
      rfl
  | @blank lines contents eol rest ih =>
    rw [readBody_blank, ih, Unbroken.cons_iff]
    simp [Unbroken]
  | @done lines contents eol rest ih =>
    rw [readBody_done, ih, Unbroken.cons_iff]
    simp [Unbroken]

/-- For a server that sends a chunk for each of the contents, in any RFC 8259 encoding of one line, with comments and
    blank lines between them and `[DONE]` at the end: the adapters yield the contents, and do not raise, exactly
    when no text of the stream holds a boundary that `str.splitlines` knows and an event stream does not, and no chunk
    holds an integer of more digits, or nests deeper, than `json.loads` takes. -/
theorem chunk_stream_decoded_iff (python : Interpreter) {b : ServerBackend} (started : b.client = true)
    (sent : Sends lines contents) :
    b.generate python 200 (serverText lines) = { tokens := contents.map .str } ↔ Unbroken python lines := by
  rw [ServerBackend.generate_ok started]
  exact sent.readBody_iff

def readyServer : ServerBackend := { LlamaCppBackend.create "model" with client := true, process := some 0, spawned := [{}] }

def deltaChunk (content : List Nat) : Value :=
  .obj [(ofString "choices", .arr [.obj [(ofString "delta", .obj [(ofString "content", .str content)])]])]

theorem carries_deltaChunk (content : List Nat) : Carries (deltaChunk content) content :=
  ⟨.obj [(ofString "delta", .obj [(ofString "content", .str content)])], [], .obj [(ofString "content", .str content)],
    rfl, rfl, rfl, by simp⟩

def oneChunkLines : List (SseLine × Eol) :=
  [(.comment (" ping".toList), .crlf), (.chunk (dumps (deltaChunk (ofString "é"))), .lf), (.blank, .lf), (.done, .cr)]

theorem chunk_stream_decoded_iff_one :
    readyServer.generate ⟨900, by decide⟩ 200 (serverText oneChunkLines) = { tokens := [.str (ofString "é")] } := by
  have scalars (name : String) (all : ∀ c ∈ name.toList, c.toNat < 0xd800) : ∀ point ∈ ofString name, Scalar point := by
    intro point member
    obtain ⟨c, inside, rfl⟩ := List.mem_map.mp member
    have bound := all c inside
    exact ⟨by omega, by omega⟩
  have plain : Plain (deltaChunk (ofString "é")) := by
    simp only [deltaChunk, Plain, PlainMembers, PlainItems, and_true]
    exact ⟨scalars "choices" (forall_mem_of_all (by decide)), scalars "delta" (forall_mem_of_all (by decide)),
      scalars "content" (forall_mem_of_all (by decide)), scalars "é" (forall_mem_of_all (by decide))⟩
  have encoded : IsText (dumps (deltaChunk (ofString "é"))) (deltaChunk (ofString "é")) :=
    .of_encodes (dumps_encodes _ plain)
  have commented : OneLine " ping".toList := by
    have all : ∀ c ∈ " ping".toList, c ≠ '\n' ∧ c ≠ '\r' := forall_mem_of_all (by decide)
    exact all
  have line : OneLine (dumps (deltaChunk (ofString "é"))) := by
    have all : ∀ c ∈ dumps (deltaChunk (ofString "é")), c ≠ '\n' ∧ c ≠ '\r' := forall_mem_of_all (by decide +kernel)
    exact all
  have sent : Sends oneChunkLines [ofString "é"] :=
    .comment .crlf commented (.chunk .lf line encoded (carries_deltaChunk _) (by decide) (.blank .lf (.done .cr .nil)))
  refine (chunk_stream_decoded_iff _ (b := readyServer) rfl sent).mpr ?_
  have loadable : Loadable ⟨900, by decide⟩ (dumps (deltaChunk (ofString "é"))) := by
    refine ⟨forall_mem_of_all (by decide +kernel), fun data text => ?_⟩
    have same := decode_of_isText encoded
    rw [decode_of_isText text] at same
    cases same
    exact ⟨rfl, by decide⟩
  have inert : ∀ piece ∈ pieces (':' :: " ping".toList), Inert ⟨900, by decide⟩ piece := by
    rw [pieces_unbroken (forall_mem_of_all (by decide)), List.forall_mem_singleton]
    exact inert_comment _
  simp only [Unbroken, oneChunkLines, List.forall_mem_cons]
  exact ⟨inert, loadable, trivial, trivial, by simp⟩

/-- The same chunk with `a`, LINE SEPARATOR, `b` as its content, raw between the quotes. -/
def rawChunk : List Char := "\x7b\"choices\": [\x7b\"delta\": \x7b\"content\": \"a\u2028b\"\x7d\x7d]\x7d".toList

theorem raw_line_separator_fails :
    Sends [(.chunk rawChunk, .lf), (.blank, .lf), (.done, .lf)] [ofString "a\u2028b"] ∧
      (readyServer.generate ⟨900, by decide⟩ 200 (serverText [(.chunk rawChunk, .lf), (.blank, .lf), (.done, .lf)])).error =
        some .notLoaded := by
  have delta := Encodes.object (.member blank_nil (.ofString "content" (by decide)) blank_nil blank_space
    (.string (.ofString "a\u2028b" (by decide))) blank_nil)
  have choice := Encodes.object (.member blank_nil (.ofString "delta" (by decide)) blank_nil blank_space delta blank_nil)
  have chunk := Encodes.object (.member blank_nil (.ofString "choices" (by decide)) blank_nil blank_space
    (.array (.item blank_nil choice blank_nil)) blank_nil)
  have line : OneLine rawChunk := by
    have all : ∀ c ∈ rawChunk, c ≠ '\n' ∧ c ≠ '\r' := forall_mem_of_all (by decide)
    exact all
  refine ⟨.chunk .lf line (.of_encodes chunk) ?_ (by decide) (.blank .lf (.done .lf .nil)), ?_⟩
  · exact ⟨_, [], _, rfl, rfl, rfl, by simp⟩
  · decide +kernel

end Streams

end LLMRuntime
