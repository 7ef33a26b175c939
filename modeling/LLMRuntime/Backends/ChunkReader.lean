import LLMRuntime.Backends.Server
import LLMRuntime.Core.Request
import LLMRuntime.Foundation.JsonLoads
import LLMRuntime.Foundation.TextLines

namespace LLMRuntime

open Json TextLines

/-- What `generate` raises; `notLoaded` is the exception of `json.loads`, and `notIterable` and `attribute` are the
    `TypeError` and `AttributeError` of a JSON text that is no chunk. -/
inductive ReadError where
  | notStarted (message : String)
  | httpStatus (code : Nat)
  | notLoaded
  | attribute
  | notIterable
  deriving DecidableEq, Repr

@[ext] structure Received where
  tokens : List Value := []
  error : Option ReadError := none

namespace Received

def andThen (first second : Received) : Received :=
  match first.error with
  | some error => ⟨first.tokens, some error⟩
  | none => ⟨first.tokens ++ second.tokens, second.error⟩

@[simp] theorem nothing_andThen (second : Received) : andThen {} second = second := rfl

@[simp] theorem andThen_nothing (first : Received) : first.andThen {} = first := by
  obtain ⟨tokens, error⟩ := first
  cases error <;> simp [andThen]

theorem andThen_assoc (first second third : Received) :
    (first.andThen second).andThen third = first.andThen (second.andThen third) := by
  obtain ⟨tokens, error⟩ := first
  obtain ⟨more, later⟩ := second
  cases error <;> cases later <;> simp [andThen]

theorem andThen_error_none {first second : Received} :
    (first.andThen second).error = none ↔ first.error = none ∧ second.error = none := by
  obtain ⟨tokens, error⟩ := first
  cases error <;> simp [andThen]

theorem andThen_tokens {first : Received} (quiet : first.error = none) (second : Received) :
    (first.andThen second).tokens = first.tokens ++ second.tokens := by
  rw [andThen, quiet]

theorem andThen_eq_nothing {first second : Received} : first.andThen second = {} ↔ first = {} ∧ second = {} := by
  obtain ⟨tokens, error⟩ := first
  obtain ⟨more, later⟩ := second
  cases error <;> simp [andThen, and_assoc]

end Received

def choiceToken (choice : Value) : Received :=
  match (choice.get "delta" (.obj [])).bind fun delta => delta.get "content" (.str []) with
  | none => { error := some .attribute }
  | some token => if token.truthy then { tokens := [token] } else {}

def choiceTokens : List Value → Received
  | [] => {}
  | choice :: choices => (choiceToken choice).andThen (choiceTokens choices)

/-- The inner loop of `generate`, over the choices of one chunk. -/
def chunkTokens (data : Value) : Received :=
  match data.get "choices" (.arr []) with
  | none => { error := some .attribute }
  | some choices =>
    match choices.iter with
    | none => { error := some .notIterable }
    | some choices => choiceTokens choices

def doneLine : List Char := "data: [DONE]".toList

def dataPrefix : List Char := "data: ".toList

def dataTokens (python : Interpreter) (text : List Char) : Received :=
  match loads python text with
  | none => { error := some .notLoaded }
  | some data => chunkTokens data

def readLine (python : Interpreter) (rawLine : List Char) : Received :=
  let line := strip isSpace rawLine
  if line.isEmpty ∨ line.head? = some ':' ∨ line = doneLine then {}
  else if dataPrefix.isPrefixOf line then dataTokens python (line.drop 6)
  else {}

def readLines (python : Interpreter) : List (List Char) → Received
  | [] => {}
  | line :: lines => (readLine python line).andThen (readLines python lines)

/-- `generate` over the decoded text of a response; `aiter_lines` splits it as `str.splitlines` does. -/
def readBody (python : Interpreter) (body : List Char) : Received := readLines python (splitlines body)

/-- `VLLMBackend.generate` and `LlamaCppBackend.generate`, for a response with this status and this text. -/
def ServerBackend.generate (python : Interpreter) (b : ServerBackend) (status : Nat) (body : List Char) : Received :=
  if !b.client then { error := some (.notStarted (b.server ++ " not started; call start() first")) }
  else if status < 200 ∨ 300 ≤ status then { error := some (.httpStatus status) }
  else readBody python body

variable {python : Interpreter}

theorem ServerBackend.generate_ok {b : ServerBackend} (started : b.client = true) (body : List Char) :
    b.generate python 200 body = readBody python body := by
  simp [generate, started]

section Lines

theorem readLines_append (first second : List (List Char)) :
    readLines python (first ++ second) = (readLines python first).andThen (readLines python second) := by
  induction first with
  | nil => rfl
  | cons line first ih => rw [List.cons_append, readLines, readLines, ih, Received.andThen_assoc]

theorem readLine_nil : readLine python [] = {} := rfl

theorem readLine_doneLine : readLine python doneLine = {} := by
  have stripped : strip isSpace doneLine = doneLine := by decide +kernel
  unfold readLine
  rw [stripped]
  exact if_pos (.inr (.inr rfl))

theorem readLine_data {text : List Char} (visible : ∃ c ∈ text, isSpace c = false) :
    readLine python (dataPrefix ++ text) =
      if text.rdropWhile isSpace = "[DONE]".toList then {} else dataTokens python (text.rdropWhile isSpace) := by
  have stripped : strip isSpace (dataPrefix ++ text) = dataPrefix ++ text.rdropWhile isSpace := by
    rw [← rdropWhile_append dataPrefix visible]
    exact strip_eq (by decide) _
  have done : dataPrefix ++ text.rdropWhile isSpace = doneLine ↔ text.rdropWhile isSpace = "[DONE]".toList :=
    List.append_right_inj dataPrefix
  have nonempty : (dataPrefix ++ text.rdropWhile isSpace).isEmpty = false := rfl
  have first : (dataPrefix ++ text.rdropWhile isSpace).head? = some 'd' := rfl
  have marked : dataPrefix.isPrefixOf (dataPrefix ++ text.rdropWhile isSpace) = true :=
    List.isPrefixOf_iff_prefix.mpr (List.prefix_append _ _)
  have rest : (dataPrefix ++ text.rdropWhile isSpace).drop 6 = text.rdropWhile isSpace :=
    List.drop_left' rfl
  unfold readLine
  rw [stripped]
  dsimp only
  rw [rest]
  by_cases ended : text.rdropWhile isSpace = "[DONE]".toList
  · rw [if_pos (.inr (.inr (done.mpr ended))), if_pos ended]
  · have going : ¬ ((dataPrefix ++ text.rdropWhile isSpace).isEmpty = true ∨
        (dataPrefix ++ text.rdropWhile isSpace).head? = some ':' ∨ dataPrefix ++ text.rdropWhile isSpace = doneLine) := by
      rintro (empty | comment | last)
      · rw [nonempty] at empty
        cases empty
      · rw [first] at comment
        cases comment
      · exact ended (done.mp last)
    rw [if_neg going, if_pos marked, if_neg ended]

end Lines

end LLMRuntime
