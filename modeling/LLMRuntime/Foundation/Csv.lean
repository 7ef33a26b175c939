import LLMRuntime.Foundation.TextLines
import Mathlib.Data.List.Basic

/-! Comma-separated rows, read character by character as Python's `csv.reader` reads them. -/

namespace Csv

inductive State where
  | startRecord
  | startField
  | inField
  | inQuotedField
  | quoteInQuotedField
  | eatCrnl
  deriving DecidableEq, Repr

inductive Error where
  | newlineInField
  | fieldLimit (limit : Nat)
  deriving DecidableEq, Repr

structure Record where
  state : State := .startRecord
  fields : List (List Char) := []
  field : List Char := []
  deriving DecidableEq, Repr

namespace Record

def save (r : Record) (state : State) : Record := { state, fields := r.fields ++ [r.field], field := [] }

def add (limit : Nat) (r : Record) (c : Char) (state : State) : Except Error Record :=
  if limit ≤ r.field.length then .error (.fieldLimit limit) else .ok { r with state, field := r.field ++ [c] }

def startField (limit : Nat) (r : Record) : Option Char → Except Error Record
  | none => .ok (r.save .startRecord)
  | some c =>
    if c = '\n' ∨ c = '\r' then .ok (r.save .eatCrnl)
    else if c = '"' then .ok { r with state := .inQuotedField }
    else if c = ',' then .ok (r.save .startField)
    else r.add limit c .inField

def next (limit : Nat) (r : Record) (c : Option Char) : Except Error Record :=
  match r.state with
  | .startRecord =>
    if c = none then .ok r
    else if c = some '\n' ∨ c = some '\r' then .ok { r with state := .eatCrnl }
    else r.startField limit c
  | .startField => r.startField limit c
  | .inField =>
    match c with
    | none => .ok (r.save .startRecord)
    | some c =>
      if c = '\n' ∨ c = '\r' then .ok (r.save .eatCrnl)
      else if c = ',' then .ok (r.save .startField)
      else r.add limit c .inField
  | .inQuotedField =>
    match c with
    | none => .ok r
    | some c => if c = '"' then .ok { r with state := .quoteInQuotedField } else r.add limit c .inQuotedField
  | .quoteInQuotedField =>
    match c with
    | none => .ok (r.save .startRecord)
    | some c =>
      if c = '"' then r.add limit c .inQuotedField
      else if c = ',' then .ok (r.save .startField)
      else if c = '\n' ∨ c = '\r' then .ok (r.save .eatCrnl)
      else r.add limit c .inField
  | .eatCrnl =>
    if c = none then .ok { r with state := .startRecord }
    else if c = some '\n' ∨ c = some '\r' then .ok r
    else .error .newlineInField

def chars (limit : Nat) (r : Record) (text : List (Option Char)) : Except Error Record := text.foldlM (next limit) r

theorem chars_append (limit : Nat) (r : Record) (first second : List (Option Char)) :
    r.chars limit (first ++ second) = r.chars limit first >>= fun r => r.chars limit second := List.foldlM_append

end Record

/-- The lines of a text, each with the line feed that ends it. -/
def keepLines : List Char → List (List Char)
  | [] => []
  | c :: rest => if c = '\n' then ['\n'] :: keepLines rest else TextLines.extend c (keepLines rest)

/-- The rows that the reader yields, and the error that it then raises, if it does. -/
def rows (limit : Nat) : Record → List (List Char) → List (List (List Char)) × Option Error
  | r, [] => if r.field ≠ [] ∨ r.state = .inQuotedField then ([(r.save .startRecord).fields], none) else ([], none)
  | r, line :: lines =>
    match r.chars limit (line.map some ++ [none]) with
    | .error error => ([], some error)
    | .ok r =>
      if r.state = .startRecord then
        let (rest, raised) := rows limit {} lines
        (r.fields :: rest, raised)
      else rows limit r lines

def read (limit : Nat) (text : List Char) : List (List (List Char)) × Option Error := rows limit {} (keepLines text)

example : read 5 "a,\"b,\n\"\"\",\n\n c\rd".toList = ([["a", "b,\n\"", ""], []].map (List.map String.toList), some .newlineInField) := by
  decide

section Plain

variable {limit : Nat} {line : List Char}

def Plain (line : List Char) : Prop := ∀ c ∈ line, c ≠ '"' ∧ c ≠ '\n' ∧ c ≠ '\r'

def plainRow (line : List Char) : List (List Char) := if line = [] then [] else line.splitOn ','

namespace Record

variable {r : Record}

def Open (r : Record) : Prop := r.state = .inField ∨ r.state = .startField ∧ r.field = []

theorem Open.next_comma (opened : r.Open) : r.next limit (some ',') = .ok (r.save .startField) := by
  rcases opened with state | ⟨state, -⟩ <;> rw [next, state] <;> rfl

theorem Open.next_plain (opened : r.Open) {c : Char} (quote : c ≠ '"') (lf : c ≠ '\n') (cr : c ≠ '\r') (other : c ≠ ',') :
    r.next limit (some c) = r.add limit c .inField := by
  rcases opened with state | ⟨state, -⟩
  · rw [next, state]
    simp [lf, cr, other]
  · rw [next, state]
    simp [startField, quote, lf, cr, other]

theorem Open.ends (opened : r.Open) :
    r.chars limit [some '\n', none] = .ok { state := .startRecord, fields := r.fields ++ [r.field] } := by
  have ends : r.next limit (some '\n') = .ok (r.save .eatCrnl) := by
    rcases opened with state | ⟨state, -⟩ <;> rw [next, state] <;> rfl
  rw [chars, List.foldlM_cons, ends]
  rfl

theorem Open.chars (opened : r.Open) (plain : Plain line)
    (fits : ∀ field ∈ (line.splitOn ',').modifyHead (r.field ++ ·), field.length ≤ limit) :
    ∃ last : Record, r.chars limit (line.map some) = .ok last ∧ last.Open ∧
      last.fields ++ [last.field] = r.fields ++ (line.splitOn ',').modifyHead (r.field ++ ·) := by
  induction line generalizing r with
  | nil => exact ⟨r, rfl, opened, by simp⟩
  | cons c line ih =>
    obtain ⟨⟨quote, lf, cr⟩, later⟩ := List.forall_mem_cons.mp plain
    obtain ⟨head, tail, parts⟩ := List.exists_cons_of_ne_nil (List.splitOn_ne_nil ',' line)
    by_cases comma : c = ','
    · subst comma
      have split : (',' :: line).splitOn ',' = [] :: head :: tail := by simp [List.splitOn_cons_eq_if_modifyHead, parts]
      rw [split, List.modifyHead_cons, List.append_nil] at fits ⊢
      have saved : (r.save .startField).Open := .inr ⟨rfl, rfl⟩
      have rest : (line.splitOn ',').modifyHead ((r.save .startField).field ++ ·) = head :: tail := by
        rw [parts]
        rfl
      have fits' := (List.forall_mem_cons.mp fits).2
      obtain ⟨last, read, done, fields⟩ := ih saved later (by rwa [rest])
      refine ⟨last, ?_, done, ?_⟩
      · rw [chars, List.map_cons, List.foldlM_cons, opened.next_comma]
        exact read
      · rw [fields, rest]
        exact List.append_assoc _ _ _
    · have split : (c :: line).splitOn ',' = (c :: head) :: tail := by
        simp [List.splitOn_cons_eq_if_modifyHead, comma, parts]
      rw [split, List.modifyHead_cons] at fits ⊢
      have room : ¬ limit ≤ r.field.length := by
        have bound := fits _ List.mem_cons_self
        rw [List.length_append, List.length_cons] at bound
        omega
      have added : ({ r with state := .inField, field := r.field ++ [c] } : Record).Open := .inl rfl
      have rest : (line.splitOn ',').modifyHead (r.field ++ [c] ++ ·) = (r.field ++ c :: head) :: tail := by
        rw [parts, List.modifyHead_cons, List.append_assoc, List.singleton_append]
      obtain ⟨last, read, done, fields⟩ := ih added later (by rwa [rest])
      refine ⟨last, ?_, done, fields.trans (by rw [rest])⟩
      rw [chars, List.map_cons, List.foldlM_cons, opened.next_plain quote lf cr comma, add, if_neg room]
      exact read

theorem chars_plain (plain : Plain line) (fits : ∀ field ∈ line.splitOn ',', field.length ≤ limit) :
    chars limit {} ((line ++ ['\n']).map some ++ [none]) = .ok { fields := plainRow line } := by
  have split : (line ++ ['\n']).map some ++ [none] = line.map some ++ [some '\n', none] := by simp
  rw [split, plainRow]
  cases line with
  | nil => rfl
  | cons c rest =>
    obtain ⟨⟨quote, lf, cr⟩, -⟩ := List.forall_mem_cons.mp plain
    -- the first character is read as that of a field
    have first : next limit {} (some c) = next limit { state := .startField } (some c) := by
      simp [next, startField, add, save, lf, cr]
    have opened : Record.Open { state := .startField } := .inr ⟨rfl, rfl⟩
    have same : ((c :: rest).splitOn ',').modifyHead (({ state := .startField } : Record).field ++ ·) = (c :: rest).splitOn ',' := by
      obtain ⟨head, tail, parts⟩ := List.exists_cons_of_ne_nil (List.splitOn_ne_nil ',' (c :: rest))
      rw [parts]
      rfl
    obtain ⟨last, read, done, fields⟩ := opened.chars plain (by rwa [same])
    have start : chars limit {} ((c :: rest).map some ++ [some '\n', none]) =
        chars limit { state := .startField } ((c :: rest).map some ++ [some '\n', none]) := by
      rw [chars, chars, List.map_cons, List.cons_append, List.foldlM_cons, List.foldlM_cons, first]
    rw [start, chars, List.foldlM_append]
    rw [chars] at read
    rw [read]
    show chars limit last [some '\n', none] = _
    rw [done.ends, fields, same, if_neg (List.cons_ne_nil _ _)]
    rfl

end Record

theorem keepLines_line (single : '\n' ∉ line) (rest : List Char) :
    keepLines (line ++ '\n' :: rest) = (line ++ ['\n']) :: keepLines rest := by
  induction line with
  | nil => rfl
  | cons c line ih =>
    have other : c ≠ '\n' := fun same => single (same ▸ List.mem_cons_self)
    rw [List.cons_append, keepLines, if_neg other, ih fun member => single (List.mem_cons_of_mem c member)]
    rfl

theorem read_plain {lines : List (List Char)} (plain : ∀ line ∈ lines, Plain line)
    (fits : ∀ line ∈ lines, ∀ field ∈ line.splitOn ',', field.length ≤ limit) :
    read limit (lines.flatMap (· ++ ['\n'])) = (lines.map plainRow, none) := by
  unfold read
  induction lines with
  | nil => rfl
  | cons line lines ih =>
    obtain ⟨first, later⟩ := List.forall_mem_cons.mp plain
    obtain ⟨fit, fitLater⟩ := List.forall_mem_cons.mp fits
    have single : '\n' ∉ line := fun member => (first _ member).2.1 rfl
    rw [List.flatMap_cons, List.append_assoc, List.singleton_append, keepLines_line single, rows,
      Record.chars_plain first fit]
    dsimp only
    rw [if_pos rfl, ih later fitLater]
    rfl

end Plain

section Scan

/-- Where a character stands: `quote` is behind a quote in a quoted field, `returned` behind a carriage return outside. -/
inductive Place where
  | fieldStart
  | plain
  | quoted
  | quote
  | returned
  deriving DecidableEq, Repr

/-- The place of a character, and how long the field before it is. -/
structure Scan where
  place : Place := .fieldStart
  length : Nat := 0

def Scan.outside (s : Scan) (c : Char) : Scan :=
  if c = '\r' then { place := .returned }
  else if c = '\n' ∨ c = ',' then {}
  else { place := .plain, length := s.length + 1 }

def Scan.step (s : Scan) (c : Char) : Scan :=
  match s.place with
  | .fieldStart => if c = '"' then { s with place := .quoted } else s.outside c
  | .plain => s.outside c
  | .quoted => if c = '"' then { s with place := .quote } else { s with length := s.length + 1 }
  | .quote => if c = '"' then { place := .quoted, length := s.length + 1 } else s.outside c
  | .returned => s.outside c

def Scan.after (s : Scan) (text : List Char) : Scan := text.foldl Scan.step s

/-- A carriage return outside of quotes ends a row, so that only others and a line feed may follow it. -/
def Scan.Allows (limit : Nat) (s : Scan) (c : Char) : Prop :=
  (s.place = .returned → c = '\r' ∨ c = '\n') ∧ (s.step c).length ≤ limit

/-- Every character of the text is allowed where it stands. -/
def Readable (limit : Nat) (s : Scan) (text : List Char) : Prop :=
  ∀ before c after, text = before ++ c :: after → (s.after before).Allows limit c

variable {limit : Nat} {s : Scan} {c : Char} {text line : List Char} {r : Record}

theorem Scan.after_append (s : Scan) (first second : List Char) : s.after (first ++ second) = (s.after first).after second :=
  List.foldl_append

theorem readable_nil : Readable limit s [] := by
  intro before c after same
  cases List.append_eq_nil_iff.mp same.symm |>.2

theorem readable_append (first second : List Char) :
    Readable limit s (first ++ second) ↔ Readable limit s first ∧ Readable limit (s.after first) second := by
  constructor
  · refine fun readable => ⟨?_, ?_⟩
    · rintro before c after rfl
      exact readable before c (after ++ second) (by simp)
    · rintro before c after rfl
      have later := readable (first ++ before) c after (by simp)
      rwa [Scan.after_append] at later
  · rintro ⟨left, right⟩ before c after same
    rcases List.append_eq_append_iff.mp same with ⟨more, rfl, tail⟩ | ⟨more, rfl, tail⟩
    · rw [Scan.after_append]
      exact right more c after tail
    · cases more with
      | nil =>
        rw [List.append_nil] at right
        exact right [] c after tail.symm
      | cons d more =>
        obtain ⟨rfl, -⟩ := List.cons_eq_cons.mp tail
        exact left before c more rfl

theorem readable_cons : Readable limit s (c :: text) ↔ s.Allows limit c ∧ Readable limit (s.step c) text := by
  have single : Readable limit s [c] ↔ s.Allows limit c := by
    constructor
    · exact fun readable => readable [] c [] rfl
    · intro allows before d after same
      cases before with
      | nil =>
        obtain ⟨rfl, -⟩ := List.cons_eq_cons.mp same
        exact allows
      | cons e before => cases before <;> cases same
  exact (readable_append [c] text).trans (and_congr_left' single)

/-- The reader between two characters of a line, and the scan of what it has read. -/
structure Record.At (limit : Nat) (r : Record) (s : Scan) : Prop where
  length : r.field.length = s.length
  short : s.length ≤ limit
  place : match r.state with
    | .startRecord | .startField => s.place = .fieldStart ∧ s.length = 0
    | .inField => s.place = .plain
    | .inQuotedField => s.place = .quoted
    | .quoteInQuotedField => s.place = .quote
    | .eatCrnl => s.place = .returned ∧ s.length = 0

theorem Record.At.start : Record.At limit {} {} := ⟨rfl, Nat.zero_le _, rfl, rfl⟩

/-- One character is read, or it is not allowed where it stands. -/
def Record.Reads (limit : Nat) (r : Record) (s : Scan) (c : Char) : Prop :=
  (s.Allows limit c ∧ ∃ next, r.next limit (some c) = .ok next ∧ next.At limit (s.step c)) ∨
    ¬ s.Allows limit c ∧ ∃ error, r.next limit (some c) = .error error

theorem Record.At.add (here : r.At limit s) (free : s.place ≠ .returned) (state : State) (place : Place)
    (next : r.next limit (some c) = r.add limit c state) (step : s.step c = { place, length := s.length + 1 })
    (same : (state = .inField ∧ place = .plain) ∨ (state = .inQuotedField ∧ place = .quoted)) : r.Reads limit s c := by
  unfold Record.Reads Scan.Allows
  rw [next, step, Record.add, here.length]
  by_cases room : s.length + 1 ≤ limit
  · left
    refine ⟨⟨fun returned => absurd returned free, room⟩, ?_⟩
    rw [if_neg (by omega)]
    refine ⟨_, rfl, by simp [here.length], room, ?_⟩
    rcases same with ⟨rfl, rfl⟩ | ⟨rfl, rfl⟩ <;> rfl
  · right
    refine ⟨fun allows => room allows.2, ?_⟩
    rw [if_pos (by omega)]
    exact ⟨_, rfl⟩

theorem Record.Reads.of_next (free : s.place = .returned → c = '\r' ∨ c = '\n') {next : Record}
    (read : r.next limit (some c) = .ok next) (after : next.At limit (s.step c)) : r.Reads limit s c :=
  .inl ⟨⟨free, after.short⟩, next, read, after⟩

theorem Record.At.outside (here : r.At limit s) (inner : c ≠ '\n') (free : s.place ≠ .returned)
    (step : s.step c = s.outside c)
    (cr : c = '\r' → ∃ next, r.next limit (some c) = .ok next ∧ next.state = .eatCrnl ∧ next.field = [])
    (comma : c = ',' → r.next limit (some c) = .ok (r.save .startField))
    (other : c ≠ '\r' → c ≠ ',' → r.next limit (some c) = r.add limit c .inField) : r.Reads limit s c := by
  have free' : s.place = .returned → c = '\r' ∨ c = '\n' := fun returned => absurd returned free
  by_cases ret : c = '\r'
  · obtain ⟨next, read, state, field⟩ := cr ret
    refine .of_next free' read ?_
    rw [step, Scan.outside, if_pos ret]
    exact ⟨by rw [field]; rfl, Nat.zero_le _, by rw [state]; exact ⟨rfl, rfl⟩⟩
  by_cases sep : c = ','
  · refine .of_next free' (comma sep) ?_
    rw [step, Scan.outside, if_neg ret, if_pos (.inr sep)]
    exact ⟨rfl, Nat.zero_le _, rfl, rfl⟩
  · refine here.add free .inField .plain (other ret sep) ?_ (.inl ⟨rfl, rfl⟩)
    rw [step, Scan.outside, if_neg ret, if_neg (not_or.mpr ⟨inner, sep⟩)]

/-- What the reader does with a character at the beginning of a field. -/
theorem Record.At.opening (here : r.At limit s) (inner : c ≠ '\n') (place : s.place = .fieldStart)
    (cr : c = '\r' → ∃ next, r.next limit (some c) = .ok next ∧ next.state = .eatCrnl ∧ next.field = [])
    (other : c ≠ '\r' → r.next limit (some c) = r.startField limit (some c)) : r.Reads limit s c := by
  have free : s.place ≠ .returned := by simp [place]
  by_cases opens : c = '"'
  · have read : r.next limit (some c) = .ok { r with state := .inQuotedField } := by
      rw [other (by simp [opens]), opens]
      rfl
    refine .of_next (fun returned => absurd returned free) read ?_
    rw [Scan.step, place]
    dsimp only
    rw [if_pos opens]
    exact ⟨here.length, here.short, rfl⟩
  · refine here.outside inner free ?_ cr (fun comma => ?_) fun ret comma => ?_
    · rw [Scan.step, place]
      dsimp only
      rw [if_neg opens]
    · rw [other (by simp [comma]), comma]
      rfl
    · rw [other ret]
      simp [Record.startField, inner, ret, opens, comma]

theorem Record.At.next (here : r.At limit s) (inner : c ≠ '\n') : r.Reads limit s c := by
  have placed := here.place
  have length := here.length
  cases state : r.state with
  | startRecord =>
    rw [state] at placed
    have empty : r.field = [] := List.length_eq_zero_iff.mp (length.trans placed.2)
    refine here.opening inner placed.1 (fun ret => ⟨{ r with state := .eatCrnl }, ?_, rfl, empty⟩) fun ret => ?_
    · rw [Record.next, state]
      simp [ret]
    · rw [Record.next, state]
      simp [inner, ret]
  | startField =>
    rw [state] at placed
    refine here.opening inner placed.1 (fun ret => ⟨r.save .eatCrnl, ?_, rfl, rfl⟩) fun ret => ?_
    · rw [Record.next, state, ret]
      rfl
    · rw [Record.next, state]
  | inField =>
    rw [state] at placed
    have placed : s.place = .plain := placed
    refine here.outside inner (by simp [placed]) ?_ (fun ret => ⟨r.save .eatCrnl, ?_, rfl, rfl⟩) (fun comma => ?_)
      fun ret comma => ?_
    · rw [Scan.step, placed]
    · rw [Record.next, state, ret]
      rfl
    · rw [Record.next, state, comma]
      rfl
    · rw [Record.next, state]
      simp [inner, ret, comma]
  | inQuotedField =>
    rw [state] at placed
    have placed : s.place = .quoted := placed
    by_cases closes : c = '"'
    · have read : r.next limit (some c) = .ok { r with state := .quoteInQuotedField } := by
        rw [Record.next, state]
        simp [closes]
      refine .of_next (fun returned => by cases returned.symm.trans placed) read ?_
      rw [Scan.step, placed]
      dsimp only
      rw [if_pos closes]
      exact ⟨here.length, here.short, rfl⟩
    · refine here.add (by simp [placed]) .inQuotedField .quoted ?_ ?_ (.inr ⟨rfl, rfl⟩)
      · rw [Record.next, state]
        simp [closes]
      · rw [Scan.step, placed]
        simp [closes]
  | quoteInQuotedField =>
    rw [state] at placed
    have placed : s.place = .quote := placed
    by_cases doubled : c = '"'
    · refine here.add (by simp [placed]) .inQuotedField .quoted ?_ ?_ (.inr ⟨rfl, rfl⟩)
      · rw [Record.next, state]
        simp [doubled]
      · rw [Scan.step, placed]
        simp [doubled]
    · refine here.outside inner (by simp [placed]) ?_ (fun ret => ⟨r.save .eatCrnl, ?_, rfl, rfl⟩) (fun comma => ?_)
        fun ret comma => ?_
      · rw [Scan.step, placed]
        simp [doubled]
      · rw [Record.next, state, ret]
        rfl
      · rw [Record.next, state, comma]
        rfl
      · rw [Record.next, state]
        simp [doubled, inner, ret, comma]
  | eatCrnl =>
    rw [state] at placed
    by_cases ret : c = '\r'
    · have read : r.next limit (some c) = .ok r := by
        rw [Record.next, state]
        simp [ret]
      refine .of_next (fun _ => .inl ret) read ?_
      rw [Scan.step, placed.1]
      dsimp only
      rw [Scan.outside, if_pos ret]
      exact ⟨length.trans placed.2, Nat.zero_le _, by rw [state]; exact ⟨rfl, rfl⟩⟩
    · right
      refine ⟨fun allows => ?_, .newlineInField, ?_⟩
      · rcases allows.1 placed.1 with same | same
        · exact ret same
        · exact inner same
      · rw [Record.next, state]
        simp [inner, ret]

theorem Record.At.chars (here : r.At limit s) (single : '\n' ∉ line) :
    (Readable limit s line ∧ ∃ last, r.chars limit (line.map some) = .ok last ∧ last.At limit (s.after line)) ∨
      ¬ Readable limit s line ∧ ∃ error, r.chars limit (line.map some) = .error error := by
  induction line generalizing r s with
  | nil => exact .inl ⟨readable_nil, r, rfl, here⟩
  | cons c line ih =>
    obtain ⟨inner, later⟩ := List.ne_and_not_mem_of_not_mem_cons single
    rw [readable_cons, Record.chars, List.map_cons, List.foldlM_cons]
    rcases here.next inner.symm with ⟨allowed, next, read, there⟩ | ⟨refused, error, read⟩
    · rw [read]
      rcases ih there later with ⟨readable, last, rest, done⟩ | ⟨unreadable, error, rest⟩
      · exact .inl ⟨⟨allowed, readable⟩, last, rest, done⟩
      · exact .inr ⟨fun readable => unreadable readable.2, error, rest⟩
    · rw [read]
      exact .inr ⟨fun readable => refused readable.1, error, rfl⟩

theorem Record.At.quoted (here : r.At limit s) (place : s.place = .quoted) : r.state = .inQuotedField := by
  have placed := here.place
  cases state : r.state <;> simp [state, place] at placed ⊢

/-- The reader between two lines: a row is finished, or it goes on within quotes. -/
def Record.Between (limit : Nat) (r : Record) (s : Scan) : Prop :=
  r.state = .startRecord ∧ s = {} ∨ r.state = .inQuotedField ∧ r.At limit s

theorem Record.At.lineFeed (here : r.At limit s) :
    (s.Allows limit '\n' ∧ ∃ last, r.chars limit [some '\n', none] = .ok last ∧ last.Between limit (s.step '\n')) ∨
      ¬ s.Allows limit '\n' ∧ ∃ error, r.chars limit [some '\n', none] = .error error := by
  by_cases place : s.place = .quoted
  · have state := here.quoted place
    have reads : r.Reads limit s '\n' := by
      refine here.add (by simp [place]) .inQuotedField .quoted ?_ ?_ (.inr ⟨rfl, rfl⟩)
      · rw [Record.next, state]
        rfl
      · rw [Scan.step, place]
        rfl
    have still : (s.step '\n').place = .quoted := by
      rw [Scan.step, place]
      rfl
    rcases reads with ⟨allowed, next, read, there⟩ | ⟨refused, error, read⟩
    · refine .inl ⟨allowed, next, ?_, .inr ⟨there.quoted still, there⟩⟩
      rw [Record.chars, List.foldlM_cons, read]
      show Record.chars limit next [none] = _
      rw [Record.chars, List.foldlM_cons, Record.next, there.quoted still]
      rfl
    · refine .inr ⟨refused, error, ?_⟩
      rw [Record.chars, List.foldlM_cons, read]
      rfl
  · have step : s.step '\n' = {} := by
      obtain ⟨spot, length⟩ := s
      cases spot <;> first | rfl | exact absurd rfl place
    have ends : ∃ last, r.chars limit [some '\n', none] = .ok last ∧ last.state = .startRecord := by
      have placed := here.place
      obtain ⟨now, fields, field⟩ := r
      cases now with
      | inQuotedField => exact absurd placed place
      | startRecord | startField | inField | quoteInQuotedField | eatCrnl =>
        refine ⟨_, rfl, ?_⟩
        rfl
    obtain ⟨last, read, state⟩ := ends
    refine .inl ⟨⟨fun _ => .inr rfl, ?_⟩, last, read, .inl ⟨state, step⟩⟩
    rw [step]
    exact Nat.zero_le _

theorem Record.ends (r : Record) : ∃ last, r.chars limit [none] = .ok last := by
  rw [Record.chars, List.foldlM_cons, Record.next]
  cases r.state <;> exact ⟨_, rfl⟩

theorem keepLines_last (single : '\n' ∉ line) (some : line ≠ []) : keepLines line = [line] := by
  induction line with
  | nil => exact absurd rfl some
  | cons c line ih =>
    obtain ⟨inner, later⟩ := List.ne_and_not_mem_of_not_mem_cons single
    rw [keepLines, if_neg inner.symm]
    cases line with
    | nil => rfl
    | cons d line => rw [ih later (List.cons_ne_nil _ _)]; rfl

theorem Record.At.readsLine (here : r.At limit s) (single : '\n' ∉ line) :
    (Readable limit s (line ++ ['\n']) ∧ ∃ last, r.chars limit ((line ++ ['\n']).map some ++ [none]) = .ok last ∧
      last.Between limit (s.after (line ++ ['\n']))) ∨
      ¬ Readable limit s (line ++ ['\n']) ∧
        ∃ error, r.chars limit ((line ++ ['\n']).map some ++ [none]) = .error error := by
  have parts : (line ++ ['\n']).map some ++ [none] = line.map some ++ [some '\n', none] := by simp
  rw [readable_append, readable_cons, parts, Record.chars_append, Scan.after_append]
  rcases here.chars single with ⟨readable, middle, read, there⟩ | ⟨unreadable, error, read⟩
  · rw [read]
    rcases there.lineFeed with ⟨allowed, last, ends, between⟩ | ⟨refused, error, ends⟩
    · exact .inl ⟨⟨readable, allowed, readable_nil⟩, last, ends, between⟩
    · exact .inr ⟨fun readable => refused readable.2.1, error, ends⟩
  · rw [read]
    exact .inr ⟨fun readable => unreadable readable.1, error, rfl⟩

theorem Record.At.readsLast (here : r.At limit s) (single : '\n' ∉ line) :
    (Readable limit s line ∧ ∃ last, r.chars limit (line.map some ++ [none]) = .ok last) ∨
      ¬ Readable limit s line ∧ ∃ error, r.chars limit (line.map some ++ [none]) = .error error := by
  rw [Record.chars_append]
  rcases here.chars single with ⟨readable, middle, read, -⟩ | ⟨unreadable, error, read⟩
  · rw [read]
    exact .inl ⟨readable, middle.ends⟩
  · rw [read]
    exact .inr ⟨unreadable, error, rfl⟩

/-- The reader meets no error exactly on a readable text. -/
theorem rows_complete (here : r.At limit s) : (rows limit r (keepLines text)).2 = none ↔ Readable limit s text := by
  -- one line after the other, each read from where the last one left the quotes
  induction size : text.length using Nat.strong_induction_on generalizing text r s with
  | _ size ih =>
    subst size
    by_cases broken : '\n' ∈ text
    · obtain ⟨line, rest, rfl, single⟩ := List.eq_append_cons_of_mem broken
      have shorter : rest.length < (line ++ '\n' :: rest).length := by
        rw [List.length_append, List.length_cons]
        omega
      have split : line ++ '\n' :: rest = (line ++ ['\n']) ++ rest := by simp
      rw [keepLines_line single, rows, split, readable_append]
      rcases here.readsLine single with ⟨readable, last, read, between⟩ | ⟨unreadable, error, read⟩
      · rw [read, and_iff_right readable]
        dsimp only
        rcases between with ⟨state, fresh⟩ | ⟨state, there⟩
        · rw [if_pos state, fresh]
          exact ih _ shorter .start rfl
        · rw [if_neg (by simp [state])]
          exact ih _ shorter there rfl
      · rw [read]
        exact iff_of_false (Option.some_ne_none error) fun readable => unreadable readable.1
    · by_cases empty : text = []
      · subst empty
        rw [keepLines, rows]
        split <;> exact iff_of_true rfl readable_nil
      · rw [keepLines_last broken empty, rows]
        rcases here.readsLast broken with ⟨readable, last, read⟩ | ⟨unreadable, error, read⟩
        · rw [read]
          dsimp only
          have complete : (rows limit last []).2 = none := by
            rw [rows]
            split <;> rfl
          split
          · exact iff_of_true rfl readable
          · exact iff_of_true complete readable
        · rw [read]
          exact iff_of_false (Option.some_ne_none error) unreadable

theorem read_complete : (read limit text).2 = none ↔ Readable limit {} text := rows_complete .start

end Scan

end Csv
