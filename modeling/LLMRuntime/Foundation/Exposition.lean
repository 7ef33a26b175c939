import LLMRuntime.Foundation.TextLines
import Mathlib.Data.List.Pairwise

namespace Exposition

inductive Line where
  | blank
  | help (family : String) (text : List Char)
  | type (family kind : String)
  | sample (name : String) (labels : List (String × List Char)) (value : List Char)
  deriving DecidableEq, Repr

def escape (value : List Char) : List Char :=
  value.flatMap fun c =>
    if c = '\\' then ['\\', '\\'] else if c = '"' then ['\\', '"'] else if c = '\n' then ['\\', 'n'] else [c]

def unescape : List Char → List Char
  | '\\' :: 'n' :: rest => '\n' :: unescape rest
  | '\\' :: c :: rest => c :: unescape rest
  | c :: rest => c :: unescape rest
  | [] => []

section Writing

def labelText (label : String × List Char) : List Char := label.1.toList ++ '=' :: '"' :: (label.2 ++ ['"'])

def labelsText (labels : List (String × List Char)) : List Char :=
  if labels.isEmpty then [] else '{' :: (List.intercalate [','] (labels.map labelText) ++ ['}'])

def Line.text : Line → List Char
  | .blank => []
  | .help family text => "# HELP ".toList ++ (family.toList ++ ' ' :: text)
  | .type family kind => "# TYPE ".toList ++ (family.toList ++ ' ' :: kind.toList)
  | .sample name labels value => name.toList ++ (labelsText labels ++ ' ' :: value)

/-- `"\n".join(lines) + "\n"` -/
def write (lines : List Line) : List Char := List.intercalate ['\n'] (lines.map Line.text) ++ ['\n']

end Writing

section Reading

def isNameChar (c : Char) : Bool := c.isAlphanum || c = '_' || c = ':'

def readValue : List Char → Option (List Char × List Char)
  | '\\' :: c :: rest =>
    match (if c = '\\' ∨ c = '"' then some c else if c = 'n' then some '\n' else none) with
    | none => none
    | some d => (readValue rest).map fun read => (d :: read.1, read.2)
  | '"' :: rest => some ([], rest)
  | c :: rest => if c = '\\' ∨ c = '\n' then none else (readValue rest).map fun read => (c :: read.1, read.2)
  | [] => none

/-- The labels up to the closing brace and what follows it; `fuel` bounds their number. -/
def readLabels : (fuel : Nat) → List Char → Option (List (String × List Char) × List Char)
  | 0, _ => none
  | fuel + 1, text =>
    let name := String.ofList (text.takeWhile isNameChar)
    match text.dropWhile isNameChar with
    | equals :: quote :: rest =>
      if equals = '=' ∧ quote = '"' then
        match readValue rest with
        | some (value, c :: rest) =>
          if c = ',' then (readLabels fuel rest).map fun read => ((name, value) :: read.1, read.2)
          else if c = '}' then some ([(name, value)], rest)
          else none
        | _ => none
      else none
    | _ => none

def readLine (text : List Char) : Option Line :=
  if text.isEmpty then some .blank
  else if "# HELP ".toList.isPrefixOf text then
    let body := text.drop 7
    let name := body.takeWhile isNameChar
    some (.help (String.ofList name) (body.drop (name.length + 1)))
  else if "# TYPE ".toList.isPrefixOf text then
    let body := text.drop 7
    let name := body.takeWhile isNameChar
    some (.type (String.ofList name) (String.ofList (body.drop (name.length + 1))))
  else
    let name := String.ofList (text.takeWhile isNameChar)
    match text.dropWhile isNameChar with
    | c :: rest =>
      if c = ' ' then some (.sample name [] rest)
      else if c = '{' then
        match readLabels rest.length rest with
        | some (labels, space :: value) => if space = ' ' then some (.sample name labels value) else none
        | _ => none
      else none
    | [] => none

def splitLines : List Char → List (List Char)
  | [] => []
  | c :: rest => if c = '\n' then [] :: splitLines rest else TextLines.extend c (splitLines rest)

def readLines : List (List Char) → Option (List Line)
  | [] => some []
  | text :: texts =>
    match readLine text, readLines texts with
    | some line, some lines => some (line :: lines)
    | _, _ => none

def read (text : List Char) : Option (List Line) := readLines (splitLines text)

end Reading

def Line.decode : Line → Line
  | .sample name labels value => .sample name (labels.map fun label => (label.1, unescape label.2)) value
  | line => line

def Name (name : String) : Prop := name.toList ≠ [] ∧ ∀ c ∈ name.toList, isNameChar c = true

instance (name : String) : Decidable (Name name) :=
  decidable_of_iff (name.toList ≠ [] ∧ name.toList.all isNameChar = true) (by rw [Name, List.all_eq_true])

/-- A line that can be read back: names of name characters, escaped labels, and nowhere a line feed. -/
def Line.Valid : Line → Prop
  | .blank => True
  | .help family text => Name family ∧ '\n' ∉ text
  | .type family kind => Name family ∧ '\n' ∉ kind.toList
  | .sample name labels value =>
    Name name ∧ (∀ label ∈ labels, Name label.1 ∧ ∃ raw, label.2 = escape raw) ∧ '\n' ∉ value

section RoundTrip

theorem escape_cons (c : Char) (value : List Char) : escape (c :: value) = escape [c] ++ escape value := by
  simp [escape]

theorem escape_plain {c : Char} (slash : c ≠ '\\') (quote : c ≠ '"') (newline : c ≠ '\n') : escape [c] = [c] := by
  simp [escape, slash, quote, newline]

theorem unescape_escape (value : List Char) : unescape (escape value) = value := by
  induction value with
  | nil => rfl
  | cons c value ih =>
    rw [escape_cons]
    by_cases slash : c = '\\'
    · subst slash
      exact congrArg ('\\' :: ·) ih
    by_cases quote : c = '"'
    · subst quote
      exact congrArg ('"' :: ·) ih
    by_cases newline : c = '\n'
    · subst newline
      exact congrArg ('\n' :: ·) ih
    rw [escape_plain slash quote newline, List.singleton_append, unescape]
    · rw [ih]
    · rintro rest rfl
      exact absurd rfl slash
    · rintro d rest rfl
      exact absurd rfl slash

theorem escape_injective {first second : List Char} (same : escape first = escape second) : first = second := by
  rw [← unescape_escape first, same, unescape_escape]

theorem readValue_escape (value rest : List Char) : readValue (escape value ++ '"' :: rest) = some (value, rest) := by
  induction value with
  | nil => rfl
  | cons c value ih =>
    rw [escape_cons, List.append_assoc]
    by_cases slash : c = '\\'
    · subst slash
      change ((readValue (escape value ++ '"' :: rest)).map fun read => ('\\' :: read.1, read.2)) = _
      rw [ih, Option.map_some]
    by_cases quote : c = '"'
    · subst quote
      change ((readValue (escape value ++ '"' :: rest)).map fun read => ('"' :: read.1, read.2)) = _
      rw [ih, Option.map_some]
    by_cases newline : c = '\n'
    · subst newline
      change ((readValue (escape value ++ '"' :: rest)).map fun read => ('\n' :: read.1, read.2)) = _
      rw [ih, Option.map_some]
    rw [escape_plain slash quote newline, List.singleton_append, readValue]
    · rw [if_neg (by simp [slash, newline]), ih, Option.map_some]
    · rintro d tail rfl
      exact absurd rfl slash
    · exact quote

theorem newline_not_mem_escape (value : List Char) : '\n' ∉ escape value := by
  intro member
  obtain ⟨c, -, inside⟩ := List.mem_flatMap.mp member
  split at inside
  · revert inside
    decide
  split at inside
  · revert inside
    decide
  split at inside
  · revert inside
    decide
  · next other =>
    exact other (List.mem_singleton.mp inside).symm

theorem takeWhile_name {name : String} (valid : Name name) {c : Char} (stop : isNameChar c = false) (rest : List Char) :
    (name.toList ++ c :: rest).takeWhile isNameChar = name.toList := by
  rw [List.takeWhile_append_of_pos valid.2, List.takeWhile_cons_of_neg (by simp [stop]), List.append_nil]

theorem dropWhile_name {name : String} (valid : Name name) {c : Char} (stop : isNameChar c = false) (rest : List Char) :
    (name.toList ++ c :: rest).dropWhile isNameChar = c :: rest := by
  rw [List.dropWhile_append_of_pos valid.2, List.dropWhile_cons_of_neg (by simp [stop])]

section Labels

variable {fuel : Nat} {label : String × List Char} {raw : List Char}

theorem dropWhile_label (valid : Name label.1) (escaped : label.2 = escape raw) (rest : List Char) :
    (labelText label ++ rest).takeWhile isNameChar = label.1.toList ∧
      (labelText label ++ rest).dropWhile isNameChar = '=' :: '"' :: (escape raw ++ '"' :: rest) := by
  have text : labelText label ++ rest = label.1.toList ++ '=' :: ('"' :: (escape raw ++ '"' :: rest)) := by
    simp [labelText, escaped]
  have stop : isNameChar '=' = false := by decide
  rw [text]
  exact ⟨takeWhile_name valid stop _, dropWhile_name valid stop _⟩

theorem readLabels_comma (valid : Name label.1) (escaped : label.2 = escape raw) (rest : List Char) :
    readLabels (fuel + 1) (labelText label ++ ',' :: rest) =
      (readLabels fuel rest).map fun read => ((label.1, raw) :: read.1, read.2) := by
  obtain ⟨name, value⟩ := dropWhile_label valid escaped (',' :: rest)
  rw [readLabels, name, value]
  dsimp only
  rw [if_pos ⟨rfl, rfl⟩, readValue_escape, String.ofList_toList]
  rfl

theorem readLabels_close (valid : Name label.1) (escaped : label.2 = escape raw) (rest : List Char) :
    readLabels (fuel + 1) (labelText label ++ '}' :: rest) = some ([(label.1, raw)], rest) := by
  obtain ⟨name, value⟩ := dropWhile_label valid escaped ('}' :: rest)
  rw [readLabels, name, value]
  dsimp only
  rw [if_pos ⟨rfl, rfl⟩, readValue_escape, String.ofList_toList]
  rfl

end Labels

theorem readLabels_text {labels : List (String × List Char)} (nonempty : labels ≠ [])
    (valid : ∀ label ∈ labels, Name label.1 ∧ ∃ raw, label.2 = escape raw) {fuel : Nat} (bound : labels.length ≤ fuel)
    (rest : List Char) :
    readLabels fuel (List.intercalate [','] (labels.map labelText) ++ '}' :: rest) =
      some (labels.map fun label => (label.1, unescape label.2), rest) := by
  induction labels generalizing fuel with
  | nil => exact absurd rfl nonempty
  | cons label labels ih =>
    obtain ⟨⟨name, raw, escaped⟩, later⟩ := List.forall_mem_cons.mp valid
    cases fuel with
    | zero => exact absurd bound (by simp)
    | succ fuel =>
      have read : unescape label.2 = raw := by rw [escaped, unescape_escape]
      cases labels with
      | nil =>
        rw [List.map_singleton, List.intercalate_singleton, readLabels_close name escaped]
        simp [read]
      | cons next labels =>
        rw [List.length_cons] at bound
        have tail := ih (List.cons_ne_nil _ _) later (by omega : (next :: labels).length ≤ fuel)
        rw [List.map_cons, List.map_cons] at tail ⊢
        rw [List.intercalate_cons_cons, List.append_assoc, List.append_assoc, List.singleton_append,
          readLabels_comma name escaped, tail]
        simp [read]

theorem length_le_intercalate (labels : List (String × List Char)) :
    labels.length ≤ (List.intercalate [','] (labels.map labelText)).length := by
  induction labels with
  | nil => exact Nat.zero_le _
  | cons label labels ih =>
    have nonempty : 0 < (labelText label).length := by
      rw [labelText, List.length_append, List.length_cons]
      omega
    rw [List.map_cons]
    cases labels with
    | nil =>
      rw [List.map_nil, List.intercalate_singleton]
      exact nonempty
    | cons next labels =>
      rw [List.map_cons] at ih ⊢
      rw [List.intercalate_cons_cons]
      simp only [List.length_append, List.length_cons, List.length_nil] at ih ⊢
      omega

theorem readLine_help (body : List Char) : readLine ("# HELP ".toList ++ body) =
    some (.help (String.ofList (body.takeWhile isNameChar)) (body.drop ((body.takeWhile isNameChar).length + 1))) := by
  have marked : "# HELP ".toList.isPrefixOf ("# HELP ".toList ++ body) = true :=
    List.isPrefixOf_iff_prefix.mpr (List.prefix_append _ _)
  have behind : ("# HELP ".toList ++ body).drop 7 = body := List.drop_left' rfl
  have empty : ("# HELP ".toList ++ body).isEmpty = false := rfl
  unfold readLine
  rw [if_neg (by rw [empty]; decide), if_pos marked, behind]

theorem readLine_type (body : List Char) : readLine ("# TYPE ".toList ++ body) =
    some (.type (String.ofList (body.takeWhile isNameChar))
      (String.ofList (body.drop ((body.takeWhile isNameChar).length + 1)))) := by
  have marked : "# TYPE ".toList.isPrefixOf ("# TYPE ".toList ++ body) = true :=
    List.isPrefixOf_iff_prefix.mpr (List.prefix_append _ _)
  have unmarked : "# HELP ".toList.isPrefixOf ("# TYPE ".toList ++ body) = false := rfl
  have behind : ("# TYPE ".toList ++ body).drop 7 = body := List.drop_left' rfl
  have empty : ("# TYPE ".toList ++ body).isEmpty = false := rfl
  unfold readLine
  rw [if_neg (by rw [empty]; decide), if_neg (by rw [unmarked]; decide), if_pos marked, behind]

/-- The rest of a name's line: the name is cut off where the labels or the value begin. -/
theorem readLine_sample {name : String} (named : Name name) {c : Char} (stop : isNameChar c = false) (rest : List Char) :
    readLine (name.toList ++ c :: rest) =
      if c = ' ' then some (.sample name [] rest)
      else if c = '{' then
        match readLabels rest.length rest with
        | some (labels, space :: value) => if space = ' ' then some (.sample name labels value) else none
        | _ => none
      else none := by
  obtain ⟨first, tail, start⟩ : ∃ first tail, name.toList = first :: tail := List.exists_cons_of_ne_nil named.1
  have noHash : '#' ≠ first := by
    have nameChar := named.2 first (by rw [start]; exact List.mem_cons_self)
    rintro rfl
    revert nameChar
    decide
  have unmarked (word : List Char) : ('#' :: word).isPrefixOf (name.toList ++ c :: rest) = false := by
    rw [start]
    change ('#' == first && _) = false
    rw [beq_false_of_ne noHash, Bool.false_and]
  have empty : (name.toList ++ c :: rest).isEmpty = false := by
    rw [start]
    rfl
  have noHelp : "# HELP ".toList.isPrefixOf (name.toList ++ c :: rest) = false := unmarked _
  have noType : "# TYPE ".toList.isPrefixOf (name.toList ++ c :: rest) = false := unmarked _
  unfold readLine
  rw [if_neg (by rw [empty]; decide), if_neg (by rw [noHelp]; decide), if_neg (by rw [noType]; decide),
    dropWhile_name named stop, takeWhile_name named stop, String.ofList_toList]

theorem drop_name (family : String) (text : List Char) :
    (family.toList ++ ' ' :: text).drop (family.toList.length + 1) = text := by
  rw [List.drop_append, List.drop_of_length_le (by omega)]
  simp

theorem readLine_text {line : Line} (valid : line.Valid) : readLine line.text = some line.decode := by
  have stop : isNameChar ' ' = false := by decide
  cases line with
  | blank => rfl
  | help family text =>
    refine (readLine_help (family.toList ++ ' ' :: text)).trans ?_
    rw [takeWhile_name valid.1 stop, drop_name, String.ofList_toList]
    rfl
  | type family kind =>
    refine (readLine_type (family.toList ++ ' ' :: kind.toList)).trans ?_
    rw [takeWhile_name valid.1 stop, drop_name, String.ofList_toList, String.ofList_toList]
    rfl
  | sample name labels value =>
    obtain ⟨named, escaped, -⟩ := valid
    cases labels with
    | nil => exact readLine_sample named stop value
    | cons label labels =>
      have brace : isNameChar '{' = false := by decide
      have braced : (Line.sample name (label :: labels) value).text =
          name.toList ++ '{' :: (List.intercalate [','] ((label :: labels).map labelText) ++ '}' :: (' ' :: value)) := by
        change name.toList ++ (labelsText (label :: labels) ++ ' ' :: value) = _
        simp [labelsText]
      have bound : (label :: labels).length ≤
          (List.intercalate [','] ((label :: labels).map labelText) ++ '}' :: (' ' :: value)).length := by
        have least := length_le_intercalate (label :: labels)
        rw [List.length_append]
        omega
      rw [braced, readLine_sample named brace, if_neg (by decide), if_pos rfl,
        readLabels_text (List.cons_ne_nil _ _) escaped bound]
      rfl

theorem newline_not_mem_name {name : String} (valid : Name name) : '\n' ∉ name.toList := by
  intro member
  have named := valid.2 '\n' member
  revert named
  decide

theorem newline_not_mem_labels {labels : List (String × List Char)}
    (valid : ∀ label ∈ labels, Name label.1 ∧ ∃ raw, label.2 = escape raw) :
    '\n' ∉ List.intercalate [','] (labels.map labelText) := by
  have single (label : String × List Char) (named : Name label.1) (escaped : ∃ raw, label.2 = escape raw) :
      '\n' ∉ labelText label := by
    obtain ⟨raw, same⟩ := escaped
    simp [labelText, same, newline_not_mem_name named, newline_not_mem_escape]
  induction labels with
  | nil => simp
  | cons label labels ih =>
    obtain ⟨⟨named, escaped⟩, later⟩ := List.forall_mem_cons.mp valid
    cases labels with
    | nil =>
      rw [List.map_singleton, List.intercalate_singleton]
      exact single label named escaped
    | cons next labels =>
      have tail := ih later
      rw [List.map_cons] at tail
      rw [List.map_cons, List.map_cons, List.intercalate_cons_cons]
      simp [single label named escaped, tail]

theorem newline_not_mem_text {line : Line} (valid : line.Valid) : '\n' ∉ line.text := by
  have help : '\n' ∉ "# HELP ".toList := by decide
  have type : '\n' ∉ "# TYPE ".toList := by decide
  cases line with
  | blank => exact List.not_mem_nil
  | help family text =>
    change '\n' ∉ "# HELP ".toList ++ (family.toList ++ ' ' :: text)
    simp only [List.mem_append, List.mem_cons, not_or]
    exact ⟨help, newline_not_mem_name valid.1, by decide, valid.2⟩
  | type family kind =>
    change '\n' ∉ "# TYPE ".toList ++ (family.toList ++ ' ' :: kind.toList)
    simp only [List.mem_append, List.mem_cons, not_or]
    exact ⟨type, newline_not_mem_name valid.1, by decide, valid.2⟩
  | sample name labels value =>
    have inside := newline_not_mem_labels valid.2.1
    have written : '\n' ∉ labelsText labels := by
      unfold labelsText
      split
      · exact List.not_mem_nil
      · simp [inside]
    change '\n' ∉ name.toList ++ (labelsText labels ++ ' ' :: value)
    simp only [List.mem_append, List.mem_cons, not_or]
    exact ⟨newline_not_mem_name valid.1, written, by decide, valid.2.2⟩

theorem splitLines_line {line : List Char} (single : '\n' ∉ line) (rest : List Char) :
    splitLines (line ++ '\n' :: rest) = line :: splitLines rest := by
  induction line with
  | nil => rfl
  | cons c line ih =>
    have other : c ≠ '\n' := fun same => single (same ▸ List.mem_cons_self)
    rw [List.cons_append, splitLines, if_neg other, ih fun member => single (List.mem_cons_of_mem c member)]
    rfl

theorem splitLines_join {lines : List (List Char)} (nonempty : lines ≠ []) (single : ∀ line ∈ lines, '\n' ∉ line) :
    splitLines (List.intercalate ['\n'] lines ++ ['\n']) = lines := by
  induction lines with
  | nil => exact absurd rfl nonempty
  | cons line lines ih =>
    obtain ⟨first, later⟩ := List.forall_mem_cons.mp single
    cases lines with
    | nil => rw [List.intercalate_singleton, splitLines_line first, splitLines]
    | cons next lines =>
      rw [List.intercalate_cons_cons, List.append_assoc, List.append_assoc, List.singleton_append,
        splitLines_line first, ih (List.cons_ne_nil _ _) later]

theorem readLines_texts {lines : List Line} (valid : ∀ line ∈ lines, line.Valid) :
    readLines (lines.map Line.text) = some (lines.map Line.decode) := by
  induction lines with
  | nil => rfl
  | cons line lines ih =>
    obtain ⟨first, later⟩ := List.forall_mem_cons.mp valid
    rw [List.map_cons, readLines, readLine_text first, ih later]
    rfl

/-- What has been written is read back, with the label values before their escaping. -/
theorem read_write {lines : List Line} (nonempty : lines ≠ []) (valid : ∀ line ∈ lines, line.Valid) :
    read (write lines) = some (lines.map Line.decode) := by
  have single : ∀ text ∈ lines.map Line.text, '\n' ∉ text := by
    intro text member
    obtain ⟨line, inside, rfl⟩ := List.mem_map.mp member
    exact newline_not_mem_text (valid line inside)
  rw [read, write, splitLines_join (by simpa using nonempty) single, readLines_texts valid]

end RoundTrip

section Families

def histograms (doc : List Line) : List String :=
  doc.filterMap fun
    | .type family kind => if kind = "histogram" then some family else none
    | _ => none

def Suffixed (base name : String) : Prop := name = base ++ "_bucket" ∨ name = base ++ "_sum" ∨ name = base ++ "_count"

instance (base name : String) : Decidable (Suffixed base name) := inferInstanceAs (Decidable (_ ∨ _ ∨ _))

/-- The family that samples of this name belong to. -/
def baseName (histograms : List String) (name : String) : String :=
  (histograms.find? fun base => Suffixed base name).getD name

def Line.family? (doc : List Line) : Line → Option String
  | .blank => none
  | .help family _ => some family
  | .type family _ => some family
  | .sample name _ _ => some (baseName (histograms doc) name)

def Line.isSample : Line → Bool
  | .sample _ _ _ => true
  | _ => false

def present (doc : List Line) : List Line := doc.filter fun line => line ≠ .blank

/-- The lines of every family are one group: exactly one HELP and one TYPE line, then all its samples. -/
def Grouped (doc : List Line) : Prop :=
  ∀ family, (∃ line ∈ doc, line.family? doc = some family) →
    ∃ before header samples after, present doc = before ++ (header ++ (samples ++ after)) ∧
      (∃ text kind, header.Perm [.help family text, .type family kind]) ∧
      (∀ line ∈ samples, line.isSample = true ∧ line.family? doc = some family) ∧
      ∀ line ∈ before ++ after, line.family? doc ≠ some family

def Line.series? : Line → Option (String × List (String × List Char))
  | .sample name labels _ => some (name, labels)
  | _ => none

def SameSeries (a b : String × List (String × List Char)) : Prop := a.1 = b.1 ∧ ∀ label, label ∈ a.2 ↔ label ∈ b.2

def Distinct (doc : List Line) : Prop := (doc.filterMap Line.series?).Pairwise fun a b => ¬ SameSeries a b

theorem mem_histograms {doc : List Line} {family : String} :
    family ∈ histograms doc ↔ Line.type family "histogram" ∈ doc := by
  unfold histograms
  rw [List.mem_filterMap]
  constructor
  · rintro ⟨line, member, found⟩
    cases line with
    | type name kind =>
      dsimp only at found
      split at found
      · next histogram =>
        rw [← histogram, ← Option.some.inj found]
        exact member
      · cases found
    | blank => cases found
    | help => cases found
    | sample => cases found
  · intro member
    exact ⟨_, member, if_pos rfl⟩

theorem baseName_plain {histograms : List String} {name : String} (plain : ∀ base ∈ histograms, ¬ Suffixed base name) :
    baseName histograms name = name := by
  have none : (histograms.find? fun base => Suffixed base name) = none := by
    rw [List.find?_eq_none]
    intro base member
    simpa using plain base member
  rw [baseName, none, Option.getD_none]

theorem baseName_suffixed {histograms : List String} {base name : String} (declared : base ∈ histograms)
    (suffixed : Suffixed base name) (only : ∀ other ∈ histograms, Suffixed other name → other = base) :
    baseName histograms name = base := by
  obtain ⟨found, search⟩ : ∃ found, (histograms.find? fun base => Suffixed base name) = some found := by
    rw [← Option.isSome_iff_exists, List.find?_isSome]
    exact ⟨base, declared, by simpa using suffixed⟩
  have same := only found (List.mem_of_find?_eq_some search) (by simpa using List.find?_some search)
  rw [baseName, search, Option.getD_some, same]

theorem labels_eq {first second : List (String × List Char)} (keys : first.map Prod.fst = second.map Prod.fst)
    (nodup : (first.map Prod.fst).Nodup) (same : ∀ label, label ∈ first ↔ label ∈ second) : first = second := by
  induction first generalizing second with
  | nil => exact (List.map_eq_nil_iff.mp keys.symm).symm
  | cons label first ih =>
    cases second with
    | nil => cases keys
    | cons other second =>
      obtain ⟨name, rest⟩ := List.cons_eq_cons.mp keys
      obtain ⟨fresh, later⟩ := List.nodup_cons.mp nodup
      have fresh' : other.1 ∉ second.map Prod.fst := rest ▸ name ▸ fresh
      have heads : label = other := by
        rcases List.mem_cons.mp ((same label).mp List.mem_cons_self) with equal | member
        · exact equal
        · exact absurd (name ▸ List.mem_map_of_mem member) fresh'
      subst heads
      refine congrArg (label :: ·) (ih rest later fun x => ?_)
      constructor
      · intro member
        rcases List.mem_cons.mp ((same x).mp (List.mem_cons_of_mem _ member)) with rfl | inside
        · exact absurd (List.mem_map_of_mem member) fresh
        · exact inside
      · intro member
        rcases List.mem_cons.mp ((same x).mpr (List.mem_cons_of_mem _ member)) with rfl | inside
        · exact absurd (List.mem_map_of_mem member) fresh'
        · exact inside

theorem Grouped.contiguous {doc : List Line} (grouped : Grouped doc) {a b c : Line} {family : String}
    (order : [a, b, c].Sublist (present doc)) (first : a.family? doc = some family) (last : c.family? doc = some family) :
    b.family? doc = some family := by
  have occurs : ∃ line ∈ doc, line.family? doc = some family :=
    ⟨a, (List.mem_filter.mp (order.subset List.mem_cons_self)).1, first⟩
  obtain ⟨before, header, samples, after, split, ⟨text, kind, perm⟩, inside, outside⟩ := grouped family occurs
  have headers : ∀ line ∈ header, line.family? doc = some family := by
    intro line member
    have listed := perm.subset member
    simp only [List.mem_cons, List.not_mem_nil, or_false] at listed
    rcases listed with rfl | rfl <;> rfl
  rw [split] at order
  obtain ⟨ahead, rest, same, left, right⟩ := List.sublist_append_iff.mp order
  have noneAhead : ahead = [] := by
    cases ahead with
    | nil => rfl
    | cons x ahead =>
      have begins : a = x := List.head_eq_of_cons_eq same
      exact absurd first (outside a (List.mem_append_left _ (left.subset (begins ▸ List.mem_cons_self))))
  rw [noneAhead, List.nil_append] at same
  rw [← same, ← List.append_assoc] at right
  obtain ⟨group, behind, parts, within, beyond⟩ := List.sublist_append_iff.mp right
  have noneBehind : behind = [] := by
    rcases List.eq_nil_or_concat behind with empty | ⟨init, x, ends⟩
    · exact empty
    · have closes : c = x := by
        have lasts := congrArg List.getLast? parts
        rw [ends, List.concat_eq_append, ← List.append_assoc, List.getLast?_concat] at lasts
        simpa using lasts
      have member : c ∈ after := beyond.subset (by rw [ends, closes]; simp)
      exact absurd last (outside c (List.mem_append_right _ member))
  rw [noneBehind, List.append_nil] at parts
  have member : b ∈ header ++ samples := within.subset (by rw [← parts]; simp)
  rcases List.mem_append.mp member with member | member
  · exact headers b member
  · exact (inside b member).2

end Families

section Decoded

variable {doc : List Line}

theorem histograms_decode : histograms (doc.map Line.decode) = histograms doc := by
  unfold histograms
  rw [List.filterMap_map]
  refine List.filterMap_congr fun line _ => ?_
  cases line <;> rfl

theorem family_decode (line : Line) : line.decode.family? (doc.map Line.decode) = line.family? doc := by
  cases line with
  | blank => rfl
  | help => rfl
  | type => rfl
  | sample name labels value =>
    change some (baseName (histograms (doc.map Line.decode)) name) = _
    rw [histograms_decode]
    rfl

theorem present_decode : present (doc.map Line.decode) = (present doc).map Line.decode := by
  unfold present
  rw [List.filter_map]
  refine congrArg _ (List.filter_congr fun line _ => ?_)
  cases line <;> rfl

theorem grouped_decode (grouped : Grouped doc) : Grouped (doc.map Line.decode) := by
  rintro family ⟨line, member, named⟩
  obtain ⟨source, inside, rfl⟩ := List.mem_map.mp member
  rw [family_decode] at named
  obtain ⟨before, header, samples, after, split, ⟨text, kind, perm⟩, own, others⟩ := grouped family ⟨source, inside, named⟩
  refine ⟨before.map Line.decode, header.map Line.decode, samples.map Line.decode, after.map Line.decode, ?_,
    ⟨text, kind, perm.map Line.decode⟩, ?_, ?_⟩
  · rw [present_decode, split, List.map_append, List.map_append, List.map_append]
  · intro line member
    obtain ⟨source, inside, rfl⟩ := List.mem_map.mp member
    obtain ⟨sample, family⟩ := own source inside
    refine ⟨?_, by rw [family_decode, family]⟩
    cases source with
    | sample => rfl
    | blank => cases sample
    | help => cases sample
    | type => cases sample
  · intro line member
    rw [← List.map_append] at member
    obtain ⟨source, inside, rfl⟩ := List.mem_map.mp member
    rw [family_decode]
    exact others source inside

def decodeLabels (labels : List (String × List Char)) : List (String × List Char) :=
  labels.map fun label => (label.1, unescape label.2)

theorem series_decode : (doc.map Line.decode).filterMap Line.series? =
    (doc.filterMap Line.series?).map fun series => (series.1, decodeLabels series.2) := by
  rw [List.filterMap_map, List.map_filterMap]
  refine List.filterMap_congr fun line _ => ?_
  cases line <;> rfl

theorem mem_of_decodeLabels {first second : List (String × List Char)}
    (escaped : ∀ label ∈ first ++ second, ∃ raw, label.2 = escape raw)
    (within : ∀ label, label ∈ decodeLabels first → label ∈ decodeLabels second) {label : String × List Char}
    (member : label ∈ first) : label ∈ second := by
  have shown : (label.1, unescape label.2) ∈ decodeLabels first := List.mem_map_of_mem member
  obtain ⟨other, inside, same⟩ := List.mem_map.mp (within _ shown)
  obtain ⟨name, value⟩ := Prod.mk.inj same
  obtain ⟨raw, written⟩ := escaped label (List.mem_append_left _ member)
  obtain ⟨raw', written'⟩ := escaped other (List.mem_append_right _ inside)
  rw [written, written', unescape_escape, unescape_escape] at value
  have equal : other = label := Prod.ext name (by rw [written, written', value])
  exact equal ▸ inside

theorem distinct_decode (valid : ∀ line ∈ doc, line.Valid) (distinct : Distinct doc) :
    Distinct (doc.map Line.decode) := by
  have escaped (series : String × List (String × List Char)) (member : series ∈ doc.filterMap Line.series?) :
      ∀ label ∈ series.2, ∃ raw, label.2 = escape raw := by
    obtain ⟨line, inside, found⟩ := List.mem_filterMap.mp member
    cases line with
    | sample name labels value =>
      rw [← Option.some.inj found]
      exact fun label listed => ((valid _ inside).2.1 label listed).2
    | blank => cases found
    | help => cases found
    | type => cases found
  rw [Distinct, series_decode, List.pairwise_map]
  refine distinct.imp_of_mem ?_
  intro a b first second differ same
  have both : ∀ label ∈ a.2 ++ b.2, ∃ raw, label.2 = escape raw := by
    intro label member
    rcases List.mem_append.mp member with member | member
    · exact escaped a first label member
    · exact escaped b second label member
  have both' : ∀ label ∈ b.2 ++ a.2, ∃ raw, label.2 = escape raw :=
    fun label member => both label (List.mem_append.mpr (List.mem_append.mp member).symm)
  refine differ ⟨same.1, fun label => ⟨?_, ?_⟩⟩
  · exact mem_of_decodeLabels both fun label => (same.2 label).mp
  · exact mem_of_decodeLabels both' fun label => (same.2 label).mpr

end Decoded

section Blocks

structure Block where
  family : String
  text : List Char
  kind : String
  samples : List (String × List (String × List Char) × List Char)

def Block.sampleLines (b : Block) : List Line := b.samples.map fun s => .sample s.1 s.2.1 s.2.2

def Block.lines (b : Block) : List Line := .help b.family b.text :: .type b.family b.kind :: b.sampleLines

def Block.series (b : Block) : List (String × List (String × List Char)) := b.samples.map fun s => (s.1, s.2.1)

variable {doc : List Line} {blocks : List Block}

theorem Block.family_of_mem {b : Block} (own : ∀ s ∈ b.samples, baseName (histograms doc) s.1 = b.family) {line : Line}
    (member : line ∈ b.lines) : line.family? doc = some b.family := by
  rcases List.mem_cons.mp member with rfl | member
  · rfl
  rcases List.mem_cons.mp member with rfl | member
  · rfl
  obtain ⟨s, inside, rfl⟩ := List.mem_map.mp member
  exact congrArg some (own s inside)

theorem grouped_of_blocks (same : present doc = blocks.flatMap Block.lines) (distinct : (blocks.map Block.family).Nodup)
    (own : ∀ b ∈ blocks, ∀ s ∈ b.samples, baseName (histograms doc) s.1 = b.family) : Grouped doc := by
  rintro family ⟨line, member, named⟩
  have shown : line ∈ present doc := by
    refine List.mem_filter.mpr ⟨member, ?_⟩
    cases line with
    | blank => cases named
    | help => rfl
    | type => rfl
    | sample => rfl
  rw [same] at shown
  obtain ⟨b, inside, lineOf⟩ := List.mem_flatMap.mp shown
  have owner : b.family = family := by
    rw [Block.family_of_mem (own b inside) lineOf] at named
    exact Option.some.inj named
  obtain ⟨before, after, rfl⟩ := List.append_of_mem inside
  rw [List.map_append, List.map_cons, List.nodup_append] at distinct
  obtain ⟨-, later, apart⟩ := distinct
  have others (b' : Block) (member : b' ∈ before ++ after) : b'.family ≠ b.family := by
    rcases List.mem_append.mp member with member | member
    · exact apart b'.family (List.mem_map_of_mem member) b.family List.mem_cons_self
    · intro equal
      exact (List.nodup_cons.mp later).1 (equal ▸ List.mem_map_of_mem member)
  refine ⟨before.flatMap Block.lines, [.help b.family b.text, .type b.family b.kind], b.sampleLines,
    after.flatMap Block.lines, ?_, ⟨b.text, b.kind, by rw [owner]⟩, ?_, ?_⟩
  · rw [same, List.flatMap_append, List.flatMap_cons]
    rfl
  · intro line member
    have listed : line ∈ b.lines := List.mem_cons_of_mem _ (List.mem_cons_of_mem _ member)
    refine ⟨?_, owner ▸ Block.family_of_mem (own b inside) listed⟩
    obtain ⟨s, -, rfl⟩ := List.mem_map.mp member
    rfl
  · intro line member
    rw [← List.flatMap_append] at member
    obtain ⟨b', other, lineOf⟩ := List.mem_flatMap.mp member
    have among : b' ∈ before ++ b :: after := by
      rcases List.mem_append.mp other with other | other
      · exact List.mem_append_left _ other
      · exact List.mem_append_right _ (List.mem_cons_of_mem _ other)
    rw [Block.family_of_mem (own b' among) lineOf, ← owner]
    intro equal
    exact others b' other (Option.some.inj equal)

/-- Samples of distinct families are of different series; it is enough to tell those of one family apart. -/
theorem distinct_of_blocks
    (same : (doc.filterMap Line.series?).Perm (blocks.flatMap Block.series))
    (distinct : (blocks.map Block.family).Nodup)
    (own : ∀ b ∈ blocks, ∀ s ∈ b.samples, baseName (histograms doc) s.1 = b.family)
    (within : ∀ b ∈ blocks, b.samples.Pairwise fun s t => ¬ SameSeries (s.1, s.2.1) (t.1, t.2.1)) : Distinct doc := by
  have symmetric {s t : String × List (String × List Char)} (differ : ¬ SameSeries s t) : ¬ SameSeries t s :=
    fun equal => differ ⟨equal.1.symm, fun label => (equal.2 label).symm⟩
  refine (same.pairwise_iff symmetric).mpr (List.pairwise_flatMap.mpr ⟨?_, ?_⟩)
  · intro b member
    exact List.pairwise_map.mpr (within b member)
  · have families : blocks.Pairwise fun b b' => b.family ≠ b'.family := List.pairwise_map.mp distinct
    refine families.imp_of_mem ?_
    intro b b' first second differ x inside y inside' equal
    obtain ⟨s, member, rfl⟩ := List.mem_map.mp inside
    obtain ⟨t, member', rfl⟩ := List.mem_map.mp inside'
    have named : s.1 = t.1 := equal.1
    exact differ ((own b first s member).symm.trans ((congrArg _ named).trans (own b' second t member')))

def spaced (blocks : List Block) : List Line := blocks.flatMap fun b => .blank :: b.lines

theorem present_append (first second : List Line) : present (first ++ second) = present first ++ present second :=
  List.filter_append ..

theorem present_lines (b : Block) : present b.lines = b.lines := by
  refine List.filter_eq_self.mpr fun line member => ?_
  rcases List.mem_cons.mp member with rfl | member
  · rfl
  rcases List.mem_cons.mp member with rfl | member
  · rfl
  obtain ⟨s, -, rfl⟩ := List.mem_map.mp member
  rfl

theorem present_spaced (blocks : List Block) : present (spaced blocks) = blocks.flatMap Block.lines := by
  induction blocks with
  | nil => rfl
  | cons b blocks ih =>
    have split : spaced (b :: blocks) = [.blank] ++ (b.lines ++ spaced blocks) := rfl
    rw [split, present_append, present_append, present_lines, ih]
    rfl

theorem series_lines (b : Block) : b.lines.filterMap Line.series? = b.series := by
  change (b.samples.map _).filterMap Line.series? = _
  rw [List.filterMap_map]
  exact congrFun List.filterMap_eq_map b.samples

theorem series_spaced (blocks : List Block) : (spaced blocks).filterMap Line.series? = blocks.flatMap Block.series := by
  induction blocks with
  | nil => rfl
  | cons b blocks ih =>
    have split : spaced (b :: blocks) = .blank :: (b.lines ++ spaced blocks) := rfl
    rw [split, List.filterMap_cons_none rfl, List.filterMap_append, series_lines, ih, List.flatMap_cons]

theorem within_of_nodup {b : Block} (keys : String → List String) (nodup : ∀ name, (keys name).Nodup)
    (labelled : ∀ s ∈ b.samples, s.2.1.map Prod.fst = keys s.1) (apart : b.series.Nodup) :
    b.samples.Pairwise fun s t => ¬ SameSeries (s.1, s.2.1) (t.1, t.2.1) := by
  refine (List.pairwise_map.mp apart).imp_of_mem ?_
  intro s t first second differ same
  have names : s.1 = t.1 := same.1
  have keysOf := labelled s first
  have same' : s.2.1.map Prod.fst = t.2.1.map Prod.fst := by rw [keysOf, labelled t second, names]
  exact differ (Prod.ext names (labels_eq same' (keysOf ▸ nodup s.1) same.2))

theorem join_cons (line : List Char) (lines : List (List Char)) :
    List.intercalate ['\n'] (line :: lines) = line ++ lines.flatMap fun line => '\n' :: line := by
  induction lines generalizing line with
  | nil => simp
  | cons next lines ih => rw [List.intercalate_cons_cons, ih, List.flatMap_cons, List.append_assoc]; rfl

/-- Lines that are already joined may stand as one line of a longer text. -/
theorem join_nested (line : List Char) (lead : List (List Char)) (groups : List (List Char × List (List Char))) :
    List.intercalate ['\n'] (line :: (lead ++ groups.flatMap fun g => [[], List.intercalate ['\n'] (g.1 :: g.2)])) =
      List.intercalate ['\n'] (line :: (lead ++ groups.flatMap fun g => [] :: g.1 :: g.2)) := by
  rw [join_cons, join_cons, List.flatMap_append, List.flatMap_append, List.flatMap_assoc, List.flatMap_assoc]
  have same (g : List Char × List (List Char)) :
      ([[], List.intercalate ['\n'] (g.1 :: g.2)].flatMap fun line => '\n' :: line) =
        ([] :: g.1 :: g.2).flatMap fun line => '\n' :: line := by
    rw [join_cons]
    simp
  rw [List.flatMap_congr fun g _ => same g]

end Blocks

section Quotes

def slashes (text : List Char) : Nat := (text.rtakeWhile (· = '\\')).length

theorem slashes_append {c : Char} (other : c ≠ '\\') (lead text : List Char) :
    slashes (lead ++ c :: text) = slashes text := by
  unfold slashes List.rtakeWhile
  rw [List.reverse_append, List.reverse_cons, List.append_assoc, List.takeWhile_append]
  split
  · next all =>
    rw [List.singleton_append, List.takeWhile_cons_of_neg (by simpa using other), List.append_nil,
      (List.takeWhile_prefix _).eq_of_length all]
  · rfl

theorem slashes_pair (text : List Char) : slashes ('\\' :: '\\' :: text) % 2 = slashes text % 2 := by
  unfold slashes List.rtakeWhile
  rw [List.reverse_cons, List.reverse_cons, List.append_assoc, List.takeWhile_append]
  split
  · next all =>
    have two : (['\\'] ++ ['\\']).takeWhile (· = '\\') = ['\\', '\\'] := rfl
    rw [two, (List.takeWhile_prefix _).eq_of_length all, List.length_reverse, List.length_append,
      List.length_reverse, List.length_reverse, List.length_reverse]
    exact Nat.add_mod_right _ 2
  · rfl

/-- The escape of a character leaves the parity of the backslashes behind it alone. -/
theorem slashes_escape (c : Char) (text : List Char) : slashes (escape [c] ++ text) % 2 = slashes text % 2 := by
  by_cases slash : c = '\\'
  · subst slash
    exact slashes_pair text
  by_cases quote : c = '"'
  · subst quote
    exact congrArg (· % 2) (slashes_append (by decide) ['\\'] text)
  by_cases newline : c = '\n'
  · subst newline
    exact congrArg (· % 2) (slashes_append (by decide) ['\\'] text)
  rw [escape_plain slash quote newline]
  exact congrArg (· % 2) (slashes_append slash [] text)

theorem slashes_single {c : Char} {front back : List Char} (split : escape [c] = front ++ '"' :: back) :
    slashes front % 2 = 1 := by
  have inside : '"' ∈ escape [c] := by
    rw [split]
    simp
  by_cases slash : c = '\\'
  · subst slash
    exact absurd inside (by decide)
  by_cases quote : c = '"'
  · subst quote
    change ['\\', '"'] = _ at split
    match front, split with
    | [], split => cases split
    | [_], split =>
      rw [← (List.cons_eq_cons.mp split).1]
      decide
    | _ :: _ :: front, split =>
      have tail := (List.cons_eq_cons.mp (List.cons_eq_cons.mp split).2).2
      exact absurd tail.symm (by simp)
  by_cases newline : c = '\n'
  · subst newline
    exact absurd inside (by decide)
  rw [escape_plain slash quote newline] at inside
  exact absurd (List.mem_singleton.mp inside).symm quote

/-- Every quote of an escaped value is escaped: an odd number of backslashes stands before it. -/
theorem slashes_before_quote {value front back : List Char} (split : escape value = front ++ '"' :: back) :
    slashes front % 2 = 1 := by
  induction value generalizing front with
  | nil => exact absurd split.symm (by simp [escape])
  | cons c value ih =>
    rw [escape_cons, List.append_eq_append_iff] at split
    rcases split with ⟨rest, rfl, later⟩ | ⟨rest, first, later⟩
    · rw [slashes_escape]
      exact ih later
    · cases rest with
      | nil =>
        rw [List.append_nil] at first
        have shown : slashes ([] : List Char) % 2 = 1 := ih later.symm
        cases shown
      | cons d rest =>
        obtain ⟨rfl, -⟩ := List.cons_eq_cons.mp later
        exact slashes_single first

end Quotes

section Samples

def samplesOf (family : String) (lines : List Line) : List (List (String × List Char) × List Char) :=
  lines.filterMap fun
    | .sample name labels value => if name = family then some (labels, value) else none
    | _ => none

variable {family : String}

@[simp] theorem samplesOf_append (first second : List Line) :
    samplesOf family (first ++ second) = samplesOf family first ++ samplesOf family second := List.filterMap_append

@[simp] theorem samplesOf_blank (lines : List Line) : samplesOf family (.blank :: lines) = samplesOf family lines := rfl

theorem samplesOf_decode (lines : List Line) : samplesOf family (lines.map Line.decode) =
    (samplesOf family lines).map fun s => (decodeLabels s.1, s.2) := by
  unfold samplesOf
  rw [List.filterMap_map, List.map_filterMap]
  apply List.filterMap_congr
  intro line _
  cases line with
  | sample name labels value =>
    by_cases own : name = family
    · simp [own, Line.decode, decodeLabels]
    · simp [own, Line.decode]
  | blank => rfl
  | help => rfl
  | type => rfl

theorem samplesOf_own {b : Block} (own : ∀ s ∈ b.samples, s.1 = family) :
    samplesOf family b.lines = b.samples.map Prod.snd := by
  change (b.samples.map _).filterMap _ = _
  rw [List.filterMap_map, ← List.filterMap_eq_map]
  apply List.filterMap_congr
  intro s member
  exact if_pos (own s member)

theorem samplesOf_other {b : Block} (other : ∀ s ∈ b.samples, s.1 ≠ family) : samplesOf family b.lines = [] := by
  change (b.samples.map _).filterMap _ = _
  rw [List.filterMap_map]
  apply List.filterMap_eq_nil_iff.mpr
  intro s member
  exact if_neg (other s member)

theorem samplesOf_spaced (blocks : List Block) :
    samplesOf family (spaced blocks) = blocks.flatMap fun b => samplesOf family b.lines := List.filterMap_flatMap

end Samples

end Exposition
