import LLMRuntime.Foundation.JsonLoads
import LLMRuntime.Foundation.TextLines

namespace Json

open TextLines

def hexDigit (n : Nat) : Char := if n < 10 then Char.ofNat (48 + n) else Char.ofNat (87 + n)

def hexEscape (unit : Nat) : List Char :=
  ['\\', 'u', hexDigit (unit / 4096), hexDigit (unit / 256 % 16), hexDigit (unit / 16 % 16), hexDigit (unit % 16)]

/-- `ESCAPE_DCT`: the letter after the backslash. -/
def escapeLetter : Nat → Option Char
  | 0x22 => some '"'
  | 0x5c => some '\\'
  | 10 => some 'n'
  | 13 => some 'r'
  | 9 => some 't'
  | 12 => some 'f'
  | 8 => some 'b'
  | _ => none

/-- `ESCAPE_ASCII`: other printable ASCII characters stay as they are. -/
def escapePoint (point : Nat) : List Char :=
  match escapeLetter point with
  | some letter => ['\\', letter]
  | none =>
    if 0x20 ≤ point ∧ point ≤ 0x7e then [Char.ofNat point]
    else if point < 0x10000 then hexEscape point
    else hexEscape (0xd800 + (point - 0x10000) / 0x400) ++ hexEscape (0xdc00 + (point - 0x10000) % 0x400)

def quote (points : List Nat) : List Char := '"' :: (points.flatMap escapePoint ++ ['"'])

mutual

/-- `json.dumps` with its default settings. -/
def dumps : Value → List Char
  | .null => "null".toList
  | .bool b => if b then "true".toList else "false".toList
  | .num lexeme => lexeme
  | .str points => quote points
  | .arr items => '[' :: (dumpsItems items ++ [']'])
  | .obj members => '{' :: (dumpsMembers members ++ ['}'])

def dumpsItems : List Value → List Char
  | [] => []
  | [v] => dumps v
  | v :: w :: items => dumps v ++ ',' :: ' ' :: dumpsItems (w :: items)

def dumpsMembers : List (List Nat × Value) → List Char
  | [] => []
  | [(key, v)] => quote key ++ ':' :: ' ' :: dumps v
  | (key, v) :: member :: members =>
    quote key ++ ':' :: ' ' :: (dumps v ++ ',' :: ' ' :: dumpsMembers (member :: members))

end

def Scalar (point : Nat) : Prop := point < 0x110000 ∧ ¬ (0xd800 ≤ point ∧ point ≤ 0xdfff)

mutual

def Plain : Value → Prop
  | .num lexeme => NumberText lexeme
  | .str points => ∀ point ∈ points, Scalar point
  | .arr items => PlainItems items
  | .obj members => PlainMembers members
  | _ => True

def PlainItems : List Value → Prop
  | [] => True
  | v :: items => Plain v ∧ PlainItems items

def PlainMembers : List (List Nat × Value) → Prop
  | [] => True
  | (key, v) :: members => (∀ point ∈ key, Scalar point) ∧ Plain v ∧ PlainMembers members

end

section Strings

theorem hexValue_hexDigit {n : Nat} (bound : n < 16) : hexValue (hexDigit n) = some n := by
  have all : ∀ m < 16, hexValue (hexDigit m) = some m := by decide
  exact all n bound

theorem Units.hexEscape {unit : Nat} (bound : unit < 0x10000) {text : List Char} {units : List Nat} (rest : Units text units) :
    Units (Json.hexEscape unit ++ text) (unit :: units) := by
  have first : hexValue (hexDigit (unit / 4096)) = some (unit / 4096) := hexValue_hexDigit (by omega)
  have second : hexValue (hexDigit (unit / 256 % 16)) = some (unit / 256 % 16) := hexValue_hexDigit (by omega)
  have third : hexValue (hexDigit (unit / 16 % 16)) = some (unit / 16 % 16) := hexValue_hexDigit (by omega)
  have fourth : hexValue (hexDigit (unit % 16)) = some (unit % 16) := hexValue_hexDigit (by omega)
  have derived := Units.hex first second third fourth rest
  have same : ((unit / 4096 * 16 + unit / 256 % 16) * 16 + unit / 16 % 16) * 16 + unit % 16 = unit := by omega
  rw [same] at derived
  exact derived

theorem push_of_not_low (before : List Nat) {unit : Nat} (notLow : isLow unit = false) : push before unit = unit :: before := by
  cases before with
  | nil => rfl
  | cons high before => simp [push, notLow]

theorem isLow_eq_false {unit : Nat} (outside : unit < 0xdc00 ∨ 0xdfff < unit) : isLow unit = false := by
  simp only [isLow, Bool.and_eq_false_iff, decide_eq_false_iff_not]
  omega

theorem letterEscape_escapeLetter {point : Nat} {letter : Char} (found : escapeLetter point = some letter) :
    letterEscape letter = some point := by
  unfold escapeLetter at found
  split at found <;> cases found <;> rfl

theorem toNat_ofNat {n : Nat} (ascii : n < 128) : (Char.ofNat n).toNat = n := by
  have all : ∀ m < 128, (Char.ofNat m).toNat = m := by decide
  exact all n ascii

/-- The escape of a code point is read as units that are joined to it. -/
theorem escapePoint_units {point : Nat} (scalar : Scalar point) :
    ∃ units, (∀ before, units.foldl push before = point :: before) ∧
      ∀ text more, Units text more → Units (escapePoint point ++ text) (units ++ more) := by
  obtain ⟨bound, outside⟩ := scalar
  have single (low : point < 0x10000) (before : List Nat) : [point].foldl push before = point :: before :=
    push_of_not_low before (isLow_eq_false (by omega))
  unfold escapePoint
  split
  · next letter found =>
    have low : point < 0x10000 := by
      unfold escapeLetter at found
      split at found
      all_goals first | omega | cases found
    exact ⟨[point], single low, fun text more rest => .letter (letterEscape_escapeLetter found) rest⟩
  next other =>
  split
  · next visible =>
    refine ⟨[point], single (by omega), fun text more rest => ?_⟩
    have code : (Char.ofNat point).toNat = point := toNat_ofNat (by omega)
    have unquoted : Char.ofNat point ≠ '"' := by
      intro same
      rw [same] at code
      rw [← code] at other
      cases other
    have plain : Char.ofNat point ≠ '\\' := by
      intro same
      rw [same] at code
      rw [← code] at other
      cases other
    have derived := Units.raw (by omega : 0x20 ≤ (Char.ofNat point).toNat) unquoted plain rest
    rw [code] at derived
    exact derived
  split
  · next low => exact ⟨[point], single low, fun text more rest => .hexEscape low rest⟩
  · next high =>
    refine ⟨[0xd800 + (point - 0x10000) / 0x400, 0xdc00 + (point - 0x10000) % 0x400], fun before => ?_, ?_⟩
    · have first : push before (0xd800 + (point - 0x10000) / 0x400) = (0xd800 + (point - 0x10000) / 0x400) :: before :=
        push_of_not_low before (isLow_eq_false (by omega))
      have leads : isHigh (0xd800 + (point - 0x10000) / 0x400) = true := by
        simp only [isHigh, Bool.and_eq_true, decide_eq_true_eq]
        omega
      have trails : isLow (0xdc00 + (point - 0x10000) % 0x400) = true := by
        simp only [isLow, Bool.and_eq_true, decide_eq_true_eq]
        omega
      have whole : joined (0xd800 + (point - 0x10000) / 0x400) (0xdc00 + (point - 0x10000) % 0x400) = point := by
        unfold joined
        omega
      rw [List.foldl_cons, first, List.foldl_cons, List.foldl_nil, push, leads, trails, whole]
      rfl
    · intro text more rest
      rw [List.append_assoc]
      exact .hexEscape (by omega) (.hexEscape (by omega) rest)

theorem flatMap_escapePoint_units {s : List Nat} (scalars : ∀ point ∈ s, Scalar point) :
    ∃ units, Units (s.flatMap escapePoint) units ∧ ∀ before, units.foldl push before = s.reverse ++ before := by
  induction s with
  | nil => exact ⟨[], .nil, fun before => rfl⟩
  | cons point s ih =>
    obtain ⟨units, inside, folded⟩ := ih fun other member => scalars other (List.mem_cons_of_mem point member)
    obtain ⟨first, single, leads⟩ := escapePoint_units (scalars point List.mem_cons_self)
    refine ⟨first ++ units, leads _ _ inside, fun before => ?_⟩
    rw [List.foldl_append, single, folded]
    simp

theorem Units.raw_text {text : List Char} (visible : ∀ c ∈ text, 0x20 ≤ c.toNat ∧ c ≠ '"' ∧ c ≠ '\\') :
    Units text (text.map Char.toNat) := by
  induction text with
  | nil => exact .nil
  | cons c text ih =>
    obtain ⟨⟨low, unquoted, plain⟩, rest⟩ := List.forall_mem_cons.mp visible
    exact .raw low unquoted plain (ih rest)

theorem Units.ofString (word : String)
    (visible : word.toList.all (fun c => decide (0x20 ≤ c.toNat ∧ c ≠ '"' ∧ c ≠ '\\')) = true) :
    Units word.toList (Json.ofString word) :=
  .raw_text (forall_mem_of_all visible)

theorem exists_units {s : List Nat} (scalars : ∀ point ∈ s, Scalar point) :
    ∃ units, Units (s.flatMap escapePoint) units ∧ points units = s := by
  obtain ⟨units, inside, folded⟩ := flatMap_escapePoint_units scalars
  exact ⟨units, inside, by rw [points, folded]; simp⟩

end Strings

section Values

theorem Blank.append {first second : List Char} (left : Blank first) (right : Blank second) : Blank (first ++ second) := by
  intro c member
  rcases List.mem_append.mp member with member | member
  · exact left c member
  · exact right c member

theorem blank_nil : Blank [] := by simp [Blank]

theorem blank_space : Blank [' '] := by simp [Blank, isWs]

theorem Encodes.items_space {text : List Char} {vs : List Value} (derived : Encodes text (.items vs)) :
    Encodes (' ' :: text) (.items vs) := by
  cases derived with
  | item left value right => exact .item (blank_space.append left) value right
  | items left value right rest => exact .items (blank_space.append left) value right rest

theorem Encodes.members_space {text : List Char} {ms : List (List Nat × Value)} (derived : Encodes text (.members ms)) :
    Encodes (' ' :: text) (.members ms) := by
  cases derived with
  | member left key before after value right =>
    exact .member (blank_space.append left) key before after value right
  | members left key before after value right rest =>
    exact .members (blank_space.append left) key before after value right rest

theorem quote_append (key : List Nat) (rest : List Char) :
    quote key ++ ':' :: ' ' :: rest =
      [] ++ '"' :: (key.flatMap escapePoint ++ '"' :: ([] ++ ':' :: ([' '] ++ rest))) := by
  simp [quote]

mutual

theorem dumps_encodes : ∀ v, Plain v → Encodes (dumps v) (.value v)
  | .null, _ => .null
  | .bool b, _ => .boolean b
  | .num _, plain => .number plain
  | .str s, plain => by
    obtain ⟨units, inside, same⟩ := exists_units plain
    have derived := Encodes.string inside
    rw [same] at derived
    exact derived
  | .arr items, plain => by
    by_cases empty : items = []
    · subst empty
      exact .emptyArray blank_nil
    · exact .array (dumpsItems_encodes items empty plain)
  | .obj members, plain => by
    by_cases empty : members = []
    · subst empty
      exact .emptyObject blank_nil
    · exact .object (dumpsMembers_encodes members empty plain)

theorem dumpsItems_encodes : ∀ items, items ≠ [] → PlainItems items → Encodes (dumpsItems items) (.items items)
  | [], nonempty, _ => absurd rfl nonempty
  | [v], _, plain => by
    have derived := Encodes.item blank_nil (dumps_encodes v plain.1) blank_nil
    rw [List.nil_append, List.append_nil] at derived
    exact derived
  | v :: w :: items, _, plain =>
    have later := dumpsItems_encodes (w :: items) (List.cons_ne_nil w items) plain.2
    .items blank_nil (dumps_encodes v plain.1) blank_nil later.items_space

theorem dumpsMembers_encodes : ∀ members, members ≠ [] → PlainMembers members →
    Encodes (dumpsMembers members) (.members members)
  | [], nonempty, _ => absurd rfl nonempty
  | [(key, v)], _, plain => by
    obtain ⟨units, inside, same⟩ := exists_units plain.1
    have derived := Encodes.member blank_nil inside blank_nil blank_space (dumps_encodes v plain.2.1) blank_nil
    rw [same, List.append_nil] at derived
    rw [dumpsMembers, quote_append]
    exact derived
  | (key, v) :: next :: members, _, plain => by
    obtain ⟨units, inside, same⟩ := exists_units plain.1
    have later := dumpsMembers_encodes (next :: members) (List.cons_ne_nil next members) plain.2.2
    have derived := Encodes.members blank_nil inside blank_nil blank_space (dumps_encodes v plain.2.1) blank_nil
      later.members_space
    rw [same] at derived
    rw [dumpsMembers, quote_append]
    exact derived

end

theorem IsText.of_encodes {text : List Char} {v : Value} (derived : Encodes text (.value v)) : IsText text v :=
  ⟨[], text, [], by rw [List.nil_append, List.append_nil], blank_nil, derived, blank_nil⟩

theorem decode_dumps {v : Value} (plain : Plain v) : decode (dumps v) = some v :=
  decode_of_isText (.of_encodes (dumps_encodes v plain))

end Values

section Characters

def Printable (c : Char) : Prop := 0x20 ≤ c.toNat ∧ c.toNat ≤ 0x7e

instance (c : Char) : Decidable (Printable c) := inferInstanceAs (Decidable (_ ∧ _))

theorem hexDigit_printable {n : Nat} (bound : n < 16) : Printable (hexDigit n) := by
  have all : ∀ m < 16, Printable (hexDigit m) := by decide
  exact all n bound

theorem hexEscape_printable {unit : Nat} (bound : unit < 0x10000) : ∀ c ∈ hexEscape unit, Printable c := by
  simp only [hexEscape, List.forall_mem_cons, List.not_mem_nil, false_implies, implies_true, and_true]
  refine ⟨by decide, by decide, ?_, ?_, ?_, ?_⟩
  all_goals exact hexDigit_printable (by omega)

theorem escapePoint_printable {point : Nat} (bound : point < 0x110000) : ∀ c ∈ escapePoint point, Printable c := by
  unfold escapePoint
  split
  · next letter found =>
    have visible : Printable letter := by
      unfold escapeLetter at found
      split at found <;> cases found <;> decide
    rw [List.forall_mem_cons, List.forall_mem_singleton]
    exact ⟨by decide, visible⟩
  split
  · next range =>
    rw [List.forall_mem_singleton, Printable, toNat_ofNat (by omega)]
    exact range
  split
  · next low => exact hexEscape_printable low
  · intro c member
    rcases List.mem_append.mp member with member | member
    · exact hexEscape_printable (by omega) c member
    · exact hexEscape_printable (by omega) c member

theorem quote_printable {s : List Nat} (scalars : ∀ point ∈ s, Scalar point) : ∀ c ∈ quote s, Printable c := by
  intro c member
  simp only [quote, List.mem_cons, List.mem_append, List.mem_flatMap, List.not_mem_nil, or_false] at member
  rcases member with rfl | ⟨point, inside, member⟩ | rfl
  · decide
  · exact escapePoint_printable (scalars point inside).1 c member
  · decide

theorem digit_printable {c : Char} (digit : c.isDigit = true) : Printable c := by
  simp only [Char.isDigit, Bool.and_eq_true, decide_eq_true_eq] at digit
  obtain ⟨low, high⟩ := digit
  have lower : 48 ≤ c.toNat := low
  have upper : c.toNat ≤ 57 := high
  exact ⟨by omega, by omega⟩

theorem NumberText.printable {text : List Char} (read : NumberText text) : ∀ c ∈ text, Printable c := by
  obtain ⟨minus, int, frac, exp, rfl, signs, intText, fracText, expText⟩ := read
  have digits {ds : List Char} (read : Digits ds) : ∀ c ∈ ds, Printable c :=
    fun c member => digit_printable (read.2 c member)
  intro c member
  simp only [List.mem_append] at member
  rcases member with member | member | member | member
  · rcases signs with rfl | rfl
    · cases member
    · rw [List.mem_singleton.mp member]
      decide
  · rcases intText with rfl | ⟨read, -⟩
    · rw [List.mem_singleton.mp member]
      decide
    · exact digits read c member
  · rcases fracText with rfl | ⟨ds, rfl, read⟩
    · cases member
    · rcases List.mem_cons.mp member with rfl | member
      · decide
      · exact digits read c member
  · rcases expText with rfl | ⟨e, sign, ds, rfl, letter, signs, read⟩
    · cases member
    · rcases List.mem_cons.mp member with rfl | member
      · rcases letter with rfl | rfl <;> decide
      · rcases List.mem_append.mp member with member | member
        · rcases signs with rfl | rfl | rfl
          · cases member
          · rw [List.mem_singleton.mp member]
            decide
          · rw [List.mem_singleton.mp member]
            decide
        · exact digits read c member

mutual

theorem dumps_printable : ∀ v, Plain v → ∀ c ∈ dumps v, Printable c
  | .null, _ => forall_mem_of_all (by decide)
  | .bool true, _ => forall_mem_of_all (by decide)
  | .bool false, _ => forall_mem_of_all (by decide)
  | .num _, plain => NumberText.printable plain
  | .str _, plain => quote_printable plain
  | .arr items, plain => by
    have inside := dumpsItems_printable items plain
    intro c member
    simp only [dumps, List.mem_cons, List.mem_append, List.not_mem_nil, or_false] at member
    rcases member with rfl | member | rfl
    · decide
    · exact inside c member
    · decide
  | .obj members, plain => by
    have inside := dumpsMembers_printable members plain
    intro c member
    simp only [dumps, List.mem_cons, List.mem_append, List.not_mem_nil, or_false] at member
    rcases member with rfl | member | rfl
    · decide
    · exact inside c member
    · decide

theorem dumpsItems_printable : ∀ items, PlainItems items → ∀ c ∈ dumpsItems items, Printable c
  | [], _ => by simp [dumpsItems]
  | [v], plain => dumps_printable v plain.1
  | v :: w :: items, plain => by
    have first := dumps_printable v plain.1
    have later := dumpsItems_printable (w :: items) plain.2
    intro c member
    simp only [dumpsItems, List.mem_append, List.mem_cons] at member
    rcases member with member | rfl | rfl | member
    · exact first c member
    · decide
    · decide
    · exact later c member

theorem dumpsMembers_printable : ∀ members, PlainMembers members → ∀ c ∈ dumpsMembers members, Printable c
  | [], _ => by simp [dumpsMembers]
  | [(key, v)], plain => by
    have name := quote_printable plain.1
    have value := dumps_printable v plain.2.1
    intro c member
    simp only [dumpsMembers, List.mem_append, List.mem_cons] at member
    rcases member with member | rfl | rfl | member
    · exact name c member
    · decide
    · decide
    · exact value c member
  | (key, v) :: next :: members, plain => by
    have name := quote_printable plain.1
    have value := dumps_printable v plain.2.1
    have later := dumpsMembers_printable (next :: members) plain.2.2
    intro c member
    simp only [dumpsMembers, List.mem_append, List.mem_cons] at member
    rcases member with member | rfl | rfl | member | rfl | rfl | member
    · exact name c member
    · decide
    · decide
    · exact value c member
    · decide
    · decide
    · exact later c member

end

end Characters

end Json
