import LLMRuntime.Foundation.FloatText
import Mathlib.Algebra.Group.Nat.Defs
import Mathlib.Data.List.Basic

namespace Json

/-- A JSON value as Python holds it. A string is its code points, which may be lone surrogates; a number keeps
    its text, and a list of members keeps repeated names, of which the last counts. -/
inductive Value where
  | null
  | bool (b : Bool)
  | num (lexeme : List Char)
  | str (points : List Nat)
  | arr (items : List Value)
  | obj (members : List (List Nat × Value))
  deriving Repr

def isWs (c : Char) : Bool := c ∈ [' ', '\t', '\n', '\r']

def isHigh (unit : Nat) : Bool := 0xd800 ≤ unit && unit ≤ 0xdbff

def isLow (unit : Nat) : Bool := 0xdc00 ≤ unit && unit ≤ 0xdfff

def joined (high low : Nat) : Nat := 0x10000 + (high - 0xd800) * 0x400 + (low - 0xdc00)

/-- One more unit after the code points read so far, last first: a low surrogate joins the high one before it. -/
def push : List Nat → Nat → List Nat
  | high :: before, unit =>
    if isHigh high && isLow unit then joined high unit :: before else unit :: high :: before
  | [], unit => [unit]

def points (units : List Nat) : List Nat := (units.foldl push []).reverse

def hexValue (c : Char) : Option Nat :=
  if '0' ≤ c ∧ c ≤ '9' then some (c.toNat - '0'.toNat)
  else if 'a' ≤ c ∧ c ≤ 'f' then some (c.toNat - 'a'.toNat + 10)
  else if 'A' ≤ c ∧ c ≤ 'F' then some (c.toNat - 'A'.toNat + 10)
  else none

def letterEscape : Char → Option Nat
  | '"' => some 0x22
  | '\\' => some 0x5c
  | '/' => some 0x2f
  | 'b' => some 8
  | 'f' => some 12
  | 'n' => some 10
  | 'r' => some 13
  | 't' => some 9
  | _ => none

section Grammar

/-- The inside of a string, with the UTF-16 unit or the character that each of its parts stands for. -/
inductive Units : List Char → List Nat → Prop where
  | nil : Units [] []
  | raw {c : Char} {text : List Char} {units : List Nat} (visible : 0x20 ≤ c.toNat) (unquoted : c ≠ '"')
      (plain : c ≠ '\\') (rest : Units text units) : Units (c :: text) (c.toNat :: units)
  | letter {c : Char} {unit : Nat} {text : List Char} {units : List Nat} (known : letterEscape c = some unit)
      (rest : Units text units) : Units ('\\' :: c :: text) (unit :: units)
  | hex {a b c d : Char} {w x y z : Nat} {text : List Char} {units : List Nat} (first : hexValue a = some w)
      (second : hexValue b = some x) (third : hexValue c = some y) (fourth : hexValue d = some z)
      (rest : Units text units) :
      Units ('\\' :: 'u' :: a :: b :: c :: d :: text) ((((w * 16 + x) * 16 + y) * 16 + z) :: units)

def Blank (text : List Char) : Prop := ∀ c ∈ text, isWs c = true

def Digits (text : List Char) : Prop := text ≠ [] ∧ ∀ c ∈ text, c.isDigit = true

/-- `int` of RFC 8259: no leading zeros. -/
def IntText (text : List Char) : Prop := text = ['0'] ∨ Digits text ∧ text.head? ≠ some '0'

def FracText (text : List Char) : Prop := text = [] ∨ ∃ digits, text = '.' :: digits ∧ Digits digits

def ExpText (text : List Char) : Prop :=
  text = [] ∨ ∃ e sign digits, text = e :: (sign ++ digits) ∧ (e = 'e' ∨ e = 'E') ∧
    (sign = [] ∨ sign = ['+'] ∨ sign = ['-']) ∧ Digits digits

def NumberText (text : List Char) : Prop :=
  ∃ minus int frac exp, text = minus ++ (int ++ (frac ++ exp)) ∧ (minus = [] ∨ minus = ['-']) ∧ IntText int ∧
    FracText frac ∧ ExpText exp

/-- What a text can encode: a value, the items between brackets or the members between braces. -/
inductive Part where
  | value (v : Value)
  | items (vs : List Value)
  | members (ms : List (List Nat × Value))

/-- The grammar of RFC 8259. -/
inductive Encodes : List Char → Part → Prop where
  | null : Encodes "null".toList (.value .null)
  | boolean (b : Bool) : Encodes (if b then "true".toList else "false".toList) (.value (.bool b))
  | number {text : List Char} (digits : NumberText text) : Encodes text (.value (.num text))
  | string {text : List Char} {units : List Nat} (inside : Units text units) :
      Encodes ('"' :: (text ++ ['"'])) (.value (.str (points units)))
  | emptyArray {w : List Char} (blank : Blank w) : Encodes ('[' :: (w ++ [']'])) (.value (.arr []))
  | array {text : List Char} {vs : List Value} (inside : Encodes text (.items vs)) :
      Encodes ('[' :: (text ++ [']'])) (.value (.arr vs))
  | emptyObject {w : List Char} (blank : Blank w) : Encodes ('{' :: (w ++ ['}'])) (.value (.obj []))
  | object {text : List Char} {ms : List (List Nat × Value)} (inside : Encodes text (.members ms)) :
      Encodes ('{' :: (text ++ ['}'])) (.value (.obj ms))
  | item {l text r : List Char} {v : Value} (left : Blank l) (value : Encodes text (.value v)) (right : Blank r) :
      Encodes (l ++ (text ++ r)) (.items [v])
  | items {l text r more : List Char} {v : Value} {vs : List Value} (left : Blank l)
      (value : Encodes text (.value v)) (right : Blank r) (rest : Encodes more (.items vs)) :
      Encodes (l ++ (text ++ (r ++ ',' :: more))) (.items (v :: vs))
  | member {l name m n text r : List Char} {units : List Nat} {v : Value} (left : Blank l) (key : Units name units)
      (before : Blank m) (after : Blank n) (value : Encodes text (.value v)) (right : Blank r) :
      Encodes (l ++ '"' :: (name ++ '"' :: (m ++ ':' :: (n ++ (text ++ r))))) (.members [(points units, v)])
  | members {l name m n text r more : List Char} {units : List Nat} {v : Value} {ms : List (List Nat × Value)}
      (left : Blank l) (key : Units name units) (before : Blank m) (after : Blank n)
      (value : Encodes text (.value v)) (right : Blank r) (rest : Encodes more (.members ms)) :
      Encodes (l ++ '"' :: (name ++ '"' :: (m ++ ':' :: (n ++ (text ++ (r ++ ',' :: more))))))
        (.members ((points units, v) :: ms))

/-- A JSON text: one value between white space. -/
def IsText (text : List Char) (v : Value) : Prop :=
  ∃ l inner r, text = l ++ (inner ++ r) ∧ Blank l ∧ Encodes inner (.value v) ∧ Blank r

end Grammar

section Machine

inductive Escape where
  | none
  | backslash
  | hex (count value : Nat)
  deriving DecidableEq, Repr

inductive Role where
  | value
  | key (before : List (List Nat × Value))

inductive Progress where
  | minus
  | zero
  | integer
  | point
  | fraction
  | e
  | sign
  | exponent
  deriving DecidableEq, Repr

def Progress.complete : Progress → Bool
  | .zero | .integer | .fraction | .exponent => true
  | _ => false

def Progress.step (progress : Progress) (c : Char) : Option Progress :=
  match progress with
  | .minus => if c = '0' then some .zero else if c.isDigit then some .integer else none
  | .zero => if c = '.' then some .point else if c = 'e' ∨ c = 'E' then some .e else none
  | .integer =>
    if c.isDigit then some .integer
    else if c = '.' then some .point else if c = 'e' ∨ c = 'E' then some .e else none
  | .point => if c.isDigit then some .fraction else none
  | .fraction => if c.isDigit then some .fraction else if c = 'e' ∨ c = 'E' then some .e else none
  | .e => if c = '+' ∨ c = '-' then some .sign else if c.isDigit then some .exponent else none
  | .sign => if c.isDigit then some .exponent else none
  | .exponent => if c.isDigit then some .exponent else none

inductive Mode where
  | value
  | key (before : List (List Nat × Value))
  | colon (before : List (List Nat × Value)) (key : List Nat)
  | string (role : Role) (points : List Nat) (escape : Escape)
  | number (lexeme : List Char) (progress : Progress)
  | word (left : List Char) (v : Value)
  | ended (v : Value)

inductive Frame where
  | items (before : List Value)
  | members (before : List (List Nat × Value)) (key : List Nat)

abbrev State := Mode × List Frame

def stringStep (points : List Nat) (escape : Escape) (c : Char) : Option (List Nat × Escape) :=
  match escape with
  | .none =>
    if c = '\\' then some (points, .backslash)
    else if c.toNat < 0x20 then none
    else some (push points c.toNat, .none)
  | .backslash =>
    if c = 'u' then some (points, .hex 0 0) else (letterEscape c).map fun unit => (push points unit, .none)
  | .hex count value =>
    (hexValue c).map fun digit =>
      if count = 3 then (push points (value * 16 + digit), .none)
      else (points, .hex (count + 1) (value * 16 + digit))

def Role.close (role : Role) (points : List Nat) : Mode :=
  match role with
  | .value => .ended (.str points.reverse)
  | .key before => .colon before points.reverse

/-- The first character of a value, or the bracket that closes an empty array. -/
def start (stack : List Frame) (c : Char) : Option State :=
  if c = '"' then some (.string .value [] .none, stack)
  else if c = '[' then some (.value, .items [] :: stack)
  else if c = '{' then some (.key [], stack)
  else if c = 'n' then some (.word "ull".toList .null, stack)
  else if c = 't' then some (.word "rue".toList (.bool true), stack)
  else if c = 'f' then some (.word "alse".toList (.bool false), stack)
  else if c = 'N' then some (.word "aN".toList (.num "NaN".toList), stack)
  else if c = 'I' then some (.word "nfinity".toList (.num "Infinity".toList), stack)
  else if c = '-' then some (.number [c] .minus, stack)
  else if c = '0' then some (.number [c] .zero, stack)
  else if c.isDigit then some (.number [c] .integer, stack)
  else
    match stack with
    | .items [] :: stack => if c = ']' then some (.ended (.arr []), stack) else none
    | _ => none

def ended (v : Value) (stack : List Frame) (c : Char) : Option State :=
  if isWs c then some (.ended v, stack)
  else
    match stack with
    | .items before :: stack =>
      if c = ',' then some (.value, .items (before ++ [v]) :: stack)
      else if c = ']' then some (.ended (.arr (before ++ [v])), stack)
      else none
    | .members before key :: stack =>
      if c = ',' then some (.key (before ++ [(key, v)]), stack)
      else if c = '}' then some (.ended (.obj (before ++ [(key, v)])), stack)
      else none
    | [] => none

def step : State → Char → Option State
  | (.value, stack), c => if isWs c then some (.value, stack) else start stack c
  | (.key before, stack), c =>
    if isWs c then some (.key before, stack)
    else if c = '"' then some (.string (.key before) [] .none, stack)
    else if c = '}' ∧ before.isEmpty then some (.ended (.obj []), stack)
    else none
  | (.colon before key, stack), c =>
    if isWs c then some (.colon before key, stack)
    else if c = ':' then some (.value, .members before key :: stack)
    else none
  | (.string role points escape, stack), c =>
    if escape = .none ∧ c = '"' then some (role.close points, stack)
    else (stringStep points escape c).map fun next => (.string role next.1 next.2, stack)
  | (.number lexeme progress, stack), c =>
    match progress.step c with
    | some progress => some (.number (lexeme ++ [c]) progress, stack)
    | none =>
      if progress.complete then ended (.num lexeme) stack c
      else if progress = .minus ∧ c = 'I' then
        some (.word "nfinity".toList (.num "-Infinity".toList), stack)
      else none
  | (.word (d :: left) v, stack), c =>
    if c = d then some (if left.isEmpty then .ended v else .word left v, stack) else none
  | (.word [] _, _), _ => none
  | (.ended v, stack), c => ended v stack c

def run (s : State) (text : List Char) : Option State := text.foldlM step s

def finish : State → Option Value
  | (.ended v, []) => some v
  | (.number lexeme progress, []) => if progress.complete then some (.num lexeme) else none
  | _ => none

/-- A JSON decoder that, as Python's, knows `NaN`, `Infinity` and `-Infinity` beside RFC 8259. -/
def decode (text : List Char) : Option Value := (run (.value, []) text).bind finish

end Machine

section Python

/-- The number of a text without a point and an exponent is an `int`, which takes so many digits and no more. -/
def intFits (lexeme : List Char) : Bool :=
  '.' ∈ lexeme || 'e' ∈ lexeme || 'E' ∈ lexeme || lexeme.countP Char.isDigit ≤ FloatText.intMaxStrDigits

namespace Value

mutual

def intsFit : Value → Bool
  | .num lexeme => intFits lexeme
  | .arr items => itemsFit items
  | .obj members => membersFit members
  | _ => true

def itemsFit : List Value → Bool
  | [] => true
  | v :: items => v.intsFit && itemsFit items

def membersFit : List (List Nat × Value) → Bool
  | [] => true
  | (_, v) :: members => v.intsFit && membersFit members

end

mutual

def nesting : Value → Nat
  | .arr items => itemsNesting items + 1
  | .obj members => membersNesting members + 1
  | _ => 0

def itemsNesting : List Value → Nat
  | [] => 0
  | v :: items => max v.nesting (itemsNesting items)

def membersNesting : List (List Nat × Value) → Nat
  | [] => 0
  | (_, v) :: members => max v.nesting (membersNesting members)

end

end Value

/-- How deep the recursion limit lets arrays and objects nest where `json.loads` is called: four levels at least. -/
structure Interpreter where
  recursion : Nat
  room : 4 ≤ recursion

def Value.Fits (python : Interpreter) (v : Value) : Prop := v.intsFit = true ∧ v.nesting ≤ python.recursion

/-- `json.loads`; `none` is its exception: a `JSONDecodeError`, the `ValueError` of an integer with too many digits or a
    `RecursionError`. -/
def loads (python : Interpreter) (text : List Char) : Option Value :=
  (decode text).filter fun v => v.intsFit && v.nesting ≤ python.recursion

def ofString (s : String) : List Nat := s.toList.map Char.toNat

/-- Whether Python reads a number as zero: a float rounds to it from `2 ^ (-1075)` downwards. -/
def lexemeIsZero (lexeme : List Char) : Bool :=
  let mantissa := lexeme.takeWhile fun c => c ≠ 'e' ∧ c ≠ 'E'
  let digits := mantissa.filter Char.isDigit
  let decimals := ((mantissa.dropWhile (· ≠ '.')).drop 1).length
  let exponent := lexeme.drop (mantissa.length + 1)
  let value (text : List Char) : Nat := text.foldl (fun n c => n * 10 + (c.toNat - '0'.toNat)) 0
  let scale : Nat := value (exponent.filter Char.isDigit)
  let isFloat := mantissa.length < lexeme.length ∨ '.' ∈ mantissa
  if digits.isEmpty then false
  else if isFloat ∧ exponent.head? = some '-' then value digits * 2 ^ 1075 ≤ 10 ^ (scale + decimals)
  else if isFloat ∧ scale < decimals then value digits * 2 ^ 1075 ≤ 10 ^ (decimals - scale)
  else value digits = 0

namespace Value

def truthy : Value → Bool
  | .null => false
  | .bool b => b
  | .num lexeme => !lexemeIsZero lexeme
  | .str points => !points.isEmpty
  | .arr items => !items.isEmpty
  | .obj members => !members.isEmpty

/-- `v.get(key, default)`; `none` when `v` is no `dict` and so has no `get`. -/
def get (v : Value) (key : String) (default : Value) : Option Value :=
  match v with
  | .obj members => some (((members.reverse.find? fun member => member.1 = ofString key).map Prod.snd).getD default)
  | _ => none

/-- What `for` goes through; `none` for a value that is not iterable. -/
def iter : Value → Option (List Value)
  | .arr items => some items
  | .obj members => some ((members.map Prod.fst).eraseDups.map .str)
  | .str points => some (points.map fun point => .str [point])
  | _ => none

end Value

end Python

end Json
