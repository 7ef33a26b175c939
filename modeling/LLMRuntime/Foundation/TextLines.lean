import Mathlib.Data.List.DropRight

namespace TextLines

/-- The characters at which Python's `str.splitlines` ends a line. -/
def isLineBreak (c : Char) : Bool :=
  c ∈ ['\n', '\r', '\x0b', '\x0c', '\x1c', '\x1d', '\x1e', '\u0085', '\u2028', '\u2029']

def extend (c : Char) : List (List Char) → List (List Char)
  | [] => [[c]]
  | line :: lines => (c :: line) :: lines

/-- `str.splitlines()`: a CR LF pair is one boundary, and no empty line follows the last boundary. -/
def splitlines : List Char → List (List Char)
  | [] => []
  | '\r' :: '\n' :: rest => [] :: splitlines rest
  | c :: rest => if isLineBreak c then [] :: splitlines rest else extend c (splitlines rest)

/-- `str.strip()`, for the characters that count as white space. -/
def strip (isSpace : Char → Bool) (text : List Char) : List Char := (text.dropWhile isSpace).rdropWhile isSpace

theorem forall_mem_of_all {P : Char → Prop} [DecidablePred P] {text : List Char}
    (checked : text.all (fun c => decide (P c)) = true) : ∀ c ∈ text, P c :=
  fun c member => of_decide_eq_true (List.all_eq_true.mp checked c member)

/-- A literal is searched letter by letter, without decoding its bytes. -/
theorem not_mem_toList {c : Char} {s : String} {letters : List Char} (spelled : s = String.ofList letters)
    (absent : c ∉ letters) : c ∉ s.toList := by
  rw [spelled, String.toList_ofList]
  exact absent

/-- What `splitlines` goes on with after the boundary `c`. -/
def afterBreak (c : Char) (rest : List Char) : List Char :=
  if c = '\r' ∧ rest.head? = some '\n' then rest.tail else rest

example : splitlines "a\r\n\nb\u2028c\n".toList = ["a".toList, [], "b".toList, "c".toList] := by decide

theorem splitlines_break {c : Char} (ends : isLineBreak c = true) (rest : List Char) :
    splitlines (c :: rest) = [] :: splitlines (afterBreak c rest) := by
  unfold afterBreak
  split
  · next pair =>
    obtain ⟨rfl, newline⟩ := pair
    obtain ⟨tail, rfl⟩ := List.head?_eq_some_iff.mp newline
    rw [splitlines]
    rfl
  · next single =>
    rw [splitlines]
    · rw [if_pos ends]
    · rintro tail rfl rfl
      exact single ⟨rfl, rfl⟩

theorem splitlines_char {c : Char} (inner : isLineBreak c = false) (rest : List Char) :
    splitlines (c :: rest) = extend c (splitlines rest) := by
  rw [splitlines]
  · simp [inner]
  · rintro tail rfl -
    cases inner

theorem extend_append (c : Char) {lines : List (List Char)} (nonempty : lines ≠ []) (more : List (List Char)) :
    extend c (lines ++ more) = extend c lines ++ more := by
  cases lines with
  | nil => exact absurd rfl nonempty
  | cons line lines => rfl

theorem splitlines_ne_nil {text : List Char} (nonempty : text ≠ []) : splitlines text ≠ [] := by
  cases text with
  | nil => exact absurd rfl nonempty
  | cons c rest =>
    by_cases ends : isLineBreak c = true
    · rw [splitlines_break ends]
      exact List.cons_ne_nil _ _
    · rw [splitlines_char (by simpa using ends)]
      unfold extend
      split <;> exact List.cons_ne_nil _ _

theorem afterBreak_append {c : Char} {text : List Char} (nonempty : text ≠ []) (rest : List Char) :
    afterBreak c (text ++ rest) = afterBreak c text ++ rest := by
  cases text with
  | nil => exact absurd rfl nonempty
  | cons d text =>
    by_cases pair : c = '\r' ∧ d = '\n'
    · simp [afterBreak, pair]
    · simp [afterBreak, pair]

theorem splitlines_append_break (text : List Char) {b : Char} (ends : isLineBreak b = true) (rest : List Char) :
    splitlines (text ++ b :: rest) = splitlines (text ++ [b]) ++ splitlines (afterBreak b rest) := by
  induction size : text.length using Nat.strong_induction_on generalizing text with
  | _ n ih =>
  cases text with
  | nil =>
    rw [List.nil_append, List.nil_append, splitlines_break ends, splitlines_break ends]
    simp [afterBreak, splitlines]
  | cons c tail =>
    rw [List.length_cons] at size
    rw [List.cons_append, List.cons_append]
    by_cases first : isLineBreak c = true
    · rw [splitlines_break first, splitlines_break first, List.cons_append]
      congr 1
      cases tail with
      | nil =>
        by_cases pair : c = '\r' ∧ b = '\n'
        · obtain ⟨rfl, rfl⟩ := pair
          simp [afterBreak, splitlines]
        · have single (more : List Char) : afterBreak c (b :: more) = b :: more := by simp [afterBreak, pair]
          rw [List.nil_append, List.nil_append, single, single]
          exact ih 0 (by omega) [] rfl
      | cons d tail =>
        have shorter : (afterBreak c (d :: tail)).length ≤ tail.length + 1 := by
          unfold afterBreak
          split <;> simp
        rw [List.length_cons] at size
        rw [afterBreak_append (List.cons_ne_nil _ _), afterBreak_append (List.cons_ne_nil _ _)]
        exact ih _ (by omega) _ rfl
    · have inner : isLineBreak c = false := by simpa using first
      rw [splitlines_char inner, splitlines_char inner, ih tail.length (by omega) tail rfl]
      exact extend_append c (splitlines_ne_nil (by simp)) _

theorem splitlines_line {line : List Char} (inner : ∀ c ∈ line, isLineBreak c = false) {b : Char}
    (ends : isLineBreak b = true) : splitlines (line ++ [b]) = [line] := by
  induction line with
  | nil =>
    rw [List.nil_append, splitlines_break ends]
    simp [afterBreak, splitlines]
  | cons c line ih =>
    rw [List.cons_append, splitlines_char (inner c List.mem_cons_self),
      ih fun d member => inner d (List.mem_cons_of_mem c member)]
    rfl

theorem splitlines_first {line : List Char} (inner : ∀ c ∈ line, isLineBreak c = false) {b : Char}
    (ends : isLineBreak b = true) (rest : List Char) :
    splitlines (line ++ b :: rest) = line :: splitlines (afterBreak b rest) := by
  rw [splitlines_append_break line ends, splitlines_line inner ends, List.singleton_append]

variable {isSpace : Char → Bool}

theorem strip_eq {c : Char} (visible : isSpace c = false) (text : List Char) :
    strip isSpace (c :: text) = (c :: text).rdropWhile isSpace := by
  rw [strip, List.dropWhile_cons_of_neg (by simp [visible])]

theorem exists_rdropWhile_append (isSpace : Char → Bool) (text : List Char) :
    ∃ spaces, (∀ c ∈ spaces, isSpace c = true) ∧ text = text.rdropWhile isSpace ++ spaces := by
  refine ⟨text.rtakeWhile isSpace, fun c member => List.mem_rtakeWhile_imp member, ?_⟩
  exact (List.rdropWhile_append_rtakeWhile ..).symm

theorem rdropWhile_append (first : List Char) {text : List Char} (visible : ∃ c ∈ text, isSpace c = false) :
    (first ++ text).rdropWhile isSpace = first ++ text.rdropWhile isSpace := by
  obtain ⟨c, member, seen⟩ := visible
  have left : ¬ (text.reverse.dropWhile isSpace).isEmpty = true := by
    rw [List.isEmpty_iff, List.dropWhile_eq_nil_iff]
    intro all
    rw [all c (List.mem_reverse.mpr member)] at seen
    cases seen
  rw [List.rdropWhile, List.reverse_append, List.dropWhile_append, if_neg left, List.reverse_append,
    List.reverse_reverse]
  rfl

theorem rdropWhile_append_spaces (text : List Char) {spaces : List Char} (blank : ∀ c ∈ spaces, isSpace c = true) :
    (text ++ spaces).rdropWhile isSpace = text.rdropWhile isSpace := by
  rw [List.rdropWhile, List.reverse_append, List.dropWhile_append_of_pos]
  · rfl
  · intro c member
    exact blank c (List.mem_reverse.mp member)

theorem exists_first_break {text : List Char} (broken : ¬ ∀ c ∈ text, isLineBreak c = false) :
    ∃ line b rest, text = line ++ b :: rest ∧ isLineBreak b = true ∧ ∀ c ∈ line, isLineBreak c = false := by
  induction text with
  | nil => exact absurd (by simp) broken
  | cons c text ih =>
    by_cases ends : isLineBreak c = true
    · exact ⟨[], c, text, rfl, ends, by simp⟩
    · have inner : isLineBreak c = false := by simpa using ends
      have later : ¬ ∀ d ∈ text, isLineBreak d = false := by
        intro all
        exact broken (List.forall_mem_cons.mpr ⟨inner, all⟩)
      obtain ⟨line, b, rest, rfl, ends, all⟩ := ih later
      exact ⟨c :: line, b, rest, rfl, ends, List.forall_mem_cons.mpr ⟨inner, all⟩⟩

end TextLines
