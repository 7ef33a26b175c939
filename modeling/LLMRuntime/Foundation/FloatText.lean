import Mathlib.Data.Rat.Floor
import Mathlib.Tactic.Linarith

namespace FloatText

/-- Python's `round` to an integer: halves go to the even neighbour. -/
def roundHalfEven (q : ℚ) : ℤ :=
  if q - ⌊q⌋ < 1 / 2 then ⌊q⌋
  else if 1 / 2 < q - ⌊q⌋ then ⌊q⌋ + 1
  else if ⌊q⌋ % 2 = 0 then ⌊q⌋ else ⌊q⌋ + 1

theorem roundHalfEven_eq_iff {q : ℚ} {k : ℤ} :
    roundHalfEven q = k ↔ |q - k| < 1 / 2 ∨ |q - k| = 1 / 2 ∧ k % 2 = 0 := by
  have below := Int.floor_le q
  have above := Int.lt_floor_add_one q
  have apart : ∀ j : ℤ, |q - j| ≤ 1 / 2 → j = ⌊q⌋ ∨ j = ⌊q⌋ + 1 := by
    intro j near
    rw [abs_le] at near
    have least : (⌊q⌋ : ℚ) - 1 < j := by linarith
    have greatest : (j : ℚ) < ⌊q⌋ + 2 := by linarith
    have least : ⌊q⌋ - 1 < j := by exact_mod_cast least
    have greatest : j < ⌊q⌋ + 2 := by exact_mod_cast greatest
    omega
  have floor : |q - ⌊q⌋| = q - ⌊q⌋ := abs_of_nonneg (by linarith)
  have next : |q - (⌊q⌋ + 1 : ℤ)| = 1 - (q - ⌊q⌋) := by
    rw [abs_of_nonpos (by push_cast; linarith)]
    push_cast
    ring
  have cases : (|q - k| < 1 / 2 ∨ |q - k| = 1 / 2 ∧ k % 2 = 0) ↔
      (k = ⌊q⌋ ∧ (q - ⌊q⌋ < 1 / 2 ∨ q - ⌊q⌋ = 1 / 2 ∧ ⌊q⌋ % 2 = 0)) ∨
        (k = ⌊q⌋ + 1 ∧ (1 / 2 < q - ⌊q⌋ ∨ q - ⌊q⌋ = 1 / 2 ∧ ⌊q⌋ % 2 ≠ 0)) := by
    constructor
    · intro near
      have close : |q - k| ≤ 1 / 2 := by
        rcases near with less | ⟨half, -⟩
        · exact less.le
        · exact half.le
      rcases apart k close with rfl | rfl
      · rw [floor] at near
        exact .inl ⟨rfl, near⟩
      · rw [next] at near
        right
        refine ⟨rfl, ?_⟩
        rcases near with less | ⟨half, even⟩
        · exact .inl (by linarith)
        · exact .inr ⟨by linarith, by omega⟩
    · rintro (⟨rfl, near⟩ | ⟨rfl, near⟩)
      · rwa [floor]
      · rw [next]
        rcases near with more | ⟨half, odd⟩
        · exact .inl (by linarith)
        · exact .inr ⟨by linarith, by omega⟩
  rw [cases, roundHalfEven]
  split
  · next less =>
    constructor
    · intro same
      exact .inl ⟨same.symm, .inl less⟩
    · rintro (⟨same, -⟩ | ⟨-, more | ⟨half, -⟩⟩)
      · exact same.symm
      · linarith
      · linarith
  · next notLess =>
    split
    · next more =>
      constructor
      · intro same
        exact .inr ⟨same.symm, .inl more⟩
      · rintro (⟨-, less | ⟨half, -⟩⟩ | ⟨same, -⟩)
        · linarith
        · linarith
        · exact same.symm
    · next notMore =>
      have half : q - ⌊q⌋ = 1 / 2 := le_antisymm (not_lt.mp notMore) (not_lt.mp notLess)
      split
      · next even =>
        constructor
        · intro same
          exact .inl ⟨same.symm, .inr ⟨half, even⟩⟩
        · rintro (⟨same, -⟩ | ⟨-, more | ⟨-, odd⟩⟩)
          · exact same.symm
          · exact (notMore more).elim
          · exact (odd even).elim
      · next odd =>
        constructor
        · intro same
          exact .inr ⟨same.symm, .inr ⟨half, odd⟩⟩
        · rintro (⟨-, less | ⟨-, even⟩⟩ | ⟨same, -⟩)
          · exact (notLess less).elim
          · exact (odd even).elim
          · exact same.symm

theorem roundHalfEven_near (q : ℚ) : |q - roundHalfEven q| ≤ 1 / 2 := by
  rcases roundHalfEven_eq_iff.mp (rfl : roundHalfEven q = roundHalfEven q) with less | ⟨half, -⟩
  · exact less.le
  · exact half.le

theorem le_roundHalfEven {q : ℚ} {k : ℤ} (order : (k : ℚ) ≤ q) : k ≤ roundHalfEven q := by
  have near := (abs_le.mp (roundHalfEven_near q)).2
  have close : (k : ℚ) < roundHalfEven q + 1 := by linarith
  exact Int.lt_add_one_iff.mp (by exact_mod_cast close)

theorem roundHalfEven_le {q : ℚ} {k : ℤ} (order : q ≤ k) : roundHalfEven q ≤ k := by
  have near := (abs_le.mp (roundHalfEven_near q)).1
  have close : (roundHalfEven q : ℚ) < k + 1 := by linarith
  exact Int.lt_add_one_iff.mp (by exact_mod_cast close)

/-- The exponent of the greatest power of `base` that is at most `q`, for a positive `q`. -/
def floorLog (base : Nat) (q : ℚ) : ℤ :=
  if 1 ≤ q then (Nat.toDigits base ⌊q⌋.toNat).length - 1
  else -((Nat.toDigits base (⌈1 / q⌉.toNat - 1)).length : ℤ)

def power (base : Nat) (exponent : ℤ) : ℚ :=
  if 0 ≤ exponent then (base ^ exponent.toNat : Nat) else 1 / (base ^ (-exponent).toNat : Nat)

def nearestDouble (q : ℚ) : ℚ :=
  let unit : ℚ := power 2 (max (floorLog 2 q - 52) (-1074))
  roundHalfEven (q / unit) * unit

/-- Decimal digits that lead back to the double `d`, `more` of them behind the first, with the exponent of the last. -/
def digitsBack (d : ℚ) (more : Nat) : Option (Nat × ℤ) :=
  let exponent := floorLog 10 d - more
  let scaled := d / power 10 exponent
  -- The doubles above a power of two lie twice as far apart as those below it, where the next decimal may lead back.
  ([roundHalfEven scaled, ⌈scaled⌉].find? fun digits : ℤ => nearestDouble (digits * power 10 exponent) = d).map
    fun digits => (digits.toNat, exponent)

/-- The fewest decimal digits that lead back to the double `d`. -/
def shortest (d : ℚ) : Nat × ℤ := ((List.range 17).findSome? (digitsBack d)).getD (0, 0)

/-- Digits with a decimal point `place` digits after their beginning, as `repr` writes it. -/
def pointed (digits : List Char) (place : ℤ) : List Char :=
  if place ≤ -4 ∨ 16 < place then
    let power := Nat.toDigits 10 (place - 1).natAbs
    digits.take 1 ++ (if digits.length ≤ 1 then [] else '.' :: digits.drop 1) ++
      ('e' :: (if place - 1 < 0 then '-' else '+') :: (if power.length < 2 then '0' :: power else power))
  else if place ≤ 0 then '0' :: '.' :: (List.replicate (-place).toNat '0' ++ digits)
  else if (digits.length : ℤ) ≤ place then digits ++ List.replicate (place.toNat - digits.length) '0' ++ ['.', '0']
  else digits.take place.toNat ++ '.' :: digits.drop place.toNat

/-- `repr` of the double nearest to a rational. -/
def floatText (q : ℚ) : List Char :=
  let sign := if q < 0 then ['-'] else []
  if q = 0 ∨ nearestDouble |q| = 0 then sign ++ ['0', '.', '0']
  else
    let (number, exponent) := shortest (nearestDouble |q|)
    let all := Nat.toDigits 10 number
    let digits := (all.reverse.dropWhile (· = '0')).reverse
    sign ++ pointed digits (exponent + all.length)

/-- `sys.get_int_max_str_digits()`. -/
def intMaxStrDigits : Nat := 4300

def intText (n : ℤ) : List Char :=
  if n < 0 then '-' :: Nat.toDigits 10 n.natAbs else Nat.toDigits 10 n.natAbs

def isNumberChar (c : Char) : Bool := c.isDigit || c ∈ ['-', '.', 'e', '+']

theorem isNumberChar_of_isDigit {c : Char} (digit : c.isDigit = true) : isNumberChar c = true := by
  simp [isNumberChar, digit]

theorem toDigits_number (n : Nat) : ∀ c ∈ Nat.toDigits 10 n, isNumberChar c = true :=
  fun _ member => isNumberChar_of_isDigit (Nat.isDigit_of_mem_toDigits (by decide) (by decide) member)

theorem pointed_number {digits : List Char} (all : ∀ c ∈ digits, isNumberChar c = true) (place : ℤ) :
    ∀ c ∈ pointed digits place, isNumberChar c = true := by
  have zeros (n : Nat) : ∀ c ∈ List.replicate n '0', isNumberChar c = true := by
    intro c member
    rw [List.eq_of_mem_replicate member]
    decide
  have part {piece : List Char} (sub : ∀ c ∈ piece, c ∈ digits) : ∀ c ∈ piece, isNumberChar c = true :=
    fun c member => all c (sub c member)
  have taken (n : Nat) := part fun c (member : c ∈ digits.take n) => List.mem_of_mem_take member
  have dropped (n : Nat) := part fun c (member : c ∈ digits.drop n) => List.mem_of_mem_drop member
  have power := toDigits_number (place - 1).natAbs
  intro c member
  unfold pointed at member
  dsimp only at member
  split at member
  · simp only [List.mem_append, List.mem_cons] at member
    rcases member with (first | rest) | rfl | sign | digits
    · exact taken 1 c first
    · split at rest
      · cases rest
      · rcases List.mem_cons.mp rest with rfl | rest
        · decide
        · exact dropped 1 c rest
    · decide
    · rw [sign]
      split <;> decide
    · split at digits
      · rcases List.mem_cons.mp digits with rfl | digits
        · decide
        · exact power c digits
      · exact power c digits
  split at member
  · simp only [List.mem_append, List.mem_cons] at member
    rcases member with rfl | rfl | padding | rest
    · decide
    · decide
    · exact zeros _ c padding
    · exact all c rest
  split at member
  · simp only [List.mem_append, List.mem_cons, List.not_mem_nil, or_false] at member
    rcases member with (whole | padding) | rfl | rfl
    · exact all c whole
    · exact zeros _ c padding
    · decide
    · decide
  · simp only [List.mem_append, List.mem_cons] at member
    rcases member with whole | rfl | rest
    · exact taken _ c whole
    · decide
    · exact dropped _ c rest

theorem floatText_number (q : ℚ) : ∀ c ∈ floatText q, isNumberChar c = true := by
  have sign : ∀ c ∈ (if q < 0 then ['-'] else []), isNumberChar c = true := by
    intro c member
    split at member
    · rw [List.mem_singleton.mp member]
      decide
    · cases member
  intro c member
  unfold floatText at member
  dsimp only at member
  split at member
  · rcases List.mem_append.mp member with first | rest
    · exact sign c first
    · simp only [List.mem_cons, List.not_mem_nil, or_false] at rest
      rcases rest with rfl | rfl | rfl <;> decide
  · rcases List.mem_append.mp member with first | rest
    · exact sign c first
    · refine pointed_number ?_ _ c rest
      intro d inside
      exact toDigits_number _ d (List.mem_reverse.mp ((List.dropWhile_suffix _).subset (List.mem_reverse.mp inside)))

theorem intText_number (n : ℤ) : ∀ c ∈ intText n, isNumberChar c = true := by
  intro c member
  unfold intText at member
  split at member
  · rcases List.mem_cons.mp member with rfl | rest
    · decide
    · exact toDigits_number _ c rest
  · exact toDigits_number _ c member

theorem toDigits_injective {m n : Nat} (same : Nat.toDigits 10 m = Nat.toDigits 10 n) : m = n := by
  rw [← Nat.ofDigitChars_ten_toDigits (n := m), same, Nat.ofDigitChars_ten_toDigits]

theorem intText_injective {m n : ℤ} (same : intText m = intText n) : m = n := by
  have unsigned {k : Nat} {rest : List Char} : Nat.toDigits 10 k ≠ '-' :: rest := by
    intro signed
    have digit : '-'.isDigit = true :=
      Nat.isDigit_of_mem_toDigits (by decide) (by decide) (signed ▸ List.mem_cons_self)
    cases digit
  unfold intText at same
  split at same <;> split at same
  · have abs := toDigits_injective (List.cons_inj_right _ |>.mp same)
    omega
  · exact absurd same.symm unsigned
  · exact absurd same unsigned
  · have abs := toDigits_injective same
    omega

end FloatText
