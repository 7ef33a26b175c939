import LLMRuntime.Foundation.DoubleRounding
import Mathlib.Data.List.TakeWhile

/-! The shortest digits of a double lead back to it, and so does its text. -/

namespace FloatText

section Close

variable {x d : ℚ}

theorem whole_units (positive : 0 < d) (representable : Representable d) :
    ∃ k : ℤ, d = k * 2 ^ ulpExponent d ∧ 0 < k ∧ k < 2 ^ 53 := by
  have kept := nearestDouble_eq positive
  rw [nearestDouble_of_representable representable] at kept
  refine ⟨_, kept, ?_, ?_⟩
  · have product : (0 : ℚ) < roundHalfEven (d / 2 ^ ulpExponent d) * 2 ^ ulpExponent d := kept ▸ positive
    exact_mod_cast (mul_pos_iff_of_pos_right (two_zpow_pos _)).mp product
  · have below := div_ulp_lt positive
    rw [div_lt_iff₀ (two_zpow_pos _)] at below
    have units : (roundHalfEven (d / 2 ^ ulpExponent d) : ℚ) * 2 ^ ulpExponent d < 2 ^ 53 * 2 ^ ulpExponent d := kept ▸ below
    exact_mod_cast lt_of_mul_lt_mul_right units (two_zpow_pos _).le

theorem nearestDouble_of_unit {e k : ℤ} (positive : 0 < x) (unit : ulpExponent x = e) (near : |x - k * 2 ^ e| < 2 ^ e / 2) :
    nearestDouble x = k * 2 ^ e := by
  have scaled : |x / 2 ^ e - k| < 1 / 2 := by
    have factor : x / 2 ^ e - k = (x - k * 2 ^ e) / 2 ^ e := by
      rw [sub_div, mul_div_cancel_right₀ _ (two_zpow_pos e).ne']
    rw [factor, abs_div, abs_of_pos (two_zpow_pos e), div_lt_iff₀ (two_zpow_pos e)]
    linarith
  rw [nearestDouble_eq positive, unit, roundHalfEven_eq_iff.mpr (.inl scaled)]

theorem nearestDouble_of_close (positive : 0 < d) (positive' : 0 < x) (representable : Representable d)
    (close : |x - d| * 2 ^ 54 < d) : nearestDouble x = d := by
  obtain ⟨k, units, some, narrow⟩ := whole_units positive representable
  generalize exponent : ulpExponent d = u at units
  have narrow : (k : ℚ) < 2 ^ 53 := by exact_mod_cast narrow
  have unit := two_zpow_pos u
  have half : |x - d| < 2 ^ u / 2 := by
    have wide : d < 2 ^ 53 * 2 ^ u := units ▸ mul_lt_mul_of_pos_right narrow unit
    linarith
  have bounds := abs_lt.mp half
  rcases lt_trichotomy (ulpExponent x) u with finer | same | coarser
  · -- `d` is a power of two, and `x` is in the binade below it
    have binade : u = Int.log 2 d - 52 := by
      unfold ulpExponent at exponent finer
      omega
    have whole : (2 : ℚ) ^ Int.log 2 d = 2 ^ 52 * 2 ^ u := by
      rw [show Int.log 2 d = 52 + u by omega, zpow_add₀ (by norm_num)]
      norm_cast
    have before (order : (2 : ℚ) ^ (52 + u) ≤ x) : False := by
      have log : 52 + u ≤ Int.log 2 x := (Int.zpow_le_iff_le_log one_lt_two positive').mp (by exact_mod_cast order)
      unfold ulpExponent at finer
      omega
    have least : (2 : ℚ) ^ 52 ≤ k := by
      have below := (log_bounds positive).1
      rw [whole, units] at below
      exact le_of_mul_le_mul_right below unit
    have exact : k = 2 ^ 52 := by
      by_contra other
      have least : 2 ^ 52 ≤ k := by exact_mod_cast least
      have more : (2 : ℚ) ^ 52 + 1 ≤ k := by exact_mod_cast (show 2 ^ 52 + 1 ≤ k by omega)
      apply before
      rw [show (52 : ℤ) + u = Int.log 2 d by omega, whole]
      have above : (2 ^ 52 + 1) * 2 ^ u ≤ d := units ▸ mul_le_mul_of_nonneg_right more unit.le
      linarith
    have two : (2 : ℚ) ^ u = 2 * 2 ^ (u - 1) := by
      rw [← zpow_one_add₀ (by norm_num)]
      congr 1
      omega
    have value : d = ((2 ^ 53 : ℤ) : ℚ) * 2 ^ (u - 1) := by
      rw [units, exact, two]
      push_cast
      ring
    have quarter : |x - ((2 ^ 53 : ℤ) : ℚ) * 2 ^ (u - 1)| < 2 ^ (u - 1) / 2 := by
      rw [← value]
      push_cast at value
      linarith
    have unitX : ulpExponent x = u - 1 := by
      have order : (2 : ℚ) ^ (51 + u) ≤ x := by
        have split : (2 : ℚ) ^ (51 + u) = 2 ^ 51 * 2 ^ u := by
          rw [zpow_add₀ (by norm_num)]
          norm_cast
        rw [split]
        have above : d = 2 ^ 52 * 2 ^ u := by
          rw [units, exact]
          push_cast
          rfl
        linarith
      have log : 51 + u ≤ Int.log 2 x := (Int.zpow_le_iff_le_log one_lt_two positive').mp (by exact_mod_cast order)
      unfold ulpExponent at finer ⊢
      omega
    rw [nearestDouble_of_unit positive' unitX quarter, value]
  · rw [units] at half ⊢
    exact nearestDouble_of_unit positive' same half
  · -- the binade of `x` begins at least a unit above `d`
    have log : 53 + u ≤ Int.log 2 x := by
      have floor : -1074 ≤ u := exponent ▸ le_max_right _ _
      unfold ulpExponent at coarser
      omega
    have split : (2 : ℚ) ^ (53 + u) = 2 ^ 53 * 2 ^ u := by
      rw [zpow_add₀ (by norm_num)]
      norm_cast
    have above : (2 : ℚ) ^ 53 * 2 ^ u ≤ x := by
      rw [← split]
      exact (zpow_le_zpow_right₀ (by norm_num) log).trans (log_bounds positive').1
    have last : (k : ℚ) ≤ 2 ^ 53 - 1 := by
      have less : k < 2 ^ 53 := by exact_mod_cast narrow
      have most : k ≤ 2 ^ 53 - 1 := by omega
      exact_mod_cast most
    have below : d ≤ (2 ^ 53 - 1) * 2 ^ u := units ▸ mul_le_mul_of_nonneg_right last unit.le
    linarith

end Close

section Shortest

variable {d : ℚ}

theorem nearestDouble_digits (positive : 0 < d) (representable : Representable d) :
    nearestDouble (roundHalfEven (d / 10 ^ (Int.log 10 d - 16)) * 10 ^ (Int.log 10 d - 16)) = d := by
  have unit : (0 : ℚ) < 10 ^ (Int.log 10 d - 16) := zpow_pos (by norm_num) _
  have near := roundHalfEven_near (d / 10 ^ (Int.log 10 d - 16))
  have small : (10 : ℚ) ^ (Int.log 10 d - 16) * 10 ^ 16 ≤ d := by
    have below := Int.zpow_log_le_self (b := 10) (by norm_num) positive
    rw [zpow_sub₀ (by norm_num)]
    have cancel : (10 : ℚ) ^ Int.log 10 d / 10 ^ (16 : ℤ) * 10 ^ 16 = 10 ^ Int.log 10 d := by
      rw [show ((10 : ℚ) ^ (16 : ℤ)) = 10 ^ 16 by norm_cast, div_mul_cancel₀ _ (by norm_num)]
    rw [cancel]
    exact_mod_cast below
  generalize (10 : ℚ) ^ (Int.log 10 d - 16) = u at *
  generalize (roundHalfEven (d / u) : ℚ) = k at *
  have distance : |k * u - d| ≤ u / 2 := by
    have factor : k * u - d = (k - d / u) * u := by
      rw [sub_mul, div_mul_cancel₀ _ unit.ne']
    rw [factor, abs_mul, abs_of_pos unit, abs_sub_comm]
    have scaled := mul_le_mul_of_nonneg_right near unit.le
    linarith
  have bounds := abs_le.mp distance
  apply nearestDouble_of_close positive _ representable
  · linarith
  · linarith

theorem digitsBack_spec (positive : 0 < d) {more n : Nat} {e : ℤ} (found : digitsBack d more = some (n, e)) :
    nearestDouble (n * 10 ^ e) = d ∧ n ≠ 0 := by
  obtain ⟨digits, chosen, same⟩ := Option.map_eq_some_iff.mp found
  obtain ⟨rfl, rfl⟩ := Prod.mk.inj same
  have back : nearestDouble (digits * power 10 (floorLog 10 d - more)) = d := by
    have accepted := List.find?_some chosen
    exact of_decide_eq_true accepted
  have member := List.mem_of_find?_eq_some chosen
  rw [power_eq_zpow] at back member
  have nonneg : 0 ≤ digits := by
    have scaled : 0 < d / (10 : ℚ) ^ (floorLog 10 d - (more : ℤ)) := div_pos positive (zpow_pos (by norm_num) _)
    rcases List.mem_cons.mp member with rfl | member
    · exact le_roundHalfEven (by exact_mod_cast scaled.le)
    · rw [List.mem_singleton.mp member]
      exact (Int.ceil_pos.mpr (by exact_mod_cast scaled)).le
  have value : (digits.toNat : ℚ) = digits := by exact_mod_cast Int.toNat_of_nonneg nonneg
  rw [value]
  refine ⟨by exact_mod_cast back, fun zero => ?_⟩
  rw [← value, zero, Nat.cast_zero, zero_mul, nearestDouble_zero] at back
  exact positive.ne back

theorem shortest_spec (positive : 0 < d) (representable : Representable d) :
    nearestDouble ((shortest d).1 * 10 ^ (shortest d).2) = d ∧ (shortest d).1 ≠ 0 := by
  have log : floorLog 10 d = Int.log 10 d := floorLog_eq_log (by norm_num) positive
  obtain ⟨⟨n, e⟩, search⟩ : ∃ found, (List.range 17).findSome? (digitsBack d) = some found := by
    rw [← Option.isSome_iff_exists, List.findSome?_isSome_iff]
    refine ⟨16, by decide, ?_⟩
    rw [digitsBack, Option.isSome_map, List.find?_isSome, log, power_eq_zpow]
    refine ⟨_, List.mem_cons_self, decide_eq_true ?_⟩
    exact_mod_cast nearestDouble_digits positive representable
  obtain ⟨more, -, found⟩ := List.exists_of_findSome?_eq_some search
  have result : shortest d = (n, e) := by rw [shortest, search, Option.getD_some]
  rw [result]
  exact digitsBack_spec positive found

end Shortest

section Reading

def digitsValue (digits : List Char) : Nat := Nat.ofDigitChars 10 digits 0

def exponentValue : List Char → ℤ
  | _ :: '-' :: digits => -digitsValue digits
  | _ :: _ :: digits => digitsValue digits
  | _ => 0

def decimalValue (text : List Char) : ℚ :=
  let mantissa := text.takeWhile (· ≠ 'e')
  let fraction := (mantissa.dropWhile (· ≠ '.')).drop 1
  digitsValue (mantissa.takeWhile (· ≠ '.') ++ fraction) * 10 ^ (exponentValue (text.dropWhile (· ≠ 'e')) - fraction.length)

/-- Python's `float` of a text that `repr` has written. -/
def readFloat : List Char → ℚ
  | '-' :: text => -nearestDouble (decimalValue text)
  | text => nearestDouble (decimalValue text)

def Digits (text : List Char) : Prop := ∀ c ∈ text, c.isDigit = true

variable {whole fraction digits : List Char}

theorem Digits.append {first second : List Char} (left : Digits first) (right : Digits second) : Digits (first ++ second) := by
  intro c member
  rcases List.mem_append.mp member with member | member
  · exact left c member
  · exact right c member

theorem Digits.ne {text : List Char} (digits : Digits text) (mark : Char) (other : mark.isDigit = false) :
    ∀ c ∈ text, c ≠ mark := by
  rintro c member rfl
  rw [digits c member] at other
  cases other

theorem digits_replicate (n : Nat) : Digits (List.replicate n '0') := by
  intro c member
  rw [List.eq_of_mem_replicate member]
  decide

theorem digits_toDigits (n : Nat) : Digits (Nat.toDigits 10 n) :=
  fun _ member => Nat.isDigit_of_mem_toDigits (by decide) (by decide) member

theorem takeWhile_mark {text : List Char} {mark : Char} (free : ∀ c ∈ text, c ≠ mark) (rest : List Char) :
    (text ++ mark :: rest).takeWhile (· ≠ mark) = text ∧ (text ++ mark :: rest).dropWhile (· ≠ mark) = mark :: rest := by
  have all : ∀ c ∈ text, decide (c ≠ mark) = true := fun c member => decide_eq_true (free c member)
  constructor
  · rw [List.takeWhile_append_of_pos all, List.takeWhile_cons_of_neg (by simp), List.append_nil]
  · rw [List.dropWhile_append_of_pos all, List.dropWhile_cons_of_neg (by simp)]

theorem takeWhile_free {text : List Char} {mark : Char} (free : ∀ c ∈ text, c ≠ mark) :
    text.takeWhile (· ≠ mark) = text ∧ text.dropWhile (· ≠ mark) = [] := by
  have all : ∀ c ∈ text, decide (c ≠ mark) = true := fun c member => decide_eq_true (free c member)
  exact ⟨List.takeWhile_eq_self_iff.mpr all, List.dropWhile_eq_nil_iff.mpr all⟩

theorem mantissa_free (left : Digits whole) (right : Digits fraction) : ∀ c ∈ whole ++ '.' :: fraction, c ≠ 'e' := by
  intro c member
  rcases List.mem_append.mp member with member | member
  · exact left.ne 'e' rfl c member
  rcases List.mem_cons.mp member with rfl | member
  · decide
  · exact right.ne 'e' rfl c member

theorem decimalValue_point (left : Digits whole) (right : Digits fraction) :
    decimalValue (whole ++ '.' :: fraction) = digitsValue (whole ++ fraction) * 10 ^ (-(fraction.length : ℤ)) := by
  obtain ⟨mantissa, exponent⟩ := takeWhile_free (mantissa_free left right)
  obtain ⟨before, after⟩ := takeWhile_mark (left.ne '.' rfl) fraction
  unfold decimalValue
  rw [mantissa, exponent]
  dsimp only
  rw [before, after, List.drop_one, List.tail_cons]
  rw [show exponentValue [] = 0 from rfl, zero_sub]

theorem decimalValue_whole (left : Digits whole) : decimalValue whole = digitsValue whole := by
  obtain ⟨mantissa, exponent⟩ := takeWhile_free (left.ne 'e' rfl)
  obtain ⟨before, after⟩ := takeWhile_free (left.ne '.' rfl)
  unfold decimalValue
  rw [mantissa, exponent]
  dsimp only
  rw [before, after, List.drop_nil, List.append_nil, show exponentValue [] = 0 from rfl]
  simp

theorem decimalValue_exponent {mantissa : List Char} (free : ∀ c ∈ mantissa, c ≠ 'e') (rest : List Char) :
    decimalValue (mantissa ++ 'e' :: rest) = decimalValue mantissa * 10 ^ exponentValue ('e' :: rest) := by
  obtain ⟨before, after⟩ := takeWhile_mark free rest
  obtain ⟨whole, nothing⟩ := takeWhile_free free
  unfold decimalValue
  rw [before, after, whole, nothing]
  dsimp only
  rw [show exponentValue [] = 0 from rfl, mul_assoc, ← zpow_add₀ (by norm_num)]
  congr 2
  omega

theorem digitsValue_append (first second : List Char) :
    digitsValue (first ++ second) = 10 ^ second.length * digitsValue first + digitsValue second := by
  unfold digitsValue
  rw [Nat.ofDigitChars_append, Nat.ofDigitChars_eq_ofDigitChars_zero]

theorem digitsValue_zeros (digits : List Char) (n : Nat) :
    digitsValue (digits ++ List.replicate n '0') = 10 ^ n * digitsValue digits := by
  unfold digitsValue
  rw [Nat.ofDigitChars_append, Nat.ofDigitChars_replicate_zero]

theorem digitsValue_padded (digits : List Char) (n : Nat) : digitsValue (List.replicate n '0' ++ digits) = digitsValue digits := by
  unfold digitsValue
  rw [Nat.ofDigitChars_append, Nat.ofDigitChars_replicate_zero, Nat.mul_zero]

theorem exponentValue_text (k : ℤ) :
    exponentValue ('e' :: (if k < 0 then '-' else '+') ::
      (if (Nat.toDigits 10 k.natAbs).length < 2 then '0' :: Nat.toDigits 10 k.natAbs else Nat.toDigits 10 k.natAbs)) = k := by
  have value : digitsValue (if (Nat.toDigits 10 k.natAbs).length < 2 then '0' :: Nat.toDigits 10 k.natAbs
      else Nat.toDigits 10 k.natAbs) = k.natAbs := by
    split
    · exact (digitsValue_padded _ 1).trans Nat.ofDigitChars_ten_toDigits
    · exact Nat.ofDigitChars_ten_toDigits
  split
  · next negative =>
    rw [exponentValue, value]
    omega
  · next nonneg =>
    rw [exponentValue, value]
    · omega
    · decide

theorem decimalValue_pointed (all : Digits digits) (some : digits ≠ []) (place : ℤ) :
    decimalValue (pointed digits place) = digitsValue digits * 10 ^ (place - digits.length) := by
  have length := List.length_pos_of_ne_nil some
  have taken (n : Nat) : Digits (digits.take n) := fun c member => all c (List.mem_of_mem_take member)
  have dropped (n : Nat) : Digits (digits.drop n) := fun c member => all c (List.mem_of_mem_drop member)
  unfold pointed
  dsimp only
  split
  · -- one digit before the point, and an exponent
    by_cases single : digits.length ≤ 1
    · have one : digits.length = 1 := by omega
      rw [if_pos single, List.append_nil, List.take_of_length_le single, decimalValue_exponent (all.ne 'e' rfl),
        exponentValue_text, decimalValue_whole all, one]
      push_cast
      rfl
    · rw [if_neg single, decimalValue_exponent (mantissa_free (taken 1) (dropped 1)), exponentValue_text,
        decimalValue_point (taken 1) (dropped 1), List.take_append_drop, mul_assoc, ← zpow_add₀ (by norm_num),
        List.length_drop]
      congr 2
      omega
  split
  · next before =>
    obtain ⟨n, zeros⟩ := Int.eq_ofNat_of_zero_le (show 0 ≤ -place by omega)
    have zero : Digits ['0'] := digits_replicate 1
    rw [zeros, Int.toNat_natCast]
    show decimalValue (['0'] ++ '.' :: (List.replicate n '0' ++ digits)) = _
    rw [decimalValue_point zero ((digits_replicate n).append all), List.length_append, List.length_replicate]
    have value : digitsValue (['0'] ++ (List.replicate n '0' ++ digits)) = digitsValue digits :=
      (digitsValue_padded _ 1).trans (digitsValue_padded digits n)
    rw [value]
    congr 2
    push_cast
    omega
  split
  · next behind =>
    obtain ⟨n, gap⟩ := Int.eq_ofNat_of_zero_le (show 0 ≤ place - digits.length by omega)
    have zeros : place.toNat - digits.length = n := by omega
    have zero : Digits ['0'] := digits_replicate 1
    rw [zeros, decimalValue_point (all.append (digits_replicate n)) zero, digitsValue_append, digitsValue_zeros, gap]
    simp [digitsValue, Nat.ofDigitChars]
    ring
  · next inside =>
    rw [decimalValue_point (taken _) (dropped _), List.take_append_drop, List.length_drop]
    congr 2
    omega

theorem pointed_head (all : Digits digits) (some : digits ≠ []) (place : ℤ) :
    ∃ c rest, pointed digits place = c :: rest ∧ c.isDigit = true := by
  obtain ⟨c, others, rfl⟩ := List.exists_cons_of_ne_nil some
  have digit := all c List.mem_cons_self
  unfold pointed
  dsimp only
  split
  · exact ⟨c, _, rfl, digit⟩
  split
  · exact ⟨'0', _, rfl, rfl⟩
  split
  · exact ⟨c, _, rfl, digit⟩
  · next inside =>
    obtain ⟨n, whole⟩ : ∃ n, place.toNat = n + 1 := ⟨place.toNat - 1, by omega⟩
    rw [whole]
    exact ⟨c, _, rfl, digit⟩

theorem readFloat_digit {c : Char} {rest : List Char} (digit : c.isDigit = true) :
    readFloat (c :: rest) = nearestDouble (decimalValue (c :: rest)) := by
  unfold readFloat
  split
  · next same =>
    rw [(List.cons_eq_cons.mp same).1] at digit
    cases digit
  · rfl

/-- The zeros at the end of the digits are no part of the text. -/
theorem trimmed_zeros (n : Nat) : ∃ k, Nat.toDigits 10 n =
    ((Nat.toDigits 10 n).reverse.dropWhile (· = '0')).reverse ++ List.replicate k '0' := by
  refine ⟨((Nat.toDigits 10 n).reverse.takeWhile (· = '0')).length, ?_⟩
  have zeros : (Nat.toDigits 10 n).reverse.takeWhile (· = '0') =
      List.replicate ((Nat.toDigits 10 n).reverse.takeWhile (· = '0')).length '0' := by
    apply List.eq_replicate_of_mem
    intro c member
    have zero := List.mem_takeWhile_imp member
    exact of_decide_eq_true zero
  rw [← List.reverse_replicate, ← zeros, ← List.reverse_append, List.takeWhile_append_dropWhile, List.reverse_reverse]

theorem readFloat_floatText {q : ℚ} (double : Representable |q|) : readFloat (floatText q) = q := by
  have kept := nearestDouble_of_representable double
  unfold floatText
  dsimp only
  split
  · next zero =>
    have value : decimalValue ['0', '.', '0'] = 0 := by
      have zero : Digits ['0'] := digits_replicate 1
      exact (decimalValue_point zero zero).trans (by simp [digitsValue, Nat.ofDigitChars])
    have none : q = 0 := by
      rcases zero with zero | zero
      · exact zero
      · rw [kept, abs_eq_zero] at zero
        exact zero
    rw [none, if_neg (lt_irrefl 0), List.nil_append]
    show nearestDouble (decimalValue ['0', '.', '0']) = 0
    rw [value, nearestDouble_zero]
  · next other =>
    have nonzero : q ≠ 0 := fun zero => other (.inl zero)
    have positive : 0 < |q| := abs_pos.mpr nonzero
    obtain ⟨back, some⟩ := shortest_spec positive double
    rw [kept]
    obtain ⟨k, trimmed⟩ := trimmed_zeros (shortest |q|).1
    generalize digits : ((Nat.toDigits 10 (shortest |q|).1).reverse.dropWhile (· = '0')).reverse = ds at trimmed ⊢
    have value : (shortest |q|).1 = 10 ^ k * digitsValue ds := by
      rw [← digitsValue_zeros, ← trimmed]
      exact Nat.ofDigitChars_ten_toDigits.symm
    have all : Digits ds := by
      intro c member
      apply digits_toDigits (shortest |q|).1 c
      rw [trimmed]
      exact List.mem_append_left _ member
    have nonempty : ds ≠ [] := by
      rintro rfl
      exact some (value.trans (by simp [digitsValue, Nat.ofDigitChars]))
    have length : (Nat.toDigits 10 (shortest |q|).1).length = ds.length + k := by
      rw [trimmed, List.length_append, List.length_replicate]
    have read : nearestDouble (decimalValue (pointed ds ((shortest |q|).2 + (Nat.toDigits 10 (shortest |q|).1).length))) = |q| := by
      have exponent : (shortest |q|).2 + ((ds.length + k : Nat) : ℤ) - ds.length = (shortest |q|).2 + k := by
        push_cast
        ring
      have same : decimalValue (pointed ds ((shortest |q|).2 + (Nat.toDigits 10 (shortest |q|).1).length)) =
          (shortest |q|).1 * 10 ^ (shortest |q|).2 := by
        rw [decimalValue_pointed all nonempty, length, exponent, value, zpow_add₀ (by norm_num), zpow_natCast]
        push_cast
        ring
      rw [same, back]
    split
    · next negative =>
      show -nearestDouble (decimalValue (pointed ds _)) = q
      rw [read, abs_of_neg negative, neg_neg]
    · next nonneg =>
      obtain ⟨c, rest, head, digit⟩ := pointed_head all nonempty ((shortest |q|).2 + (Nat.toDigits 10 (shortest |q|).1).length)
      rw [List.nil_append, head, readFloat_digit digit, ← head, read, abs_of_nonneg (not_lt.mp nonneg)]

theorem floatText_injective {q r : ℚ} (first : Representable |q|) (second : Representable |r|)
    (same : floatText q = floatText r) : q = r := by
  rw [← readFloat_floatText first, same, readFloat_floatText second]

end Reading

end FloatText
