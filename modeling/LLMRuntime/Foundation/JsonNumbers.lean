import LLMRuntime.Foundation.FloatRoundTrip
import LLMRuntime.Foundation.JsonDumps

namespace Json

open FloatText

section Integers

theorem digits_toDigits (n : Nat) : Digits (Nat.toDigits 10 n) :=
  ⟨Nat.toDigits_ne_nil, fun _ member => Nat.isDigit_of_mem_toDigits (by decide) (by decide) member⟩

theorem toDigits_head {n : Nat} (positive : n ≠ 0) : (Nat.toDigits 10 n).head? ≠ some '0' := by
  have single : ∀ d < 10, d ≠ 0 → Nat.digitChar d ≠ '0' := by decide
  induction n using Nat.strongRecOn with
  | ind n ih =>
    by_cases small : n < 10
    · rw [Nat.toDigits_of_lt_base small]
      intro zero
      exact single n small positive (Option.some.inj zero)
    · have more : 10 ≤ n := by omega
      rw [Nat.toDigits_of_base_le (by decide) more, List.head?_append_of_ne_nil _ Nat.toDigits_ne_nil]
      apply ih (n / 10)
      · omega
      · omega

theorem intText_toDigits (n : Nat) : IntText (Nat.toDigits 10 n) := by
  by_cases zero : n = 0
  · left
    rw [zero]
    rfl
  · exact .inr ⟨digits_toDigits n, toDigits_head zero⟩

structure Unsigned (int frac exp : List Char) : Prop where
  int : IntText int
  frac : FracText frac
  exp : ExpText exp

theorem Unsigned.signed {int frac exp minus : List Char} (parts : Unsigned int frac exp)
    (sign : minus = [] ∨ minus = ['-']) : NumberText (minus ++ (int ++ (frac ++ exp))) :=
  ⟨minus, int, frac, exp, rfl, sign, parts.int, parts.frac, parts.exp⟩

theorem numberText_toDigits (n : Nat) : NumberText (Nat.toDigits 10 n) := by
  have parts : Unsigned (Nat.toDigits 10 n) [] [] := ⟨intText_toDigits n, .inl rfl, .inl rfl⟩
  have number := parts.signed (.inl rfl)
  rwa [List.nil_append, List.append_nil, List.append_nil] at number

end Integers

section Floats

variable {digits : List Char}

theorem pointed_unsigned (all : Digits digits) (leading : digits.head? ≠ some '0') (place : ℤ) :
    ∃ int frac exp, pointed digits place = int ++ (frac ++ exp) ∧ Unsigned int frac exp := by
  obtain ⟨c, rest, rfl⟩ := List.exists_cons_of_ne_nil all.1
  have digit := all.2 c List.mem_cons_self
  have power := digits_toDigits (place - 1).natAbs
  have padded : Digits (if (Nat.toDigits 10 (place - 1).natAbs).length < 2 then '0' :: Nat.toDigits 10 (place - 1).natAbs
      else Nat.toDigits 10 (place - 1).natAbs) := by
    split
    · exact ⟨List.cons_ne_nil _ _, List.forall_mem_cons.mpr ⟨rfl, power.2⟩⟩
    · exact power
  have zeros (n : Nat) : ∀ d ∈ List.replicate n '0', d.isDigit = true := by
    intro d member
    rw [List.eq_of_mem_replicate member]
    decide
  unfold pointed
  dsimp only
  split
  · have first : IntText [c] := .inr ⟨⟨List.cons_ne_nil c [], List.forall_mem_singleton.mpr digit⟩, leading⟩
    have fraction : FracText (if (c :: rest).length ≤ 1 then [] else '.' :: rest) := by
      split
      · exact .inl rfl
      · next more =>
        refine .inr ⟨rest, rfl, ?_, fun d member => all.2 d (List.mem_cons_of_mem c member)⟩
        rintro rfl
        exact more (le_refl 1)
    have exponent : ExpText ('e' :: (if place - 1 < 0 then '-' else '+') ::
        (if (Nat.toDigits 10 (place - 1).natAbs).length < 2 then '0' :: Nat.toDigits 10 (place - 1).natAbs
          else Nat.toDigits 10 (place - 1).natAbs)) := by
      refine .inr ⟨'e', [if place - 1 < 0 then '-' else '+'], _, rfl, .inl rfl, ?_, padded⟩
      split
      · exact .inr (.inr rfl)
      · exact .inr (.inl rfl)
    exact ⟨_, _, _, List.append_assoc _ _ _, first, fraction, exponent⟩
  split
  · have fraction : FracText ('.' :: (List.replicate (-place).toNat '0' ++ c :: rest)) := by
      refine .inr ⟨_, rfl, List.append_ne_nil_of_right_ne_nil _ (List.cons_ne_nil c rest), ?_⟩
      exact List.forall_mem_append.mpr ⟨zeros _, all.2⟩
    exact ⟨['0'], _, [], by rw [List.append_nil]; rfl, .inl rfl, fraction, .inl rfl⟩
  split
  · have whole : IntText (c :: rest ++ List.replicate (place.toNat - (c :: rest).length) '0') :=
      .inr ⟨⟨List.cons_ne_nil c _, List.forall_mem_append.mpr ⟨all.2, zeros _⟩⟩, leading⟩
    have fraction : FracText ['.', '0'] := .inr ⟨['0'], rfl, List.cons_ne_nil _ _, List.forall_mem_singleton.mpr rfl⟩
    exact ⟨_, _, [], by rw [List.append_nil], whole, fraction, .inl rfl⟩
  · next inside =>
    obtain ⟨n, taken⟩ : ∃ n, place.toNat = n + 1 := ⟨place.toNat - 1, by omega⟩
    have shorter : n + 1 < (c :: rest).length := by omega
    rw [taken]
    have whole : IntText ((c :: rest).take (n + 1)) := by
      refine .inr ⟨⟨List.cons_ne_nil c _, fun d member => all.2 d (List.mem_of_mem_take member)⟩, ?_⟩
      exact leading
    have fraction : FracText ('.' :: (c :: rest).drop (n + 1)) := by
      refine .inr ⟨_, rfl, ?_, fun d member => all.2 d (List.mem_of_mem_drop member)⟩
      exact List.ne_nil_of_length_pos (by rw [List.length_drop]; omega)
    exact ⟨_, _, [], by rw [List.append_nil], whole, fraction, .inl rfl⟩

theorem numberText_floatText (q : ℚ) : NumberText (floatText q) := by
  have sign : (if q < 0 then ['-'] else []) = [] ∨ (if q < 0 then ['-'] else []) = ['-'] := by
    split
    · exact .inr rfl
    · exact .inl rfl
  unfold floatText
  dsimp only
  split
  · have zero : Unsigned ['0'] ['.', '0'] [] :=
      ⟨.inl rfl, .inr ⟨['0'], rfl, List.cons_ne_nil _ _, List.forall_mem_singleton.mpr rfl⟩, .inl rfl⟩
    exact zero.signed sign
  · next other =>
    simp only [not_or] at other
    have positive : 0 < |q| := abs_pos.mpr other.1
    have double := representable_nearestDouble positive
    have above : 0 < nearestDouble |q| := by
      obtain ⟨m, e, -, -, same⟩ := double
      have nonneg : 0 ≤ nearestDouble |q| := by
        rw [same]
        exact mul_nonneg (Nat.cast_nonneg m) (zpow_pos (by norm_num) e).le
      exact lt_of_le_of_ne nonneg (Ne.symm other.2)
    obtain ⟨-, some⟩ := shortest_spec above double
    obtain ⟨k, trimmed⟩ := trimmed_zeros (shortest (nearestDouble |q|)).1
    have head := toDigits_head some
    have digits := digits_toDigits (shortest (nearestDouble |q|)).1
    generalize ((Nat.toDigits 10 (shortest (nearestDouble |q|)).1).reverse.dropWhile (· = '0')).reverse = ds at trimmed ⊢
    have nonempty : ds ≠ [] := by
      rintro rfl
      cases k with
      | zero => exact digits.1 trimmed
      | succ k => exact head (by rw [trimmed]; rfl)
    have all : Digits ds := ⟨nonempty, fun c member => digits.2 c (by rw [trimmed]; exact List.mem_append_left _ member)⟩
    have leading : ds.head? ≠ Option.some '0' := by
      rwa [trimmed, List.head?_append_of_ne_nil _ nonempty] at head
    obtain ⟨int, frac, exp, same, parts⟩ := pointed_unsigned all leading
      ((shortest (nearestDouble |q|)).2 + (Nat.toDigits 10 (shortest (nearestDouble |q|)).1).length)
    rw [same]
    exact parts.signed sign

end Floats

end Json
