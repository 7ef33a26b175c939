import LLMRuntime.Foundation.FloatText
import Mathlib.Data.Int.Log
import Mathlib.Tactic.FieldSimp
import Mathlib.Tactic.Positivity
import Mathlib.Tactic.Ring

/-! Rounding to the nearest double: it is monotone, and it keeps what a double can hold. -/

namespace FloatText

section Logarithms

theorem power_eq_zpow (base : Nat) (exponent : ℤ) : power base exponent = (base : ℚ) ^ exponent := by
  unfold power
  split
  · next nonneg =>
    obtain ⟨n, rfl⟩ := Int.eq_ofNat_of_zero_le nonneg
    rw [Int.toNat_natCast, zpow_natCast, Nat.cast_pow]
  · next negative =>
    obtain ⟨n, same⟩ := Int.eq_ofNat_of_zero_le (show 0 ≤ -exponent by omega)
    rw [same, show exponent = -(n : ℤ) by omega, Int.toNat_natCast, zpow_neg, zpow_natCast, Nat.cast_pow, one_div]

theorem length_toDigits {base : Nat} (large : 1 < base) (n : Nat) :
    (Nat.toDigits base n).length = Nat.log base n + 1 := by
  have bound (k : Nat) : (Nat.toDigits base n).length ≤ k + 1 ↔ Nat.log base n ≤ k := by
    rw [Nat.length_toDigits_le_iff large (Nat.succ_pos k)]
    by_cases zero : n = 0
    · subst zero
      exact iff_of_true (Nat.pow_pos (by omega)) (by simp)
    · rw [← Nat.log_lt_iff_lt_pow large zero, Nat.lt_succ_iff]
  have positive : 0 < (Nat.toDigits base n).length := Nat.length_toDigits_pos
  apply le_antisymm
  · exact (bound _).mpr le_rfl
  · have least := (bound ((Nat.toDigits base n).length - 1)).mp (by omega)
    omega

theorem clog_eq_log_pred {base n : Nat} (large : 1 < base) (two : 1 < n) : Nat.clog base n = Nat.log base (n - 1) + 1 := by
  apply eq_of_forall_ge_iff
  intro k
  rw [Nat.clog_le_iff_le_pow large, Nat.succ_le_iff, Nat.log_lt_iff_lt_pow large (by omega)]
  omega

theorem floorLog_eq_log {base : Nat} (large : 1 < base) {q : ℚ} (positive : 0 < q) :
    floorLog base q = Int.log base q := by
  unfold floorLog
  split
  · next one =>
    rw [length_toDigits large, Int.log_of_one_le_right base one]
    have floor : ⌊q⌋.toNat = ⌊q⌋₊ := rfl
    rw [floor]
    push_cast
    ring
  · next small =>
    have less : q < 1 := not_le.mp small
    have inverse : 1 < q⁻¹ := (one_lt_inv₀ positive).mpr less
    have two : 1 < ⌈q⁻¹⌉₊ := Nat.lt_ceil.mpr (by exact_mod_cast inverse)
    have ceil : ⌈1 / q⌉.toNat = ⌈q⁻¹⌉₊ := by
      rw [one_div]
      rfl
    rw [length_toDigits large, Int.log_of_right_le_one base less.le, ceil, clog_eq_log_pred large two]

end Logarithms

section Rounding

theorem roundHalfEven_intCast (k : ℤ) : roundHalfEven (k : ℚ) = k := by
  apply roundHalfEven_eq_iff.mpr
  left
  rw [sub_self, abs_zero]
  norm_num

theorem roundHalfEven_mono {q r : ℚ} (order : q ≤ r) : roundHalfEven q ≤ roundHalfEven r := by
  by_contra above
  have next : roundHalfEven r + 1 ≤ roundHalfEven q := by omega
  have gap : (roundHalfEven r : ℚ) + 1 ≤ roundHalfEven q := by exact_mod_cast next
  have left := abs_le.mp (roundHalfEven_near q)
  have right := abs_le.mp (roundHalfEven_near r)
  have same : q = r := by linarith
  rw [same] at above
  exact above le_rfl

/-- The exponent of the spacing of the doubles around a positive rational. -/
def ulpExponent (q : ℚ) : ℤ := max (Int.log 2 q - 52) (-1074)

theorem two_zpow_pos (e : ℤ) : (0 : ℚ) < 2 ^ e := zpow_pos (by norm_num) e

theorem nearestDouble_eq {q : ℚ} (positive : 0 < q) :
    nearestDouble q = roundHalfEven (q / 2 ^ ulpExponent q) * 2 ^ ulpExponent q := by
  unfold nearestDouble ulpExponent
  dsimp only
  rw [floorLog_eq_log one_lt_two positive, power_eq_zpow]
  norm_cast

theorem nearestDouble_zero : nearestDouble 0 = 0 := by
  unfold nearestDouble
  dsimp only
  rw [zero_div, show roundHalfEven 0 = 0 from roundHalfEven_intCast 0]
  norm_num

/-- What a double can hold: a significand of 53 bits and an exponent. -/
def Representable (d : ℚ) : Prop := ∃ (m : Nat) (e : ℤ), m ≤ 2 ^ 53 ∧ -1074 ≤ e ∧ d = m * 2 ^ e

theorem zpow_dvd {small large : ℤ} (order : small ≤ large) : ∃ k : Nat, (2 : ℚ) ^ large / 2 ^ small = (2 ^ k : Nat) := by
  obtain ⟨k, gap⟩ := Int.eq_ofNat_of_zero_le (show 0 ≤ large - small by omega)
  refine ⟨k, ?_⟩
  rw [← zpow_sub₀ (by norm_num), gap, zpow_natCast]
  push_cast
  rfl

theorem log_bounds {q : ℚ} (positive : 0 < q) : (2 : ℚ) ^ Int.log 2 q ≤ q ∧ q < 2 ^ (Int.log 2 q + 1) :=
  ⟨Int.zpow_log_le_self one_lt_two positive, Int.lt_zpow_succ_log_self one_lt_two q⟩

theorem nearestDouble_of_whole {q : ℚ} (positive : 0 < q) {k : ℤ} (whole : q / 2 ^ ulpExponent q = k) :
    nearestDouble q = q := by
  rw [nearestDouble_eq positive, whole, roundHalfEven_intCast, ← whole]
  exact div_mul_cancel₀ q (two_zpow_pos _).ne'

theorem nearestDouble_of_narrow {m : Nat} {e : ℤ} (bound : m < 2 ^ 53) (least : -1074 ≤ e) :
    nearestDouble (m * 2 ^ e) = m * 2 ^ e := by
  by_cases zero : m = 0
  · rw [zero, Nat.cast_zero, zero_mul, nearestDouble_zero]
  have some : (0 : ℚ) < m := by exact_mod_cast Nat.pos_of_ne_zero zero
  have positive : (0 : ℚ) < m * 2 ^ e := mul_pos some (two_zpow_pos e)
  have below : (m : ℚ) * 2 ^ e < ((2 : Nat) : ℚ) ^ (53 + e) := by
    rw [Nat.cast_ofNat, zpow_add₀ (by norm_num)]
    exact mul_lt_mul_of_pos_right (by exact_mod_cast bound) (two_zpow_pos e)
  have log : Int.log 2 ((m : ℚ) * 2 ^ e) < 53 + e := (Int.lt_zpow_iff_log_lt one_lt_two positive).mp below
  obtain ⟨k, multiple⟩ := zpow_dvd (show ulpExponent ((m : ℚ) * 2 ^ e) ≤ e from max_le (by omega) least)
  apply nearestDouble_of_whole positive (k := (m * 2 ^ k : Nat))
  rw [mul_div_assoc, multiple]
  push_cast
  rfl

theorem nearestDouble_of_representable {d : ℚ} (representable : Representable d) : nearestDouble d = d := by
  obtain ⟨m, e, bound, least, rfl⟩ := representable
  rcases Nat.lt_or_eq_of_le bound with narrow | full
  · exact nearestDouble_of_narrow narrow least
  · have half : ((2 ^ 53 : Nat) : ℚ) * 2 ^ e = ((2 ^ 52 : Nat) : ℚ) * 2 ^ (e + 1) := by
      rw [zpow_add_one₀ (by norm_num)]
      push_cast
      ring
    rw [full, half]
    exact nearestDouble_of_narrow (by norm_num) (by omega)

theorem div_ulp_lt {q : ℚ} (positive : 0 < q) : q / 2 ^ ulpExponent q < 2 ^ 53 := by
  rw [div_lt_iff₀ (two_zpow_pos _)]
  have above := (log_bounds positive).2
  have order : Int.log 2 q + 1 ≤ 53 + ulpExponent q := by
    have left := le_max_left (Int.log 2 q - 52) (-1074)
    unfold ulpExponent
    omega
  have split : (2 : ℚ) ^ (53 + ulpExponent q) = 2 ^ 53 * 2 ^ ulpExponent q := by
    rw [zpow_add₀ (by norm_num)]
    norm_cast
  rw [← split]
  exact above.trans_le (zpow_le_zpow_right₀ (by norm_num) order)

theorem representable_nearestDouble {q : ℚ} (positive : 0 < q) : Representable (nearestDouble q) := by
  have nonneg : 0 ≤ roundHalfEven (q / 2 ^ ulpExponent q) := by
    apply le_roundHalfEven
    exact_mod_cast (div_pos positive (two_zpow_pos _)).le
  have small : roundHalfEven (q / 2 ^ ulpExponent q) ≤ 2 ^ 53 := by
    apply roundHalfEven_le
    exact_mod_cast (div_ulp_lt positive).le
  refine ⟨(roundHalfEven (q / 2 ^ ulpExponent q)).toNat, ulpExponent q, ?_, le_max_right _ _, ?_⟩
  · omega
  · rw [nearestDouble_eq positive]
    congr 1
    exact_mod_cast (Int.toNat_of_nonneg nonneg).symm

theorem ulpExponent_mono {q r : ℚ} (positive : 0 < q) (order : q ≤ r) : ulpExponent q ≤ ulpExponent r := by
  have logs : Int.log 2 q ≤ Int.log 2 r := Int.log_mono_right positive order
  unfold ulpExponent
  omega

theorem nearestDouble_le_zpow {q : ℚ} (positive : 0 < q) {e : ℤ} (unit : ulpExponent q ≤ e) (order : q ≤ 2 ^ e) :
    nearestDouble q ≤ 2 ^ e := by
  obtain ⟨k, multiple⟩ := zpow_dvd unit
  have units : roundHalfEven (q / 2 ^ ulpExponent q) ≤ (2 ^ k : Nat) := by
    apply roundHalfEven_le
    rw [Int.cast_natCast, ← multiple]
    exact div_le_div_of_nonneg_right order (two_zpow_pos _).le
  rw [nearestDouble_eq positive, ← le_div_iff₀ (two_zpow_pos _), multiple]
  exact_mod_cast units

theorem zpow_le_nearestDouble {q : ℚ} (positive : 0 < q) {e : ℤ} (unit : ulpExponent q ≤ e) (order : 2 ^ e ≤ q) :
    2 ^ e ≤ nearestDouble q := by
  obtain ⟨k, multiple⟩ := zpow_dvd unit
  have units : ((2 ^ k : Nat) : ℤ) ≤ roundHalfEven (q / 2 ^ ulpExponent q) := by
    apply le_roundHalfEven
    rw [Int.cast_natCast, ← multiple]
    exact div_le_div_of_nonneg_right order (two_zpow_pos _).le
  rw [nearestDouble_eq positive, ← div_le_iff₀ (two_zpow_pos _), multiple]
  exact_mod_cast units

theorem nearestDouble_mono {q r : ℚ} (positive : 0 < q) (order : q ≤ r) : nearestDouble q ≤ nearestDouble r := by
  have positive' : 0 < r := positive.trans_le order
  rcases (ulpExponent_mono positive order).eq_or_lt with same | finer
  · rw [nearestDouble_eq positive, nearestDouble_eq positive', same]
    apply mul_le_mul_of_nonneg_right _ (two_zpow_pos _).le
    exact_mod_cast roundHalfEven_mono (div_le_div_of_nonneg_right order (two_zpow_pos _).le)
  · -- the binade of the greater one begins between the two
    have unit : ulpExponent r = Int.log 2 r - 52 := by
      unfold ulpExponent at finer ⊢
      omega
    have logs : Int.log 2 q + 1 ≤ Int.log 2 r := by
      unfold ulpExponent at finer
      omega
    have below : q ≤ 2 ^ Int.log 2 r :=
      (log_bounds positive).2.le.trans (zpow_le_zpow_right₀ (by norm_num) logs)
    exact (nearestDouble_le_zpow positive (by omega) below).trans
      (zpow_le_nearestDouble positive' (by omega) (log_bounds positive').1)

theorem nearestDouble_pos_or_zero {q : ℚ} (nonneg : 0 ≤ q) : 0 ≤ nearestDouble q := by
  rcases nonneg.eq_or_lt with rfl | positive
  · rw [nearestDouble_zero]
  · obtain ⟨m, e, -, -, same⟩ := representable_nearestDouble positive
    rw [same]
    exact mul_nonneg (Nat.cast_nonneg m) (two_zpow_pos e).le

theorem nearestDouble_le_nearestDouble {q r : ℚ} (nonneg : 0 ≤ q) (order : q ≤ r) : nearestDouble q ≤ nearestDouble r := by
  rcases nonneg.eq_or_lt with rfl | positive
  · rw [nearestDouble_zero]
    exact nearestDouble_pos_or_zero order
  · exact nearestDouble_mono positive order

section Overflow

theorem roundHalfEven_lt_even {x : ℚ} {k : ℤ} (even : k % 2 = 0) : roundHalfEven x < k ↔ x < k - 1 / 2 := by
  constructor
  · intro below
    by_contra above
    have half : roundHalfEven ((k : ℚ) - 1 / 2) = k := by
      apply roundHalfEven_eq_iff.mpr
      right
      refine ⟨?_, even⟩
      rw [sub_sub_cancel_left, abs_neg]
      norm_num
    have order := roundHalfEven_mono (not_lt.mp above)
    omega
  · intro below
    have near := (abs_le.mp (roundHalfEven_near x)).1
    have less : (roundHalfEven x : ℚ) < k := by linarith
    exact_mod_cast less

theorem log_eq_of_bounds {q : ℚ} {e : ℤ} (above : 2 ^ e ≤ q) (below : q < 2 ^ (e + 1)) : Int.log 2 q = e := by
  have positive : 0 < q := (two_zpow_pos e).trans_le above
  have least := (Int.zpow_le_iff_le_log one_lt_two positive).mp (show ((2 : Nat) : ℚ) ^ e ≤ q from above)
  have most := (Int.lt_zpow_iff_log_lt one_lt_two positive).mp (show q < ((2 : Nat) : ℚ) ^ (e + 1) from below)
  omega

theorem nearestDouble_zpow {e : ℤ} (least : -1074 ≤ e) : nearestDouble (2 ^ e) = 2 ^ e :=
  nearestDouble_of_representable ⟨1, e, by norm_num, least, by rw [Nat.cast_one, one_mul]⟩

theorem nearestDouble_lt_zpow {q : ℚ} (nonneg : 0 ≤ q) {e : ℤ} (least : -1021 ≤ e) :
    nearestDouble q < 2 ^ e ↔ q < 2 ^ e - 2 ^ (e - 54) := by
  have unit : (2 : ℚ) ^ e = 2 ^ 53 * 2 ^ (e - 53) := by
    rw [show e = 53 + (e - 53) by omega, zpow_add₀ (by norm_num), add_sub_cancel_left]
    norm_cast
  have half : (2 : ℚ) ^ (e - 54) = 1 / 2 * 2 ^ (e - 53) := by
    rw [show e - 53 = e - 54 + 1 by omega, zpow_add_one₀ (by norm_num)]
    ring
  have step : (2 : ℚ) ^ (e - 1) + 2 ^ (e - 1) = 2 ^ e := by
    rw [show e = e - 1 + 1 by omega, zpow_add_one₀ (by norm_num), add_sub_cancel_right]
    ring
  have finer : (2 : ℚ) ^ (e - 54) < 2 ^ (e - 1) := zpow_lt_zpow_right₀ (by norm_num) (by omega)
  have few := two_zpow_pos (e - 54)
  by_cases large : 2 ^ e ≤ q
  · have above := nearestDouble_le_nearestDouble (two_zpow_pos e).le large
    rw [nearestDouble_zpow (by omega)] at above
    apply iff_of_false <;> linarith
  by_cases small : q < 2 ^ (e - 1)
  · have below := nearestDouble_le_nearestDouble nonneg small.le
    rw [nearestDouble_zpow (by omega)] at below
    apply iff_of_true <;> linarith
  · have binade : Int.log 2 q = e - 1 := log_eq_of_bounds (not_lt.mp small) (by rw [sub_add_cancel]; exact not_le.mp large)
    have positive : 0 < q := (two_zpow_pos _).trans_le (not_lt.mp small)
    have exponent : ulpExponent q = e - 53 := by
      unfold ulpExponent
      omega
    have rounded : (roundHalfEven (q / 2 ^ (e - 53)) : ℚ) < 2 ^ 53 ↔ q / 2 ^ (e - 53) < 2 ^ 53 - 1 / 2 := by
      have even := roundHalfEven_lt_even (x := q / 2 ^ (e - 53)) (k := 2 ^ 53) (by norm_num)
      rw [show ((2 ^ 53 : ℤ) : ℚ) = 2 ^ 53 by norm_cast] at even
      rw [← even]
      norm_cast
    rw [nearestDouble_eq positive, exponent, unit, half, ← sub_mul, mul_lt_mul_iff_left₀ (two_zpow_pos _), rounded,
      div_lt_iff₀ (two_zpow_pos _)]

end Overflow

section Integers

theorem nearestDouble_natCast {n : Nat} (bound : n ≤ 2 ^ 53) : nearestDouble n = n := by
  have representable : Representable (n : ℚ) := ⟨n, 0, bound, by norm_num, by rw [zpow_zero, mul_one]⟩
  exact nearestDouble_of_representable representable

theorem nearestDouble_integer (n : Nat) : ∃ k : ℤ, nearestDouble n = k := by
  rcases Nat.eq_zero_or_pos n with rfl | some
  · exact ⟨0, by rw [Nat.cast_zero, nearestDouble_zero, Int.cast_zero]⟩
  have positive : (0 : ℚ) < n := by exact_mod_cast some
  by_cases narrow : n ≤ 2 ^ 53
  · exact ⟨n, nearestDouble_natCast narrow⟩
  · have log : (53 : ℤ) ≤ Int.log 2 (n : ℚ) := by
      apply (Int.zpow_le_iff_le_log one_lt_two positive).mp
      exact_mod_cast (Nat.lt_of_not_le narrow).le
    obtain ⟨k, unit⟩ := Int.eq_ofNat_of_zero_le (show 0 ≤ ulpExponent (n : ℚ) by
      unfold ulpExponent
      omega)
    refine ⟨roundHalfEven ((n : ℚ) / 2 ^ ulpExponent (n : ℚ)) * 2 ^ k, ?_⟩
    rw [nearestDouble_eq positive, unit, zpow_natCast]
    push_cast
    rfl

theorem roundHalfEven_nearestDouble (n : Nat) : (roundHalfEven (nearestDouble n) : ℚ) = nearestDouble n := by
  obtain ⟨k, integer⟩ := nearestDouble_integer n
  rw [integer, roundHalfEven_intCast]

end Integers

end Rounding

end FloatText
