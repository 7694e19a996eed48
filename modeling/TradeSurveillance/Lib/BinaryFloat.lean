import Mathlib.Algebra.Ring.Int.Parity
import Mathlib.Data.Int.Log
import Mathlib.Data.Nat.Prime.Basic
import TradeSurveillance.Lib.Rounding

/-!
# Binary floating point

The numbers of a format are the multiples of powers of two by significands of so many binary digits; the powers are bounded from
below, so that small numbers have fewer digits, but not from above. `rounding` is rounding to the nearest of them, with ties to the even
significand.
-/

namespace BinaryFloat

/-- The numbers of so many binary digits, the last of which is worth at least `2 ^ least`. -/
def numbers (digits : ℕ) (least : ℤ) : Set ℚ := {q | ∃ m e : ℤ, |m| ≤ 2 ^ digits ∧ least ≤ e ∧ q = m * 2 ^ e}

/-- The nearest integer, of two that are equally near the even one. -/
def roundHalfEven (q : ℚ) : ℤ := if q - ⌊q⌋ < 1 / 2 ∨ q - ⌊q⌋ = 1 / 2 ∧ Even ⌊q⌋ then ⌊q⌋ else ⌊q⌋ + 1

/-- The power of two that the last digit of a number is worth. -/
def exponent (digits : ℕ) (least : ℤ) (q : ℚ) : ℤ := max (Int.log 2 |q| + 1 - digits) least

/-- The nearest number. -/
def round (digits : ℕ) (least : ℤ) (q : ℚ) : ℚ :=
  roundHalfEven (q / 2 ^ exponent digits least q) * 2 ^ exponent digits least q

/-- A number that is rounded as the square root is: the root cut off behind one digit too many, and a half of that digit if anything
was cut off. -/
def sqrt (digits : ℕ) (q : ℚ) : ℚ :=
  let unit : ℚ := 2 ^ (Int.log 2 q / 2 - digits)
  let root := Nat.sqrt ⌊q / (unit * unit)⌋₊
  (if (root * unit) * (root * unit) = q then (root : ℚ) else root + 1 / 2) * unit

/-! ## Integers -/

/-- No integer is nearer. -/
theorem abs_roundHalfEven_sub_le (q : ℚ) (n : ℤ) : |roundHalfEven q - q| ≤ |n - q| := by
  have hlow := Int.floor_le q
  have hhigh := Int.lt_floor_add_one q
  -- the integer is not between the two that `q` is between
  have hn : (n : ℚ) ≤ ⌊q⌋ ∨ (⌊q⌋ : ℚ) + 1 ≤ n := by
    rcases lt_or_ge ⌊q⌋ n with h | h
    · exact .inr (by exact_mod_cast h)
    · exact .inl (by exact_mod_cast h)
  unfold roundHalfEven
  split_ifs with h
  · have hhalf : q - ⌊q⌋ ≤ 1 / 2 := h.elim le_of_lt fun h => h.1.le
    rw [abs_sub_comm, abs_of_nonneg (by linarith)]
    rcases hn with hn | hn
    · rw [abs_sub_comm, abs_of_nonneg (by linarith)]
      linarith
    · rw [abs_of_nonneg (by linarith)]
      linarith
  · have hhalf : 1 / 2 ≤ q - ⌊q⌋ := not_lt.1 fun hlt => h (.inl hlt)
    rw [Int.cast_add, Int.cast_one, abs_of_nonneg (by linarith)]
    rcases hn with hn | hn
    · rw [abs_sub_comm, abs_of_nonneg (by linarith)]
      linarith
    · rw [abs_of_nonneg (by linarith)]
      linarith

/-- Rounding stays within bounds that are integers. -/
theorem abs_roundHalfEven_le {q : ℚ} {b : ℤ} (h : |q| ≤ b) : |roundHalfEven q| ≤ b := by
  obtain ⟨hlow, hhigh⟩ := abs_le.1 h
  rw [abs_le]
  constructor
  · by_contra hlt
    have hcast : (roundHalfEven q : ℚ) < -b := by exact_mod_cast not_le.1 hlt
    have hnear := abs_roundHalfEven_sub_le q (-b)
    rw [abs_sub_comm, abs_of_nonneg (by linarith), Int.cast_neg, abs_sub_comm, abs_of_nonneg (by linarith)] at hnear
    linarith
  · by_contra hlt
    have hcast : (b : ℚ) < roundHalfEven q := by exact_mod_cast not_le.1 hlt
    have hnear := abs_roundHalfEven_sub_le q b
    rw [abs_of_nonneg (by linarith), abs_of_nonneg (by linarith)] at hnear
    linarith

/-! ## Numbers -/

section Numbers

variable {digits : ℕ} {least : ℤ} {q y : ℚ}

/-- The numbers of a format have a sign. -/
theorem neg_mem_numbers (h : q ∈ numbers digits least) : -q ∈ numbers digits least := by
  obtain ⟨m, e, hm, he, rfl⟩ := h
  exact ⟨-m, e, by rwa [abs_neg], he, by rw [Int.cast_neg, neg_mul]⟩

/-- A number of so many binary digits with few enough of them after the point. -/
theorem binary_subset_numbers {places : ℕ} (h : least ≤ -places) : Rounding.binary digits places ⊆ numbers digits least := by
  rintro q ⟨hnum, hden⟩
  obtain ⟨p, hp, hden⟩ := (Nat.dvd_prime_pow Nat.prime_two).1 hden
  refine ⟨q.num, -p, hnum, by omega, ?_⟩
  rw [zpow_neg, zpow_natCast, ← div_eq_mul_inv]
  conv_lhs => rw [← Rat.num_div_den q, hden]
  rw [Nat.cast_pow, Nat.cast_ofNat]

/-- The significand of a rounded number has no more digits than it may have. -/
theorem abs_div_le (digits : ℕ) (least : ℤ) (q : ℚ) : |q / 2 ^ exponent digits least q| ≤ (2 ^ digits : ℤ) := by
  have hpos : (0 : ℚ) < 2 ^ exponent digits least q := zpow_pos two_pos _
  rw [abs_div, abs_of_pos hpos, div_le_iff₀ hpos]
  have hlog : |q| < (2 : ℚ) ^ (Int.log 2 |q| + 1) := by exact_mod_cast Int.lt_zpow_succ_log_self one_lt_two |q|
  have hexp : (2 : ℚ) ^ (Int.log 2 |q| + 1) ≤ 2 ^ ((digits : ℤ) + exponent digits least q) := by
    refine zpow_le_zpow_right₀ one_le_two ?_
    have hmax := le_max_left (Int.log 2 |q| + 1 - digits) least
    unfold exponent
    omega
  rw [zpow_add₀ two_ne_zero (digits : ℤ), zpow_natCast] at hexp
  push_cast
  exact hlog.le.trans hexp

/-- What is rounded to is a number of the format. -/
theorem round_mem (digits : ℕ) (least : ℤ) (q : ℚ) : round digits least q ∈ numbers digits least :=
  ⟨_, _, abs_roundHalfEven_le (abs_div_le digits least q), le_max_right _ _, rfl⟩

/-- No multiple of the last digit is nearer. -/
theorem abs_round_sub_le_of_multiple (digits : ℕ) (least : ℤ) (q : ℚ) (n : ℤ) :
    |round digits least q - q| ≤ |n * 2 ^ exponent digits least q - q| := by
  have hpos : (0 : ℚ) < 2 ^ exponent digits least q := zpow_pos two_pos _
  have hscale : ∀ k : ℤ, |k * 2 ^ exponent digits least q - q| =
      |k - q / 2 ^ exponent digits least q| * 2 ^ exponent digits least q := by
    intro k
    rw [← abs_of_pos hpos, ← abs_mul, abs_of_pos hpos, sub_mul, div_mul_cancel₀ _ hpos.ne']
  rw [round, hscale, hscale]
  exact mul_le_mul_of_nonneg_right (abs_roundHalfEven_sub_le _ n) hpos.le

/-- Finer numbers than the multiples of the last digit are no larger than the power of two below. -/
theorem abs_le_of_finer {m e : ℤ} (hm : |m| ≤ 2 ^ digits) (he : least ≤ e) (hlt : e < exponent digits least q) :
    |(m * 2 ^ e : ℚ)| ≤ 2 ^ Int.log 2 |q| := by
  have hpos : (0 : ℚ) < 2 ^ e := zpow_pos two_pos e
  have hm' : |(m : ℚ)| ≤ 2 ^ digits := by exact_mod_cast hm
  rw [abs_mul, abs_of_pos hpos]
  calc |(m : ℚ)| * 2 ^ e ≤ 2 ^ digits * 2 ^ e := mul_le_mul_of_nonneg_right hm' hpos.le
    _ = 2 ^ ((digits : ℤ) + e) := by rw [zpow_add₀ two_ne_zero, zpow_natCast]
    _ ≤ 2 ^ Int.log 2 |q| := by
      refine zpow_le_zpow_right₀ one_le_two ?_
      unfold exponent at hlt
      rcases lt_max_iff.1 hlt with h | h <;> omega

/-- Of a bound and its negative, one is nearer to what is out of it than what is within. -/
theorem exists_nearer {b : ℚ} (hb : b ≤ |q|) (hy : |y| ≤ b) : ∃ k : ℤ, |k * b - q| ≤ |y - q| := by
  obtain ⟨hlow, hhigh⟩ := abs_le.1 hy
  rcases le_total 0 q with hq | hq
  · rw [abs_of_nonneg hq] at hb
    refine ⟨1, ?_⟩
    rw [Int.cast_one, one_mul, abs_sub_comm, abs_of_nonneg (by linarith), abs_sub_comm, abs_of_nonneg (by linarith)]
    linarith
  · rw [abs_of_nonpos hq] at hb
    refine ⟨-1, ?_⟩
    rw [Int.cast_neg, Int.cast_one, neg_one_mul, abs_of_nonneg (by linarith), abs_of_nonneg (by linarith)]
    linarith

/-- No number is nearer. -/
theorem abs_round_sub_le (hdigits : 0 < digits) (q : ℚ) (hy : y ∈ numbers digits least) : |round digits least q - q| ≤ |y - q| := by
  obtain ⟨m, e, hm, he, rfl⟩ := hy
  rcases le_or_gt (exponent digits least q) e with hle | hlt
  · -- a multiple of the last digit
    obtain ⟨k, rfl⟩ := Int.le.dest hle
    have hmultiple := abs_round_sub_le_of_multiple digits least q (m * 2 ^ k)
    rwa [Int.cast_mul, Int.cast_pow, Int.cast_ofNat, mul_assoc, ← zpow_natCast, ← zpow_add₀ two_ne_zero, add_comm (k : ℤ)] at hmultiple
  · -- the power of two below `q` is a multiple of the last digit, and lies between
    have hy := abs_le_of_finer (q := q) hm he hlt
    rcases eq_or_ne q 0 with rfl | hq
    · have hzero := abs_round_sub_le_of_multiple digits least 0 0
      rw [Int.cast_zero, zero_mul, sub_self, abs_zero] at hzero
      exact hzero.trans (abs_nonneg _)
    have hlog : (2 : ℚ) ^ Int.log 2 |q| ≤ |q| := by exact_mod_cast Int.zpow_log_le_self one_lt_two (abs_pos.2 hq)
    have hpower : (2 ^ (digits - 1) : ℚ) * 2 ^ exponent digits least q = 2 ^ Int.log 2 |q| := by
      rw [← zpow_natCast, ← zpow_add₀ two_ne_zero]
      refine congrArg _ ?_
      unfold exponent at hlt ⊢
      omega
    obtain ⟨k, hnear⟩ := exists_nearer hlog hy
    have hmultiple := abs_round_sub_le_of_multiple digits least q (k * 2 ^ (digits - 1))
    push_cast at hmultiple
    rw [mul_assoc, hpower] at hmultiple
    exact hmultiple.trans hnear

/-- Rounding to the nearest number of a format. -/
def rounding (hdigits : 0 < digits) : Rounding (numbers digits least) where
  round := round digits least
  mem := round_mem digits least
  nearest := fun q _ => abs_round_sub_le hdigits q

end Numbers

end BinaryFloat
