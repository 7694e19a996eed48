import TradeSurveillance.Lemmas.DoubleArithmetic

/-!
# Errors of computed doubles

`Double.Near` says that a double is finite and within an error of an exact number. An operation adds at most `ulp` to what the errors
of its operands make of the result, as long as the result is not above `2 ^ 33`. Two doubles compare as their exact numbers do where
these are further apart than the errors.
-/

namespace TradeSurveillance

/-- The operations of IEEE 754 that do not round. -/
class ExactDouble (P : Type) [Double P] [LinearOrder P] [DoubleRounding P] [RoundedDouble P] : Prop where
  neg : ∀ {x : P}, Double.isFinite x → Double.HasValue RoundedDouble.value (-x) (-RoundedDouble.value x)
  round : ∀ {x : P}, Double.isFinite x →
    Double.HasValue RoundedDouble.value (DoubleRounding.round x) (roundHalfAway (RoundedDouble.value x))

instance : ExactDouble ℚ where
  neg := fun _ => ⟨rfl, rfl⟩
  round := fun _ => ⟨rfl, rfl⟩

/-- What a number of 53 digits is rounded to is one. -/
theorem roundHalfAway_mem_numbers {q : ℚ} (h : q ∈ BinaryFloat.numbers 53 (-1074)) :
    (roundHalfAway q : ℚ) ∈ BinaryFloat.numbers 53 (-1074) := by
  have hmem := h
  obtain ⟨m, e, hm, -, hq⟩ := h
  rcases Int.le_total 0 e with he | he
  · -- an integer
    obtain ⟨k, rfl⟩ := Int.eq_ofNat_of_zero_le he
    have hint : q = (m * 2 ^ k : ℤ) := by
      rw [hq, zpow_natCast]
      push_cast
      rfl
    rw [le_antisymm (Double.roundHalfAway_le hint.le) (Double.le_roundHalfAway hint.ge), ← hint]
    exact hmem
  · have hpow : (2 : ℚ) ^ e ≤ 1 := zpow_le_one_of_nonpos₀ one_le_two he
    have hpos : (0 : ℚ) < 2 ^ e := zpow_pos two_pos e
    have habs : |q| ≤ (2 ^ 53 : ℤ) := by
      rw [hq, abs_mul, abs_of_pos hpos]
      have hm' : |(m : ℚ)| ≤ (2 ^ 53 : ℤ) := by exact_mod_cast hm
      exact (mul_le_of_le_one_right (abs_nonneg _) hpow).trans hm'
    have hround : |roundHalfAway q| ≤ 2 ^ 53 := by
      rw [abs_le] at habs ⊢
      exact ⟨Double.le_roundHalfAway (by exact_mod_cast habs.1), Double.roundHalfAway_le habs.2⟩
    have hplaces : (-1074 : ℤ) ≤ -(0 : ℕ) := by decide
    exact BinaryFloat.binary_subset_numbers hplaces (Rounding.intCast_mem_binary hround)

instance : ExactDouble Binary64 where
  neg := fun _ => ⟨rfl, rfl⟩
  round := fun {x} _ =>
    ⟨rfl, Rounding.round_of_mem (BinaryFloat.rounding (by decide)) (roundHalfAway_mem_numbers x.mem)⟩

namespace Double

open RoundedDouble (value)

variable {P : Type} [Double P] [LinearOrder P] [DoubleRounding P] [RoundedDouble P] {x y : P} {a b d e f p q : ℚ}

/-- What one operation adds to the error. -/
def ulp : ℚ := 1 / 2 ^ 20

/-- The double is finite and within an error of a number. -/
structure Near (x : P) (q e : ℚ) : Prop where
  finite : isFinite x = true
  le : |value x - q| ≤ e

/-- A larger error holds too. -/
theorem Near.mono (h : Near x q e) (hd : e ≤ d) : Near x q d := ⟨h.finite, h.le.trans hd⟩

/-- Errors are not negative. -/
theorem Near.nonneg (h : Near x q e) : 0 ≤ e := (abs_nonneg _).trans h.le

/-- The double is no larger than the number and the error. -/
theorem Near.abs_value_le (h : Near x q e) (hq : |q| ≤ b) : |value x| ≤ b + e := by
  have hx := abs_le.1 h.le
  have hq := abs_le.1 hq
  exact abs_le.2 ⟨by linarith, by linarith⟩

/-- A finite double is as near as can be to its value. -/
theorem near_value (hx : isFinite x = true) : Near x (value x) 0 := ⟨hx, by rw [sub_self, abs_zero]⟩

/-- A rounded result, of an exact one that is within an error of the number. -/
theorem near_of_hasValue (h : |p| ≤ 2 ^ 1023 → HasValue value x ((RoundedDouble.rounding (P := P)).round p)) (hp : |p| ≤ 2 ^ 33)
    (hq : |p - q| ≤ e) : Near x q (e + ulp) := by
  obtain ⟨hfinite, hvalue⟩ := h (hp.trans (pow_le_pow_right₀ (by norm_num) (by norm_num)))
  have hround := Rounding.abs_round_sub_le (RoundedDouble.rounding (P := P)) (RoundedDouble.binary_subset (P := P)) (m := 33) (p := 20)
    (by norm_num) (by norm_num) hp
  refine ⟨hfinite, ?_⟩
  rw [hvalue]
  calc _ ≤ |(RoundedDouble.rounding (P := P)).round p - p| + |p - q| := abs_sub_le _ _ _
    _ ≤ ulp + e := add_le_add hround hq
    _ = e + ulp := add_comm _ _

/-! ## Operations -/

/-- A literal is near the number that it writes. -/
theorem near_ofScientific (m : ℕ) (negative : Bool) (k : ℕ) (hq : (OfScientific.ofScientific m negative k : ℚ) = q) (hle : |q| ≤ 2 ^ 33) :
    Near (OfScientific.ofScientific m negative k : P) q ulp := by
  subst hq
  have h := near_of_hasValue (q := OfScientific.ofScientific m negative k) (e := 0) (RoundedDouble.ofScientific (P := P) m negative k) hle
    (by rw [sub_self, abs_zero])
  rwa [zero_add] at h

namespace Near

/-- The error of a sum: those of the summands and one rounding. -/
theorem add (hx : Near x p e) (hy : Near y q d) (hp : |p| ≤ a) (hq : |q| ≤ b) (hsize : a + e + (b + d) ≤ 2 ^ 33)
    (herror : e + d + ulp ≤ f) : Near (x + y) (p + q) f := by
  refine (near_of_hasValue (RoundedDouble.add hx.finite hy.finite) ?_ ?_).mono herror
  · exact (abs_add_le _ _).trans ((add_le_add (hx.abs_value_le hp) (hy.abs_value_le hq)).trans hsize)
  · rw [add_sub_add_comm]
    exact (abs_add_le _ _).trans (add_le_add hx.le hy.le)

/-- The error of a difference: those of its terms and one rounding. -/
theorem sub (hx : Near x p e) (hy : Near y q d) (hp : |p| ≤ a) (hq : |q| ≤ b) (hsize : a + e + (b + d) ≤ 2 ^ 33)
    (herror : e + d + ulp ≤ f) : Near (x - y) (p - q) f := by
  refine (near_of_hasValue (RoundedDouble.sub hx.finite hy.finite) ?_ ?_).mono herror
  · exact (abs_sub _ _).trans ((add_le_add (hx.abs_value_le hp) (hy.abs_value_le hq)).trans hsize)
  · rw [sub_sub_sub_comm]
    exact (abs_sub _ _).trans (add_le_add hx.le hy.le)

/-- The error of a product: those of the factors, scaled, and one rounding. -/
theorem mul (hx : Near x p e) (hy : Near y q d) (hp : |p| ≤ a) (hq : |q| ≤ b) (hsize : (a + e) * (b + d) ≤ 2 ^ 33)
    (herror : a * d + b * e + e * d + ulp ≤ f) : Near (x * y) (p * q) f := by
  refine (near_of_hasValue (RoundedDouble.mul hx.finite hy.finite) ?_ ?_).mono herror
  · rw [abs_mul]
    exact (mul_le_mul (hx.abs_value_le hp) (hy.abs_value_le hq) (abs_nonneg _)
      ((abs_nonneg _).trans (hx.abs_value_le hp))).trans hsize
  · have hsplit : value x * value y - p * q = p * (value y - q) + q * (value x - p) + (value x - p) * (value y - q) := by ring
    have hpd : |p * (value y - q)| ≤ a * d := by
      rw [abs_mul]
      exact mul_le_mul hp hy.le (abs_nonneg _) ((abs_nonneg _).trans hp)
    have hqe : |q * (value x - p)| ≤ b * e := by
      rw [abs_mul]
      exact mul_le_mul hq hx.le (abs_nonneg _) ((abs_nonneg _).trans hq)
    have hed : |(value x - p) * (value y - q)| ≤ e * d := by
      rw [abs_mul]
      exact mul_le_mul hx.le hy.le (abs_nonneg _) hx.nonneg
    rw [hsplit]
    exact (abs_add_three _ _ _).trans (add_le_add (add_le_add hpd hqe) hed)

/-- A negation has no error of its own. -/
theorem neg [ExactDouble P] (hx : Near x q e) : Near (-x) (-q) e := by
  obtain ⟨hfinite, hvalue⟩ := ExactDouble.neg hx.finite
  refine ⟨hfinite, ?_⟩
  rw [hvalue, neg_sub_neg, abs_sub_comm]
  exact hx.le

/-! ## Comparisons -/

/-- A comparison holds when the exact numbers are further apart than the errors. -/
theorem le_of_add_le (hx : Near x p e) (hy : Near y q d) (h : p + e + d ≤ q) : x ≤ y := by
  have hxp := (abs_le.1 hx.le).2
  have hyq := (abs_le.1 hy.le).1
  refine (RoundedDouble.le_iff hx.finite hy.finite).2 ?_
  linarith

/-- So does a strict one. -/
theorem lt_of_add_lt (hx : Near x p e) (hy : Near y q d) (h : p + e + d < q) : x < y := by
  have hxp := (abs_le.1 hx.le).2
  have hyq := (abs_le.1 hy.le).1
  refine not_le.1 fun hyx => ?_
  have hle := (RoundedDouble.le_iff hy.finite hx.finite).1 hyx
  linarith

end Near

end Double

end TradeSurveillance
