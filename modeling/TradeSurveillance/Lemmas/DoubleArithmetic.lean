import Mathlib.Data.Int.ConditionallyCompleteOrder
import TradeSurveillance.Binary64
import TradeSurveillance.Simulator.RandomUtils

/-!
# Arithmetic of doubles

`RoundedDouble` is what IEEE 754 says of finite doubles: each has a value, and an operation gives the double nearest to the exact
result. Statements about computed doubles are bounds that doubles reach (`Double.Between`); every operation has a rule for them.
-/

namespace TradeSurveillance

/-- The double is finite and has this value. -/
def Double.HasValue {P : Type} [Double P] (value : P → ℚ) (x : P) (q : ℚ) : Prop := isFinite x = true ∧ value x = q

/-- Arithmetic by rounding the exact result, which is in the range of the finite doubles below `2 ^ 1023`; `-0.0` and `0.0` are one.
The conversions to `int64_t` are undefined where the result is none. -/
class RoundedDouble (P : Type) [Double P] [LinearOrder P] [DoubleRounding P] where
  numbers : Set ℚ
  binary_subset : Rounding.binary 53 1022 ⊆ numbers
  rounding : Rounding numbers
  value : P → ℚ
  le_iff : ∀ {x y : P}, Double.isFinite x → Double.isFinite y → (x ≤ y ↔ value x ≤ value y)
  isFinite_of_le_of_le : ∀ {x lo hi : P}, Double.isFinite lo → Double.isFinite hi → lo ≤ x → x ≤ hi → Double.isFinite x
  ofScientific : ∀ (m : ℕ) (negative : Bool) (e : ℕ), |(OfScientific.ofScientific m negative e : ℚ)| ≤ 2 ^ 1023 →
    Double.HasValue value (OfScientific.ofScientific m negative e) (rounding.round (OfScientific.ofScientific m negative e))
  intCast : ∀ n : ℤ, |(n : ℚ)| ≤ 2 ^ 1023 → Double.HasValue value n (rounding.round n)
  add : ∀ {x y : P}, Double.isFinite x → Double.isFinite y → |value x + value y| ≤ 2 ^ 1023 →
    Double.HasValue value (x + y) (rounding.round (value x + value y))
  sub : ∀ {x y : P}, Double.isFinite x → Double.isFinite y → |value x - value y| ≤ 2 ^ 1023 →
    Double.HasValue value (x - y) (rounding.round (value x - value y))
  mul : ∀ {x y : P}, Double.isFinite x → Double.isFinite y → |value x * value y| ≤ 2 ^ 1023 →
    Double.HasValue value (x * y) (rounding.round (value x * value y))
  div : ∀ {x y : P}, Double.isFinite x → Double.isFinite y → value y ≠ 0 → |value x / value y| ≤ 2 ^ 1023 →
    Double.HasValue value (x / y) (rounding.round (value x / value y))
  llround : ∀ {x : P}, Double.isFinite x → |value x| ≤ 2 ^ 62 → DoubleRounding.llround x = DoubleRounding.llround (value x)
  truncate : ∀ {x : P}, Double.isFinite x → |value x| ≤ 2 ^ 62 → DoubleRounding.truncate x = DoubleRounding.truncate (value x)

instance : RoundedDouble ℚ where
  numbers := Set.univ
  binary_subset := Set.subset_univ _
  rounding := Rounding.exact
  value := id
  le_iff := fun _ _ => Iff.rfl
  isFinite_of_le_of_le := fun _ _ _ _ => rfl
  ofScientific := fun _ _ _ _ => ⟨rfl, rfl⟩
  intCast := fun _ _ => ⟨rfl, rfl⟩
  add := fun _ _ _ => ⟨rfl, rfl⟩
  sub := fun _ _ _ => ⟨rfl, rfl⟩
  mul := fun _ _ _ => ⟨rfl, rfl⟩
  div := fun _ _ _ _ => ⟨rfl, rfl⟩
  llround := fun _ _ => rfl
  truncate := fun _ _ => rfl

instance : RoundedDouble Binary64 where
  numbers := BinaryFloat.numbers 53 (-1074)
  binary_subset := BinaryFloat.binary_subset_numbers (by decide)
  rounding := BinaryFloat.rounding (by decide)
  value := Binary64.value
  le_iff := fun _ _ => Iff.rfl
  isFinite_of_le_of_le := fun _ _ _ _ => rfl
  ofScientific := fun _ _ _ _ => ⟨rfl, rfl⟩
  intCast := fun _ _ => ⟨rfl, rfl⟩
  add := fun _ _ _ => ⟨rfl, rfl⟩
  sub := fun _ _ _ => ⟨rfl, rfl⟩
  mul := fun _ _ _ => ⟨rfl, rfl⟩
  div := fun _ _ _ _ => ⟨rfl, rfl⟩
  llround := fun _ _ => rfl
  truncate := fun _ _ => rfl

namespace Double

open RoundedDouble (value)

/-- The numbers of 53 bits. -/
abbrev Exact (q : ℚ) : Prop := q ∈ Rounding.binary 53 1022

variable {P : Type} [Double P] [LinearOrder P] [DoubleRounding P] [RoundedDouble P] {x y : P} {a b c d p q : ℚ}

/-- The double is finite and between two bounds. -/
structure Between (x : P) (a b : ℚ) : Prop where
  finite : isFinite x = true
  mem : value x ∈ Set.Icc a b

/-- Wider bounds hold too. -/
theorem Between.mono (h : Between x a b) (hc : c ≤ a) (hd : b ≤ d) : Between x c d :=
  ⟨h.finite, hc.trans h.mem.1, h.mem.2.trans hd⟩

/-- A bound within `2 ^ 53`, for the numbers between two such bounds. -/
theorem abs_le_of_mem_Icc (ha : Exact a) (hb : Exact b) (hq : q ∈ Set.Icc a b) : |q| ≤ 2 ^ 53 := by
  have ha' := abs_le.1 (Rounding.abs_le_of_mem_binary ha)
  have hb' := abs_le.1 (Rounding.abs_le_of_mem_binary hb)
  exact abs_le.2 ⟨ha'.1.trans hq.1, hq.2.trans hb'.2⟩

/-- What a rounded result is between. -/
theorem between_of_hasValue (h : |q| ≤ 2 ^ 1023 → HasValue value x ((RoundedDouble.rounding (P := P)).round q)) (ha : Exact a) (hb : Exact b)
    (hq : q ∈ Set.Icc a b) : Between x a b := by
  have hpow : (2 : ℚ) ^ 53 ≤ 2 ^ 1023 := pow_le_pow_right₀ (by norm_num) (by norm_num)
  obtain ⟨hfinite, hvalue⟩ := h ((abs_le_of_mem_Icc ha hb hq).trans hpow)
  refine ⟨hfinite, ?_⟩
  rw [hvalue]
  exact Rounding.round_mem_Icc _ (RoundedDouble.binary_subset (P := P) ha) (RoundedDouble.binary_subset (P := P) hb) hq

/-- Bounds that meet give the value. -/
theorem Between.value_eq (h : Between x a a) : value x = a := le_antisymm h.mem.2 h.mem.1

/-- Rounding keeps the order of two results. -/
theorem value_le_of_hasValue (hx : |p| ≤ 2 ^ 1023 → HasValue value x ((RoundedDouble.rounding (P := P)).round p))
    (hy : |q| ≤ 2 ^ 1023 → HasValue value y ((RoundedDouble.rounding (P := P)).round q)) (hp : |p| ≤ 2 ^ 53) (hq : |q| ≤ 2 ^ 53)
    (h : p ≤ q) : value x ≤ value y := by
  have hpow : (2 : ℚ) ^ 53 ≤ 2 ^ 1023 := pow_le_pow_right₀ (by norm_num) (by norm_num)
  rw [(hx (hp.trans hpow)).2, (hy (hq.trans hpow)).2]
  exact Rounding.mono _ h

/-! ## Operations -/

/-- A decimal literal between two exact numbers is read between them. -/
theorem between_ofScientific (m : ℕ) (negative : Bool) (e : ℕ) (ha : Exact a) (hb : Exact b)
    (hq : (OfScientific.ofScientific m negative e : ℚ) ∈ Set.Icc a b) : Between (OfScientific.ofScientific m negative e : P) a b :=
  between_of_hasValue (RoundedDouble.ofScientific m negative e) ha hb hq

/-- A literal that writes a double. -/
theorem between_literal (m e : ℕ) (hq : (OfScientific.ofScientific m true e : ℚ) = q) (hexact : Exact q) :
    Between (OfScientific.ofScientific m true e : P) q q :=
  between_ofScientific m true e hexact hexact ⟨hq.ge, hq.le⟩

/-- An integer between two of at most 53 bits is converted between them. -/
theorem between_intCast {m n k : ℤ} (hm : |m| ≤ 2 ^ 53) (hk : |k| ≤ 2 ^ 53) (hn : n ∈ Set.Icc m k) : Between (n : P) m k :=
  between_of_hasValue (RoundedDouble.intCast n) (Rounding.intCast_mem_binary hm) (Rounding.intCast_mem_binary hk)
    ⟨Int.cast_le.2 hn.1, Int.cast_le.2 hn.2⟩

/-- An integer of at most 53 bits is converted exactly. -/
theorem between_intCast_self {n : ℤ} (h : |n| ≤ 2 ^ 53) : Between (n : P) n n := between_intCast h h ⟨le_rfl, le_rfl⟩

namespace Between

/-- A sum lies between the sums of the bounds, where these are exact. -/
theorem add (hx : Between x a b) (hy : Between y c d) (hac : Exact (a + c)) (hbd : Exact (b + d)) :
    Between (x + y) (a + c) (b + d) :=
  between_of_hasValue (RoundedDouble.add hx.finite hy.finite) hac hbd ⟨add_le_add hx.mem.1 hy.mem.1, add_le_add hx.mem.2 hy.mem.2⟩

/-- A sum is a double. -/
theorem value_add_mem (hx : Between x a b) (hy : Between y c d) (hac : Exact (a + c)) (hbd : Exact (b + d)) :
    value (x + y) ∈ RoundedDouble.numbers P := by
  have hbound := abs_le_of_mem_Icc hac hbd ⟨add_le_add hx.mem.1 hy.mem.1, add_le_add hx.mem.2 hy.mem.2⟩
  have hvalue := (RoundedDouble.add hx.finite hy.finite (hbound.trans (pow_le_pow_right₀ (by norm_num) (by norm_num)))).2
  rw [hvalue]
  exact Rounding.mem _ _

/-- A difference lies between the differences of the bounds, where these are exact. -/
theorem sub (hx : Between x a b) (hy : Between y c d) (had : Exact (a - d)) (hbc : Exact (b - c)) :
    Between (x - y) (a - d) (b - c) :=
  between_of_hasValue (RoundedDouble.sub hx.finite hy.finite) had hbc ⟨sub_le_sub hx.mem.1 hy.mem.2, sub_le_sub hx.mem.2 hy.mem.1⟩

/-- A product lies between exact bounds of the products. -/
theorem mul (hx : Between x a b) (hy : Between y c d) (hpq : ∀ u ∈ Set.Icc a b, ∀ v ∈ Set.Icc c d, u * v ∈ Set.Icc p q) (hp : Exact p)
    (hq : Exact q) : Between (x * y) p q :=
  between_of_hasValue (RoundedDouble.mul hx.finite hy.finite) hp hq (hpq _ hx.mem _ hy.mem)

/-- A quotient lies between exact bounds of the exact one. -/
theorem div (hx : isFinite x = true) (hy : isFinite y = true) (hne : value y ≠ 0) (hq : value x / value y ∈ Set.Icc p q) (hp : Exact p)
    (hq' : Exact q) : Between (x / y) p q :=
  between_of_hasValue (RoundedDouble.div hx hy hne) hp hq' hq

/-- A factor that is not negative scales the bounds. -/
theorem mul_of_nonneg (hx : Between x a b) (hy : Between y c d) (ha : 0 ≤ a) (hc : 0 ≤ c) (hac : Exact (a * c)) (hbd : Exact (b * d)) :
    Between (x * y) (a * c) (b * d) := by
  refine hx.mul hy (fun u hu v hv => ⟨?_, ?_⟩) hac hbd
  · exact mul_le_mul hu.1 hv.1 hc (ha.trans hu.1)
  · exact mul_le_mul hu.2 hv.2 (hc.trans hv.1) (ha.trans (hu.1.trans hu.2))

/-- It scales the bounds of a number that is not positive the other way. -/
theorem mul_of_nonpos (hx : Between x a b) (hy : Between y c d) (hb : b ≤ 0) (hc : 0 ≤ c) (had : Exact (a * d)) (hbc : Exact (b * c)) :
    Between (x * y) (a * d) (b * c) := by
  refine hx.mul hy (fun u hu v hv => ⟨?_, ?_⟩) had hbc
  · have h₁ := mul_le_mul_of_nonneg_right hu.1 (hc.trans hv.1)
    have h₂ := mul_le_mul_of_nonpos_left hv.2 (hu.1.trans (hu.2.trans hb))
    linarith
  · have h₁ := mul_le_mul_of_nonneg_right hu.2 (hc.trans hv.1)
    have h₂ := mul_le_mul_of_nonpos_left hv.1 hb
    linarith

/-- `lerp` downwards. -/
theorem lerp {lo hi t : P} {t₀ t₁ : ℚ} (hlo : Between lo a b) (hhi : Between hi c d) (ht : Between t t₀ t₁) (hda : d ≤ a) (ht₀ : 0 ≤ t₀)
    (hcb : Exact (c - b)) (hda' : Exact (d - a)) (hleft : Exact ((c - b) * t₁)) (hright : Exact ((d - a) * t₀))
    (hlower : Exact (a + (c - b) * t₁)) (hupper : Exact (b + (d - a) * t₀)) :
    Between (Simulator.lerp lo hi t) (a + (c - b) * t₁) (b + (d - a) * t₀) :=
  hlo.add ((hhi.sub hlo hcb hda').mul_of_nonpos ht (sub_nonpos.2 hda) ht₀ hleft hright) hlower hupper

end Between

/-! ## Comparisons and conversions to integers -/

/-- A double between two others is between their outer bounds. -/
theorem between_of_le_of_le {lo hi : P} (hlo : Between lo a b) (hhi : Between hi c d) (h₁ : lo ≤ x) (h₂ : x ≤ hi) : Between x a d := by
  have hx := RoundedDouble.isFinite_of_le_of_le hlo.finite hhi.finite h₁ h₂
  exact ⟨hx, hlo.mem.1.trans ((RoundedDouble.le_iff hlo.finite hx).1 h₁), ((RoundedDouble.le_iff hx hhi.finite).1 h₂).trans hhi.mem.2⟩

/-- Rounding does not fall below an integer that the number is not below. -/
theorem le_roundHalfAway {n : ℤ} (h : (n : ℚ) ≤ q) : n ≤ roundHalfAway q := by
  unfold roundHalfAway
  split_ifs with hneg
  · rw [le_neg]
    refine Int.floor_le_iff.2 ?_
    push_cast
    linarith
  · refine Int.le_floor.2 ?_
    linarith

/-- Rounding does not exceed an integer that the number does not exceed. -/
theorem roundHalfAway_le {n : ℤ} (h : q ≤ n) : roundHalfAway q ≤ n := by
  unfold roundHalfAway
  split_ifs with hneg
  · rw [neg_le]
    refine Int.le_floor.2 ?_
    push_cast
    linarith
  · refine Int.floor_le_iff.2 ?_
    linarith

/-- An integer is rounded to itself. -/
theorem llround_intCast (n : ℤ) : DoubleRounding.llround (n : ℚ) = n := le_antisymm (roundHalfAway_le le_rfl) (le_roundHalfAway le_rfl)

/-- Truncation does not fall below an integer that the number is not below. -/
theorem le_truncate {n : ℤ} (h : (n : ℚ) ≤ q) : n ≤ DoubleRounding.truncate q := by
  show n ≤ if q < 0 then ⌈q⌉ else ⌊q⌋
  split_ifs
  · exact Int.cast_le.1 (h.trans (Int.le_ceil q))
  · exact Int.le_floor.2 h

/-- Truncation does not exceed an integer that the number does not exceed. -/
theorem truncate_le {n : ℤ} (h : q ≤ n) : DoubleRounding.truncate q ≤ n := by
  show (if q < 0 then ⌈q⌉ else ⌊q⌋) ≤ n
  split_ifs
  · exact Int.ceil_le.2 h
  · exact Int.cast_le.1 ((Int.floor_le q).trans h)

/-- Truncation takes less than one off. -/
theorem lt_truncate_add_one (q : ℚ) : q < DoubleRounding.truncate q + 1 := by
  show q < ((if q < 0 then ⌈q⌉ else ⌊q⌋ : ℤ) : ℚ) + 1
  split_ifs
  · exact (Int.le_ceil q).trans_lt (lt_add_one _)
  · exact Int.lt_floor_add_one q

/-- Truncation is monotone. -/
theorem truncate_mono (h : p ≤ q) : DoubleRounding.truncate p ≤ DoubleRounding.truncate q := by
  show (if p < 0 then ⌈p⌉ else ⌊p⌋) ≤ if q < 0 then ⌈q⌉ else ⌊q⌋
  split_ifs with hp hq hq
  · exact Int.ceil_mono h
  · exact (Int.ceil_le.2 (by simpa using hp.le)).trans (Int.floor_nonneg.2 (not_lt.1 hq))
  · exact absurd (h.trans_lt hq) hp
  · exact Int.floor_mono h

namespace Between

/-- A double between exact bounds is in the range of the conversions. -/
theorem abs_value_le (h : Between x a b) (ha : Exact a) (hb : Exact b) : |value x| ≤ 2 ^ 62 :=
  (abs_le_of_mem_Icc ha hb h.mem).trans (pow_le_pow_right₀ (by norm_num) (by norm_num))

/-- `llround` of a double is at least an integer below its lower bound. -/
theorem le_llround {n : ℤ} (h : Between x a b) (ha : Exact a) (hb : Exact b) (hn : (n : ℚ) ≤ a) : n ≤ DoubleRounding.llround x := by
  rw [RoundedDouble.llround h.finite (h.abs_value_le ha hb)]
  exact le_roundHalfAway (hn.trans h.mem.1)

/-- `llround` of a double is at most an integer above its upper bound. -/
theorem llround_le {n : ℤ} (h : Between x a b) (ha : Exact a) (hb : Exact b) (hn : b ≤ n) : DoubleRounding.llround x ≤ n := by
  rw [RoundedDouble.llround h.finite (h.abs_value_le ha hb)]
  exact roundHalfAway_le (h.mem.2.trans hn)

/-- The cast of a double is at least an integer below its lower bound. -/
theorem le_truncate {n : ℤ} (h : Between x a b) (ha : Exact a) (hb : Exact b) (hn : (n : ℚ) ≤ a) : n ≤ DoubleRounding.truncate x := by
  rw [RoundedDouble.truncate h.finite (h.abs_value_le ha hb)]
  exact Double.le_truncate (hn.trans h.mem.1)

/-- The cast of a double is at most an integer above its upper bound. -/
theorem truncate_le {n : ℤ} (h : Between x a b) (ha : Exact a) (hb : Exact b) (hn : b ≤ n) : DoubleRounding.truncate x ≤ n := by
  rw [RoundedDouble.truncate h.finite (h.abs_value_le ha hb)]
  exact Double.truncate_le (h.mem.2.trans hn)

/-- The cast of a bounded double takes less than one off. -/
theorem value_lt_truncate_add_one (h : Between x a b) (ha : Exact a) (hb : Exact b) : value x < DoubleRounding.truncate x + 1 := by
  rw [RoundedDouble.truncate h.finite (h.abs_value_le ha hb)]
  exact lt_truncate_add_one _

/-- The cast is monotone on bounded doubles. -/
theorem truncate_le_truncate (hx : Between x a b) (hy : Between y c d) (ha : Exact a) (hb : Exact b) (hc : Exact c) (hd : Exact d)
    (h : value x ≤ value y) : DoubleRounding.truncate x ≤ DoubleRounding.truncate y := by
  rw [RoundedDouble.truncate hx.finite (hx.abs_value_le ha hb), RoundedDouble.truncate hy.finite (hy.abs_value_le hc hd)]
  exact truncate_mono h

end Between

end Double

end TradeSurveillance
