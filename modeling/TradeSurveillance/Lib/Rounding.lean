import Mathlib.Algebra.Order.Field.Rat
import Mathlib.Algebra.Order.Field.Basic
import Mathlib.Data.Rat.Floor
import Mathlib.Order.Interval.Set.Basic
import Mathlib.Tactic.FieldSimp
import Mathlib.Tactic.Linarith

/-!
# Rounding to the nearest number of a set

What a number is rounded to is as near to it as every number of the set; which of two is taken that are equally near is left open. Such
a rounding is monotone (`Rounding.mono`), so an operation that is rounded stays between bounds of the set that the exact operation
stays between (`Rounding.round_mem_Icc`). To round to binary numbers costs little (`Rounding.abs_round_sub_le`).
-/

/-- A rounding to the numbers of a set. -/
structure Rounding {α : Type*} [Field α] [LinearOrder α] (F : Set α) where
  round : α → α
  mem : ∀ x, round x ∈ F
  nearest : ∀ x, ∀ y ∈ F, |round x - x| ≤ |y - x|

namespace Rounding

section Bounds

variable {α : Type*} [Field α] [LinearOrder α] [IsStrictOrderedRing α]

/-- No rounding. -/
def exact : Rounding (Set.univ : Set α) where
  round := id
  mem := fun _ => Set.mem_univ _
  nearest := fun x y _ => by
    rw [id, sub_self, abs_zero]
    exact abs_nonneg _

variable {F : Set α} (r : Rounding F) {a b x y : α}

/-- A number of the format is rounded to itself. -/
theorem round_of_mem (h : x ∈ F) : r.round x = x := by
  have hzero := r.nearest x x h
  rw [sub_self, abs_zero] at hzero
  exact sub_eq_zero.1 (abs_nonpos_iff.1 hzero)

/-- A number is on the side of the middle on which the nearer one of two is. -/
theorem middle_le (hba : b < a) (h : |a - x| ≤ |b - x|) : a + b ≤ 2 * x := by
  rcases le_total x a with hx | hx
  · rw [abs_of_nonneg (sub_nonneg.2 hx)] at h
    rcases le_total x b with hxb | hxb
    · rw [abs_of_nonneg (sub_nonneg.2 hxb)] at h
      linarith
    · rw [abs_of_nonpos (sub_nonpos.2 hxb)] at h
      linarith
  · linarith

/-- A number not nearer to the larger of two is not beyond their middle. -/
theorem le_middle (hba : b < a) (h : |b - x| ≤ |a - x|) : 2 * x ≤ a + b := by
  have hneg := middle_le (neg_lt_neg hba) (x := -x) (by rwa [← neg_sub', ← neg_sub', abs_neg, abs_neg])
  linarith

/-- Rounding is monotone. -/
theorem mono : Monotone r.round := by
  intro x y hxy
  by_contra hlt
  rw [not_le] at hlt
  have hx := middle_le hlt (r.nearest x _ (r.mem y))
  have hy := le_middle hlt (r.nearest y _ (r.mem x))
  obtain rfl : x = y := le_antisymm hxy (by linarith)
  exact lt_irrefl _ hlt

/-- Rounding does not fall below a number of the format. -/
theorem le_round (ha : a ∈ F) (h : a ≤ x) : a ≤ r.round x := by
  have hmono := r.mono h
  rwa [r.round_of_mem ha] at hmono

/-- Nor does it exceed one. -/
theorem round_le (hb : b ∈ F) (h : x ≤ b) : r.round x ≤ b := by
  have hmono := r.mono h
  rwa [r.round_of_mem hb] at hmono

/-- Between two numbers of the format it stays between them. -/
theorem round_mem_Icc (ha : a ∈ F) (hb : b ∈ F) (h : x ∈ Set.Icc a b) : r.round x ∈ Set.Icc a b :=
  ⟨r.le_round ha h.1, r.round_le hb h.2⟩

end Bounds

/-! ## Binary numbers -/

/-- Numbers of at most so many binary digits, at most so many of them after the point, and the power of two that follows them. -/
def binary (digits places : ℕ) : Set ℚ := {q | |q.num| ≤ 2 ^ digits ∧ q.den ∣ 2 ^ places}

variable {digits places : ℕ} {q : ℚ}

instance : Decidable (q ∈ binary digits places) := inferInstanceAs (Decidable (_ ∧ _))

/-- An integer of so many digits is a number of the format. -/
theorem intCast_mem_binary {n : ℤ} (h : |n| ≤ 2 ^ digits) : (n : ℚ) ∈ binary digits places := by
  refine ⟨?_, ?_⟩
  · rwa [Rat.num_intCast]
  · rw [Rat.den_intCast]
    exact one_dvd _

/-- Zero is one. -/
@[simp] theorem zero_mem_binary : (0 : ℚ) ∈ binary digits places := by
  have h : |(0 : ℤ)| ≤ 2 ^ digits := by simp
  exact_mod_cast intCast_mem_binary h

/-- So is one. -/
@[simp] theorem one_mem_binary : (1 : ℚ) ∈ binary digits places := by
  have h : |(1 : ℤ)| ≤ 2 ^ digits := by simpa using one_le_pow₀ (one_le_two : (1 : ℤ) ≤ 2)
  exact_mod_cast intCast_mem_binary h

/-- So is a numeral of so many digits. -/
@[simp] theorem ofNat_mem_binary {n : ℕ} [n.AtLeastTwo] (h : n ≤ 2 ^ digits) : (ofNat(n) : ℚ) ∈ binary digits places := by
  have hn : |((OfNat.ofNat n : ℕ) : ℤ)| ≤ 2 ^ digits := by
    rw [Nat.abs_cast]
    exact_mod_cast h
  exact_mod_cast intCast_mem_binary hn

/-- A number and its negative are of the format together. -/
@[simp] theorem neg_mem_binary : -q ∈ binary digits places ↔ q ∈ binary digits places := by simp [binary]

/-- The numbers of the format are bounded. -/
theorem abs_le_of_mem_binary (h : q ∈ binary digits places) : |q| ≤ 2 ^ digits := by
  have hnum : |(q.num : ℚ)| ≤ 2 ^ digits := by
    rw [← Int.cast_abs]
    exact_mod_cast h.1
  have hden : (1 : ℚ) ≤ q.den := by exact_mod_cast q.den_pos
  have habs : |q| = |(q.num : ℚ)| / q.den := by
    conv_lhs => rw [← Rat.num_div_den q]
    rw [abs_div, Nat.abs_cast]
  rw [habs]
  exact (div_le_self (abs_nonneg _) hden).trans hnum

/-- A fraction of a power of two. -/
theorem div_pow_mem_binary {n : ℤ} {p : ℕ} (hn : |n| ≤ 2 ^ digits) (hp : p ≤ places) : (n : ℚ) / 2 ^ p ∈ binary digits places := by
  have hcast : (n : ℚ) / 2 ^ p = Rat.divInt n (2 ^ p) := by
    rw [Rat.divInt_eq_div]
    push_cast
    rfl
  rw [hcast]
  refine ⟨?_, ?_⟩
  · rcases eq_or_ne n 0 with rfl | hne
    · simp
    · have hdvd : (Rat.divInt n (2 ^ p)).num ∣ n := Rat.num_dvd n (pow_ne_zero p two_ne_zero)
      exact (Int.le_of_dvd (abs_pos.2 hne) ((abs_dvd_abs _ _).2 hdvd)).trans hn
  · have hdvd : ((Rat.divInt n (2 ^ p)).den : ℤ) ∣ 2 ^ p := Rat.den_dvd n (2 ^ p)
    exact (Int.natCast_dvd_natCast.1 (by exact_mod_cast hdvd)).trans (pow_dvd_pow 2 hp)

/-- To round a number that is not too large costs no more than what is cut off after so many binary places. -/
theorem abs_round_sub_le {F : Set ℚ} (r : Rounding F) (hF : binary digits places ⊆ F) {m p : ℕ} (hm : m + p ≤ digits) (hp : p ≤ places)
    (hq : |q| ≤ 2 ^ m) : |r.round q - q| ≤ 1 / 2 ^ p := by
  have hpow : (0 : ℚ) < 2 ^ p := pow_pos two_pos p
  have hbound : |⌊q * 2 ^ p⌋| ≤ (2 : ℤ) ^ digits := by
    have hscaled := abs_le.1 hq
    have hle : (2 : ℤ) ^ m * 2 ^ p ≤ 2 ^ digits := by
      rw [← pow_add]
      exact pow_le_pow_right₀ one_le_two hm
    rw [abs_le]
    constructor
    · refine (neg_le_neg hle).trans (Int.le_floor.2 ?_)
      push_cast
      rw [← neg_mul]
      exact mul_le_mul_of_nonneg_right hscaled.1 hpow.le
    · refine le_trans ?_ hle
      have hfloor := (Int.floor_le (q * 2 ^ p)).trans (mul_le_mul_of_nonneg_right hscaled.2 hpow.le)
      exact_mod_cast hfloor
  have hcut : |(⌊q * 2 ^ p⌋ : ℚ) / 2 ^ p - q| ≤ 1 / 2 ^ p := by
    have hdiff : (⌊q * 2 ^ p⌋ : ℚ) / 2 ^ p - q = (⌊q * 2 ^ p⌋ - q * 2 ^ p) / 2 ^ p := by field_simp
    rw [hdiff, abs_div, abs_of_pos hpow]
    refine div_le_div_of_nonneg_right ?_ hpow.le
    have hlow := Int.floor_le (q * 2 ^ p)
    have hhigh := Int.lt_floor_add_one (q * 2 ^ p)
    rw [abs_le]
    constructor <;> linarith
  exact (r.nearest q _ (hF (div_pow_mem_binary hbound hp))).trans hcut

end Rounding
