import TradeSurveillance.Basic
import Mathlib.Data.Rat.Sqrt
import TradeSurveillance.Lib.Decimal

/-!
# `double`

A type with this class and a linear order stands for the doubles other than NaN. Nothing is assumed of the operations: a proof that
needs a property of them has it as a hypothesis.
-/

namespace TradeSurveillance

/-- What the program computes with `double`s. Literals are decimal, `(n : P)` is `static_cast<double>` of an integer. -/
class Double (P : Type) extends OfScientific P, IntCast P, Add P, Sub P, Mul P, Div P, Neg P where
  sqrt : P → P
  isFinite : P → Bool
  signBit : P → Bool
  /-- The absolute value of a finite double, exactly. -/
  magnitude : P → ℚ
  /-- `std::stod`. -/
  stod : Str → Except Exception P

/-- The rationals, exact; square roots are those of squares, and decimal numerals are read without rounding. -/
instance : Double ℚ where
  sqrt := Rat.sqrt
  isFinite _ := true
  signBit q := q < 0
  magnitude q := |q|
  stod text := match Decimal.readRat text with
    | none => .error (.invalidArgument (ascii "stod"))
    | some q => .ok q

/-- The doubles with NaN, compared as IEEE 754 compares them: NaN with nothing. -/
inductive WithNaN (P : Type) where
  | nan
  | number (x : P)
  deriving DecidableEq, Repr

namespace WithNaN

variable {P : Type}

/-- Compare two numbers; NaN compares false. -/
def compare (r : P → P → Bool) : WithNaN P → WithNaN P → Bool
  | .number x, .number y => r x y
  | _, _ => false

variable [LinearOrder P]

instance : LT (WithNaN P) := ⟨fun x y => compare (fun x y => decide (x < y)) x y = true⟩

instance : LE (WithNaN P) := ⟨fun x y => compare (fun x y => decide (x ≤ y)) x y = true⟩

instance : DecidableLT (WithNaN P) := fun _ _ => inferInstanceAs (Decidable (_ = true))

theorem lt_of_lt_of_le {x y z : WithNaN P} (hxy : x < y) (hyz : y ≤ z) : x < z := by
  cases x with
  | nan => cases hxy
  | number x =>
    cases y with
    | nan => cases hxy
    | number y =>
      cases z with
      | nan => cases hyz
      | number z => exact decide_eq_true ((of_decide_eq_true hxy).trans_le (of_decide_eq_true hyz))

end WithNaN

/-- Rounding to integers. -/
class DoubleRounding (P : Type) where
  /-- `std::round`: to the nearest integer, halves away from zero. -/
  round : P → P
  /-- `std::llround`. -/
  llround : P → ℤ
  /-- `static_cast<int64_t>`: toward zero. -/
  truncate : P → ℤ

/-- The integer nearest to a rational, halves away from zero. -/
def roundHalfAway (q : ℚ) : ℤ := if q < 0 then -⌊-q + 1 / 2⌋ else ⌊q + 1 / 2⌋

instance : DoubleRounding ℚ where
  round q := roundHalfAway q
  llround := roundHalfAway
  truncate q := if q < 0 then ⌈q⌉ else ⌊q⌋

namespace Double

variable {P : Type} [Double P]

/-- `std::clamp`. -/
def clamp [LinearOrder P] (v lo hi : P) : P := if v < lo then lo else if hi < v then hi else v

omit [Double P] in
theorem le_clamp [LinearOrder P] {v lo hi : P} (h : lo ≤ hi) : lo ≤ clamp v lo hi := by
  unfold clamp
  split_ifs with h1 h2
  · exact le_refl lo
  · exact h
  · exact not_lt.1 h1

omit [Double P] in
theorem clamp_le [LinearOrder P] {v lo hi : P} (h : lo ≤ hi) : clamp v lo hi ≤ hi := by
  unfold clamp
  split_ifs with h1 h2
  · exact h
  · exact le_refl hi
  · exact not_lt.1 h2

/-- The sign a conversion of `printf` begins with. -/
def sign (x : P) : Str := if signBit x then ascii "-" else []

/-- `std::to_string`: `%f`. -/
def toString (x : P) : Str := sign x ++ if isFinite x then Decimal.fixed 6 (magnitude x) else ascii "inf"

/-- `<<` to a stream of `std::fixed` and `std::setprecision(digits)`: `%.{digits}f`. -/
def printFixed (digits : ℕ) (x : P) : Str :=
  sign x ++ if isFinite x then Decimal.fixed digits (magnitude x) else ascii "inf"

/-- `<<` to a stream of `std::setprecision(17)`: `%.17g`. -/
def print17 (x : P) : Str := sign x ++ if isFinite x then Decimal.general 17 (magnitude x) else ascii "inf"

/-- The double nearest to 0.1. -/
example : print17 (3602879701896397 / 36028797018963968 : ℚ) = ascii "0.10000000000000001" := by decide +kernel

end Double

end TradeSurveillance
