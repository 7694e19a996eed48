import TradeSurveillance.Double
import TradeSurveillance.Lib.BinaryFloat

/-!
# Binary64

The finite doubles of IEEE 754, `-0.0` and `0.0` as one: what an operation gives is the exact result rounded to 53 binary digits.
Infinities and NaN are left out. What would be infinite keeps its value, rounded to as many digits, and the square root of a negative
number is 0.
-/

namespace TradeSurveillance

/-- A number of 53 binary digits. -/
@[ext] structure Binary64 where
  value : ℚ
  mem : value ∈ BinaryFloat.numbers 53 (-1074)

namespace Binary64

instance : LinearOrder Binary64 := LinearOrder.lift' value fun _ _ => Binary64.ext

/-- The double nearest to a number. -/
def round (q : ℚ) : Binary64 := ⟨BinaryFloat.round 53 (-1074) q, BinaryFloat.round_mem 53 (-1074) q⟩

instance : Double Binary64 where
  ofScientific mantissa negative e := round (OfScientific.ofScientific mantissa negative e)
  intCast n := round n
  add x y := round (x.value + y.value)
  sub x y := round (x.value - y.value)
  mul x y := round (x.value * y.value)
  div x y := round (x.value / y.value)
  neg x := ⟨-x.value, BinaryFloat.neg_mem_numbers x.mem⟩
  sqrt x := if x.value ≤ 0 then round 0 else round (BinaryFloat.sqrt 53 x.value)
  isFinite _ := true
  signBit x := x.value < 0
  magnitude x := |x.value|
  stod text := match Decimal.readRat text with
    | none => .error (.invalidArgument (ascii "stod"))
    | some q => .ok (round q)

instance : DoubleRounding Binary64 where
  round x := round (roundHalfAway x.value)
  llround x := roundHalfAway x.value
  truncate x := DoubleRounding.truncate x.value

/-- The double that is written 0.1. -/
example : (0.1 : Binary64).value = 3602879701896397 / 36028797018963968 := by decide +kernel

/-- The square root of 2. -/
example : (Double.sqrt (2.0 : Binary64)).value = 6369051672525773 / 4503599627370496 := by decide +kernel

end Binary64

end TradeSurveillance
