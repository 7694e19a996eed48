import Mathlib.Data.Nat.Digits.Defs
import Mathlib.Data.Int.Log
import Mathlib.Data.List.DropRight
import Mathlib.Data.Nat.Digits.Lemmas
import Mathlib.Data.Rat.Floor

/-!
# Decimal numerals

The numerals of natural numbers, integers and rationals in base ten, as ASCII bytes, most significant digit first, and the numbers
that a text begins with, as the `strto*` functions read them.
-/

namespace Decimal

/-- The numeral of a natural number. -/
def ofNat (n : ℕ) : List UInt8 := if n = 0 then [48] else (Nat.digits 10 n).reverse.map fun d => (48 + d).toUInt8

/-- The numeral of an integer. -/
def ofInt (z : ℤ) : List UInt8 := if z < 0 then 45 :: ofNat z.natAbs else ofNat z.natAbs

/-! ## Rationals

The conversions of `printf` with the current rounding mode, to nearest with ties to even, of a value that is exactly `q ≥ 0`. -/

/-- The nearest integer, an even one when two are. -/
def nearest (q : ℚ) : ℕ :=
  let n := ⌊q⌋₊
  let r := q - n
  if r < 1 / 2 ∨ r = 1 / 2 ∧ n % 2 = 0 then n else n + 1

/-- The numeral of `n` with zeros before it, at least `width` digits. -/
def padded (width n : ℕ) : List UInt8 := (List.replicate (width - (ofNat n).length) 48) ++ ofNat n

/-- `%.{digits}f`, for `digits > 0`. -/
def fixed (digits : ℕ) (q : ℚ) : List UInt8 :=
  let n := nearest (q * 10 ^ digits)
  ofNat (n / 10 ^ digits) ++ 46 :: padded digits (n % 10 ^ digits)

/-- The `precision` significant digits of `q > 0` and the exponent of ten of the first one. -/
def significant (precision : ℕ) (q : ℚ) : ℕ × ℤ :=
  let x := Int.log 10 q
  let m := nearest (q * 10 ^ ((precision : ℤ) - 1 - x))
  -- rounding up may make one digit more
  if m = 10 ^ precision then (10 ^ (precision - 1), x + 1) else (m, x)

/-- A fraction without its trailing zeros, after a point when there is anything left. -/
def fraction (digits : List UInt8) : List UInt8 :=
  let digits := digits.rdropWhile (· = 48)
  if digits = [] then [] else 46 :: digits

/-- `%.{precision}g`, for `precision > 0`. -/
def general (precision : ℕ) (q : ℚ) : List UInt8 :=
  if q = 0 then [48] else
    let (m, x) := significant precision q
    let digits := ofNat m
    if x < -4 ∨ x ≥ precision then
      digits.take 1 ++ fraction (digits.drop 1) ++ 101 :: (if x < 0 then 45 else 43) :: padded 2 x.natAbs
    else if x < 0 then 48 :: fraction (List.replicate (x.natAbs - 1) 48 ++ digits)
    else digits.take (x.natAbs + 1) ++ fraction (digits.drop (x.natAbs + 1))

/-! ## Reading -/

/-- `isdigit`. -/
def isDigit (b : UInt8) : Bool := 48 ≤ b && b ≤ 57

/-- `isspace`. -/
def isSpace (b : UInt8) : Bool := b = 32 || 9 ≤ b && b ≤ 13

/-- The characters of a decimal numeral with sign, point and exponent. -/
def isNumeric (b : UInt8) : Bool := isDigit b || b = 45 || b = 43 || b = 46 || b = 101 || b = 69

/-- The value of a list of digits. -/
def value (digits : List UInt8) : ℕ := digits.foldl (fun v b => 10 * v + (b.toNat - 48)) 0

/-- The sign a text begins with, and the text behind it. -/
def readSign : List UInt8 → Bool × List UInt8
  | 45 :: text => (true, text)
  | 43 :: text => (false, text)
  | text => (false, text)

/-- The integer a text begins with: white space, a sign, digits. -/
def readInt (text : List UInt8) : Option ℤ :=
  let (negative, text) := readSign (text.dropWhile isSpace)
  let digits := text.takeWhile isDigit
  if digits = [] then none else some (if negative then -(value digits : ℤ) else value digits)

/-- The exponent a text begins with, `0` when there is none. -/
def readExponent : List UInt8 → ℤ
  | [] => 0
  | b :: text =>
    if b = 101 ∨ b = 69 then
      let (negative, text) := readSign text
      let n := value (text.takeWhile isDigit)
      if negative then -n else n
    else 0

/-- The decimal number a text begins with: white space, a sign, digits with or without a point, an exponent. -/
def readRat (text : List UInt8) : Option ℚ :=
  let (negative, text) := readSign (text.dropWhile isSpace)
  let whole := text.takeWhile isDigit
  let rest := text.dropWhile isDigit
  let part := if rest.head? = some 46 then rest.tail.takeWhile isDigit else []
  let rest := if rest.head? = some 46 then rest.tail.dropWhile isDigit else rest
  if whole = [] ∧ part = [] then none else
    let q := (value (whole ++ part) : ℚ) * 10 ^ (readExponent rest - part.length)
    some (if negative then -q else q)

section Lemmas

variable {n : ℕ} {z : ℤ} {b : UInt8}

/-- A digit is the byte of its number. -/
theorem digit_toNat {d : ℕ} (hd : d < 10) : ((48 + d).toUInt8).toNat = 48 + d := by
  have h : (48 + d) % 256 = 48 + d := Nat.mod_eq_of_lt (by omega)
  simpa using h

/-- A digit is one. -/
theorem isDigit_digit {d : ℕ} (hd : d < 10) : isDigit (48 + d).toUInt8 = true := by
  have h := digit_toNat hd
  simp only [isDigit, Bool.and_eq_true, decide_eq_true_eq, UInt8.le_iff_toNat_le]
  rw [h]
  constructor
  · exact Nat.le_add_right 48 d
  · show 48 + d ≤ 57
    omega

/-- A numeral is not empty. -/
theorem ofNat_ne_nil (n : ℕ) : ofNat n ≠ [] := by
  unfold ofNat
  split
  · exact List.cons_ne_nil _ _
  · rename_i hn
    simpa [Nat.digits_eq_nil_iff_eq_zero] using hn

/-- The numeral of a natural number is made of digits. -/
theorem isDigit_of_mem_ofNat (hb : b ∈ ofNat n) : isDigit b = true := by
  unfold ofNat at hb
  split at hb
  · rw [List.mem_singleton.1 hb]
    rfl
  · obtain ⟨d, hd, rfl⟩ := List.mem_map.1 hb
    exact isDigit_digit (Nat.digits_lt_base (by omega) (List.mem_reverse.1 hd))

/-- Reading the digits of a number in order of significance. -/
theorem value_map_digits (l : List ℕ) (hl : ∀ d ∈ l, d < 10) :
    value ((l.reverse).map fun d => (48 + d).toUInt8) = Nat.ofDigits 10 l := by
  induction l with
  | nil => rfl
  | cons d l ih =>
    have hd : ((48 + d).toUInt8).toNat - 48 = d := by rw [digit_toNat (hl d List.mem_cons_self)]; omega
    rw [List.reverse_cons, List.map_append, value, List.foldl_append, ← value, ih fun d hd => hl d (List.mem_cons_of_mem _ hd)]
    simp only [List.map_cons, List.map_nil, List.foldl_cons, List.foldl_nil, hd, Nat.ofDigits_cons]
    omega

/-- A numeral is read as its number. -/
theorem value_ofNat (n : ℕ) : value (ofNat n) = n := by
  unfold ofNat
  split
  · rename_i hn
    rw [hn]
    rfl
  · rw [value_map_digits _ fun d hd => Nat.digits_lt_base (by omega) hd, Nat.ofDigits_digits]

/-- So all of it is digits. -/
theorem takeWhile_ofNat (n : ℕ) : (ofNat n).takeWhile isDigit = ofNat n :=
  List.takeWhile_eq_self_iff.2 fun _ hb => isDigit_of_mem_ofNat hb

/-- A digit may stand in a numeral. -/
theorem isNumeric_of_isDigit (h : isDigit b = true) : isNumeric b = true := by
  simp [isNumeric, h]

/-- White space may not. -/
theorem not_isSpace_of_isNumeric (h : isNumeric b = true) : isSpace b = false := by
  by_contra hs
  simp only [isNumeric, isDigit, isSpace, Bool.or_eq_true, Bool.and_eq_true, decide_eq_true_eq, UInt8.le_iff_toNat_le,
    ← UInt8.toNat_inj, Bool.not_eq_false] at h hs
  simp only [UInt8.reduceToNat] at h hs
  omega

/-- The numeral of an integer is not empty. -/
theorem ofInt_ne_nil (z : ℤ) : ofInt z ≠ [] := by
  unfold ofInt
  split
  · exact List.cons_ne_nil _ _
  · exact ofNat_ne_nil _

/-- It is made of numeric characters. -/
theorem isNumeric_of_mem_ofInt (hb : b ∈ ofInt z) : isNumeric b = true := by
  unfold ofInt at hb
  split at hb
  · rcases List.mem_cons.1 hb with rfl | hb
    · rfl
    · exact isNumeric_of_isDigit (isDigit_of_mem_ofNat hb)
  · exact isNumeric_of_isDigit (isDigit_of_mem_ofNat hb)

/-- White space is not skipped in a text that begins with a numeric character. -/
theorem dropWhile_isSpace_of_isNumeric {text : List UInt8} (h : ∀ b ∈ text, isNumeric b = true) :
    text.dropWhile isSpace = text := by
  cases text with
  | nil => rfl
  | cons b text => exact List.dropWhile_cons_of_neg (by simp [not_isSpace_of_isNumeric (h b List.mem_cons_self)])

/-- A natural number has no sign. -/
theorem readSign_ofNat (n : ℕ) : readSign (ofNat n) = (false, ofNat n) := by
  cases hn : ofNat n with
  | nil => rfl
  | cons b text =>
    have hb : isDigit b = true := isDigit_of_mem_ofNat (hn ▸ List.mem_cons_self)
    unfold readSign
    split
    · rename_i heq
      rw [(List.cons.inj heq).1] at hb
      exact absurd hb (by decide)
    · rename_i heq
      rw [(List.cons.inj heq).1] at hb
      exact absurd hb (by decide)
    · rfl

/-- The numeral of an integer is read as the integer. -/
theorem readInt_ofInt (z : ℤ) : readInt (ofInt z) = some z := by
  unfold readInt
  rw [dropWhile_isSpace_of_isNumeric fun _ hb => isNumeric_of_mem_ofInt hb]
  by_cases hz : z < 0
  · rw [ofInt, if_pos hz]
    simp only [readSign, takeWhile_ofNat, ofNat_ne_nil, if_false, value_ofNat, if_true, Option.some.injEq]
    omega
  · rw [ofInt, if_neg hz]
    simp only [readSign_ofNat, takeWhile_ofNat, ofNat_ne_nil, if_false, value_ofNat, Bool.false_eq_true, Option.some.injEq]
    omega

/-! ### The characters of `%g` -/

/-- Leading zeros count for nothing. -/
theorem value_padded (width n : ℕ) : value (padded width n) = n := by
  have hzeros : ∀ k, (List.replicate k (48 : UInt8)).foldl (fun v b => 10 * v + (b.toNat - 48)) 0 = 0 := by
    intro k
    induction k with
    | zero => rfl
    | succ k ih => rwa [List.replicate_succ, List.foldl_cons]
  unfold padded value
  rw [List.foldl_append, hzeros]
  exact value_ofNat n

/-- A number below `10 ^ k` has at most `k` digits. -/
theorem length_ofNat_le {k : ℕ} (hk : 0 < k) (hn : n < 10 ^ k) : (ofNat n).length ≤ k := by
  unfold ofNat
  split
  · exact hk
  · rw [List.length_map, List.length_reverse]
    exact (Nat.digits_length_le_iff (by decide) n).2 hn

/-- A numeral that fits has the width it is padded to. -/
theorem length_padded {width : ℕ} (h : (ofNat n).length ≤ width) : (padded width n).length = width := by
  rw [padded, List.length_append, List.length_replicate, Nat.sub_add_cancel h]

/-- Padding is made of digits too. -/
theorem isDigit_of_mem_padded {width : ℕ} (hb : b ∈ padded width n) : isDigit b = true := by
  rcases List.mem_append.1 hb with hb | hb
  · rw [List.eq_of_mem_replicate hb]
    rfl
  · exact isDigit_of_mem_ofNat hb

/-- `%f` prints digits and a point. -/
theorem isNumeric_of_mem_fixed {digits : ℕ} {q : ℚ} (hb : b ∈ fixed digits q) : isNumeric b = true := by
  rcases List.mem_append.1 hb with hb | hb
  · exact isNumeric_of_isDigit (isDigit_of_mem_ofNat hb)
  · rcases List.mem_cons.1 hb with rfl | hb
    · rfl
    · exact isNumeric_of_isDigit (isDigit_of_mem_padded hb)

/-- A fraction is made of numeric characters. -/
theorem isNumeric_of_mem_fraction {digits : List UInt8} (h : ∀ b ∈ digits, isDigit b = true) (hb : b ∈ fraction digits) :
    isNumeric b = true := by
  simp only [fraction] at hb
  split at hb
  · nomatch hb
  · rcases List.mem_cons.1 hb with rfl | hb
    · rfl
    · exact isNumeric_of_isDigit (h b ((List.rdropWhile_prefix _ _).subset hb))

/-- `%g` prints digits, a point and an exponent. -/
theorem isNumeric_of_mem_general {precision : ℕ} {q : ℚ} (hb : b ∈ general precision q) : isNumeric b = true := by
  unfold general at hb
  split at hb
  · rw [List.mem_singleton.1 hb]
    rfl
  · have hdigits : ∀ {m : ℕ}, ∀ b ∈ ofNat m, isDigit b = true := fun b hb => isDigit_of_mem_ofNat hb
    simp only at hb
    split at hb
    · rcases List.mem_append.1 hb with hb | hb
      · rcases List.mem_append.1 hb with hb | hb
        · exact isNumeric_of_isDigit (hdigits b (List.mem_of_mem_take hb))
        · exact isNumeric_of_mem_fraction (fun b hb => hdigits b (List.mem_of_mem_drop hb)) hb
      · rcases List.mem_cons.1 hb with rfl | hb
        · rfl
        · rcases List.mem_cons.1 hb with rfl | hb
          · split <;> rfl
          · exact isNumeric_of_isDigit (isDigit_of_mem_padded hb)
    · split at hb
      · rcases List.mem_cons.1 hb with rfl | hb
        · rfl
        · refine isNumeric_of_mem_fraction (fun b hb => ?_) hb
          rcases List.mem_append.1 hb with hb | hb
          · rw [List.eq_of_mem_replicate hb]
            rfl
          · exact hdigits b hb
      · rcases List.mem_append.1 hb with hb | hb
        · exact isNumeric_of_isDigit (hdigits b (List.mem_of_mem_take hb))
        · exact isNumeric_of_mem_fraction (fun b hb => hdigits b (List.mem_of_mem_drop hb)) hb

/-- `%g` prints something. -/
theorem general_ne_nil (precision : ℕ) (q : ℚ) : general precision q ≠ [] := by
  unfold general
  split
  · exact List.cons_ne_nil _ _
  · simp only
    split
    · simp
    · split
      · exact List.cons_ne_nil _ _
      · simp [List.take_eq_nil_iff, ofNat_ne_nil]

end Lemmas

end Decimal
