import TradeSurveillance.Lib.Decimal
import TradeSurveillance.Lib.JsonString

/-!
# The strings and numbers of JSON

The grammar of the text between the quotes of a string and of a number, on bytes: whether the bytes from 128 on are UTF-8 is not asked.
-/

namespace JsonGrammar

open Decimal (isDigit)

variable {text : List UInt8}

/-! ## Strings -/

/-- A hexadecimal digit. -/
def isHexDigit (b : UInt8) : Bool := isDigit b || 65 ≤ b && b ≤ 70 || 97 ≤ b && b ≤ 102

/-- The letters that stand behind a backslash. -/
def escapeLetters : List UInt8 := [34, 92, 47, 98, 102, 110, 114, 116]

/-- The text between the quotes of a string. -/
inductive Body : List UInt8 → Prop where
  | nil : Body []
  | char (b : UInt8) (rest : List UInt8) (hcontrol : 32 ≤ b) (hquote : b ≠ 34) (hbackslash : b ≠ 92) (hrest : Body rest) :
      Body (b :: rest)
  | escape (b : UInt8) (rest : List UInt8) (hletter : b ∈ escapeLetters) (hrest : Body rest) : Body (92 :: b :: rest)
  | unicode (digits rest : List UInt8) (hlength : digits.length = 4) (hdigits : ∀ b ∈ digits, isHexDigit b = true)
      (hrest : Body rest) : Body (92 :: 117 :: (digits ++ rest))

/-- A hexadecimal digit is neither a quote nor a backslash. -/
theorem not_special_of_isHexDigit {b : UInt8} (h : isHexDigit b = true) : b ≠ 34 ∧ b ≠ 92 := by
  constructor
  · rintro rfl
    exact absurd h (by decide)
  · rintro rfl
    exact absurd h (by decide)

/-- A quote ends it. -/
theorem Body.isBody {body : List UInt8} (h : Body body) : JsonString.IsBody body := by
  induction h with
  | nil => exact JsonString.isBody_nil
  | char b rest _ hquote hbackslash _ ih => exact ih.cons hquote hbackslash
  | escape b rest hletter _ ih =>
    by_cases hknown : b = 34 ∨ b = 92 ∨ b = 110
    · exact ih.escape hknown
    · simp only [not_or] at hknown
      exact (ih.cons hknown.1 hknown.2.1).backslash hknown.1 hknown.2.1 hknown.2.2
  | unicode digits rest _ hdigits _ ih =>
    have hall : ∀ (ds : List UInt8) {rest : List UInt8}, (∀ b ∈ ds, isHexDigit b = true) → JsonString.IsBody rest →
        JsonString.IsBody (ds ++ rest) := by
      intro ds rest hds hrest
      induction ds with
      | nil => exact hrest
      | cons d ds ihds =>
        obtain ⟨hquote, hbackslash⟩ := not_special_of_isHexDigit (hds d List.mem_cons_self)
        exact (ihds fun b hb => hds b (List.mem_cons_of_mem _ hb)).cons hquote hbackslash
    exact ((hall digits hdigits ih).cons (by decide) (by decide)).backslash (by decide) (by decide) (by decide)

/-- What a letter behind a backslash stands for, if it is not the `u` of a code unit. -/
def escaped (letter : UInt8) : UInt8 :=
  if letter = 98 then 8 else if letter = 102 then 12 else if letter = 110 then 10 else if letter = 114 then 13
  else if letter = 116 then 9 else letter

/-- The number of a hexadecimal digit. -/
def hexValue (b : UInt8) : ℕ := if isDigit b then b.toNat - 48 else if b ≤ 70 then b.toNat - 55 else b.toNat - 87

/-- The bytes and the code units of UTF-16 that the text between quotes is made of. -/
def units : List UInt8 → List (UInt8 ⊕ ℕ)
  | [] => []
  | b :: text =>
    if b = 92 then
      match text with
      | [] => [.inl b]
      | letter :: text =>
        if letter = 117 then
          match text with
          | d₁ :: d₂ :: d₃ :: d₄ :: text => .inr ([d₁, d₂, d₃, d₄].foldl (fun n d => 16 * n + hexValue d) 0) :: units text
          | text => text.map .inl
        else .inl (escaped letter) :: units text
    else .inl b :: units text

/-- The UTF-8 of a code point; a surrogate alone is no character, and is replaced by U+FFFD. -/
def utf8 (n : ℕ) : List UInt8 := String.utf8EncodeChar (Char.ofNat (if n.isValidChar then n else 65533))

/-- The bytes of a text of bytes and code units. A high and a low surrogate are one code point. -/
def bytes : List (UInt8 ⊕ ℕ) → List UInt8
  | [] => []
  | .inl b :: text => b :: bytes text
  | .inr high :: .inr low :: text =>
    if (55296 ≤ high ∧ high < 56320) ∧ 56320 ≤ low ∧ low < 57344 then
      utf8 (65536 + (high - 55296) * 1024 + (low - 56320)) ++ bytes text
    else utf8 high ++ bytes (.inr low :: text)
  | .inr unit :: text => utf8 unit ++ bytes text

/-- The string that the text between two quotes stands for. -/
def decode (body : List UInt8) : List UInt8 := bytes (units body)

/-- Text without a backslash stands for itself. -/
theorem decode_of_not_mem {body : List UInt8} (h : 92 ∉ body) : decode body = body := by
  unfold decode
  induction body with
  | nil => rfl
  | cons b body ih =>
    obtain ⟨hb, hbody⟩ := List.ne_and_not_mem_of_not_mem_cons h
    rw [units.eq_def]
    simp only
    rw [if_neg hb.symm, bytes, ih hbody]

/-! ## Numbers -/

/-- One digit or more. -/
def Digits (text : List UInt8) : Prop := text ≠ [] ∧ ∀ b ∈ text, isDigit b = true

/-- An integer literal: a sign or none, and digits without a leading zero. -/
structure IntLiteral (text : List UInt8) (negative : Bool) (digits : List UInt8) : Prop where
  eq : text = (if negative then [45] else []) ++ digits
  isDigits : Digits digits
  leading : digits.head? = some 48 → digits = [48]

/-- The literal of an integer. -/
def IsInt (text : List UInt8) (z : ℤ) : Prop :=
  ∃ negative digits, IntLiteral text negative digits ∧ z = if negative then -(Decimal.value digits : ℤ) else Decimal.value digits

/-- A fraction, or none. -/
def IsFraction (text : List UInt8) : Prop := text = [] ∨ ∃ digits, Digits digits ∧ text = 46 :: digits

/-- An exponent, or none. -/
def IsExponent (text : List UInt8) : Prop :=
  text = [] ∨ ∃ e ∈ [101, 69], ∃ sign ∈ [[], [43], [45]], ∃ digits, Digits digits ∧ text = e :: (sign ++ digits)

/-- A number. -/
def IsNumber (text : List UInt8) : Prop :=
  ∃ z int fraction exponent, IsInt int z ∧ IsFraction fraction ∧ IsExponent exponent ∧ text = int ++ fraction ++ exponent

/-- Digits are numeric. -/
theorem Digits.isNumeric (h : Digits text) : ∀ b ∈ text, Decimal.isNumeric b = true :=
  fun b hb => Decimal.isNumeric_of_isDigit (h.2 b hb)

/-- An integer literal is numeric and not empty. -/
theorem IntLiteral.isNumeric {negative : Bool} {digits : List UInt8} (h : IntLiteral text negative digits) :
    text ≠ [] ∧ ∀ b ∈ text, Decimal.isNumeric b = true := by
  rw [h.eq]
  refine ⟨by simp [h.isDigits.1], ?_⟩
  intro b hb
  rcases List.mem_append.1 hb with hb | hb
  · cases negative with
    | false => exact absurd hb List.not_mem_nil
    | true =>
      rw [List.mem_singleton.1 hb]
      rfl
  · exact h.isDigits.isNumeric b hb

/-- A number is made of the characters of numerals. -/
theorem IsNumber.isNumeric (h : IsNumber text) : text ≠ [] ∧ ∀ b ∈ text, Decimal.isNumeric b = true := by
  obtain ⟨z, int, fraction, exponent, ⟨negative, digits, hint, -⟩, hfraction, hexponent, rfl⟩ := h
  refine ⟨by simp [hint.isNumeric.1], ?_⟩
  intro b hb
  rcases List.mem_append.1 hb with hb | hb
  · rcases List.mem_append.1 hb with hb | hb
    · exact hint.isNumeric.2 b hb
    · rcases hfraction with rfl | ⟨digits, hdigits, rfl⟩
      · exact absurd hb List.not_mem_nil
      · rcases List.mem_cons.1 hb with rfl | hb
        · rfl
        · exact hdigits.isNumeric b hb
  · rcases hexponent with rfl | ⟨e, he, sign, hsign, digits, hdigits, rfl⟩
    · exact absurd hb List.not_mem_nil
    · rcases List.mem_cons.1 hb with rfl | hb
      · rcases List.mem_pair.1 he with rfl | rfl <;> rfl
      · rcases List.mem_append.1 hb with hb | hb
        · simp only [List.mem_cons, List.not_mem_nil, or_false] at hsign
          rcases hsign with rfl | rfl | rfl
          · exact absurd hb List.not_mem_nil
          · rw [List.mem_singleton.1 hb]
            rfl
          · rw [List.mem_singleton.1 hb]
            rfl
        · exact hdigits.isNumeric b hb

/-- An integer literal is read as its integer. -/
theorem IsInt.readInt {z : ℤ} (h : IsInt text z) : Decimal.readInt text = some z := by
  obtain ⟨negative, digits, hliteral, rfl⟩ := h
  have hspace := Decimal.dropWhile_isSpace_of_isNumeric hliteral.isNumeric.2
  have htake : digits.takeWhile isDigit = digits := List.takeWhile_eq_self_iff.2 hliteral.isDigits.2
  have hsign : Decimal.readSign text = (negative, digits) := by
    rw [hliteral.eq]
    cases negative with
    | true => rfl
    | false =>
      cases digits with
      | nil => exact absurd rfl hliteral.isDigits.1
      | cons d digits =>
        have hd := hliteral.isDigits.2 d List.mem_cons_self
        show Decimal.readSign (d :: digits) = _
        unfold Decimal.readSign
        split
        · rename_i heq
          rw [(List.cons.inj heq).1] at hd
          exact absurd hd (by decide)
        · rename_i heq
          rw [(List.cons.inj heq).1] at hd
          exact absurd hd (by decide)
        · rfl
  unfold Decimal.readInt
  rw [hspace, hsign]
  simp only [htake, hliteral.isDigits.1, if_false]

/-- A literal is that of one integer. -/
theorem IsInt.unique {z z' : ℤ} (h : IsInt text z) (h' : IsInt text z') : z = z' := by
  have hread := h.readInt
  rw [h'.readInt] at hread
  exact (Option.some.inj hread).symm

/-! ## Printed numbers -/

section Printed

variable {digits : List UInt8}

/-- A natural number is printed in digits. -/
theorem digits_ofNat (n : ℕ) : Digits (Decimal.ofNat n) := ⟨Decimal.ofNat_ne_nil n, fun _ => Decimal.isDigit_of_mem_ofNat⟩

/-- So is a padded one. -/
theorem digits_padded (width n : ℕ) : Digits (Decimal.padded width n) := by
  refine ⟨by simp [Decimal.padded, Decimal.ofNat_ne_nil], fun b hb => ?_⟩
  rcases List.mem_append.1 hb with hb | hb
  · rw [List.eq_of_mem_replicate hb]
    rfl
  · exact Decimal.isDigit_of_mem_ofNat hb

/-- A numeral has no leading zero. -/
theorem leading_ofNat (n : ℕ) (h : (Decimal.ofNat n).head? = some 48) : Decimal.ofNat n = [48] := by
  unfold Decimal.ofNat at h ⊢
  split at h
  · rename_i hn
    rw [if_pos hn]
  · rename_i hn
    have hne : Nat.digits 10 n ≠ [] := Nat.digits_ne_nil_iff_ne_zero.2 hn
    have hlast := Nat.getLast_digit_ne_zero 10 hn
    have hlt : (Nat.digits 10 n).getLast hne < 10 := Nat.digits_lt_base (by decide) (List.getLast_mem hne)
    rw [List.head?_map, List.head?_reverse, List.getLast?_eq_some_getLast hne, Option.map_some] at h
    have hnat := congrArg UInt8.toNat (Option.some.inj h)
    rw [Decimal.digit_toNat hlt] at hnat
    exact absurd (show _ = 0 by simpa using hnat) hlast

/-- What `%g` prints behind the point is a fraction. -/
theorem isFraction_fraction (h : ∀ b ∈ digits, isDigit b = true) : IsFraction (Decimal.fraction digits) := by
  unfold Decimal.fraction
  simp only
  split_ifs with hnil
  · exact .inl rfl
  · exact .inr ⟨_, ⟨hnil, fun b hb => h b ((List.rdropWhile_prefix _ _).subset hb)⟩, rfl⟩

/-- `%g` prints digits without a leading zero, a fraction or none and an exponent or none. -/
theorem general_parts (precision : ℕ) (q : ℚ) : ∃ digits fraction exponent, Decimal.general precision q = digits ++ fraction ++ exponent ∧
    Digits digits ∧ (digits.head? = some 48 → digits = [48]) ∧ IsFraction fraction ∧ IsExponent exponent := by
  have hzero : Digits [48] := ⟨List.cons_ne_nil _ _, List.forall_mem_singleton.2 rfl⟩
  unfold Decimal.general
  split_ifs with hq
  · exact ⟨[48], [], [], rfl, hzero, fun _ => rfl, .inl rfl, .inl rfl⟩
  · generalize Decimal.significant precision q = p
    obtain ⟨m, x⟩ := p
    have hdigits := digits_ofNat m
    have htake : ∀ k, Digits ((Decimal.ofNat m).take (k + 1)) := by
      intro k
      refine ⟨by simp [hdigits.1], fun b hb => hdigits.2 b (List.mem_of_mem_take hb)⟩
    have hleading : ∀ k, ((Decimal.ofNat m).take (k + 1)).head? = some 48 → (Decimal.ofNat m).take (k + 1) = [48] := by
      intro k h
      rw [List.head?_take, if_neg (Nat.succ_ne_zero k)] at h
      rw [leading_ofNat m h, List.take_succ_cons, List.take_nil]
    have hdrop : ∀ k, IsFraction (Decimal.fraction ((Decimal.ofNat m).drop k)) := fun k =>
      isFraction_fraction fun b hb => hdigits.2 b (List.mem_of_mem_drop hb)
    simp only
    split_ifs with hexponent hnegative hneg
    · exact ⟨_, _, _, rfl, htake 0, hleading 0, hdrop 1, .inr ⟨101, by decide, [45], by decide, _, digits_padded 2 _, rfl⟩⟩
    · exact ⟨_, _, _, rfl, htake 0, hleading 0, hdrop 1, .inr ⟨101, by decide, [43], by decide, _, digits_padded 2 _, rfl⟩⟩
    · refine ⟨[48], _, [], (List.append_nil _).symm, hzero, fun _ => rfl, isFraction_fraction fun b hb => ?_, .inl rfl⟩
      rcases List.mem_append.1 hb with hb | hb
      · rw [List.eq_of_mem_replicate hb]
        rfl
      · exact hdigits.2 b hb
    · exact ⟨_, _, [], (List.append_nil _).symm, htake _, hleading _, hdrop _, .inl rfl⟩

/-- What `%g` prints is a number, with a minus sign before it or without. -/
theorem isNumber_general (negative : Bool) (precision : ℕ) (q : ℚ) :
    IsNumber ((if negative then [45] else []) ++ Decimal.general precision q) := by
  obtain ⟨digits, fraction, exponent, heq, hdigits, hleading, hfraction, hexponent⟩ := general_parts precision q
  refine ⟨_, (if negative then [45] else []) ++ digits, fraction, exponent,
    ⟨negative, digits, ⟨rfl, hdigits, hleading⟩, rfl⟩, hfraction, hexponent, ?_⟩
  rw [heq]
  simp only [List.append_assoc]

/-- A natural number is printed as a number of JSON. -/
theorem isNumber_ofNat (n : ℕ) : IsNumber (Decimal.ofNat n) := by
  refine ⟨_, Decimal.ofNat n, [], [], ⟨false, _, ⟨rfl, digits_ofNat n, leading_ofNat n⟩, rfl⟩, .inl rfl, .inl rfl, ?_⟩
  simp only [List.append_nil]

/-- So is an integer. -/
theorem isNumber_ofInt (z : ℤ) : IsNumber (Decimal.ofInt z) := by
  unfold Decimal.ofInt
  split
  · refine ⟨_, 45 :: Decimal.ofNat z.natAbs, [], [], ⟨true, _, ⟨rfl, digits_ofNat _, leading_ofNat _⟩, rfl⟩, .inl rfl, .inl rfl, ?_⟩
    simp only [List.append_nil]
  · exact isNumber_ofNat _

/-- What `%f` prints is a number, with a minus sign before it or without. -/
theorem isNumber_fixed (negative : Bool) (digits : ℕ) (q : ℚ) :
    IsNumber ((if negative then [45] else []) ++ Decimal.fixed digits q) := by
  generalize hn : Decimal.nearest (q * 10 ^ digits) = n
  refine ⟨_, (if negative then [45] else []) ++ Decimal.ofNat (n / 10 ^ digits), 46 :: Decimal.padded digits (n % 10 ^ digits), [],
    ⟨negative, _, ⟨rfl, digits_ofNat _, leading_ofNat _⟩, rfl⟩, .inr ⟨_, digits_padded _ _, rfl⟩, .inl rfl, ?_⟩
  simp only [Decimal.fixed, hn, List.append_assoc, List.append_nil]

end Printed

end JsonGrammar
