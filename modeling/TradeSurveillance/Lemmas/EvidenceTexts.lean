import TradeSurveillance.Dashboard.Evidence

/-!
# The texts in an evidence

Which group takes a printed number, and which characters are in none.
-/

namespace TradeSurveillance.Dashboard

open LinePattern

variable {P : Type} [Double P]

/-- A number that is printed without a sign. -/
def Plain (x : P) : Prop := Double.isFinite x = true ∧ Double.signBit x = false

section Delimiters

variable {d : UInt8}

/-- A character that the texts of a kind do not have. -/
theorem not_mem_of_all {p : UInt8 → Bool} {text : Str} (h : (text ≠ [] && text.all p) = true) (hd : p d = false) :
    d ∉ text := by
  intro hmem
  rw [Bool.and_eq_true] at h
  rw [List.all_eq_true.1 h.2 d hmem] at hd
  cases hd

/-- A character of no numeral is in nothing that a group of numerals takes. -/
theorem not_mem_of_signed {text : Str} (hd : Decimal.isNumeric d = false) (h : signed text = true) : d ∉ text := by
  refine not_mem_of_all h ?_
  simp only [Decimal.isNumeric, Bool.or_eq_false_iff] at hd
  rw [hd.1.1.1.1.1, hd.1.1.1.1.2, hd.1.1.2]
  rfl

/-- A character that no numeral has is in no decimal. -/
theorem not_mem_of_decimal {text : Str} (hd : Decimal.isNumeric d = false) (h : decimal text = true) : d ∉ text := by
  refine not_mem_of_all h ?_
  simp only [Decimal.isNumeric, Bool.or_eq_false_iff] at hd
  rw [hd.1.1.1.1.1, hd.1.1.2]
  rfl

/-- Nor in digits. -/
theorem not_mem_of_digits {text : Str} (hd : Decimal.isNumeric d = false) (h : digits text = true) : d ∉ text := by
  refine not_mem_of_all h ?_
  simp only [Decimal.isNumeric, Bool.or_eq_false_iff] at hd
  exact hd.1.1.1.1.1

end Delimiters

/-! ## Integers -/

/-- A natural number is printed in digits. -/
theorem digits_ofNat (n : ℕ) : digits (Decimal.ofNat n) = true := by
  simp only [digits, Bool.and_eq_true, decide_eq_true_eq, List.all_eq_true]
  exact ⟨Decimal.ofNat_ne_nil n, fun b hb => Decimal.isDigit_of_mem_ofNat hb⟩

/-- An integer is printed in digits when it is not negative. -/
theorem digits_ofInt (z : ℤ) : digits (Decimal.ofInt z) = true ↔ 0 ≤ z := by
  unfold Decimal.ofInt
  split
  · rename_i hz
    refine ⟨fun h => absurd h ?_, fun h => absurd hz (not_lt.2 h)⟩
    simp [digits, Decimal.isDigit]
  · rename_i hz
    exact ⟨fun _ => not_lt.1 hz, fun _ => digits_ofNat _⟩

/-- A character that no numeral has is in no printed integer. -/
theorem not_mem_ofInt {d : UInt8} (hd : Decimal.isNumeric d = false) (z : ℤ) : d ∉ Decimal.ofInt z := by
  intro hmem
  rw [Decimal.isNumeric_of_mem_ofInt hmem] at hd
  cases hd

/-- Nor in a printed natural number. -/
theorem not_mem_ofNat {d : UInt8} (hd : Decimal.isNumeric d = false) (n : ℕ) : d ∉ Decimal.ofNat n := by
  intro hmem
  rw [Decimal.isNumeric_of_isDigit (Decimal.isDigit_of_mem_ofNat hmem)] at hd
  cases hd

/-! ## Numbers with a fraction -/

/-- `%f` prints digits and a point. -/
theorem mem_fixed {n : ℕ} {q : ℚ} {b : UInt8} (hb : b ∈ Decimal.fixed n q) : (Decimal.isDigit b || decide (b = 46)) = true := by
  rcases List.mem_append.1 hb with hb | hb
  · rw [Decimal.isDigit_of_mem_ofNat hb]
    rfl
  · rcases List.mem_cons.1 hb with rfl | hb
    · rfl
    · rw [Decimal.isDigit_of_mem_padded hb]
      rfl

/-- A number with fixed decimals is not empty. -/
theorem fixed_ne_nil (n : ℕ) (q : ℚ) : Decimal.fixed n q ≠ [] := List.append_ne_nil_of_right_ne_nil _ (List.cons_ne_nil _ _)

/-- A double is printed as a decimal when it is finite and without sign. -/
theorem decimal_toString (x : P) : decimal (Double.toString x) = true ↔ Plain x := by
  unfold Double.toString Double.sign Plain
  cases Double.signBit x with
  | true => simp [decimal, ascii, Decimal.isDigit]
  | false =>
    cases Double.isFinite x with
    | false => simp [decimal, ascii, Decimal.isDigit]
    | true =>
      simp only [Bool.false_eq_true, if_false, if_true, List.nil_append, and_self, iff_true]
      simp only [decimal, Bool.and_eq_true, decide_eq_true_eq, List.all_eq_true]
      exact ⟨fixed_ne_nil _ _, fun b hb => mem_fixed hb⟩

/-- A double is printed as a signed decimal when it is finite. -/
theorem signed_toString (x : P) : signed (Double.toString x) = true ↔ Double.isFinite x = true := by
  have hfixed : ∀ b ∈ Decimal.fixed 6 (Double.magnitude x), (Decimal.isDigit b || decide (b = 46) || decide (b = 45)) = true := by
    intro b hb
    rw [mem_fixed hb]
    rfl
  unfold Double.toString Double.sign
  cases Double.isFinite x with
  | false => cases Double.signBit x <;> simp [signed, ascii, Decimal.isDigit]
  | true =>
    simp only [if_true, iff_true, signed, Bool.and_eq_true, decide_eq_true_eq, List.all_eq_true]
    cases Double.signBit x with
    | false => exact ⟨fixed_ne_nil _ _, hfixed⟩
    | true =>
      refine ⟨List.append_ne_nil_of_right_ne_nil _ (fixed_ne_nil _ _), fun b hb => ?_⟩
      rcases List.mem_append.1 hb with hb | hb
      · rw [List.mem_singleton.1 hb]
        rfl
      · exact hfixed b hb

/-- A character that neither a numeral nor `inf` has is in no printed double. -/
theorem not_mem_toString {d : UInt8} (hd : Decimal.isNumeric d = false) (hinf : d ∉ ascii "inf") (x : P) : d ∉ Double.toString x := by
  have hnumeric : ∀ b, Decimal.isNumeric b = true → b ≠ d := by
    rintro b hb rfl
    rw [hb] at hd
    cases hd
  intro hmem
  rcases List.mem_append.1 hmem with hmem | hmem
  · unfold Double.sign at hmem
    split at hmem
    · exact hnumeric 45 rfl (List.mem_singleton.1 hmem).symm
    · cases hmem
  · split at hmem
    · exact hnumeric d (Decimal.isNumeric_of_mem_fixed hmem) rfl
    · exact hinf hmem

/-- A space ends a printed number. -/
theorem blank_not_mem (x : P) : (32 : UInt8) ∉ Double.toString x := not_mem_toString rfl (by decide) x

/-! ## Flags -/

/-- A truth value is printed as a flag. -/
theorem flag_text (b : Bool) : flag (if b then ascii "true" else ascii "false") = true := by cases b <;> rfl

/-- There is no blank in a flag. -/
theorem not_mem_of_flag {text : Str} (h : flag text = true) : (32 : UInt8) ∉ text := by
  simp only [flag, Bool.or_eq_true, decide_eq_true_eq] at h
  rcases h with rfl | rfl <;> decide

/-! ## Durations -/

/-- No duration begins in the first text, before the second. -/
def NoDuration (text rest : Str) : Prop :=
  ∀ s, s ≠ [] → s <:+ text → ∀ ns other, digits ns = true → s ++ rest ≠ ns ++ (ascii "ns after" ++ other)

section Durations

variable {text rest : Str} [LinearOrder P] [JsNumber P]

/-- A text without a duration is left as it is. -/
theorem humanize_append (h : NoDuration text rest) :
    humanizeFrontRunningDuration P (text ++ rest) = text ++ humanizeFrontRunningDuration P rest := by
  induction text with
  | nil => rfl
  | cons b text ih =>
    have hrest : NoDuration text rest := fun s hs hsuffix => h s hs (hsuffix.trans (List.suffix_cons b text))
    rw [List.cons_append, humanizeFrontRunningDuration]
    split
    · rename_i ns other hmatch
      obtain ⟨heq, hfits⟩ := matchPieces_eq hmatch
      simp only [durationPattern, fits, Bool.and_true] at hfits
      simp only [durationPattern, fill, List.append_nil] at heq
      exact absurd heq (h (b :: text) (List.cons_ne_nil _ _) List.suffix_rfl ns other hfits)
    · rw [ih hrest, List.cons_append]

/-- The first duration is written anew. -/
theorem humanize_duration {ns : Str} (hns : digits ns = true) :
    humanizeFrontRunningDuration P (ns ++ (ascii "ns after" ++ rest)) = formatDuration (parseInt ns : P) ++ ascii " after" ++ rest := by
  have hdelimited : Delimited durationPattern [ns, rest] :=
    .before 110 rfl (not_mem_of_digits rfl hns) (fun _ => not_mem_of_digits rfl) (.last _ _)
  have hmatch := matchPieces_fill hdelimited
  have hfits : fits durationPattern [ns, rest] = true := by simp [durationPattern, fits, hns]
  rw [if_pos hfits] at hmatch
  simp only [durationPattern, fill, List.append_nil] at hmatch
  cases ns with
  | nil => cases hns
  | cons b ns =>
    rw [List.cons_append] at hmatch ⊢
    rw [humanizeFrontRunningDuration, durationPattern, hmatch]

/-- No duration begins where there are no digits. -/
theorem noDuration_of_no_digit (h : ∀ b ∈ text, Decimal.isDigit b = false) : NoDuration text rest := by
  intro s hs hsuffix ns other hns heq
  cases s with
  | nil => exact hs rfl
  | cons b s =>
    cases ns with
    | nil => cases hns
    | cons b' ns =>
      obtain rfl : b = b' := (List.cons.inj heq).1
      simp only [digits, List.all_cons, Bool.and_eq_true] at hns
      rw [h b (hsuffix.subset List.mem_cons_self)] at hns
      cases hns.2.1

/-- The characters of a duration are not those of a text without an `n` that ends with neither. -/
theorem noDuration_of_not_mem {d : UInt8} (htext : (110 : UInt8) ∉ text) (hd : Decimal.isDigit d = false) (hn : d ≠ 110) :
    NoDuration text (d :: rest) := by
  intro s hs hsuffix ns other hns heq
  have hmem : (110 : UInt8) ∉ s := fun h => htext (hsuffix.subset h)
  have hall : d ∉ ns := not_mem_of_all hns hd
  rcases List.append_eq_append_iff.1 heq with ⟨a, rfl, ha⟩ | ⟨c, rfl, hc⟩
  · cases a with
    | nil => exact hn (List.cons.inj ha).1
    | cons b a =>
      obtain rfl : d = b := (List.cons.inj ha).1
      exact hall (List.mem_append_right _ List.mem_cons_self)
  · cases c with
    | nil => exact hn (List.cons.inj hc).1.symm
    | cons b c =>
      have hb : (110 : UInt8) = b := (List.cons.inj hc).1
      exact hmem (List.mem_append_right _ (hb ▸ List.mem_cons_self))

/-- A text that does not hold `ns after` has no duration, before a space and a character that is not one of these. -/
theorem noDuration_of_not_infix {d : UInt8} (htext : ¬ ascii "ns after" <:+: text) (hd : d ∉ ascii "ns after") :
    NoDuration text (32 :: d :: rest) := by
  intro s hs hsuffix ns other hns heq
  have hall : (32 : UInt8) ∉ ns := not_mem_of_all hns rfl
  rcases List.append_eq_append_iff.1 heq with ⟨a, rfl, ha⟩ | ⟨c, rfl, hc⟩
  · cases a with
    | nil => exact absurd (List.cons.inj ha).1 (by decide)
    | cons b a =>
      obtain rfl : (32 : UInt8) = b := (List.cons.inj ha).1
      exact hall (List.mem_append_right _ List.mem_cons_self)
  · rcases List.append_eq_append_iff.1 hc with ⟨a, ha, -⟩ | ⟨c', ha, hc'⟩
    · -- `ns after` would be in the text
      exact htext (.trans ⟨ns, a, by rw [ha, List.append_assoc]⟩ hsuffix.isInfix)
    · -- `ns after` would end behind the text
      cases c' with
      | nil =>
        rw [List.append_nil] at ha
        exact htext (.trans ⟨ns, [], by rw [ha, List.append_nil]⟩ hsuffix.isInfix)
      | cons b c' =>
        obtain ⟨rfl, htail⟩ := List.cons.inj hc'
        cases c' with
        | nil =>
          have hlast := congrArg List.getLast? ha
          rw [List.getLast?_append_of_ne_nil _ (List.cons_ne_nil _ _)] at hlast
          cases hlast
        | cons b c' =>
          obtain rfl : d = b := (List.cons.inj htail).1
          rw [ha] at hd
          exact hd (List.mem_append_right _ (List.mem_cons_of_mem _ List.mem_cons_self))

end Durations

end TradeSurveillance.Dashboard
