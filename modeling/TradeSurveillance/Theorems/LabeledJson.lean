import TradeSurveillance.Simulator.Serialization.JsonWriter
import TradeSurveillance.Theorems.CodecRoundTrip

/-!
# The labelled dataset as JSON

`parseLabeledJson_toLabeledJson`: what the writer prints, the parser reads back. The writer's text is that of a tree of values
(`JsonValue.text`), the parser undoes the text of any tree whose numbers are numerals, and the fields are found in the tree.
-/

namespace TradeSurveillance.Simulator

/-! ## The text of a value -/

mutual

/-- The text of a value, with no white space. -/
def JsonValue.text : JsonValue → Str
  | .string value => 34 :: (escapeJson value ++ [34])
  | .number digits => digits
  | .object members => 123 :: (membersText members ++ [125])
  | .array items => 91 :: (itemsText items ++ [93])

/-- The text of the members of an object. -/
def membersText : List (Str × JsonValue) → Str
  | [] => []
  | [(key, value)] => 34 :: (escapeJson key ++ 34 :: 58 :: value.text)
  | (key, value) :: m :: members => 34 :: (escapeJson key ++ 34 :: 58 :: (value.text ++ 44 :: membersText (m :: members)))

/-- The text of the items of an array. -/
def itemsText : List JsonValue → Str
  | [] => []
  | [value] => value.text
  | value :: v :: items => value.text ++ 44 :: itemsText (v :: items)

end

mutual

/-- The numbers in a value are numerals. -/
def JsonValue.WellFormed : JsonValue → Prop
  | .string _ => True
  | .number digits => digits ≠ [] ∧ ∀ b ∈ digits, Decimal.isNumeric b = true
  | .object members => MembersWellFormed members
  | .array items => ItemsWellFormed items

def MembersWellFormed : List (Str × JsonValue) → Prop
  | [] => True
  | (_, value) :: members => value.WellFormed ∧ MembersWellFormed members

def ItemsWellFormed : List JsonValue → Prop
  | [] => True
  | value :: items => value.WellFormed ∧ ItemsWellFormed items

end

/-- A number before this text ends where the text begins. -/
def EndsNumber (text : Str) : Prop := ∀ b ∈ text.head?, Decimal.isNumeric b = false

/-- The first character of a value is no white space and closes nothing. -/
theorem JsonValue.text_head {v : JsonValue} (hv : v.WellFormed) :
    ∃ b text, v.text = b :: text ∧ Decimal.isSpace b = false ∧ b ≠ 93 := by
  cases v with
  | string value => exact ⟨_, _, rfl, rfl, by decide⟩
  | object members => exact ⟨_, _, rfl, rfl, by decide⟩
  | array items => exact ⟨_, _, rfl, rfl, by decide⟩
  | number digits =>
    obtain ⟨hne, hd⟩ := hv
    cases digits with
    | nil => exact absurd rfl hne
    | cons b digits =>
      have hb := hd b List.mem_cons_self
      refine ⟨b, digits, rfl, Decimal.not_isSpace_of_isNumeric hb, ?_⟩
      rintro rfl
      exact absurd hb (by decide)

/-! ## The parser -/

namespace JsonParser

variable {c : UInt8} {rest : Str}

/-- No white space is skipped where there is none. -/
theorem skipWs_cons (hc : Decimal.isSpace c = false) : skipWs (c :: rest) = c :: rest :=
  List.dropWhile_cons_of_neg (by simp [hc])

/-- `peek` shows a character that is no white space. -/
theorem peek_cons (hc : Decimal.isSpace c = false) : peek (c :: rest) = .ok (c, c :: rest) := by
  rw [peek, skipWs_cons hc]

/-- `expect` takes the character it waits for. -/
theorem expect_cons (hc : Decimal.isSpace c = false) : expect c (c :: rest) = .ok rest := by
  rw [expect, peek_cons hc]
  simp [bind, Except.bind]

/-- A quoted string. -/
theorem parseRawString_escape (s : Str) : parseRawString (34 :: (escapeJson s ++ 34 :: rest)) = .ok (s, rest) := by
  rw [parseRawString, expect_cons (c := 34) rfl]
  simp only [bind, Except.bind]
  have hs : JsonString.unescape (escapeJson s ++ 34 :: rest) = (s, 34 :: rest) := JsonString.unescape_escape s rest
  rw [hs]
  simp only
  rw [expect_cons (c := 34) rfl]

/-- A number, with something behind it that is none. -/
theorem parseNumber_append {digits : Str} (hne : digits ≠ []) (hd : ∀ b ∈ digits, Decimal.isNumeric b = true)
    (hrest : EndsNumber rest) : parseNumber (digits ++ rest) = .ok (.number digits, rest) := by
  have hskip : skipWs (digits ++ rest) = digits ++ rest := by
    cases digits with
    | nil => exact absurd rfl hne
    | cons b digits => exact skipWs_cons (Decimal.not_isSpace_of_isNumeric (hd b List.mem_cons_self))
  have htail : rest.takeWhile Decimal.isNumeric = [] ∧ rest.dropWhile Decimal.isNumeric = rest := by
    cases rest with
    | nil => exact ⟨rfl, rfl⟩
    | cons b rest =>
      have hb : Decimal.isNumeric b = false := hrest b rfl
      exact ⟨List.takeWhile_cons_of_neg (by simp [hb]), List.dropWhile_cons_of_neg (by simp [hb])⟩
  have htake : (digits ++ rest).takeWhile Decimal.isNumeric = digits := by
    rw [List.takeWhile_append_of_pos hd, htail.1, List.append_nil]
  have hdrop : (digits ++ rest).dropWhile Decimal.isNumeric = rest := by
    rw [List.dropWhile_append_of_pos hd, htail.2]
  simp only [parseNumber, hskip, htake, hdrop, hne, if_false]

/-- A number ends at a character that no numeral has. -/
theorem endsNumber_cons (hc : Decimal.isNumeric c = false) : EndsNumber (c :: rest) := by
  intro b hb
  cases hb
  exact hc

mutual

/-- A value. -/
theorem parseValue_text (v : JsonValue) (hv : v.WellFormed) (fuel : ℕ) (hfuel : v.text.length ≤ fuel) (rest : Str)
    (hrest : EndsNumber rest) : parseValue fuel (v.text ++ rest) = .ok (v, rest) := by
  obtain ⟨b, text, htext, hspace, -⟩ := v.text_head hv
  obtain ⟨fuel, rfl⟩ : ∃ n, fuel = n + 1 := ⟨fuel - 1, by rw [htext] at hfuel; simp at hfuel; omega⟩
  match v with
  | .string value =>
    rw [JsonValue.text, List.cons_append, List.append_assoc, parseValue, peek_cons (c := 34) rfl]
    simp only [bind, Except.bind, if_true]
    rw [List.singleton_append, parseRawString_escape]
  | .number digits =>
    obtain ⟨hne, hd⟩ := hv
    have hb : Decimal.isNumeric b = true := hd b (by rw [JsonValue.text] at htext; simp [htext])
    have hb' : b ≠ 34 ∧ b ≠ 123 ∧ b ≠ 91 := by
      refine ⟨?_, ?_, ?_⟩ <;> rintro rfl <;> exact absurd hb (by decide)
    rw [htext, List.cons_append, parseValue, peek_cons hspace]
    simp only [bind, Except.bind, hb'.1, hb'.2.1, hb'.2.2, if_false]
    rw [← List.cons_append, ← htext, JsonValue.text, parseNumber_append hne hd hrest]
  | .object members =>
    rw [JsonValue.text, List.cons_append, List.append_assoc, parseValue, peek_cons (c := 123) rfl]
    simp only [bind, Except.bind]
    rw [if_neg (by decide), if_pos trivial, expect_cons (c := 123) rfl]
    simp only
    rcases members with _ | ⟨⟨key, value⟩, members⟩
    · rw [membersText, List.nil_append, List.singleton_append, peek_cons (c := 125) rfl]
      rfl
    · have hlen : (membersText ((key, value) :: members)).length ≤ fuel := by
        rw [JsonValue.text, List.length_cons, List.length_append] at hfuel
        omega
      have hparse := parseMembers_text ((key, value) :: members) (List.cons_ne_nil _ _) hv fuel hlen rest
      obtain ⟨text, htext⟩ : ∃ text, membersText ((key, value) :: members) = 34 :: text := by
        cases members <;> exact ⟨_, rfl⟩
      rw [List.singleton_append]
      rw [htext, List.cons_append] at hparse ⊢
      rw [peek_cons (c := 34) rfl]
      simp only
      rw [if_neg (by decide), hparse]
      simp only
      rw [expect_cons (c := 125) rfl]
  | .array items =>
    rw [JsonValue.text, List.cons_append, List.append_assoc, parseValue, peek_cons (c := 91) rfl]
    simp only [bind, Except.bind]
    rw [if_neg (by decide), if_neg (by decide), if_pos trivial, expect_cons (c := 91) rfl]
    simp only
    rcases items with _ | ⟨value, items⟩
    · rw [itemsText, List.nil_append, List.singleton_append, peek_cons (c := 93) rfl]
      rfl
    · have hlen : (itemsText (value :: items)).length < fuel := by
        rw [JsonValue.text, List.length_cons, List.length_append, List.length_singleton] at hfuel
        omega
      have hparse := parseItems_text (value :: items) (List.cons_ne_nil _ _) hv fuel hlen rest
      obtain ⟨b, text, hvalue, hspace, hb⟩ := value.text_head hv.1
      obtain ⟨text, htext⟩ : ∃ text, itemsText (value :: items) = b :: text := by
        cases items with
        | nil => exact ⟨text, by rw [itemsText, hvalue]⟩
        | cons v items => exact ⟨_, by rw [itemsText, hvalue, List.cons_append]⟩
      rw [List.singleton_append]
      rw [htext, List.cons_append] at hparse ⊢
      rw [peek_cons hspace]
      simp only
      rw [if_neg hb, hparse]
      simp only
      rw [expect_cons (c := 93) rfl]

/-- The members of an object. -/
theorem parseMembers_text (members : List (Str × JsonValue)) (hne : members ≠ []) (hm : MembersWellFormed members) (fuel : ℕ)
    (hfuel : (membersText members).length ≤ fuel) (rest : Str) :
    parseMembers fuel (membersText members ++ 125 :: rest) = .ok (members, 125 :: rest) := by
  match members with
  | [] => exact absurd rfl hne
  | [(key, value)] =>
    rw [membersText, List.length_cons, List.length_append, List.length_cons, List.length_cons] at hfuel
    obtain ⟨fuel, rfl⟩ : ∃ n, fuel = n + 1 := ⟨fuel - 1, by omega⟩
    rw [membersText, List.cons_append, List.append_assoc, List.cons_append, List.cons_append, parseMembers,
      skipWs_cons (c := 34) rfl, parseRawString_escape]
    simp only [bind, Except.bind]
    rw [skipWs_cons (c := 58) rfl, expect_cons (c := 58) rfl]
    simp only
    rw [parseValue_text value hm.1 fuel (by omega) _ (endsNumber_cons rfl)]
    simp only
    rw [skipWs_cons (c := 125) rfl, peek_cons (c := 125) rfl]
    simp
  | (key, value) :: m :: members =>
    rw [membersText, List.length_cons, List.length_append, List.length_cons, List.length_cons, List.length_append,
      List.length_cons] at hfuel
    obtain ⟨fuel, rfl⟩ : ∃ n, fuel = n + 1 := ⟨fuel - 1, by omega⟩
    rw [membersText, List.cons_append, List.append_assoc, List.cons_append, List.cons_append, List.append_assoc,
      List.cons_append, parseMembers, skipWs_cons (c := 34) rfl, parseRawString_escape]
    simp only [bind, Except.bind]
    rw [skipWs_cons (c := 58) rfl, expect_cons (c := 58) rfl]
    simp only
    rw [parseValue_text value hm.1 fuel (by omega) _ (endsNumber_cons rfl)]
    simp only
    rw [skipWs_cons (c := 44) rfl, peek_cons (c := 44) rfl]
    simp only [if_true, List.tail_cons]
    rw [parseMembers_text (m :: members) (List.cons_ne_nil _ _) hm.2 fuel (by omega) rest]

/-- The items of an array. -/
theorem parseItems_text (items : List JsonValue) (hne : items ≠ []) (hi : ItemsWellFormed items) (fuel : ℕ)
    (hfuel : (itemsText items).length < fuel) (rest : Str) :
    parseItems fuel (itemsText items ++ 93 :: rest) = .ok (items, 93 :: rest) := by
  match items with
  | [] => exact absurd rfl hne
  | [value] =>
    rw [itemsText] at hfuel
    obtain ⟨fuel, rfl⟩ : ∃ n, fuel = n + 1 := ⟨fuel - 1, by omega⟩
    rw [itemsText, parseItems, parseValue_text value hi.1 fuel (by omega) _ (endsNumber_cons rfl)]
    simp only [bind, Except.bind]
    rw [skipWs_cons (c := 93) rfl, peek_cons (c := 93) rfl]
    simp
  | value :: v :: items =>
    rw [itemsText, List.length_append, List.length_cons] at hfuel
    obtain ⟨fuel, rfl⟩ : ∃ n, fuel = n + 1 := ⟨fuel - 1, by omega⟩
    rw [itemsText, List.append_assoc, List.cons_append, parseItems,
      parseValue_text value hi.1 fuel (by omega) _ (endsNumber_cons rfl)]
    simp only [bind, Except.bind]
    rw [skipWs_cons (c := 44) rfl, peek_cons (c := 44) rfl]
    simp only [if_true, List.tail_cons]
    rw [parseItems_text (v :: items) (List.cons_ne_nil _ _) hi.2 fuel (by omega) rest]

end

/-! ## The fuel of the parser -/

section Fuel

variable {text : Str}

/-- Two computations agree that go on alike. -/
theorem bind_congr_ok {α β : Type} {r : Except Exception α} {f g : α → Except Exception β} (h : ∀ a, r = .ok a → f a = g a) :
    (r >>= f) = (r >>= g) := by
  cases r with
  | error e => rfl
  | ok a => exact h a rfl

/-- Skipping white space leaves no longer text. -/
theorem length_skipWs (text : Str) : (skipWs text).length ≤ text.length := (List.dropWhile_sublist _).length_le

/-- What `peek` leaves begins with the character it gives. -/
theorem length_peek {text' : Str} (h : peek text = .ok (c, text')) : 0 < text'.length ∧ text'.length ≤ text.length := by
  have hle := length_skipWs text
  unfold peek at h
  cases hskip : skipWs text with
  | nil =>
    rw [hskip] at h
    cases h
  | cons b tail =>
    rw [hskip] at h hle
    cases h
    exact ⟨Nat.succ_pos _, hle⟩

/-- `expect` takes a character. -/
theorem length_expect (h : expect c text = .ok rest) : rest.length < text.length := by
  obtain ⟨⟨found, text'⟩, hpeek, h⟩ := bind_eq_ok h
  obtain ⟨hpos, hle⟩ := length_peek hpeek
  simp only at h
  split at h
  · cases h
  · cases h
    rw [List.length_tail]
    omega

/-- Nor does reading a string to its closing quote. -/
theorem length_unescape (text : Str) : (JsonString.unescape text).2.length ≤ text.length := by
  fun_induction JsonString.unescape text <;> simp_all <;> omega

/-- A string takes its quotes. -/
theorem length_parseRawString {s : Str} (h : parseRawString text = .ok (s, rest)) : rest.length < text.length := by
  obtain ⟨text₁, hopen, h⟩ := bind_eq_ok h
  obtain ⟨text₂, hclose, h⟩ := bind_eq_ok h
  cases h
  have hbody := length_unescape text₁
  have hopen := length_expect hopen
  have hclose := length_expect hclose
  omega

/-- A number takes its digits. -/
theorem length_parseNumber {v : JsonValue} (h : parseNumber text = .ok (v, rest)) : rest.length < text.length := by
  have hle := length_skipWs text
  unfold parseNumber at h
  simp only at h
  split at h
  · cases h
  · rename_i hne
    cases h
    have hsplit := congrArg List.length (List.takeWhile_append_dropWhile (p := Decimal.isNumeric) (l := skipWs text))
    have hpos := List.length_pos_iff.2 hne
    rw [List.length_append] at hsplit
    omega

/-- What stands between two brackets: nothing, or what `inner` reads. -/
theorem length_bracketed {α β : Type} {l r : UInt8} {none : β} {some : α → β} {inner : Str → Except Exception (α × Str)} {v : β}
    (hinner : ∀ text a rest, inner text = .ok (a, rest) → rest.length < text.length)
    (h : (do
      let text ← expect l text
      let (c, text) ← peek text
      if c = r then .ok (none, text.tail)
      else
        let (a, text) ← inner text
        let text ← expect r text
        .ok (some a, text) : Except Exception (β × Str)) = .ok (v, rest)) : rest.length < text.length := by
  obtain ⟨text₁, hopen, h⟩ := bind_eq_ok h
  obtain ⟨⟨c, text₂⟩, hpeek, h⟩ := bind_eq_ok h
  have hopen := length_expect hopen
  obtain ⟨hpos, hle⟩ := length_peek hpeek
  simp only at h
  split at h
  · cases h
    rw [List.length_tail]
    omega
  · obtain ⟨⟨a, text₃⟩, ha, h⟩ := bind_eq_ok h
    obtain ⟨text₄, hclose, h⟩ := bind_eq_ok h
    cases h
    have ha := hinner _ _ _ ha
    have hclose : rest.length < text₃.length := length_expect hclose
    omega

/-- Every value, and every pass of a loop, takes something off the text. -/
theorem length_parse (fuel : ℕ) :
    (∀ text v rest, parseValue fuel text = .ok (v, rest) → rest.length < text.length) ∧
      (∀ text ms rest, parseMembers fuel text = .ok (ms, rest) → rest.length < text.length) ∧
      ∀ text vs rest, parseItems fuel text = .ok (vs, rest) → rest.length < text.length := by
  induction fuel with
  | zero =>
    refine ⟨fun _ _ _ h => ?_, fun _ _ _ h => ?_, fun _ _ _ h => ?_⟩
    · cases h
    · cases h
    · cases h
  | succ fuel ih =>
    obtain ⟨hvalue, hmembers, hitems⟩ := ih
    refine ⟨fun text v rest h => ?_, fun text ms rest h => ?_, fun text vs rest h => ?_⟩
    · rw [parseValue] at h
      obtain ⟨⟨c, text₁⟩, hpeek, h⟩ := bind_eq_ok h
      obtain ⟨-, hle⟩ := length_peek hpeek
      simp only at h
      split at h
      · obtain ⟨⟨s, text₂⟩, hs, h⟩ := bind_eq_ok h
        cases h
        exact (length_parseRawString hs).trans_le hle
      · split at h
        · exact (length_bracketed hmembers h).trans_le hle
        · split at h
          · exact (length_bracketed hitems h).trans_le hle
          · exact (length_parseNumber h).trans_le hle
    · rw [parseMembers] at h
      obtain ⟨⟨key, text₁⟩, hkey, h⟩ := bind_eq_ok h
      obtain ⟨text₂, hcolon, h⟩ := bind_eq_ok h
      obtain ⟨⟨value, text₃⟩, hv, h⟩ := bind_eq_ok h
      obtain ⟨⟨c, text₄⟩, hpeek, h⟩ := bind_eq_ok h
      have hkey := length_parseRawString hkey
      have hcolon := length_expect hcolon
      have hv := hvalue _ _ _ hv
      obtain ⟨-, hle⟩ := length_peek hpeek
      have hskip := length_skipWs text
      have hskip₁ := length_skipWs text₁
      have hskip₃ := length_skipWs text₃
      simp only at h
      split at h
      · obtain ⟨⟨members, text₅⟩, hm, h⟩ := bind_eq_ok h
        cases h
        have hm := hmembers _ _ _ hm
        rw [List.length_tail] at hm
        show text₅.length < text.length
        omega
      · cases h
        omega
    · rw [parseItems] at h
      obtain ⟨⟨value, text₁⟩, hv, h⟩ := bind_eq_ok h
      obtain ⟨⟨c, text₂⟩, hpeek, h⟩ := bind_eq_ok h
      have hv := hvalue _ _ _ hv
      obtain ⟨-, hle⟩ := length_peek hpeek
      have hskip := length_skipWs text₁
      simp only at h
      split at h
      · obtain ⟨⟨items, text₃⟩, hi, h⟩ := bind_eq_ok h
        cases h
        have hi := hitems _ _ _ hi
        rw [List.length_tail] at hi
        show text₃.length < text.length
        omega
      · cases h
        omega

/-- Where there is more fuel than twice the length of the text, one unit more changes nothing. -/
theorem parse_fuel (fuel : ℕ) :
    (∀ text, 2 * text.length < fuel → parseValue (fuel + 1) text = parseValue fuel text) ∧
      (∀ text, 2 * text.length < fuel → parseMembers (fuel + 1) text = parseMembers fuel text) ∧
      ∀ text, 2 * text.length + 1 < fuel → parseItems (fuel + 1) text = parseItems fuel text := by
  induction fuel with
  | zero => exact ⟨fun _ h => absurd h (Nat.not_lt_zero _), fun _ h => absurd h (Nat.not_lt_zero _), fun _ h => absurd h (Nat.not_lt_zero _)⟩
  | succ fuel ih =>
    obtain ⟨hvalue, hmembers, hitems⟩ := ih
    refine ⟨fun text h => ?_, fun text h => ?_, fun text h => ?_⟩
    · rw [parseValue, parseValue]
      refine bind_congr_ok fun ⟨c, text₁⟩ hpeek => ?_
      obtain ⟨hpos, hle⟩ := length_peek hpeek
      simp only
      refine ite_congr rfl (fun _ => rfl) fun _ => ite_congr rfl (fun _ => ?_) fun _ => ite_congr rfl (fun _ => ?_) fun _ => rfl
      · refine bind_congr_ok fun text₂ hopen => bind_congr_ok fun ⟨c, text₃⟩ hpeek => ?_
        have hopen := length_expect hopen
        obtain ⟨-, hle'⟩ := length_peek hpeek
        simp only
        rw [hmembers text₃ (by omega)]
      · refine bind_congr_ok fun text₂ hopen => bind_congr_ok fun ⟨c, text₃⟩ hpeek => ?_
        have hopen := length_expect hopen
        obtain ⟨-, hle'⟩ := length_peek hpeek
        simp only
        rw [hitems text₃ (by omega)]
    · rw [parseMembers, parseMembers]
      refine bind_congr_ok fun ⟨key, text₁⟩ hkey => bind_congr_ok fun text₂ hcolon => ?_
      have hkey := length_parseRawString hkey
      have hcolon := length_expect hcolon
      have hskip := length_skipWs text
      have hskip₁ := length_skipWs text₁
      simp only
      rw [hvalue text₂ (by omega)]
      refine bind_congr_ok fun ⟨value, text₃⟩ hv => bind_congr_ok fun ⟨c, text₄⟩ hpeek => ?_
      have hv := (length_parse fuel).1 _ _ _ hv
      have hle : text₄.length ≤ (skipWs text₃).length := (length_peek hpeek).2
      have hskip₃ := length_skipWs text₃
      simp only
      rw [hmembers text₄.tail (by rw [List.length_tail]; omega)]
    · rw [parseItems, parseItems, hvalue text (by omega)]
      refine bind_congr_ok fun ⟨value, text₁⟩ hv => bind_congr_ok fun ⟨c, text₂⟩ hpeek => ?_
      have hv := (length_parse fuel).1 _ _ _ hv
      have hle : text₂.length ≤ (skipWs text₁).length := (length_peek hpeek).2
      have hskip := length_skipWs text₁
      simp only
      rw [hitems text₂.tail (by rw [List.length_tail]; omega)]

/-- The fuel of `parse_document` does not end: more of it gives the same. -/
theorem parseValue_fuel {fuel : ℕ} (h : 2 * text.length + 1 ≤ fuel) : parseValue fuel text = parseValue (2 * text.length + 1) text := by
  induction fuel, h using Nat.le_induction with
  | base => rfl
  | succ fuel h ih => rw [(parse_fuel fuel).1 text h, ih]

end Fuel

end JsonParser

/-! ## The values of a dataset -/

section Dataset

variable {P : Type} [Double P]

/-- The value `write_label` prints. -/
def labelValue (label : GroundTruthLabel P) : JsonValue :=
  .object [(ascii "pattern", .string label.pattern.toString), (ascii "scenario_id", .string label.scenarioId),
    (ascii "severity", .number (Double.print17 label.severity))]

/-- The value `write_order` prints. -/
def orderValue (order : Order P) : JsonValue :=
  .object [(ascii "order_id", .string order.orderId), (ascii "account_id", .string order.accountId),
    (ascii "instrument_id", .string order.instrumentId), (ascii "side", .string order.side.toString),
    (ascii "price", .number (Double.print17 order.price)), (ascii "qty", .number (Decimal.ofInt order.qty)),
    (ascii "order_type", .string order.orderType.toString),
    (ascii "timestamp_ns", .number (Decimal.ofInt order.timestampNs)), (ascii "status", .string order.status.toString),
    (ascii "venue", .string order.venue), (ascii "ground_truth_label", labelValue order.groundTruthLabel)]

/-- The value `write_execution` prints. -/
def executionValue (execution : Execution P) : JsonValue :=
  .object [(ascii "trade_id", .string execution.tradeId), (ascii "order_id", .string execution.orderId),
    (ascii "account_id", .string execution.accountId), (ascii "instrument_id", .string execution.instrumentId),
    (ascii "price", .number (Double.print17 execution.price)), (ascii "qty", .number (Decimal.ofInt execution.qty)),
    (ascii "timestamp_ns", .number (Decimal.ofInt execution.timestampNs)),
    (ascii "counterparty_account_id", .string execution.counterpartyAccountId), (ascii "venue", .string execution.venue),
    (ascii "ground_truth_label", labelValue execution.groundTruthLabel)]

/-- The value `to_labeled_json` prints. -/
def datasetValue (orders : List (Order P)) (executions : List (Execution P)) : JsonValue :=
  .object [(ascii "orders", .array (orders.map orderValue)), (ascii "executions", .array (executions.map executionValue))]

/-- The names of the patterns need no escapes. -/
@[simp] theorem escapeJson_pattern (pattern : AbusePattern) : escapeJson pattern.toString = pattern.toString := by
  cases pattern <;> rfl

/-- Nor those of the sides. -/
@[simp] theorem escapeJson_side (side : Side) : escapeJson side.toString = side.toString := by
  cases side <;> rfl

/-- Nor those of the order types. -/
@[simp] theorem escapeJson_orderType (type : OrderType) : escapeJson type.toString = type.toString := by
  cases type <;> rfl

/-- Nor those of the statuses. -/
@[simp] theorem escapeJson_status (status : OrderStatus) : escapeJson status.toString = status.toString := by
  cases status <;> rfl

/-- A member whose value is escaped, before more text. -/
theorem writeString_append (key : String) (value text : Str) :
    writeString key value ++ text = 34 :: (ascii key ++ 34 :: 58 :: 34 :: (escapeJson value ++ 34 :: text)) := by
  have hq : ascii "\"" = [34] := rfl
  have hqcq : ascii "\":\"" = [34, 58, 34] := rfl
  simp [writeString, hq, hqcq]

/-- `write_label` prints the value of the label. -/
theorem writeLabel_eq (label : GroundTruthLabel P) : writeLabel label = (labelValue label).text := by
  have hpattern : ∀ t, ascii "\x7b\"pattern\":\"" ++ t = 123 :: 34 :: (escapeJson (ascii "pattern") ++ 34 :: 58 :: 34 :: t) :=
    fun t => rfl
  have hseverity : ∀ t, ascii "\"severity\":" ++ t = 34 :: (escapeJson (ascii "severity") ++ 34 :: 58 :: t) := fun t => rfl
  have hid : escapeJson (ascii "scenario_id") = ascii "scenario_id" := rfl
  have hqc : ascii "\"," = [34, 44] := rfl
  have hc : ascii "," = [44] := rfl
  have hclose : ascii "\x7d" = [125] := rfl
  simp only [writeLabel, List.append_assoc, hpattern, hseverity, writeString_append, hqc, hc, hclose, labelValue,
    JsonValue.text, membersText, escapeJson_pattern, hid, List.cons_append, List.nil_append]

/-- The literals with which the writers of orders and executions begin a member that they do not escape. -/
theorem bare_members (t : Str) :
    ascii "\"side\":\"" ++ t = 34 :: (escapeJson (ascii "side") ++ 34 :: 58 :: 34 :: t) ∧
    ascii "\"price\":" ++ t = 34 :: (escapeJson (ascii "price") ++ 34 :: 58 :: t) ∧
    ascii "\"qty\":" ++ t = 34 :: (escapeJson (ascii "qty") ++ 34 :: 58 :: t) ∧
    ascii "\"order_type\":\"" ++ t = 34 :: (escapeJson (ascii "order_type") ++ 34 :: 58 :: 34 :: t) ∧
    ascii "\"timestamp_ns\":" ++ t = 34 :: (escapeJson (ascii "timestamp_ns") ++ 34 :: 58 :: t) ∧
    ascii "\"status\":\"" ++ t = 34 :: (escapeJson (ascii "status") ++ 34 :: 58 :: 34 :: t) ∧
    ascii "\"ground_truth_label\":" ++ t = 34 :: (escapeJson (ascii "ground_truth_label") ++ 34 :: 58 :: t) :=
  ⟨rfl, rfl, rfl, rfl, rfl, rfl, rfl⟩

/-- The keys whose values are escaped need no escape. -/
theorem escaped_keys : escapeJson (ascii "order_id") = ascii "order_id" ∧ escapeJson (ascii "account_id") = ascii "account_id" ∧
    escapeJson (ascii "instrument_id") = ascii "instrument_id" ∧ escapeJson (ascii "venue") = ascii "venue" ∧
    escapeJson (ascii "trade_id") = ascii "trade_id" ∧
    escapeJson (ascii "counterparty_account_id") = ascii "counterparty_account_id" :=
  ⟨rfl, rfl, rfl, rfl, rfl, rfl⟩

/-- `write_order` prints the value of the order. -/
theorem writeOrder_eq (order : Order P) : writeOrder order = (orderValue order).text := by
  obtain ⟨horder, haccount, hinstrument, hvenue, -, -⟩ := escaped_keys
  have hopen : ascii "\x7b" = [123] := rfl
  have hclose : ascii "\x7d" = [125] := rfl
  have hqc : ascii "\"," = [34, 44] := rfl
  have hc : ascii "," = [44] := rfl
  unfold writeOrder
  simp only [List.append_assoc, (bare_members _).1, (bare_members _).2.1, (bare_members _).2.2.1,
    (bare_members _).2.2.2.1, (bare_members _).2.2.2.2.1, (bare_members _).2.2.2.2.2.1, (bare_members _).2.2.2.2.2.2,
    writeString_append, writeLabel_eq, hopen, hclose, hqc, hc]
  simp only [orderValue, JsonValue.text, membersText, horder, haccount, hinstrument, hvenue, escapeJson_side,
    escapeJson_orderType, escapeJson_status, List.append_assoc, List.cons_append, List.nil_append]

/-- `write_execution` prints the value of the execution. -/
theorem writeExecution_eq (execution : Execution P) : writeExecution execution = (executionValue execution).text := by
  obtain ⟨horder, haccount, hinstrument, hvenue, htrade, hcounterparty⟩ := escaped_keys
  have hopen : ascii "\x7b" = [123] := rfl
  have hclose : ascii "\x7d" = [125] := rfl
  have hc : ascii "," = [44] := rfl
  unfold writeExecution
  simp only [List.append_assoc, (bare_members _).2.1, (bare_members _).2.2.1, (bare_members _).2.2.2.2.1,
    (bare_members _).2.2.2.2.2.2, writeString_append, writeLabel_eq, hopen, hclose, hc]
  simp only [executionValue, JsonValue.text, membersText, horder, haccount, hinstrument, hvenue, htrade, hcounterparty,
    List.append_assoc, List.cons_append, List.nil_append]

/-- Texts of values with commas between them are the text of the items. -/
theorem intercalate_text (vs : List JsonValue) : (ascii ",").intercalate (vs.map JsonValue.text) = itemsText vs := by
  induction vs with
  | nil => rfl
  | cons v vs ih =>
    cases vs with
    | nil => simp [itemsText]
    | cons w vs =>
      rw [List.map_cons, List.map_cons, List.intercalate_cons_cons, ← List.map_cons, ih, itemsText, List.append_assoc]
      rfl

/-- `to_labeled_json` prints the value of the dataset. -/
theorem toLabeledJson_eq (orders : List (Order P)) (executions : List (Execution P)) :
    toLabeledJson orders executions = (datasetValue orders executions).text := by
  have horders : orders.map writeOrder = (orders.map orderValue).map JsonValue.text := by
    rw [List.map_map]
    exact List.map_congr_left fun o _ => writeOrder_eq o
  have hexecutions : executions.map writeExecution = (executions.map executionValue).map JsonValue.text := by
    rw [List.map_map]
    exact List.map_congr_left fun x _ => writeExecution_eq x
  have hopen : ∀ t, ascii "\x7b\"orders\":[" ++ t = 123 :: 34 :: (escapeJson (ascii "orders") ++ 34 :: 58 :: 91 :: t) :=
    fun t => rfl
  have hmid : ∀ t, ascii "],\"executions\":[" ++ t =
      93 :: 44 :: 34 :: (escapeJson (ascii "executions") ++ 34 :: 58 :: 91 :: t) := fun t => rfl
  have hclose : ascii "]\x7d" = [93, 125] := rfl
  unfold toLabeledJson
  rw [horders, hexecutions, intercalate_text, intercalate_text]
  simp only [List.append_assoc, hopen, hmid, hclose, datasetValue, JsonValue.text, membersText, List.cons_append,
    List.nil_append]

/-! ## The round trip -/

/-- A double that is read back from what the writer prints. -/
structure ReadsBack (x : P) : Prop where
  finite : Double.isFinite x = true
  stod : Double.stod (Double.print17 x) = .ok x

/-- An order whose numbers are those of the source's types and whose doubles are read back. -/
structure Order.Printable (order : Order P) : Prop where
  price : ReadsBack order.price
  severity : ReadsBack order.groundTruthLabel.severity
  qty : IsInt64 order.qty
  timestampNs : IsInt64 order.timestampNs

/-- The same of an execution. -/
structure Execution.Printable (execution : Execution P) : Prop where
  price : ReadsBack execution.price
  severity : ReadsBack execution.groundTruthLabel.severity
  qty : IsInt64 execution.qty
  timestampNs : IsInt64 execution.timestampNs

/-- A double that is read back is printed as a numeral. -/
theorem ReadsBack.wellFormed {x : P} (hx : ReadsBack x) : (JsonValue.number (Double.print17 x)).WellFormed :=
  print17_numeric hx.finite

/-- An integer is printed as a numeral. -/
theorem ofInt_wellFormed (z : ℤ) : (JsonValue.number (Decimal.ofInt z)).WellFormed :=
  ⟨Decimal.ofInt_ne_nil z, fun _ hb => Decimal.isNumeric_of_mem_ofInt hb⟩

/-- The numbers of a printable order are numerals. -/
theorem orderValue_wellFormed {order : Order P} (ho : order.Printable) : (orderValue order).WellFormed :=
  ⟨trivial, trivial, trivial, trivial, ho.price.wellFormed, ofInt_wellFormed _, trivial, ofInt_wellFormed _, trivial, trivial,
    ⟨trivial, trivial, ho.severity.wellFormed, trivial⟩, trivial⟩

/-- So are those of a printable execution. -/
theorem executionValue_wellFormed {execution : Execution P} (hx : execution.Printable) : (executionValue execution).WellFormed :=
  ⟨trivial, trivial, trivial, trivial, hx.price.wellFormed, ofInt_wellFormed _, ofInt_wellFormed _, trivial, trivial,
    ⟨trivial, trivial, hx.severity.wellFormed, trivial⟩, trivial⟩

omit [Double P] in
/-- Items are well formed when each is. -/
theorem itemsWellFormed {vs : List JsonValue} (h : ∀ v ∈ vs, v.WellFormed) : ItemsWellFormed vs := by
  induction vs with
  | nil => trivial
  | cons v vs ih => exact ⟨h v List.mem_cons_self, ih fun w hw => h w (List.mem_cons_of_mem _ hw)⟩

/-- A 64-bit integer is read back from its numeral. -/
theorem asInt64_ofInt {z : ℤ} (hz : IsInt64 z) : (JsonValue.number (Decimal.ofInt z)).asInt64 = .ok z := stoll_ofInt hz

/-- A double that is read back is the number of its numeral. -/
theorem ReadsBack.asDouble {x : P} (hx : ReadsBack x) : (JsonValue.number (Double.print17 x)).asDouble = .ok x := hx.stod

omit [Double P] in
/-- The members of an object whose keys differ are found by their keys. -/
theorem at_members (members : List (Str × JsonValue)) (hnodup : (members.map (·.1)).Nodup) :
    ∀ m ∈ members, (JsonValue.object members).at_ m.1 = .ok m.2 := by
  intro m hm
  have hfind : members.find? (fun n => n.1 = m.1) = some m := by
    induction members with
    | nil => nomatch hm
    | cons n members ih =>
      rw [List.map_cons, List.nodup_cons] at hnodup
      rcases List.mem_cons.1 hm with rfl | hm
      · rw [List.find?_cons_of_pos (by simp)]
      · have hne : n.1 ≠ m.1 := fun h => hnodup.1 (h ▸ List.mem_map_of_mem hm)
        rw [List.find?_cons_of_neg (by simp [hne]), ih hnodup.2 hm]
  rw [JsonValue.at_, JsonValue.objectValue, hfind]

omit [Double P] in
/-- A value that is there is handed on. -/
theorem ok_bind {α β ε : Type} (a : α) (f : α → Except ε β) : ((Except.ok a : Except ε α) >>= f) = f a := rfl

/-- The label is read back from its value. -/
theorem labelFromJson_value {label : GroundTruthLabel P} (hl : ReadsBack label.severity) :
    labelFromJson (labelValue label) = .ok label := by
  have hat := at_members ((labelValue label).objectValue) (of_decide_eq_true rfl)
  simp only [labelValue, JsonValue.objectValue, List.forall_mem_cons] at hat
  obtain ⟨hpattern, hid, hseverity, -⟩ := hat
  unfold labelFromJson labelValue
  rw [hpattern, hid, hseverity]
  simp only [ok_bind, JsonValue.strValue, abusePatternFromString_toString, hl.asDouble]

/-- A printable order is read back from its value. -/
theorem orderFromJson_value {order : Order P} (ho : order.Printable) : orderFromJson (orderValue order) = .ok order := by
  have hat := at_members ((orderValue order).objectValue) (of_decide_eq_true rfl)
  simp only [orderValue, JsonValue.objectValue, List.forall_mem_cons] at hat
  obtain ⟨horder, haccount, hinstrument, hside, hprice, hqty, htype, htime, hstatus, hvenue, hlabel, -⟩ := hat
  unfold orderFromJson orderValue
  rw [horder, haccount, hinstrument, hside, hprice, hqty, htype, htime, hstatus, hvenue, hlabel]
  simp only [ok_bind, JsonValue.strValue, sideFromString_toString, orderTypeFromString_toString,
    orderStatusFromString_toString, ho.price.asDouble, asInt64_ofInt ho.qty, asInt64_ofInt ho.timestampNs,
    labelFromJson_value ho.severity]

/-- A printable execution is read back from its value. -/
theorem executionFromJson_value {execution : Execution P} (hx : execution.Printable) :
    executionFromJson (executionValue execution) = .ok execution := by
  have hat := at_members ((executionValue execution).objectValue) (of_decide_eq_true rfl)
  simp only [executionValue, JsonValue.objectValue, List.forall_mem_cons] at hat
  obtain ⟨htrade, horder, haccount, hinstrument, hprice, hqty, htime, hcounterparty, hvenue, hlabel, -⟩ := hat
  unfold executionFromJson executionValue
  rw [htrade, horder, haccount, hinstrument, hprice, hqty, htime, hcounterparty, hvenue, hlabel]
  simp only [ok_bind, JsonValue.strValue, hx.price.asDouble, asInt64_ofInt hx.qty, asInt64_ofInt hx.timestampNs,
    labelFromJson_value hx.severity]

omit [Double P] in
/-- Reading each of a list of written values. -/
theorem mapM_map_ok {α β γ : Type} {read : β → Except γ α} {write : α → β} {l : List α} (h : ∀ x ∈ l, read (write x) = .ok x) :
    (l.map write).mapM read = .ok l := by
  induction l with
  | nil => rfl
  | cons x l ih =>
    rw [List.map_cons, List.mapM_cons, h x List.mem_cons_self, ih fun y hy => h y (List.mem_cons_of_mem _ hy)]
    rfl

/-- What was written is read back: any strings, sides, types, statuses and labels, any 64-bit quantities and timestamps, and any
finite prices and severities that `std::stod` reads back from their seventeen digits. -/
theorem parseLabeledJson_toLabeledJson (orders : List (Order P)) (executions : List (Execution P))
    (ho : ∀ o ∈ orders, o.Printable) (hx : ∀ x ∈ executions, x.Printable) :
    parseLabeledJson (toLabeledJson orders executions) = .ok ⟨orders, executions⟩ := by
  have hwf : (datasetValue orders executions).WellFormed := by
    refine ⟨itemsWellFormed fun v hv => ?_, itemsWellFormed fun v hv => ?_, trivial⟩
    · obtain ⟨o, hmem, rfl⟩ := List.mem_map.1 hv
      exact orderValue_wellFormed (ho o hmem)
    · obtain ⟨x, hmem, rfl⟩ := List.mem_map.1 hv
      exact executionValue_wellFormed (hx x hmem)
  have hparse := JsonParser.parseValue_text _ hwf (2 * (datasetValue orders executions).text.length + 1) (by omega) [] fun b hb => nomatch hb
  rw [List.append_nil] at hparse
  have hat := at_members ((datasetValue orders executions).objectValue) (of_decide_eq_true rfl)
  simp only [datasetValue, JsonValue.objectValue, List.forall_mem_cons] at hat
  obtain ⟨horders, hexecutions, -⟩ := hat
  have hreado := mapM_map_ok fun o hmem => orderFromJson_value (ho o hmem)
  have hreadx := mapM_map_ok fun x hmem => executionFromJson_value (hx x hmem)
  rw [parseLabeledJson, JsonParser.parseDocument, toLabeledJson_eq, hparse]
  simp only [ok_bind, datasetValue, horders, hexecutions, JsonValue.arrayValue, hreado, hreadx]

/-- Empty strings and strings of quotes, backslashes, newlines, braces and NUL bytes, the extreme quantities, and no executions. -/
theorem parseLabeledJson_awkward :
    let label : GroundTruthLabel ℚ := ⟨.spoofingLayering, [92, 34, 10], 3 / 4⟩
    let order : Order ℚ := ⟨[34, 92, 10, 0], ascii ",\x7b]", [], .sell, -5 / 2, -2 ^ 63, .market, 2 ^ 63 - 1, .replaced, [92],
      label⟩
    parseLabeledJson (toLabeledJson [order, order] []) = .ok ⟨[order, order], []⟩ := by
  intro label order
  have ho : order.Printable := ⟨⟨rfl, by decide +kernel⟩, ⟨rfl, by decide +kernel⟩, by decide, by decide⟩
  exact parseLabeledJson_toLabeledJson [order, order] [] (by simp [ho]) (by simp)

end Dataset

end TradeSurveillance.Simulator
