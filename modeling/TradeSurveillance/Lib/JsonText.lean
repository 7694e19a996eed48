import TradeSurveillance.Lib.JsonGrammar
import TradeSurveillance.Lib.Search

/-!
# JSON texts

The grammar of JSON on bytes of UTF-8, and what a text stands for: numbers are their literals, strings are in UTF-8, objects have their
members in order. Every relation has the text behind what it takes as its last argument. The escape of a surrogate without the other one
of the pair stands for no character.

`chars_escape_iff` says of which strings the escaping of `JsonString` writes JSON.
-/

namespace JsonText

open JsonGrammar (IsNumber)
open JsonString (escape escapeChar quote backslash newline letterN)

/-! ## The grammar -/

/-- What a text stands for. -/
inductive Json where
  | null
  | bool (b : Bool)
  | number (literal : List UInt8)
  | string (value : List UInt8)
  | array (items : List Json)
  | object (members : List (List UInt8 × Json))

def isSpace (b : UInt8) : Bool := b = 32 || b = 9 || b = 10 || b = 13

/-- White space. -/
def Spaces (ws : List UInt8) : Prop := ∀ b ∈ ws, isSpace b = true

/-- What a letter behind a backslash stands for. -/
def escapes : List (UInt8 × UInt8) := [(34, 34), (92, 92), (47, 47), (98, 8), (102, 12), (110, 10), (114, 13), (116, 9)]

/-- The value of a hexadecimal digit. -/
def hexDigit (b : UInt8) : ℕ := if b ≤ 57 then b.toNat - 48 else if b ≤ 70 then b.toNat - 55 else b.toNat - 87

/-- Four hexadecimal digits, and their number. -/
structure IsUnit (digits : List UInt8) (n : ℕ) : Prop where
  length : digits.length = 4
  isHexDigit : ∀ b ∈ digits, JsonGrammar.isHexDigit b = true
  value : digits.foldl (fun n b => 16 * n + hexDigit b) 0 = n

/-- The characters of a string up to its closing quote. -/
inductive Chars : List UInt8 → List UInt8 → List UInt8 → Prop where
  | close (rest : List UInt8) : Chars (34 :: rest) [] rest
  | char {text value rest : List UInt8} (c : Char) (hcontrol : 32 ≤ c.toNat) (hquote : c.toNat ≠ 34) (hbackslash : c.toNat ≠ 92)
    (htext : Chars text value rest) : Chars (String.utf8EncodeChar c ++ text) (String.utf8EncodeChar c ++ value) rest
  | escape {text value rest : List UInt8} (letter b : UInt8) (hletter : (letter, b) ∈ escapes) (htext : Chars text value rest) :
    Chars (92 :: letter :: text) (b :: value) rest
  | unicode {text value rest : List UInt8} (c : Char) (digits : List UInt8) (hunit : IsUnit digits c.toNat)
    (htext : Chars text value rest) : Chars (92 :: 117 :: (digits ++ text)) (String.utf8EncodeChar c ++ value) rest
  | pair {text value rest : List UInt8} (c : Char) (high low : List UInt8) (hplane : 65536 ≤ c.toNat)
    (hhigh : IsUnit high (55296 + (c.toNat - 65536) / 1024)) (hlow : IsUnit low (56320 + (c.toNat - 65536) % 1024))
    (htext : Chars text value rest) :
    Chars (92 :: 117 :: (high ++ 92 :: 117 :: (low ++ text))) (String.utf8EncodeChar c ++ value) rest

mutual

/-- A value. -/
inductive Value : List UInt8 → Json → List UInt8 → Prop where
  | null (rest : List UInt8) : Value ([110, 117, 108, 108] ++ rest) .null rest
  | litTrue (rest : List UInt8) : Value ([116, 114, 117, 101] ++ rest) (.bool true) rest
  | litFalse (rest : List UInt8) : Value ([102, 97, 108, 115, 101] ++ rest) (.bool false) rest
  | number {literal : List UInt8} (rest : List UInt8) (h : IsNumber literal) : Value (literal ++ rest) (.number literal) rest
  | string {text value rest : List UInt8} (h : Chars text value rest) : Value (34 :: text) (.string value) rest
  | emptyArray {ws : List UInt8} (rest : List UInt8) (hws : Spaces ws) : Value (91 :: (ws ++ 93 :: rest)) (.array []) rest
  | array {text rest : List UInt8} {items : List Json} (h : Items text items rest) : Value (91 :: text) (.array items) rest
  | emptyObject {ws : List UInt8} (rest : List UInt8) (hws : Spaces ws) : Value (123 :: (ws ++ 125 :: rest)) (.object []) rest
  | object {text rest : List UInt8} {members : List (List UInt8 × Json)} (h : Members text members rest) :
    Value (123 :: text) (.object members) rest

/-- A value with white space around it. -/
inductive Item : List UInt8 → Json → List UInt8 → Prop where
  | mk {before text after rest : List UInt8} {v : Json} (hbefore : Spaces before) (hvalue : Value text v (after ++ rest))
    (hafter : Spaces after) : Item (before ++ text) v rest

/-- The items of an array, one or more, and its closing bracket. -/
inductive Items : List UInt8 → List Json → List UInt8 → Prop where
  | last {text rest : List UInt8} {v : Json} (h : Item text v (93 :: rest)) : Items text [v] rest
  | more {text text' rest : List UInt8} {v : Json} {items : List Json} (h : Item text v (44 :: text'))
    (hrest : Items text' items rest) : Items text (v :: items) rest

/-- A key, a colon and a value, with white space around them. -/
inductive KeyValue : List UInt8 → List UInt8 → Json → List UInt8 → Prop where
  | mk {before text key afterKey text' rest : List UInt8} {v : Json} (hbefore : Spaces before)
    (hkey : Chars text key (afterKey ++ 58 :: text')) (hafterKey : Spaces afterKey) (hvalue : Item text' v rest) :
    KeyValue (before ++ 34 :: text) key v rest

/-- The members of an object, one or more, and its closing brace. -/
inductive Members : List UInt8 → List (List UInt8 × Json) → List UInt8 → Prop where
  | last {text key rest : List UInt8} {v : Json} (h : KeyValue text key v (125 :: rest)) : Members text [(key, v)] rest
  | more {text text' key rest : List UInt8} {v : Json} {members : List (List UInt8 × Json)} (h : KeyValue text key v (44 :: text'))
    (hrest : Members text' members rest) : Members text ((key, v) :: members) rest

end

/-- The text is JSON and stands for the value. -/
def IsJson (text : List UInt8) (v : Json) : Prop := Item text v []

/-- A parser that takes every JSON text for what it stands for; what it makes of other texts is open. -/
def Conforming (parse : List UInt8 → Option Json) : Prop := ∀ text, (∃ v, IsJson text v) → ∃ v, IsJson text v ∧ parse text = some v

/-! ## Characters and their bytes -/

section Characters

variable {c : Char} {b : UInt8} {s u text value rest tail : List UInt8}

/-- A character of ASCII is one byte. -/
theorem utf8EncodeChar_of_lt (h : c.toNat < 128) : String.utf8EncodeChar c = [c.toNat.toUInt8] := if_pos (Nat.le_of_lt_succ h)

/-- Its number is that of the byte. -/
theorem toNat_of_lt (h : c.toNat < 128) : c.toNat.toUInt8.toNat = c.toNat := by
  rw [Nat.toUInt8, UInt8.toNat_ofNat', Nat.mod_eq_of_lt (by omega)]

/-- The bytes of a character that is not ASCII are not, either. -/
theorem le_of_mem_utf8EncodeChar (h : 128 ≤ c.toNat) (hb : b ∈ String.utf8EncodeChar c) : 128 ≤ b.toNat := by
  have hbyte : ∀ n m k : ℕ, m ≠ 0 → 128 ≤ k → m + k ≤ 256 → 128 ≤ (UInt8.ofNat (n % m + k)).toNat := by
    intro n m k hm hk hmk
    have hlt := Nat.mod_lt n (Nat.pos_of_ne_zero hm)
    rw [UInt8.toNat_ofNat', Nat.mod_eq_of_lt (by omega)]
    omega
  have h0 : ¬c.val.toNat ≤ 127 := Nat.not_le.2 h
  unfold String.utf8EncodeChar at hb
  simp only [if_neg h0] at hb
  split at hb
  · simp only [List.mem_cons, List.not_mem_nil, or_false] at hb
    rcases hb with rfl | rfl <;> exact hbyte _ _ _ (by decide) (by decide) (by decide)
  · split at hb
    · simp only [List.mem_cons, List.not_mem_nil, or_false] at hb
      rcases hb with rfl | rfl | rfl <;> exact hbyte _ _ _ (by decide) (by decide) (by decide)
    · simp only [List.mem_cons, List.not_mem_nil, or_false] at hb
      rcases hb with rfl | rfl | rfl | rfl <;> exact hbyte _ _ _ (by decide) (by decide) (by decide)

/-- The bytes are those of characters. -/
def IsUtf8 (s : List UInt8) : Prop := ∃ cs : List Char, s = cs.flatMap String.utf8EncodeChar

/-- Text without control characters other than newlines. -/
structure Printable (s : List UInt8) : Prop where
  utf8 : IsUtf8 s
  control : ∀ b ∈ s, 32 ≤ b.toNat ∨ b = 10

/-- A byte of ASCII is the character of its number. -/
theorem utf8EncodeChar_ofUInt8 (h : b.toNat < 128) : String.utf8EncodeChar (Char.ofUInt8 b) = [b] := by
  have hchar : (Char.ofUInt8 b).toNat = b.toNat := UInt8.toNat_toUInt32 b
  rw [utf8EncodeChar_of_lt (by omega), hchar]
  simp

/-- ASCII is UTF-8. -/
theorem isUtf8_of_ascii (h : ∀ b ∈ s, b.toNat < 128) : IsUtf8 s := by
  induction s with
  | nil => exact ⟨[], rfl⟩
  | cons b s ih =>
    obtain ⟨cs, hcs⟩ := ih fun b' hb' => h b' (List.mem_cons_of_mem _ hb')
    refine ⟨Char.ofUInt8 b :: cs, ?_⟩
    rw [List.flatMap_cons, utf8EncodeChar_ofUInt8 (h b List.mem_cons_self), ← hcs, List.singleton_append]

/-- ASCII without control characters but newlines is printable. -/
theorem printable_of_ascii (h : (s.all fun b => b.toNat < 128 && (32 ≤ b.toNat || b = 10)) = true) : Printable s := by
  simp only [List.all_eq_true, Bool.and_eq_true, Bool.or_eq_true, decide_eq_true_eq] at h
  exact ⟨isUtf8_of_ascii fun b hb => (h b hb).1, fun b hb => (h b hb).2⟩

/-- An ASCII character is not among the bytes of another character. -/
theorem ne_of_mem_utf8EncodeChar {n : UInt8} (hn : n.toNat < 128) (hc : c.toNat ≠ n.toNat) (hb : b ∈ String.utf8EncodeChar c) :
    b ≠ n := by
  rintro rfl
  by_cases hascii : c.toNat < 128
  · rw [utf8EncodeChar_of_lt hascii, List.mem_singleton] at hb
    rw [hb, toNat_of_lt hascii] at hc
    exact hc rfl
  · have h128 := le_of_mem_utf8EncodeChar (by omega) hb
    omega

/-- Printable texts in a row are printable. -/
theorem Printable.append (hs : Printable s) (hu : Printable u) : Printable (s ++ u) := by
  obtain ⟨cs, rfl⟩ := hs.utf8
  obtain ⟨cs', rfl⟩ := hu.utf8
  refine ⟨⟨cs ++ cs', List.flatMap_append.symm⟩, fun b hb => ?_⟩
  rcases List.mem_append.1 hb with hb | hb
  · exact hs.control b hb
  · exact hu.control b hb

/-- A character that is no control character is printable. -/
theorem printable_char (hc : 32 ≤ c.toNat) : Printable (String.utf8EncodeChar c) := by
  refine ⟨⟨[c], by simp⟩, fun b hb => .inl ?_⟩
  by_contra hlt
  exact ne_of_mem_utf8EncodeChar (by omega) (by omega) hb rfl

/-- Printable text is made of characters that are. -/
theorem Printable.exists_chars (h : Printable s) :
    ∃ cs : List Char, s = cs.flatMap String.utf8EncodeChar ∧ ∀ c ∈ cs, 32 ≤ c.toNat ∨ c.toNat = 10 := by
  obtain ⟨⟨cs, rfl⟩, hcontrol⟩ := h
  refine ⟨cs, rfl, fun c hc => ?_⟩
  by_cases hascii : c.toNat < 128
  · have hmem : c.toNat.toUInt8 ∈ cs.flatMap String.utf8EncodeChar :=
      List.mem_flatMap.2 ⟨c, hc, by rw [utf8EncodeChar_of_lt hascii]; exact List.mem_cons_self⟩
    have hnat := toNat_of_lt hascii
    rcases hcontrol _ hmem with h | h
    · exact .inl (hnat ▸ h)
    · rw [h] at hnat
      exact .inr hnat.symm
  · exact .inl (by omega)

/-! ## Escaped strings -/

/-- Escaping goes character by character. -/
theorem escape_append (s u : List UInt8) : escape (s ++ u) = escape s ++ escape u := List.flatMap_append

/-- A text without quotes, backslashes and newlines needs no escapes. -/
theorem escape_of_not_special (h : ∀ b ∈ u, b ≠ 34 ∧ b ≠ 92 ∧ b ≠ 10) : escape u = u := by
  induction u with
  | nil => rfl
  | cons b u ih =>
    obtain ⟨hquote, hbackslash, hnewline⟩ := h b List.mem_cons_self
    have hchar : escapeChar b = [b] := (if_neg hquote).trans ((if_neg hbackslash).trans (if_neg hnewline))
    rw [JsonString.escape_cons, hchar, ih fun b' hb' => h b' (List.mem_cons_of_mem _ hb')]
    rfl

/-- A character other than a control character, or a newline, is written as JSON. -/
theorem chars_escape_char (hc : 32 ≤ c.toNat ∨ c.toNat = 10) (h : Chars text value rest) :
    Chars (escape (String.utf8EncodeChar c) ++ text) (String.utf8EncodeChar c ++ value) rest := by
  have hspecial : ∀ n : ℕ, n < 128 → c.toNat = n → String.utf8EncodeChar c = [n.toUInt8] := by
    intro n hn hcn
    rw [utf8EncodeChar_of_lt (by omega), hcn]
  by_cases hquote : c.toNat = 34
  · rw [hspecial 34 (by decide) hquote]
    exact .escape 34 34 (by decide) h
  by_cases hbackslash : c.toNat = 92
  · rw [hspecial 92 (by decide) hbackslash]
    exact .escape 92 92 (by decide) h
  by_cases hnewline : c.toNat = 10
  · rw [hspecial 10 (by decide) hnewline]
    exact .escape 110 10 (by decide) h
  have hself : escape (String.utf8EncodeChar c) = String.utf8EncodeChar c := by
    refine escape_of_not_special fun b hb => ⟨?_, ?_, ?_⟩
    · exact ne_of_mem_utf8EncodeChar (by decide) hquote hb
    · exact ne_of_mem_utf8EncodeChar (by decide) hbackslash hb
    · exact ne_of_mem_utf8EncodeChar (by decide) hnewline hb
  rw [hself]
  exact .char c (by omega) hquote hbackslash h

/-- A printable text is read back from its escapes. -/
theorem chars_escape (h : Printable s) (rest : List UInt8) : Chars (escape s ++ 34 :: rest) s rest := by
  obtain ⟨cs, rfl, hcs⟩ := h.exists_chars
  clear h
  induction cs with
  | nil => exact .close rest
  | cons c cs ih =>
    rw [List.flatMap_cons, escape_append, List.append_assoc]
    exact chars_escape_char (hcs c List.mem_cons_self) (ih fun c' hc' => hcs c' (List.mem_cons_of_mem _ hc'))

/-- Bytes that need no escape stand for themselves at the beginning of an escaped string. -/
theorem eq_append_of_escape (hu : ∀ b ∈ u, b ≠ 34 ∧ b ≠ 92) (h : escape s ++ 34 :: tail = u ++ text) :
    ∃ s', s = u ++ s' ∧ escape s' ++ 34 :: tail = text := by
  induction u generalizing s with
  | nil => exact ⟨s, rfl, h⟩
  | cons b u ih =>
    obtain ⟨hquote, hbackslash⟩ := hu b List.mem_cons_self
    cases s with
    | nil => exact absurd (List.cons.inj h).1.symm hquote
    | cons d s =>
      rw [JsonString.escape_cons, List.append_assoc] at h
      rcases JsonString.escapeChar_cases d with ⟨-, -, hchar⟩ | ⟨letter, hchar, -⟩
      · rw [hchar] at h
        obtain ⟨rfl, htail⟩ := List.cons.inj h
        obtain ⟨s', rfl, htext⟩ := ih (fun b' hb' => hu b' (List.mem_cons_of_mem _ hb')) htail
        exact ⟨s', rfl, htext⟩
      · rw [hchar] at h
        exact absurd (List.cons.inj h).1.symm hbackslash

/-- A backslash in an escaped string is followed by what it escapes. -/
theorem eq_cons_of_escape {letter : UInt8} (h : escape s ++ 34 :: tail = 92 :: letter :: text) : ∃ d s', s = d :: s' ∧
    escape s' ++ 34 :: tail = text ∧ (letter, d) ∈ [(quote, quote), (backslash, backslash), (letterN, newline)] := by
  cases s with
  | nil => simp [escape] at h
  | cons d s =>
    rw [JsonString.escape_cons, List.append_assoc] at h
    rcases JsonString.escapeChar_cases d with ⟨-, hbackslash, hchar⟩ | ⟨letter', hchar, hletter⟩
    · rw [hchar] at h
      exact absurd (List.cons.inj h).1 hbackslash
    · rw [hchar] at h
      obtain ⟨rfl, htext⟩ := List.cons.inj (List.cons.inj h).2
      exact ⟨d, s, rfl, htext, hletter⟩

/-- What is read of an escaped string is the string, and only of one that is printable. -/
theorem eq_of_chars_escape (h : Chars (escape s ++ 34 :: tail) value rest) : Printable s ∧ value = s ∧ rest = tail := by
  generalize htext : escape s ++ 34 :: tail = text at h
  induction h generalizing s with
  | close rest =>
    cases s with
    | nil => exact ⟨⟨⟨[], rfl⟩, List.forall_mem_nil _⟩, rfl, (List.cons.inj htext).2.symm⟩
    | cons d s =>
      rw [JsonString.escape_cons, List.append_assoc] at htext
      rcases JsonString.escapeChar_cases d with ⟨hd, -, hchar⟩ | ⟨letter, hchar, -⟩
      · rw [hchar] at htext
        exact absurd (List.cons.inj htext).1 hd
      · rw [hchar] at htext
        simp [backslash] at htext
  | char c hcontrol hquote hbackslash _ ih =>
    have hplain : ∀ b ∈ String.utf8EncodeChar c, b ≠ 34 ∧ b ≠ 92 := by
      intro b hb
      exact ⟨ne_of_mem_utf8EncodeChar (by decide) hquote hb, ne_of_mem_utf8EncodeChar (by decide) hbackslash hb⟩
    obtain ⟨s', rfl, htext'⟩ := eq_append_of_escape hplain htext
    obtain ⟨hprintable, rfl, rfl⟩ := ih htext'
    exact ⟨(printable_char hcontrol).append hprintable, rfl, rfl⟩
  | escape letter b hletter _ ih =>
    obtain ⟨d, s', rfl, htext', hd⟩ := eq_cons_of_escape htext
    obtain ⟨hprintable, rfl, rfl⟩ := ih htext'
    have hb : b = d ∧ Printable [d] := by
      simp only [List.mem_cons, Prod.mk.injEq, List.not_mem_nil, or_false] at hd
      rcases hd with ⟨rfl, rfl⟩ | ⟨rfl, rfl⟩ | ⟨rfl, rfl⟩
      · exact ⟨by simpa [escapes, quote] using hletter, printable_of_ascii rfl⟩
      · exact ⟨by simpa [escapes, backslash] using hletter, printable_of_ascii rfl⟩
      · exact ⟨by simpa [escapes, letterN, newline] using hletter, printable_of_ascii rfl⟩
    obtain ⟨rfl, hsingle⟩ := hb
    exact ⟨hsingle.append hprintable, rfl, rfl⟩
  | unicode c digits hunit _ _ =>
    obtain ⟨d, s', -, -, hd⟩ := eq_cons_of_escape htext
    simp [quote, backslash, letterN] at hd
  | pair c high low _ _ _ _ _ =>
    obtain ⟨d, s', -, -, hd⟩ := eq_cons_of_escape htext
    simp [quote, backslash, letterN] at hd

/-- The escaping writes JSON exactly of printable strings, and nothing else is read of it. -/
theorem chars_escape_iff : Chars (escape s ++ 34 :: tail) value rest ↔ Printable s ∧ value = s ∧ rest = tail := by
  refine ⟨eq_of_chars_escape, ?_⟩
  rintro ⟨h, rfl, rfl⟩
  exact chars_escape h rest

end Characters

/-! ## Reading a value by its first byte -/

section Values

variable {text rest tail literal : List UInt8} {v : Json} {c d : UInt8}

/-- No white space is left before what begins with no white space. -/
theorem Spaces.eq_nil {ws : List UInt8} (hws : Spaces ws) (hc : isSpace c = false) (h : ws ++ rest = c :: text) :
    ws = [] ∧ rest = c :: text := by
  cases ws with
  | nil => exact ⟨rfl, h⟩
  | cons w ws =>
    obtain ⟨rfl, -⟩ := List.cons.inj h
    exact absurd (hws w List.mem_cons_self) (by simp [hc])

/-- White space is in no numeral. -/
theorem not_isNumeric_of_isSpace (h : isSpace c = true) : Decimal.isNumeric c = false := by
  simp only [isSpace, Bool.or_eq_true, decide_eq_true_eq] at h
  rcases h with ((rfl | rfl) | rfl) | rfl <;> rfl

/-- What a number begins with. -/
theorem head_of_isNumber (h : IsNumber literal) : ∃ b digits, literal = b :: digits ∧ Decimal.isNumeric b = true := by
  obtain ⟨hne, hnumeric⟩ := h.isNumeric
  obtain ⟨b, digits, rfl⟩ := List.exists_cons_of_ne_nil hne
  exact ⟨b, digits, rfl, hnumeric b List.mem_cons_self⟩

/-- A value that opens with a quote is a string. -/
theorem value_string_iff : Value (34 :: text) v rest ↔ ∃ s, v = .string s ∧ Chars text s rest := by
  constructor
  · intro h
    generalize htext : 34 :: text = text' at h
    cases h with
    | string h =>
      obtain ⟨-, rfl⟩ := List.cons.inj htext
      exact ⟨_, rfl, h⟩
    | number rest h =>
      obtain ⟨b, digits, rfl, hb⟩ := head_of_isNumber h
      obtain ⟨rfl, -⟩ := List.cons.inj htext
      exact absurd hb (by decide)
    | null | litTrue | litFalse | emptyArray | array | emptyObject | object => simp at htext
  · rintro ⟨s, rfl, h⟩
    exact .string h

/-- A value that opens with a brace is an object. -/
theorem value_object_iff : Value (123 :: text) v rest ↔ (∃ ws, Spaces ws ∧ text = ws ++ 125 :: rest ∧ v = .object []) ∨
    ∃ members, v = .object members ∧ Members text members rest := by
  constructor
  · intro h
    generalize htext : 123 :: text = text' at h
    cases h with
    | emptyObject rest hws => exact .inl ⟨_, hws, (List.cons.inj htext).2, rfl⟩
    | object h =>
      obtain ⟨-, rfl⟩ := List.cons.inj htext
      exact .inr ⟨_, rfl, h⟩
    | number rest h =>
      obtain ⟨b, digits, rfl, hb⟩ := head_of_isNumber h
      obtain ⟨rfl, -⟩ := List.cons.inj htext
      exact absurd hb (by decide)
    | null | litTrue | litFalse | emptyArray | array | string => simp at htext
  · rintro (⟨ws, hws, rfl, rfl⟩ | ⟨members, rfl, h⟩)
    · exact .emptyObject rest hws
    · exact .object h

/-- A text that begins with a number has a number for its value. -/
theorem value_number (h : Value text v rest) (hliteral : IsNumber literal) (htext : text = literal ++ tail) :
    ∃ literal', IsNumber literal' ∧ v = .number literal' ∧ literal ++ tail = literal' ++ rest := by
  obtain ⟨b, digits, rfl, hb⟩ := head_of_isNumber hliteral
  cases h with
  | number rest h => exact ⟨_, h, rfl, htext.symm⟩
  | null | litTrue | litFalse | emptyArray | array | string | emptyObject | object =>
    obtain ⟨rfl, -⟩ := List.cons.inj htext
    exact absurd hb (by decide)

/-- Behind a value comes white space only. -/
theorem item_iff (hc : isSpace c = false) :
    Item (c :: text) v rest ↔ ∃ after, Spaces after ∧ Value (c :: text) v (after ++ rest) := by
  constructor
  · intro h
    generalize htext : c :: text = text' at h
    cases h with
    | mk hbefore hvalue hafter =>
      obtain ⟨hnil, -⟩ := hbefore.eq_nil hc htext.symm
      rw [hnil]
      exact ⟨_, hafter, hvalue⟩
  · rintro ⟨after, hafter, hvalue⟩
    exact @Item.mk [] _ after rest v (List.forall_mem_nil _) hvalue hafter

/-- An item printed as a string stands for that string only. -/
theorem item_string_iff {s : List UInt8} (hc : isSpace c = false) :
    Item (34 :: (escape s ++ 34 :: c :: tail)) v rest ↔ Printable s ∧ v = .string s ∧ rest = c :: tail := by
  rw [item_iff rfl]
  constructor
  · rintro ⟨after, hafter, hvalue⟩
    obtain ⟨value, rfl, hchars⟩ := value_string_iff.1 hvalue
    obtain ⟨hprintable, rfl, hrest⟩ := chars_escape_iff.1 hchars
    exact ⟨hprintable, rfl, (hafter.eq_nil hc hrest).2⟩
  · rintro ⟨hprintable, rfl, rfl⟩
    exact ⟨[], List.forall_mem_nil _, .string (chars_escape hprintable _)⟩

/-- An item printed as a number stands for that number only. -/
theorem item_number_iff (hliteral : IsNumber literal) (hc : c = 44 ∨ c = 125) (hd : d = 44 ∨ d = 125) :
    Item (literal ++ c :: tail) v (d :: rest) ↔ v = .number literal ∧ d :: rest = c :: tail := by
  obtain ⟨b, digits, hb, hnumeric⟩ := head_of_isNumber hliteral
  have hspace : isSpace b = false := by
    cases h : isSpace b with
    | false => rfl
    | true =>
      rw [not_isNumeric_of_isSpace h] at hnumeric
      cases hnumeric
  have hend : ∀ {e : UInt8}, e = 44 ∨ e = 125 → Decimal.isNumeric e = false ∧ isSpace e = false := by
    rintro e (rfl | rfl)
    · exact ⟨rfl, rfl⟩
    · exact ⟨rfl, rfl⟩
  have htext : literal ++ c :: tail = b :: (digits ++ c :: tail) := by rw [hb, List.cons_append]
  rw [htext, item_iff hspace, ← htext]
  constructor
  · rintro ⟨after, hafter, hvalue⟩
    obtain ⟨literal', hliteral', rfl, heq⟩ := value_number hvalue hliteral rfl
    have hafter' : ∀ e ∈ (after ++ d :: rest).head?, Decimal.isNumeric e = false := by
      intro e he
      cases after with
      | nil =>
        obtain rfl : d = e := Option.some.inj he
        exact (hend hd).1
      | cons w after =>
        obtain rfl : w = e := Option.some.inj he
        exact not_isNumeric_of_isSpace (hafter w List.mem_cons_self)
    have hrest : ∀ e ∈ (c :: tail).head?, Decimal.isNumeric e = false := by
      intro e he
      obtain rfl : c = e := Option.some.inj he
      exact (hend hc).1
    obtain ⟨rfl, htail⟩ := Search.run_unique hliteral.isNumeric.2 hliteral'.isNumeric.2 hrest hafter' heq
    exact ⟨rfl, (hafter.eq_nil (hend hc).2 htail.symm).2⟩
  · rintro ⟨rfl, heq⟩
    refine ⟨[], List.forall_mem_nil _, ?_⟩
    rw [List.nil_append, heq]
    exact .number _ hliteral

/-- A member with a printed key has that key. -/
theorem member_iff {name key : List UInt8} :
    KeyValue (34 :: (escape name ++ 34 :: 58 :: text)) key v rest ↔ Printable name ∧ key = name ∧ Item text v rest := by
  constructor
  · intro h
    generalize htext : 34 :: (escape name ++ 34 :: 58 :: text) = text' at h
    cases h with
    | mk hbefore hkey hafterKey hvalue =>
      obtain ⟨-, hchars⟩ := hbefore.eq_nil rfl htext.symm
      rw [(List.cons.inj hchars).2] at hkey
      obtain ⟨hprintable, rfl, hcolon⟩ := chars_escape_iff.1 hkey
      obtain ⟨-, hcolon⟩ := hafterKey.eq_nil rfl hcolon
      rw [(List.cons.inj hcolon).2] at hvalue
      exact ⟨hprintable, rfl, hvalue⟩
  · rintro ⟨hprintable, rfl, hvalue⟩
    exact @KeyValue.mk [] _ _ [] text rest v (List.forall_mem_nil _) (chars_escape hprintable _) (List.forall_mem_nil _) hvalue

/-- Members begin with a quote. -/
theorem quote_of_members {members : List (List UInt8 × Json)} (hc : isSpace c = false)
    (h : Members (c :: text) members rest) : c = 34 := by
  have hmember : ∀ {key v rest}, KeyValue (c :: text) key v rest → c = 34 := by
    intro key v rest h
    generalize htext : c :: text = text' at h
    cases h with
    | mk hbefore _ _ _ => exact (List.cons.inj (hbefore.eq_nil hc htext.symm).2).1.symm
  cases h with
  | last h => exact hmember h
  | more h _ => exact hmember h

/-- Members are one, or one and a comma and more. -/
theorem members_iff {members : List (List UInt8 × Json)} : Members text members rest ↔
    (∃ key v, members = [(key, v)] ∧ KeyValue text key v (125 :: rest)) ∨
      ∃ key v text' members', members = (key, v) :: members' ∧ KeyValue text key v (44 :: text') ∧ Members text' members' rest := by
  constructor
  · intro h
    cases h with
    | last h => exact .inl ⟨_, _, rfl, h⟩
    | more h hrest => exact .inr ⟨_, _, _, _, rfl, h, hrest⟩
  · rintro (⟨key, v, rfl, h⟩ | ⟨key, v, text', members', rfl, h, hrest⟩)
    · exact .last h
    · exact .more h hrest

/-- An escaped key with an escaped string, and a comma: the other members are behind it. -/
theorem members_string_iff {name s : List UInt8} {members : List (List UInt8 × Json)} :
    Members (34 :: (escape name ++ 34 :: 58 :: 34 :: (escape s ++ 34 :: 44 :: tail))) members rest ↔
      Printable name ∧ Printable s ∧ ∃ members', members = (name, .string s) :: members' ∧ Members tail members' rest := by
  rw [members_iff]
  constructor
  · rintro (⟨key, v, rfl, h⟩ | ⟨key, v, text', members', rfl, h, hrest⟩)
    · obtain ⟨-, -, hitem⟩ := member_iff.1 h
      obtain ⟨-, -, heq⟩ := (item_string_iff rfl).1 hitem
      simp at heq
    · obtain ⟨hname, rfl, hitem⟩ := member_iff.1 h
      obtain ⟨hs, rfl, heq⟩ := (item_string_iff rfl).1 hitem
      rw [(List.cons.inj heq).2] at hrest
      exact ⟨hname, hs, members', rfl, hrest⟩
  · rintro ⟨hname, hs, members', rfl, hrest⟩
    exact .inr ⟨name, _, tail, members', rfl, member_iff.2 ⟨hname, rfl, (item_string_iff rfl).2 ⟨hs, rfl, rfl⟩⟩, hrest⟩

end Values

end JsonText
