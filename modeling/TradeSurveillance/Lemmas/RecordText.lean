import TradeSurveillance.Ingestion.EventCodec
import TradeSurveillance.Lib.JsonGrammar
import TradeSurveillance.Lib.Search

/-!
# The text of a record, as the parser takes it apart

`Reading` is a text with the tokens that the parser of the codec finds in it: bodies of strings, runs of numeric characters, white space,
and whatever follows the closing brace. Every text that is parsed has one (`exists_reading`), and no text has two (`Reading.unique`).
-/

namespace TradeSurveillance

open Search (run_unique)

/-- White space. -/
def Blank (text : Str) : Prop := ∀ c ∈ text, Decimal.isSpace c = true

/-! ## Members -/

/-- The tokens of a member and the white space between them; `key` and `value` are what stands between quotes, or a bare value. -/
structure RawMember where
  before : Str
  key : Str
  afterKey : Str
  afterColon : Str
  quoted : Bool
  value : Str
  after : Str

namespace RawMember

/-- The value with its quotes. -/
def valueText (m : RawMember) : Str := if m.quoted then 34 :: (m.value ++ [34]) else m.value

/-- The text up to the end of the value. -/
def front (m : RawMember) : Str := m.before ++ 34 :: (m.key ++ 34 :: (m.afterKey ++ 58 :: (m.afterColon ++ m.valueText)))

/-- The text of a member. -/
def text (m : RawMember) : Str := m.front ++ m.after

/-- The key that the parser reads. -/
def keyRead (m : RawMember) : Str := JsonString.read m.key

/-- The value that the parser reads. -/
def valueRead (m : RawMember) : Str := if m.quoted then JsonString.read m.value else m.value

/-- The parser can take the text apart into these tokens. -/
structure Scans (m : RawMember) : Prop where
  before : Blank m.before
  key : JsonString.IsBody m.key
  afterKey : Blank m.afterKey
  afterColon : Blank m.afterColon
  string : m.quoted = true → JsonString.IsBody m.value
  number : m.quoted = false → m.value ≠ [] ∧ ∀ c ∈ m.value, Decimal.isNumeric c = true
  after : Blank m.after

end RawMember

/-- The text of members, with the commas between them. -/
def joinMembers (ms : List RawMember) : Str := List.intercalate [44] (ms.map RawMember.text)

/-- A text with the tokens the parser finds in it. -/
structure Reading (json : Str) where
  lead : Str
  members : List RawMember
  rest : Str
  blank : Blank lead
  scans : ∀ m ∈ members, m.Scans
  ne_nil : members ≠ []
  text : json = lead ++ 123 :: (joinMembers members ++ 125 :: rest)

/-! ## One reading -/

section Unique

variable {m m' : RawMember} {rest rest' : Str}

/-- What a value begins with is no white space. -/
theorem RawMember.Scans.head_valueText (h : m.Scans) (rest : Str) :
    ∃ c ∈ (m.valueText ++ rest).head?, Decimal.isSpace c = false ∧ (c = 34 ↔ m.quoted = true) := by
  unfold RawMember.valueText
  cases hquoted : m.quoted with
  | true => exact ⟨34, rfl, rfl, by simp⟩
  | false =>
    obtain ⟨hne, hnumeric⟩ := h.number hquoted
    obtain ⟨c, value, hvalue⟩ := List.exists_cons_of_ne_nil hne
    have hc := hnumeric c (hvalue ▸ List.mem_cons_self)
    refine ⟨c, by simp [hvalue], Decimal.not_isSpace_of_isNumeric hc, ?_⟩
    refine iff_of_false ?_ (by simp)
    rintro rfl
    exact absurd hc (by decide)

/-- A comma or a brace, which ends a member, belongs to no token. -/
theorem not_token_of_ends (hrest : ∃ c ∈ rest.head?, c = 44 ∨ c = 125) :
    ∀ c ∈ rest.head?, Decimal.isSpace c = false ∧ Decimal.isNumeric c = false := by
  obtain ⟨c, hc, hcases⟩ := hrest
  intro d hd
  obtain rfl : c = d := Option.some.inj (hc.symm.trans hd)
  rcases hcases with rfl | rfl
  · exact ⟨rfl, rfl⟩
  · exact ⟨rfl, rfl⟩

/-- A value does not begin with white space. -/
theorem RawMember.Scans.head_value_not_space (h : m.Scans) : ∀ c ∈ (m.valueText ++ rest).head?, Decimal.isSpace c = false := by
  intro d hd
  obtain ⟨c, hc, hspace, -⟩ := h.head_valueText rest
  obtain rfl : c = d := Option.some.inj (hc.symm.trans hd)
  exact hspace

/-- What follows a value is no part of a number. -/
theorem RawMember.Scans.head_after_not_numeric (h : m.Scans) (hrest : ∃ c ∈ rest.head?, c = 44 ∨ c = 125) :
    ∀ c ∈ (m.after ++ rest).head?, Decimal.isNumeric c = false := by
  intro c hc
  cases hafter : m.after with
  | nil =>
    rw [hafter] at hc
    exact (not_token_of_ends hrest c hc).2
  | cons b text =>
    rw [hafter] at hc
    obtain rfl : b = c := Option.some.inj hc
    have hspace := h.after b (hafter ▸ List.mem_cons_self)
    by_contra hnumeric
    rw [Decimal.not_isSpace_of_isNumeric (by simpa using hnumeric)] at hspace
    cases hspace

/-- A text begins with one value. -/
theorem RawMember.Scans.value_unique (h : m.Scans) (h' : m'.Scans) (hrest : ∃ c ∈ rest.head?, c = 44 ∨ c = 125)
    (hrest' : ∃ c ∈ rest'.head?, c = 44 ∨ c = 125) (htext : m.valueText ++ (m.after ++ rest) = m'.valueText ++ (m'.after ++ rest')) :
    m.quoted = m'.quoted ∧ m.value = m'.value ∧ m.after ++ rest = m'.after ++ rest' := by
  have hquoted : m.quoted = m'.quoted := by
    obtain ⟨c, hc, -, hiff⟩ := h.head_valueText (m.after ++ rest)
    obtain ⟨d, hd, -, hiff'⟩ := h'.head_valueText (m'.after ++ rest')
    rw [htext] at hc
    obtain rfl : c = d := Option.some.inj (hc.symm.trans hd)
    exact Bool.eq_iff_iff.2 (hiff.symm.trans hiff')
  refine ⟨hquoted, ?_⟩
  unfold RawMember.valueText at htext
  cases hq : m.quoted with
  | true =>
    rw [if_pos hq, if_pos (hquoted ▸ hq)] at htext
    simp only [List.cons_append, List.append_assoc] at htext
    exact (h.string hq).unique (h'.string (hquoted ▸ hq)) (List.cons.inj htext).2
  | false =>
    have hq' : m'.quoted = false := hquoted ▸ hq
    rw [if_neg (by simp [hq]), if_neg (by simp [hq'])] at htext
    exact run_unique (h.number hq).2 (h'.number hq').2 (h.head_after_not_numeric hrest) (h'.head_after_not_numeric hrest') htext

/-- A text begins with one member, if a comma or a brace ends it. -/
theorem RawMember.Scans.unique (h : m.Scans) (h' : m'.Scans) (hrest : ∃ c ∈ rest.head?, c = 44 ∨ c = 125)
    (hrest' : ∃ c ∈ rest'.head?, c = 44 ∨ c = 125) (htext : m.text ++ rest = m'.text ++ rest') : m = m' ∧ rest = rest' := by
  have hhead : ∀ {c : UInt8} {text : Str}, Decimal.isSpace c = false → ∀ d ∈ (c :: text).head?, Decimal.isSpace d = false := by
    intro c text hc d hd
    obtain rfl : c = d := Option.some.inj hd
    exact hc
  simp only [RawMember.text, RawMember.front, List.append_assoc, List.cons_append] at htext
  obtain ⟨hbefore, htext⟩ := run_unique h.before h'.before (hhead rfl) (hhead rfl) htext
  obtain ⟨hkey, htext⟩ := h.key.unique h'.key (List.cons.inj htext).2
  obtain ⟨hafterKey, htext⟩ := run_unique h.afterKey h'.afterKey (hhead rfl) (hhead rfl) htext
  obtain ⟨hafterColon, htext⟩ :=
    run_unique h.afterColon h'.afterColon h.head_value_not_space h'.head_value_not_space (List.cons.inj htext).2
  obtain ⟨hquoted, hvalue, htext⟩ := h.value_unique h' hrest hrest' htext
  obtain ⟨hafter, htext⟩ := run_unique h.after h'.after (fun c hc => (not_token_of_ends hrest c hc).1)
    (fun c hc => (not_token_of_ends hrest' c hc).1) htext
  refine ⟨?_, htext⟩
  cases m
  cases m'
  simp only at hbefore hkey hafterKey hafterColon hquoted hvalue hafter
  simp only [hbefore, hkey, hafterKey, hafterColon, hquoted, hvalue, hafter]

/-- The text of more than one member. -/
theorem joinMembers_cons (m : RawMember) {ms : List RawMember} (h : ms ≠ []) :
    joinMembers (m :: ms) = m.text ++ 44 :: joinMembers ms := by
  obtain ⟨n, ms, rfl⟩ := List.exists_cons_of_ne_nil h
  unfold joinMembers
  rw [List.map_cons, List.map_cons, List.intercalate_cons_cons, List.append_assoc]
  rfl

/-- The text of one member. -/
theorem joinMembers_singleton (m : RawMember) : joinMembers [m] = m.text := List.intercalate_singleton

/-- A text begins with one list of members, if a brace ends it. -/
theorem joinMembers_unique {ms ms' : List RawMember} (h : ∀ m ∈ ms, m.Scans) (h' : ∀ m ∈ ms', m.Scans) (hne : ms ≠ []) (hne' : ms' ≠ [])
    (htext : joinMembers ms ++ 125 :: rest = joinMembers ms' ++ 125 :: rest') : ms = ms' ∧ rest = rest' := by
  induction ms generalizing ms' with
  | nil => exact absurd rfl hne
  | cons m ms ih =>
    obtain ⟨m', ms', rfl⟩ := List.exists_cons_of_ne_nil hne'
    have hm := h m List.mem_cons_self
    have hm' := h' m' List.mem_cons_self
    -- the first members are one, and what follows them is the same
    have hfirst : ∀ {c c' : UInt8} {text text' : Str}, c = 44 ∨ c = 125 → c' = 44 ∨ c' = 125 →
        m.text ++ c :: text = m'.text ++ c' :: text' → m = m' ∧ c = c' ∧ text = text' := by
      intro c c' text text' hc hc' heq
      obtain ⟨hmm, hcons⟩ := hm.unique hm' ⟨c, rfl, hc⟩ ⟨c', rfl, hc'⟩ heq
      exact ⟨hmm, List.cons.inj hcons⟩
    by_cases hms : ms = []
    · subst hms
      by_cases hms' : ms' = []
      · subst hms'
        rw [joinMembers_singleton, joinMembers_singleton] at htext
        obtain ⟨rfl, -, rfl⟩ := hfirst (.inr rfl) (.inr rfl) htext
        exact ⟨rfl, rfl⟩
      · rw [joinMembers_singleton, joinMembers_cons m' hms', List.append_assoc, List.cons_append] at htext
        exact absurd (hfirst (.inr rfl) (.inl rfl) htext).2.1 (by decide)
    · by_cases hms' : ms' = []
      · subst hms'
        rw [joinMembers_singleton, joinMembers_cons m hms, List.append_assoc, List.cons_append] at htext
        exact absurd (hfirst (.inl rfl) (.inr rfl) htext).2.1 (by decide)
      · rw [joinMembers_cons m hms, joinMembers_cons m' hms', List.append_assoc, List.append_assoc, List.cons_append,
          List.cons_append] at htext
        obtain ⟨rfl, -, htext⟩ := hfirst (.inl rfl) (.inl rfl) htext
        obtain ⟨rfl, rfl⟩ := ih (fun n hn => h n (List.mem_cons_of_mem _ hn)) (fun n hn => h' n (List.mem_cons_of_mem _ hn)) hms hms' htext
        exact ⟨rfl, rfl⟩

/-- No text has two readings. -/
theorem Reading.unique {json : Str} (r r' : Reading json) : r = r' := by
  obtain ⟨lead, members, rest, blank, scans, ne_nil, text⟩ := r
  obtain ⟨lead', members', rest', blank', scans', ne_nil', text'⟩ := r'
  have hbrace : ∀ {text : Str}, ∀ c ∈ (123 :: text : Str).head?, Decimal.isSpace c = false := by
    intro text c hc
    obtain rfl : 123 = c := Option.some.inj hc
    rfl
  obtain ⟨rfl, htext⟩ := run_unique blank blank' hbrace hbrace (text.symm.trans text')
  obtain ⟨rfl, rfl⟩ := joinMembers_unique scans scans' ne_nil ne_nil' (List.cons.inj htext).2
  rfl

end Unique

/-! ## Every text that is parsed has one -/

namespace FlatJsonParser

variable {text rest : Str} {c : UInt8}

/-- What `peek` skips and shows. -/
theorem peek_spec (h : peek text = .ok (c, rest)) :
    ∃ ws, Blank ws ∧ text = ws ++ rest ∧ (∃ tail, rest = c :: tail) ∧ Decimal.isSpace c = false := by
  unfold peek at h
  have hsplit : text.takeWhile Decimal.isSpace ++ skipWs text = text := List.takeWhile_append_dropWhile
  cases hskip : skipWs text with
  | nil =>
    rw [hskip] at h
    cases h
  | cons b tail =>
    rw [hskip] at h hsplit
    cases h
    refine ⟨_, fun b hb => List.mem_takeWhile_imp hb, hsplit.symm, ⟨tail, rfl⟩, ?_⟩
    have hhead := List.head?_dropWhile_not Decimal.isSpace text
    rw [show text.dropWhile Decimal.isSpace = c :: tail from hskip] at hhead
    simpa using hhead

/-- There is no white space left behind white space. -/
theorem skipWs_skipWs (text : Str) : skipWs (skipWs text) = skipWs text := List.dropWhile_idempotent _ _

/-- `peek` skips white space itself. -/
theorem peek_skipWs (text : Str) : peek (skipWs text) = peek text := by rw [peek, peek, skipWs_skipWs]

/-- So does `expect`. -/
theorem expect_skipWs (c : UInt8) (text : Str) : expect c (skipWs text) = expect c text := by rw [expect, expect, peek_skipWs]

/-- What `expect` skips and takes. -/
theorem expect_spec (h : expect c text = .ok rest) : ∃ ws, Blank ws ∧ text = ws ++ c :: rest := by
  obtain ⟨⟨found, text'⟩, hpeek, hfound⟩ := bind_eq_ok h
  obtain ⟨ws, hblank, rfl, ⟨tail, rfl⟩, -⟩ := peek_spec hpeek
  simp only at hfound
  split_ifs at hfound with heq
  cases hfound
  exact ⟨ws, hblank, by rw [not_not.1 heq, List.tail_cons]⟩

/-- What `parse_raw_string` takes, and what it reads it as. -/
theorem parseRawString_spec {out : Str} (h : parseRawString text = .ok (out, rest)) :
    ∃ ws body, Blank ws ∧ text = ws ++ 34 :: (body ++ 34 :: rest) ∧ JsonString.IsBody body ∧ JsonString.read body = out := by
  obtain ⟨text', hopen, h⟩ := bind_eq_ok h
  obtain ⟨text'', hclose, h⟩ := bind_eq_ok h
  cases h
  obtain ⟨ws, hblank, rfl⟩ := expect_spec hopen
  have hrest : (JsonString.unescape text').2 = 34 :: rest := by
    rcases JsonString.unescape_rest text' with hnil | ⟨tail, htail⟩
    · rw [hnil] at hclose
      cases hclose
    · rw [htail] at hclose ⊢
      cases hclose
      rfl
  obtain ⟨body, rfl, hbody, hread⟩ := JsonString.exists_body (Prod.ext rfl hrest)
  exact ⟨ws, body, hblank, rfl, hbody, hread⟩

/-- What `parse_raw_number` takes. -/
theorem parseRawNumber_spec {number : Str} (h : parseRawNumber text = .ok (number, rest)) :
    text = number ++ rest ∧ number ≠ [] ∧ ∀ b ∈ number, Decimal.isNumeric b = true := by
  unfold parseRawNumber at h
  simp only at h
  split_ifs at h with hne
  cases h
  exact ⟨List.takeWhile_append_dropWhile.symm, hne, fun b hb => List.mem_takeWhile_imp hb⟩

/-- The value of a member. -/
def parseValue (c : UInt8) (text : Str) : Except Exception (Str × Str) := if c = 34 then parseRawString text else parseRawNumber text

/-- A member is a key, a colon and a value. -/
theorem parseMember_eq (text : Str) : parseMember text = (do
    let key ← parseRawString (skipWs text)
    let text ← expect 58 (skipWs key.2)
    let first ← peek (skipWs text)
    let value ← parseValue first.1 first.2
    .ok ((key.1, value.1), value.2)) := by
  unfold parseMember parseValue
  refine congrArg _ (funext fun key => congrArg _ (funext fun text => congrArg _ (funext fun first => ?_)))
  simp only
  split_ifs <;> rfl

/-- White space before a character that is none is empty. -/
theorem eq_nil_of_blank {ws tail : Str} (hws : Blank ws) (hspace : Decimal.isSpace c = false) (h : c :: tail = ws ++ rest) : ws = [] := by
  cases ws with
  | nil => rfl
  | cons b ws =>
    obtain rfl := (List.cons.inj h).1
    rw [hws c List.mem_cons_self] at hspace
    cases hspace

/-- The tokens of a member that is parsed; no white space behind it is looked at. -/
theorem parseMember_spec {key value : Str} (h : parseMember text = .ok ((key, value), rest)) :
    ∃ m : RawMember, m.Scans ∧ m.after = [] ∧ text = m.front ++ rest ∧ m.keyRead = key ∧ m.valueRead = value := by
  rw [parseMember_eq] at h
  obtain ⟨⟨key', text₁⟩, hkey, hbind⟩ := bind_eq_ok h
  obtain ⟨text₂, hcolon, hbind⟩ := bind_eq_ok hbind
  obtain ⟨⟨c, text₃⟩, hpeek, hbind⟩ := bind_eq_ok hbind
  obtain ⟨⟨value', text₄⟩, hvalue, hbind⟩ := bind_eq_ok hbind
  cases hbind
  have hopen : parseRawString (skipWs text) = parseRawString text := by rw [parseRawString, parseRawString, expect_skipWs]
  rw [hopen] at hkey
  rw [expect_skipWs] at hcolon
  rw [peek_skipWs] at hpeek
  obtain ⟨before, body, hbefore, rfl, hbody, hread⟩ := parseRawString_spec hkey
  obtain ⟨afterKey, hafterKey, rfl⟩ := expect_spec hcolon
  obtain ⟨afterColon, hafterColon, rfl, ⟨tail, rfl⟩, hspace⟩ := peek_spec hpeek
  unfold parseValue at hvalue
  split_ifs at hvalue with hquote
  · obtain ⟨ws, raw, hws, htext, hraw, hvalue⟩ := parseRawString_spec hvalue
    -- the quote is what was peeked at, so no white space is before it
    obtain rfl := eq_nil_of_blank hws hspace htext
    refine ⟨⟨before, body, afterKey, afterColon, true, raw, []⟩, ?_, rfl, ?_, hread, hvalue⟩
    · exact ⟨hbefore, hbody, hafterKey, hafterColon, fun _ => hraw, fun h => absurd h Bool.noConfusion, List.forall_mem_nil _⟩
    · rw [show c :: tail = 34 :: (raw ++ 34 :: text₄) from htext]
      simp [RawMember.front, RawMember.valueText]
  · obtain ⟨htext, hne, hnumeric⟩ := parseRawNumber_spec hvalue
    refine ⟨⟨before, body, afterKey, afterColon, false, value', []⟩, ?_, rfl, ?_, hread, rfl⟩
    · exact ⟨hbefore, hbody, hafterKey, hafterColon, fun h => absurd h Bool.noConfusion, fun _ => ⟨hne, hnumeric⟩, List.forall_mem_nil _⟩
    · rw [show c :: tail = value' ++ text₄ from htext]
      simp [RawMember.front, RawMember.valueText]

/-- The fields that members are read as. -/
def readFields (fields : Map Str Str) (ms : List RawMember) : Map Str Str :=
  ms.foldl (fun fields m => fields.insert m.keyRead m.valueRead) fields

/-- What the parser takes as members, and what it reads them as. -/
theorem parseMembers_spec {fuel : ℕ} {fields fields' : Map Str Str} (h : parseMembers fuel fields text = .ok (fields', rest)) :
    ∃ ms, ms ≠ [] ∧ (∀ m ∈ ms, m.Scans) ∧ text = joinMembers ms ++ rest ∧ fields' = readFields fields ms ∧
      ∃ c tail, rest = c :: tail ∧ Decimal.isSpace c = false := by
  induction fuel generalizing fields text with
  | zero => cases h
  | succ fuel ih =>
    obtain ⟨⟨⟨key, value⟩, text₁⟩, hmember, hbind⟩ := bind_eq_ok h
    obtain ⟨⟨c, text₂⟩, hpeek, hnext⟩ := bind_eq_ok hbind
    obtain ⟨m, hscans, hafter, rfl, rfl, rfl⟩ := parseMember_spec hmember
    rw [peek_skipWs] at hpeek
    obtain ⟨ws, hblank, rfl, ⟨tail, rfl⟩, hspace⟩ := peek_spec hpeek
    have hscans' : RawMember.Scans { m with after := ws } :=
      ⟨hscans.before, hscans.key, hscans.afterKey, hscans.afterColon, hscans.string, hscans.number, hblank⟩
    simp only at hnext
    split_ifs at hnext with hcomma
    · obtain ⟨ms, hne, hms, htail, rfl, hrest⟩ := ih hnext
      refine ⟨{ m with after := ws } :: ms, List.cons_ne_nil _ _, List.forall_mem_cons.2 ⟨hscans', hms⟩, ?_, rfl, hrest⟩
      rw [joinMembers_cons _ hne, hcomma, show tail = joinMembers ms ++ rest from htail]
      simp [RawMember.text, RawMember.front, RawMember.valueText]
    · cases hnext
      refine ⟨[{ m with after := ws }], List.cons_ne_nil _ _, List.forall_mem_singleton.2 hscans', ?_, rfl, c, tail, rfl, hspace⟩
      rw [joinMembers_singleton]
      simp [RawMember.text, RawMember.front, RawMember.valueText]

/-- White space before the first member. -/
theorem joinMembers_before (ws : Str) (m : RawMember) (ms : List RawMember) :
    joinMembers ({ m with before := ws ++ m.before } :: ms) = ws ++ joinMembers (m :: ms) := by
  by_cases hms : ms = []
  · subst hms
    rw [joinMembers_singleton, joinMembers_singleton]
    simp [RawMember.text, RawMember.front, RawMember.valueText]
  · rw [joinMembers_cons _ hms, joinMembers_cons _ hms]
    simp [RawMember.text, RawMember.front, RawMember.valueText]

/-- What is parsed has no members, or a reading. -/
theorem exists_reading {json : Str} {fields : Map Str Str} (h : parseObject json = .ok fields) :
    fields = ∅ ∨ ∃ r : Reading json, fields = readFields ∅ r.members := by
  obtain ⟨text₁, hopen, h⟩ := bind_eq_ok h
  obtain ⟨⟨c, text₂⟩, hpeek, h⟩ := bind_eq_ok h
  simp only at h
  split_ifs at h with hempty
  · cases h
    exact .inl rfl
  · obtain ⟨⟨fields', text₃⟩, hmembers, h⟩ := bind_eq_ok h
    obtain ⟨text₄, hclose, h⟩ := bind_eq_ok h
    cases h
    obtain ⟨lead, hlead, rfl⟩ := expect_spec hopen
    obtain ⟨ws, hws, rfl, -, -⟩ := peek_spec hpeek
    obtain ⟨ms, hne, hms, htext, rfl, d, tail, rfl, hspace⟩ := parseMembers_spec hmembers
    obtain ⟨ws', hws', hbrace⟩ := expect_spec hclose
    obtain rfl := eq_nil_of_blank hws' hspace hbrace
    obtain ⟨rfl, rfl⟩ := List.cons.inj hbrace
    obtain ⟨m, ms, rfl⟩ := List.exists_cons_of_ne_nil hne
    obtain ⟨hm, hms⟩ := List.forall_mem_cons.1 hms
    have hblank : Blank (ws ++ m.before) := List.forall_mem_append.2 ⟨hws, hm.before⟩
    have hm' : RawMember.Scans { m with before := ws ++ m.before } :=
      ⟨hblank, hm.key, hm.afterKey, hm.afterColon, hm.string, hm.number, hm.after⟩
    refine .inr ⟨⟨lead, { m with before := ws ++ m.before } :: ms, tail, hlead, List.forall_mem_cons.2 ⟨hm', hms⟩,
      List.cons_ne_nil _ _, ?_⟩, rfl⟩
    rw [joinMembers_before, show text₂ = joinMembers (m :: ms) ++ 125 :: tail from htext, List.append_assoc]

end FlatJsonParser

end TradeSurveillance
