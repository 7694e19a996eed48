import TradeSurveillance.Lemmas.RecordText

/-!
# What `decode` accepts

The parser finds more than JSON in a text, and reads no further than the closing brace; numbers are read as far as they go. A text that
is accepted is a well-formed record of the event exactly if none of this has been made use of in its one reading
(`decode_wellFormed_iff`).
-/

namespace TradeSurveillance

open JsonGrammar (Body IsNumber IsInt)

/-! ## Well-formed records -/

/-- The key of a member in JSON. -/
def RawMember.keyName (m : RawMember) : Str := JsonGrammar.decode m.key

/-- The tokens of a member are those of JSON. -/
structure RawMember.IsJson (m : RawMember) : Prop where
  blank : Blank m.before ∧ Blank m.afterKey ∧ Blank m.afterColon ∧ Blank m.after
  key : Body m.key
  string : m.quoted = true → Body m.value
  number : m.quoted = false → IsNumber m.value

/-- The members of this key are literals of an integer. -/
def AreLiterals (members : List RawMember) (key : String) (z : ℤ) : Prop :=
  ∀ m ∈ members, m.keyName = ascii key → m.quoted = false ∧ IsInt m.value z

/-- The text is one flat object of JSON, with nothing but white space around it, whose quantity and timestamp are those of the event. -/
def WellFormedRecord {P : Type} (json : Str) (e : Event P) : Prop :=
  ∃ (lead trail : Str) (members : List RawMember), Blank lead ∧ Blank trail ∧ members ≠ [] ∧ (∀ m ∈ members, m.IsJson) ∧
    json = lead ++ 123 :: (joinMembers members ++ 125 :: trail) ∧
    AreLiterals members "qty" e.qty ∧ AreLiterals members "timestamp_ns" e.timestampNs

/-! ## What the parser is lenient about -/

/-- A quantity or a timestamp. -/
def IntegerKey (key : Str) : Prop := key = ascii "qty" ∨ key = ascii "timestamp_ns"

/-- Nothing in the reading is more than JSON has: not behind the object, in a string or in a number; and quantity and timestamp are
written as integers, without quotes, and as the same one if a key is repeated, be it with an escape. -/
structure Reading.Strict {json : Str} (r : Reading json) : Prop where
  rest : Blank r.rest
  strings : ∀ m ∈ r.members, Body m.key ∧ (m.quoted = true → Body m.value)
  numbers : ∀ m ∈ r.members, m.quoted = false → IsNumber m.value
  integers : ∀ m ∈ r.members, IntegerKey m.keyName → m.quoted = false ∧ ∃ z, IsInt m.value z
  repeated : ∀ m ∈ r.members, ∀ n ∈ r.members, IntegerKey m.keyName → m.keyName = n.keyName →
    ∀ y z, IsInt m.value y → IsInt n.value z → y = z

/-- The tokens of JSON are found by the parser. -/
theorem RawMember.IsJson.scans {m : RawMember} (h : m.IsJson) : m.Scans :=
  ⟨h.blank.1, h.key.isBody, h.blank.2.1, h.blank.2.2.1, fun hq => (h.string hq).isBody, fun hq => (h.number hq).isNumeric, h.blank.2.2.2⟩

/-- The parser reads no escape into the key of a quantity or a timestamp. -/
theorem RawMember.Scans.keyName_eq {m : RawMember} (h : m.Scans) (hkey : IntegerKey m.keyRead) : m.keyName = m.keyRead := by
  have hplain : ∀ key, IntegerKey key → ∀ b ∈ key, b ≠ 34 ∧ b ≠ 92 ∧ b ≠ 10 := by
    rintro key (rfl | rfl) <;> decide +kernel
  have hread : m.keyRead = m.key := h.key.read_eq (hplain _ hkey)
  rw [keyName, JsonGrammar.decode_of_not_mem fun hmem => (hplain _ hkey 92 (hread ▸ hmem)).2.1 rfl, hread]

/-! ## Fields -/

theorem lookup_readFields {ms : List RawMember} {fields : Map Str Str} {key value : Str}
    (h : (FlatJsonParser.readFields fields ms).lookup key = some value) :
    fields.lookup key = some value ∨ ∃ m ∈ ms, m.keyRead = key ∧ m.valueRead = value := by
  induction ms generalizing fields with
  | nil => exact .inl h
  | cons m ms ih =>
    rcases ih h with hfields | ⟨n, hn, hread⟩
    · by_cases hkey : key = m.keyRead
      · subst hkey
        rw [Finmap.lookup_insert] at hfields
        exact .inr ⟨m, List.mem_cons_self, rfl, Option.some.inj hfields⟩
      · rw [Finmap.lookup_insert_of_ne _ hkey] at hfields
        exact .inl hfields
    · exact .inr ⟨n, List.mem_cons_of_mem _ hn, hread⟩

theorem require_eq_ok {fields : Map Str Str} {key : String} {value : Str} (h : require fields key = .ok value) :
    fields.lookup (ascii key) = some value := by
  unfold require at h
  cases hlookup : fields.lookup (ascii key) with
  | none =>
    rw [hlookup] at h
    cases h
  | some value' =>
    rw [hlookup] at h
    cases h
    rfl

variable {P : Type} [Double P] {json : Str} {e : Event P}

/-- Where quantity and timestamp come from. -/
theorem decode_fields (h : decode json = .ok e) : ∃ fields, FlatJsonParser.parseObject json = .ok fields ∧
    (∃ value, fields.lookup (ascii "qty") = some value ∧ stoll value = .ok e.qty) ∧
    ∃ value, fields.lookup (ascii "timestamp_ns") = some value ∧ stoll value = .ok e.timestampNs := by
  obtain ⟨fields, hfields, h⟩ := bind_eq_ok h
  obtain ⟨type, -, h⟩ := bind_eq_ok h
  refine ⟨fields, hfields, ?_⟩
  split_ifs at h with horder hexecution
  · obtain ⟨orderId, -, h⟩ := bind_eq_ok h
    obtain ⟨accountId, -, h⟩ := bind_eq_ok h
    obtain ⟨instrumentId, -, h⟩ := bind_eq_ok h
    obtain ⟨sideText, -, h⟩ := bind_eq_ok h
    obtain ⟨side, -, h⟩ := bind_eq_ok h
    obtain ⟨priceText, -, h⟩ := bind_eq_ok h
    obtain ⟨price, -, h⟩ := bind_eq_ok h
    obtain ⟨qtyText, hqtyText, h⟩ := bind_eq_ok h
    obtain ⟨qty, hqty, h⟩ := bind_eq_ok h
    obtain ⟨typeText, -, h⟩ := bind_eq_ok h
    obtain ⟨orderType, -, h⟩ := bind_eq_ok h
    obtain ⟨tsText, htsText, h⟩ := bind_eq_ok h
    obtain ⟨ts, hts, h⟩ := bind_eq_ok h
    obtain ⟨statusText, -, h⟩ := bind_eq_ok h
    obtain ⟨status, -, h⟩ := bind_eq_ok h
    obtain ⟨venue, -, h⟩ := bind_eq_ok h
    obtain ⟨origOrderId, -, h⟩ := bind_eq_ok h
    cases h
    exact ⟨⟨qtyText, require_eq_ok hqtyText, hqty⟩, ⟨tsText, require_eq_ok htsText, hts⟩⟩
  · obtain ⟨tradeId, -, h⟩ := bind_eq_ok h
    obtain ⟨orderId, -, h⟩ := bind_eq_ok h
    obtain ⟨accountId, -, h⟩ := bind_eq_ok h
    obtain ⟨instrumentId, -, h⟩ := bind_eq_ok h
    obtain ⟨sideText, -, h⟩ := bind_eq_ok h
    obtain ⟨side, -, h⟩ := bind_eq_ok h
    obtain ⟨priceText, -, h⟩ := bind_eq_ok h
    obtain ⟨price, -, h⟩ := bind_eq_ok h
    obtain ⟨qtyText, hqtyText, h⟩ := bind_eq_ok h
    obtain ⟨qty, hqty, h⟩ := bind_eq_ok h
    obtain ⟨tsText, htsText, h⟩ := bind_eq_ok h
    obtain ⟨ts, hts, h⟩ := bind_eq_ok h
    obtain ⟨counterparty, -, h⟩ := bind_eq_ok h
    obtain ⟨venue, -, h⟩ := bind_eq_ok h
    cases h
    exact ⟨⟨qtyText, require_eq_ok hqtyText, hqty⟩, ⟨tsText, require_eq_ok htsText, hts⟩⟩

/-- A literal is converted to its integer. -/
theorem stoll_literal {text : Str} {y z : ℤ} (hliteral : IsInt text y) (h : stoll text = .ok z) : y = z := by
  unfold stoll at h
  rw [hliteral.readInt] at h
  simp only at h
  split_ifs at h
  cases h
  rfl

/-- In a strict reading, the members of an integer key are literals of what is read for it. -/
theorem Reading.Strict.areLiterals {r : Reading json} (hr : r.Strict) {key : String} (hkey : IntegerKey (ascii key)) {value : Str} {z : ℤ}
    (hlookup : (FlatJsonParser.readFields ∅ r.members).lookup (ascii key) = some value) (hvalue : stoll value = .ok z) :
    AreLiterals r.members key z := by
  rcases lookup_readFields hlookup with hempty | ⟨n, hn, hnkey, hread⟩
  · rw [Finmap.lookup_empty] at hempty
    cases hempty
  · have hname := (r.scans n hn).keyName_eq (hnkey ▸ hkey)
    obtain ⟨hnbare, y, hy⟩ := hr.integers n hn (hname ▸ hnkey ▸ hkey)
    have hnvalue : n.value = value := by
      rw [← hread, RawMember.valueRead, hnbare]
      rfl
    obtain rfl := stoll_literal (hnvalue ▸ hy) hvalue
    rw [← hname] at hnkey
    intro m hm hmkey
    obtain ⟨hmbare, x, hx⟩ := hr.integers m hm (hmkey ▸ hkey)
    obtain rfl := hr.repeated m hm n hn (hmkey ▸ hkey) (hmkey.trans hnkey.symm) x y hx hy
    exact ⟨hmbare, hx⟩

/-! ## Acceptance -/

/-- A text that is accepted has one reading, and is a well-formed record of the event exactly if that is strict. -/
theorem decode_wellFormed_iff (h : decode json = .ok e) : ∃ r : Reading json, (∀ r', r' = r) ∧ (WellFormedRecord json e ↔ r.Strict) := by
  obtain ⟨fields, hfields, ⟨qtyText, hqtyText, hqty⟩, tsText, htsText, hts⟩ := decode_fields h
  rcases FlatJsonParser.exists_reading hfields with rfl | ⟨r, rfl⟩
  · rw [Finmap.lookup_empty] at hqtyText
    cases hqtyText
  refine ⟨r, fun r' => Reading.unique r' r, ?_⟩
  constructor
  · rintro ⟨lead, trail, members, hlead, htrail, hne, hjson, htext, hqtys, htss⟩
    obtain rfl : r = ⟨lead, members, trail, hlead, fun m hm => (hjson m hm).scans, hne, htext⟩ := Reading.unique _ _
    have hinteger : ∀ m ∈ members, IntegerKey m.keyName →
        ∃ z, (∀ n ∈ members, n.keyName = m.keyName → n.quoted = false ∧ IsInt n.value z) := by
      rintro m hm (hkey | hkey)
      · exact ⟨e.qty, fun n hn hnm => hqtys n hn (hnm.trans hkey)⟩
      · exact ⟨e.timestampNs, fun n hn hnm => htss n hn (hnm.trans hkey)⟩
    refine ⟨htrail, fun m hm => ⟨(hjson m hm).key, (hjson m hm).string⟩, fun m hm => (hjson m hm).number, ?_, ?_⟩
    · intro m hm hkey
      obtain ⟨z, hz⟩ := hinteger m hm hkey
      exact ⟨(hz m hm rfl).1, z, (hz m hm rfl).2⟩
    · intro m hm n hn hkey hmn x y hx hy
      obtain ⟨z, hz⟩ := hinteger m hm hkey
      exact (hx.unique (hz m hm rfl).2).trans ((hz n hn hmn.symm).2.unique hy)
  · intro hr
    refine ⟨r.lead, r.rest, r.members, r.blank, hr.rest, r.ne_nil, ?_, r.text, hr.areLiterals (.inl rfl) hqtyText hqty,
      hr.areLiterals (.inr rfl) htsText hts⟩
    intro m hm
    have hscans := r.scans m hm
    exact ⟨⟨hscans.before, hscans.afterKey, hscans.afterColon, hscans.after⟩, (hr.strings m hm).1, (hr.strings m hm).2, hr.numbers m hm⟩

/-! ## One record -/

/-- An execution with one-letter names. -/
def briefExecution : Event ℚ :=
  .execution ⟨ascii "T", ascii "A", ascii "C", ascii "X", .buy, 100, 7, 5, ascii "D", ascii "V"⟩

theorem decode_wellFormed_brief : ∃ r : Reading (encode briefExecution), (∀ r', r' = r) ∧
    (WellFormedRecord (encode briefExecution) briefExecution ↔ r.Strict) :=
  decode_wellFormed_iff (by decide +kernel)

/-- What a well-formed record ends with. -/
theorem WellFormedRecord.getLast {Q : Type} {e' : Event Q} (h : WellFormedRecord json e') :
    ∀ c ∈ json.getLast?, c = 125 ∨ Decimal.isSpace c = true := by
  obtain ⟨lead, trail, members, -, htrail, -, -, rfl, -⟩ := h
  intro c hc
  rw [List.append_cons, ← List.append_assoc, List.append_cons, List.getLast?_append, Option.mem_def] at hc
  cases hlast : trail.getLast? with
  | none =>
    rw [hlast, Option.none_or, List.getLast?_concat] at hc
    exact .inl (Option.some.inj hc).symm
  | some d =>
    rw [hlast, Option.some_or] at hc
    obtain rfl := Option.some.inj hc
    exact .inr (htrail d (List.mem_of_getLast? hlast))

/-- A letter behind the record is read over. -/
theorem trailing_byte_accepted : ¬∀ (json : Str) (e : Event ℚ), decode json = .ok e → WellFormedRecord json e := by
  intro h
  have hdecode : decode (encode briefExecution ++ ascii "x") = .ok briefExecution := by decide +kernel
  have hlast := (h _ _ hdecode).getLast 120 (by decide +kernel)
  exact absurd hlast (by decide)

/-- A quantity is read as far as it is an integer. -/
example : decode (ascii "\x7b\"type\":\"execution\",\"trade_id\":\"T\",\"order_id\":\"A\",\"account_id\":\"C\"," ++
    ascii "\"instrument_id\":\"X\",\"side\":\"Buy\",\"price\":100,\"qty\":7.9e3,\"timestamp_ns\":\"5ns\"," ++
    ascii "\"counterparty_account_id\":\"D\",\"venue\":\"V\"\x7d") = .ok briefExecution := by decide +kernel

end TradeSurveillance
