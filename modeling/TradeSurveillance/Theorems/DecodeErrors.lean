import TradeSurveillance.Lemmas.RecordText

/-!
# What `decode` throws

The parser and `require` throw `std::runtime_error`; the conversions of names and numbers throw something else. So `decode` throws
something else exactly if a conversion fails before a field is missing (`decode_throws_iff`). The loop of the parser needs no more passes
than the text has characters (`parseMembers_fuel`).
-/

namespace TradeSurveillance

/-! ## Exceptions -/

/-- Nothing but a `std::runtime_error` is thrown. -/
def RuntimeOnly {α : Type} (r : Except Exception α) : Prop := ∀ e, r = .error e → ∃ what, e = .runtimeError what

section Exceptions

variable {α β : Type}

/-- A result is no exception. -/
theorem runtimeOnly_ok (a : α) : RuntimeOnly (.ok a) := fun _ h => by cases h

/-- A `std::runtime_error` is what is allowed. -/
theorem runtimeOnly_runtimeError (what : Str) : RuntimeOnly (.error (.runtimeError what) : Except Exception α) := by
  rintro e ⟨rfl⟩
  exact ⟨what, rfl⟩

/-- Two steps that throw nothing else throw nothing else in a row. -/
theorem RuntimeOnly.bind {r : Except Exception α} {k : α → Except Exception β} (hr : RuntimeOnly r)
    (hk : ∀ a, r = .ok a → RuntimeOnly (k a)) : RuntimeOnly (r >>= k) := by
  cases r with
  | error e =>
    rintro e' ⟨rfl⟩
    exact hr e rfl
  | ok a => exact hk a rfl

end Exceptions

/-! ## The parser -/

namespace FlatJsonParser

variable {text rest : Str} {c : UInt8}

/-- `peek` shows the first character of what it leaves, which is no longer. -/
theorem peek_eq_ok (h : peek text = .ok (c, rest)) : rest.head? = some c ∧ rest.length ≤ text.length := by
  unfold peek at h
  cases hskip : skipWs text with
  | nil =>
    rw [hskip] at h
    cases h
  | cons b text' =>
    rw [hskip] at h
    cases h
    refine ⟨rfl, ?_⟩
    rw [← hskip]
    exact (List.dropWhile_sublist _).length_le

/-- `peek` throws nothing else. -/
theorem runtimeOnly_peek (text : Str) : RuntimeOnly (peek text) := by
  unfold peek
  cases skipWs text with
  | nil => exact runtimeOnly_runtimeError _
  | cons c rest => exact runtimeOnly_ok _

/-- `expect` throws nothing else. -/
theorem runtimeOnly_expect (c : UInt8) (text : Str) : RuntimeOnly (expect c text) := by
  refine (runtimeOnly_peek text).bind ?_
  rintro ⟨found, rest⟩ -
  show RuntimeOnly (if _ then _ else _)
  split_ifs
  · exact runtimeOnly_runtimeError _
  · exact runtimeOnly_ok _

/-- `expect` takes a character. -/
theorem expect_eq_ok (h : expect c text = .ok rest) : rest.length < text.length := by
  obtain ⟨⟨found, text'⟩, hpeek, h⟩ := bind_eq_ok h
  obtain ⟨hhead, hlength⟩ := peek_eq_ok hpeek
  simp only at h
  split_ifs at h
  cases h
  cases text' with
  | nil => cases hhead
  | cons b text' => exact hlength

/-- Skipping white space leaves no longer text. -/
theorem length_skipWs_le (text : Str) : (skipWs text).length ≤ text.length := (List.dropWhile_sublist _).length_le

/-- Nor does reading a string to its closing quote. -/
theorem length_unescape_le (text : Str) : (JsonString.unescape text).2.length ≤ text.length := by
  fun_induction JsonString.unescape text <;> simp only [List.length_cons, List.length_nil] at * <;> omega

/-- `parse_raw_string` throws nothing else. -/
theorem runtimeOnly_parseRawString (text : Str) : RuntimeOnly (parseRawString text) := by
  refine (runtimeOnly_expect 34 text).bind ?_
  intro text' _
  refine (runtimeOnly_expect 34 _).bind ?_
  intro text'' _
  exact runtimeOnly_ok _

/-- `parse_raw_string` takes at least its opening quote. -/
theorem parseRawString_length {out : Str} (h : parseRawString text = .ok (out, rest)) : rest.length < text.length := by
  obtain ⟨text', hopen, h⟩ := bind_eq_ok h
  obtain ⟨text'', hclose, h⟩ := bind_eq_ok h
  cases h
  have hopen := expect_eq_ok hopen
  have hclose := expect_eq_ok hclose
  have hle := length_unescape_le text'
  omega

/-- `parse_raw_number` throws nothing else. -/
theorem runtimeOnly_parseRawNumber (text : Str) : RuntimeOnly (parseRawNumber text) := by
  unfold parseRawNumber
  simp only
  split_ifs
  · exact runtimeOnly_runtimeError _
  · exact runtimeOnly_ok _

/-- `parse_raw_number` leaves no longer text. -/
theorem parseRawNumber_length {number : Str} (h : parseRawNumber text = .ok (number, rest)) : rest.length ≤ text.length := by
  unfold parseRawNumber at h
  simp only at h
  split_ifs at h
  cases h
  exact (List.dropWhile_sublist _).length_le

/-- A member throws nothing else. -/
theorem runtimeOnly_parseMember (text : Str) : RuntimeOnly (parseMember text) := by
  rw [parseMember_eq]
  refine (runtimeOnly_parseRawString _).bind ?_
  intro key _
  refine (runtimeOnly_expect 58 _).bind ?_
  intro text₁ _
  refine (runtimeOnly_peek _).bind ?_
  intro first _
  refine RuntimeOnly.bind ?_ fun _ _ => runtimeOnly_ok _
  unfold parseValue
  split_ifs
  · exact runtimeOnly_parseRawString _
  · exact runtimeOnly_parseRawNumber _

/-- A member takes something off the text. -/
theorem parseMember_length {member : Str × Str} (h : parseMember text = .ok (member, rest)) : rest.length < text.length := by
  rw [parseMember_eq] at h
  obtain ⟨⟨key, text₁⟩, hkey, h⟩ := bind_eq_ok h
  obtain ⟨text₂, hcolon, h⟩ := bind_eq_ok h
  obtain ⟨⟨c, text₃⟩, hpeek, h⟩ := bind_eq_ok h
  obtain ⟨⟨value, text₄⟩, hvalue, h⟩ := bind_eq_ok h
  cases h
  have h₁ := parseRawString_length hkey
  have h₂ := expect_eq_ok hcolon
  have h₃ := (peek_eq_ok hpeek).2
  have h₄ : text₄.length ≤ text₃.length := by
    unfold parseValue at hvalue
    split_ifs at hvalue
    · exact (parseRawString_length hvalue).le
    · exact parseRawNumber_length hvalue
  have hskip := length_skipWs_le text
  have hskip₁ := length_skipWs_le text₁
  have hskip₂ := length_skipWs_le text₂
  simp only at h₁ h₂ h₃ ⊢
  omega

/-- Nor do the members of an object. -/
theorem runtimeOnly_parseMembers (fuel : ℕ) (fields : Map Str Str) (text : Str) : RuntimeOnly (parseMembers fuel fields text) := by
  induction fuel generalizing fields text with
  | zero => exact runtimeOnly_runtimeError _
  | succ fuel ih =>
    refine (runtimeOnly_parseMember text).bind ?_
    rintro ⟨⟨key, value⟩, rest⟩ -
    refine (runtimeOnly_peek _).bind ?_
    rintro ⟨c, rest'⟩ -
    simp only
    split_ifs
    · exact ih _ _
    · exact runtimeOnly_ok _

/-- The number of passes the loop may make is no matter, if it is not below the length of the text. -/
theorem parseMembers_congr {n m : ℕ} {fields : Map Str Str} (hn : text.length ≤ n) (hm : text.length ≤ m) :
    parseMembers n fields text = parseMembers m fields text := by
  have hempty : ∀ (k : ℕ) (fields : Map Str Str), parseMembers k fields [] = .error endOfInput := by
    intro k fields
    cases k <;> rfl
  induction n generalizing m fields text with
  | zero =>
    obtain rfl := List.length_eq_zero_iff.1 (Nat.le_zero.1 hn)
    rw [hempty, hempty]
  | succ n ih =>
    cases m with
    | zero =>
      obtain rfl := List.length_eq_zero_iff.1 (Nat.le_zero.1 hm)
      rw [hempty, hempty]
    | succ m =>
      rw [parseMembers, parseMembers]
      cases hmember : parseMember text with
      | error e => rfl
      | ok r =>
        obtain ⟨⟨key, value⟩, rest⟩ := r
        have hlength := parseMember_length hmember
        simp only [bind, Except.bind]
        cases hpeek : peek (skipWs rest) with
        | error e => rfl
        | ok r =>
          obtain ⟨c, rest'⟩ := r
          have hle := (peek_eq_ok hpeek).2.trans (length_skipWs_le rest)
          have htail : rest'.tail.length ≤ rest'.length := by
            rw [List.length_tail]
            exact Nat.sub_le _ _
          simp only
          split_ifs
          · exact ih (by omega) (by omega)
          · rfl

/-- `parse_object` throws nothing else. -/
theorem runtimeOnly_parseObject (text : Str) : RuntimeOnly (parseObject text) := by
  refine (runtimeOnly_expect 123 text).bind ?_
  intro text₁ _
  refine (runtimeOnly_peek text₁).bind ?_
  rintro ⟨c, text₂⟩ -
  simp only
  split_ifs
  · exact runtimeOnly_ok _
  · refine (runtimeOnly_parseMembers _ _ _).bind ?_
    rintro ⟨fields, text₃⟩ -
    exact (runtimeOnly_expect 125 _).bind fun _ _ => runtimeOnly_ok _

end FlatJsonParser

/-! ## The fields -/

/-- What `decode` makes of a field. -/
inductive FieldKind where
  | text | side | orderType | status | price | integer

variable (P : Type) [Double P]

/-- The value of a field can be converted. -/
def Readable (value : Str) : FieldKind → Prop
  | .text => True
  | .side => value = ascii "Buy" ∨ value = ascii "Sell"
  | .orderType => value = ascii "Limit" ∨ value = ascii "Market"
  | .status => value = ascii "New" ∨ value = ascii "Cancelled" ∨ value = ascii "Replaced"
  | .price => ∃ x : P, Double.stod value = .ok x
  | .integer => ∃ z, Decimal.readInt value = some z ∧ IsInt64 z

/-- Up to the first field that is missing, each can be converted. -/
def ReadableUntilMissing (fields : Map Str Str) : List (String × FieldKind) → Prop
  | [] => True
  | (key, kind) :: rest => ∀ value, fields.lookup (ascii key) = some value → Readable P value kind ∧ ReadableUntilMissing fields rest

/-- The fields of an order, as they are read. -/
def orderFields : List (String × FieldKind) :=
  [("order_id", .text), ("account_id", .text), ("instrument_id", .text), ("side", .side), ("price", .price), ("qty", .integer),
    ("order_type", .orderType), ("timestamp_ns", .integer), ("status", .status), ("venue", .text), ("orig_order_id", .text)]

/-- The fields of an execution. -/
def executionFields : List (String × FieldKind) :=
  [("trade_id", .text), ("order_id", .text), ("account_id", .text), ("instrument_id", .text), ("side", .side), ("price", .price),
    ("qty", .integer), ("timestamp_ns", .integer), ("counterparty_account_id", .text), ("venue", .text)]

/-- The record is no flat object, or its fields are those of neither an order nor an execution, or they can be converted until one is
missing. -/
def Convertible (json : Str) : Prop :=
  ∀ fields, FlatJsonParser.parseObject json = .ok fields → ∀ type, fields.lookup (ascii "type") = some type →
    (type = ascii "order" → ReadableUntilMissing P fields orderFields) ∧
    (type = ascii "execution" → ReadableUntilMissing P fields executionFields)

section Fields

variable {P} {α β : Type} {fields : Map Str Str} {key : String}

/-- A conversion throws exactly where a value cannot be converted, and no `std::runtime_error`. -/
def ConvertsAs (kind : FieldKind) (f : Str → Except Exception α) (P : Type) [Double P] : Prop :=
  ∀ value, (∃ a, f value = .ok a) ∧ Readable P value kind ∨
    (∃ e, f value = .error e ∧ ∀ what, e ≠ .runtimeError what) ∧ ¬Readable P value kind

/-- A side is converted when it is `Buy` or `Sell`, and throws `std::invalid_argument` else. -/
theorem sideFromString_convertsAs : ConvertsAs .side sideFromString P := by
  intro value
  unfold sideFromString Readable
  split_ifs with h₁ h₂
  · exact .inl ⟨⟨_, rfl⟩, .inl h₁⟩
  · exact .inl ⟨⟨_, rfl⟩, .inr h₂⟩
  · exact .inr ⟨⟨_, rfl, fun what h => by cases h⟩, by simp [h₁, h₂]⟩

/-- An order type is converted when it has one of the names. -/
theorem orderTypeFromString_convertsAs : ConvertsAs .orderType orderTypeFromString P := by
  intro value
  unfold orderTypeFromString Readable
  split_ifs with h₁ h₂
  · exact .inl ⟨⟨_, rfl⟩, .inl h₁⟩
  · exact .inl ⟨⟨_, rfl⟩, .inr h₂⟩
  · exact .inr ⟨⟨_, rfl, fun what h => by cases h⟩, by simp [h₁, h₂]⟩

/-- A status is converted when it has one of the names. -/
theorem orderStatusFromString_convertsAs : ConvertsAs .status orderStatusFromString P := by
  intro value
  unfold orderStatusFromString Readable
  split_ifs with h₁ h₂ h₃
  · exact .inl ⟨⟨_, rfl⟩, .inl h₁⟩
  · exact .inl ⟨⟨_, rfl⟩, .inr (.inl h₂)⟩
  · exact .inl ⟨⟨_, rfl⟩, .inr (.inr h₃)⟩
  · exact .inr ⟨⟨_, rfl, fun what h => by cases h⟩, by simp [h₁, h₂, h₃]⟩

/-- An integer is converted when its text begins with one of 64 bits. -/
theorem stoll_convertsAs : ConvertsAs .integer stoll P := by
  intro value
  unfold stoll Readable
  cases hread : Decimal.readInt value with
  | none => exact .inr ⟨⟨_, rfl, fun what h => by cases h⟩, by simp⟩
  | some z =>
    simp only
    split_ifs with hz
    · exact .inl ⟨⟨_, rfl⟩, ⟨z, rfl, hz⟩⟩
    · refine .inr ⟨⟨_, rfl, fun what h => by cases h⟩, ?_⟩
      rintro ⟨z', hz', hint⟩
      cases hz'
      exact hz hint

/-- A price is converted when `std::stod` takes its text. -/
theorem stod_convertsAs (hstod : ∀ text e, (Double.stod text : Except Exception P) = .error e → ∀ what, e ≠ .runtimeError what) :
    ConvertsAs .price (Double.stod : Str → Except Exception P) P := by
  intro value
  unfold Readable
  cases hread : (Double.stod value : Except Exception P) with
  | error e =>
    refine .inr ⟨⟨e, rfl, hstod _ _ hread⟩, ?_⟩
    rintro ⟨x, hx⟩
    cases hx
  | ok x => exact .inl ⟨⟨x, rfl⟩, ⟨x, rfl⟩⟩

/-- A field that is read as it is. -/
theorem runtimeOnly_require {k : Str → Except Exception β} {rest : List (String × FieldKind)}
    (hk : ∀ value, RuntimeOnly (k value) ↔ ReadableUntilMissing P fields rest) :
    RuntimeOnly (require fields key >>= k) ↔ ReadableUntilMissing P fields ((key, .text) :: rest) := by
  unfold require ReadableUntilMissing
  cases hlookup : fields.lookup (ascii key) with
  | none => exact iff_of_true (runtimeOnly_runtimeError _) fun value h => by cases h
  | some value =>
    simp only [Option.some.injEq, forall_eq', Readable, true_and]
    exact hk value

/-- A field that is converted. -/
theorem runtimeOnly_convert {kind : FieldKind} {f : Str → Except Exception α} (hf : ConvertsAs kind f P) {k : α → Except Exception β}
    {rest : List (String × FieldKind)} (hk : ∀ a, RuntimeOnly (k a) ↔ ReadableUntilMissing P fields rest) :
    RuntimeOnly (require fields key >>= fun value => f value >>= k) ↔ ReadableUntilMissing P fields ((key, kind) :: rest) := by
  unfold require ReadableUntilMissing
  cases hlookup : fields.lookup (ascii key) with
  | none => exact iff_of_true (runtimeOnly_runtimeError _) fun value h => by cases h
  | some value =>
    simp only [Option.some.injEq, forall_eq']
    show RuntimeOnly (f value >>= k) ↔ _
    rcases hf value with ⟨⟨a, ha⟩, hreadable⟩ | ⟨⟨e, he, hne⟩, hreadable⟩
    · rw [ha, and_iff_right hreadable]
      exact hk a
    · rw [he]
      refine iff_of_false ?_ fun h => hreadable h.1
      intro h
      obtain ⟨what, rfl⟩ := h e rfl
      exact hne what rfl

end Fields

/-! ## `decode` -/

variable {P} {fields : Map Str Str} {json : Str}

/-- What `decode` does behind the parser. -/
theorem runtimeOnly_decode
    (hstod : ∀ text e, (Double.stod text : Except Exception P) = .error e → ∀ what, e ≠ .runtimeError what)
    (hfields : FlatJsonParser.parseObject json = .ok fields) :
    RuntimeOnly (decode json : Except Exception (Event P)) ↔ ∀ type, fields.lookup (ascii "type") = some type →
      (type = ascii "order" → ReadableUntilMissing P fields orderFields) ∧
      (type = ascii "execution" → ReadableUntilMissing P fields executionFields) := by
  have hside := sideFromString_convertsAs (P := P)
  have hprice := stod_convertsAs hstod
  have hinteger := stoll_convertsAs (P := P)
  rw [decode, hfields]
  show RuntimeOnly (require fields "type" >>= _) ↔ _
  cases htype : fields.lookup (ascii "type") with
  | none =>
    rw [require, htype]
    exact iff_of_true (runtimeOnly_runtimeError _) fun type h => by cases h
  | some type =>
    rw [require, htype]
    simp only [Option.some.injEq, forall_eq']
    show RuntimeOnly (if _ then _ else _) ↔ _
    split_ifs with horder hexecution
    · have hne : ¬type = ascii "execution" := by
        rw [horder]
        decide
      rw [imp_iff_right horder, and_iff_left fun h => absurd h hne]
      refine runtimeOnly_require fun orderId => runtimeOnly_require fun accountId => runtimeOnly_require fun instrumentId => ?_
      refine runtimeOnly_convert hside fun side => runtimeOnly_convert hprice fun price => runtimeOnly_convert hinteger fun qty => ?_
      refine runtimeOnly_convert orderTypeFromString_convertsAs fun orderType => ?_
      refine runtimeOnly_convert hinteger fun timestampNs => ?_
      refine runtimeOnly_convert orderStatusFromString_convertsAs fun status => ?_
      refine runtimeOnly_require fun venue => runtimeOnly_require fun origOrderId => ?_
      exact iff_of_true (runtimeOnly_ok _) trivial
    · rw [imp_iff_right hexecution, and_iff_right fun h => absurd h horder]
      refine runtimeOnly_require fun tradeId => runtimeOnly_require fun orderId => runtimeOnly_require fun accountId => ?_
      refine runtimeOnly_require fun instrumentId => ?_
      refine runtimeOnly_convert hside fun side => runtimeOnly_convert hprice fun price => runtimeOnly_convert hinteger fun qty => ?_
      refine runtimeOnly_convert hinteger fun timestampNs => ?_
      refine runtimeOnly_require fun counterpartyAccountId => runtimeOnly_require fun venue => ?_
      exact iff_of_true (runtimeOnly_ok _) trivial
    · exact iff_of_true (runtimeOnly_runtimeError _) ⟨fun h => absurd h horder, fun h => absurd h hexecution⟩

/-- `decode` needs no more passes than the text has characters, and throws nothing but a `std::runtime_error` exactly if the fields
can be converted until one is missing. -/
theorem decode_throws_iff
    (hstod : ∀ text e, (Double.stod text : Except Exception P) = .error e → ∀ what, e ≠ .runtimeError what) :
    (∀ fuel fields text, text.length ≤ fuel →
      FlatJsonParser.parseMembers fuel fields text = FlatJsonParser.parseMembers text.length fields text) ∧
    ∀ json, RuntimeOnly (decode json : Except Exception (Event P)) ↔ Convertible P json := by
  refine ⟨fun fuel fields text h => FlatJsonParser.parseMembers_congr h le_rfl, ?_⟩
  intro json
  unfold Convertible
  have hparse := FlatJsonParser.runtimeOnly_parseObject json
  cases hfields : FlatJsonParser.parseObject json with
  | error e =>
    refine iff_of_true ?_ fun fields h => by cases h
    refine hparse.bind fun fields h => ?_
    rw [hfields] at h
    cases h
  | ok fields =>
    simp only [Except.ok.injEq, forall_eq']
    exact runtimeOnly_decode hstod hfields

/-- On the rationals `std::stod` throws no `std::runtime_error`. -/
theorem stod_rat : ∀ text e, (Double.stod text : Except Exception ℚ) = .error e → ∀ what, e ≠ .runtimeError what := by
  intro text e h what
  cases hread : Decimal.readRat text with
  | none =>
    simp only [Double.stod, hread] at h
    cases h
    intro heq
    cases heq
  | some q =>
    simp only [Double.stod, hread] at h
    cases h

/-- A record that ends in the middle of its first member. -/
theorem decode_throws_truncated : RuntimeOnly (decode (ascii "\x7b\"type\"") : Except Exception (Event ℚ)) :=
  ((decode_throws_iff stod_rat).2 _).2 fun fields h => by cases (show (Except.error _ : Except Exception (Map Str Str)) = _ from h)

/-- The side of an order that is unknown, and a quantity that is empty. -/
theorem decode_throws_invalidArgument : ¬∀ json, RuntimeOnly (decode json : Except Exception (Event ℚ)) := by
  intro h
  have hthrown : (decode (ascii "\x7b\"type\":\"order\",\"order_id\":\"A\",\"account_id\":\"B\"," ++
      ascii "\"instrument_id\":\"X\",\"side\":\"buy\"\x7d") : Except Exception (Event ℚ)) =
      .error (unrecognizedValue (ascii "side_from_string") (ascii "buy")) := by
    decide +kernel
  obtain ⟨what, hwhat⟩ := h _ _ hthrown
  cases hwhat

end TradeSurveillance
