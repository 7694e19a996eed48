import TradeSurveillance.Ingestion.EventCodec

/-!
# The codec of the durable log

`decode_encode`: what `encode` writes, `decode` reads back, whatever bytes the strings of the event hold. The record is a list of
members, each a key with a quoted or a bare value; the parser undoes the text of a member, then of a list of them, and the fields
it returns are those of the list.
-/

namespace TradeSurveillance

/-! ## Members -/

/-- A member of a record. -/
structure Member where
  key : Str
  value : Str
  quoted : Bool

namespace Member

/-- The text of a member. -/
def text (m : Member) : Str :=
  34 :: (escapeJson m.key ++ 34 :: 58 :: if m.quoted then 34 :: (escapeJson m.value ++ [34]) else m.value)

/-- A bare value is a number. -/
def WellFormed (m : Member) : Prop := m.quoted = false → m.value ≠ [] ∧ ∀ b ∈ m.value, Decimal.isNumeric b = true

end Member

/-- The text of the members of a record. -/
def membersText : List Member → Str
  | [] => []
  | [m] => m.text
  | m :: n :: ms => m.text ++ 44 :: membersText (n :: ms)

/-- The fields the parser makes of them. -/
def fieldsOf (ms : List Member) : Map Str Str := ms.foldl (fun fields m => fields.insert m.key m.value) ∅

/-! ## The parser -/

namespace FlatJsonParser

variable {c : UInt8} {rest : Str}

/-- No white space is skipped where there is none. -/
theorem skipWs_cons (hc : Decimal.isSpace c = false) : skipWs (c :: rest) = c :: rest :=
  List.dropWhile_cons_of_neg (by simp [hc])

/-- `peek` shows a character that is no white space. -/
theorem peek_cons (hc : Decimal.isSpace c = false) : peek (c :: rest) = .ok (c, c :: rest) := by
  rw [peek, skipWs_cons hc]

/-- `expect` takes the character it waits for. -/
theorem expect_cons (hc : Decimal.isSpace c = false) : expect c (c :: rest) = .ok rest := by
  rw [expect, peek_cons hc]
  simp [bind, Except.bind]

/-- A quoted string. -/
theorem parseRawString_escape (s : Str) : parseRawString (34 :: (escapeJson s ++ 34 :: rest)) = .ok (s, rest) := by
  rw [parseRawString, expect_cons (c := 34) rfl]
  simp only [bind, Except.bind]
  have hs : JsonString.unescape (escapeJson s ++ 34 :: rest) = (s, 34 :: rest) := JsonString.unescape_escape s rest
  rw [hs]
  simp only
  rw [expect_cons (c := 34) rfl]

/-- A number, with something behind it that is none. -/
theorem parseRawNumber_append {number : Str} (hne : number ≠ []) (hn : ∀ b ∈ number, Decimal.isNumeric b = true)
    (hc : Decimal.isNumeric c = false) : parseRawNumber (number ++ c :: rest) = .ok (number, c :: rest) := by
  have htake : (number ++ c :: rest).takeWhile Decimal.isNumeric = number := by
    rw [List.takeWhile_append_of_pos hn, List.takeWhile_cons_of_neg (by simp [hc]), List.append_nil]
  have hdrop : (number ++ c :: rest).dropWhile Decimal.isNumeric = c :: rest := by
    rw [List.dropWhile_append_of_pos hn, List.dropWhile_cons_of_neg (by simp [hc])]
  simp only [parseRawNumber, htake, hdrop, hne, if_false]

/-- A member. -/
theorem parseMember_text {m : Member} (hm : m.WellFormed) (hc : Decimal.isNumeric c = false) :
    parseMember (m.text ++ c :: rest) = .ok ((m.key, m.value), c :: rest) := by
  obtain ⟨key, value, quoted⟩ := m
  unfold parseMember Member.text
  simp only [List.cons_append, List.append_assoc]
  rw [skipWs_cons (c := 34) rfl, parseRawString_escape]
  simp only [bind, Except.bind]
  rw [skipWs_cons (c := 58) rfl, expect_cons (c := 58) rfl]
  simp only
  cases quoted with
  | true =>
    simp only [if_true, List.cons_append, List.append_assoc, List.nil_append]
    rw [skipWs_cons (c := 34) rfl, peek_cons (c := 34) rfl]
    simp only [if_true]
    rw [parseRawString_escape]
  | false =>
    obtain ⟨hne, hn⟩ := hm rfl
    cases value with
    | nil => exact absurd rfl hne
    | cons b value =>
      have hb := hn b List.mem_cons_self
      have hb34 : b ≠ 34 := by
        rintro rfl
        exact absurd hb (by decide)
      simp only [Bool.false_eq_true, if_false, List.cons_append]
      rw [skipWs_cons (Decimal.not_isSpace_of_isNumeric hb), peek_cons (Decimal.not_isSpace_of_isNumeric hb)]
      simp only [hb34, if_false]
      rw [← List.cons_append, parseRawNumber_append hne hn hc]

/-- The members of a record. -/
theorem parseMembers_text (ms : List Member) (hne : ms ≠ []) (hms : ∀ m ∈ ms, m.WellFormed) (fuel : ℕ)
    (hfuel : ms.length ≤ fuel) (fields : Map Str Str) :
    parseMembers fuel fields (membersText ms ++ 125 :: rest) =
      .ok (ms.foldl (fun fields m => fields.insert m.key m.value) fields, 125 :: rest) := by
  induction ms generalizing fuel fields with
  | nil => exact absurd rfl hne
  | cons m ms ih =>
    obtain ⟨fuel, rfl⟩ : ∃ n, fuel = n + 1 := ⟨fuel - 1, by simp at hfuel; omega⟩
    have hm := hms m List.mem_cons_self
    cases ms with
    | nil =>
      rw [membersText, parseMembers, parseMember_text hm rfl]
      simp only [bind, Except.bind]
      rw [skipWs_cons (c := 125) rfl, peek_cons (c := 125) rfl]
      simp
    | cons n ms =>
      rw [membersText, List.append_assoc, List.cons_append, parseMembers, parseMember_text hm rfl]
      simp only [bind, Except.bind]
      rw [skipWs_cons (c := 44) rfl, peek_cons (c := 44) rfl]
      simp only [if_true, List.tail_cons]
      rw [ih (List.cons_ne_nil _ _) (fun m hm => hms m (List.mem_cons_of_mem _ hm)) fuel (by simpa using hfuel)]
      rfl

/-- There are no more members than characters. -/
theorem length_le_membersText (ms : List Member) : ms.length ≤ (membersText ms).length := by
  induction ms with
  | nil => exact Nat.le_refl 0
  | cons m ms ih =>
    cases ms with
    | nil => simp [membersText, Member.text]
    | cons n ms =>
      simp only [membersText, List.length_append, List.length_cons] at ih ⊢
      omega

/-- A record. -/
theorem parseObject_text {ms : List Member} (hne : ms ≠ []) (hms : ∀ m ∈ ms, m.WellFormed) :
    parseObject (123 :: (membersText ms ++ [125])) = .ok (fieldsOf ms) := by
  have hhead : ∃ text, membersText ms ++ [125] = 34 :: text := by
    match ms, hne with
    | [m], _ => exact ⟨_, rfl⟩
    | m :: n :: ms, _ => exact ⟨_, rfl⟩
  obtain ⟨text, htext⟩ := hhead
  have hfuel : ms.length ≤ (membersText ms ++ [125]).length := by
    rw [List.length_append]
    exact (length_le_membersText ms).trans (Nat.le_add_right _ _)
  have hparse : parseMembers (membersText ms ++ [125]).length ∅ (membersText ms ++ [125]) =
      .ok (ms.foldl (fun fields m => fields.insert m.key m.value) ∅, [125]) := parseMembers_text ms hne hms _ hfuel ∅
  rw [htext] at hparse ⊢
  unfold parseObject
  rw [expect_cons (c := 123) rfl]
  simp only [bind, Except.bind]
  rw [peek_cons (c := 34) rfl]
  simp only
  rw [if_neg (by decide), hparse]
  simp only
  rw [expect_cons (c := 125) rfl]
  rfl

end FlatJsonParser

/-! ## The fields -/

/-- A field of a record whose keys differ has the value of its member. -/
theorem lookup_fieldsOf {ms : List Member} (hnodup : (ms.map (·.key)).Nodup) {m : Member} (hm : m ∈ ms) :
    (fieldsOf ms).lookup m.key = some m.value := by
  induction ms using List.reverseRecOn with
  | nil => nomatch hm
  | append_singleton ms n ih =>
    rw [List.map_append, List.nodup_append] at hnodup
    have hstep : fieldsOf (ms ++ [n]) = (fieldsOf ms).insert n.key n.value := by
      simp only [fieldsOf, List.foldl_append, List.foldl_cons, List.foldl_nil]
    rw [hstep]
    rcases List.mem_append.1 hm with hm | hm
    · rw [Finmap.lookup_insert_of_ne _ (hnodup.2.2 _ (List.mem_map_of_mem hm) _ List.mem_cons_self)]
      exact ih hnodup.1 hm
    · rw [List.mem_singleton.1 hm, Finmap.lookup_insert]

/-! ## The members of an event -/

section Events

variable {P : Type} [Double P]

/-- The members that `encode` writes. -/
def membersOf : Event P → List Member
  | .order o => [⟨ascii "type", ascii "order", true⟩, ⟨ascii "order_id", o.orderId, true⟩,
      ⟨ascii "account_id", o.accountId, true⟩, ⟨ascii "instrument_id", o.instrumentId, true⟩,
      ⟨ascii "side", o.side.toString, true⟩, ⟨ascii "price", Double.print17 o.price, false⟩,
      ⟨ascii "qty", Decimal.ofInt o.qty, false⟩, ⟨ascii "order_type", o.orderType.toString, true⟩,
      ⟨ascii "timestamp_ns", Decimal.ofInt o.timestampNs, false⟩, ⟨ascii "status", o.status.toString, true⟩,
      ⟨ascii "venue", o.venue, true⟩, ⟨ascii "orig_order_id", o.origOrderId, true⟩]
  | .execution x => [⟨ascii "type", ascii "execution", true⟩, ⟨ascii "trade_id", x.tradeId, true⟩,
      ⟨ascii "order_id", x.orderId, true⟩, ⟨ascii "account_id", x.accountId, true⟩,
      ⟨ascii "instrument_id", x.instrumentId, true⟩, ⟨ascii "side", x.side.toString, true⟩,
      ⟨ascii "price", Double.print17 x.price, false⟩, ⟨ascii "qty", Decimal.ofInt x.qty, false⟩,
      ⟨ascii "timestamp_ns", Decimal.ofInt x.timestampNs, false⟩,
      ⟨ascii "counterparty_account_id", x.counterpartyAccountId, true⟩, ⟨ascii "venue", x.venue, true⟩]

/-- A quoted member, with the comma behind it or none. -/
theorem writeStringField_eq {key : String} (hkey : escapeJson (ascii key) = ascii key) (value : Str) (comma : Bool) :
    writeStringField key value comma = (Member.mk (ascii key) value true).text ++ if comma then [44] else [] := by
  have hq : ascii "\"" = [34] := rfl
  have hqcq : ascii "\":\"" = [34, 58, 34] := rfl
  have hc : ascii "," = [44] := rfl
  simp [writeStringField, Member.text, hkey, hq, hqcq, hc]

/-- `encode` writes the members of the event between braces. -/
theorem encode_eq (e : Event P) : encode e = 123 :: (membersText (membersOf e) ++ [125]) := by
  have ho : ascii "\x7b" = [123] := rfl
  have hc : ascii "\x7d" = [125] := rfl
  have hcomma : ascii "," = [44] := rfl
  have hprice : ∀ t, ascii "\"price\":" ++ t = (Member.mk (ascii "price") t false).text := fun t => rfl
  have hqty : ∀ t, ascii "\"qty\":" ++ t = (Member.mk (ascii "qty") t false).text := fun t => rfl
  have hts : ∀ t, ascii "\"timestamp_ns\":" ++ t = (Member.mk (ascii "timestamp_ns") t false).text := fun t => rfl
  cases e with
  | order _ | execution _ =>
    rw [encode]
    repeat rw [writeStringField_eq rfl]
    rw [hprice, hqty, hts, ho, hc, hcomma]
    simp only [membersOf, membersText, List.append_assoc, List.cons_append, List.nil_append, if_true, Bool.false_eq_true,
      if_false, List.append_nil]

/-- No key is written twice. -/
theorem nodup_membersOf (e : Event P) : ((membersOf e).map (·.key)).Nodup := by
  cases e <;> exact of_decide_eq_true rfl

/-- A finite price is printed as a number. -/
theorem print17_numeric {x : P} (hx : Double.isFinite x = true) :
    Double.print17 x ≠ [] ∧ ∀ b ∈ Double.print17 x, Decimal.isNumeric b = true := by
  rw [Double.print17, if_pos hx]
  constructor
  · simp [Decimal.general_ne_nil]
  · intro b hb
    rcases List.mem_append.1 hb with hb | hb
    · unfold Double.sign at hb
      split at hb
      · rw [List.mem_singleton.1 hb]
        rfl
      · nomatch hb
    · exact Decimal.isNumeric_of_mem_general hb

/-- The members of an event with a finite price are well formed. -/
theorem membersOf_wellFormed {e : Event P} (he : Double.isFinite e.price = true) : ∀ m ∈ membersOf e, m.WellFormed := by
  have hint : ∀ z, Decimal.ofInt z ≠ [] ∧ ∀ b ∈ Decimal.ofInt z, Decimal.isNumeric b = true := fun z =>
    ⟨Decimal.ofInt_ne_nil z, fun b hb => Decimal.isNumeric_of_mem_ofInt hb⟩
  have hprice := print17_numeric he
  have hquoted : ∀ key value, (Member.mk key value true).WellFormed := fun _ _ hbare => by cases hbare
  cases e with
  | order o =>
    simp only [membersOf, List.forall_mem_cons]
    exact ⟨hquoted _ _, hquoted _ _, hquoted _ _, hquoted _ _, hquoted _ _, fun _ => hprice, fun _ => hint _, hquoted _ _,
      fun _ => hint _, hquoted _ _, hquoted _ _, hquoted _ _, List.forall_mem_nil _⟩
  | execution x =>
    simp only [membersOf, List.forall_mem_cons]
    exact ⟨hquoted _ _, hquoted _ _, hquoted _ _, hquoted _ _, hquoted _ _, hquoted _ _, fun _ => hprice, fun _ => hint _,
      fun _ => hint _, hquoted _ _, hquoted _ _, List.forall_mem_nil _⟩

/-- A side is read back from its name. -/
@[simp] theorem sideFromString_toString (side : Side) : sideFromString side.toString = .ok side := by
  cases side <;> rfl

/-- So is an order type. -/
@[simp] theorem orderTypeFromString_toString (type : OrderType) : orderTypeFromString type.toString = .ok type := by
  cases type <;> rfl

/-- So is a status. -/
@[simp] theorem orderStatusFromString_toString (status : OrderStatus) : orderStatusFromString status.toString = .ok status := by
  cases status <;> rfl

/-- So is a 64-bit integer from its numeral. -/
theorem stoll_ofInt {z : ℤ} (hz : IsInt64 z) : stoll (Decimal.ofInt z) = .ok z := by
  simp only [stoll, Decimal.readInt_ofInt, hz, if_true]

/-- The record of an event is read as the event. -/
theorem decode_members (e : Event P) (hfinite : Double.isFinite e.price = true)
    (hprice : Double.stod (Double.print17 e.price) = .ok e.price) (hqty : IsInt64 e.qty) (hts : IsInt64 e.timestampNs) :
    decode (123 :: (membersText (membersOf e) ++ [125])) = .ok e := by
  have hne : membersOf e ≠ [] := by cases e <;> exact List.cons_ne_nil _ _
  have hfields : ∀ m ∈ membersOf e, (fieldsOf (membersOf e)).lookup m.key = some m.value :=
    fun m hm => lookup_fieldsOf (nodup_membersOf e) hm
  have hexecution : ¬ascii "execution" = ascii "order" := by decide
  have hqty' := stoll_ofInt hqty
  have hts' := stoll_ofInt hts
  unfold decode
  rw [FlatJsonParser.parseObject_text hne (membersOf_wellFormed hfinite)]
  generalize fieldsOf (membersOf e) = fields at hfields ⊢
  cases e with
  | order o =>
    simp only [Event.price, Event.qty, Event.timestampNs] at hprice hqty' hts'
    simp only [membersOf, List.forall_mem_cons] at hfields
    obtain ⟨htype, horder, haccount, hinstrument, hside, hp, hq, hordertype, htime, hstatus, hvenue, horig, -⟩ := hfields
    simp only [require, htype, horder, haccount, hinstrument, hside, hp, hq, hordertype, htime, hstatus, hvenue, horig,
      bind, Except.bind, if_true, sideFromString_toString, orderTypeFromString_toString, orderStatusFromString_toString,
      hqty', hts', hprice]
  | execution x =>
    simp only [Event.price, Event.qty, Event.timestampNs] at hprice hqty' hts'
    simp only [membersOf, List.forall_mem_cons] at hfields
    obtain ⟨htype, htrade, horder, haccount, hinstrument, hside, hp, hq, htime, hcounterparty, hvenue, -⟩ := hfields
    simp only [require, htype, htrade, horder, haccount, hinstrument, hside, hp, hq, htime, hcounterparty, hvenue, bind,
      Except.bind, hexecution, if_false, if_true, sideFromString_toString, hqty', hts', hprice]

/-- What was written is read back: any strings, any side, type and status, any 64-bit quantity and timestamp, and any finite price
that `std::stod` reads back from its seventeen digits. -/
theorem decode_encode (e : Event P) (hfinite : Double.isFinite e.price = true)
    (hprice : Double.stod (Double.print17 e.price) = .ok e.price) (hqty : IsInt64 e.qty) (hts : IsInt64 e.timestampNs) :
    decode (encode e) = .ok e := by
  rw [encode_eq]
  exact decode_members e hfinite hprice hqty hts

/-- Strings of quotes, backslashes, newlines and NUL bytes, the smallest quantity, and a price with a sign and a fraction. -/
theorem decode_encode_awkward :
    let e : Event ℚ := .order ⟨[34, 92, 10, 0], ascii ",\x7b", [], .sell, -5 / 2, -2 ^ 63, .market, 2 ^ 63 - 1, .replaced, [92],
      [255]⟩
    decode (encode e) = .ok e := by
  intro e
  exact decode_encode e rfl (by decide +kernel) (by decide) (by decide)

end Events

end TradeSurveillance
