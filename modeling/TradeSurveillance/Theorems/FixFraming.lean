import TradeSurveillance.Lib.TagValue
import TradeSurveillance.Simulator.Serialization.FixWriter

/-!
# FIX messages are well framed

A message is its fields, one behind the other (`messageOf_eq`): BodyLength and CheckSum are computed over the text of the fields that
stand before them, and no value but the strings of an order or an execution can have a SOH in it.
-/

namespace TradeSurveillance.Simulator

open TagValue

variable {P : Type} [Double P]

/-! ## The fields of a message -/

/-- The fields that are written for an order or an execution. -/
def bodyFields : FixItem P → List (Str × Str)
  | .order o =>
    if o.status = .new then [(ascii "11", o.orderId), (ascii "1", o.accountId), (ascii "55", o.instrumentId),
      (ascii "54", sideToFix o.side), (ascii "38", Decimal.ofInt o.qty), (ascii "40", ordTypeToFix o.orderType),
      (ascii "44", formatPrice o.price), (ascii "60", formatUtcTimestamp o.timestampNs), (ascii "100", o.venue)]
    else [(ascii "11", o.orderId), (ascii "41", o.orderId), (ascii "1", o.accountId), (ascii "55", o.instrumentId),
      (ascii "54", sideToFix o.side), (ascii "38", Decimal.ofInt o.qty), (ascii "60", formatUtcTimestamp o.timestampNs)]
  | .execution x => [(ascii "37", x.orderId), (ascii "17", x.tradeId), (ascii "1", x.accountId), (ascii "55", x.instrumentId),
      (ascii "150", ascii "F"), (ascii "39", ascii "2"), (ascii "32", Decimal.ofInt x.qty), (ascii "31", formatPrice x.price),
      (ascii "14", Decimal.ofInt x.qty), (ascii "151", ascii "0"), (ascii "6", formatPrice x.price),
      (ascii "60", formatUtcTimestamp x.timestampNs), (ascii "100", x.venue)]

omit [Double P] in
/-- `MsgType`. -/
def msgType : FixItem P → Str
  | .order o => if o.status = .new then ascii "D" else ascii "F"
  | .execution _ => ascii "8"

/-- The fields that BodyLength counts. -/
def countedFields (seqNum : ℤ) (item : FixItem P) : List (Str × Str) :=
  [(ascii "35", msgType item), (ascii "49", ascii "TSE-SIM"), (ascii "56", ascii "TSE-EXCH"), (ascii "34", Decimal.ofInt seqNum),
    (ascii "52", formatUtcTimestamp item.timestampNs)] ++ bodyFields item

/-- The sum of the bytes of a text. -/
def byteSum (text : Str) : ℕ := (text.map UInt8.toNat).sum

/-- The fields before them. -/
def frontFields (seqNum : ℤ) (item : FixItem P) : List (Str × Str) :=
  [(ascii "8", ascii "FIX.4.2"), (ascii "9", Decimal.ofNat (joinFields (countedFields seqNum item)).length)]

/-- The field behind them: the sum of all bytes before it, modulo 256 and in three digits. -/
def checkSumField (seqNum : ℤ) (item : FixItem P) : Str × Str :=
  (ascii "10", Decimal.padded 3 (byteSum (joinFields (frontFields seqNum item ++ countedFields seqNum item)) % 256))

/-- All fields of the message of an item. -/
def messageFields (seqNum : ℤ) (item : FixItem P) : List (Str × Str) :=
  frontFields seqNum item ++ countedFields seqNum item ++ [checkSumField seqNum item]

/-- The message is that of an item with this number, and every tag and value written can be found in it. -/
structure Framed (seqNum : ℤ) (item : FixItem P) (message : Str) : Prop where
  text : message = joinFields (messageFields seqNum item)
  digits : (checkSumField seqNum item).2.length = 3
  fields : splitFields message = messageFields seqNum item

/-- The messages of the export are those of the items, numbered from 1 on; the items are all orders but the `Replaced` ones and all
executions, in the order of their timestamps. -/
structure FramedExport (orders : List (Order P)) (executions : List (Execution P)) (items : List (FixItem P)) : Prop where
  merged : items.Perm (fixItems orders executions)
  ordered : items.Pairwise fun a b => a.timestampNs ≤ b.timestampNs
  count : (toFixMessages orders executions).length = items.length
  framed : ∀ (i : ℕ) item, items[i]? = some item →
    ∃ message, (toFixMessages orders executions)[i]? = some message ∧ Framed ((i : ℤ) + 1) item message

/-! ## Values without SOH -/

/-- SOH is in no numeral. -/
theorem soh_notMem_of_isNumeric {text : Str} (h : ∀ b ∈ text, Decimal.isNumeric b = true) : TagValue.soh ∉ text :=
  fun hmem => absurd (h _ hmem) (by decide)

/-- Nor in a natural number. -/
theorem soh_notMem_ofNat (n : ℕ) : TagValue.soh ∉ Decimal.ofNat n :=
  soh_notMem_of_isNumeric fun _ hb => Decimal.isNumeric_of_isDigit (Decimal.isDigit_of_mem_ofNat hb)

/-- Nor in an integer. -/
theorem soh_notMem_ofInt (z : ℤ) : TagValue.soh ∉ Decimal.ofInt z := soh_notMem_of_isNumeric fun _ hb => Decimal.isNumeric_of_mem_ofInt hb

/-- Nor in a number of fixed width. -/
theorem soh_notMem_padded (width n : ℕ) : TagValue.soh ∉ Decimal.padded width n :=
  soh_notMem_of_isNumeric fun _ hb => Decimal.isNumeric_of_isDigit (Decimal.isDigit_of_mem_padded hb)

/-- Nor in a price. -/
theorem soh_notMem_formatPrice (price : P) : TagValue.soh ∉ formatPrice price := by
  unfold formatPrice Double.printFixed Double.sign
  rw [List.mem_append, not_or]
  constructor
  · split_ifs <;> decide
  · split_ifs
    · exact soh_notMem_of_isNumeric fun _ hb => Decimal.isNumeric_of_mem_fixed hb
    · decide

/-- Nor in a timestamp. -/
theorem soh_notMem_formatUtcTimestamp (ts : ℤ) : TagValue.soh ∉ formatUtcTimestamp ts := by
  unfold formatUtcTimestamp
  simp only [List.mem_append, not_or]
  exact ⟨⟨⟨⟨⟨⟨⟨⟨⟨⟨soh_notMem_ofInt _, soh_notMem_padded _ _⟩, soh_notMem_padded _ _⟩, by decide⟩, soh_notMem_padded _ _⟩, by decide⟩,
    soh_notMem_padded _ _⟩, by decide⟩, soh_notMem_padded _ _⟩, by decide⟩, soh_notMem_padded _ _⟩

omit [Double P] in
/-- The strings of an item that are written have no SOH in them. -/
def Writable : FixItem P → Prop
  | .order o => ∀ text ∈ [o.orderId, o.accountId, o.instrumentId, o.venue], TagValue.soh ∉ text
  | .execution x => ∀ text ∈ [x.tradeId, x.orderId, x.accountId, x.instrumentId, x.venue], TagValue.soh ∉ text

/-! ## The builder -/

/-- The sum of the bytes may be reduced at every step. -/
theorem checksum_foldl (text : Str) : ∀ sum, text.foldl (fun sum c => (sum + c.toNat) % 2 ^ 32) sum % 256 = (sum + byteSum text) % 256 := by
  induction text with
  | nil =>
    intro sum
    rfl
  | cons c text ih =>
    intro sum
    have hsum : byteSum (c :: text) = c.toNat + byteSum text := List.sum_cons
    rw [List.foldl_cons, ih, hsum]
    omega

/-- The sum in `unsigned int` is modulo 256 the sum of the bytes. -/
theorem checksum_eq (text : Str) : FixMessageBuilder.checksum text = byteSum text % 256 := by
  rw [FixMessageBuilder.checksum, checksum_foldl, Nat.zero_add]

/-- What `assemble` gives for the body of an item. -/
theorem assemble_eq (n : ℤ) (item : FixItem P) :
    FixMessageBuilder.assemble { seqNum := n } (msgType item) (joinFields (bodyFields item)) item.timestampNs =
      (joinFields (messageFields n item), { seqNum := n + 1 }) := by
  have hcounted : ascii "35=" ++ msgType item ++ soh ++ (ascii "49=" ++ ascii "TSE-SIM" ++ soh) ++
      (ascii "56=" ++ ascii "TSE-EXCH" ++ soh) ++ (ascii "34=" ++ Decimal.ofInt n ++ soh) ++
      (ascii "52=" ++ formatUtcTimestamp item.timestampNs ++ soh) ++ joinFields (bodyFields item) = joinFields (countedFields n item) := by
    simp [joinFields, countedFields, fieldText, ascii, soh, equalsSign, TagValue.soh]
  have hfront : ascii "8=FIX.4.2" ++ soh ++ ascii "9=" ++ Decimal.ofNat (joinFields (countedFields n item)).length ++ soh =
      joinFields (frontFields n item) := by
    simp [joinFields, frontFields, fieldText, ascii, soh, equalsSign, TagValue.soh]
  have hchecksum : ascii "10=" ++ (checkSumField n item).2 ++ soh = joinFields [checkSumField n item] := by
    simp [joinFields, checkSumField, fieldText, ascii, soh, equalsSign, TagValue.soh]
  unfold FixMessageBuilder.assemble
  simp only [hcounted, hfront, checksum_eq, ← joinFields_append]
  rw [messageFields, joinFields_append _ [_], ← hchecksum]
  rfl

/-- The body and the type that each builder function writes are those of its item. -/
theorem buildNewOrderSingle_eq (n : ℤ) {order : Order P} (h : order.status = .new) :
    FixMessageBuilder.buildNewOrderSingle { seqNum := n } order =
      (joinFields (messageFields n (.order order)), { seqNum := n + 1 }) := by
  have htype : msgType (.order order) = ascii "D" := if_pos h
  rw [← assemble_eq, htype, bodyFields, if_pos h]
  simp [FixMessageBuilder.buildNewOrderSingle, joinFields, fieldText, ascii, soh, equalsSign, TagValue.soh, FixItem.timestampNs]

/-- The fields of a cancel request, as the builder writes them. -/
theorem buildOrderCancelRequest_eq (n : ℤ) {order : Order P} (h : order.status = .cancelled) :
    FixMessageBuilder.buildOrderCancelRequest { seqNum := n } order =
      (joinFields (messageFields n (.order order)), { seqNum := n + 1 }) := by
  have hnew : order.status ≠ .new := by
    rw [h]
    decide
  have htype : msgType (.order order) = ascii "F" := if_neg hnew
  rw [← assemble_eq, htype, bodyFields, if_neg hnew]
  simp [FixMessageBuilder.buildOrderCancelRequest, joinFields, fieldText, ascii, soh, equalsSign, TagValue.soh, FixItem.timestampNs]

/-- The fields of an execution report, as the builder writes them. -/
theorem buildExecutionReport_eq (n : ℤ) (execution : Execution P) :
    FixMessageBuilder.buildExecutionReport { seqNum := n } execution =
      (joinFields (messageFields n (.execution execution)), { seqNum := n + 1 }) := by
  rw [← assemble_eq]
  simp [FixMessageBuilder.buildExecutionReport, bodyFields, msgType, joinFields, fieldText, ascii, soh, equalsSign, TagValue.soh,
    FixItem.timestampNs]

/-! ## The loop -/

omit [Double P] in
/-- The item is not a `Replaced` order. -/
def FixItem.Sent : FixItem P → Prop
  | .order o => o.status ≠ .replaced
  | .execution _ => True

/-- A round appends one message and counts it. -/
theorem appendMessage_eq (messages : List Str) (n : ℤ) {item : FixItem P} (h : item.Sent) :
    appendMessage (messages, { seqNum := n }) item = (messages ++ [joinFields (messageFields n item)], { seqNum := n + 1 }) := by
  cases item with
  | execution execution => rw [appendMessage, buildExecutionReport_eq]
  | order order =>
    cases hstatus : order.status with
    | new => simp only [appendMessage, hstatus, if_true, buildNewOrderSingle_eq n hstatus]
    | cancelled => simp only [appendMessage, hstatus, reduceCtorEq, if_false, if_true, buildOrderCancelRequest_eq n hstatus]
    | replaced => exact absurd hstatus h

/-- The messages of a run of the loop have consecutive numbers. -/
theorem foldl_appendMessage {items : List (FixItem P)} (h : ∀ item ∈ items, item.Sent) : ∀ (messages : List Str) (n : ℤ),
    items.foldl appendMessage (messages, { seqNum := n }) =
      (messages ++ items.mapIdx fun i item => joinFields (messageFields (n + i) item), { seqNum := n + items.length }) := by
  induction items with
  | nil =>
    intro messages n
    simp
  | cons item items ih =>
    intro messages n
    obtain ⟨hitem, hitems⟩ := List.forall_mem_cons.1 h
    have hnumber : ∀ i : ℕ, n + 1 + (i : ℤ) = n + ((i + 1 : ℕ) : ℤ) := by
      intro i
      omega
    rw [List.foldl_cons, appendMessage_eq messages n hitem, ih hitems, List.mapIdx_cons, List.append_assoc, List.length_cons, hnumber]
    simp only [hnumber, Nat.cast_zero, Int.add_zero, List.singleton_append]

/-! ## Reading a message back -/

/-- SOH is in no side. -/
theorem soh_notMem_sideToFix (side : Side) : TagValue.soh ∉ sideToFix side := by cases side <;> decide

/-- Nor in an order type. -/
theorem soh_notMem_ordTypeToFix (type : OrderType) : TagValue.soh ∉ ordTypeToFix type := by cases type <;> decide

omit [Double P] in
/-- Nor in a message type. -/
theorem soh_notMem_msgType (item : FixItem P) : TagValue.soh ∉ msgType item := by
  cases item with
  | order o =>
    by_cases hnew : o.status = .new
    · rw [msgType, if_pos hnew]
      decide
    · rw [msgType, if_neg hnew]
      decide
  | execution x =>
    rw [msgType]
    decide

/-- The fields of the body have tags and values that can be found again. -/
theorem sound_bodyFields {item : FixItem P} (h : Writable item) : ∀ field ∈ bodyFields item, Sound field := by
  rw [forall_sound_iff]
  cases item with
  | order o =>
    simp only [Writable, List.forall_mem_cons] at h
    obtain ⟨hid, haccount, hinstrument, hvenue, hnil⟩ := h
    by_cases hnew : o.status = .new
    all_goals simp only [bodyFields, hnew, if_true, if_false, List.map_cons, List.map_nil]
    · refine ⟨by decide, ?_⟩
      simp only [List.forall_mem_cons]
      exact ⟨hid, haccount, hinstrument, soh_notMem_sideToFix _, soh_notMem_ofInt _, soh_notMem_ordTypeToFix _,
        soh_notMem_formatPrice _, soh_notMem_formatUtcTimestamp _, hvenue, hnil⟩
    · refine ⟨by decide, ?_⟩
      simp only [List.forall_mem_cons]
      exact ⟨hid, hid, haccount, hinstrument, soh_notMem_sideToFix _, soh_notMem_ofInt _, soh_notMem_formatUtcTimestamp _, hnil⟩
  | execution x =>
    simp only [Writable, List.forall_mem_cons] at h
    obtain ⟨htrade, hid, haccount, hinstrument, hvenue, hnil⟩ := h
    refine ⟨by simp only [bodyFields, List.map_cons, List.map_nil]; decide, ?_⟩
    simp only [bodyFields, List.map_cons, List.map_nil, List.forall_mem_cons]
    exact ⟨hid, htrade, haccount, hinstrument, by decide, by decide, soh_notMem_ofInt _, soh_notMem_formatPrice _, soh_notMem_ofInt _,
      by decide, soh_notMem_formatPrice _, soh_notMem_formatUtcTimestamp _, hvenue, hnil⟩

/-- So have all fields of the message. -/
theorem sound_messageFields (n : ℤ) {item : FixItem P} (h : Writable item) : ∀ field ∈ messageFields n item, Sound field := by
  have hfront : ∀ field ∈ frontFields n item, Sound field := by
    rw [forall_sound_iff, frontFields]
    refine ⟨by simp only [List.map_cons, List.map_nil]; decide, ?_⟩
    simp only [List.map_cons, List.map_nil, List.forall_mem_cons]
    exact ⟨by decide, soh_notMem_ofNat _, List.forall_mem_nil _⟩
  have hcounted : ∀ field ∈ countedFields n item, Sound field := by
    rw [countedFields, List.forall_mem_append]
    refine ⟨?_, sound_bodyFields h⟩
    rw [forall_sound_iff]
    refine ⟨by simp only [List.map_cons, List.map_nil]; decide, ?_⟩
    simp only [List.map_cons, List.map_nil, List.forall_mem_cons]
    exact ⟨soh_notMem_msgType item, by decide, by decide, soh_notMem_ofInt n, soh_notMem_formatUtcTimestamp _, List.forall_mem_nil _⟩
  have htag : equalsSign ∉ ascii "10" ∧ TagValue.soh ∉ ascii "10" := by decide
  rw [messageFields, List.forall_mem_append, List.forall_mem_append, List.forall_mem_singleton]
  exact ⟨⟨hfront, hcounted⟩, htag, soh_notMem_padded _ _⟩

/-- The message of an item whose strings have no SOH is framed. -/
theorem framed_of_writable (n : ℤ) {item : FixItem P} (h : Writable item) : Framed n item (joinFields (messageFields n item)) where
  text := rfl
  digits := Decimal.length_padded (Decimal.length_ofNat_le (by decide) ((Nat.mod_lt _ (by decide)).trans (by decide)))
  fields := splitFields_joinFields (sound_messageFields n h)

/-- The export is well framed. -/
theorem fix_export_framed {orders : List (Order P)} {executions : List (Execution P)}
    (h : ∀ item ∈ fixItems orders executions, Writable item) : ∃ items, FramedExport orders executions items := by
  have hsent : ∀ item ∈ StableSort.sortBy FixItem.timestampNs (fixItems orders executions), item.Sent := by
    intro item hitem
    rcases List.mem_append.1 ((StableSort.mem_sortBy _).1 hitem) with hitem | hitem
    · obtain ⟨o, ho, rfl⟩ := List.mem_map.1 hitem
      simpa [FixItem.Sent] using (List.mem_filter.1 ho).2
    · obtain ⟨x, _, rfl⟩ := List.mem_map.1 hitem
      trivial
  have hmessages := congrArg Prod.fst (foldl_appendMessage hsent [] 1)
  rw [← toFixMessages, List.nil_append] at hmessages
  refine ⟨_, StableSort.sortBy_perm FixItem.timestampNs _, StableSort.sortBy_pairwise _ _, ?_, ?_⟩
  · rw [hmessages, List.length_mapIdx]
  · intro i item hi
    have hw := h item ((StableSort.mem_sortBy _).1 (List.mem_of_getElem? hi))
    rw [hmessages, List.getElem?_mapIdx, hi]
    exact ⟨_, rfl, add_comm (1 : ℤ) i ▸ framed_of_writable (1 + i) hw⟩

/-- A cancelled order with an equals sign and bytes beyond ASCII in its strings, and an execution at the same time. -/
theorem fix_export_framed_two : ∃ items, FramedExport (P := ℚ)
    [⟨ascii "A=1", [195, 188], ascii "X", .sell, 100, -7, .limit, 5, .cancelled, [], ⟨.baseline, [], 0⟩⟩]
    [⟨ascii "T", ascii "B", ascii "ACC", ascii "X", 100, 7, 5, ascii "CPTY", ascii "SIM", ⟨.baseline, [], 0⟩⟩] items := by
  refine fix_export_framed ?_
  intro item hitem
  rcases List.mem_append.1 hitem with hitem | hitem
  · obtain ⟨o, ho, rfl⟩ := List.mem_map.1 hitem
    rw [List.mem_singleton.1 (List.mem_of_mem_filter ho), Writable]
    decide
  · obtain ⟨x, hx, rfl⟩ := List.mem_map.1 hitem
    rw [List.mem_singleton.1 hx, Writable]
    decide

end TradeSurveillance.Simulator
