import TradeSurveillance.Ingestion.EventCodec
import TradeSurveillance.Simulator.Types

/-!
# `json_writer`: the labelled dataset as JSON

The writer prints orders and executions field by field; the parser reads nested objects, arrays, strings and numbers. The parser's
`pos_` is modelled by the rest of the text from there on.
-/

namespace TradeSurveillance.Simulator

section Writer

variable {P : Type} [Double P]

/-- `escape_json` of this file, which is that of the codec. -/
def escapeJson (value : Str) : Str := JsonString.escape value

/-- A member whose value the writers escape. -/
def writeString (key : String) (value : Str) : Str :=
  ascii "\"" ++ ascii key ++ ascii "\":\"" ++ escapeJson value ++ ascii "\""

/-- `write_label`. -/
def writeLabel (label : GroundTruthLabel P) : Str :=
  ascii "\x7b\"pattern\":\"" ++ label.pattern.toString ++ ascii "\"," ++
  writeString "scenario_id" label.scenarioId ++ ascii "," ++
  ascii "\"severity\":" ++ Double.print17 label.severity ++ ascii "\x7d"

/-- `write_order`. -/
def writeOrder (order : Order P) : Str :=
  ascii "\x7b" ++
  writeString "order_id" order.orderId ++ ascii "," ++
  writeString "account_id" order.accountId ++ ascii "," ++
  writeString "instrument_id" order.instrumentId ++ ascii "," ++
  ascii "\"side\":\"" ++ order.side.toString ++ ascii "\"," ++
  ascii "\"price\":" ++ Double.print17 order.price ++ ascii "," ++
  ascii "\"qty\":" ++ Decimal.ofInt order.qty ++ ascii "," ++
  ascii "\"order_type\":\"" ++ order.orderType.toString ++ ascii "\"," ++
  ascii "\"timestamp_ns\":" ++ Decimal.ofInt order.timestampNs ++ ascii "," ++
  ascii "\"status\":\"" ++ order.status.toString ++ ascii "\"," ++
  writeString "venue" order.venue ++ ascii "," ++
  ascii "\"ground_truth_label\":" ++ writeLabel order.groundTruthLabel ++
  ascii "\x7d"

/-- `write_execution`. -/
def writeExecution (execution : Execution P) : Str :=
  ascii "\x7b" ++
  writeString "trade_id" execution.tradeId ++ ascii "," ++
  writeString "order_id" execution.orderId ++ ascii "," ++
  writeString "account_id" execution.accountId ++ ascii "," ++
  writeString "instrument_id" execution.instrumentId ++ ascii "," ++
  ascii "\"price\":" ++ Double.print17 execution.price ++ ascii "," ++
  ascii "\"qty\":" ++ Decimal.ofInt execution.qty ++ ascii "," ++
  ascii "\"timestamp_ns\":" ++ Decimal.ofInt execution.timestampNs ++ ascii "," ++
  writeString "counterparty_account_id" execution.counterpartyAccountId ++ ascii "," ++
  writeString "venue" execution.venue ++ ascii "," ++
  ascii "\"ground_truth_label\":" ++ writeLabel execution.groundTruthLabel ++
  ascii "\x7d"

/-- `to_labeled_json`. -/
def toLabeledJson (orders : List (Order P)) (executions : List (Execution P)) : Str :=
  ascii "\x7b\"orders\":[" ++
  (ascii ",").intercalate (orders.map writeOrder) ++
  ascii "],\"executions\":[" ++
  (ascii ",").intercalate (executions.map writeExecution) ++
  ascii "]\x7d"

end Writer

/-! ## Values -/

/-- `JsonValue`: a number keeps its raw text. -/
inductive JsonValue where
  | string (value : Str)
  | number (digits : Str)
  | object (members : List (Str × JsonValue))
  | array (items : List JsonValue)

namespace JsonValue

/-- `str_value`, empty in an object and an array. -/
def strValue : JsonValue → Str
  | .string value => value
  | .number digits => digits
  | _ => []

/-- `object_value`, empty in any other value. -/
def objectValue : JsonValue → List (Str × JsonValue)
  | .object members => members
  | _ => []

/-- `array_value`, empty in any other value. -/
def arrayValue : JsonValue → List JsonValue
  | .array items => items
  | _ => []

/-- `at`: the first member with the key. -/
def at_ (v : JsonValue) (key : Str) : Except Exception JsonValue :=
  match v.objectValue.find? fun m => m.1 = key with
  | none => .error (.runtimeError (ascii "parse_labeled_json: missing key '" ++ key ++ ascii "'"))
  | some m => .ok m.2

/-- `as_double`. -/
def asDouble {P : Type} [Double P] (v : JsonValue) : Except Exception P := Double.stod v.strValue

/-- `as_int64`. -/
def asInt64 (v : JsonValue) : Except Exception ℤ := stoll v.strValue

end JsonValue

/-! ## The parser -/

namespace JsonParser

def endOfInput : Exception := .runtimeError (ascii "parse_labeled_json: unexpected end of input")

/-- `skip_ws`. -/
def skipWs (text : Str) : Str := text.dropWhile Decimal.isSpace

/-- `peek`, which skips white space. -/
def peek (text : Str) : Except Exception (UInt8 × Str) :=
  match skipWs text with
  | [] => .error endOfInput
  | c :: rest => .ok (c, c :: rest)

/-- `expect`. -/
def expect (c : UInt8) (text : Str) : Except Exception Str := do
  let (found, text) ← peek text
  if found ≠ c then .error (.runtimeError (ascii "parse_labeled_json: expected '" ++ [c] ++ ascii "'"))
  else .ok text.tail

/-- `parse_raw_string`. -/
def parseRawString (text : Str) : Except Exception (Str × Str) := do
  let text ← expect 34 text
  let (out, text) := JsonString.unescape text
  let text ← expect 34 text
  .ok (out, text)

/-- `parse_number`. -/
def parseNumber (text : Str) : Except Exception (JsonValue × Str) :=
  let text := skipWs text
  let digits := text.takeWhile Decimal.isNumeric
  if digits = [] then .error (.runtimeError (ascii "parse_labeled_json: expected a number"))
  else .ok (.number digits, text.dropWhile Decimal.isNumeric)

mutual

/-- `parse_value`, with `parse_string_value`, `parse_object` and `parse_array` up to their loops. An array takes two units of fuel for each
byte of its bracket, and nothing takes more, so that twice the length of the text and one unit more do not end (`parseValue_fuel`). -/
def parseValue : ℕ → Str → Except Exception (JsonValue × Str)
  | 0, _ => .error endOfInput
  | fuel + 1, text => do
    let (c, text) ← peek text
    if c = 34 then
      let (value, text) ← parseRawString text
      .ok (.string value, text)
    else if c = 123 then
      let text ← expect 123 text
      let (c, text) ← peek text
      if c = 125 then .ok (.object [], text.tail)
      else
        let (members, text) ← parseMembers fuel text
        let text ← expect 125 text
        .ok (.object members, text)
    else if c = 91 then
      let text ← expect 91 text
      let (c, text) ← peek text
      if c = 93 then .ok (.array [], text.tail)
      else
        let (items, text) ← parseItems fuel text
        let text ← expect 93 text
        .ok (.array items, text)
    else parseNumber text

/-- The loop of `parse_object`. -/
def parseMembers : ℕ → Str → Except Exception (List (Str × JsonValue) × Str)
  | 0, _ => .error endOfInput
  | fuel + 1, text => do
    let (key, text) ← parseRawString (skipWs text)
    let text ← expect 58 (skipWs text)
    let (value, text) ← parseValue fuel text
    let (c, text) ← peek (skipWs text)
    if c = 44 then
      let (members, text) ← parseMembers fuel text.tail
      .ok ((key, value) :: members, text)
    else .ok ([(key, value)], text)

/-- The loop of `parse_array`. -/
def parseItems : ℕ → Str → Except Exception (List JsonValue × Str)
  | 0, _ => .error endOfInput
  | fuel + 1, text => do
    let (value, text) ← parseValue fuel text
    let (c, text) ← peek (skipWs text)
    if c = 44 then
      let (items, text) ← parseItems fuel text.tail
      .ok (value :: items, text)
    else .ok ([value], text)

end

/-- `parse_document`: what is behind the value is not looked at. -/
def parseDocument (text : Str) : Except Exception JsonValue := do
  let (value, _) ← parseValue (2 * text.length + 1) text
  .ok value

end JsonParser

/-! ## Reading -/

section Reader

variable {P : Type} [Double P]

/-- `label_from_json`. -/
def labelFromJson (v : JsonValue) : Except Exception (GroundTruthLabel P) := do
  let pattern ← abusePatternFromString (← v.at_ (ascii "pattern")).strValue
  let scenarioId := (← v.at_ (ascii "scenario_id")).strValue
  let severity ← (← v.at_ (ascii "severity")).asDouble
  .ok { pattern, scenarioId, severity }

/-- `order_from_json`. -/
def orderFromJson (v : JsonValue) : Except Exception (Order P) := do
  let orderId := (← v.at_ (ascii "order_id")).strValue
  let accountId := (← v.at_ (ascii "account_id")).strValue
  let instrumentId := (← v.at_ (ascii "instrument_id")).strValue
  let side ← sideFromString (← v.at_ (ascii "side")).strValue
  let price ← (← v.at_ (ascii "price")).asDouble
  let qty ← (← v.at_ (ascii "qty")).asInt64
  let orderType ← orderTypeFromString (← v.at_ (ascii "order_type")).strValue
  let timestampNs ← (← v.at_ (ascii "timestamp_ns")).asInt64
  let status ← orderStatusFromString (← v.at_ (ascii "status")).strValue
  let venue := (← v.at_ (ascii "venue")).strValue
  let groundTruthLabel ← labelFromJson (← v.at_ (ascii "ground_truth_label"))
  .ok { orderId, accountId, instrumentId, side, price, qty, orderType, timestampNs, status, venue, groundTruthLabel }

/-- `execution_from_json`. -/
def executionFromJson (v : JsonValue) : Except Exception (Execution P) := do
  let tradeId := (← v.at_ (ascii "trade_id")).strValue
  let orderId := (← v.at_ (ascii "order_id")).strValue
  let accountId := (← v.at_ (ascii "account_id")).strValue
  let instrumentId := (← v.at_ (ascii "instrument_id")).strValue
  let price ← (← v.at_ (ascii "price")).asDouble
  let qty ← (← v.at_ (ascii "qty")).asInt64
  let timestampNs ← (← v.at_ (ascii "timestamp_ns")).asInt64
  let counterpartyAccountId := (← v.at_ (ascii "counterparty_account_id")).strValue
  let venue := (← v.at_ (ascii "venue")).strValue
  let groundTruthLabel ← labelFromJson (← v.at_ (ascii "ground_truth_label"))
  .ok { tradeId, orderId, accountId, instrumentId, price, qty, timestampNs, counterpartyAccountId, venue, groundTruthLabel }

/-- `ParsedEvents`. -/
structure ParsedEvents (P : Type) where
  orders : List (Order P)
  executions : List (Execution P)

/-- `parse_labeled_json`. -/
def parseLabeledJson (json : Str) : Except Exception (ParsedEvents P) := do
  let root ← JsonParser.parseDocument json
  let orders ← (← root.at_ (ascii "orders")).arrayValue.mapM orderFromJson
  let executions ← (← root.at_ (ascii "executions")).arrayValue.mapM executionFromJson
  .ok ⟨orders, executions⟩

end Reader

end TradeSurveillance.Simulator
