import TradeSurveillance.Fix.Types
import TradeSurveillance.Lib.JsonString

/-!
# `event_codec`: events as flat JSON records

`encode` writes an event as one JSON object; `decode` reads it back by a parser of its own. The parser's `pos_` is modelled by the
rest of the text from there on.
-/

namespace TradeSurveillance

/-! ## Writing -/

/-- `escape_json`. -/
def escapeJson (value : Str) : Str := JsonString.escape value

/-- `write_string_field`. -/
def writeStringField (key : String) (value : Str) (comma : Bool) : Str :=
  ascii "\"" ++ ascii key ++ ascii "\":\"" ++ escapeJson value ++ ascii "\"" ++ if comma then ascii "," else []

/-- `encode`. -/
def encode {P : Type} [Double P] : Event P → Str
  | .order order =>
    ascii "\x7b" ++
    writeStringField "type" (ascii "order") true ++
    writeStringField "order_id" order.orderId true ++
    writeStringField "account_id" order.accountId true ++
    writeStringField "instrument_id" order.instrumentId true ++
    writeStringField "side" order.side.toString true ++
    (ascii "\"price\":" ++ Double.print17 order.price ++ ascii ",") ++
    (ascii "\"qty\":" ++ Decimal.ofInt order.qty ++ ascii ",") ++
    writeStringField "order_type" order.orderType.toString true ++
    (ascii "\"timestamp_ns\":" ++ Decimal.ofInt order.timestampNs ++ ascii ",") ++
    writeStringField "status" order.status.toString true ++
    writeStringField "venue" order.venue true ++
    writeStringField "orig_order_id" order.origOrderId false ++
    ascii "\x7d"
  | .execution execution =>
    ascii "\x7b" ++
    writeStringField "type" (ascii "execution") true ++
    writeStringField "trade_id" execution.tradeId true ++
    writeStringField "order_id" execution.orderId true ++
    writeStringField "account_id" execution.accountId true ++
    writeStringField "instrument_id" execution.instrumentId true ++
    writeStringField "side" execution.side.toString true ++
    (ascii "\"price\":" ++ Double.print17 execution.price ++ ascii ",") ++
    (ascii "\"qty\":" ++ Decimal.ofInt execution.qty ++ ascii ",") ++
    (ascii "\"timestamp_ns\":" ++ Decimal.ofInt execution.timestampNs ++ ascii ",") ++
    writeStringField "counterparty_account_id" execution.counterpartyAccountId true ++
    writeStringField "venue" execution.venue false ++
    ascii "\x7d"

/-! ## Reading -/

namespace FlatJsonParser

def endOfInput : Exception := .runtimeError (ascii "event_codec: unexpected end of input")

/-- `skip_ws`. -/
def skipWs (text : Str) : Str := text.dropWhile Decimal.isSpace

/-- `peek`, which skips white space. -/
def peek (text : Str) : Except Exception (UInt8 × Str) :=
  match skipWs text with
  | [] => .error endOfInput
  | c :: rest => .ok (c, c :: rest)

/-- `expect`. -/
def expect (c : UInt8) (text : Str) : Except Exception Str := do
  let (found, text) ← peek text
  if found ≠ c then .error (.runtimeError (ascii "event_codec: expected '" ++ [c] ++ ascii "'"))
  else .ok text.tail

/-- `parse_raw_string`. -/
def parseRawString (text : Str) : Except Exception (Str × Str) := do
  let text ← expect 34 text
  let (out, text) := JsonString.unescape text
  let text ← expect 34 text
  .ok (out, text)

/-- `parse_raw_number`. -/
def parseRawNumber (text : Str) : Except Exception (Str × Str) :=
  let number := text.takeWhile Decimal.isNumeric
  if number = [] then .error (.runtimeError (ascii "event_codec: expected a number"))
  else .ok (number, text.dropWhile Decimal.isNumeric)

/-- The loop of `parse_object` up to the assignment to `fields`: a key, its value, and the rest of the text. -/
def parseMember (text : Str) : Except Exception ((Str × Str) × Str) := do
  let (key, text) ← parseRawString (skipWs text)
  let text ← expect 58 (skipWs text)
  let (c, text) ← peek (skipWs text)
  let (value, text) ← if c = 34 then parseRawString text else parseRawNumber text
  .ok ((key, value), text)

/-- The loop of `parse_object`. Every pass takes something off the text, so that with the length of the text as fuel, the fuel ends
only where the text does; there the source throws too. -/
def parseMembers : ℕ → Map Str Str → Str → Except Exception (Map Str Str × Str)
  | 0, _, _ => .error endOfInput
  | fuel + 1, fields, text => do
    let ((key, value), text) ← parseMember text
    let fields := fields.insert key value
    let (c, text) ← peek (skipWs text)
    if c = 44 then parseMembers fuel fields text.tail else .ok (fields, text)

/-- `parse_object`. -/
def parseObject (text : Str) : Except Exception (Map Str Str) := do
  let text ← expect 123 text
  let (c, text) ← peek text
  if c = 125 then .ok ∅
  else
    let (fields, text) ← parseMembers text.length ∅ text
    let _ ← expect 125 text
    .ok fields

end FlatJsonParser

/-- `require`. -/
def require (fields : Map Str Str) (key : String) : Except Exception Str :=
  match fields.lookup (ascii key) with
  | none => .error (.runtimeError (ascii "event_codec: missing field '" ++ ascii key ++ ascii "'"))
  | some value => .ok value

/-- `std::stoll`. -/
def stoll (text : Str) : Except Exception ℤ :=
  match Decimal.readInt text with
  | none => .error (.invalidArgument (ascii "stoll"))
  | some z => if IsInt64 z then .ok z else .error (.outOfRange (ascii "stoll"))

/-- `decode`. -/
def decode {P : Type} [Double P] (json : Str) : Except Exception (Event P) := do
  let fields ← FlatJsonParser.parseObject json
  let type ← require fields "type"
  if type = ascii "order" then
    let orderId ← require fields "order_id"
    let accountId ← require fields "account_id"
    let instrumentId ← require fields "instrument_id"
    let side ← sideFromString (← require fields "side")
    let price ← Double.stod (← require fields "price")
    let qty ← stoll (← require fields "qty")
    let orderType ← orderTypeFromString (← require fields "order_type")
    let timestampNs ← stoll (← require fields "timestamp_ns")
    let status ← orderStatusFromString (← require fields "status")
    let venue ← require fields "venue"
    let origOrderId ← require fields "orig_order_id"
    .ok (.order { orderId, accountId, instrumentId, side, price, qty, orderType, timestampNs, status, venue, origOrderId })
  else if type = ascii "execution" then
    let tradeId ← require fields "trade_id"
    let orderId ← require fields "order_id"
    let accountId ← require fields "account_id"
    let instrumentId ← require fields "instrument_id"
    let side ← sideFromString (← require fields "side")
    let price ← Double.stod (← require fields "price")
    let qty ← stoll (← require fields "qty")
    let timestampNs ← stoll (← require fields "timestamp_ns")
    let counterpartyAccountId ← require fields "counterparty_account_id"
    let venue ← require fields "venue"
    .ok (.execution { tradeId, orderId, accountId, instrumentId, side, price, qty, timestampNs, counterpartyAccountId, venue })
  else .error (.runtimeError (ascii "event_codec: unrecognized type '" ++ type ++ ascii "'"))

end TradeSurveillance
