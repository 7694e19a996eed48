import TradeSurveillance.Lib.StableSort
import TradeSurveillance.Simulator.Types

/-!
# `fix_writer`: FIX messages of a simulated session

Orders and executions are merged by their timestamps and written as FIX 4.2 text; the builder numbers its messages.
-/

namespace TradeSurveillance.Simulator

/-! ## Values -/

/-- `kSoh`. -/
def soh : Str := [1]

/-- The date of a day counted from 1970-01-01, as `gmtime_r` gives it: year, month, day of the month. Years are counted from March, in
cycles of 400 years. -/
def dateOfDays (days : ℤ) : ℤ × ℤ × ℤ :=
  let z := days + 719468
  let era := z / 146097
  let dayOfEra := z % 146097
  let yearOfEra := (dayOfEra - dayOfEra / 1460 + dayOfEra / 36524 - dayOfEra / 146096) / 365
  let dayOfYear := dayOfEra - (365 * yearOfEra + yearOfEra / 4 - yearOfEra / 100)
  let m := (5 * dayOfYear + 2) / 153
  let month := if m < 10 then m + 3 else m - 9
  (yearOfEra + era * 400 + if month ≤ 2 then 1 else 0, month, dayOfYear - (153 * m + 2) / 5 + 1)

/-- `format_utc_timestamp`. -/
def formatUtcTimestamp (timestampNs : ℤ) : Str :=
  let wholeSeconds := timestampNs.tdiv 1000000000
  let millis := (timestampNs.tmod 1000000000).tdiv 1000000
  let millis := if millis < 0 then millis + 1000 else millis
  let (year, month, day) := dateOfDays (wholeSeconds / 86400)
  let second := wholeSeconds % 86400
  Decimal.ofInt year ++ Decimal.padded 2 month.toNat ++ Decimal.padded 2 day.toNat ++ ascii "-" ++
    Decimal.padded 2 (second / 3600).toNat ++ ascii ":" ++ Decimal.padded 2 (second / 60 % 60).toNat ++ ascii ":" ++
    Decimal.padded 2 (second % 60).toNat ++ ascii "." ++ Decimal.padded 3 millis.toNat

/-- A time of the tests, and the last day of a leap year's February. -/
example : formatUtcTimestamp 1700000000000000000 = ascii "20231114-22:13:20.000" ∧
    formatUtcTimestamp 951782400123456789 = ascii "20000229-00:00:00.123" := by decide +kernel

section Builder

variable {P : Type} [Double P]

/-- `format_price`. -/
def formatPrice (price : P) : Str := Double.printFixed 6 price

/-- `side_to_fix`. -/
def sideToFix : Side → Str
  | .buy => ascii "1"
  | .sell => ascii "2"

/-- `ord_type_to_fix`. -/
def ordTypeToFix : OrderType → Str
  | .market => ascii "1"
  | .limit => ascii "2"

/-- `FixMessageBuilder`. -/
structure FixMessageBuilder where
  senderCompId : Str := ascii "TSE-SIM"
  targetCompId : Str := ascii "TSE-EXCH"
  seqNum : ℤ := 1

namespace FixMessageBuilder

/-- The loop over the bytes before the checksum, in `unsigned int`. -/
def checksum (text : Str) : ℕ := text.foldl (fun sum c => (sum + c.toNat) % 2 ^ 32) 0 % 256

/-- `assemble`. -/
def assemble (builder : FixMessageBuilder) (msgType bodyFields : Str) (timestampNs : ℤ) : Str × FixMessageBuilder :=
  let headerAfterBodylen :=
    ascii "35=" ++ msgType ++ soh ++
    (ascii "49=" ++ builder.senderCompId ++ soh) ++
    (ascii "56=" ++ builder.targetCompId ++ soh) ++
    (ascii "34=" ++ Decimal.ofInt builder.seqNum ++ soh) ++
    (ascii "52=" ++ formatUtcTimestamp timestampNs ++ soh) ++
    bodyFields
  let prefixText := ascii "8=FIX.4.2" ++ soh ++ ascii "9=" ++ Decimal.ofNat headerAfterBodylen.length ++ soh
  let fullWithoutChecksum := prefixText ++ headerAfterBodylen
  (fullWithoutChecksum ++ (ascii "10=" ++ Decimal.padded 3 (checksum fullWithoutChecksum) ++ soh),
    { builder with seqNum := builder.seqNum + 1 })

/-- `build_new_order_single`. -/
def buildNewOrderSingle (builder : FixMessageBuilder) (order : Order P) : Str × FixMessageBuilder :=
  let body :=
    ascii "11=" ++ order.orderId ++ soh ++
    (ascii "1=" ++ order.accountId ++ soh) ++
    (ascii "55=" ++ order.instrumentId ++ soh) ++
    (ascii "54=" ++ sideToFix order.side ++ soh) ++
    (ascii "38=" ++ Decimal.ofInt order.qty ++ soh) ++
    (ascii "40=" ++ ordTypeToFix order.orderType ++ soh) ++
    (ascii "44=" ++ formatPrice order.price ++ soh) ++
    (ascii "60=" ++ formatUtcTimestamp order.timestampNs ++ soh) ++
    (ascii "100=" ++ order.venue ++ soh)
  builder.assemble (ascii "D") body order.timestampNs

omit [Double P] in
/-- `build_order_cancel_request`. -/
def buildOrderCancelRequest (builder : FixMessageBuilder) (cancelOrder : Order P) : Str × FixMessageBuilder :=
  let body :=
    ascii "11=" ++ cancelOrder.orderId ++ soh ++
    (ascii "41=" ++ cancelOrder.orderId ++ soh) ++
    (ascii "1=" ++ cancelOrder.accountId ++ soh) ++
    (ascii "55=" ++ cancelOrder.instrumentId ++ soh) ++
    (ascii "54=" ++ sideToFix cancelOrder.side ++ soh) ++
    (ascii "38=" ++ Decimal.ofInt cancelOrder.qty ++ soh) ++
    (ascii "60=" ++ formatUtcTimestamp cancelOrder.timestampNs ++ soh)
  builder.assemble (ascii "F") body cancelOrder.timestampNs

/-- `build_execution_report`. -/
def buildExecutionReport (builder : FixMessageBuilder) (execution : Execution P) : Str × FixMessageBuilder :=
  let body :=
    ascii "37=" ++ execution.orderId ++ soh ++
    (ascii "17=" ++ execution.tradeId ++ soh) ++
    (ascii "1=" ++ execution.accountId ++ soh) ++
    (ascii "55=" ++ execution.instrumentId ++ soh) ++
    (ascii "150=F" ++ soh) ++
    (ascii "39=2" ++ soh) ++
    (ascii "32=" ++ Decimal.ofInt execution.qty ++ soh) ++
    (ascii "31=" ++ formatPrice execution.price ++ soh) ++
    (ascii "14=" ++ Decimal.ofInt execution.qty ++ soh) ++
    (ascii "151=0" ++ soh) ++
    (ascii "6=" ++ formatPrice execution.price ++ soh) ++
    (ascii "60=" ++ formatUtcTimestamp execution.timestampNs ++ soh) ++
    (ascii "100=" ++ execution.venue ++ soh)
  builder.assemble (ascii "8") body execution.timestampNs

end FixMessageBuilder

/-! ## Sessions -/

/-- `Item` of `to_fix_messages`: the source keeps an index into the orders or the executions. -/
inductive FixItem (P : Type) where
  | order (order : Order P)
  | execution (execution : Execution P)

def FixItem.timestampNs : FixItem P → ℤ
  | .order o => o.timestampNs
  | .execution x => x.timestampNs

/-- The items before they are sorted; a `Replaced` order is left out. -/
def fixItems (orders : List (Order P)) (executions : List (Execution P)) : List (FixItem P) :=
  (orders.filter fun order => order.status ≠ .replaced).map .order ++ executions.map .execution

/-- The loop body of `to_fix_messages`. -/
def appendMessage (r : List Str × FixMessageBuilder) : FixItem P → List Str × FixMessageBuilder
  | .execution execution =>
    let (message, builder) := r.2.buildExecutionReport execution
    (r.1 ++ [message], builder)
  | .order order =>
    if order.status = .new then
      let (message, builder) := r.2.buildNewOrderSingle order
      (r.1 ++ [message], builder)
    else if order.status = .cancelled then
      let (message, builder) := r.2.buildOrderCancelRequest order
      (r.1 ++ [message], builder)
    else r

/-- `to_fix_messages`. -/
def toFixMessages (orders : List (Order P)) (executions : List (Execution P)) : List Str :=
  ((StableSort.sortBy FixItem.timestampNs (fixItems orders executions)).foldl appendMessage ([], {})).1

end Builder

end TradeSurveillance.Simulator
