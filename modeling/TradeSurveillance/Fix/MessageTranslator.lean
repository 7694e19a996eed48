import TradeSurveillance.Fix.Types

/-!
# `message_translator`: orders and executions as FIX messages

A message is modelled by the fields that the translation back reads; a field returns the value it was set to.
-/

namespace TradeSurveillance

/-! ## Fields -/

/-- `side_to_fix`: the values of `FIX::Side`. -/
def sideToFix : Side → Char
  | .buy => '1'
  | .sell => '2'

/-- `side_from_fix`. -/
def sideFromFix (value : Char) : Except Exception Side :=
  if value = '1' then .ok .buy
  else if value = '2' then .ok .sell
  else .error (.invalidArgument (ascii "side_from_fix: unrecognized FIX Side value"))

/-- `order_type_to_fix`: the values of `FIX::OrdType`. -/
def orderTypeToFix : OrderType → Char
  | .market => '1'
  | .limit => '2'

/-- `order_type_from_fix`. -/
def orderTypeFromFix (value : Char) : Except Exception OrderType :=
  if value = '1' then .ok .market
  else if value = '2' then .ok .limit
  else .error (.invalidArgument (ascii "order_type_from_fix: unrecognized FIX OrdType value"))

/-- `FIX::UtcTimeStamp`: the seconds since the epoch, and the nanoseconds of the last one. -/
structure UtcTimeStamp where
  timeT : ℤ
  fraction : ℤ
  deriving DecidableEq, Repr

/-- `to_transact_time`. -/
def toTransactTime (timestampNs : ℤ) : UtcTimeStamp :=
  let wholeSeconds := timestampNs.tdiv 1000000000
  let nanos := timestampNs.tmod 1000000000
  if nanos < 0 then ⟨wholeSeconds - 1, nanos + 1000000000⟩ else ⟨wholeSeconds, nanos⟩

/-- `from_transact_time`. -/
def fromTransactTime (field : UtcTimeStamp) : ℤ := field.timeT * 1000000000 + field.fraction

theorem fromTransactTime_toTransactTime (timestampNs : ℤ) : fromTransactTime (toTransactTime timestampNs) = timestampNs := by
  have hdiv := Int.tmod_add_tdiv_mul timestampNs 1000000000
  unfold fromTransactTime toTransactTime
  simp only
  split_ifs
  · simp only
    omega
  · simp only
    omega

@[simp] theorem sideFromFix_sideToFix (side : Side) : sideFromFix (sideToFix side) = .ok side := by
  cases side <;> rfl

@[simp] theorem orderTypeFromFix_orderTypeToFix (type : OrderType) : orderTypeFromFix (orderTypeToFix type) = .ok type := by
  cases type <;> rfl

/-! ## Messages -/

variable {P : Type}

/-- `FIX42::NewOrderSingle`. -/
structure NewOrderSingle (P : Type) where
  clOrdId : Str
  symbol : Str
  side : Char
  transactTime : UtcTimeStamp
  ordType : Char
  account : Str
  orderQty : P
  price : P
  exDestination : Str

/-- `FIX42::OrderCancelRequest`. -/
structure OrderCancelRequest (P : Type) where
  origClOrdId : Str
  clOrdId : Str
  symbol : Str
  side : Char
  transactTime : UtcTimeStamp
  account : Str
  orderQty : P

/-- `FIX42::ExecutionReport`; `contraBroker` is that of the one instance of the `NoContraBrokers` group. -/
structure ExecutionReport (P : Type) where
  orderId : Str
  execId : Str
  symbol : Str
  side : Char
  account : Str
  lastShares : P
  lastPx : P
  lastMkt : Str
  transactTime : UtcTimeStamp
  contraBroker : Str

section Translation

variable [Double P]

/-- `to_new_order_single`. -/
def toNewOrderSingle (order : Order P) : NewOrderSingle P where
  clOrdId := order.orderId
  symbol := order.instrumentId
  side := sideToFix order.side
  transactTime := toTransactTime order.timestampNs
  ordType := orderTypeToFix order.orderType
  account := order.accountId
  orderQty := (order.qty : P)
  price := order.price
  exDestination := order.venue

/-- `to_order_cancel_request`. -/
def toOrderCancelRequest (order : Order P) : OrderCancelRequest P where
  origClOrdId := order.origOrderId
  clOrdId := order.orderId
  symbol := order.instrumentId
  side := sideToFix order.side
  transactTime := toTransactTime order.timestampNs
  account := order.accountId
  orderQty := (order.qty : P)

/-- `to_execution_report`. -/
def toExecutionReport (execution : Execution P) : ExecutionReport P where
  orderId := execution.orderId
  execId := execution.tradeId
  symbol := execution.instrumentId
  side := sideToFix execution.side
  account := execution.accountId
  lastShares := (execution.qty : P)
  lastPx := execution.price
  lastMkt := execution.venue
  transactTime := toTransactTime execution.timestampNs
  contraBroker := execution.counterpartyAccountId

variable [DoubleRounding P]

omit [Double P] in
/-- `from_new_order_single`. The order has no `orig_order_id`. -/
def fromNewOrderSingle (message : NewOrderSingle P) : Except Exception (Order P) := do
  let side ← sideFromFix message.side
  let orderType ← orderTypeFromFix message.ordType
  .ok {
    orderId := message.clOrdId
    accountId := message.account
    instrumentId := message.symbol
    side
    price := message.price
    qty := DoubleRounding.llround message.orderQty
    orderType
    timestampNs := fromTransactTime message.transactTime
    status := .new
    venue := message.exDestination
    origOrderId := [] }

/-- `from_order_cancel_request`. The message has no price, type or destination. -/
def fromOrderCancelRequest (message : OrderCancelRequest P) : Except Exception (Order P) := do
  let side ← sideFromFix message.side
  .ok {
    orderId := message.clOrdId
    accountId := message.account
    instrumentId := message.symbol
    side
    price := 0.0
    qty := DoubleRounding.llround message.orderQty
    orderType := .limit
    timestampNs := fromTransactTime message.transactTime
    status := .cancelled
    venue := []
    origOrderId := message.origClOrdId }

omit [Double P] in
/-- `from_execution_report`. -/
def fromExecutionReport (message : ExecutionReport P) : Except Exception (Execution P) := do
  let side ← sideFromFix message.side
  .ok {
    tradeId := message.execId
    orderId := message.orderId
    accountId := message.account
    instrumentId := message.symbol
    side
    price := message.lastPx
    qty := DoubleRounding.llround message.lastShares
    timestampNs := fromTransactTime message.transactTime
    counterpartyAccountId := message.contraBroker
    venue := message.lastMkt }

end Translation

/-! ## There and back -/

section RoundTrip

variable [Double P] [DoubleRounding P]

/-- A New loses its `orig_order_id`. -/
theorem fromNewOrderSingle_to {o : Order P} (hstatus : o.status = .new) (hqty : DoubleRounding.llround (o.qty : P) = o.qty) :
    fromNewOrderSingle (toNewOrderSingle o) = .ok { o with origOrderId := [] } := by
  obtain ⟨id, account, instrument, side, price, qty, type, ts, status, venue, orig⟩ := o
  subst hstatus
  simp only [fromNewOrderSingle, toNewOrderSingle, sideFromFix_sideToFix, orderTypeFromFix_orderTypeToFix, bind, Except.bind,
    fromTransactTime_toTransactTime, hqty]

/-- A Cancel loses its price, its type and its venue. -/
theorem fromOrderCancelRequest_to {o : Order P} (hstatus : o.status = .cancelled)
    (hqty : DoubleRounding.llround (o.qty : P) = o.qty) : fromOrderCancelRequest (toOrderCancelRequest o) = .ok { o with
      price := 0.0
      orderType := .limit
      venue := [] } := by
  obtain ⟨id, account, instrument, side, price, qty, type, ts, status, venue, orig⟩ := o
  subst hstatus
  simp only [fromOrderCancelRequest, toOrderCancelRequest, sideFromFix_sideToFix, bind, Except.bind,
    fromTransactTime_toTransactTime, hqty]

/-- An execution loses nothing. -/
theorem fromExecutionReport_to {x : Execution P} (hqty : DoubleRounding.llround (x.qty : P) = x.qty) :
    fromExecutionReport (toExecutionReport x) = .ok x := by
  simp only [fromExecutionReport, toExecutionReport, sideFromFix_sideToFix, bind, Except.bind, fromTransactTime_toTransactTime, hqty]

end RoundTrip

end TradeSurveillance
