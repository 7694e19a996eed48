import TradeSurveillance.Double

/-!
# `fix/types`: orders and executions

Prices are of a type `P`, which stands for `double`. Quantities and timestamps are `int64_t` in the source and integers here; what
the program adds to or subtracts from quantities is wrapped to 64 bits. Differences of timestamps are exact.
-/

namespace TradeSurveillance

inductive Side where
  | buy | sell
  deriving DecidableEq, Repr

inductive OrderType where
  | limit | market
  deriving DecidableEq, Repr

inductive OrderStatus where
  | new | cancelled | replaced
  deriving DecidableEq, Repr

def Side.toString : Side → Str
  | .buy => ascii "Buy"
  | .sell => ascii "Sell"

def OrderType.toString : OrderType → Str
  | .limit => ascii "Limit"
  | .market => ascii "Market"

def OrderStatus.toString : OrderStatus → Str
  | .new => ascii "New"
  | .cancelled => ascii "Cancelled"
  | .replaced => ascii "Replaced"

/-- The text the three `*_from_string` throw. -/
def unrecognizedValue (function value : Str) : Exception :=
  .invalidArgument (function ++ ascii ": unrecognized value '" ++ value ++ ascii "'")

def sideFromString (value : Str) : Except Exception Side :=
  if value = ascii "Buy" then .ok .buy
  else if value = ascii "Sell" then .ok .sell
  else .error (unrecognizedValue (ascii "side_from_string") value)

def orderTypeFromString (value : Str) : Except Exception OrderType :=
  if value = ascii "Limit" then .ok .limit
  else if value = ascii "Market" then .ok .market
  else .error (unrecognizedValue (ascii "order_type_from_string") value)

def orderStatusFromString (value : Str) : Except Exception OrderStatus :=
  if value = ascii "New" then .ok .new
  else if value = ascii "Cancelled" then .ok .cancelled
  else if value = ascii "Replaced" then .ok .replaced
  else .error (unrecognizedValue (ascii "order_status_from_string") value)

/-- An order message. `origOrderId` names the resting order a Cancel or a Replace is about. -/
structure Order (P : Type) where
  orderId : Str
  accountId : Str
  instrumentId : Str
  side : Side
  price : P
  qty : ℤ
  orderType : OrderType
  timestampNs : ℤ
  status : OrderStatus
  venue : Str
  origOrderId : Str
  deriving DecidableEq, Repr

/-- An execution report. -/
structure Execution (P : Type) where
  tradeId : Str
  orderId : Str
  accountId : Str
  instrumentId : Str
  side : Side
  price : P
  qty : ℤ
  timestampNs : ℤ
  counterpartyAccountId : Str
  venue : Str
  deriving DecidableEq, Repr

/-- `std::variant<Order, Execution>`: what the source calls an `IngestionEvent` in the ring buffer and the log, and a
`DetectorEvent` behind them. -/
inductive Event (P : Type) where
  | order (order : Order P)
  | execution (execution : Execution P)
  deriving DecidableEq, Repr

namespace Event

variable {P : Type}

/-- `instrument_id_of`. -/
def instrumentId : Event P → Str
  | .order o => o.instrumentId
  | .execution x => x.instrumentId

def price : Event P → P
  | .order o => o.price
  | .execution x => x.price

def qty : Event P → ℤ
  | .order o => o.qty
  | .execution x => x.qty

def timestampNs : Event P → ℤ
  | .order o => o.timestampNs
  | .execution x => x.timestampNs

end Event

end TradeSurveillance
