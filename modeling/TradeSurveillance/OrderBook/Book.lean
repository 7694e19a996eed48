import TradeSurveillance.Fix.Types
import Mathlib.Data.Finset.Sort

/-!
# `OrderBook`: price levels, queues and the order index

A passive replica of an exchange's book. Each side is a map from prices to queues of resting orders, `order_index_` a map from
order ids to side, price and an iterator into the queue. A queue is a list of nodes; an iterator is the address of its node, which
no two nodes of a book ever share.

Prices are linearly ordered, so none is NaN: `std::map` requires a strict weak order of its keys, and with a NaN among them its
behaviour is undefined. `-0.0` and `0.0` are one key. A function that throws returns the book as the throw leaves it.
-/

namespace TradeSurveillance

/-- A resting order. -/
structure RestingOrder where
  orderId : Str
  accountId : Str
  side : Side
  qty : ℤ
  timestampNs : ℤ
  deriving DecidableEq, Repr

/-- A node of a `std::list<RestingOrder>` and its address. -/
structure Node where
  ref : ℕ
  resting : RestingOrder
  deriving DecidableEq, Repr

/-- A node, assigned to where it is the one at an address. -/
def Node.assign (ref : ℕ) (resting : RestingOrder) (n : Node) : Node :=
  if n.ref = ref then { n with resting := resting } else n

abbrev OrderQueue := List Node

abbrev PriceLevels (P : Type) := Map P OrderQueue

/-- An entry of `order_index_`. -/
structure OrderIndexEntry (P : Type) where
  side : Side
  price : P
  it : ℕ
  deriving DecidableEq, Repr

/-- The fields of `OrderBook`, and the address the next node gets. -/
structure OrderBook (P : Type) where
  instrumentId : Str
  bids : PriceLevels P
  asks : PriceLevels P
  orderIndex : Map Str (OrderIndexEntry P)
  sequence : Word
  lastEventTimestampNs : ℤ
  nextRef : ℕ

/-- How a call ends when it does not return: by an exception, or nowhere, where an iterator is dereferenced or erased that is not
in its queue. -/
inductive Thrown where
  | invalidArgument (what : Str)
  | danglingIterator
  deriving DecidableEq, Repr

namespace OrderBook

variable {P : Type} [LinearOrder P]

/-- The constructor. -/
def make (instrumentId : Str) : OrderBook P where
  instrumentId := instrumentId
  bids := ∅
  asks := ∅
  orderIndex := ∅
  sequence := 0
  lastEventTimestampNs := 0
  nextRef := 0

/-- `levels_for`. -/
def levelsFor (b : OrderBook P) : Side → PriceLevels P
  | .buy => b.bids
  | .sell => b.asks

/-- Assign to what `levels_for` refers to. -/
def setLevels (b : OrderBook P) : Side → PriceLevels P → OrderBook P
  | .buy, levels => { b with bids := levels }
  | .sell, levels => { b with asks := levels }

/-- The queue and the node an iterator of the index points to. -/
def deref (b : OrderBook P) (e : OrderIndexEntry P) : Option (OrderQueue × Node) :=
  ((b.levelsFor e.side).lookup e.price).bind fun q => (q.find? fun n => n.ref = e.it).map fun n => (q, n)

/-- Assign to the order an iterator points to. -/
def setResting (b : OrderBook P) (e : OrderIndexEntry P) (q : OrderQueue) (resting : RestingOrder) : OrderBook P :=
  b.setLevels e.side ((b.levelsFor e.side).insert e.price (q.map (Node.assign e.it resting)))

/-- `insert_new`. -/
def insertNew (b : OrderBook P) (order : Order P) : OrderBook P × Option Thrown :=
  if order.orderId ∈ b.orderIndex then
    (b, some (.invalidArgument (ascii "OrderBook::apply: duplicate order_id on New: " ++ order.orderId)))
  else
    let levels := b.levelsFor order.side
    let queue := (levels.lookup order.price).getD []
    let node := ⟨b.nextRef, ⟨order.orderId, order.accountId, order.side, order.qty, order.timestampNs⟩⟩
    let b := b.setLevels order.side (levels.insert order.price (queue ++ [node]))
    ({ b with
        orderIndex := b.orderIndex.insert order.orderId ⟨order.side, order.price, node.ref⟩
        nextRef := b.nextRef + 1 }, none)

/-- `remove_resting` of the index entry `e` with key `id`. -/
def removeResting (b : OrderBook P) (id : Str) (e : OrderIndexEntry P) : OrderBook P × Option Thrown :=
  match b.deref e with
  | none => (b, some .danglingIterator)
  | some (queue, _) =>
    let rest := queue.filter fun n => n.ref ≠ e.it
    let levels := b.levelsFor e.side
    let b := b.setLevels e.side (if rest = [] then levels.erase e.price else levels.insert e.price rest)
    ({ b with orderIndex := b.orderIndex.erase id }, none)

/-- `cancel`. -/
def cancel (b : OrderBook P) (target : Str) : OrderBook P × Option Thrown :=
  match b.orderIndex.lookup target with
  | none => (b, none)
  | some e => b.removeResting target e

/-- `replace`. -/
def replace (b : OrderBook P) (order : Order P) : OrderBook P × Option Thrown :=
  match b.orderIndex.lookup order.origOrderId with
  | none => (b, some (.invalidArgument
      (ascii "OrderBook::apply: Replace references an order that isn't resting: " ++ order.origOrderId)))
  | some e =>
    match b.deref e with
    | none => (b, some .danglingIterator)
    | some (queue, node) =>
      if order.price ≠ e.price ∨ order.qty > node.resting.qty then
        -- loses priority: the order leaves its queue and re-enters at the back of its new one
        match b.removeResting order.origOrderId e with
        | (b, some thrown) => (b, some thrown)
        | (b, none) => b.insertNew { order with status := .new }
      else
        -- retains priority: amended in place, and no check for a duplicate id
        let b := b.setResting e queue { node.resting with qty := order.qty, orderId := order.orderId }
        ({ b with orderIndex := (b.orderIndex.erase order.origOrderId).insert order.orderId e }, none)

/-- The text of the instrument checks of both `apply`. -/
def instrumentMismatch (b : OrderBook P) (event : String) (instrumentId : Str) : Thrown :=
  .invalidArgument (ascii "OrderBook::apply(" ++ ascii event ++ ascii "): instrument_id mismatch for book '" ++
    b.instrumentId ++ ascii "': got '" ++ instrumentId ++ ascii "'")

/-- `++sequence_; last_event_timestamp_ns_ = timestamp_ns`, with which both `apply` begin. -/
def tick (b : OrderBook P) (timestampNs : ℤ) : OrderBook P :=
  { b with sequence := b.sequence + 1, lastEventTimestampNs := timestampNs }

/-- `apply(Order)`. -/
def applyOrder (b : OrderBook P) (order : Order P) : OrderBook P × Option Thrown :=
  if order.instrumentId ≠ b.instrumentId then (b, some (b.instrumentMismatch "Order" order.instrumentId))
  else
    let b := b.tick order.timestampNs
    match order.status with
    | .new => b.insertNew order
    | .cancelled => b.cancel order.origOrderId
    | .replaced => b.replace order

/-- `apply(Execution)`. -/
def applyExecution (b : OrderBook P) (execution : Execution P) : OrderBook P × Option Thrown :=
  if execution.instrumentId ≠ b.instrumentId then
    (b, some (b.instrumentMismatch "Execution" execution.instrumentId))
  else
    let b := b.tick execution.timestampNs
    match b.orderIndex.lookup execution.orderId with
    | none => (b, some (.invalidArgument
        (ascii "OrderBook::apply: Execution references an order that isn't resting: " ++ execution.orderId)))
    | some e =>
      match b.deref e with
      | none => (b, some .danglingIterator)
      | some (queue, node) =>
        if execution.qty > node.resting.qty then
          (b, some (.invalidArgument (ascii "OrderBook::apply: Execution qty (" ++ Decimal.ofInt execution.qty ++
            ascii ") exceeds resting qty (" ++ Decimal.ofInt node.resting.qty ++ ascii ") for order_id: " ++
            execution.orderId)))
        else
          let qty := wrap64 (node.resting.qty - execution.qty)
          let b := b.setResting e queue { node.resting with qty := qty }
          if qty = 0 then b.removeResting execution.orderId e else (b, none)

/-- `apply` of either alternative of an event. -/
def apply (b : OrderBook P) : Event P → OrderBook P × Option Thrown
  | .order order => b.applyOrder order
  | .execution execution => b.applyExecution execution

/-- Apply events in order, going on with the book as it is after a call that throws. -/
def applyAll (b : OrderBook P) (events : List (Event P)) : OrderBook P := events.foldl (fun b e => (b.apply e).1) b

end OrderBook

/-! ## Snapshots and queries -/

structure RestingOrderSummary where
  orderId : Str
  accountId : Str
  qty : ℤ
  deriving DecidableEq, Repr

structure PriceLevel (P : Type) where
  price : P
  totalQty : ℤ
  orders : List RestingOrderSummary
  deriving DecidableEq, Repr

structure DepthSnapshot (P : Type) where
  instrumentId : Str
  sequence : Word
  lastEventTimestampNs : ℤ
  bids : List (PriceLevel P)
  asks : List (PriceLevel P)
  deriving DecidableEq, Repr

namespace OrderBook

variable {P : Type} [LinearOrder P]

/-- `level_summary`. -/
def levelSummary (price : P) (queue : OrderQueue) : PriceLevel P where
  price := price
  totalQty := sum64 (queue.map (·.resting.qty))
  orders := queue.map fun n => ⟨n.resting.orderId, n.resting.accountId, n.resting.qty⟩

/-- The levels of a side in the order of the map. -/
def ascending (levels : PriceLevels P) : List (PriceLevel P) :=
  (levels.keys.sort (· ≤ ·)).map fun price => levelSummary price ((levels.lookup price).getD [])

/-- `snapshot`. -/
def snapshot (b : OrderBook P) : DepthSnapshot P where
  instrumentId := b.instrumentId
  sequence := b.sequence
  lastEventTimestampNs := b.lastEventTimestampNs
  bids := (ascending b.bids).reverse
  asks := ascending b.asks

/-- `qty_at_price`. -/
def qtyAtPrice (b : OrderBook P) (side : Side) (price : P) : ℤ :=
  match (b.levelsFor side).lookup price with
  | none => 0
  | some queue => sum64 (queue.map (·.resting.qty))

/-- `order_count_at_price`. -/
def orderCountAtPrice (b : OrderBook P) (side : Side) (price : P) : ℕ :=
  match (b.levelsFor side).lookup price with
  | none => 0
  | some queue => queue.length

/-- `best_price`: the last key of the bids, the first of the asks. -/
def bestPrice (b : OrderBook P) (side : Side) : Option P :=
  match side with
  | .buy => (b.bids.keys.sort (· ≤ ·)).getLast?
  | .sell => (b.asks.keys.sort (· ≤ ·)).head?

end OrderBook

end TradeSurveillance
