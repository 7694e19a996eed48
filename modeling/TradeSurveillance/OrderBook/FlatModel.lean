import TradeSurveillance.OrderBook.Book

/-!
# The flat model of a book

What a price-time book is for, without its maps and its index: one list of resting orders, oldest first. An event is rejected or
gives the next list; rejected events are skipped. `BookView` is what can be seen of a book; the view of the flat model groups its
orders by price.
-/

namespace TradeSurveillance

variable {P : Type} [LinearOrder P]

/-- A resting order of the flat model. -/
structure FlatOrder (P : Type) where
  orderId : Str
  accountId : Str
  side : Side
  price : P
  qty : ℤ
  deriving DecidableEq, Repr

/-- The resting orders, oldest first. -/
abbrev FlatBook (P : Type) := List (FlatOrder P)

/-- What can be seen of a book. -/
@[ext] structure BookView (P : Type) where
  bids : List (PriceLevel P)
  asks : List (PriceLevel P)
  qtyAtPrice : Side → P → ℤ
  orderCountAtPrice : Side → P → ℕ
  bestPrice : Side → Option P

/-- The view of a book: its snapshot and its queries. -/
def OrderBook.view (b : OrderBook P) : BookView P where
  bids := b.snapshot.bids
  asks := b.snapshot.asks
  qtyAtPrice := b.qtyAtPrice
  orderCountAtPrice := b.orderCountAtPrice
  bestPrice := b.bestPrice

namespace FlatBook

/-- The order of a message. -/
def ofOrder (o : Order P) : FlatOrder P := ⟨o.orderId, o.accountId, o.side, o.price, o.qty⟩

/-- The resting order of an id. -/
def find (f : FlatBook P) (id : Str) : Option (FlatOrder P) := f.find? fun x => x.orderId = id

/-- Delete the order of an id. -/
def delete (f : FlatBook P) (id : Str) : FlatBook P := f.filter fun x => x.orderId ≠ id

/-- Rewrite the order of an id in place. -/
def rewrite (f : FlatBook P) (id : Str) (g : FlatOrder P → FlatOrder P) : FlatBook P :=
  f.map fun x => if x.orderId = id then g x else x

/-- The next list; `none` where the event is rejected. -/
def apply (f : FlatBook P) : Event P → Option (FlatBook P)
  | .order o => match o.status with
    | .new => if (f.find o.orderId).isSome then none else some (f ++ [ofOrder o])
    | .cancelled => some (f.delete o.origOrderId)
    | .replaced => match f.find o.origOrderId with
      | none => none
      | some x =>
        if o.price = x.price ∧ o.qty ≤ x.qty then
          some (f.rewrite o.origOrderId fun x => { x with orderId := o.orderId, qty := o.qty })
        else some (f.delete o.origOrderId ++ [ofOrder o])
  | .execution t => match f.find t.orderId with
    | none => none
    | some x =>
      if t.qty > x.qty then none
      else if wrap64 (x.qty - t.qty) = 0 then some (f.delete t.orderId)
      else some (f.rewrite t.orderId fun x => { x with qty := wrap64 (x.qty - t.qty) })

/-- The list after the events, from the empty one, skipping those that are rejected. -/
def run (events : List (Event P)) : FlatBook P := events.foldl (fun f e => (f.apply e).getD f) []

/-- A Replace that names a resting order carries its side and account, and its new id is not the id of another resting order. -/
def Amends (f : FlatBook P) : Event P → Prop
  | .order o => o.status = .replaced → ∀ x, f.find o.origOrderId = some x →
      o.side = x.side ∧ o.accountId = x.accountId ∧ ∀ y ∈ f, y.orderId = o.orderId → y.orderId = o.origOrderId
  | .execution _ => True

/-- The orders of a side and a price, oldest first. -/
def at_ (f : FlatBook P) (side : Side) (price : P) : List (FlatOrder P) := f.filter fun x => x.side = side ∧ x.price = price

/-- The prices of the orders of a side. -/
def prices (f : FlatBook P) (side : Side) : Finset P := ((f.filter fun x => x.side = side).map (·.price)).toFinset

/-- The sum of their quantities, in 64 bits as every quantity is. -/
def totalQty (f : FlatBook P) (side : Side) (price : P) : ℤ := wrap64 ((f.at_ side price).map (·.qty)).sum

/-- The level of a side and a price. -/
def level (f : FlatBook P) (side : Side) (price : P) : PriceLevel P where
  price := price
  totalQty := f.totalQty side price
  orders := (f.at_ side price).map fun x => ⟨x.orderId, x.accountId, x.qty⟩

-- `Finset.sort` asks for these of the ascending order of prices
instance : IsTrans P (· ≤ ·) := inferInstance
instance : Std.Antisymm (· ≤ · : P → P → Prop) := inferInstance

/-- Buy orders by descending price, sell orders by ascending price. -/
def view (f : FlatBook P) : BookView P where
  bids := ((f.prices .buy).sort (· ≥ ·)).map (f.level .buy)
  asks := ((f.prices .sell).sort (· ≤ ·)).map (f.level .sell)
  qtyAtPrice := f.totalQty
  orderCountAtPrice := fun side price => (f.at_ side price).length
  bestPrice := fun
    | .buy => (f.prices .buy).max
    | .sell => (f.prices .sell).min

@[simp] theorem run_concat (events : List (Event P)) (e : Event P) :
    run (events ++ [e]) = ((run events).apply e).getD (run events) := by
  simp only [run, List.foldl_append, List.foldl_cons, List.foldl_nil]

end FlatBook

end TradeSurveillance
