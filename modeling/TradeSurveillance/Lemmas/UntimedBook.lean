import TradeSurveillance.Detectors.Interface
import TradeSurveillance.Lemmas.BookLayout
import TradeSurveillance.Lib.RelatedMaps

/-!
# A book never reads a timestamp

Two books are alike when they differ in timestamps only. Events that differ in their timestamps only leave alike books alike, and throw
the same or nothing (`Alike.apply`); what the detectors ask an alike book has the same answer.
-/

namespace TradeSurveillance

variable {P : Type}

/-- The event, at another time. -/
def Event.atTime (e : Event P) (timestampNs : ℤ) : Event P :=
  match e with
  | .order o => .order { o with timestampNs := timestampNs }
  | .execution x => .execution { x with timestampNs := timestampNs }

/-- Another time is none of another instrument. -/
@[simp] theorem Event.atTime_instrumentId (e : Event P) (timestampNs : ℤ) : (e.atTime timestampNs).instrumentId = e.instrumentId := by
  cases e <;> rfl

def RestingOrder.untimed (r : RestingOrder) : RestingOrder := { r with timestampNs := 0 }

def Node.untimed (n : Node) : Node := { n with resting := n.resting.untimed }

/-- The quantity of a node does not depend on its timestamp. -/
theorem Node.qty_eq_of_untimed {n n' : Node} (h : n.untimed = n'.untimed) : n.resting.qty = n'.resting.qty := by
  have hqty : n.untimed.resting.qty = n'.untimed.resting.qty := by rw [h]
  exact hqty

/-- Queues of the same orders, but for their timestamps. -/
def AlikeQueues (q q' : OrderQueue) : Prop := q.map Node.untimed = q'.map Node.untimed

/-! ## Queues -/

namespace AlikeQueues

variable {q q' : OrderQueue}

/-- Alike nodes behind alike queues make alike queues. -/
theorem append (h : AlikeQueues q q') {n n' : Node} (hn : n.untimed = n'.untimed) : AlikeQueues (q ++ [n]) (q' ++ [n']) := by
  rw [AlikeQueues, List.map_append, List.map_append, h, List.map_singleton, List.map_singleton, hn]

/-- The node at an address can be taken from both. -/
theorem filter (h : AlikeQueues q q') (ref : ℕ) : AlikeQueues (q.filter fun n => n.ref ≠ ref) (q'.filter fun n => n.ref ≠ ref) := by
  have hfilter : ∀ q : OrderQueue, (q.filter fun n => n.ref ≠ ref).map Node.untimed =
      (q.map Node.untimed).filter fun n => n.ref ≠ ref := fun q => by rw [List.filter_map]; rfl
  rw [AlikeQueues, hfilter, hfilter, h]

/-- The node at an address can be assigned to in both. -/
theorem assign (h : AlikeQueues q q') (ref : ℕ) {r r' : RestingOrder} (hr : r.untimed = r'.untimed) :
    AlikeQueues (q.map (Node.assign ref r)) (q'.map (Node.assign ref r')) := by
  have hassign : ∀ (q : OrderQueue) (r : RestingOrder), (q.map (Node.assign ref r)).map Node.untimed =
      (q.map Node.untimed).map (Node.assign ref r.untimed) := by
    intro q r
    rw [List.map_map, List.map_map]
    refine List.map_congr_left fun n _ => ?_
    by_cases href : n.ref = ref <;> simp [Node.assign, Node.untimed, href]
  rw [AlikeQueues, hassign, hassign, h, hr]

/-- Alike queues are empty together. -/
theorem eq_nil_iff (h : AlikeQueues q q') : q = [] ↔ q' = [] := by
  rw [← List.map_eq_nil_iff (f := Node.untimed), h, List.map_eq_nil_iff]

/-- The node at an address is alike in both. -/
theorem find? (h : AlikeQueues q q') (ref : ℕ) :
    (q.find? fun n => n.ref = ref).map Node.untimed = (q'.find? fun n => n.ref = ref).map Node.untimed := by
  have hfind : ∀ q : OrderQueue, (q.find? fun n => n.ref = ref).map Node.untimed = (q.map Node.untimed).find? fun n => n.ref = ref :=
    fun q => by rw [List.find?_map]; rfl
  rw [hfind, hfind, h]

/-- The quantities are the same. -/
theorem qty (h : AlikeQueues q q') : q.map (·.resting.qty) = q'.map (·.resting.qty) := by
  have hqty : ∀ q : OrderQueue, q.map (·.resting.qty) = (q.map Node.untimed).map (·.resting.qty) := fun q => by
    rw [List.map_map]
    rfl
  rw [hqty q, hqty q', h]

end AlikeQueues

/-! ## Books -/

/-- Two books that differ in timestamps only. -/
structure OrderBook.Alike [DecidableEq P] (b b' : OrderBook P) : Prop where
  instrumentId : b.instrumentId = b'.instrumentId
  bids : RelatedMaps AlikeQueues b.bids b'.bids
  asks : RelatedMaps AlikeQueues b.asks b'.asks
  orderIndex : b.orderIndex = b'.orderIndex
  sequence : b.sequence = b'.sequence
  nextRef : b.nextRef = b'.nextRef

namespace OrderBook

variable [LinearOrder P] {b b' : OrderBook P}

namespace Alike

/-- A new book is like itself. -/
theorem make (instrumentId : Str) : Alike (.make instrumentId : OrderBook P) (.make instrumentId) :=
  ⟨rfl, .empty, .empty, rfl, rfl, rfl⟩

/-- Alike books have alike levels. -/
theorem levelsFor (h : Alike b b') (side : Side) : RelatedMaps AlikeQueues (b.levelsFor side) (b'.levelsFor side) := by
  cases side
  · exact h.bids
  · exact h.asks

/-- Alike levels can be set in both. -/
theorem setLevels (h : Alike b b') (side : Side) {levels levels' : PriceLevels P} (hlevels : RelatedMaps AlikeQueues levels levels') :
    Alike (b.setLevels side levels) (b'.setLevels side levels') := by
  cases side
  · exact ⟨h.instrumentId, hlevels, h.asks, h.orderIndex, h.sequence, h.nextRef⟩
  · exact ⟨h.instrumentId, h.bids, hlevels, h.orderIndex, h.sequence, h.nextRef⟩

/-- The sequence number goes on alike, whatever the times. -/
theorem tick (h : Alike b b') (timestampNs timestampNs' : ℤ) : Alike (b.tick timestampNs) (b'.tick timestampNs') :=
  ⟨h.instrumentId, h.bids, h.asks, h.orderIndex, congrArg (· + 1) h.sequence, h.nextRef⟩

/-- An iterator points to the same order in both books, or nowhere. -/
theorem deref_cases (h : Alike b b') (e : OrderIndexEntry P) : (b.deref e = none ∧ b'.deref e = none) ∨
    ∃ q q' n n', b.deref e = some (q, n) ∧ b'.deref e = some (q', n') ∧ AlikeQueues q q' ∧ n.untimed = n'.untimed := by
  rcases (h.levelsFor e.side).lookup_cases e.price with ⟨hl, hl'⟩ | ⟨q, q', hl, hl', hq⟩
  · exact .inl ⟨by rw [deref, hl, Option.bind_none], by rw [deref, hl', Option.bind_none]⟩
  · have hfind := hq.find? e.it
    rw [deref, deref, hl, hl', Option.bind_some, Option.bind_some]
    cases hn : q.find? fun n => n.ref = e.it with
    | none =>
      rw [hn, Option.map_none, eq_comm, Option.map_eq_none_iff] at hfind
      rw [hfind]
      exact .inl ⟨rfl, rfl⟩
    | some n =>
      rw [hn, Option.map_some, eq_comm, Option.map_eq_some_iff] at hfind
      obtain ⟨n', hn', hnn'⟩ := hfind
      rw [hn']
      exact .inr ⟨q, q', n, n', rfl, rfl, hq, hnn'.symm⟩

/-- A resting order can be assigned to in both. -/
theorem setResting (h : Alike b b') (e : OrderIndexEntry P) {q q' : OrderQueue} (hq : AlikeQueues q q') {r r' : RestingOrder}
    (hr : r.untimed = r'.untimed) : Alike (b.setResting e q r) (b'.setResting e q' r') :=
  h.setLevels e.side ((h.levelsFor e.side).insert (hq.assign e.it hr) e.price)

/-! ## Calls -/

/-- Two calls that leave alike books and throw the same, or nothing. -/
def Agree (r r' : OrderBook P × Option Thrown) : Prop := Alike r.1 r'.1 ∧ r.2 = r'.2

/-- `insert_new` leaves alike books and throws the same. -/
theorem insertNew (h : Alike b b') (o : Order P) (timestampNs : ℤ) :
    Agree (b.insertNew o) (b'.insertNew { o with timestampNs := timestampNs }) := by
  unfold OrderBook.insertNew
  simp only [h.orderIndex, h.nextRef]
  split
  · exact ⟨h, rfl⟩
  · have hq : AlikeQueues (((b.levelsFor o.side).lookup o.price).getD []) (((b'.levelsFor o.side).lookup o.price).getD []) :=
      (h.levelsFor o.side).getD rfl o.price
    have hnode : Node.untimed ⟨b'.nextRef, ⟨o.orderId, o.accountId, o.side, o.qty, o.timestampNs⟩⟩ =
      Node.untimed ⟨b'.nextRef, ⟨o.orderId, o.accountId, o.side, o.qty, timestampNs⟩⟩ := rfl
    have hset := h.setLevels o.side ((h.levelsFor o.side).insert (hq.append hnode) o.price)
    refine ⟨⟨hset.instrumentId, hset.bids, hset.asks, ?_, hset.sequence, ?_⟩, rfl⟩
    · simp only [setLevels_orderIndex, h.orderIndex]
    · simp only [setLevels_nextRef, h.nextRef]

/-- So does taking an order out. -/
theorem removeResting (h : Alike b b') (id : Str) (e : OrderIndexEntry P) : Agree (b.removeResting id e) (b'.removeResting id e) := by
  unfold OrderBook.removeResting
  rcases h.deref_cases e with ⟨hd, hd'⟩ | ⟨q, q', n, n', hd, hd', hq, -⟩
  · rw [hd, hd']
    exact ⟨h, rfl⟩
  · rw [hd, hd']
    have hrest := hq.filter e.it
    have hlevels : RelatedMaps AlikeQueues
        (if (q.filter fun n => n.ref ≠ e.it) = [] then (b.levelsFor e.side).erase e.price
          else (b.levelsFor e.side).insert e.price (q.filter fun n => n.ref ≠ e.it))
        (if (q'.filter fun n => n.ref ≠ e.it) = [] then (b'.levelsFor e.side).erase e.price
          else (b'.levelsFor e.side).insert e.price (q'.filter fun n => n.ref ≠ e.it)) := by
      simp only [hrest.eq_nil_iff]
      split
      · exact (h.levelsFor e.side).erase e.price
      · exact (h.levelsFor e.side).insert hrest e.price
    have hset := h.setLevels e.side hlevels
    refine ⟨⟨hset.instrumentId, hset.bids, hset.asks, ?_, hset.sequence, hset.nextRef⟩, rfl⟩
    simp only [setLevels_orderIndex, h.orderIndex]

/-- So does `cancel`. -/
theorem cancel (h : Alike b b') (target : Str) : Agree (b.cancel target) (b'.cancel target) := by
  unfold OrderBook.cancel
  rw [h.orderIndex]
  split
  · exact ⟨h, rfl⟩
  · exact h.removeResting target _

/-- So does `replace`. -/
theorem replace (h : Alike b b') (o : Order P) (timestampNs : ℤ) :
    Agree (b.replace o) (b'.replace { o with timestampNs := timestampNs }) := by
  unfold OrderBook.replace
  simp only [h.orderIndex]
  cases b'.orderIndex.lookup o.origOrderId with
  | none => exact ⟨h, rfl⟩
  | some e =>
    rcases h.deref_cases e with ⟨hd, hd'⟩ | ⟨q, q', n, n', hd, hd', hq, hn⟩
    · simp only [hd, hd']
      exact ⟨h, rfl⟩
    · have hresting : n.resting.untimed = n'.resting.untimed := congrArg Node.resting hn
      have hqty := Node.qty_eq_of_untimed hn
      simp only [hd, hd', hqty]
      split
      · obtain ⟨hbook, hthrown⟩ := h.removeResting o.origOrderId e
        generalize b.removeResting o.origOrderId e = r at hbook hthrown ⊢
        generalize b'.removeResting o.origOrderId e = r' at hbook hthrown ⊢
        obtain ⟨c, thrown⟩ := r
        obtain ⟨c', thrown'⟩ := r'
        obtain rfl : thrown = thrown' := hthrown
        cases thrown with
        | some thrown => exact ⟨hbook, rfl⟩
        | none => exact Alike.insertNew hbook { o with status := .new } timestampNs
      · have hamended : { n.resting with qty := o.qty, orderId := o.orderId }.untimed =
            { n'.resting with qty := o.qty, orderId := o.orderId }.untimed :=
          congrArg (fun r : RestingOrder => { r with qty := o.qty, orderId := o.orderId }) hresting
        have hset := h.setResting e hq hamended
        refine ⟨⟨hset.instrumentId, hset.bids, hset.asks, ?_, hset.sequence, hset.nextRef⟩, rfl⟩
        simp only [setResting_orderIndex, h.orderIndex]

/-- So does `apply` of an order message. -/
theorem applyOrder (h : Alike b b') (o : Order P) (timestampNs : ℤ) :
    Agree (b.applyOrder o) (b'.applyOrder { o with timestampNs := timestampNs }) := by
  unfold OrderBook.applyOrder
  have htick := h.tick o.timestampNs timestampNs
  simp only [h.instrumentId, instrumentMismatch]
  split
  · exact ⟨h, rfl⟩
  · cases o.status with
    | new => exact htick.insertNew o timestampNs
    | cancelled => exact htick.cancel o.origOrderId
    | replaced => exact htick.replace o timestampNs

/-- So does `apply` of an execution. -/
theorem applyExecution (h : Alike b b') (x : Execution P) (timestampNs : ℤ) :
    Agree (b.applyExecution x) (b'.applyExecution { x with timestampNs := timestampNs }) := by
  unfold OrderBook.applyExecution
  have htick := h.tick x.timestampNs timestampNs
  simp only [h.instrumentId, instrumentMismatch, htick.orderIndex]
  split
  · exact ⟨h, rfl⟩
  · cases (b'.tick timestampNs).orderIndex.lookup x.orderId with
    | none => exact ⟨htick, rfl⟩
    | some e =>
      rcases htick.deref_cases e with ⟨hd, hd'⟩ | ⟨q, q', n, n', hd, hd', hq, hn⟩
      · simp only [hd, hd']
        exact ⟨htick, rfl⟩
      · have hresting : n.resting.untimed = n'.resting.untimed := congrArg Node.resting hn
        have hqty := Node.qty_eq_of_untimed hn
        simp only [hd, hd', hqty]
        split
        · exact ⟨htick, rfl⟩
        · have hfilled : { n.resting with qty := wrap64 (n'.resting.qty - x.qty) }.untimed =
              { n'.resting with qty := wrap64 (n'.resting.qty - x.qty) }.untimed :=
            congrArg (fun r : RestingOrder => { r with qty := wrap64 (n'.resting.qty - x.qty) }) hresting
          have hset := htick.setResting e hq hfilled
          split
          · exact hset.removeResting x.orderId e
          · exact ⟨hset, rfl⟩

/-- The timestamp of an event changes nothing but timestamps. -/
theorem apply (h : Alike b b') (e : Event P) (timestampNs : ℤ) : Agree (b.apply e) (b'.apply (e.atTime timestampNs)) := by
  cases e with
  | order o => exact h.applyOrder o timestampNs
  | execution x => exact h.applyExecution x timestampNs

/-! ## Queries -/

/-- Alike books have the same best price. -/
theorem bestPrice (h : Alike b b') (side : Side) : b.bestPrice side = b'.bestPrice side := by
  cases side with
  | buy => rw [OrderBook.bestPrice, OrderBook.bestPrice, h.bids.keys_eq]
  | sell => rw [OrderBook.bestPrice, OrderBook.bestPrice, h.asks.keys_eq]

/-- Alike books show the same quantity at a price. -/
theorem qtyAtPrice (h : Alike b b') (side : Side) (price : P) : b.qtyAtPrice side price = b'.qtyAtPrice side price := by
  unfold OrderBook.qtyAtPrice
  rcases (h.levelsFor side).lookup_cases price with ⟨hl, hl'⟩ | ⟨q, q', hl, hl', hq⟩
  · rw [hl, hl']
  · simp only [hl, hl', hq.qty]

omit [LinearOrder P] in
/-- Alike books have the same sequence number. -/
theorem snapshotSequence [DecidableEq P] (h : Alike b b') : b.snapshotSequence = b'.snapshotSequence :=
  congrArg BitVec.toInt h.sequence

end Alike

end OrderBook

end TradeSurveillance
