import TradeSurveillance.OrderBook.Book
import Mathlib.Data.List.Nodup

/-!
# The layout of a book

`Layout b L`: the book `b` holds the resting orders of the list `L`, which are in order of arrival; the queue of a side and a price
is the sublist of `L` with that side and price, no level is empty, and every index entry locates an order of its id. Every
operation of a book is an operation on the list: append, unlink, amend in place.
-/

namespace TradeSurveillance

variable {P : Type}

/-- A resting order and its price. -/
structure Placed (P : Type) where
  price : P
  node : Node

namespace Placed

/-- The index entry that locates the order. -/
def entry (x : Placed P) : OrderIndexEntry P := ⟨x.node.resting.side, x.price, x.node.ref⟩

/-- The order id. -/
def id (x : Placed P) : Str := x.node.resting.orderId

/-- The resting order that `insert_new` makes of a message. -/
def new (ref : ℕ) (order : Order P) : Placed P :=
  ⟨order.price, ⟨ref, ⟨order.orderId, order.accountId, order.side, order.qty, order.timestampNs⟩⟩⟩

end Placed

/-- The orders but the one at an address. -/
def unlink (L : List (Placed P)) (ref : ℕ) : List (Placed P) := L.filter fun x => x.node.ref ≠ ref

/-- The orders with the one at an address assigned to. -/
def amend (L : List (Placed P)) (ref : ℕ) (resting : RestingOrder) : List (Placed P) :=
  L.map fun x => ⟨x.price, x.node.assign ref resting⟩

section Members

variable {L : List (Placed P)} {ref : ℕ} {resting : RestingOrder}

/-- An assignment does not move a node. -/
@[simp] theorem Node.assign_ref (n : Node) : (n.assign ref resting).ref = n.ref := by
  simp only [Node.assign]
  split <;> rfl

/-- Nor does it in a list of orders. -/
@[simp] theorem map_ref_amend (L : List (Placed P)) (ref : ℕ) (resting : RestingOrder) :
    (amend L ref resting).map (·.node.ref) = L.map (·.node.ref) := by
  simp only [amend, List.map_map]
  exact List.map_congr_left fun x _ => Node.assign_ref _

/-- What stays when an order is unlinked. -/
theorem mem_unlink {y : Placed P} : y ∈ unlink L ref ↔ y ∈ L ∧ y.node.ref ≠ ref := by
  simp [unlink]

/-- What is there when an order is amended. -/
theorem mem_amend {y : Placed P} : y ∈ amend L ref resting ↔
    (y ∈ L ∧ y.node.ref ≠ ref) ∨ ∃ x ∈ L, x.node.ref = ref ∧ y = ⟨x.price, ⟨ref, resting⟩⟩ := by
  simp only [amend, List.mem_map, Node.assign]
  constructor
  · rintro ⟨x, hx, rfl⟩
    by_cases hr : x.node.ref = ref
    · rw [if_pos hr]
      exact Or.inr ⟨x, hx, hr, by rw [hr]⟩
    · rw [if_neg hr]
      exact Or.inl ⟨hx, hr⟩
  · rintro (⟨hy, hr⟩ | ⟨x, hx, hr, rfl⟩)
    · exact ⟨y, hy, by rw [if_neg hr]⟩
    · exact ⟨x, hx, by rw [if_pos hr, hr]⟩

end Members

variable [LinearOrder P]

/-- The orders of a side and a price. -/
def queueOf (L : List (Placed P)) (side : Side) (price : P) : OrderQueue :=
  (L.filter fun x => x.node.resting.side = side ∧ x.price = price).map (·.node)

/-- The level of a side and a price: none where there is no order. -/
def levelOf (L : List (Placed P)) (side : Side) (price : P) : Option OrderQueue :=
  if queueOf L side price = [] then none else some (queueOf L side price)

/-- The queues of the book hold these orders. -/
structure Queued (b : OrderBook P) (L : List (Placed P)) : Prop where
  levels : ∀ side price, (b.levelsFor side).lookup price = levelOf L side price
  refs : (L.map (·.node.ref)).Nodup
  fresh : ∀ x ∈ L, x.node.ref < b.nextRef

/-- The book holds these orders, and each index entry locates one of them, of its id. -/
structure Layout (b : OrderBook P) (L : List (Placed P)) : Prop extends Queued b L where
  index : ∀ id e, b.orderIndex.lookup id = some e → ∃ x ∈ L, x.entry = e ∧ x.id = id

/-! ## Queues of a list -/

section Queues

variable {L : List (Placed P)} {side : Side} {price : P} {x : Placed P} {ref : ℕ} {resting : RestingOrder}

/-- The queues of more orders are longer at the end. -/
theorem queueOf_append (L M : List (Placed P)) (side : Side) (price : P) :
    queueOf (L ++ M) side price = queueOf L side price ++ queueOf M side price := by
  simp only [queueOf, List.filter_append, List.map_append]

/-- An order alone is the queue of its side and price. -/
theorem queueOf_singleton_self (x : Placed P) : queueOf [x] x.node.resting.side x.price = [x.node] := by
  simp [queueOf]

/-- It is in no other queue. -/
theorem queueOf_singleton_other (h : ¬(x.node.resting.side = side ∧ x.price = price)) : queueOf [x] side price = [] := by
  simp [queueOf, h]

/-- A queue holds the orders of its side and price. -/
theorem mem_queueOf {n : Node} :
    n ∈ queueOf L side price ↔ ∃ x ∈ L, x.node = n ∧ x.node.resting.side = side ∧ x.price = price := by
  simp only [queueOf, List.mem_map, List.mem_filter, decide_eq_true_eq]
  exact ⟨fun ⟨x, ⟨hx, hs, hp⟩, hn⟩ => ⟨x, hx, hn, hs, hp⟩, fun ⟨x, hx, hn, hs, hp⟩ => ⟨x, ⟨hx, hs, hp⟩, hn⟩⟩

/-- An order is in the queue of its side and price. -/
theorem mem_queueOf_self (hx : x ∈ L) : x.node ∈ queueOf L x.node.resting.side x.price :=
  mem_queueOf.2 ⟨x, hx, rfl, rfl, rfl⟩

/-- Unlinking takes the node from its queue. -/
theorem queueOf_unlink (L : List (Placed P)) (ref : ℕ) (side : Side) (price : P) :
    queueOf (unlink L ref) side price = (queueOf L side price).filter fun n => n.ref ≠ ref := by
  simp only [queueOf, unlink, List.filter_map, List.filter_filter]
  congr 1
  refine List.filter_congr fun x _ => ?_
  simp [Bool.and_comm]

/-- Assigning to an order keeps its place in its queue, when it keeps its side. -/
theorem queueOf_amend (hside : ∀ y ∈ L, y.node.ref = ref → y.node.resting.side = resting.side) (side : Side) (price : P) :
    queueOf (amend L ref resting) side price = (queueOf L side price).map (Node.assign ref resting) := by
  simp only [queueOf, amend, List.filter_map, List.map_map]
  congr 1
  refine List.filter_congr ?_
  intro y hy
  have hs : (y.node.assign ref resting).resting.side = y.node.resting.side := by
    by_cases hr : y.node.ref = ref
    · simp only [Node.assign, if_pos hr, hside y hy hr]
    · simp only [Node.assign, if_neg hr]
  simp only [Function.comp, hs]

end Queues

/-! ## Setting the levels of a side -/

namespace OrderBook

variable {P : Type} (b : OrderBook P) (levels : PriceLevels P)

/-- The levels of a side are those set. -/
@[simp] theorem levelsFor_setLevels_self (side : Side) : (b.setLevels side levels).levelsFor side = levels := by
  cases side <;> rfl

/-- Those of the other side stay. -/
theorem levelsFor_setLevels_of_ne {side side' : Side} (h : side' ≠ side) :
    (b.setLevels side levels).levelsFor side' = b.levelsFor side' := by
  cases side <;> cases side' <;> first | rfl | exact absurd rfl h

/-- Setting levels does not touch the index. -/
@[simp] theorem setLevels_orderIndex (side : Side) : (b.setLevels side levels).orderIndex = b.orderIndex := by
  cases side <;> rfl

/-- Nor the next address. -/
@[simp] theorem setLevels_nextRef (side : Side) : (b.setLevels side levels).nextRef = b.nextRef := by
  cases side <;> rfl

/-- Assigning to a resting order does not touch the index. -/
@[simp] theorem setResting_orderIndex (e : OrderIndexEntry P) (q : OrderQueue) (resting : RestingOrder) [LinearOrder P] :
    (b.setResting e q resting).orderIndex = b.orderIndex := by
  rw [setResting, setLevels_orderIndex]

end OrderBook

/-- The levels after one of them is set: to a queue that is not empty, or erased. -/
def setLevel (levels : PriceLevels P) (price : P) (queue : OrderQueue) : PriceLevels P :=
  if queue = [] then levels.erase price else levels.insert price queue

/-- Setting one level to the queue of a new list, where the two lists have the same queues elsewhere. -/
theorem lookup_setLevel {b : OrderBook P} {L : List (Placed P)} (L' : List (Placed P)) (side : Side) (price : P)
    (hL : ∀ s p, (b.levelsFor s).lookup p = levelOf L s p)
    (hother : ∀ s p, ¬(s = side ∧ p = price) → queueOf L' s p = queueOf L s p) (s : Side) (p : P) :
    ((b.setLevels side (setLevel (b.levelsFor side) price (queueOf L' side price))).levelsFor s).lookup p =
      levelOf L' s p := by
  by_cases hs : s = side
  · subst hs
    rw [OrderBook.levelsFor_setLevels_self, setLevel, levelOf]
    by_cases hp : p = price
    · subst hp
      split
      · exact Finmap.lookup_erase _ _
      · exact Finmap.lookup_insert _
    · have hq := hother s p fun h => hp h.2
      rw [hq, ← levelOf, ← hL s p]
      split
      · exact Finmap.lookup_erase_ne hp
      · exact Finmap.lookup_insert_of_ne _ hp
  · rw [OrderBook.levelsFor_setLevels_of_ne _ _ hs, hL s p, levelOf, levelOf, hother s p fun h => hs h.1]

/-! ## The operations of a book -/

namespace Queued

variable {b : OrderBook P} {L : List (Placed P)} {x y : Placed P}

/-- The queues of a new book are empty. -/
theorem init (instrumentId : Str) : Queued (OrderBook.make instrumentId : OrderBook P) [] where
  levels := fun side price => by cases side <;> rfl
  refs := List.nodup_nil
  fresh := fun x hx => by cases hx

/-- Only the levels and the addresses count. -/
theorem congr (h : Queued b L) {b' : OrderBook P} (hlevels : ∀ s, b'.levelsFor s = b.levelsFor s)
    (href : b'.nextRef = b.nextRef) : Queued b' L :=
  ⟨fun s p => by rw [hlevels]; exact h.levels s p, h.refs, fun y hy => by rw [href]; exact h.fresh y hy⟩

/-- An address is that of one order. -/
theorem eq_of_ref (h : Queued b L) (hx : x ∈ L) (hy : y ∈ L) (hr : x.node.ref = y.node.ref) : x = y :=
  List.inj_on_of_nodup_map h.refs hx hy hr

/-- An order is in the level of its side and price. -/
theorem lookup_of_mem (h : Queued b L) (hx : x ∈ L) : (b.levelsFor x.node.resting.side).lookup x.price =
    some (queueOf L x.node.resting.side x.price) := by
  rw [h.levels, levelOf, if_neg]
  exact List.ne_nil_of_mem (mem_queueOf_self hx)

/-- An iterator of a resting order points to it. -/
theorem deref_of_mem (h : Queued b L) (hx : x ∈ L) :
    b.deref x.entry = some (queueOf L x.node.resting.side x.price, x.node) := by
  have hmem := mem_queueOf_self hx
  have hfind : (queueOf L x.node.resting.side x.price).find? (fun n => n.ref = x.node.ref) = some x.node := by
    cases hf : (queueOf L x.node.resting.side x.price).find? (fun n => n.ref = x.node.ref) with
    | none => simpa using List.find?_eq_none.1 hf x.node hmem
    | some n =>
      have hn : n.ref = x.node.ref := by simpa using List.find?_some hf
      obtain ⟨y, hy, rfl, -, -⟩ := mem_queueOf.1 (List.mem_of_find?_eq_some hf)
      rw [h.eq_of_ref hy hx hn]
  rw [OrderBook.deref, Placed.entry, h.lookup_of_mem hx, Option.bind_some, hfind]
  rfl

/-- The order at an address is in no other queue. -/
theorem ref_ne_of_other (h : Queued b L) (hx : x ∈ L) {side : Side} {price : P}
    (hne : ¬(side = x.node.resting.side ∧ price = x.price)) : ∀ n ∈ queueOf L side price, n.ref ≠ x.node.ref := by
  intro n hn hr
  obtain ⟨y, hy, rfl, rfl, rfl⟩ := mem_queueOf.1 hn
  obtain rfl := h.eq_of_ref hy hx hr
  exact hne ⟨rfl, rfl⟩

/-- Unlinking an order and erasing its level when that is empty. -/
theorem unlink (h : Queued b L) (hx : x ∈ L) : Queued (b.setLevels x.node.resting.side
    (setLevel (b.levelsFor x.node.resting.side) x.price
      ((queueOf L x.node.resting.side x.price).filter fun n => n.ref ≠ x.node.ref))) (unlink L x.node.ref) where
  levels := by
    rw [← queueOf_unlink]
    refine lookup_setLevel _ _ _ h.levels ?_
    intro s p hne
    rw [queueOf_unlink, List.filter_eq_self]
    exact fun n hn => decide_eq_true (h.ref_ne_of_other hx hne n hn)
  refs := h.refs.sublist (List.filter_sublist.map _)
  fresh := fun y hy => by
    rw [OrderBook.setLevels_nextRef]
    exact h.fresh y (mem_unlink.1 hy).1

/-- Assigning to an order, which keeps its side. -/
theorem setResting (h : Queued b L) (hx : x ∈ L) (resting : RestingOrder) (hs : resting.side = x.node.resting.side) :
    Queued (b.setResting x.entry (queueOf L x.node.resting.side x.price) resting) (amend L x.node.ref resting) := by
  have hside : ∀ y ∈ L, y.node.ref = x.node.ref → y.node.resting.side = resting.side := fun y hy hr => by
    rw [h.eq_of_ref hy hx hr, hs]
  refine ⟨?_, ?_, ?_⟩
  · have hne : queueOf (amend L x.node.ref resting) x.node.resting.side x.price ≠ [] := by
      rw [queueOf_amend hside, Ne, List.map_eq_nil_iff]
      exact List.ne_nil_of_mem (mem_queueOf_self hx)
    have hset : b.setResting x.entry (queueOf L x.node.resting.side x.price) resting =
        b.setLevels x.node.resting.side (setLevel (b.levelsFor x.node.resting.side) x.price
          (queueOf (amend L x.node.ref resting) x.node.resting.side x.price)) := by
      rw [setLevel, if_neg hne, queueOf_amend hside]
      rfl
    rw [hset]
    refine lookup_setLevel _ _ _ h.levels ?_
    intro s p hne
    rw [queueOf_amend hside]
    refine (List.map_congr_left fun n hn => ?_).trans (List.map_id _)
    exact if_neg (h.ref_ne_of_other hx hne n hn)
  · rw [map_ref_amend]
    exact h.refs
  · intro y hy
    rw [OrderBook.setResting, OrderBook.setLevels_nextRef]
    rcases mem_amend.1 hy with ⟨hy, -⟩ | ⟨z, hz, hr, rfl⟩
    · exact h.fresh y hy
    · exact h.fresh x hx

/-- Appending an order at the back of its queue. -/
theorem append (h : Queued b L) (order : Order P) : Queued
    { b.setLevels order.side ((b.levelsFor order.side).insert order.price
        (((b.levelsFor order.side).lookup order.price).getD [] ++ [(Placed.new b.nextRef order).node])) with
      nextRef := b.nextRef + 1 } (L ++ [Placed.new b.nextRef order]) := by
  have hq : ((b.levelsFor order.side).lookup order.price).getD [] = queueOf L order.side order.price := by
    rw [h.levels, levelOf]
    split
    · rename_i hnil
      rw [hnil]
      rfl
    · rfl
  have hback : queueOf (L ++ [Placed.new b.nextRef order]) order.side order.price =
      queueOf L order.side order.price ++ [(Placed.new b.nextRef order).node] := by
    rw [queueOf_append]
    exact congrArg _ (queueOf_singleton_self (Placed.new b.nextRef order))
  refine ⟨fun s p => ?_, ?_, fun y hy => ?_⟩
  · have hset := lookup_setLevel (L ++ [Placed.new b.nextRef order]) order.side order.price h.levels (fun s p hne => by
        rw [queueOf_append, queueOf_singleton_other (x := Placed.new b.nextRef order) fun hsp => hne ⟨hsp.1.symm, hsp.2.symm⟩,
          List.append_nil]) s p
    rw [setLevel, if_neg (by rw [hback]; simp), hback, ← hq] at hset
    rw [← hset]
    cases s <;> rfl
  · rw [List.map_append, List.nodup_append]
    refine ⟨h.refs, List.nodup_singleton _, ?_⟩
    intro r hr r' hr'
    obtain ⟨y, hy, rfl⟩ := List.mem_map.1 hr
    obtain rfl : r' = b.nextRef := by simpa [Placed.new] using hr'
    exact (h.fresh y hy).ne
  · rcases List.mem_append.1 hy with hy | hy
    · exact Nat.lt_succ_of_lt (h.fresh y hy)
    · obtain rfl := List.mem_singleton.1 hy
      exact Nat.lt_succ_self _

end Queued

namespace Layout

variable {b : OrderBook P} {L : List (Placed P)} {x : Placed P}

/-- A new book holds no order. -/
theorem init (instrumentId : Str) : Layout (OrderBook.make instrumentId : OrderBook P) [] :=
  ⟨Queued.init instrumentId, fun id e h => by cases h⟩

/-- The target of an index entry. -/
theorem deref_of_index (h : Layout b L) {id : Str} {e : OrderIndexEntry P} (he : b.orderIndex.lookup id = some e) :
    ∃ x ∈ L, x.entry = e ∧ x.id = id ∧ b.deref e = some (queueOf L x.node.resting.side x.price, x.node) := by
  obtain ⟨x, hx, rfl, hid⟩ := h.index id e he
  exact ⟨x, hx, rfl, hid, h.deref_of_mem hx⟩

/-- `remove_resting` of an order of the book. -/
theorem removeResting (h : Layout b L) (hx : x ∈ L) : ∃ b', b.removeResting x.id x.entry = (b', none) ∧
    Layout b' (unlink L x.node.ref) ∧ b'.orderIndex = b.orderIndex.erase x.id ∧ b'.nextRef = b.nextRef := by
  refine ⟨_, by rw [OrderBook.removeResting, h.deref_of_mem hx], ⟨?_, ?_⟩, ?_, ?_⟩
  · exact (h.toQueued.unlink hx).congr (fun s => by cases s <;> rfl) rfl
  · intro id e he
    simp only [OrderBook.setLevels_orderIndex] at he
    by_cases hid : id = x.id
    · rw [hid, Finmap.lookup_erase] at he
      cases he
    · rw [Finmap.lookup_erase_ne hid] at he
      obtain ⟨y, hy, rfl, rfl⟩ := h.index id e he
      refine ⟨y, mem_unlink.2 ⟨hy, fun hr => hid ?_⟩, rfl, rfl⟩
      rw [h.eq_of_ref hy hx hr]
  · simp only [OrderBook.setLevels_orderIndex]
  · simp only [OrderBook.setLevels_nextRef]

/-- `insert_new` of an id that is not in the index. -/
theorem insertNew (h : Layout b L) (order : Order P) (hid : order.orderId ∉ b.orderIndex) :
    ∃ b', b.insertNew order = (b', none) ∧ Layout b' (L ++ [Placed.new b.nextRef order]) ∧
      b'.orderIndex = b.orderIndex.insert order.orderId (Placed.new b.nextRef order).entry := by
  refine ⟨_, by rw [OrderBook.insertNew, if_neg hid], ⟨?_, ?_⟩, ?_⟩
  · exact (h.toQueued.append order).congr (fun s => by cases s <;> rfl) (by rw [OrderBook.setLevels_nextRef])
  · intro id e he
    simp only [OrderBook.setLevels_orderIndex] at he
    by_cases hid' : id = order.orderId
    · rw [hid', Finmap.lookup_insert, Option.some.injEq] at he
      exact ⟨_, List.mem_append_right _ List.mem_cons_self, he, hid'.symm⟩
    · rw [Finmap.lookup_insert_of_ne _ hid'] at he
      obtain ⟨y, hy, rfl, rfl⟩ := h.index id e he
      exact ⟨y, List.mem_append_left _ hy, rfl, rfl⟩
  · simp only [OrderBook.setLevels_orderIndex]
    rfl

end Layout

end TradeSurveillance
