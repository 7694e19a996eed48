import TradeSurveillance.Lemmas.BookStep

/-!
# The order index of a book

`WellIndexed`: the index and the queues of a book name each other, one entry for each order. A Replace that retains priority
moves its index entry to the new id without the check for a duplicate that every other way into the book goes through;
`well_indexed_iff` says that this is the one way to lose the property.
-/

namespace TradeSurveillance

variable {P : Type} [LinearOrder P]

namespace OrderBook

/-- The order rests in the queue of a side and a price. -/
def Rests (b : OrderBook P) (side : Side) (price : P) (n : Node) : Prop :=
  ∃ q, (b.levelsFor side).lookup price = some q ∧ n ∈ q

/-- The index entry and the order that a message naming this id is about. -/
def target (b : OrderBook P) (id : Str) : Option (OrderIndexEntry P × Node) :=
  (b.orderIndex.lookup id).bind fun e => (b.deref e).map fun q => (e, q.2)

/-- The representation invariant. -/
structure WellIndexed (b : OrderBook P) : Prop where
  /-- An index entry locates a resting order of its id in the queue of its side and price. -/
  located : ∀ id e, b.orderIndex.lookup id = some e → ∃ n, b.Rests e.side e.price n ∧ n.ref = e.it ∧ n.resting.orderId = id
  /-- An order is located by the entry of its id, and by no other. -/
  indexed : ∀ side price n, b.Rests side price n → b.orderIndex.lookup n.resting.orderId = some ⟨side, price, n.ref⟩ ∧
    ∀ id e, b.orderIndex.lookup id = some e → e.it = n.ref → id = n.resting.orderId
  /-- Two orders have different ids, also in one queue. -/
  distinct : ∀ side price n side' price' n', b.Rests side price n → b.Rests side' price' n' →
    n.resting.orderId = n'.resting.orderId → side = side' ∧ price = price' ∧ n = n'
  nodup : ∀ side price q, (b.levelsFor side).lookup price = some q → (q.map (·.resting.orderId)).Nodup
  /-- No level is empty. -/
  nonempty : ∀ side price, (b.levelsFor side).lookup price ≠ some []

/-- The event is a Replace that retains the priority of the order it amends and takes the id of another one. -/
def TakesRestingId (b : OrderBook P) : Event P → Prop
  | .order o => o.instrumentId = b.instrumentId ∧ o.status = .replaced ∧ o.orderId ≠ o.origOrderId ∧
      o.orderId ∈ b.orderIndex ∧ ∃ e n, b.target o.origOrderId = some (e, n) ∧ o.price = e.price ∧ o.qty ≤ n.resting.qty
  | .execution _ => False

end OrderBook

/-- Every order of the list is located by the index entry of its id. -/
def Indexed (b : OrderBook P) (L : List (Placed P)) : Prop := ∀ x ∈ L, b.orderIndex.lookup x.id = some x.entry

section Layout

variable {b : OrderBook P} {L : List (Placed P)} {x y : Placed P}

theorem Queued.rests_iff (h : Queued b L) {side : Side} {price : P} {n : Node} :
    b.Rests side price n ↔ ∃ x ∈ L, x.node = n ∧ x.node.resting.side = side ∧ x.price = price := by
  rw [← mem_queueOf]
  simp only [OrderBook.Rests, h.levels, levelOf]
  constructor
  · rintro ⟨q, hq, hn⟩
    split at hq
    · cases hq
    · cases hq
      exact hn
  · intro hn
    exact ⟨_, if_neg (List.ne_nil_of_mem hn), hn⟩

theorem Layout.target_eq (h : Layout b L) (hx : x ∈ L) (he : b.orderIndex.lookup x.id = some x.entry) :
    b.target x.id = some (x.entry, x.node) := by
  rw [OrderBook.target, he, Option.bind_some, h.deref_of_mem hx]
  rfl

/-- Orders located by the index have different ids. -/
theorem Indexed.eq_of_id (h : Queued b L) (hi : Indexed b L) (hx : x ∈ L) (hy : y ∈ L) (hid : x.id = y.id) : x = y := by
  have hex := hi x hx
  rw [hid, hi y hy, Option.some.injEq] at hex
  exact h.eq_of_ref hx hy (congrArg OrderIndexEntry.it hex).symm

theorem mem_orderIndex_iff (h : Layout b L) (hi : Indexed b L) {id : Str} : id ∈ b.orderIndex ↔ ∃ x ∈ L, x.id = id := by
  rw [← Finmap.lookup_isSome, Option.isSome_iff_exists]
  constructor
  · rintro ⟨e, he⟩
    obtain ⟨x, hx, -, hid⟩ := h.index id e he
    exact ⟨x, hx, hid⟩
  · rintro ⟨x, hx, rfl⟩
    exact ⟨_, hi x hx⟩

/-- The invariant, in the list of a laid out book. -/
theorem wellIndexed_iff (h : Layout b L) : b.WellIndexed ↔ Indexed b L := by
  constructor
  · intro hw x hx
    exact (hw.indexed _ _ _ (h.rests_iff.2 ⟨x, hx, rfl, rfl, rfl⟩)).1
  · intro hi
    refine ⟨?_, ?_, ?_, ?_, ?_⟩
    · intro id e he
      obtain ⟨x, hx, rfl, hid⟩ := h.index id e he
      exact ⟨x.node, h.rests_iff.2 ⟨x, hx, rfl, rfl, rfl⟩, rfl, hid⟩
    · intro side price n hn
      obtain ⟨x, hx, rfl, rfl, rfl⟩ := h.rests_iff.1 hn
      refine ⟨hi x hx, ?_⟩
      intro id e he hit
      obtain ⟨y, hy, rfl, rfl⟩ := h.index id e he
      rw [h.eq_of_ref hy hx hit]
      rfl
    · intro side price n side' price' n' hn hn' hid
      obtain ⟨x, hx, rfl, rfl, rfl⟩ := h.rests_iff.1 hn
      obtain ⟨y, hy, rfl, rfl, rfl⟩ := h.rests_iff.1 hn'
      obtain rfl := Indexed.eq_of_id h.toQueued hi hx hy hid
      exact ⟨rfl, rfl, rfl⟩
    · intro side price q hq
      rw [h.levels, levelOf] at hq
      split at hq
      · cases hq
      · cases hq
        have hL : (L.map (·.id)).Nodup := by
          refine List.Nodup.map_on (fun x hx y hy => Indexed.eq_of_id h.toQueued hi hx hy) ?_
          exact List.Nodup.of_map _ h.refs
        rw [queueOf, List.map_map]
        exact hL.sublist (List.filter_sublist.map _)
    · intro side price hq
      rw [h.levels, levelOf] at hq
      split at hq
      · cases hq
      · rename_i hne
        exact hne (Option.some.inj hq)

/-! ## One event -/

/-- What becomes of the index when an order leaves the book. -/
theorem Indexed.unlink (h : Queued b L) (hi : Indexed b L) (hx : x ∈ L) {b' : OrderBook P}
    (hindex : b'.orderIndex = b.orderIndex.erase x.id) : Indexed b' (unlink L x.node.ref) := by
  intro y hy
  obtain ⟨hy, hr⟩ := mem_unlink.1 hy
  rw [hindex, Finmap.lookup_erase_ne]
  · exact hi y hy
  · exact fun hid => hr (by rw [Indexed.eq_of_id h hi hy hx hid])

omit [LinearOrder P] in
/-- What becomes of the index when an order of a new id enters the book. -/
theorem Indexed.append (hi : Indexed b L) {z : Placed P} (hid : z.id ∉ b.orderIndex) {b' : OrderBook P}
    (hindex : b'.orderIndex = b.orderIndex.insert z.id z.entry) : Indexed b' (L ++ [z]) := by
  intro y hy
  rw [hindex]
  rcases List.mem_append.1 hy with hy | hy
  · rw [Finmap.lookup_insert_of_ne]
    · exact hi y hy
    · intro hyz
      rw [← hyz, ← Finmap.lookup_eq_none, hi y hy] at hid
      cases hid
  · obtain rfl := List.mem_singleton.1 hy
    exact Finmap.lookup_insert _

/-- Assigning a quantity to an order keeps its place in the index. -/
theorem Indexed.setQty (h : Queued b L) (hi : Indexed b L) (hx : x ∈ L) {b' : OrderBook P}
    (hindex : b'.orderIndex = b.orderIndex) (qty : ℤ) :
    Indexed b' (amend L x.node.ref { x.node.resting with qty := qty }) := by
  intro y hy
  rw [hindex]
  rcases mem_amend.1 hy with ⟨hy, -⟩ | ⟨z, hz, hr, rfl⟩
  · exact hi y hy
  · obtain rfl := h.eq_of_ref hz hx hr
    exact hi z hz

/-- Moving the index entry of an order to a new id keeps the index complete exactly when no other order has that id. -/
theorem Indexed.rename_iff (h : Queued b L) (hi : Indexed b L) (hx : x ∈ L) {qty : ℤ} {newId : Str} {b' : OrderBook P}
    (hindex : b'.orderIndex = (b.orderIndex.erase x.id).insert newId x.entry) :
    Indexed b' (amend L x.node.ref { x.node.resting with qty := qty, orderId := newId }) ↔
      ∀ y ∈ L, y.id = newId → y = x := by
  rw [Indexed, hindex]
  constructor
  · intro hi' y hy hid
    by_contra hne
    have hr : y.node.ref ≠ x.node.ref := fun hr => hne (h.eq_of_ref hy hx hr)
    have hlook := hi' y (mem_amend.2 (Or.inl ⟨hy, hr⟩))
    rw [hid, Finmap.lookup_insert, Option.some.injEq] at hlook
    exact hr (congrArg OrderIndexEntry.it hlook).symm
  · intro hfree y hy
    rcases mem_amend.1 hy with ⟨hy, hr⟩ | ⟨z, hz, hr, rfl⟩
    · have hne : y ≠ x := fun hyx => hr (by rw [hyx])
      rw [Finmap.lookup_insert_of_ne _ fun hid => hne (hfree y hy hid), Finmap.lookup_erase_ne]
      · exact hi y hy
      · exact fun hid => hne (Indexed.eq_of_id h hi hy hx hid)
    · obtain rfl := h.eq_of_ref hz hx hr
      exact Finmap.lookup_insert _

/-- A Replace that goes by the amending way takes a resting id exactly when another order has the new id. -/
theorem takesRestingId_iff (h : Layout b L) (hi : Indexed b L) {o : Order P} (hinst : o.instrumentId = b.instrumentId)
    (hst : o.status = .replaced) (hx : x ∈ L) (hid : x.id = o.origOrderId) :
    b.TakesRestingId (.order o) ↔ ¬losesPriority o x ∧ ∃ y ∈ L, y.id = o.orderId ∧ y ≠ x := by
  have ht := h.target_eq hx (hi x hx)
  simp only [OrderBook.TakesRestingId, hinst, hst, true_and, ← hid, ht, Option.some.injEq, Prod.mk.injEq,
    mem_orderIndex_iff h hi, losesPriority, not_or, not_not, not_lt]
  constructor
  · rintro ⟨hne, ⟨y, hy, hyid⟩, e, n, ⟨rfl, rfl⟩, hlose⟩
    exact ⟨hlose, y, hy, hyid, fun hyx => hne (by rw [← hyid, hyx])⟩
  · rintro ⟨hlose, y, hy, hyid, hne⟩
    exact ⟨fun hid' => hne (Indexed.eq_of_id h.toQueued hi hy hx (hyid.trans hid')), ⟨y, hy, hyid⟩, _, _, ⟨rfl, rfl⟩, hlose⟩

/-- One event keeps the index complete exactly when it does not take a resting id. -/
theorem indexed_apply_iff (h : Layout b L) (hi : Indexed b L) {e : Event P} {b' : OrderBook P} {thrown : Option Thrown}
    {L' : List (Placed P)} (ha : Applied b L e b' thrown L') : Indexed b' L' ↔ ¬b.TakesRestingId e := by
  -- every way but the amending one keeps the index complete, and is none that takes a resting id
  have hkeep : Indexed b' L' → ¬b.TakesRestingId e → (Indexed b' L' ↔ ¬b.TakesRestingId e) := fun h1 h2 => iff_of_true h1 h2
  cases ha with
  | mismatch hinst =>
    refine hkeep hi ?_
    intro ht
    cases e with
    | order o => exact hinst ht.1
    | execution t => exact ht
  | duplicate _ hst _ => exact hkeep hi fun ht => by rw [ht.2.1] at hst; cases hst
  | inserted _ hst hid hindex =>
    exact hkeep (hi.append (z := Placed.new _ _) hid hindex) fun ht => by rw [ht.2.1] at hst; cases hst
  | absent _ hst _ => exact hkeep hi fun ht => by rw [ht.2.1] at hst; cases hst
  | cancelled _ hst hx _ _ hindex =>
    exact hkeep (hi.unlink h.toQueued hx hindex) fun ht => by rw [ht.2.1] at hst; cases hst
  | unknown _ _ hnone =>
    refine hkeep hi ?_
    intro ht
    obtain ⟨-, -, -, -, e, n, he, -⟩ := ht
    rw [OrderBook.target, hnone] at he
    cases he
  | amended hinst hst hx hid _ hlose hindex =>
    rw [Indexed.rename_iff h.toQueued hi hx hindex, takesRestingId_iff h hi hinst hst hx hid]
    simp only [hlose, not_false_eq_true, true_and, not_exists, not_and, not_not]
  | @moved o b' x hinst hst hx hid _ hlose hdup hindex =>
    have hu : Indexed { b with orderIndex := b.orderIndex.erase x.id } (unlink L x.node.ref) := hi.unlink h.toQueued hx rfl
    exact hkeep (hu.append (z := Placed.new _ _) hdup hindex) fun ht =>
      ((takesRestingId_iff h hi hinst hst hx hid).1 ht).1 hlose
  | movedDuplicate hinst hst hx hid _ hlose _ hindex =>
    exact hkeep (hi.unlink h.toQueued hx hindex) fun ht => ((takesRestingId_iff h hi hinst hst hx hid).1 ht).1 hlose
  | unfilled _ _ => exact hkeep hi id
  | overfilled _ _ _ _ _ => exact hkeep hi id
  | filled _ hx _ _ _ _ hindex => exact hkeep (hi.unlink h.toQueued hx hindex) id
  | partFilled _ hx _ _ _ _ hindex => exact hkeep (hi.setQty h.toQueued hx hindex _) id

end Layout

/-! ## Every run -/

/-- The index and the queues agree after every call of a run exactly when no call is a Replace that retains priority and takes
the id of another resting order. -/
theorem well_indexed_iff (instrumentId : Str) (events : List (Event P)) :
    (∀ pre, pre <+: events → (OrderBook.run instrumentId pre).WellIndexed) ↔
      ∀ pre e, pre ++ [e] <+: events → ¬(OrderBook.run instrumentId pre).TakesRestingId e := by
  have hstep : ∀ (pre : List (Event P)) e, (OrderBook.run instrumentId pre).WellIndexed →
      ((OrderBook.run instrumentId (pre ++ [e])).WellIndexed ↔ ¬(OrderBook.run instrumentId pre).TakesRestingId e) := by
    intro pre e hw
    obtain ⟨L, hL⟩ := OrderBook.run_layout instrumentId pre
    obtain ⟨L', ha, hL'⟩ := hL.apply e
    rw [OrderBook.run_concat, wellIndexed_iff hL']
    exact indexed_apply_iff hL ((wellIndexed_iff hL).1 hw) ha
  constructor
  · intro hw pre e hpre
    exact (hstep pre e (hw pre ((List.prefix_append pre [e]).trans hpre))).1 (hw _ hpre)
  · intro hok pre
    induction pre using List.reverseRecOn with
    | nil => exact fun _ => (wellIndexed_iff (Layout.init instrumentId)).2 fun x hx => by cases hx
    | append_singleton pre e ih =>
      exact fun hpre => (hstep pre e (ih ((List.prefix_append pre [e]).trans hpre))).2 (hok pre e hpre)

/-- An order of account `ACC`, for runs on fixed inputs. -/
def orderOn (instrumentId orderId : String) (status : OrderStatus) (origOrderId : String) (side : Side) (price : P) (qty : ℤ) :
    Order P where
  orderId := ascii orderId
  accountId := ascii "ACC"
  instrumentId := ascii instrumentId
  side := side
  price := price
  qty := qty
  orderType := .limit
  timestampNs := 0
  status := status
  venue := []
  origOrderId := ascii origOrderId

/-- An execution between an account and itself, for runs on fixed inputs. -/
def selfTrade (instrumentId orderId : String) (price : P) (qty : ℤ) : Execution P where
  tradeId := ascii "T"
  orderId := ascii orderId
  accountId := ascii "ACC"
  instrumentId := ascii instrumentId
  side := .buy
  price := price
  qty := qty
  timestampNs := 0
  counterpartyAccountId := ascii "ACC"
  venue := []

/-- Two resting orders, and a Replace of the first that keeps its price and quantity and takes the id of the second: two orders
of one id. -/
theorem retained_replace_duplicates : ¬(OrderBook.run (P := ℤ) (ascii "X")
    [.order (orderOn "X" "A" .new "A" .buy 100 10), .order (orderOn "X" "B" .new "B" .buy 100 5),
      .order (orderOn "X" "B" .replaced "A" .buy 100 10)]).WellIndexed := by
  intro hw
  have hq := hw.nodup .buy 100 _ rfl
  exact absurd hq (by decide)

end TradeSurveillance
