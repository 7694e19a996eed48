import TradeSurveillance.Theorems.BookIndex

/-!
# What a Replace does to the book

Where a Replace loses its priority the order that enters the book is made of the message alone, where it retains it of the order that
was resting. `replace_amends_iff`: an accepted Replace amends an order, and does nothing else, exactly when it retains its priority or
repeats the side and the account of the order it amends.
-/

namespace TradeSurveillance

variable {P : Type} [LinearOrder P]

namespace OrderBook

/-- The queue of a side and a price, empty where there is no level. -/
def queueAt (b : OrderBook P) (side : Side) (price : P) : OrderQueue := ((b.levelsFor side).lookup price).getD []

/-- One order of a book becomes one order of another, at a side and a price; the queues are the same but for the two. -/
structure Substitutes (b b' : OrderBook P) (n n' : Node) (side : Side) (price : P) : Prop where
  others : ∀ s p, ((b'.queueAt s p).filter fun m => m.ref ≠ n'.ref) = (b.queueAt s p).filter fun m => m.ref ≠ n.ref
  placed : n' ∈ b'.queueAt side price
  only : ∀ s p, ∀ m ∈ b'.queueAt s p, m.ref = n'.ref → s = side ∧ p = price ∧ m = n'

/-- The order a message amends becomes one with the message's id, price and quantity, on the side and of the account it had. -/
def Amends (b b' : OrderBook P) (o : Order P) (n : Node) : Prop :=
  ∃ n', b.Substitutes b' n n' n.resting.side o.price ∧ n'.resting.orderId = o.orderId ∧ n'.resting.qty = o.qty ∧
    n'.resting.side = n.resting.side ∧ n'.resting.accountId = n.resting.accountId

end OrderBook

variable {b b' : OrderBook P} {L : List (Placed P)} {x : Placed P} {o : Order P}

theorem Queued.queueAt_eq (h : Queued b L) (side : Side) (price : P) : b.queueAt side price = queueOf L side price := by
  rw [OrderBook.queueAt, h.levels, levelOf]
  split
  · rename_i hnil
    rw [hnil]
    rfl
  · rfl

/-- An order of the list is the only one at its address. -/
theorem Queued.only (h : Queued b L) (hx : x ∈ L) : ∀ s p, ∀ m ∈ b.queueAt s p, m.ref = x.node.ref →
    s = x.node.resting.side ∧ p = x.price ∧ m = x.node := by
  intro s p m hm hr
  rw [h.queueAt_eq] at hm
  obtain ⟨y, hy, rfl, rfl, rfl⟩ := mem_queueOf.1 hm
  obtain rfl := h.eq_of_ref hy hx hr
  exact ⟨rfl, rfl, rfl⟩

/-- An order amended in place. -/
theorem Queued.substitutes_amend (h : Queued b L) (hx : x ∈ L) {resting : RestingOrder} (h' : Queued b' (amend L x.node.ref resting))
    (hside : resting.side = x.node.resting.side) :
    b.Substitutes b' x.node ⟨x.node.ref, resting⟩ x.node.resting.side x.price := by
  have hmem := amended_mem hx resting
  refine ⟨fun s p => ?_, ?_, fun s p m hm hr => ?_⟩
  · have hsides : ∀ y ∈ L, y.node.ref = x.node.ref → y.node.resting.side = resting.side := fun y hy hr => by
      rw [h.eq_of_ref hy hx hr, hside]
    rw [h'.queueAt_eq, h.queueAt_eq, queueOf_amend hsides, List.filter_map]
    refine (List.map_congr_left fun m hm => ?_).trans (List.map_id _) |>.trans (List.filter_congr fun m _ => by simp)
    have hne : m.ref ≠ x.node.ref := by simpa using (List.mem_filter.1 hm).2
    simp only [Node.assign, if_neg hne]
    rfl
  · rw [h'.queueAt_eq]
    exact mem_queueOf.2 ⟨_, hmem, rfl, hside, rfl⟩
  · obtain ⟨rfl, rfl, rfl⟩ := h'.only hmem s p m hm hr
    exact ⟨hside, rfl, rfl⟩

/-- An order that leaves its queue and comes back at the end of one. -/
theorem Queued.substitutes_move (h : Queued b L)
    (h' : Queued b' (TradeSurveillance.unlink L x.node.ref ++ [Placed.new b.nextRef o])) :
    b.Substitutes b' x.node (Placed.new b.nextRef o).node o.side o.price := by
  have hmem : Placed.new b.nextRef o ∈ TradeSurveillance.unlink L x.node.ref ++ [Placed.new b.nextRef o] :=
    List.mem_append_right _ List.mem_cons_self
  refine ⟨fun s p => ?_, ?_, h'.only hmem⟩
  · rw [h'.queueAt_eq, h.queueAt_eq, queueOf_append, queueOf_unlink, List.filter_append]
    have hnew : ((queueOf [Placed.new b.nextRef o] s p).filter fun m => m.ref ≠ (Placed.new b.nextRef o).node.ref) = [] := by
      refine List.filter_eq_nil_iff.2 ?_
      intro m hm
      obtain ⟨y, hy, rfl, -, -⟩ := mem_queueOf.1 hm
      rw [List.mem_singleton.1 hy]
      simp
    rw [hnew, List.append_nil, List.filter_eq_self]
    intro m hm
    obtain ⟨y, hy, rfl, -, -⟩ := mem_queueOf.1 (List.mem_of_mem_filter hm)
    exact decide_eq_true (h.fresh y hy).ne
  · rw [h'.queueAt_eq]
    exact mem_queueOf.2 ⟨_, hmem, rfl, rfl, rfl⟩

/-- What a moved order is substituted by is the order made of the message. -/
theorem Queued.eq_new_of_substitutes (h : Queued b L)
    (h' : Queued b' (TradeSurveillance.unlink L x.node.ref ++ [Placed.new b.nextRef o])) {n' : Node} {side : Side} {price : P}
    (hs : b.Substitutes b' x.node n' side price) : o.side = side ∧ n' = (Placed.new b.nextRef o).node := by
  have hmove := h.substitutes_move h'
  have hr : (Placed.new b.nextRef o).node.ref = n'.ref := by
    by_contra hne
    -- it would have been in the book before, at an address that was not given out yet
    have hmem : (Placed.new b.nextRef o).node ∈ (b.queueAt o.side o.price).filter fun m => m.ref ≠ x.node.ref := by
      rw [← hs.others]
      exact List.mem_filter.2 ⟨hmove.placed, decide_eq_true hne⟩
    rw [h.queueAt_eq] at hmem
    obtain ⟨y, hy, hnode, -, -⟩ := mem_queueOf.1 (List.mem_of_mem_filter hmem)
    have hlt := h.fresh y hy
    rw [hnode] at hlt
    exact lt_irrefl _ hlt
  obtain ⟨hside, -, heq⟩ := hs.only _ _ _ hmove.placed hr
  exact ⟨hside, heq.symm⟩

/-- An accepted Replace finds the order it amends. It amends that order, and does nothing else, exactly when it retains its priority or
repeats the side and the account of the order. -/
theorem replace_amends_iff (i : Str) (events : List (Event P)) (hst : o.status = .replaced)
    (haccepted : ((OrderBook.run i events).apply (.order o)).2 = none) :
    ∃ e n, (OrderBook.run i events).target o.origOrderId = some (e, n) ∧
      ((OrderBook.run i events).Amends ((OrderBook.run i events).apply (.order o)).1 o n ↔
        (o.price = e.price ∧ o.qty ≤ n.resting.qty) ∨ (o.side = n.resting.side ∧ o.accountId = n.resting.accountId)) := by
  obtain ⟨L, hL⟩ := OrderBook.run_layout i events
  generalize OrderBook.run i events = b at hL haccepted ⊢
  obtain ⟨L', ha, hL'⟩ := hL.apply (.order o)
  rw [haccepted] at ha
  generalize (b.apply (.order o)).1 = b' at ha hL' ⊢
  cases ha with
  | inserted _ hnew => simp [hst] at hnew
  | absent _ hcancel => simp [hst] at hcancel
  | cancelled _ hcancel => simp [hst] at hcancel
  | @amended _ _ x _ _ hx hid he hkeep _ =>
    obtain ⟨hprice, hqty⟩ := not_or.1 hkeep
    obtain hprice : o.price = x.price := not_not.1 hprice
    refine ⟨x.entry, x.node, hid ▸ hL.target_eq hx he, iff_of_true ?_ (.inl ⟨hprice, not_lt.1 hqty⟩)⟩
    refine ⟨⟨x.node.ref, { x.node.resting with qty := o.qty, orderId := o.orderId }⟩, ?_, rfl, rfl, rfl, rfl⟩
    rw [hprice]
    exact hL.toQueued.substitutes_amend hx hL'.toQueued rfl
  | @moved _ _ x _ _ hx hid he hlose _ _ =>
    refine ⟨x.entry, x.node, hid ▸ hL.target_eq hx he, ?_, ?_⟩
    · rintro ⟨n', hs, -, -, -, haccount⟩
      obtain ⟨hside, rfl⟩ := hL.toQueued.eq_new_of_substitutes hL'.toQueued hs
      exact .inr ⟨hside, haccount⟩
    · rintro (hkeep | ⟨hside, haccount⟩)
      · rcases hlose with hprice | hqty
        · exact absurd hkeep.1 hprice
        · exact absurd hqty (not_lt.2 hkeep.2)
      · refine ⟨(Placed.new b.nextRef o).node, ?_, rfl, rfl, hside, haccount⟩
        rw [← hside]
        exact hL.toQueued.substitutes_move hL'.toQueued

/-- An order is amended to a smaller quantity. -/
theorem replace_amends_reduced :
    let b : OrderBook ℤ := OrderBook.run (ascii "X") [.order (orderOn "X" "A" .new "" .buy 100 10)]
    let o : Order ℤ := orderOn "X" "B" .replaced "A" .buy 100 5
    ∃ e n, b.target (ascii "A") = some (e, n) ∧ b.Amends (b.apply (.order o)).1 o n := by
  intro b o
  obtain ⟨e, n, ht, hiff⟩ := replace_amends_iff (ascii "X") [.order (orderOn (P := ℤ) "X" "A" .new "" .buy 100 10)] (o := o) rfl
    (by decide +kernel)
  have htarget : b.target (ascii "A") = some (⟨.buy, 100, 0⟩, ⟨0, ⟨ascii "A", ascii "ACC", .buy, 10, 0⟩⟩) := by decide +kernel
  obtain ⟨rfl, rfl⟩ : e = _ ∧ n = _ := Prod.mk.inj (Option.some.inj (ht.symm.trans htarget))
  exact ⟨_, _, ht, hiff.2 (.inl (by decide))⟩

/-- A Replace at another price that gives another side and another account: a buy order of one account becomes a sell order of the
other. -/
theorem moved_replace_changes_side :
    let b : OrderBook ℤ := OrderBook.run (ascii "X") [.order (orderOn "X" "A" .new "" .buy 100 10)]
    let o : Order ℤ := { orderOn "X" "B" .replaced "A" .sell 101 10 with accountId := ascii "OTHER" }
    (b.apply (.order o)).2 = none ∧ (b.apply (.order o)).1.bids = ∅ ∧
      (b.apply (.order o)).1.queueAt .sell 101 = [⟨1, ⟨ascii "B", ascii "OTHER", .sell, 10, 0⟩⟩] ∧
      ∃ e n, b.target o.origOrderId = some (e, n) ∧ ¬b.Amends (b.apply (.order o)).1 o n := by
  intro b o
  refine ⟨by decide +kernel, by decide +kernel, by decide +kernel, _, _, rfl, ?_⟩
  rintro ⟨n', hs, -, -, hside, -⟩
  have hempty : (b.apply (.order o)).1.queueAt .buy 101 = [] := by decide +kernel
  exact List.not_mem_nil (hempty ▸ hs.placed)

end TradeSurveillance
