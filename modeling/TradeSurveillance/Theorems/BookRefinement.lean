import TradeSurveillance.Theorems.BookIndex
import TradeSurveillance.OrderBook.FlatModel

/-!
# A book refines the flat model

`flat` forgets the addresses of a layout. One event takes a laid out and indexed book to one that is laid out as the flat model
says (`flat_apply`), and a laid out book shows the view of its flat list (`view_eq`).
-/

namespace TradeSurveillance

variable {P : Type} [LinearOrder P]

/-! ## Sorted finite sets -/

/-- Ascending order read backwards is descending order. -/
theorem sort_reverse (s : Finset P) : (s.sort (· ≤ ·)).reverse = s.sort (· ≥ ·) := by
  have hnodup : (s.sort (· ≤ ·)).reverse.Nodup := List.nodup_reverse.2 (s.sort_nodup _)
  have hsorted : (s.sort (· ≤ ·)).reverse.Pairwise (· ≥ ·) := List.pairwise_reverse.2 (s.pairwise_sort _)
  have hs := (List.toFinset_sort (· ≥ ·) hnodup).2 hsorted
  rwa [List.toFinset_reverse, Finset.sort_toFinset, eq_comm] at hs

/-- The last of the elements in ascending order is the greatest. -/
theorem getLast?_sort (s : Finset P) : (s.sort (· ≤ ·)).getLast? = s.max := by
  rcases s.eq_empty_or_nonempty with rfl | hs
  · rw [Finset.sort_empty, Finset.max_empty]
    rfl
  · have hlen : (s.sort (· ≤ ·)).length - 1 < (s.sort (· ≤ ·)).length := by
      have := Finset.card_pos.2 hs
      rw [Finset.length_sort]
      omega
    rw [← Finset.coe_max' hs, List.getLast?_eq_getElem?, List.getElem?_eq_getElem hlen, Finset.sorted_last_eq_max']
    rfl

/-- The first of them is the least. -/
theorem head?_sort (s : Finset P) : (s.sort (· ≤ ·)).head? = s.min := by
  rcases s.eq_empty_or_nonempty with rfl | hs
  · rw [Finset.sort_empty, Finset.min_empty]
    rfl
  · have hlen : 0 < (s.sort (· ≤ ·)).length := by
      rw [Finset.length_sort]
      exact Finset.card_pos.2 hs
    rw [← Finset.coe_min' hs, List.head?_eq_getElem?, List.getElem?_eq_getElem hlen, Finset.sorted_zero_eq_min']
    rfl

/-! ## The flat list of a layout -/

/-- A placed order without its address and its time. -/
def Placed.flat {P : Type} (x : Placed P) : FlatOrder P :=
  ⟨x.id, x.node.resting.accountId, x.node.resting.side, x.price, x.node.resting.qty⟩

/-- The orders of a layout in the flat model. -/
def flat {P : Type} (L : List (Placed P)) : FlatBook P := L.map Placed.flat

/-- A message appended is the order of the message. -/
theorem flat_append {P : Type} (L : List (Placed P)) (ref : ℕ) (o : Order P) :
    flat (L ++ [Placed.new ref o]) = flat L ++ [FlatBook.ofOrder o] := by
  rw [flat, List.map_append]
  rfl

section Flat

variable {b : OrderBook P} {L : List (Placed P)} {x : Placed P}

/-! ## One event -/

/-- The index and the flat model find the same orders. -/
theorem find_flat (h : Layout b L) (hi : Indexed b L) (hx : x ∈ L) : (flat L).find x.id = some x.flat := by
  rw [FlatBook.find, flat, List.find?_map]
  cases hf : L.find? ((fun y : FlatOrder P => decide (y.orderId = x.id)) ∘ Placed.flat) with
  | none => exact absurd (decide_eq_true rfl) (List.find?_eq_none.1 hf x hx)
  | some y =>
    have hp := List.find?_some hf
    have hid : y.id = x.id := of_decide_eq_true hp
    rw [Indexed.eq_of_id h.toQueued hi (List.mem_of_find?_eq_some hf) hx hid]
    rfl

/-- An id is in the flat book when the index has it. -/
theorem find_flat_eq_none (h : Layout b L) (hi : Indexed b L) {id : Str} :
    (flat L).find id = none ↔ b.orderIndex.lookup id = none := by
  rw [FlatBook.find, flat, List.find?_map, Option.map_eq_none_iff, List.find?_eq_none, Finmap.lookup_eq_none,
    mem_orderIndex_iff h hi, not_exists]
  exact forall_congr' fun x => ⟨fun hx hid => hx hid.1 (decide_eq_true hid.2), fun hx hL hid => hx ⟨hL, of_decide_eq_true hid⟩⟩

/-- Deleting the id of an order unlinks the order. -/
theorem delete_flat (h : Layout b L) (hi : Indexed b L) (hx : x ∈ L) :
    (flat L).delete x.id = flat (unlink L x.node.ref) := by
  rw [FlatBook.delete, flat, List.filter_map, flat, unlink]
  congr 1
  refine List.filter_congr ?_
  intro y hy
  have hiff : y.id ≠ x.id ↔ y.node.ref ≠ x.node.ref :=
    not_congr ⟨fun hid => by rw [Indexed.eq_of_id h.toQueued hi hy hx hid], fun hr => by rw [h.eq_of_ref hy hx hr]⟩
  exact decide_eq_decide.2 hiff

/-- Deleting an id that the index does not have changes nothing. -/
theorem delete_flat_none (h : Layout b L) (hi : Indexed b L) {id : Str} (hnone : b.orderIndex.lookup id = none) :
    (flat L).delete id = flat L := by
  refine List.filter_eq_self.2 fun y hy => decide_eq_true fun hid => ?_
  have hfind := List.find?_eq_none.1 ((find_flat_eq_none h hi).2 hnone) y hy
  exact hfind (decide_eq_true hid)

/-- Rewriting the order of an id amends the order. -/
theorem rewrite_flat (h : Layout b L) (hi : Indexed b L) (hx : x ∈ L) (resting : RestingOrder)
    {g : FlatOrder P → FlatOrder P} (hg : g x.flat = Placed.flat ⟨x.price, ⟨x.node.ref, resting⟩⟩) :
    (flat L).rewrite x.id g = flat (amend L x.node.ref resting) := by
  rw [FlatBook.rewrite, flat, List.map_map, flat, amend, List.map_map]
  refine List.map_congr_left ?_
  intro y hy
  simp only [Function.comp, Node.assign]
  by_cases hr : y.node.ref = x.node.ref
  · obtain rfl := h.eq_of_ref hy hx hr
    rw [if_pos rfl, if_pos (show y.flat.orderId = y.id from rfl), hg]
  · have hid : ¬y.flat.orderId = x.id := fun hid => hr (by rw [Indexed.eq_of_id h.toQueued hi hy hx hid])
    rw [if_neg hr, if_neg hid]

/-- One event does to the flat list what it does to the book, and each rejects what the other rejects. -/
theorem flat_apply (h : Layout b L) (hi : Indexed b L) {e : Event P} {b' : OrderBook P} {thrown : Option Thrown}
    {L' : List (Placed P)} (ha : Applied b L e b' thrown L') (hinst : e.instrumentId = b.instrumentId)
    (hamends : (flat L).Amends e) :
    ((flat L).apply e).getD (flat L) = flat L' ∧ (((flat L).apply e) = none ↔ thrown.isSome) := by
  cases ha with
  | mismatch hne => exact absurd hinst hne
  | duplicate _ hst hid =>
    obtain ⟨x, hx, hid⟩ := (mem_orderIndex_iff h hi).1 hid
    simp [FlatBook.apply, hst, ← hid, find_flat h hi hx]
  | inserted _ hst hid _ =>
    have hfind := (find_flat_eq_none h hi).2 (Finmap.lookup_eq_none.2 hid)
    simp [FlatBook.apply, hst, hfind, flat_append]
  | absent _ hst hnone => simp [FlatBook.apply, hst, delete_flat_none h hi hnone]
  | cancelled _ hst hx hid _ _ => simp [FlatBook.apply, hst, ← hid, delete_flat h hi hx]
  | unknown _ hst hnone => simp [FlatBook.apply, hst, (find_flat_eq_none h hi).2 hnone]
  | @amended o b' x _ hst hx hid _ hlose _ =>
    rw [losesPriority, not_or, not_not, not_lt] at hlose
    have hkeep : o.price = x.flat.price ∧ o.qty ≤ x.flat.qty := hlose
    have hg := rewrite_flat h hi hx { x.node.resting with qty := o.qty, orderId := o.orderId }
      (g := fun y => { y with orderId := o.orderId, qty := o.qty }) rfl
    simp [FlatBook.apply, hst, ← hid, find_flat h hi hx, if_pos hkeep, hg]
  | @moved o b' x _ hst hx hid _ hlose _ _ =>
    have hnot : ¬(o.price = x.flat.price ∧ o.qty ≤ x.flat.qty) := fun hk =>
      hlose.elim (fun hp => hp hk.1) (fun hq => hq.not_ge hk.2)
    simp [FlatBook.apply, hst, ← hid, find_flat h hi hx, if_neg hnot, delete_flat h hi hx, flat_append]
  | @movedDuplicate o b' x _ _ hst hx hid _ hlose hdup _ =>
    -- excluded: the new id is that of another resting order
    rw [Finmap.mem_erase, mem_orderIndex_iff h hi] at hdup
    obtain ⟨hne, y, hy, hyid⟩ := hdup
    have hother := (hamends hst x.flat (by rw [← hid]; exact find_flat h hi hx)).2.2 y.flat (List.mem_map_of_mem hy) hyid
    exact absurd (hyid.symm.trans (Eq.trans hother hid.symm)) hne
  | unfilled _ hnone => simp [FlatBook.apply, (find_flat_eq_none h hi).2 hnone]
  | @overfilled t x _ _ hx hid _ hover =>
    have hover' : t.qty > x.flat.qty := hover
    simp [FlatBook.apply, ← hid, find_flat h hi hx, if_pos hover']
  | @filled t b' x _ hx hid _ hle hzero _ =>
    have hle' : ¬t.qty > x.flat.qty := not_lt.2 hle
    have hz : wrap64 (x.flat.qty - t.qty) = 0 := hzero
    simp [FlatBook.apply, ← hid, find_flat h hi hx, if_neg hle', if_pos hz, delete_flat h hi hx]
  | @partFilled t b' x _ hx hid _ hle hzero _ =>
    have hle' : ¬t.qty > x.flat.qty := not_lt.2 hle
    have hz : ¬wrap64 (x.flat.qty - t.qty) = 0 := hzero
    have hg := rewrite_flat h hi hx { x.node.resting with qty := wrap64 (x.node.resting.qty - t.qty) }
      (g := fun y => { y with qty := wrap64 (y.qty - t.qty) }) rfl
    simp [FlatBook.apply, ← hid, find_flat h hi hx, if_neg hle', if_neg hz, hg]

/-! ## The view -/

/-- The orders at a price are those of the layout. -/
theorem at_flat (L : List (Placed P)) (side : Side) (price : P) : (flat L).at_ side price =
    (L.filter fun x => x.node.resting.side = side ∧ x.price = price).map Placed.flat := by
  rw [FlatBook.at_, flat, List.filter_map]
  rfl

/-- A level of the book shows the orders of the flat model. -/
theorem levelSummary_eq (L : List (Placed P)) (side : Side) (price : P) :
    OrderBook.levelSummary price (queueOf L side price) = (flat L).level side price := by
  simp only [OrderBook.levelSummary, FlatBook.level, FlatBook.totalQty, at_flat, queueOf, List.map_map, sum64_eq]
  rfl

/-- A queue is not empty when an order has its side and price. -/
theorem queueOf_ne_nil_iff {side : Side} {price : P} :
    queueOf L side price ≠ [] ↔ ∃ x ∈ L, x.node.resting.side = side ∧ x.price = price := by
  constructor
  · intro hne
    obtain ⟨n, hn⟩ := List.exists_mem_of_ne_nil _ hne
    obtain ⟨x, hx, -, hs⟩ := mem_queueOf.1 hn
    exact ⟨x, hx, hs⟩
  · rintro ⟨x, hx, hs⟩
    exact List.ne_nil_of_mem (mem_queueOf.2 ⟨x, hx, rfl, hs⟩)

/-- The levels of a side have the prices of its orders. -/
theorem keys_eq (h : Queued b L) (side : Side) : (b.levelsFor side).keys = (flat L).prices side := by
  ext price
  rw [Finmap.mem_keys, ← Finmap.lookup_isSome, h.levels, levelOf]
  have hmem : price ∈ (flat L).prices side ↔ queueOf L side price ≠ [] := by
    rw [queueOf_ne_nil_iff]
    simp only [FlatBook.prices, flat, List.mem_toFinset, List.mem_map, List.mem_filter, decide_eq_true_eq]
    constructor
    · rintro ⟨_, ⟨⟨x, hx, rfl⟩, hs⟩, hp⟩
      exact ⟨x, hx, hs, hp⟩
    · rintro ⟨x, hx, hs, hp⟩
      exact ⟨_, ⟨⟨x, hx, rfl⟩, hs⟩, hp⟩
  rw [hmem]
  split <;> simp [*]

/-- The levels of the book are those of the flat one, by ascending price. -/
theorem ascending_eq (h : Queued b L) (side : Side) : OrderBook.ascending (b.levelsFor side) =
    (((flat L).prices side).sort (· ≤ ·)).map ((flat L).level side) := by
  rw [OrderBook.ascending, keys_eq h side]
  refine List.map_congr_left fun price _ => ?_
  rw [h.levels, levelOf, ← levelSummary_eq]
  split
  · rename_i hnil
    rw [hnil]
    rfl
  · rfl

/-- A laid out book shows the view of its flat list. -/
theorem view_eq (h : Queued b L) : b.view = (flat L).view := by
  ext1
  · show (OrderBook.ascending (b.levelsFor .buy)).reverse = _
    rw [ascending_eq h, ← List.map_reverse, sort_reverse]
    rfl
  · exact ascending_eq h .sell
  · funext side price
    show OrderBook.qtyAtPrice b side price = (flat L).totalQty side price
    have hsum := congrArg PriceLevel.totalQty (levelSummary_eq L side price)
    rw [OrderBook.qtyAtPrice, h.levels, levelOf]
    rw [show (flat L).totalQty side price = ((flat L).level side price).totalQty from rfl, ← hsum]
    split <;> rename_i heq <;> split at heq
    · rename_i hnil
      rw [hnil]
      rfl
    · cases heq
    · cases heq
    · cases heq
      rfl
  · funext side price
    show OrderBook.orderCountAtPrice b side price = ((flat L).at_ side price).length
    have hlen : ((flat L).at_ side price).length = (queueOf L side price).length := by
      rw [at_flat, queueOf, List.length_map, List.length_map]
    rw [OrderBook.orderCountAtPrice, h.levels, levelOf, hlen]
    split <;> rename_i heq <;> split at heq
    · rename_i hnil
      rw [hnil]
      rfl
    · cases heq
    · cases heq
    · cases heq
      rfl
  · funext side
    cases side with
    | buy => exact (congrArg (fun s : Finset P => (s.sort (· ≤ ·)).getLast?) (keys_eq h .buy)).trans (getLast?_sort _)
    | sell => exact (congrArg (fun s : Finset P => (s.sort (· ≤ ·)).head?) (keys_eq h .sell)).trans (head?_sort _)

/-- A Replace that amends as the flat model requires takes no resting id. -/
theorem not_takesRestingId (h : Layout b L) (hi : Indexed b L) {e : Event P} (hamends : (flat L).Amends e) :
    ¬b.TakesRestingId e := by
  cases e with
  | execution t => exact id
  | order o =>
    rintro ⟨-, hst, hne, hmem, e, n, htarget, -⟩
    have hex : ∃ e, b.orderIndex.lookup o.origOrderId = some e := by
      rw [OrderBook.target, Option.bind_eq_some_iff] at htarget
      exact ⟨_, htarget.choose_spec.1⟩
    obtain ⟨e', he'⟩ := hex
    obtain ⟨x, hx, -, hid⟩ := h.index _ _ he'
    obtain ⟨y, hy, hyid⟩ := (mem_orderIndex_iff h hi).1 hmem
    have hother := (hamends hst x.flat (by rw [← hid]; exact find_flat h hi hx)).2.2 y.flat (List.mem_map_of_mem hy) hyid
    exact hne (hyid.symm.trans hother)

end Flat

/-! ## Every run -/

/-- The events of a run are of one instrument, and each Replace that names a resting order amends it as the flat model
requires. -/
def AmendingRun (instrumentId : Str) (events : List (Event P)) : Prop :=
  ∀ pre e, pre ++ [e] <+: events → e.instrumentId = instrumentId ∧ (FlatBook.run pre).Amends e

/-- What amends to the end amends to the last but one. -/
theorem AmendingRun.of_concat {i : Str} {events : List (Event P)} {e : Event P} (h : AmendingRun i (events ++ [e])) :
    AmendingRun i events :=
  fun pre e' hpre => h pre e' (hpre.trans (List.prefix_append events [e]))

/-- No events amend. -/
theorem AmendingRun.nil (i : Str) : AmendingRun i ([] : List (Event P)) := fun pre e hpre => by simp at hpre

/-- A run goes on with an event that the flat book can amend. -/
theorem AmendingRun.concat {i : Str} {events : List (Event P)} {e : Event P} (h : AmendingRun i events)
    (hinst : e.instrumentId = i) (hamends : (FlatBook.run events).Amends e) : AmendingRun i (events ++ [e]) := by
  intro pre e' hpre
  rcases List.prefix_concat_iff.1 hpre with heq | hpre
  · obtain ⟨rfl, hlast⟩ := List.append_inj' heq rfl
    obtain rfl := List.singleton_inj.1 hlast
    exact ⟨hinst, hamends⟩
  · exact h pre e' hpre

/-- The book of a run is laid out as the flat model says. -/
theorem run_flat {i : Str} {events : List (Event P)} (hr : AmendingRun i events) :
    ∃ L, Layout (OrderBook.run i events) L ∧ Indexed (OrderBook.run i events) L ∧ flat L = FlatBook.run events := by
  induction events using List.reverseRecOn with
  | nil => exact ⟨[], Layout.init i, (fun x hx => by cases hx), rfl⟩
  | append_singleton events e ih =>
    obtain ⟨L, hL, hi, hflat⟩ := ih hr.of_concat
    obtain ⟨hinst, hamends⟩ := hr events e (List.prefix_refl _)
    rw [← hflat] at hamends
    obtain ⟨L', ha, hL'⟩ := hL.apply e
    refine ⟨L', ?_, ?_, ?_⟩
    · rw [OrderBook.run_concat]
      exact hL'
    · rw [OrderBook.run_concat]
      exact (indexed_apply_iff hL hi ha).2 (not_takesRestingId hL hi hamends)
    · rw [FlatBook.run_concat, ← hflat]
      exact (flat_apply hL hi ha (by rw [OrderBook.run_instrumentId]; exact hinst) hamends).1.symm

/-- For every run of one instrument whose Replaces amend as required, the book shows the view of the flat model, and an event
throws where the flat model rejects it. Bids are in strictly descending order of their prices, asks in strictly ascending order. The total
of a level is the sum of its quantities if that is an `int64_t`. -/
theorem book_refines_flat {i : Str} {events : List (Event P)} (hr : AmendingRun i events) :
    (OrderBook.run i events).view = (FlatBook.run events).view ∧
      (∀ e, e.instrumentId = i → (FlatBook.run events).Amends e →
        (((OrderBook.run i events).apply e).2.isSome ↔ (FlatBook.run events).apply e = none)) ∧
      ((FlatBook.run events).view.bids.map (·.price)).SortedGT ∧
      ((FlatBook.run events).view.asks.map (·.price)).SortedLT ∧
      ∀ side price, IsInt64 (((FlatBook.run events).at_ side price).map (·.qty)).sum →
        (FlatBook.run events).totalQty side price = (((FlatBook.run events).at_ side price).map (·.qty)).sum := by
  obtain ⟨L, hL, hi, hflat⟩ := run_flat hr
  have hprice : ∀ side (s : Finset P) (r : P → P → Prop) [DecidableRel r] [IsTrans P r] [Std.Antisymm r] [Std.Total r],
      ((s.sort r).map ((FlatBook.run events).level side)).map (·.price) = s.sort r := by
    intro side s r _ _ _ _
    rw [List.map_map]
    exact (List.map_congr_left fun p _ => rfl).trans (List.map_id _)
  refine ⟨?_, fun e hinst hamends => ?_, ?_, ?_, fun side price => wrap64_of_isInt64⟩
  · rw [← hflat]
    exact view_eq hL.toQueued
  · rw [← hflat] at hamends ⊢
    obtain ⟨L', ha, -⟩ := hL.apply e
    exact (flat_apply hL hi ha (by rw [OrderBook.run_instrumentId]; exact hinst) hamends).2.symm
  · rw [FlatBook.view, hprice]
    exact Finset.sortedGT_sort _
  · rw [FlatBook.view, hprice]
    exact Finset.sortedLT_sort _

/-- Of two orders of one price the first is amended down and keeps its place. -/
theorem book_refines_flat_amended :
    (OrderBook.run (P := ℤ) (ascii "X") [.order (orderOn "X" "A" .new "A" .buy 100 10),
      .order (orderOn "X" "B" .new "B" .buy 100 5), .order (orderOn "X" "C" .replaced "A" .buy 100 7)]).view =
    (FlatBook.run [.order (orderOn "X" "A" .new "A" .buy 100 10), .order (orderOn "X" "B" .new "B" .buy 100 5),
      .order (orderOn "X" "C" .replaced "A" .buy 100 7)]).view := by
  have h0 := AmendingRun.nil (P := ℤ) (ascii "X")
  have h1 := h0.concat (e := .order (orderOn "X" "A" .new "A" .buy 100 10)) rfl nofun
  have h2 := h1.concat (e := .order (orderOn "X" "B" .new "B" .buy 100 5)) rfl nofun
  have h3 := h2.concat (e := .order (orderOn "X" "C" .replaced "A" .buy 100 7)) rfl (by
    intro _ x hx
    cases hx
    decide)
  exact (book_refines_flat h3).1

end TradeSurveillance
