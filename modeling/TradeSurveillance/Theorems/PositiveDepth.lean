import TradeSurveillance.Ingestion.EventCodec
import TradeSurveillance.Theorems.ReplaceMeaning
import Mathlib.Algebra.Order.BigOperators.Group.List

/-!
# Positive quantities

Neither the parsers nor the book check the sign of a quantity. `positive_depth_iff`: along a run every order and every level that a
snapshot shows has a positive quantity, and no accepted execution makes an order larger, exactly when no message is accepted that brings
a quantity that is not positive, or a negative fill, or takes the total of a level out of `int64_t`: such a total comes out negative.
-/

namespace TradeSurveillance

variable {P : Type} [LinearOrder P]

namespace OrderBook

/-- Every level shown has a positive total, and so has every order a positive quantity. -/
def Positive (b : OrderBook P) : Prop := ∀ level ∈ b.snapshot.bids ++ b.snapshot.asks,
  0 < level.totalQty ∧ ∀ o ∈ level.orders, 0 < o.qty

/-- No order of the first book has a larger quantity in the second. -/
def NotIncreased (b b' : OrderBook P) : Prop :=
  ∀ side price, ∀ n ∈ b.queueAt side price, ∀ n' ∈ b'.queueAt side price, n'.ref = n.ref → n'.resting.qty ≤ n.resting.qty

/-- A message for the book that is accepted brings a positive quantity, which does not take the total of its level out of `int64_t`;
an execution brings one that is not negative. -/
def Sane (b : OrderBook P) (e : Event P) : Prop := e.instrumentId = b.instrumentId →
  match e with
  | .order o => match o.status with
    | .new => o.orderId ∉ b.orderIndex → 0 < o.qty ∧ b.qtyAtPrice o.side o.price + o.qty < 2 ^ 63
    | .cancelled => True
    | .replaced => ∀ entry n, b.target o.origOrderId = some (entry, n) →
        if o.price ≠ entry.price ∨ o.qty > n.resting.qty then
          o.orderId ∉ b.orderIndex.erase o.origOrderId → 0 < o.qty ∧ b.qtyAtPrice o.side o.price -
            (if n.resting.side = o.side ∧ entry.price = o.price then n.resting.qty else 0) + o.qty < 2 ^ 63
        else 0 < o.qty
  | .execution t => ∀ entry n, b.target t.orderId = some (entry, n) → t.qty ≤ n.resting.qty → 0 ≤ t.qty

end OrderBook

/-! ## Totals of a list -/

/-- The total quantity of a side and a price. -/
def totalOf (L : List (Placed P)) (side : Side) (price : P) : ℤ := ((queueOf L side price).map (·.resting.qty)).sum

/-- Positive quantities, and totals that do not overflow. -/
structure PositiveOrders (L : List (Placed P)) : Prop where
  qty : ∀ x ∈ L, 0 < x.node.resting.qty
  total : ∀ side price, totalOf L side price < 2 ^ 63

section Totals

variable {b : OrderBook P} {L : List (Placed P)} {x z : Placed P} {side : Side} {price : P}

/-- An order at the end adds its quantity to the total of its side and price. -/
theorem totalOf_append (L : List (Placed P)) (z : Placed P) (side : Side) (price : P) : totalOf (L ++ [z]) side price =
    totalOf L side price + if z.node.resting.side = side ∧ z.price = price then z.node.resting.qty else 0 := by
  rw [totalOf, queueOf_append, List.map_append, List.sum_append, totalOf]
  split_ifs with h
  · rw [← h.1, ← h.2, queueOf_singleton_self]
    simp
  · rw [queueOf_singleton_other h]
    rfl

/-- Up to their order, the orders are the others and the one at an address. -/
theorem perm_unlink (h : Queued b L) (hx : x ∈ L) : L.Perm (unlink L x.node.ref ++ [x]) := by
  have hsplit := (List.filter_append_perm (fun y : Placed P => y.node.ref ≠ x.node.ref) L).symm
  have hself : (L.filter fun y => !decide (y.node.ref ≠ x.node.ref)) = [x] := by
    have hnodup : (L.filter fun y => !decide (y.node.ref ≠ x.node.ref)).Nodup := (List.Nodup.of_map _ h.refs).filter _
    refine (List.perm_singleton.1 ((List.perm_ext_iff_of_nodup hnodup (List.nodup_singleton x)).2 fun y => ?_))
    rw [List.mem_filter, List.mem_singleton]
    constructor
    · rintro ⟨hy, hr⟩
      exact h.eq_of_ref hy hx (by simpa using hr)
    · rintro rfl
      exact ⟨hx, by simp⟩
  rwa [hself] at hsplit

/-- Up to their order, amending an order is unlinking it and adding the amended one. -/
theorem perm_amend (h : Queued b L) (hx : x ∈ L) (resting : RestingOrder) :
    (amend L x.node.ref resting).Perm (unlink L x.node.ref ++ [⟨x.price, ⟨x.node.ref, resting⟩⟩]) := by
  have hmap := (perm_unlink h hx).map fun y : Placed P => (⟨y.price, y.node.assign x.node.ref resting⟩ : Placed P)
  rw [List.map_append, List.map_singleton] at hmap
  refine hmap.trans (.of_eq (congr_arg₂ _ ?_ ?_))
  · refine (List.map_congr_left fun y hy => ?_).trans (List.map_id _)
    rw [Node.assign, if_neg (mem_unlink.1 hy).2]
    rfl
  · rw [Node.assign, if_pos rfl]

/-- A total does not depend on the order of the orders. -/
theorem totalOf_perm {L' : List (Placed P)} (h : L.Perm L') (side : Side) (price : P) : totalOf L side price = totalOf L' side price :=
  (((h.filter _).map _).map _).sum_eq

/-- Unlinking an order takes its quantity from the total of its side and price. -/
theorem totalOf_unlink (h : Queued b L) (hx : x ∈ L) (side : Side) (price : P) : totalOf (unlink L x.node.ref) side price =
    totalOf L side price - if x.node.resting.side = side ∧ x.price = price then x.node.resting.qty else 0 := by
  rw [totalOf_perm (perm_unlink h hx), totalOf_append, add_sub_cancel_right]

/-- The total of an amended list. -/
theorem totalOf_amend (h : Queued b L) (hx : x ∈ L) (resting : RestingOrder) (side : Side) (price : P) :
    totalOf (amend L x.node.ref resting) side price = totalOf (unlink L x.node.ref) side price +
      if resting.side = side ∧ x.price = price then resting.qty else 0 := by
  rw [totalOf_perm (perm_amend h hx resting), totalOf_append]

namespace PositiveOrders

/-- The total of positive quantities is not negative. -/
theorem total_nonneg (h : PositiveOrders L) (side : Side) (price : P) : 0 ≤ totalOf L side price := by
  refine List.sum_nonneg fun q hq => ?_
  obtain ⟨n, hn, rfl⟩ := List.mem_map.1 hq
  obtain ⟨x, hx, rfl, -, -⟩ := mem_queueOf.1 hn
  exact (h.qty x hx).le

/-- What the book adds up is exact. -/
theorem sum64_eq (h : PositiveOrders L) (side : Side) (price : P) :
    sum64 ((queueOf L side price).map (·.resting.qty)) = totalOf L side price :=
  sum64_of_isInt64 ⟨le_trans (by decide) (h.total_nonneg side price), h.total side price⟩

/-- The 64-bit total of a level is that of its orders, as long as none overflows. -/
theorem qtyAtPrice_eq (h : PositiveOrders L) (hq : Queued b L) (side : Side) (price : P) :
    b.qtyAtPrice side price = totalOf L side price := by
  rw [OrderBook.qtyAtPrice, hq.levels, levelOf]
  split_ifs with hnil
  · rw [totalOf, hnil]
    rfl
  · exact h.sum64_eq side price

/-- Unlinking an order does not raise a total. -/
theorem total_unlink_lt (h : PositiveOrders L) (hq : Queued b L) (hx : x ∈ L) (side : Side) (price : P) :
    totalOf (unlink L x.node.ref) side price < 2 ^ 63 := by
  have hpos := h.qty x hx
  have hlt := h.total side price
  rw [totalOf_unlink hq hx]
  split_ifs <;> omega

/-- The quantities and totals of the same orders in another order are the same. -/
theorem perm {L' : List (Placed P)} (h : PositiveOrders L) (hperm : L.Perm L') : PositiveOrders L' :=
  ⟨fun x hx => h.qty x (hperm.mem_iff.2 hx), fun side price => totalOf_perm hperm side price ▸ h.total side price⟩

/-- What is left of positive orders is positive, and its totals do not overflow. -/
theorem unlink (h : PositiveOrders L) (hq : Queued b L) (hx : x ∈ L) : PositiveOrders (unlink L x.node.ref) :=
  ⟨fun y hy => h.qty y (mem_unlink.1 hy).1, h.total_unlink_lt hq hx⟩

/-- An order's quantity is an `int64_t`, being part of a total. -/
theorem qty_lt (h : PositiveOrders L) (hx : x ∈ L) : x.node.resting.qty < 2 ^ 63 := by
  have hmem : x.node.resting.qty ∈ (queueOf L x.node.resting.side x.price).map (·.resting.qty) :=
    List.mem_map_of_mem (f := fun n : Node => n.resting.qty) (mem_queueOf_self hx)
  refine lt_of_le_of_lt (List.single_le_sum ?_ _ hmem) (h.total x.node.resting.side x.price)
  intro q hq
  obtain ⟨n, hn, rfl⟩ := List.mem_map.1 hq
  obtain ⟨y, hy, rfl, -, -⟩ := mem_queueOf.1 hn
  exact (h.qty y hy).le

/-- One more order keeps the list positive exactly when its quantity is positive and fits. -/
theorem append_iff (h : PositiveOrders L) (z : Placed P) : PositiveOrders (L ++ [z]) ↔
    0 < z.node.resting.qty ∧ totalOf L z.node.resting.side z.price + z.node.resting.qty < 2 ^ 63 := by
  constructor
  · intro h'
    have hlt := h'.total z.node.resting.side z.price
    rw [totalOf_append, if_pos ⟨rfl, rfl⟩] at hlt
    exact ⟨h'.qty z (List.mem_append_right _ List.mem_cons_self), hlt⟩
  · rintro ⟨hpos, hlt⟩
    refine ⟨fun y hy => ?_, fun side price => ?_⟩
    · rcases List.mem_append.1 hy with hy | hy
      · exact h.qty y hy
      · rwa [List.mem_singleton.1 hy]
    · rw [totalOf_append]
      split_ifs with hz
      · rwa [← hz.1, ← hz.2]
      · simpa using h.total side price

/-- An order whose quantity does not grow keeps the list positive exactly when it stays positive. -/
theorem amend_iff (h : PositiveOrders L) (hq : Queued b L) (hx : x ∈ L) (resting : RestingOrder)
    (hle : resting.qty ≤ x.node.resting.qty) (hside : resting.side = x.node.resting.side) :
    PositiveOrders (amend L x.node.ref resting) ↔ 0 < resting.qty := by
  have hperm := perm_amend hq hx resting
  have happend := (h.unlink hq hx).append_iff ⟨x.price, ⟨x.node.ref, resting⟩⟩
  have hlt := h.total x.node.resting.side x.price
  have htotal := totalOf_unlink hq hx resting.side x.price
  rw [if_pos ⟨hside.symm, rfl⟩, hside] at htotal
  constructor
  · intro h'
    exact (happend.1 (h'.perm hperm)).1
  · intro hpos
    refine (happend.2 ⟨hpos, ?_⟩).perm hperm.symm
    simp only [hside]
    omega

end PositiveOrders

end Totals

/-! ## Snapshots -/

/-- The levels listed are those of the map, summed up. -/
theorem mem_ascending {levels : PriceLevels P} {level : PriceLevel P} :
    level ∈ OrderBook.ascending levels ↔ ∃ price q, levels.lookup price = some q ∧ level = OrderBook.levelSummary price q := by
  simp only [OrderBook.ascending, List.mem_map, Finset.mem_sort, Finmap.mem_keys]
  constructor
  · rintro ⟨price, hmem, rfl⟩
    obtain ⟨q, hq⟩ := Finmap.mem_iff.1 hmem
    exact ⟨price, q, hq, by rw [hq]; rfl⟩
  · rintro ⟨price, q, hq, rfl⟩
    exact ⟨price, Finmap.mem_of_lookup_eq_some hq, by rw [hq]; rfl⟩

/-- The levels of a snapshot are those of the book. -/
theorem OrderBook.mem_snapshot {b : OrderBook P} {level : PriceLevel P} : level ∈ b.snapshot.bids ++ b.snapshot.asks ↔
    ∃ side price q, (b.levelsFor side).lookup price = some q ∧ level = levelSummary price q := by
  simp only [snapshot, List.mem_append, List.mem_reverse, mem_ascending]
  constructor
  · rintro (⟨price, q, hq, rfl⟩ | ⟨price, q, hq, rfl⟩)
    · exact ⟨.buy, price, q, hq, rfl⟩
    · exact ⟨.sell, price, q, hq, rfl⟩
  · rintro ⟨side, price, q, hq, rfl⟩
    cases side with
    | buy => exact .inl ⟨price, q, hq, rfl⟩
    | sell => exact .inr ⟨price, q, hq, rfl⟩

section Steps

variable {b : OrderBook P} {L : List (Placed P)} {x : Placed P}

/-- What a snapshot shows of a book whose totals have not come round. -/
theorem Layout.positive_iff (h : Layout b L) (hbound : ∀ side price, totalOf L side price < 2 ^ 64) :
    b.Positive ↔ PositiveOrders L := by
  have hlevel : ∀ side price, queueOf L side price ≠ [] →
      OrderBook.levelSummary price (queueOf L side price) ∈ b.snapshot.bids ++ b.snapshot.asks := by
    intro side price hne
    exact OrderBook.mem_snapshot.2 ⟨side, price, _, by rw [h.levels, levelOf, if_neg hne], rfl⟩
  constructor
  · intro hp
    refine ⟨fun x hx => ?_, fun side price => ?_⟩
    · have hmem := mem_queueOf_self hx
      exact (hp _ (hlevel _ _ (List.ne_nil_of_mem hmem))).2 _ (List.mem_map_of_mem hmem)
    · by_cases hne : queueOf L side price = []
      · rw [totalOf, hne]
        decide
      · -- a total that did not fit would be shown as a negative one
        have hshown : 0 < sum64 ((queueOf L side price).map (·.resting.qty)) := (hp _ (hlevel side price hne)).1
        rw [sum64_eq] at hshown
        by_contra hge
        exact (wrap64_of_ge (not_lt.1 hge) (hbound side price)).not_gt hshown
  · intro hp level hlevel
    obtain ⟨side, price, q, hq, rfl⟩ := OrderBook.mem_snapshot.1 hlevel
    rw [h.levels, levelOf, Option.ite_none_left_eq_some, Option.some.injEq] at hq
    obtain ⟨hne, rfl⟩ := hq
    have horders : ∀ n ∈ queueOf L side price, 0 < n.resting.qty := by
      intro n hn
      obtain ⟨y, hy, rfl, -, -⟩ := mem_queueOf.1 hn
      exact hp.qty y hy
    have hpos : 0 < totalOf L side price := by
      refine List.sum_pos _ (fun q hq => ?_) (by simpa using hne)
      obtain ⟨n, hn, rfl⟩ := List.mem_map.1 hq
      exact horders n hn
    refine ⟨?_, fun o ho => ?_⟩
    · rw [OrderBook.levelSummary, hp.sum64_eq side price]
      exact hpos
    · obtain ⟨n, hn, rfl⟩ := List.mem_map.1 ho
      exact horders n hn

/-! ## One event -/

/-- What becomes of a single order that keeps its place. -/
theorem Layout.notIncreased_amend_iff {b' : OrderBook P} (h : Layout b L) (hx : x ∈ L) {qty : ℤ}
    (h' : Layout b' (amend L x.node.ref { x.node.resting with qty := qty })) : b.NotIncreased b' ↔ qty ≤ x.node.resting.qty := by
  have hmem := amended_mem hx { x.node.resting with qty := qty }
  constructor
  · intro hni
    refine hni x.node.resting.side x.price x.node ?_ ⟨x.node.ref, { x.node.resting with qty := qty }⟩ ?_ rfl
    · rw [h.queueAt_eq]
      exact mem_queueOf_self hx
    · rw [h'.queueAt_eq]
      exact mem_queueOf_self hmem
  · intro hle side price n hn n' hn' hr
    rw [h.queueAt_eq] at hn
    rw [h'.queueAt_eq] at hn'
    obtain ⟨y, hy, rfl, -, -⟩ := mem_queueOf.1 hn
    obtain ⟨y', hy', rfl, -, -⟩ := mem_queueOf.1 hn'
    rcases mem_amend.1 hy' with ⟨hy', -⟩ | ⟨z, hz, hzr, rfl⟩
    · rw [h.eq_of_ref hy' hy hr]
    · obtain rfl := h.eq_of_ref hx hy hr
      exact hle

/-- Unlinking an order increases no quantity. -/
theorem Layout.notIncreased_unlink {b' : OrderBook P} {ref : ℕ} (h : Layout b L) (h' : Layout b' (unlink L ref)) : b.NotIncreased b' := by
  intro side price n hn n' hn' hr
  rw [h.queueAt_eq] at hn
  rw [h'.queueAt_eq] at hn'
  obtain ⟨y, hy, rfl, -, -⟩ := mem_queueOf.1 hn
  obtain ⟨y', hy', rfl, -, -⟩ := mem_queueOf.1 hn'
  rw [h.eq_of_ref (mem_unlink.1 hy').1 hy hr]

/-- A Replace of a resting order. -/
theorem Layout.sane_replace_iff (h : Layout b L) (hp : PositiveOrders L) {o : Order P} (hi : o.instrumentId = b.instrumentId) (hst : o.status = .replaced)
    (hx : x ∈ L) (hid : x.id = o.origOrderId) (he : b.orderIndex.lookup x.id = some x.entry) : b.Sane (.order o) ↔
      if losesPriority o x then
        o.orderId ∉ b.orderIndex.erase x.id → 0 < o.qty ∧ totalOf (unlink L x.node.ref) o.side o.price + o.qty < 2 ^ 63
      else 0 < o.qty := by
  simp only [OrderBook.Sane, hst, ← hid, h.target_eq hx he, hp.qtyAtPrice_eq h.toQueued, totalOf_unlink h.toQueued hx]
  constructor
  · intro hs
    exact hs hi _ _ rfl
  · rintro hs - entry n ht
    obtain ⟨rfl, rfl⟩ := Prod.mk.inj (Option.some.inj ht)
    exact hs

/-- An execution of a resting order. -/
theorem Layout.sane_execution_iff (h : Layout b L) {t : Execution P} (hi : t.instrumentId = b.instrumentId) (hx : x ∈ L)
    (hid : x.id = t.orderId) (he : b.orderIndex.lookup x.id = some x.entry) :
    b.Sane (.execution t) ↔ (t.qty ≤ x.node.resting.qty → 0 ≤ t.qty) := by
  simp only [OrderBook.Sane, ← hid, h.target_eq hx he]
  constructor
  · intro hs
    exact hs hi _ _ rfl
  · rintro hs - entry n ht
    obtain ⟨rfl, rfl⟩ := Prod.mk.inj (Option.some.inj ht)
    exact hs

/-- One event brings no total round. -/
theorem total_applied_lt (h : Layout b L) (hp : PositiveOrders L) {e : Event P} (hqty : IsInt64 e.qty)
    {b' : OrderBook P} {thrown : Option Thrown} {L' : List (Placed P)} (ha : Applied b L e b' thrown L') (side : Side) (price : P) :
    totalOf L' side price < 2 ^ 64 := by
  have hq := h.toQueued
  have hsame : totalOf L side price < 2 ^ 64 := (hp.total side price).trans (by decide)
  have hunlink : ∀ {x : Placed P}, x ∈ L → totalOf (unlink L x.node.ref) side price < 2 ^ 63 :=
    fun hx => hp.total_unlink_lt hq hx side price
  have hadd : ∀ {t q : ℤ} {c : Prop} [Decidable c], t < 2 ^ 63 → IsInt64 q → (t + if c then q else 0) < 2 ^ 64 := by
    rintro t q c _ ht ⟨-, hq⟩
    split_ifs <;> omega
  cases ha with
  | mismatch _ => exact hsame
  | duplicate _ _ _ => exact hsame
  | absent _ _ _ => exact hsame
  | unknown _ _ _ => exact hsame
  | unfilled _ _ => exact hsame
  | overfilled _ _ _ _ _ => exact hsame
  | inserted _ _ _ _ =>
    rw [totalOf_append]
    exact hadd (hp.total side price) hqty
  | cancelled _ _ hx _ _ _ => exact (hunlink hx).trans (by decide)
  | amended _ _ hx _ _ _ _ =>
    rw [totalOf_amend hq hx]
    exact hadd (hunlink hx) hqty
  | moved _ _ hx _ _ _ _ _ =>
    rw [totalOf_append]
    exact hadd (hunlink hx) hqty
  | movedDuplicate _ _ hx _ _ _ _ _ => exact (hunlink hx).trans (by decide)
  | filled _ hx _ _ _ _ _ => exact (hunlink hx).trans (by decide)
  | partFilled _ hx _ _ _ _ _ =>
    rw [totalOf_amend hq hx]
    exact hadd (hunlink hx) (isInt64_wrap64 _)

/-- One event keeps everything positive and lets no fill grow an order exactly when it is sane. -/
theorem positive_apply_iff (h : Layout b L) (hp : PositiveOrders L) {e : Event P} (hqty : IsInt64 e.qty) {b' : OrderBook P}
    {thrown : Option Thrown} {L' : List (Placed P)} (ha : Applied b L e b' thrown L') (h' : Layout b' L') :
    (PositiveOrders L' ∧ ∀ t, e = .execution t → thrown = none → b.NotIncreased b') ↔ b.Sane e := by
  have hq := h.toQueued
  have hnofill : ∀ (o : Order P) (Q : Prop), (Q ∧ ∀ t, Event.order o = .execution t → thrown = none → b.NotIncreased b') ↔ Q :=
    fun o Q => and_iff_left fun t ht => by cases ht
  cases ha with
  | mismatch hinst => exact iff_of_true ⟨hp, fun t _ ht => by cases ht⟩ fun hi => absurd hi hinst
  | @duplicate o _ _ hst hid =>
    refine iff_of_true ⟨hp, fun t _ ht => by cases ht⟩ fun _ => ?_
    simp only [hst]
    exact fun hnot => absurd hid hnot
  | @inserted o _ hi hst hid _ =>
    refine (hnofill o _).trans ((hp.append_iff _).trans ?_)
    simp only [OrderBook.Sane, hst, hp.qtyAtPrice_eq hq]
    exact ⟨fun hs _ _ => hs, fun hs => hs hi hid⟩
  | @absent o _ hst _ =>
    refine iff_of_true ⟨hp, fun t ht => by cases ht⟩ fun _ => ?_
    simp only [hst]
  | @cancelled o _ _ _ hst hx _ _ _ =>
    refine iff_of_true ⟨hp.unlink hq hx, fun t ht => by cases ht⟩ fun _ => ?_
    simp only [hst]
  | @unknown o _ _ hst hnone =>
    refine iff_of_true ⟨hp, fun t ht => by cases ht⟩ fun _ => ?_
    simp only [hst, OrderBook.target, hnone]
    exact fun _ _ ht => by cases ht
  | @amended o b' x hi hst hx hid he hkeep _ =>
    obtain ⟨-, hqty⟩ := not_or.1 hkeep
    rw [h.sane_replace_iff hp hi hst hx hid he, if_neg hkeep]
    exact (hnofill o _).trans (hp.amend_iff hq hx { x.node.resting with qty := o.qty, orderId := o.orderId } (not_lt.1 hqty) rfl)
  | @moved o b' x hi hst hx hid he hlose hdup _ =>
    rw [h.sane_replace_iff hp hi hst hx hid he, if_pos hlose]
    refine (hnofill o _).trans (((hp.unlink hq hx).append_iff _).trans ?_)
    exact ⟨fun hs _ => hs, fun hs => hs hdup⟩
  | @movedDuplicate o b' x _ hi hst hx hid he hlose hdup _ =>
    rw [h.sane_replace_iff hp hi hst hx hid he, if_pos hlose]
    exact iff_of_true ⟨hp.unlink hq hx, fun t ht => by cases ht⟩ fun hnot => absurd hdup hnot
  | @unfilled t _ hi hnone =>
    refine iff_of_true ⟨hp, fun t _ ht => by cases ht⟩ fun _ => ?_
    simp only [OrderBook.target, hnone]
    exact fun _ _ ht => by cases ht
  | @overfilled t x _ hi hx hid he hover =>
    rw [h.sane_execution_iff hi hx hid he]
    exact iff_of_true ⟨hp, fun t _ ht => by cases ht⟩ fun hle => absurd hle (not_le.2 hover)
  | @filled t b' x hi hx hid he hle hzero _ =>
    rw [h.sane_execution_iff hi hx hid he]
    refine iff_of_true ⟨hp.unlink hq hx, fun _ _ _ => h.notIncreased_unlink h'⟩ fun _ => ?_
    -- a remainder that comes out as 0 is 0
    have hpos := hp.qty x hx
    have hlow : -2 ^ 63 ≤ t.qty := hqty.1
    by_contra hneg
    by_cases hover : x.node.resting.qty - t.qty < 2 ^ 63
    · rw [wrap64_of_isInt64 ⟨by omega, hover⟩] at hzero
      omega
    · exact (wrap64_of_ge (not_lt.1 hover) (by have := hp.qty_lt hx; omega)).ne hzero
  | @partFilled t b' x hi hx hid he hle hne _ =>
    rw [h.sane_execution_iff hi hx hid he, forall_prop_of_true hle]
    have hni := h.notIncreased_amend_iff hx h'
    have hpos := hp.qty x hx
    have hlt := hp.qty_lt hx
    constructor
    · rintro ⟨hp', hfill⟩
      have hgrow := hni.1 (hfill t rfl rfl)
      have hpos' : 0 < wrap64 (x.node.resting.qty - t.qty) := hp'.qty _ (amended_mem hx _)
      have hlow : -2 ^ 63 ≤ t.qty := hqty.1
      by_contra hneg
      by_cases hover : x.node.resting.qty - t.qty < 2 ^ 63
      · rw [wrap64_of_isInt64 ⟨by omega, hover⟩] at hgrow
        omega
      · exact (wrap64_of_ge (not_lt.1 hover) (by omega)).not_gt hpos'
    · intro hfill
      have hfits : wrap64 (x.node.resting.qty - t.qty) = x.node.resting.qty - t.qty := wrap64_of_isInt64 ⟨by omega, by omega⟩
      rw [hfits] at hne
      have hle' : wrap64 (x.node.resting.qty - t.qty) ≤ x.node.resting.qty := by omega
      have hpos' : 0 < wrap64 (x.node.resting.qty - t.qty) := by omega
      exact ⟨(hp.amend_iff hq hx { x.node.resting with qty := wrap64 (x.node.resting.qty - t.qty) } hle' rfl).2 hpos',
        fun _ _ _ => hni.2 hle'⟩

end Steps

/-! ## Every run -/

/-- After every call of a run all quantities shown are positive, and no accepted execution has made an order larger, exactly when every
event is sane. -/
theorem positive_depth_iff (i : Str) (events : List (Event P)) (hqty : ∀ e ∈ events, IsInt64 e.qty) :
    (∀ pre e, pre ++ [e] <+: events → ((OrderBook.run i pre).apply e).1.Positive ∧
        ∀ t, e = .execution t → ((OrderBook.run i pre).apply e).2 = none →
          (OrderBook.run i pre).NotIncreased ((OrderBook.run i pre).apply e).1) ↔
      ∀ pre e, pre ++ [e] <+: events → (OrderBook.run i pre).Sane e := by
  have hempty : PositiveOrders ([] : List (Placed P)) := ⟨fun x hx => (nomatch hx), fun side price => (by decide : (0 : ℤ) < 2 ^ 63)⟩
  -- the orders of a book whose calls have all shown positive quantities
  have hstep : ∀ pre e, pre ++ [e] <+: events → ∀ L, Layout (OrderBook.run i pre) L → PositiveOrders L →
      ∃ L', Layout ((OrderBook.run i pre).apply e).1 L' ∧ (((OrderBook.run i pre).apply e).1.Positive ↔ PositiveOrders L') ∧
        ((PositiveOrders L' ∧ ∀ t, e = .execution t → ((OrderBook.run i pre).apply e).2 = none →
          (OrderBook.run i pre).NotIncreased ((OrderBook.run i pre).apply e).1) ↔ (OrderBook.run i pre).Sane e) := by
    intro pre e hpre L hL hp
    obtain ⟨L', ha, hL'⟩ := hL.apply e
    have he : IsInt64 e.qty := hqty e (hpre.subset (List.mem_append_right _ List.mem_cons_self))
    exact ⟨L', hL', hL'.positive_iff (total_applied_lt hL hp he ha), positive_apply_iff hL hp he ha hL'⟩
  constructor
  · intro hall
    have hpositive : ∀ pre, pre <+: events → ∃ L, Layout (OrderBook.run i pre) L ∧ PositiveOrders L := by
      intro pre
      induction pre using List.reverseRecOn with
      | nil => exact fun _ => ⟨[], Layout.init i, hempty⟩
      | append_singleton before last ih =>
        intro hbefore
        obtain ⟨L, hL, hp⟩ := ih ((List.prefix_append _ _).trans hbefore)
        obtain ⟨L', hL', hiff, -⟩ := hstep before last hbefore L hL hp
        rw [OrderBook.run_concat]
        exact ⟨L', hL', hiff.1 (hall before last hbefore).1⟩
    intro pre e hpre
    obtain ⟨L, hL, hp⟩ := hpositive pre ((List.prefix_append _ _).trans hpre)
    obtain ⟨L', -, hiff, hsane⟩ := hstep pre e hpre L hL hp
    exact hsane.1 ⟨hiff.1 (hall pre e hpre).1, (hall pre e hpre).2⟩
  · intro hsane
    have hpositive : ∀ pre, pre <+: events → ∃ L, Layout (OrderBook.run i pre) L ∧ PositiveOrders L := by
      intro pre
      induction pre using List.reverseRecOn with
      | nil => exact fun _ => ⟨[], Layout.init i, hempty⟩
      | append_singleton before last ih =>
        intro hbefore
        obtain ⟨L, hL, hp⟩ := ih ((List.prefix_append _ _).trans hbefore)
        obtain ⟨L', hL', -, hiff⟩ := hstep before last hbefore L hL hp
        rw [OrderBook.run_concat]
        exact ⟨L', hL', (hiff.2 (hsane before last hbefore)).1⟩
    intro pre e hpre
    obtain ⟨L, hL, hp⟩ := hpositive pre ((List.prefix_append _ _).trans hpre)
    obtain ⟨L', -, hiff, hsane'⟩ := hstep pre e hpre L hL hp
    obtain ⟨hp', hfill⟩ := hsane'.2 (hsane pre e hpre)
    exact ⟨hiff.2 hp', hfill⟩

/-- A New of ten shares. -/
theorem positive_depth_ten : (OrderBook.run (ascii "X") [.order (orderOn "X" "A" .new "" .buy (100 : ℚ) 10)]).Positive := by
  refine ((positive_depth_iff (ascii "X") [.order (orderOn "X" "A" .new "" .buy (100 : ℚ) 10)] (by decide)).2 ?_ []
    (.order (orderOn "X" "A" .new "" .buy (100 : ℚ) 10)) (List.prefix_refl _)).1
  intro pre e hpre
  obtain ⟨rfl, rfl⟩ : pre = [] ∧ e = .order (orderOn "X" "A" .new "" .buy 100 10) := by
    have hlength : pre.length = 0 := by simpa using hpre.length_le
    obtain rfl := List.eq_nil_of_length_eq_zero hlength
    exact ⟨rfl, by simpa using hpre⟩
  exact fun _ _ => by decide +kernel

/-- The parser delivers a New of quantity zero, which rests in the book, and an execution of quantity -5, which makes an order of 10 one
of 15. -/
theorem lingering_and_growing :
    let zero : Event ℚ := .order (orderOn "X" "A" .new "" .buy 100 0)
    let ten : Event ℚ := .order (orderOn "X" "A" .new "" .buy 100 10)
    let fill : Event ℚ := .execution (selfTrade "X" "A" 100 (-5))
    decode (encode zero) = .ok zero ∧ decode (encode fill) = .ok fill ∧
      ((OrderBook.run (ascii "X") [zero]).snapshot.bids = [⟨100, 0, [⟨ascii "A", ascii "ACC", 0⟩]⟩] ∧
      ¬(OrderBook.run (ascii "X") [zero]).Positive) ∧
      ((OrderBook.run (ascii "X") [ten]).apply fill).2 = none ∧
      (OrderBook.run (ascii "X") [ten, fill]).snapshot.bids = [⟨100, 15, [⟨ascii "A", ascii "ACC", 15⟩]⟩] := by
  intro zero ten fill
  have hdecode : decode (encode zero) = .ok zero := by decide +kernel
  have hfill : decode (encode fill) = .ok fill := by decide +kernel
  have hshown : (OrderBook.run (ascii "X") [zero]).snapshot.bids = [⟨100, 0, [⟨ascii "A", ascii "ACC", 0⟩]⟩] := by decide +kernel
  refine ⟨hdecode, hfill, ⟨hshown, fun hp => ?_⟩, by decide +kernel, by decide +kernel⟩
  have hpos := (hp ⟨100, 0, [⟨ascii "A", ascii "ACC", 0⟩]⟩ (by rw [hshown]; simp)).1
  exact lt_irrefl _ hpos

end TradeSurveillance
