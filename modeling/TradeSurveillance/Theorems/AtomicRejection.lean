import TradeSurveillance.Lemmas.PipelineBooks
import TradeSurveillance.Theorems.BookIndex

/-!
# What a rejected event leaves behind

Every check of `apply` but one precedes the first write. A Replace that loses its priority takes the order it amends out of the
book and only then, in `insert_new`, meets the check for a duplicate id: `rejection_atomic_iff` says that this is the one way for an
event that is rejected to change what rests in a book, and in the pipeline that skips it.
-/

namespace TradeSurveillance

variable {P : Type} [LinearOrder P]

namespace OrderBook

/-- The same orders rest in two books: the queues and the index are equal, and so is all that snapshots and queries show of
them. -/
structure SameResting (b b' : OrderBook P) : Prop where
  bids : b'.bids = b.bids
  asks : b'.asks = b.asks
  orderIndex : b'.orderIndex = b.orderIndex
  snapshotBids : b'.snapshot.bids = b.snapshot.bids
  snapshotAsks : b'.snapshot.asks = b.snapshot.asks
  bestPrice : ∀ side, b'.bestPrice side = b.bestPrice side
  qtyAtPrice : ∀ side price, b'.qtyAtPrice side price = b.qtyAtPrice side price
  orderCountAtPrice : ∀ side price, b'.orderCountAtPrice side price = b.orderCountAtPrice side price

/-- Snapshots and queries read the queues only. -/
theorem SameResting.of_fields {b b' : OrderBook P} (hb : b'.bids = b.bids) (ha : b'.asks = b.asks)
    (hi : b'.orderIndex = b.orderIndex) : SameResting b b' := by
  have hl : ∀ side, b'.levelsFor side = b.levelsFor side := fun side => by cases side <;> assumption
  refine ⟨hb, ha, hi, ?_, ?_, fun side => ?_, fun side price => ?_, fun side price => ?_⟩
  · simp only [snapshot, hb]
  · simp only [snapshot, ha]
  · cases side <;> simp only [OrderBook.bestPrice, hb, ha]
  · simp only [OrderBook.qtyAtPrice, hl]
  · simp only [OrderBook.orderCountAtPrice, hl]

theorem SameResting.refl (b : OrderBook P) : SameResting b b := .of_fields rfl rfl rfl

theorem SameResting.tick (b : OrderBook P) (timestampNs : ℤ) : SameResting b (b.tick timestampNs) := .of_fields rfl rfl rfl

/-- The event is a Replace that loses the priority of the order it amends and has the id of another resting order. -/
def RejectedAfterRemoval (b : OrderBook P) : Event P → Prop
  | .order o => o.instrumentId = b.instrumentId ∧ o.status = .replaced ∧ o.orderId ≠ o.origOrderId ∧
      o.orderId ∈ b.orderIndex ∧
      ∃ e n, b.target o.origOrderId = some (e, n) ∧ (o.price ≠ e.price ∨ o.qty > n.resting.qty)
  | .execution _ => False

end OrderBook

/-- One rejected event. -/
theorem Applied.sameResting_iff {b b' : OrderBook P} {L L' : List (Placed P)} {e : Event P} {thrown : Thrown} (h : Layout b L)
    (ha : Applied b L e b' (some thrown) L') : OrderBook.SameResting b b' ↔ ¬b.RejectedAfterRemoval e := by
  -- the checks that precede every write: nothing is written, and the event is no Replace that loses its priority
  have hkeep : OrderBook.SameResting b b' → ¬b.RejectedAfterRemoval e →
      (OrderBook.SameResting b b' ↔ ¬b.RejectedAfterRemoval e) := fun h1 h2 => iff_of_true h1 h2
  cases ha with
  | mismatch hinst =>
    refine hkeep (.refl b) ?_
    cases e with
    | order o => exact fun hr => hinst hr.1
    | execution t => exact fun hr => hr
  | @duplicate o what _ hst _ => exact hkeep (.tick b o.timestampNs) fun hr => by rw [hr.2.1] at hst; cases hst
  | @unknown o what _ _ hnone =>
    refine hkeep (.tick b o.timestampNs) ?_
    intro hr
    obtain ⟨-, -, -, -, e, n, ht, -⟩ := hr
    rw [OrderBook.target, hnone] at ht
    cases ht
  | @movedDuplicate o b' x what hinst hst hx hid he hlose hdup hindex =>
    have hdup' : o.orderId ≠ x.id ∧ o.orderId ∈ b.orderIndex := Finmap.mem_erase.1 hdup
    refine iff_of_false (fun hs => ?_) (not_not.2 ?_)
    · have := hs.orderIndex
      rw [hindex] at this
      rw [← this, Finmap.lookup_erase] at he
      cases he
    · exact ⟨hinst, hst, hid ▸ hdup'.1, hdup'.2, x.entry, x.node, hid ▸ h.target_eq hx he, hlose⟩
  | @unfilled t what _ _ => exact hkeep (.tick b t.timestampNs) fun hr => hr
  | @overfilled t x what _ _ _ _ _ => exact hkeep (.tick b t.timestampNs) fun hr => hr

/-- A rejected call leaves what rests in the book as it was exactly when it is no Replace that loses priority and takes the id of
another resting order; the pipeline catches whatever is thrown, counts the event, runs no detector, and goes on with the books it had
exactly then. -/
theorem rejection_atomic_iff (detectors : List (IDetector P)) (accounts : AccountRegistry) (events : List (Event P))
    (e : Event P) :
    (∀ i thrown, ((OrderBook.run i events).apply e).2 = some thrown →
      (∃ what, thrown = .invalidArgument what) ∧
        (OrderBook.SameResting (OrderBook.run i events) ((OrderBook.run i events).apply e).1 ↔
          ¬(OrderBook.run i events).RejectedAfterRemoval e)) ∧
    let p := LivePipeline.run detectors accounts events
    ((p.process e).2.skippedInconsistent = true →
      (p.process e).1.inconsistentEventsSkipped = p.inconsistentEventsSkipped + 1 ∧ (p.process e).2.alerts = [] ∧
        (p.process e).1.detectors = p.detectors ∧
        ((∀ i, OrderBook.SameResting (p.bookOf i) ((p.process e).1.bookOf i)) ↔
          ¬(p.bookOf e.instrumentId).RejectedAfterRemoval e)) := by
  have hbook : ∀ i (events : List (Event P)) thrown, ((OrderBook.run i events).apply e).2 = some thrown →
      (OrderBook.SameResting (OrderBook.run i events) ((OrderBook.run i events).apply e).1 ↔
        ¬(OrderBook.run i events).RejectedAfterRemoval e) := by
    intro i events thrown ht
    obtain ⟨L, hL⟩ := OrderBook.run_layout i events
    obtain ⟨L', ha, -⟩ := hL.apply e
    rw [ht] at ha
    exact ha.sameResting_iff hL
  refine ⟨fun i thrown ht => ⟨OrderBook.run_thrown i events e ht, hbook i events thrown ht⟩, ?_⟩
  intro p hskip
  rw [LivePipeline.process_skipped, Option.isSome_iff_exists] at hskip
  obtain ⟨thrown, ht⟩ := hskip
  obtain ⟨hdet, halerts, hcount⟩ := p.process_of_thrown ht
  refine ⟨hcount, halerts, hdet, ?_⟩
  have hself := hbook e.instrumentId (eventsOf e.instrumentId events) thrown
  rw [← LivePipeline.run_bookOf detectors accounts] at hself
  rw [← hself ht]
  constructor
  · intro hall
    have := hall e.instrumentId
    rwa [LivePipeline.process_bookOf_self] at this
  · intro hs i
    by_cases hi : i = e.instrumentId
    · rw [hi, LivePipeline.process_bookOf_self]
      exact hs
    · rw [LivePipeline.process_bookOf_other p hi]
      exact .refl _

/-- Two resting orders, and a Replace of the first at another price with the id of the second: it is rejected, and the first order is
gone. -/
theorem rejected_replace_removes :
    let b := OrderBook.run (P := ℤ) (ascii "X")
      [.order (orderOn "X" "A" .new "A" .buy 100 10), .order (orderOn "X" "B" .new "B" .buy 100 5)]
    let r := b.apply (.order (orderOn "X" "B" .replaced "A" .buy 101 10))
    r.2.isSome ∧ b.qtyAtPrice .buy 100 = 15 ∧ r.1.qtyAtPrice .buy 100 = 5 ∧ ¬OrderBook.SameResting b r.1 := by
  refine ⟨by decide, by decide, by decide, ?_⟩
  intro hs
  have := hs.qtyAtPrice .buy 100
  exact absurd this (by decide)

end TradeSurveillance
