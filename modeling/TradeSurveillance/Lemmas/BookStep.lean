import TradeSurveillance.Lemmas.BookLayout

/-!
# What an event does to a book

`Applied b L e b' thrown L'` has one constructor for each way a call of `apply` can go on a book laid out as `L`: which checks it
passed, what it threw, and what became of the orders and of the index. `Layout.apply` says that every call goes one of these
ways, that the book is laid out as `L'` afterwards, and that no iterator dangles.
-/

namespace TradeSurveillance

variable {P : Type} [LinearOrder P]

/-- A Replace that loses its priority. -/
def losesPriority (order : Order P) (x : Placed P) : Prop := order.price ≠ x.price ∨ order.qty > x.node.resting.qty

instance (order : Order P) (x : Placed P) : Decidable (losesPriority order x) := inferInstanceAs (Decidable (_ ∨ _))

/-- The ways of `apply`. -/
inductive Applied (b : OrderBook P) (L : List (Placed P)) :
    Event P → OrderBook P → Option Thrown → List (Placed P) → Prop where
  | mismatch {e what} : e.instrumentId ≠ b.instrumentId → Applied b L e b (some (.invalidArgument what)) L
  | duplicate {o what} : o.instrumentId = b.instrumentId → o.status = .new → o.orderId ∈ b.orderIndex →
      Applied b L (.order o) (b.tick o.timestampNs) (some (.invalidArgument what)) L
  | inserted {o b'} : o.instrumentId = b.instrumentId → o.status = .new → o.orderId ∉ b.orderIndex →
      b'.orderIndex = b.orderIndex.insert o.orderId (Placed.new b.nextRef o).entry →
      Applied b L (.order o) b' none (L ++ [Placed.new b.nextRef o])
  | absent {o} : o.instrumentId = b.instrumentId → o.status = .cancelled → b.orderIndex.lookup o.origOrderId = none →
      Applied b L (.order o) (b.tick o.timestampNs) none L
  | cancelled {o b' x} : o.instrumentId = b.instrumentId → o.status = .cancelled → x ∈ L → x.id = o.origOrderId →
      b.orderIndex.lookup x.id = some x.entry → b'.orderIndex = b.orderIndex.erase x.id →
      Applied b L (.order o) b' none (unlink L x.node.ref)
  | unknown {o what} : o.instrumentId = b.instrumentId → o.status = .replaced →
      b.orderIndex.lookup o.origOrderId = none →
      Applied b L (.order o) (b.tick o.timestampNs) (some (.invalidArgument what)) L
  | amended {o b' x} : o.instrumentId = b.instrumentId → o.status = .replaced → x ∈ L → x.id = o.origOrderId →
      b.orderIndex.lookup x.id = some x.entry → ¬losesPriority o x →
      b'.orderIndex = (b.orderIndex.erase x.id).insert o.orderId x.entry →
      Applied b L (.order o) b' none
        (amend L x.node.ref { x.node.resting with qty := o.qty, orderId := o.orderId })
  | moved {o b' x} : o.instrumentId = b.instrumentId → o.status = .replaced → x ∈ L → x.id = o.origOrderId →
      b.orderIndex.lookup x.id = some x.entry → losesPriority o x → o.orderId ∉ b.orderIndex.erase x.id →
      b'.orderIndex = (b.orderIndex.erase x.id).insert o.orderId (Placed.new b.nextRef o).entry →
      Applied b L (.order o) b' none (unlink L x.node.ref ++ [Placed.new b.nextRef o])
  | movedDuplicate {o b' x what} : o.instrumentId = b.instrumentId → o.status = .replaced → x ∈ L → x.id = o.origOrderId →
      b.orderIndex.lookup x.id = some x.entry → losesPriority o x → o.orderId ∈ b.orderIndex.erase x.id →
      b'.orderIndex = b.orderIndex.erase x.id →
      Applied b L (.order o) b' (some (.invalidArgument what)) (unlink L x.node.ref)
  | unfilled {t what} : t.instrumentId = b.instrumentId → b.orderIndex.lookup t.orderId = none →
      Applied b L (.execution t) (b.tick t.timestampNs) (some (.invalidArgument what)) L
  | overfilled {t x what} : t.instrumentId = b.instrumentId → x ∈ L → x.id = t.orderId →
      b.orderIndex.lookup x.id = some x.entry → t.qty > x.node.resting.qty →
      Applied b L (.execution t) (b.tick t.timestampNs) (some (.invalidArgument what)) L
  | filled {t b' x} : t.instrumentId = b.instrumentId → x ∈ L → x.id = t.orderId →
      b.orderIndex.lookup x.id = some x.entry → t.qty ≤ x.node.resting.qty → wrap64 (x.node.resting.qty - t.qty) = 0 →
      b'.orderIndex = b.orderIndex.erase x.id → Applied b L (.execution t) b' none (unlink L x.node.ref)
  | partFilled {t b' x} : t.instrumentId = b.instrumentId → x ∈ L → x.id = t.orderId →
      b.orderIndex.lookup x.id = some x.entry → t.qty ≤ x.node.resting.qty → wrap64 (x.node.resting.qty - t.qty) ≠ 0 →
      b'.orderIndex = b.orderIndex → Applied b L (.execution t) b' none
        (amend L x.node.ref { x.node.resting with qty := wrap64 (x.node.resting.qty - t.qty) })

/-- Unlinking does not depend on what was assigned to the order before. -/
theorem unlink_amend {P : Type} (L : List (Placed P)) (ref : ℕ) (resting : RestingOrder) :
    unlink (amend L ref resting) ref = unlink L ref := by
  simp only [unlink, amend, List.filter_map]
  refine (List.map_congr_left fun x hx => ?_).trans (List.map_id _) |>.trans ?_
  · have hr : x.node.ref ≠ ref := by simpa using (List.mem_filter.1 hx).2
    simp only [Node.assign, if_neg hr]
    rfl
  · refine List.filter_congr fun x _ => ?_
    simp

/-- What an amended order is in the list. -/
theorem amended_mem {P : Type} {L : List (Placed P)} {x : Placed P} (hx : x ∈ L) (resting : RestingOrder) :
    (⟨x.price, ⟨x.node.ref, resting⟩⟩ : Placed P) ∈ amend L x.node.ref resting :=
  mem_amend.2 (Or.inr ⟨x, hx, rfl, rfl⟩)

namespace Layout

variable {b : OrderBook P} {L : List (Placed P)} {x : Placed P}

/-- The sequence number and the time do not touch the orders. -/
theorem tick (h : Layout b L) (ts : ℤ) : Layout (b.tick ts) L :=
  ⟨h.toQueued.congr (fun s => by cases s <;> rfl) rfl, h.index⟩

/-- Assigning a quantity to an order. -/
theorem setQty (h : Layout b L) (hx : x ∈ L) (qty : ℤ) :
    Layout (b.setResting x.entry (queueOf L x.node.resting.side x.price) { x.node.resting with qty := qty })
      (amend L x.node.ref { x.node.resting with qty := qty }) := by
  refine ⟨h.toQueued.setResting hx _ rfl, ?_⟩
  intro id e he
  rw [OrderBook.setResting_orderIndex] at he
  obtain ⟨y, hy, rfl, rfl⟩ := h.index id e he
  by_cases hr : y.node.ref = x.node.ref
  · obtain rfl := h.eq_of_ref hy hx hr
    exact ⟨_, amended_mem hx _, rfl, rfl⟩
  · exact ⟨y, mem_amend.2 (Or.inl ⟨hy, hr⟩), rfl, rfl⟩

/-- Assigning a quantity and an id to an order, and moving its index entry to that id. -/
theorem rename (h : Layout b L) (hx : x ∈ L) (qty : ℤ) (newId : Str) :
    let b' := b.setResting x.entry (queueOf L x.node.resting.side x.price)
      { x.node.resting with qty := qty, orderId := newId }
    Layout { b' with orderIndex := (b'.orderIndex.erase x.id).insert newId x.entry }
      (amend L x.node.ref { x.node.resting with qty := qty, orderId := newId }) := by
  intro b'
  have hq := h.toQueued.setResting hx { x.node.resting with qty := qty, orderId := newId } rfl
  refine ⟨hq.congr (fun s => by cases s <;> rfl) rfl, fun id e he => ?_⟩
  by_cases hid : id = newId
  · rw [hid, Finmap.lookup_insert, Option.some.injEq] at he
    exact ⟨_, amended_mem hx _, he, hid.symm⟩
  · rw [Finmap.lookup_insert_of_ne _ hid] at he
    by_cases hidx : id = x.id
    · rw [hidx, Finmap.lookup_erase] at he
      cases he
    · rw [Finmap.lookup_erase_ne hidx, OrderBook.setResting_orderIndex] at he
      obtain ⟨y, hy, rfl, rfl⟩ := h.index id e he
      refine ⟨y, mem_amend.2 (Or.inl ⟨hy, fun hr => hidx ?_⟩), rfl, rfl⟩
      rw [h.eq_of_ref hy hx hr]

/-- A New. -/
theorem applyNew (h : Layout b L) {o : Order P} (hinst : o.instrumentId = b.instrumentId) (hst : o.status = .new) :
    ∃ L', Applied b L (.order o) ((b.tick o.timestampNs).insertNew o).1 ((b.tick o.timestampNs).insertNew o).2 L' ∧
      Layout ((b.tick o.timestampNs).insertNew o).1 L' := by
  have ht := h.tick o.timestampNs
  by_cases hid : o.orderId ∈ b.orderIndex
  · rw [OrderBook.insertNew, if_pos (show o.orderId ∈ (b.tick o.timestampNs).orderIndex from hid)]
    exact ⟨L, .duplicate hinst hst hid, ht⟩
  · obtain ⟨b', hb', hl, hindex⟩ := ht.insertNew o hid
    rw [hb']
    exact ⟨_, .inserted hinst hst hid hindex, hl⟩

/-- A Cancel. -/
theorem applyCancel (h : Layout b L) {o : Order P} (hinst : o.instrumentId = b.instrumentId) (hst : o.status = .cancelled) :
    ∃ L', Applied b L (.order o) ((b.tick o.timestampNs).cancel o.origOrderId).1
      ((b.tick o.timestampNs).cancel o.origOrderId).2 L' ∧ Layout ((b.tick o.timestampNs).cancel o.origOrderId).1 L' := by
  have ht := h.tick o.timestampNs
  cases he : (b.tick o.timestampNs).orderIndex.lookup o.origOrderId with
  | none =>
    simp only [OrderBook.cancel, he]
    exact ⟨L, .absent hinst hst he, ht⟩
  | some e =>
    obtain ⟨x, hx, rfl, hid, -⟩ := ht.deref_of_index he
    simp only [OrderBook.cancel, he]
    rw [← hid] at he ⊢
    obtain ⟨b', hb', hl, hindex, -⟩ := ht.removeResting hx
    rw [hb']
    exact ⟨_, .cancelled hinst hst hx hid he hindex, hl⟩

/-- A Replace. -/
theorem applyReplace (h : Layout b L) {o : Order P} (hinst : o.instrumentId = b.instrumentId) (hst : o.status = .replaced) :
    ∃ L', Applied b L (.order o) ((b.tick o.timestampNs).replace o).1 ((b.tick o.timestampNs).replace o).2 L' ∧
      Layout ((b.tick o.timestampNs).replace o).1 L' := by
  have ht := h.tick o.timestampNs
  cases he : (b.tick o.timestampNs).orderIndex.lookup o.origOrderId with
  | none =>
    simp only [OrderBook.replace, he]
    exact ⟨L, .unknown hinst hst he, ht⟩
  | some e =>
    obtain ⟨x, hx, rfl, hid, hd⟩ := ht.deref_of_index he
    simp only [OrderBook.replace, he, hd]
    rw [← hid] at he
    by_cases hlose : losesPriority o x
    · obtain ⟨b', hb', hl, hindex, href⟩ := ht.removeResting hx
      rw [hid] at hb'
      rw [if_pos (show o.price ≠ x.entry.price ∨ o.qty > x.node.resting.qty from hlose), hb']
      simp only
      by_cases hdup : o.orderId ∈ b.orderIndex.erase x.id
      · rw [OrderBook.insertNew, if_pos (by rw [hindex]; exact hdup)]
        exact ⟨_, .movedDuplicate hinst hst hx hid he hlose hdup hindex, hl⟩
      · obtain ⟨b'', hb'', hl', hindex'⟩ := hl.insertNew { o with status := .new } (by rw [hindex]; exact hdup)
        rw [hb'']
        rw [href, hindex] at hindex'
        rw [href] at hl'
        exact ⟨_, .moved hinst hst hx hid he hlose hdup hindex', hl'⟩
    · rw [if_neg (show ¬(o.price ≠ x.entry.price ∨ o.qty > x.node.resting.qty) from hlose), ← hid]
      refine ⟨_, .amended hinst hst hx hid he hlose ?_, ht.rename hx o.qty o.orderId⟩
      simp only [OrderBook.setResting_orderIndex]
      rfl

/-- Every call goes one of the ways, and the book is laid out accordingly. -/
theorem apply (h : Layout b L) (e : Event P) :
    ∃ L', Applied b L e (b.apply e).1 (b.apply e).2 L' ∧ Layout (b.apply e).1 L' := by
  cases e with
  | order o =>
    simp only [OrderBook.apply, OrderBook.applyOrder]
    by_cases hinst : o.instrumentId = b.instrumentId
    · rw [if_neg (not_not.2 hinst)]
      cases hst : o.status with
      | new => exact h.applyNew hinst hst
      | cancelled => exact h.applyCancel hinst hst
      | replaced => exact h.applyReplace hinst hst
    · rw [if_pos hinst]
      exact ⟨L, .mismatch hinst, h⟩
  | execution t =>
    simp only [OrderBook.apply, OrderBook.applyExecution]
    by_cases hinst : t.instrumentId = b.instrumentId
    · have ht := h.tick t.timestampNs
      rw [if_neg (not_not.2 hinst)]
      cases he : (b.tick t.timestampNs).orderIndex.lookup t.orderId with
      | none => exact ⟨L, .unfilled hinst he, ht⟩
      | some e =>
        obtain ⟨x, hx, rfl, hid, hd⟩ := ht.deref_of_index he
        simp only [hd]
        rw [← hid] at he
        by_cases hover : t.qty > x.node.resting.qty
        · rw [if_pos hover]
          exact ⟨L, .overfilled hinst hx hid he hover, ht⟩
        · rw [if_neg hover]
          have hset := ht.setQty hx (wrap64 (x.node.resting.qty - t.qty))
          by_cases hzero : wrap64 (x.node.resting.qty - t.qty) = 0
          · rw [if_pos hzero]
            obtain ⟨b', hb', hl, hindex, -⟩ := hset.removeResting (amended_mem hx _)
            rw [(congrArg (OrderBook.removeResting _ · x.entry) hid.symm).trans hb']
            rw [unlink_amend] at hl
            rw [OrderBook.setResting_orderIndex] at hindex
            exact ⟨_, .filled hinst hx hid he (not_lt.1 hover) hzero hindex, hl⟩
          · rw [if_neg hzero]
            refine ⟨_, .partFilled hinst hx hid he (not_lt.1 hover) hzero ?_, hset⟩
            exact OrderBook.setResting_orderIndex _ _ _ _
    · rw [if_pos hinst]
      exact ⟨L, .mismatch hinst, h⟩

end Layout

/-! ## What every call keeps -/

namespace OrderBook

/-- The instrument and the sequence number, which the helpers of `apply` leave alone. -/
def stamp {P : Type} (b : OrderBook P) : Str × Word := (b.instrumentId, b.sequence)

/-- Setting levels leaves instrument and sequence number alone. -/
@[simp] theorem stamp_setLevels {P : Type} (b : OrderBook P) (side : Side) (levels : PriceLevels P) :
    (b.setLevels side levels).stamp = b.stamp := by
  cases side <;> rfl

variable (b : OrderBook P)

/-- So does `insert_new`. -/
theorem stamp_insertNew (o : Order P) : (b.insertNew o).1.stamp = b.stamp := by
  rw [insertNew]
  split
  · rfl
  · exact stamp_setLevels b _ _

/-- So does taking an order out. -/
theorem stamp_removeResting (id : Str) (e : OrderIndexEntry P) : (b.removeResting id e).1.stamp = b.stamp := by
  rw [removeResting]
  split
  · rfl
  · exact stamp_setLevels b _ _

/-- So does `cancel`. -/
theorem stamp_cancel (target : Str) : (b.cancel target).1.stamp = b.stamp := by
  rw [cancel]
  split
  · rfl
  · exact stamp_removeResting b _ _

/-- So does `replace`. -/
theorem stamp_replace (o : Order P) : (b.replace o).1.stamp = b.stamp := by
  rw [replace]
  split
  · rfl
  · rename_i e _
    split
    · rfl
    · split
      · have hr := stamp_removeResting b o.origOrderId e
        split <;> rename_i heq <;> rw [heq] at hr
        · exact hr
        · exact (stamp_insertNew _ _).trans hr
      · exact stamp_setLevels b _ _

/-- An event of the book's instrument counts in the sequence number, whether it is accepted or not; no other event does. -/
theorem stamp_apply (e : Event P) : (b.apply e).1.stamp =
    (b.instrumentId, if e.instrumentId = b.instrumentId then b.sequence + 1 else b.sequence) := by
  by_cases hinst : e.instrumentId = b.instrumentId
  · rw [if_pos hinst]
    cases e with
    | order o =>
      have hinst : o.instrumentId = b.instrumentId := hinst
      rw [apply, applyOrder, if_neg (not_not.2 hinst)]
      cases hst : o.status with
      | new => exact stamp_insertNew _ _
      | cancelled => exact stamp_cancel _ _
      | replaced => exact stamp_replace _ _
    | execution t =>
      have hinst : t.instrumentId = b.instrumentId := hinst
      rw [apply, applyExecution, if_neg (not_not.2 hinst)]
      simp only
      split
      · rfl
      · split
        · rfl
        · split
          · rfl
          · split
            · exact (stamp_removeResting _ _ _).trans (stamp_setLevels _ _ _)
            · exact stamp_setLevels _ _ _
  · rw [if_neg hinst]
    cases e with
    | order o =>
      have hinst : o.instrumentId ≠ b.instrumentId := hinst
      rw [apply, applyOrder, if_pos hinst]
      rfl
    | execution t =>
      have hinst : t.instrumentId ≠ b.instrumentId := hinst
      rw [apply, applyExecution, if_pos hinst]
      rfl

/-- An event does not change the instrument of a book. -/
@[simp] theorem apply_instrumentId (e : Event P) : (b.apply e).1.instrumentId = b.instrumentId :=
  congrArg Prod.fst (stamp_apply b e)

/-- The book after the events, on a fresh book. -/
def run (instrumentId : Str) (events : List (Event P)) : OrderBook P := (make instrumentId).applyAll events

/-- One more event is applied to the book behind the others. -/
@[simp] theorem run_concat (i : Str) (events : List (Event P)) (e : Event P) :
    run i (events ++ [e]) = ((run i events).apply e).1 := by
  simp only [run, applyAll, List.foldl_append, List.foldl_cons, List.foldl_nil]

/-- A book keeps its instrument through all events. -/
@[simp] theorem run_instrumentId (i : Str) (events : List (Event P)) : (run i events).instrumentId = i := by
  induction events using List.reverseRecOn with
  | nil => rfl
  | append_singleton events e ih => rw [run_concat, apply_instrumentId, ih]

/-- Every book is laid out. -/
theorem run_layout (i : Str) (events : List (Event P)) : ∃ L, Layout (run i events) L := by
  induction events using List.reverseRecOn with
  | nil => exact ⟨[], Layout.init i⟩
  | append_singleton events e ih =>
    obtain ⟨L, hL⟩ := ih
    obtain ⟨L', -, hL'⟩ := hL.apply e
    exact ⟨L', by rw [run_concat]; exact hL'⟩

end OrderBook

end TradeSurveillance
