import TradeSurveillance.Lemmas.PipelineBooks
import TradeSurveillance.Lemmas.SpoofingTracked
import TradeSurveillance.Lib.Mirror
import TradeSurveillance.Theorems.BookIndex

/-!
# The spoofing detector's shadow of the books

The detector learns of the books from the events alone and keys its entries by the order id alone. `Shadows` says that its entries
are the orders that rest in the books of the pipeline; `shadow_book` that this holds along every run whose events meet
`KeepsShadow`: no message names an order of another instrument's book or takes the id of another resting order, a Replace that retains
priority repeats the side and the account of the order it amends, and what an execution leaves of an order fits into 64 bits.
-/

namespace TradeSurveillance

variable {P : Type} [Double P] [LinearOrder P]

/-- The entries of the detector and the orders resting in the pipeline's books are the same. -/
structure Shadows (d : SpoofingLayeringDetector P) (p : LivePipeline P) : Prop where
  /-- A tracked order rests in the book of its instrument, with its account, on its side, with its quantity. -/
  tracked : ∀ id t, d.tracked.lookup id = some t → ∃ b price n, p.bookFor t.instrumentId = some b ∧ b.Rests t.side price n ∧
    n.resting.orderId = id ∧ n.resting.accountId = t.accountId ∧ n.resting.qty = t.remainingQty
  /-- A resting order is tracked. -/
  resting : ∀ i b side price n, p.bookFor i = some b → b.Rests side price n → ∃ t, d.tracked.lookup n.resting.orderId = some t ∧
    t.instrumentId = i ∧ t.side = side ∧ t.accountId = n.resting.accountId ∧ t.remainingQty = n.resting.qty

namespace LivePipeline

omit [Double P]

/-- An order of this id rests in the book of another instrument. -/
def RestsElsewhere (p : LivePipeline P) (instrumentId orderId : Str) : Prop :=
  ∃ j, j ≠ instrumentId ∧ orderId ∈ (p.bookOf j).orderIndex

/-- What an event has to meet for the detector to follow it. -/
def KeepsShadow (p : LivePipeline P) : Event P → Prop
  | .order o => match o.status with
    | .new => o.orderId ∉ (p.bookOf o.instrumentId).orderIndex → ¬p.RestsElsewhere o.instrumentId o.orderId
    | .cancelled => ¬p.RestsElsewhere o.instrumentId o.origOrderId
    | .replaced => ∀ e n, (p.bookOf o.instrumentId).target o.origOrderId = some (e, n) →
        ¬p.RestsElsewhere o.instrumentId o.orderId ∧
        (o.orderId ∈ (p.bookOf o.instrumentId).orderIndex → o.orderId = o.origOrderId) ∧
        (o.price = e.price → o.qty ≤ n.resting.qty → o.side = n.resting.side ∧ o.accountId = n.resting.accountId)
  | .execution t => ∀ e n, (p.bookOf t.instrumentId).target t.orderId = some (e, n) → t.qty ≤ n.resting.qty →
      n.resting.qty - t.qty < 2 ^ 63

end LivePipeline

/-! ## The resting orders of all books -/

/-- The orders of the books, each with its instrument. -/
def located (L : Str → List (Placed P)) : Set (Str × Placed P) := {x | x.2 ∈ L x.1}

/-- The entry that a resting order should have. -/
def Placed.entryIn (x : Str × Placed P) : ShadowEntry :=
  (x.2.node.resting.accountId, x.1, x.2.node.resting.side, x.2.node.resting.qty)

section Located

omit [Double P] [LinearOrder P]

variable {L : Str → List (Placed P)} {i : Str}

theorem located_append (z : Placed P) : located (Function.update L i (L i ++ [z])) = insert (i, z) (located L) := by
  ext ⟨j, y⟩
  simp only [located, Set.mem_ofPred_eq, Set.mem_insert_iff, Prod.mk.injEq]
  by_cases hj : j = i
  · subst hj
    simp [or_comm]
  · simp [hj]

variable [LinearOrder P] {b : OrderBook P} {x : Placed P}

theorem located_unlink (h : Queued b (L i)) (hx : x ∈ L i) :
    located (Function.update L i (unlink (L i) x.node.ref)) = located L \ {(i, x)} := by
  ext ⟨j, y⟩
  simp only [located, Set.mem_ofPred_eq, Set.mem_sdiff, Set.mem_singleton_iff, Prod.mk.injEq]
  by_cases hj : j = i
  · subst hj
    rw [Function.update_self, mem_unlink]
    constructor
    · rintro ⟨hy, hr⟩
      exact ⟨hy, fun hyx => hr (by rw [hyx.2])⟩
    · rintro ⟨hy, hne⟩
      exact ⟨hy, fun hr => hne ⟨rfl, h.eq_of_ref hy hx hr⟩⟩
  · simp [hj]

/-- An amended order leaves the books and comes back. -/
theorem located_amend (h : Queued b (L i)) (hx : x ∈ L i) (resting : RestingOrder) :
    located (Function.update L i (amend (L i) x.node.ref resting)) =
      insert (i, ⟨x.price, ⟨x.node.ref, resting⟩⟩) (located L \ {(i, x)}) := by
  rw [← located_unlink h hx, ← located_append]
  ext ⟨j, y⟩
  simp only [located, Set.mem_ofPred_eq, Function.update_self, Function.update_idem]
  by_cases hj : j = i
  · subst hj
    rw [Function.update_self, Function.update_self, mem_amend, List.mem_append, mem_unlink, List.mem_singleton]
    refine or_congr_right ⟨?_, ?_⟩
    · rintro ⟨x', hx', hr, rfl⟩
      rw [h.eq_of_ref hx' hx hr]
    · rintro rfl
      exact ⟨x, hx, rfl, rfl⟩
  · rw [Function.update_of_ne hj, Function.update_of_ne hj]

end Located

/-! ## One event -/

/-- The books of a pipeline are laid out and indexed, and the entries mirror their orders. -/
structure Shadowed (p : LivePipeline P) (f : Str → Option ShadowEntry) (L : Str → List (Placed P)) : Prop where
  layout : ∀ i, Layout (p.bookOf i) (L i)
  indexed : ∀ i, Indexed (p.bookOf i) (L i)
  mirrors : Mirrors (fun x : Str × Placed P => x.2.id) Placed.entryIn f (located L)

namespace Shadowed

omit [Double P]

variable {p : LivePipeline P} {f : Str → Option ShadowEntry} {L : Str → List (Placed P)} {i : Str} {x : Placed P}

/-- Orders of all the books have different ids. -/
theorem eq_of_id (h : Shadowed p f L) {x y : Str × Placed P} (hx : x ∈ located L) (hy : y ∈ located L)
    (hid : x.2.id = y.2.id) : x = y := by
  obtain ⟨i, x⟩ := x
  obtain ⟨j, y⟩ := y
  have hij : i = j := congrArg (·.2.1) (h.mirrors.value_eq hx hy hid)
  subst hij
  have hxy : x = y := Indexed.eq_of_id (h.layout i).toQueued (h.indexed i) hx hy hid
  rw [hxy]

theorem mem_orderIndex_iff (h : Shadowed p f L) {id : Str} : id ∈ (p.bookOf i).orderIndex ↔ ∃ x ∈ L i, x.id = id :=
  TradeSurveillance.mem_orderIndex_iff (h.layout i) (h.indexed i)

/-- An id that rests in no book. -/
theorem not_located (h : Shadowed p f L) {id : Str} (hid : id ∉ (p.bookOf i).orderIndex) (hne : ¬p.RestsElsewhere i id) :
    ∀ x ∈ located L, x.2.id ≠ id := by
  rintro ⟨j, x⟩ hx rfl
  by_cases hj : j = i
  · subst hj
    exact hid (h.mem_orderIndex_iff.2 ⟨x, hx, rfl⟩)
  · exact hne ⟨j, hj, h.mem_orderIndex_iff.2 ⟨x, hx, rfl⟩⟩

/-- The entry of an order is erased when the order leaves its book. -/
theorem unlink (h : Shadowed p f L) (hx : x ∈ L i) :
    Mirrors (fun x : Str × Placed P => x.2.id) Placed.entryIn (Function.update f x.id none) (located L \ {(i, x)}) := by
  have hx' : ((i, x) : Str × Placed P) ∈ located L := hx
  exact h.mirrors.remove fun y hy hid => h.eq_of_id hy hx' hid

/-- The id a Replace gives the order it amends is new but for that order. -/
theorem fresh_of_replace (h : Shadowed p f L) (hx : x ∈ L i) {id : Str} (hne : ¬p.RestsElsewhere i id)
    (hown : id ∈ (p.bookOf i).orderIndex → id = x.id) : ∀ y ∈ located L \ {(i, x)}, y.2.id ≠ id := by
  rintro ⟨j, y⟩ ⟨hy, hyx⟩ rfl
  have hx' : ((i, x) : Str × Placed P) ∈ located L := hx
  by_cases hj : j = i
  · subst hj
    exact hyx (h.eq_of_id hy hx' (hown (h.mem_orderIndex_iff.2 ⟨y, hy, rfl⟩)))
  · exact hne ⟨j, hj, h.mem_orderIndex_iff.2 ⟨y, hy, rfl⟩⟩

/-- The entries follow an event that meets the condition, and stay when the book throws. -/
theorem mirrors_applied {e : Event P} {b' : OrderBook P} {thrown : Option Thrown} {L' : List (Placed P)}
    (h : Shadowed p f L) (hok : p.KeepsShadow e) (hi : e.instrumentId = i)
    (ha : Applied (p.bookOf i) (L i) e b' thrown L') :
    Mirrors (fun x : Str × Placed P => x.2.id) Placed.entryIn (if thrown.isSome then f else shadowStep f e)
      (located (Function.update L i L')) := by
  have hsame : Mirrors (fun x : Str × Placed P => x.2.id) Placed.entryIn f (located (Function.update L i (L i))) := by
    rw [Function.update_eq_self]
    exact h.mirrors
  have hq := (h.layout i).toQueued
  cases ha with
  | mismatch _ => exact hsame
  | duplicate _ _ _ => exact hsame
  | unknown _ _ _ => exact hsame
  | unfilled _ _ => exact hsame
  | overfilled _ _ _ _ _ => exact hsame
  | @inserted o b' _ hst hid _ =>
    obtain rfl : o.instrumentId = i := hi
    simp only [LivePipeline.KeepsShadow, hst] at hok
    simp only [Option.isSome_none, Bool.false_eq_true, if_false, shadowStep, hst]
    rw [located_append]
    exact h.mirrors.insert (z := (o.instrumentId, Placed.new _ o)) (h.not_located hid (hok hid))
  | @absent o _ hst hnone =>
    obtain rfl : o.instrumentId = i := hi
    simp only [LivePipeline.KeepsShadow, hst] at hok
    simp only [Option.isSome_none, Bool.false_eq_true, if_false, shadowStep, hst, Function.update_eq_self]
    exact h.mirrors.remove_absent (h.not_located (Finmap.lookup_eq_none.1 hnone) hok)
  | @cancelled o b' x _ hst hx hid _ _ =>
    simp only [Option.isSome_none, Bool.false_eq_true, if_false, shadowStep, hst]
    rw [located_unlink hq hx, ← hid]
    exact h.unlink hx
  | @amended o b' x _ hst hx hid he hlose _ =>
    obtain rfl : o.instrumentId = i := hi
    simp only [LivePipeline.KeepsShadow, hst] at hok
    obtain ⟨hne, hown, hkept⟩ := hok _ _ (hid ▸ (h.layout _).target_eq hx he)
    obtain ⟨hprice, hqty⟩ := not_or.1 hlose
    obtain ⟨hside, haccount⟩ := hkept (not_not.1 hprice) (not_lt.1 hqty)
    simp only [Option.isSome_none, Bool.false_eq_true, if_false, shadowStep, hst]
    rw [located_amend hq hx, ← hid]
    generalize hz : (⟨x.price, ⟨x.node.ref, { x.node.resting with qty := o.qty, orderId := o.orderId }⟩⟩ : Placed P) = z
    have hzid : o.orderId = z.id := by rw [← hz]; rfl
    have hentry : o.shadowEntry = Placed.entryIn (o.instrumentId, z) := by
      rw [← hz]
      simp only [Order.shadowEntry, Placed.entryIn, hside, haccount]
    rw [hentry, hzid]
    rw [hzid] at hne hown
    exact (h.unlink hx).insert (z := (o.instrumentId, z)) (h.fresh_of_replace hx hne (hid ▸ hown))
  | @moved o b' x _ hst hx hid he hlose hdup _ =>
    obtain rfl : o.instrumentId = i := hi
    simp only [LivePipeline.KeepsShadow, hst] at hok
    obtain ⟨hne, hown, -⟩ := hok _ _ (hid ▸ (h.layout _).target_eq hx he)
    simp only [Option.isSome_none, Bool.false_eq_true, if_false, shadowStep, hst]
    have happend := located_append (L := Function.update L o.instrumentId (TradeSurveillance.unlink (L o.instrumentId) x.node.ref))
      (i := o.instrumentId) (Placed.new (p.bookOf o.instrumentId).nextRef o)
    rw [Function.update_self, Function.update_idem, located_unlink hq hx] at happend
    rw [happend, ← hid]
    exact (h.unlink hx).insert (z := (o.instrumentId, Placed.new _ o)) (h.fresh_of_replace hx hne (hid ▸ hown))
  | @movedDuplicate o b' x what _ hst hx hid he _ hdup _ =>
    obtain rfl : o.instrumentId = i := hi
    simp only [LivePipeline.KeepsShadow, hst] at hok
    obtain ⟨-, hown, -⟩ := hok _ _ (hid ▸ (h.layout _).target_eq hx he)
    obtain ⟨hne, hmem⟩ := Finmap.mem_erase.1 hdup
    exact absurd (hown hmem) (hid ▸ hne)
  | @filled t b' x _ hx hid _ _ hzero _ =>
    have hf := h.mirrors.of_mem (x := (i, x)) hx
    simp only [hid, Placed.entryIn] at hf
    simp only [Option.isSome_none, Bool.false_eq_true, if_false, shadowStep, hf, hzero, le_refl, if_true]
    rw [located_unlink hq hx, ← hid]
    exact h.unlink hx
  | @partFilled t b' x _ hx hid he hle hne _ =>
    obtain rfl : t.instrumentId = i := hi
    have hf := h.mirrors.of_mem (x := (t.instrumentId, x)) hx
    simp only [hid, Placed.entryIn] at hf
    -- the remainder fits, so the detector sees it as the book does
    have hlt := hok _ _ (hid ▸ (h.layout _).target_eq hx he) hle
    have hfits := wrap64_of_isInt64 (z := x.node.resting.qty - t.qty) ⟨by omega, hlt⟩
    have hpos : ¬wrap64 (x.node.resting.qty - t.qty) ≤ 0 := by omega
    simp only [Option.isSome_none, Bool.false_eq_true, if_false, shadowStep, hf, hpos]
    rw [located_amend hq hx, ← hid, ← Function.update_idem (a := x.id) none]
    have hx' : ((t.instrumentId, x) : Str × Placed P) ∈ located L := hx
    exact (h.unlink hx).insert
      (z := (t.instrumentId, ⟨x.price, ⟨x.node.ref, { x.node.resting with qty := wrap64 (x.node.resting.qty - t.qty) }⟩⟩)) fun y hy hyx => hy.2 (h.eq_of_id hy.1 hx' hyx)

/-- The pipeline's step. -/
theorem process {e : Event P} (h : Shadowed p f L) (hok : p.KeepsShadow e) :
    ∃ L', Shadowed (p.process e).1
      (if ((p.bookOf e.instrumentId).apply e).2.isSome then f else shadowStep f e) L' := by
  obtain ⟨L', ha, hl⟩ := (h.layout e.instrumentId).apply e
  -- a message that takes a resting id of its own book does not meet the condition either
  have htakes : ¬(p.bookOf e.instrumentId).TakesRestingId e := by
    cases e with
    | order o =>
      rintro ⟨-, hst, hne, hmem, e, n, ht, -⟩
      simp only [LivePipeline.KeepsShadow, hst] at hok
      exact hne ((hok e n ht).2.1 hmem)
    | execution t => exact id
  have hi := (indexed_apply_iff (h.layout _) (h.indexed _) ha).2 htakes
  refine ⟨Function.update L e.instrumentId L', fun i => ?_, fun i => ?_, h.mirrors_applied hok rfl ha⟩
  · by_cases hie : i = e.instrumentId
    · rw [hie, LivePipeline.process_bookOf_self, Function.update_self]
      exact hl
    · rw [LivePipeline.process_bookOf_other p hie, Function.update_of_ne hie]
      exact h.layout i
  · by_cases hie : i = e.instrumentId
    · rw [hie, LivePipeline.process_bookOf_self, Function.update_self]
      exact hi
    · rw [LivePipeline.process_bookOf_other p hie, Function.update_of_ne hie]
      exact h.indexed i

end Shadowed

/-- What the mirror says of the detector's map and the pipeline's books. -/
theorem Shadowed.shadows {d : SpoofingLayeringDetector P} {p : LivePipeline P} {L : Str → List (Placed P)}
    (h : Shadowed p d.shadow L) : Shadows d p := by
  constructor
  · intro id t ht
    have hf : d.shadow id = some t.entry := by
      unfold SpoofingLayeringDetector.shadow
      rw [ht]
      rfl
    obtain ⟨⟨i, x⟩, hx, rfl, hentry⟩ := (h.mirrors _ _).1 hf
    simp only [Placed.entryIn, TrackedOrder.entry, Prod.mk.injEq] at hentry
    obtain ⟨haccount, rfl, hside, hqty⟩ := hentry
    -- the book of an instrument without events is empty
    have hfor : p.bookFor t.instrumentId = some (p.bookOf t.instrumentId) := by
      have hindex := h.indexed _ x hx
      rw [LivePipeline.bookOf] at hindex ⊢
      rcases hb : p.bookFor t.instrumentId with _ | b
      · rw [hb] at hindex
        cases hindex
      · rfl
    exact ⟨_, x.price, x.node, hfor, (h.layout _).rests_iff.2 ⟨x, hx, rfl, hside, rfl⟩, rfl, haccount, hqty⟩
  · intro i b side price n hb hn
    obtain rfl : p.bookOf i = b := by
      rw [LivePipeline.bookOf, hb]
      rfl
    obtain ⟨x, hx, rfl, rfl, rfl⟩ := (h.layout i).rests_iff.1 hn
    have hf := h.mirrors.of_mem (x := (i, x)) hx
    simp only [SpoofingLayeringDetector.shadow, Option.map_eq_some_iff] at hf
    obtain ⟨t, ht, hentry⟩ := hf
    simp only [TrackedOrder.entry, Placed.entryIn, Prod.mk.injEq] at hentry
    obtain ⟨haccount, hinst, hside, hqty⟩ := hentry
    exact ⟨t, ht, hinst, hside, haccount, hqty⟩

/-! ## Every run -/

section Run

variable (config : SpoofingLayeringConfig P) (detectors : List (IDetector P)) (accounts : AccountRegistry) (k : ℕ)

/-- The detector stays at its place among the detectors and mirrors the books. -/
theorem shadowed_run (hk : detectors[k]? = some (SpoofingLayeringDetector.make config).object) (events : List (Event P))
    (hok : ∀ pre e, pre ++ [e] <+: events → (LivePipeline.run detectors accounts pre).KeepsShadow e) :
    ∃ d L, (LivePipeline.run detectors accounts events).detectors[k]? = some (SpoofingLayeringDetector.object d) ∧
      Shadowed (LivePipeline.run detectors accounts events) d.shadow L := by
  have hinit : Shadowed (LivePipeline.run detectors accounts []) (SpoofingLayeringDetector.make config).shadow fun _ => [] := by
    refine ⟨fun i => Layout.init i, fun i x hx => (nomatch hx), ?_⟩
    have hempty : located (fun _ => ([] : List (Placed P))) = ∅ := by
      ext ⟨i, x⟩
      simp [located]
    rw [hempty]
    exact Mirrors.empty _ _
  have hrun := LivePipeline.run_spoofing accounts
    (fun pre d => ∃ L, Shadowed (LivePipeline.run detectors accounts pre) d.shadow L) hk ⟨_, hinit⟩ events fun pre e d hpre _ h => by
      obtain ⟨L, h⟩ := h
      rw [LivePipeline.run_concat, SpoofingLayeringDetector.shadow_ite]
      exact h.process (hok pre e hpre)
  obtain ⟨d, hd, L, h⟩ := hrun
  exact ⟨d, L, hd, h⟩

/-- In every run of a pipeline whose events meet the condition, after every event the detector's map holds exactly the orders that
rest in the books. -/
theorem shadow_book (hk : detectors[k]? = some (SpoofingLayeringDetector.make config).object) (events : List (Event P))
    (hok : ∀ pre e, pre ++ [e] <+: events → (LivePipeline.run detectors accounts pre).KeepsShadow e) :
    ∀ pre, pre <+: events → ∃ d, (LivePipeline.run detectors accounts pre).detectors[k]? =
      some (SpoofingLayeringDetector.object d) ∧ Shadows d (LivePipeline.run detectors accounts pre) := by
  intro pre hpre
  obtain ⟨d, L, hd, h⟩ := shadowed_run config detectors accounts k hk pre fun pre' e hpre' => hok pre' e (hpre'.trans hpre)
  exact ⟨d, hd, h.shadows⟩

end Run

/-- An order is placed and cancelled. -/
theorem shadow_book_cancelled :
    let new : Event ℚ := .order (orderOn "X" "A" .new "A" .buy 100 10)
    let cancel : Event ℚ := .order (orderOn "X" "C" .cancelled "A" .buy 100 10)
    ∀ pre, pre <+: [new, cancel] → ∃ d, (LivePipeline.run [(SpoofingLayeringDetector.make {}).object] .empty pre).detectors[0]? =
      some (SpoofingLayeringDetector.object d) ∧
        Shadows d (LivePipeline.run [(SpoofingLayeringDetector.make {}).object] .empty pre) := by
  intro new cancel
  refine shadow_book {} [(SpoofingLayeringDetector.make {}).object] .empty 0 rfl [new, cancel] ?_
  -- neither event names an order of another book: there is none
  have hother : ∀ (pre : List (Event ℚ)) id, eventsOf (ascii "X") pre = pre →
      ¬(LivePipeline.run [(SpoofingLayeringDetector.make {}).object] .empty pre).RestsElsewhere (ascii "X") id := by
    rintro pre id hpre ⟨j, hj, hmem⟩
    have hempty : eventsOf j pre = [] := by
      refine List.filter_eq_nil_iff.2 ?_
      intro e he
      have := (List.mem_filter.1 (hpre ▸ he)).2
      simp only [decide_eq_true_eq] at this ⊢
      exact fun hi => hj (hi ▸ this)
    rw [LivePipeline.run_bookOf, hempty] at hmem
    exact Finmap.notMem_empty hmem
  rintro pre e ⟨post, hpost⟩
  rcases pre with _ | ⟨a, _ | ⟨b, pre⟩⟩
  · obtain ⟨rfl, -⟩ := List.cons.inj hpost
    exact fun _ => hother [] _ rfl
  · obtain ⟨rfl, htail⟩ := List.cons.inj hpost
    obtain ⟨rfl, -⟩ := List.cons.inj htail
    exact hother [new] _ rfl
  · simp at hpost

/-- Two instruments use one order id: the first order still rests, and the detector has forgotten it. -/
theorem shared_id_forgotten :
    let p := LivePipeline.run (P := ℚ) [(SpoofingLayeringDetector.make {}).object] .empty
      [.order (orderOn "X" "A" .new "A" .buy 100 10), .order (orderOn "Y" "A" .new "A" .buy 100 10)]
    p.detectors.length = 1 ∧ (p.bookOf (ascii "X")).qtyAtPrice .buy 100 = 10 ∧
      ¬∃ d, p.detectors[0]? = some (SpoofingLayeringDetector.object d) ∧ Shadows d p := by
  refine ⟨rfl, by decide, ?_⟩
  rintro ⟨d, hd, hs⟩
  have hd := SpoofingLayeringDetector.object_injective (Option.some.inj hd)
  obtain ⟨t, ht, hinst, -⟩ := hs.resting (ascii "X") _ .buy 100 ⟨0, ⟨ascii "A", ascii "ACC", .buy, 10, 0⟩⟩ rfl ⟨_, rfl, by decide⟩
  have hentry : d.shadow (ascii "A") = some (ascii "ACC", ascii "Y", .buy, 10) := by
    rw [← hd]
    rfl
  rw [SpoofingLayeringDetector.shadow, ht, Option.map_some, Option.some.injEq] at hentry
  have hy : t.instrumentId = ascii "Y" := congrArg (·.2.1) hentry
  rw [hinst] at hy
  exact absurd hy (by decide)

end TradeSurveillance
