import TradeSurveillance.Detectors.Rules
import TradeSurveillance.Lemmas.ScoringWindow
import TradeSurveillance.Lib.Unwinding

/-!
# Isolation of (account, instrument) pairs

The statistical baseline and the scoring detector keep their records in one map each, keyed by the account id, a bar and the instrument
id. `pair_isolated_iff`: what they say about a pair depends on the orders of the pair alone exactly when neither id has a bar in it;
otherwise another pair has the same key.
-/

namespace TradeSurveillance

/-- An order of a pair, whatever the book. -/
def orderOf {P : Type} (account instrument : Str) : OrderBook P × Event P → Option (Order P)
  | (_, .order o) => if o.accountId = account ∧ o.instrumentId = instrument then some o else none
  | (_, .execution _) => none

/-- The orders of a pair. -/
def ordersOf {P : Type} (account instrument : Str) (stream : Stream P) : List (Order P) :=
  stream.filterMap (orderOf account instrument)

/-- An order of the pair is an order event with its account and instrument. -/
theorem orderOf_eq_some {P : Type} {account instrument : Str} {x : OrderBook P × Event P} {o : Order P}
    (h : orderOf account instrument x = some o) :
    x = (x.1, .order o) ∧ o.accountId = account ∧ o.instrumentId = instrument := by
  obtain ⟨book, e⟩ := x
  cases e with
  | execution _ => cases h
  | order o' =>
    simp only [orderOf, Option.ite_none_right_eq_some, Option.some.injEq] at h
    obtain ⟨hpair, rfl⟩ := h
    exact ⟨rfl, hpair⟩

/-- An order that is none of the pair has another account or instrument. -/
theorem orderOf_eq_none {P : Type} {account instrument : Str} {book : OrderBook P} {o : Order P}
    (h : orderOf account instrument (book, .order o) = none) : ¬(o.accountId = account ∧ o.instrumentId = instrument) := by
  simpa [orderOf] using h

/-- The key of a pair without a bar in its ids is no other pair's. -/
theorem pairKey_inj {a i a' i' : Str} (ha : 124 ∉ a) (hi : 124 ∉ i) (h : pairKey a' i' = pairKey a i) : a' = a ∧ i' = i := by
  have hbar : ascii "|" = [124] := rfl
  simp only [pairKey, hbar, List.append_assoc, List.singleton_append] at h
  obtain ⟨h1, -, h2⟩ := (List.append_cons_inj_of_notMem ha hi).1 h.symm
  exact ⟨h1.symm, h2.symm⟩

/-- An order that is not of the pair has another key. -/
theorem pairKey_ne {P : Type} {a i : Str} {o : Order P} (ha : 124 ∉ a) (hi : 124 ∉ i) (h : ¬(o.accountId = a ∧ o.instrumentId = i)) :
    pairKey a i ≠ pairKey o.accountId o.instrumentId := fun heq => h (pairKey_inj ha hi heq.symm)

/-- Where an id has a bar in it, another pair has the key too. -/
theorem exists_pairKey_eq {a i : Str} (h : ¬(124 ∉ a ∧ 124 ∉ i)) : ∃ a' i', (a', i') ≠ (a, i) ∧ pairKey a' i' = pairKey a i := by
  have hbar : ascii "|" = [124] := rfl
  have hlen : ∀ {x y : Str}, x.length ≠ y.length → x ≠ y := fun hne heq => hne (congrArg List.length heq)
  rw [not_and_or, not_not, not_not] at h
  rcases h with h | h
  · obtain ⟨x, y, rfl⟩ := List.append_of_mem h
    refine ⟨x, y ++ 124 :: i, fun heq => ?_, by simp [pairKey, hbar]⟩
    exact hlen (by simp) (congrArg Prod.fst heq)
  · obtain ⟨x, y, rfl⟩ := List.append_of_mem h
    refine ⟨a ++ 124 :: x, y, fun heq => ?_, by simp [pairKey, hbar]⟩
    exact hlen (by simp) (congrArg Prod.fst heq)

variable {P : Type} [Double P] [LinearOrder P]

/-! ## The statistical baseline -/

namespace StatisticalBaselineDetector

/-- The alerts for a pair among those of a call, but for their `book_snapshot_sequence`. -/
def pairAlerts (account instrument : Str) (alerts : List (Alert P)) : List (Alert P) :=
  (alerts.filter fun a => a.accountIds = [account] ∧ a.instrumentId = instrument).map Alert.withoutSequence

/-- A call of `evaluate`, as far as a pair sees it. -/
def pairStep (account instrument : Str) (d : StatisticalBaselineDetector P) (x : OrderBook P × Event P) :
    StatisticalBaselineDetector P × List (Alert P) :=
  ((d.evaluate x.1 x.2).1, pairAlerts account instrument (d.evaluate x.1 x.2).2)

/-- Two detectors that cannot be told apart by orders with a key. -/
def Agree (key : Str) (d d' : StatisticalBaselineDetector P) : Prop :=
  d.config = d'.config ∧ d.statsByKey.lookup key = d'.statsByKey.lookup key

variable {account instrument : Str}

/-- An alert is about the account and the instrument of the order. -/
theorem mem_alertsFor {config : StatisticalBaselineConfig P} {stats : RunningStats P} {order : Order P} {book : OrderBook P}
    {a : Alert P} (h : a ∈ alertsFor config stats order book) :
    a.accountIds = [order.accountId] ∧ a.instrumentId = order.instrumentId := by
  simp only [alertsFor] at h
  split_ifs at h <;> simp only [List.not_mem_nil, List.mem_singleton] at h
  rw [h]
  exact ⟨rfl, rfl⟩

/-- The book is in the sequence number only. -/
theorem alertsFor_book (config : StatisticalBaselineConfig P) (stats : RunningStats P) (order : Order P)
    (book book' : OrderBook P) :
    (alertsFor config stats order book).map Alert.withoutSequence =
      (alertsFor config stats order book').map Alert.withoutSequence := by
  simp only [alertsFor]
  split_ifs <;> simp only [List.map_cons, List.map_nil, Alert.withoutSequence]

/-- An event that is no order of the pair changes nothing at its key and raises no alert for it. -/
theorem pairStep_hidden (ha : 124 ∉ account) (hi : 124 ∉ instrument) {d d' : StatisticalBaselineDetector P}
    {x : OrderBook P × Event P} (hagree : Agree (pairKey account instrument) d d') (hx : orderOf account instrument x = none) :
    Agree (pairKey account instrument) (pairStep account instrument d x).1 d' ∧ (pairStep account instrument d x).2 = [] := by
  obtain ⟨book, e⟩ := x
  cases e with
  | execution x => exact ⟨hagree, rfl⟩
  | order o =>
    have hne := orderOf_eq_none hx
    have hkey := pairKey_ne ha hi hne
    simp only [pairStep, evaluate]
    split_ifs with hs
    · exact ⟨hagree, rfl⟩
    · refine ⟨⟨hagree.1, (Finmap.lookup_insert_of_ne _ hkey).trans hagree.2⟩, ?_⟩
      rw [pairAlerts, List.map_eq_nil_iff, List.filter_eq_nil_iff]
      intro a hmem
      obtain ⟨h1, h2⟩ := mem_alertsFor hmem
      rw [h1, h2]
      simpa using hne

/-- An order of the pair is judged by what is at its key. -/
theorem pairStep_visible {d d' : StatisticalBaselineDetector P} {o : Order P}
    (hagree : Agree (pairKey o.accountId o.instrumentId) d d') (book book' : OrderBook P) :
    Agree (pairKey o.accountId o.instrumentId) (pairStep o.accountId o.instrumentId d (book, .order o)).1
        (pairStep o.accountId o.instrumentId d' (book', .order o)).1 ∧
      (pairStep o.accountId o.instrumentId d (book, .order o)).2 =
        (pairStep o.accountId o.instrumentId d' (book', .order o)).2 := by
  obtain ⟨hconfig, hlookup⟩ := hagree
  simp only [pairStep, evaluate]
  split_ifs with hs
  · exact ⟨⟨hconfig, hlookup⟩, rfl⟩
  · have hall : ∀ stats book, pairAlerts o.accountId o.instrumentId (alertsFor d'.config stats o book) =
        (alertsFor d'.config stats o book).map Alert.withoutSequence := by
      intro stats book
      rw [pairAlerts, List.filter_eq_self.2 fun a ha => decide_eq_true (mem_alertsFor ha)]
    simp only [pairKey] at hlookup
    simp only [hconfig, hlookup, hall]
    refine ⟨⟨rfl, ?_⟩, alertsFor_book _ _ _ _ _⟩
    simp only [pairKey, Finmap.lookup_insert]

/-- The baseline detector sees an order of the pair alike in agreeing states, and no other order of it. -/
theorem unwinds (ha : 124 ∉ account) (hi : 124 ∉ instrument) : Unwinding.Unwinds (pairStep (P := P) account instrument)
    (fun _ => True) (orderOf account instrument) (Agree (pairKey account instrument)) where
  symm h := ⟨h.1.symm, h.2.symm⟩
  hidden hagree _ hx := pairStep_hidden ha hi hagree hx
  visible := by
    intro d d' x x' o hagree _ _ hx hx'
    obtain ⟨heq, rfl, rfl⟩ := orderOf_eq_some hx
    obtain ⟨heq', -, -⟩ := orderOf_eq_some hx'
    rw [heq, heq']
    exact pairStep_visible hagree _ _

end StatisticalBaselineDetector

/-! ## The scoring detector -/

namespace MlAnomalyDetector

/-- The features submitted for a pair so far. -/
def pairFeatures (account instrument : Str) (d : MlAnomalyDetector P) : List (Map Str P) :=
  (d.submitted.filter fun r => r.accountId = account ∧ r.instrumentId = instrument).map (·.windowFeatures)

/-- A call of `evaluate`. -/
def pairStep (d : MlAnomalyDetector P) (x : OrderBook P × Event P) : MlAnomalyDetector P × List (Alert P) := d.evaluate x.1 x.2

/-- Two detectors that cannot be told apart by orders of a pair, which have submitted the same for it. -/
def Agree (account instrument : Str) (d d' : MlAnomalyDetector P) : Prop :=
  d.config = d'.config ∧ d.statsByKey.lookup (pairKey account instrument) = d'.statsByKey.lookup (pairKey account instrument) ∧
    d.pairFeatures account instrument = d'.pairFeatures account instrument

variable {account instrument : Str}

omit [LinearOrder P] in
/-- What an order adds to the features submitted for a pair. -/
theorem pairFeatures_handleOrder (d : MlAnomalyDetector P) (o : Order P) (sequence : ℤ) {stats : WindowStats}
    (hstats : tally d.config ((d.statsByKey.lookup (pairKey o.accountId o.instrumentId)).getD {}) o = stats) :
    (d.handleOrder o sequence).pairFeatures account instrument = d.pairFeatures account instrument ++
      if (o.accountId = account ∧ o.instrumentId = instrument) ∧ Submits d.config stats then [features d.config stats]
      else [] := by
  rw [handleOrder_eq d o sequence hstats, pairFeatures, List.filter_append, List.map_append]
  by_cases hs : Submits d.config stats
  · by_cases hp : o.accountId = account ∧ o.instrumentId = instrument <;> simp [hs, hp, pairFeatures]
  · simp [hs, pairFeatures]

omit [LinearOrder P] in
/-- An event that is no order of the pair neither changes what the pair sees nor submits anything for it. -/
theorem pairStep_hidden (ha : 124 ∉ account) (hi : 124 ∉ instrument) {d d' : MlAnomalyDetector P} {x : OrderBook P × Event P}
    (hagree : Agree account instrument d d') (hx : orderOf account instrument x = none) :
    Agree account instrument (pairStep d x).1 d' ∧ (pairStep d x).2 = [] := by
  obtain ⟨book, e⟩ := x
  cases e with
  | execution x => exact ⟨hagree, rfl⟩
  | order o =>
    have hne := orderOf_eq_none hx
    have hkey := pairKey_ne ha hi hne
    have h := handleOrder_eq d o book.snapshotSequence rfl
    refine ⟨⟨?_, ?_, ?_⟩, rfl⟩
    · show (d.handleOrder o book.snapshotSequence).config = _
      rw [h]
      exact hagree.1
    · show (d.handleOrder o book.snapshotSequence).statsByKey.lookup _ = _
      rw [h]
      exact (Finmap.lookup_insert_of_ne _ hkey).trans hagree.2.1
    · refine (pairFeatures_handleOrder d o _ rfl).trans ?_
      simpa [hne] using hagree.2.2

omit [LinearOrder P] in
/-- An order of the pair keeps the agreement, whatever the book. -/
theorem pairStep_visible {d d' : MlAnomalyDetector P} {o : Order P} (hagree : Agree o.accountId o.instrumentId d d')
    (book book' : OrderBook P) :
    Agree o.accountId o.instrumentId (pairStep d (book, .order o)).1 (pairStep d' (book', .order o)).1 := by
  obtain ⟨hconfig, hlookup, hfeatures⟩ := hagree
  have hstats : tally d.config ((d.statsByKey.lookup (pairKey o.accountId o.instrumentId)).getD {}) o =
    tally d'.config ((d'.statsByKey.lookup (pairKey o.accountId o.instrumentId)).getD {}) o := by rw [hconfig, hlookup]
  have h1 := handleOrder_eq d o book.snapshotSequence hstats
  have h2 := handleOrder_eq d' o book'.snapshotSequence rfl
  refine ⟨?_, ?_, ?_⟩
  · show (d.handleOrder o book.snapshotSequence).config = (d'.handleOrder o book'.snapshotSequence).config
    rw [h1, h2]
    exact hconfig
  · show (d.handleOrder o book.snapshotSequence).statsByKey.lookup _ =
      (d'.handleOrder o book'.snapshotSequence).statsByKey.lookup _
    rw [h1, h2, Finmap.lookup_insert, Finmap.lookup_insert]
  · refine (pairFeatures_handleOrder d o _ hstats).trans (.trans ?_ (pairFeatures_handleOrder d' o _ rfl).symm)
    rw [hconfig, hfeatures]

omit [LinearOrder P] in
/-- The learned detector sees an order of the pair alike in agreeing states, and no other order of it. -/
theorem unwinds (ha : 124 ∉ account) (hi : 124 ∉ instrument) :
    Unwinding.Unwinds (pairStep (P := P)) (fun _ => True) (orderOf account instrument) (Agree account instrument) where
  symm h := ⟨h.1.symm, h.2.1.symm, h.2.2.symm⟩
  hidden hagree _ hx := pairStep_hidden ha hi hagree hx
  visible := by
    intro d d' x x' o hagree _ _ hx hx'
    obtain ⟨heq, rfl, rfl⟩ := orderOf_eq_some hx
    obtain ⟨heq', -, -⟩ := orderOf_eq_some hx'
    rw [heq, heq']
    exact ⟨pairStep_visible hagree _ _, rfl⟩

end MlAnomalyDetector

/-! ## Isolation -/

/-- Whatever other accounts and instruments do, and whatever the books, the baseline's alerts for a pair (but for their
`book_snapshot_sequence`) and the features submitted for it depend on the orders of the pair alone. -/
def Isolated (baseline : StatisticalBaselineConfig P) (ml : MlAnomalyDetectorConfig) (account instrument : Str) : Prop :=
  ∀ s s' : Stream P, ordersOf account instrument s = ordersOf account instrument s' →
    (Unwinding.run (StatisticalBaselineDetector.pairStep account instrument) (.make baseline) s).2 =
      (Unwinding.run (StatisticalBaselineDetector.pairStep account instrument) (.make baseline) s').2 ∧
    (Unwinding.run MlAnomalyDetector.pairStep (.make ml) s).1.pairFeatures account instrument =
      (Unwinding.run MlAnomalyDetector.pairStep (.make ml) s').1.pairFeatures account instrument

/-- A pair without a bar in its names is isolated. -/
theorem isolated_of_no_bar {account instrument : Str} (ha : 124 ∉ account) (hi : 124 ∉ instrument)
    (baseline : StatisticalBaselineConfig P) (ml : MlAnomalyDetectorConfig) : Isolated baseline ml account instrument := by
  intro s s' horders
  have hb := Unwinding.run_eq_of_view (StatisticalBaselineDetector.unwinds (P := P) ha hi) (s := .make baseline) ⟨rfl, rfl⟩
    (fun _ _ => trivial) (fun _ _ => trivial) horders
  have hm := Unwinding.run_eq_of_view (MlAnomalyDetector.unwinds (P := P) ha hi) (s := .make ml) ⟨rfl, rfl, rfl⟩
    (fun _ _ => trivial) (fun _ _ => trivial) horders
  exact ⟨hb.2, hm.1.2.2⟩

/-! ## Two pairs with one key -/

/-- A New order of a pair. -/
def oneOf (account instrument : Str) : Order P where
  orderId := []
  accountId := account
  instrumentId := instrument
  side := .buy
  price := 0.0
  qty := 1
  orderType := .limit
  timestampNs := 1
  status := .new
  venue := []
  origOrderId := []

namespace MlAnomalyDetector

/-- At a key, `n` orders are counted. -/
structure Counted (key : Str) (n : ℤ) (d : MlAnomalyDetector P) : Prop where
  config : d.config = {}
  next : tally {} ((d.statsByKey.lookup key).getD {}) (oneOf [] [] : Order P) = ⟨1, n + 1, wrap64 (n + 1), 0⟩

/-- What is submitted with the `n`-th order. -/
def submittedAt (n : ℤ) : List (Map Str P) := if Submits {} ⟨1, n, wrap64 n, 0⟩ then [features {} ⟨1, n, wrap64 n, 0⟩] else []

omit [LinearOrder P] in
/-- A new detector has counted no orders. -/
theorem counted_make (key : Str) : Counted key 0 (.make {} : MlAnomalyDetector P) := ⟨rfl, rfl⟩

omit [LinearOrder P] in
/-- One more order is counted for every pair with the key, and submitted for its own. -/
theorem pairStep_oneOf {key : Str} {n : ℤ} {d : MlAnomalyDetector P} (h : Counted key n d) {a i : Str} (hkey : pairKey a i = key)
    (account instrument : Str) (book : OrderBook P) :
    Counted key (n + 1) (pairStep d (book, .order (oneOf a i))).1 ∧
      (pairStep d (book, .order (oneOf a i))).1.pairFeatures account instrument = d.pairFeatures account instrument ++
        if a = account ∧ i = instrument then submittedAt (n + 1) else [] := by
  subst hkey
  have hstats : tally d.config ((d.statsByKey.lookup (pairKey a i)).getD {}) (oneOf a i : Order P) = ⟨1, n + 1, wrap64 (n + 1), 0⟩ := by
    rw [h.config]
    exact h.next
  have heq := handleOrder_eq d (oneOf a i) book.snapshotSequence hstats
  refine ⟨⟨?_, ?_⟩, ?_⟩
  · show (d.handleOrder (oneOf a i) book.snapshotSequence).config = _
    rw [heq]
    exact h.config
  · show tally {} (((d.handleOrder (oneOf a i) book.snapshotSequence).statsByKey.lookup _).getD {}) _ = _
    rw [heq, show pairKey (oneOf a i : Order P).accountId (oneOf a i : Order P).instrumentId = pairKey a i from rfl,
      Finmap.lookup_insert]
    exact congrArg (WindowStats.mk 1 (n + 1 + 1) · 0) (wrap64_add_left (n + 1) 1)
  · refine (pairFeatures_handleOrder d (oneOf a i) book.snapshotSequence hstats).trans ?_
    rw [h.config, submittedAt, ite_and]
    rfl

/-- The same order again and again. -/
def orders (a i : Str) (k : ℕ) : Stream P := List.replicate k (.make i, .order (oneOf a i))

omit [LinearOrder P] in
/-- After `k` more orders of the pair, `k` more are counted, and what was due has been submitted. -/
theorem run_orders {n : ℤ} {d : MlAnomalyDetector P} {a i : Str} (h : Counted (pairKey a i) n d) (k : ℕ) :
    Counted (pairKey a i) (n + k) (Unwinding.run pairStep d (orders a i k)).1 ∧
      (Unwinding.run pairStep d (orders a i k)).1.pairFeatures a i =
        d.pairFeatures a i ++ (List.range k).flatMap fun j => submittedAt (n + (j : ℕ) + 1) := by
  induction k with
  | zero => simpa [orders] using h
  | succ k ih =>
    have hlast := pairStep_oneOf ih.1 rfl a i (.make i)
    have hrun : (Unwinding.run pairStep d (orders a i (k + 1))).1 =
        (pairStep (Unwinding.run pairStep d (orders a i k)).1 (.make i, .order (oneOf a i))).1 := by
      rw [orders, List.replicate_succ', Unwinding.run_concat, orders]
    rw [hrun]
    refine ⟨by simpa [add_assoc] using hlast.1, ?_⟩
    rw [hlast.2, ih.2, List.range_succ, List.flatMap_append]
    simp

omit [LinearOrder P] in
/-- Nothing is submitted before the fifth order. -/
theorem submittedAt_eq_nil {n : ℤ} (h : n < 5) : submittedAt n = ([] : List (Map Str P)) := if_neg fun hs => hs.1 h

omit [LinearOrder P] in
/-- The fifth order is submitted. -/
theorem submittedAt_five : submittedAt 5 ≠ ([] : List (Map Str P)) := by
  rw [submittedAt, if_pos ⟨by decide, by decide⟩]
  exact List.cons_ne_nil _ _

omit [LinearOrder P] in
/-- Four orders are too few. -/
theorem pairFeatures_four (a i : Str) : (Unwinding.run pairStep (.make {}) (orders a i 4)).1.pairFeatures a i = ([] : List (Map Str P)) := by
  rw [(run_orders (counted_make _) 4).2, List.flatMap_eq_nil_iff.2]
  · rfl
  · intro j hj
    have hj4 := List.mem_range.1 hj
    exact submittedAt_eq_nil (by omega)

omit [LinearOrder P] in
/-- Four orders after another one are enough. -/
theorem pairFeatures_five {a i : Str} {d : MlAnomalyDetector P} (h : Counted (pairKey a i) 1 d) :
    (Unwinding.run pairStep d (orders a i 4)).1.pairFeatures a i ≠ [] := by
  rw [(run_orders h 4).2]
  intro hnil
  have hfifth := List.flatMap_eq_nil_iff.1 (List.append_eq_nil_iff.1 hnil).2 3 (by decide)
  exact submittedAt_five hfifth

end MlAnomalyDetector

/-- With another pair's order counted first, the fourth order of a pair is the fifth at its key. -/
theorem not_isolated_of_key {a i a' i' : Str} (hne : (a', i') ≠ (a, i)) (hkey : pairKey a' i' = pairKey a i)
    (baseline : StatisticalBaselineConfig P) : ¬Isolated baseline {} a i := by
  intro hisolated
  have hpair : ¬(a' = a ∧ i' = i) := fun h => hne (Prod.ext h.1 h.2)
  have hfirst := MlAnomalyDetector.pairStep_oneOf (MlAnomalyDetector.counted_make (P := P) (pairKey a i)) hkey a i (.make i')
  have hfour := MlAnomalyDetector.pairFeatures_four (P := P) a i
  have hfive := MlAnomalyDetector.pairFeatures_five hfirst.1
  generalize (MlAnomalyDetector.orders a i 4 : Stream P) = s at hfour hfive
  have horders : ordersOf a i s = ordersOf a i ((.make i', .order (oneOf a' i')) :: s) :=
    (List.filterMap_cons_none (show orderOf a i (.make i', .order (oneOf a' i')) = none from if_neg hpair)).symm
  exact hfive ((hisolated _ _ horders).2.symm.trans hfour)

/-- Pairs are isolated, under the default configurations and so under any, exactly when no id has a bar in it. -/
theorem pair_isolated_iff (account instrument : Str) :
    (Isolated (P := P) {} {} account instrument ↔ 124 ∉ account ∧ 124 ∉ instrument) ∧
      ((∀ baseline ml, Isolated (P := P) baseline ml account instrument) ↔ 124 ∉ account ∧ 124 ∉ instrument) := by
  have hcollide : Isolated (P := P) {} {} account instrument → 124 ∉ account ∧ 124 ∉ instrument := by
    intro hisolated
    by_contra h
    obtain ⟨a', i', hne, hkey⟩ := exists_pairKey_eq h
    exact not_isolated_of_key hne hkey {} hisolated
  have hclean : 124 ∉ account ∧ 124 ∉ instrument → ∀ baseline ml, Isolated (P := P) baseline ml account instrument :=
    fun h baseline ml => isolated_of_no_bar h.1 h.2 baseline ml
  exact ⟨⟨hcollide, fun h => hclean h {} {}⟩, ⟨fun h => hcollide (h {} {}), hclean⟩⟩

/-- Account `A` on instrument `B|C` is counted with account `A|B` on instrument `C`. -/
theorem pair_not_isolated : ¬∀ account instrument : Str, Isolated (P := ℚ) {} {} account instrument := by
  intro h
  have hne : (ascii "A|B", ascii "C") ≠ (ascii "A", ascii "B|C") := by decide
  exact not_isolated_of_key hne (by decide) {} (h _ _)

end TradeSurveillance
