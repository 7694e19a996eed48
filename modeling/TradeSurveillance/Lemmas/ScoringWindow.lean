import TradeSurveillance.Harness.ReplayRunner
import TradeSurveillance.MlClient.AnomalyDetector

/-!
# What an order does to the scoring detector

`handleOrder_eq` says it of the detector, `Window.add` of a window and the orders counted in it, of which the statistics are a tally.
-/

namespace TradeSurveillance

open Harness

variable {P : Type}

/-- The key of a pair. -/
def pairKey (account instrument : Str) : Str := account ++ ascii "|" ++ instrument

namespace MlAnomalyDetector

/-- An order at a timestamp opens a window. -/
def Opens (config : MlAnomalyDetectorConfig) (stats : WindowStats) (timestampNs : ℤ) : Prop :=
  stats.windowStartNs = 0 ∨ timestampNs < stats.windowStartNs ∨ timestampNs - stats.windowStartNs > config.windowDurationNs

instance (config : MlAnomalyDetectorConfig) (stats : WindowStats) (timestampNs : ℤ) : Decidable (Opens config stats timestampNs) :=
  inferInstanceAs (Decidable (_ ∨ _))

/-- The statistics of a window and the orders counted in it. -/
structure Window (P : Type) where
  stats : WindowStats := {}
  orders : List (Simulator.Order P) := []

namespace Window

/-- A window an order opens, before the order is counted. -/
def opened (timestampNs : ℤ) : Window P := { stats := { windowStartNs := timestampNs } }

/-- The window an order is counted in. -/
def current (config : MlAnomalyDetectorConfig) (w : Window P) (o : Simulator.Order P) : Window P :=
  if Opens config w.stats o.timestampNs then opened o.timestampNs else w

/-- The window after an order. -/
def add (config : MlAnomalyDetectorConfig) (w : Window P) (o : Simulator.Order P) : Window P where
  stats := tally config w.stats (toFixOrder o)
  orders := (w.current config o).orders ++ [o]

/-- An order is counted by its status and changes nothing else. -/
theorem add_stats (config : MlAnomalyDetectorConfig) (w : Window P) (o : Simulator.Order P) :
    (w.add config o).stats = if o.status = .cancelled then
        { (w.current config o).stats with cancelCount := (w.current config o).stats.cancelCount + 1 }
      else { (w.current config o).stats with
        orderCount := (w.current config o).stats.orderCount + 1
        totalQty := wrap64 ((w.current config o).stats.totalQty + o.qty) } := by
  have hcurrent : (w.current config o).stats = if Opens config w.stats o.timestampNs then
      { windowStartNs := o.timestampNs } else w.stats := by
    unfold current
    split_ifs <;> rfl
  rw [hcurrent]
  unfold add tally toFixOrder
  by_cases hst : o.status = .cancelled <;> simp only [hst, if_true, if_false] <;> rfl

/-! ### What is in a window -/

@[simp] theorem mem_add_orders {config : MlAnomalyDetectorConfig} {w : Window P} {o o' : Simulator.Order P} :
    o' ∈ (w.add config o).orders ↔ o' ∈ (w.current config o).orders ∨ o' = o := by
  simp [add]

theorem add_windowStartNs (config : MlAnomalyDetectorConfig) (w : Window P) (o : Simulator.Order P) :
    (w.add config o).stats.windowStartNs = (w.current config o).stats.windowStartNs := by
  rw [add_stats]
  split_ifs <;> rfl

/-- An order does not precede its window. -/
theorem current_le (config : MlAnomalyDetectorConfig) (w : Window P) (o : Simulator.Order P) :
    (w.current config o).stats.windowStartNs ≤ o.timestampNs := by
  unfold current
  split_ifs with h
  · exact le_refl _
  · exact not_lt.1 fun hlt => h (.inr (.inl hlt))

/-- An order is not later than a duration after the start of its window. -/
theorem sub_le_current {config : MlAnomalyDetectorConfig} (hduration : 0 ≤ config.windowDurationNs) (w : Window P)
    (o : Simulator.Order P) : o.timestampNs - config.windowDurationNs ≤ (w.current config o).stats.windowStartNs := by
  unfold current
  split_ifs with h
  · exact sub_le_self _ hduration
  · have hgap : ¬o.timestampNs - w.stats.windowStartNs > config.windowDurationNs := fun hgt => h (.inr (.inr hgt))
    omega

/-- What was counted before is of the same window. -/
theorem of_mem_current {config : MlAnomalyDetectorConfig} {w : Window P} {o o' : Simulator.Order P}
    (h : o' ∈ (w.current config o).orders) : o' ∈ w.orders ∧ w.current config o = w := by
  unfold current at h ⊢
  split_ifs at h ⊢
  · nomatch h
  · exact ⟨h, rfl⟩

/-- The statistics are those of the orders. -/
structure Counts (w : Window P) : Prop where
  orderCount : w.stats.orderCount = (w.orders.filter fun o => o.status ≠ .cancelled).length
  totalQty : w.stats.totalQty = wrap64 ((w.orders.filter fun o => o.status ≠ .cancelled).map (·.qty)).sum
  cancelCount : w.stats.cancelCount = (w.orders.filter fun o => o.status = .cancelled).length

theorem Counts.add {w : Window P} (h : w.Counts) (config : MlAnomalyDetectorConfig) (o : Simulator.Order P) :
    (w.add config o).Counts := by
  have hcurrent : (w.current config o).Counts := by
    unfold current
    split_ifs
    · exact ⟨rfl, rfl, rfl⟩
    · exact h
  have hstats := add_stats config w o
  have horders : (w.add config o).orders = (w.current config o).orders ++ [o] := rfl
  generalize w.current config o = w' at *
  generalize w.add config o = w'' at *
  by_cases hst : o.status = .cancelled
  · rw [if_pos hst] at hstats
    constructor <;> simp [hstats, horders, hst, hcurrent.orderCount, hcurrent.totalQty, hcurrent.cancelCount]
  · rw [if_neg hst] at hstats
    constructor <;> simp [hstats, horders, hst, hcurrent.orderCount, hcurrent.totalQty, hcurrent.cancelCount]

end Window

/-! ## One order -/

/-- The statistics after an order, and whether they are submitted. -/
def Submits (config : MlAnomalyDetectorConfig) (stats : WindowStats) : Prop :=
  ¬stats.orderCount < config.minOrdersBeforeSubmit ∧ stats.orderCount.tmod config.submitEveryNOrders = 0

instance (config : MlAnomalyDetectorConfig) (stats : WindowStats) : Decidable (Submits config stats) :=
  inferInstanceAs (Decidable (_ ∧ _))

variable [Double P]

/-- What `handle_order` does. -/
theorem handleOrder_eq (d : MlAnomalyDetector P) (o : Order P) (sequence : ℤ) {stats : WindowStats}
    (hstats : tally d.config ((d.statsByKey.lookup (pairKey o.accountId o.instrumentId)).getD {}) o = stats) :
    d.handleOrder o sequence =
      { config := d.config
        statsByKey := d.statsByKey.insert (pairKey o.accountId o.instrumentId) stats
        submitted := d.submitted ++ if Submits d.config stats then
          [⟨o.accountId, o.instrumentId, features d.config stats, o.timestampNs, sequence⟩] else [] } := by
  subst hstats
  unfold handleOrder Submits pairKey
  simp only
  generalize tally d.config ((d.statsByKey.lookup (o.accountId ++ ascii "|" ++ o.instrumentId)).getD {}) o = stats
  by_cases h1 : stats.orderCount < d.config.minOrdersBeforeSubmit
  · simp [h1]
  · by_cases h2 : stats.orderCount.tmod d.config.submitEveryNOrders = 0 <;> simp [h1, h2]

end MlAnomalyDetector

end TradeSurveillance
