import TradeSurveillance.Detectors.Interface
import TradeSurveillance.Double

/-!
# `MlAnomalyDetector`

The detector tallies orders in tumbling windows and now and then hands the tally to the scoring worker. It returns no alerts: those
come from the worker's thread. What `submit` is called with is listed in the state.
-/

namespace TradeSurveillance

/-- `MlAnomalyDetectorConfig` and its defaults. -/
structure MlAnomalyDetectorConfig where
  windowDurationNs : ℤ := 60000000000
  minOrdersBeforeSubmit : ℤ := 5
  submitEveryNOrders : ℤ := 5

structure WindowStats where
  windowStartNs : ℤ := 0
  orderCount : ℤ := 0
  totalQty : ℤ := 0
  cancelCount : ℤ := 0
  deriving DecidableEq, Repr

/-- `ScoringRequest`. -/
structure ScoringRequest (P : Type) where
  accountId : Str
  instrumentId : Str
  windowFeatures : Map Str P
  timestampNs : ℤ
  bookSnapshotSequence : ℤ

/-- The fields of `MlAnomalyDetector`, and the requests submitted so far. -/
structure MlAnomalyDetector (P : Type) where
  config : MlAnomalyDetectorConfig
  statsByKey : Map Str WindowStats
  submitted : List (ScoringRequest P)

namespace MlAnomalyDetector

variable {P : Type} [Double P]

omit [Double P] in
/-- The constructor. -/
def make (config : MlAnomalyDetectorConfig) : MlAnomalyDetector P := ⟨config, ∅, []⟩

omit [Double P] in
/-- The statistics after an order, in its window or a fresh one. -/
def tally (config : MlAnomalyDetectorConfig) (stats : WindowStats) (order : Order P) : WindowStats :=
  let stats := if stats.windowStartNs = 0 ∨ order.timestampNs < stats.windowStartNs ∨
      order.timestampNs - stats.windowStartNs > config.windowDurationNs then
    { windowStartNs := order.timestampNs }
  else stats
  match order.status with
  | .new => { stats with
      orderCount := stats.orderCount + 1
      totalQty := wrap64 (stats.totalQty + order.qty) }
  | .cancelled => { stats with cancelCount := stats.cancelCount + 1 }
  | .replaced => stats

/-- The features of a window. -/
def features (config : MlAnomalyDetectorConfig) (stats : WindowStats) : Map Str P :=
  let windowDurationSec : P := (config.windowDurationNs : P) / 1e9
  let perOrder := fun n : ℤ => if stats.orderCount > 0 then (n : P) / (stats.orderCount : P) else 0.0
  Finmap.insert (ascii "orders_per_second") ((stats.orderCount : P) / windowDurationSec) <|
  Finmap.insert (ascii "cancel_ratio") (perOrder stats.cancelCount) <|
  Finmap.insert (ascii "avg_qty") (perOrder stats.totalQty) <|
  Finmap.insert (ascii "total_qty") (stats.totalQty : P) <|
  Finmap.insert (ascii "order_count") (stats.orderCount : P) ∅

/-- `handle_order`. -/
def handleOrder (d : MlAnomalyDetector P) (order : Order P) (bookSnapshotSequence : ℤ) : MlAnomalyDetector P :=
  let key := order.accountId ++ ascii "|" ++ order.instrumentId
  let stats := tally d.config ((d.statsByKey.lookup key).getD {}) order
  let d := { d with statsByKey := d.statsByKey.insert key stats }
  if stats.orderCount < d.config.minOrdersBeforeSubmit then d
  else if stats.orderCount.tmod d.config.submitEveryNOrders ≠ 0 then d
  else { d with
    submitted := d.submitted ++
      [⟨order.accountId, order.instrumentId, features d.config stats, order.timestampNs, bookSnapshotSequence⟩] }

/-- `evaluate`. -/
def evaluate (d : MlAnomalyDetector P) (book : OrderBook P) (incoming : Event P) : MlAnomalyDetector P × List (Alert P) :=
  match incoming with
  | .order order => (d.handleOrder order book.snapshotSequence, [])
  | .execution _ => (d, [])

/-- The detector as the pipeline holds it. -/
def object (d : MlAnomalyDetector P) : IDetector P where
  State := MlAnomalyDetector P
  state := d
  name := ascii "MlAnomalyDetector"
  evaluate d book incoming _ := d.evaluate book incoming

end MlAnomalyDetector

end TradeSurveillance
