import TradeSurveillance.Detectors.SpoofingLayering

/-!
# `WashTradeDetector`, `FrontRunningDetector`, `StatisticalBaselineDetector`

The three detectors whose state, if any, is a map of short records.
-/

namespace TradeSurveillance

variable {P : Type} [Double P] [LinearOrder P]

/-! ## Wash trades -/

namespace WashTradeDetector

/-- `evaluate`: one alert for an execution between related accounts. -/
def evaluate (book : OrderBook P) (incoming : Event P) (accounts : AccountRegistry) : List (Alert P) :=
  match incoming with
  | .order _ => []
  | .execution execution =>
    if execution.counterpartyAccountId = [] then []
    else if !accounts.isRelated execution.accountId execution.counterpartyAccountId then []
    else [{
      detectorName := ascii "WashTradeDetector"
      score := 1.0
      instrumentId := execution.instrumentId
      accountIds := [execution.accountId, execution.counterpartyAccountId]
      orderIds := [execution.orderId, execution.tradeId]
      windowStartNs := execution.timestampNs
      windowEndNs := execution.timestampNs
      evidence := ascii "Execution " ++ execution.tradeId ++ ascii " matched account " ++ execution.accountId ++
        ascii " against related counterparty " ++ execution.counterpartyAccountId ++
        ascii " (same beneficial owner, explicit link, or self-trade)"
      modelVersion := none
      bookSnapshotSequence := some book.snapshotSequence }]

/-- The detector as the pipeline holds it; it has no state. -/
def object : IDetector P where
  State := Unit
  state := ()
  name := ascii "WashTradeDetector"
  evaluate _ book incoming accounts := ((), evaluate book incoming accounts)

end WashTradeDetector

/-! ## Front running -/

/-- `FrontRunningConfig` and its defaults. -/
structure FrontRunningConfig (P : Type) [Double P] where
  lookbackWindowNs : ℤ := 2000000000
  minLargeQtyThreshold : ℤ := 1000
  maxLeaderToLargeSizeRatio : P := 0.2

structure RecentOrder where
  accountId : Str
  orderId : Str
  qty : ℤ
  timestampNs : ℤ
  deriving DecidableEq, Repr

/-- The fields of `FrontRunningDetector`. -/
structure FrontRunningDetector (P : Type) [Double P] where
  config : FrontRunningConfig P
  recentByKey : Map Str (List RecentOrder)

namespace FrontRunningDetector

/-- The constructor. -/
def make (config : FrontRunningConfig P) : FrontRunningDetector P := ⟨config, ∅⟩

/-- The order reacts to an earlier one: no `continue` of the loop of `handle_new` is taken. -/
def reacts (config : FrontRunningConfig P) (order : Order P) (accounts : AccountRegistry) (prior : RecentOrder) : Bool :=
  prior.accountId ≠ order.accountId && accounts.isRelated order.accountId prior.accountId &&
  prior.qty ≥ config.minLargeQtyThreshold &&
  !decide ((order.qty : P) > (prior.qty : P) * config.maxLeaderToLargeSizeRatio) &&
  order.timestampNs ≥ prior.timestampNs

/-- The alert for a pair. -/
def alertFor (order : Order P) (prior : RecentOrder) (bookSnapshotSequence : ℤ) : Alert P where
  detectorName := ascii "FrontRunningDetector"
  score := 1.0
  instrumentId := order.instrumentId
  accountIds := [prior.accountId, order.accountId]
  orderIds := [prior.orderId, order.orderId]
  windowStartNs := prior.timestampNs
  windowEndNs := order.timestampNs
  evidence := ascii "related account " ++ order.accountId ++ ascii " placed order " ++ order.orderId ++ ascii " (qty=" ++
    Decimal.ofInt order.qty ++ ascii ") " ++ Decimal.ofInt (order.timestampNs - prior.timestampNs) ++
    ascii "ns after a large same-side order " ++ prior.orderId ++ ascii " (qty=" ++ Decimal.ofInt prior.qty ++
    ascii ") from related account " ++ prior.accountId
  modelVersion := none
  bookSnapshotSequence := some bookSnapshotSequence

/-- `handle_new`. -/
def handleNew (d : FrontRunningDetector P) (order : Order P) (accounts : AccountRegistry) (bookSnapshotSequence : ℤ) :
    FrontRunningDetector P × List (Alert P) :=
  let key := instrumentSideKey order.instrumentId order.side
  let recent := ((d.recentByKey.lookup key).getD []).filter fun r =>
    |order.timestampNs - r.timestampNs| ≤ d.config.lookbackWindowNs
  let alerts := (recent.filter (reacts d.config order accounts)).map fun prior => alertFor order prior bookSnapshotSequence
  let recent := recent ++ [⟨order.accountId, order.orderId, order.qty, order.timestampNs⟩]
  ({ d with recentByKey := d.recentByKey.insert key recent }, alerts)

/-- `evaluate`. -/
def evaluate (d : FrontRunningDetector P) (book : OrderBook P) (incoming : Event P) (accounts : AccountRegistry) :
    FrontRunningDetector P × List (Alert P) :=
  match incoming with
  | .execution _ => (d, [])
  | .order order => if order.status = .new then d.handleNew order accounts book.snapshotSequence else (d, [])

/-- The detector as the pipeline holds it. -/
def object (d : FrontRunningDetector P) : IDetector P where
  State := FrontRunningDetector P
  state := d
  name := ascii "FrontRunningDetector"
  evaluate := evaluate

end FrontRunningDetector

/-! ## The statistical baseline -/

/-- `StatisticalBaselineConfig` and its defaults. -/
structure StatisticalBaselineConfig (P : Type) [Double P] where
  zScoreThreshold : P := 3.0
  minSampleCount : ℤ := 5

structure RunningStats (P : Type) [Double P] where
  count : ℤ := 0
  mean : P := 0.0
  m2 : P := 0.0

/-- The fields of `StatisticalBaselineDetector`. -/
structure StatisticalBaselineDetector (P : Type) [Double P] where
  config : StatisticalBaselineConfig P
  statsByKey : Map Str (RunningStats P)

namespace StatisticalBaselineDetector

/-- The constructor. -/
def make (config : StatisticalBaselineConfig P) : StatisticalBaselineDetector P := ⟨config, ∅⟩

omit [LinearOrder P] in
/-- `update`. -/
def update (stats : RunningStats P) (value : P) : RunningStats P :=
  let count := stats.count + 1
  let delta := value - stats.mean
  let mean := stats.mean + delta / (count : P)
  let delta2 := value - mean
  ⟨count, mean, stats.m2 + delta * delta2⟩

omit [LinearOrder P] in
/-- `sample_variance`. -/
def sampleVariance (stats : RunningStats P) : P :=
  if stats.count > 1 then stats.m2 / ((stats.count - 1 : ℤ) : P) else 0.0

/-- `std::abs`. -/
def abs (x : P) : P := if Double.signBit x then -x else x

/-- The alerts for a New order, from the statistics before it. -/
def alertsFor (config : StatisticalBaselineConfig P) (stats : RunningStats P) (order : Order P) (book : OrderBook P) :
    List (Alert P) :=
  if stats.count < config.minSampleCount then [] else
  let stddev := Double.sqrt (sampleVariance stats)
  if ¬stddev > 0.0 then [] else
  let z := ((order.qty : P) - stats.mean) / stddev
  if ¬abs z ≥ config.zScoreThreshold then [] else
  [{
    detectorName := ascii "StatisticalBaselineDetector"
    score := Double.clamp (abs z / (2.0 * config.zScoreThreshold)) 0.0 1.0
    instrumentId := order.instrumentId
    accountIds := [order.accountId]
    orderIds := [order.orderId]
    windowStartNs := order.timestampNs
    windowEndNs := order.timestampNs
    evidence := ascii "order qty=" ++ Decimal.ofInt order.qty ++ ascii " z=" ++ Double.toString z ++
      ascii " against running mean=" ++ Double.toString stats.mean ++ ascii " stddev=" ++ Double.toString stddev ++
      ascii " (n=" ++ Decimal.ofInt stats.count ++ ascii ")"
    modelVersion := none
    bookSnapshotSequence := some book.snapshotSequence }]

/-- `evaluate`. -/
def evaluate (d : StatisticalBaselineDetector P) (book : OrderBook P) (incoming : Event P) :
    StatisticalBaselineDetector P × List (Alert P) :=
  match incoming with
  | .execution _ => (d, [])
  | .order order =>
    if order.status ≠ .new then (d, []) else
    let key := order.accountId ++ ascii "|" ++ order.instrumentId
    let stats := (d.statsByKey.lookup key).getD {}
    ({ d with statsByKey := d.statsByKey.insert key (update stats (order.qty : P)) }, alertsFor d.config stats order book)

/-- The detector as the pipeline holds it. -/
def object (d : StatisticalBaselineDetector P) : IDetector P where
  State := StatisticalBaselineDetector P
  state := d
  name := ascii "StatisticalBaselineDetector"
  evaluate d book incoming _ := d.evaluate book incoming

end StatisticalBaselineDetector

end TradeSurveillance
