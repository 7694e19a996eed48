import TradeSurveillance.Harness.ReplayRunner
import TradeSurveillance.MlClient.ScoringWorker

/-!
# `harness/evaluation`: alerts against the ground truth

The alerts of a rule are counted against the ids it could have named. An alert of the scoring worker names no orders: it is looked up in
the timestamps of the abusive orders of its account and instrument.
-/

namespace TradeSurveillance.Harness

variable {P : Type}

/-! ## Universes -/

/-- `DetectorUniverse`. -/
structure DetectorUniverse where
  eventIds : Finset Str
  idsByPattern : Map Simulator.AbusePattern (Finset Str)

namespace DetectorUniverse

def empty : DetectorUniverse := ⟨∅, ∅⟩

/-- `ids_by_pattern[pattern]`. -/
def ids (u : DetectorUniverse) (pattern : Simulator.AbusePattern) : Finset Str :=
  (u.idsByPattern.lookup pattern).getD ∅

/-- Insert an id and file it under the pattern of its record. -/
def add (u : DetectorUniverse) (id : Str) (pattern : Simulator.AbusePattern) : DetectorUniverse where
  eventIds := insert id u.eventIds
  idsByPattern := u.idsByPattern.insert pattern (insert id (u.ids pattern))

end DetectorUniverse

/-- `Universes`. -/
structure Universes where
  newOrders : DetectorUniverse
  cancelOrders : DetectorUniverse
  executions : DetectorUniverse

namespace Universes

/-- The loop body over the orders: a `Replaced` one is left out. -/
def addOrder (universes : Universes) (order : Simulator.Order P) : Universes :=
  match order.status with
  | .new => { universes with newOrders := universes.newOrders.add order.orderId order.groundTruthLabel.pattern }
  | .cancelled => { universes with cancelOrders := universes.cancelOrders.add order.orderId order.groundTruthLabel.pattern }
  | .replaced => universes

/-- The loop body over the executions. -/
def addExecution (universes : Universes) (execution : Simulator.Execution P) : Universes :=
  { universes with executions := universes.executions.add execution.tradeId execution.groundTruthLabel.pattern }

end Universes

/-- `build_universes`. -/
def buildUniverses (simulation : Simulator.SimulationOutput P) : Universes :=
  let universes := simulation.orders.foldl Universes.addOrder ⟨.empty, .empty, .empty⟩
  simulation.executions.foldl Universes.addExecution universes

inductive UniverseKind where
  | newOrder | cancelOrder | execution
  deriving DecidableEq, Repr

/-- `select_universe`. -/
def selectUniverse (universes : Universes) : UniverseKind → DetectorUniverse
  | .newOrder => universes.newOrders
  | .cancelOrder => universes.cancelOrders
  | .execution => universes.executions

/-- `positive_ids_for`. -/
def positiveIdsFor (u : DetectorUniverse) (targetPattern : Simulator.AbusePattern) : Finset Str := u.ids targetPattern

/-- `any_abuse_ids`. -/
def anyAbuseIds (u : DetectorUniverse) : Finset Str :=
  (u.idsByPattern.keys.filter (· ≠ .baseline)).biUnion u.ids

/-! ## Confusion matrices -/

structure ConfusionMatrix where
  tp : ℕ
  fp : ℕ
  fn : ℕ
  tn : ℕ
  deriving DecidableEq, Repr

section Counts

variable {D : Type} [LT D] [DecidableLT D]

/-- The loop body over the alerts. -/
def addPredicted (detectorName : Str) (scoreThreshold : D) (universeIds predicted : Finset Str) (alert : Alert D) : Finset Str :=
  if alert.detectorName ≠ detectorName then predicted
  else if alert.score < scoreThreshold then predicted
  else alert.orderIds.foldl (fun predicted id => if id ∈ universeIds then insert id predicted else predicted) predicted

/-- `compute_confusion_matrix`. -/
def computeConfusionMatrix (alerts : List (Alert D)) (detectorName : Str) (scoreThreshold : D) (universeIds positiveIds : Finset Str) :
    ConfusionMatrix :=
  let predicted := alerts.foldl (addPredicted detectorName scoreThreshold universeIds) ∅
  { tp := (predicted.filter (· ∈ positiveIds)).card
    fp := (predicted.filter (· ∉ positiveIds)).card
    fn := (positiveIds.filter (· ∉ predicted)).card
    tn := (universeIds.filter fun id => id ∉ positiveIds ∧ id ∉ predicted).card }

structure SweepPoint (D : Type) where
  threshold : D
  matrix : ConfusionMatrix

/-- `threshold_sweep`. -/
def thresholdSweep (alerts : List (Alert D)) (detectorName : Str) (universeIds positiveIds : Finset Str) (thresholds : List D) :
    List (SweepPoint D) :=
  thresholds.map fun threshold => ⟨threshold, computeConfusionMatrix alerts detectorName threshold universeIds positiveIds⟩

end Counts

/-! ## Scored windows -/

/-- `MlAnomalyGroundTruth`: the map is read by key only. -/
structure MlAnomalyGroundTruth where
  abuseOrderTimestampsByKey : Str → Option (List ℤ)

/-- The key of an order. -/
def groundTruthKey (order : Simulator.Order P) : Str := order.accountId ++ ascii "|" ++ order.instrumentId

/-- The loop body of `build_ml_anomaly_ground_truth`. -/
def addAbuseOrder (timestamps : Map Str (List ℤ)) (order : Simulator.Order P) : Map Str (List ℤ) :=
  if order.groundTruthLabel.pattern = .baseline then timestamps
  else timestamps.insert (groundTruthKey order) ((timestamps.lookup (groundTruthKey order)).getD [] ++ [order.timestampNs])

/-- `build_ml_anomaly_ground_truth`. -/
def buildMlAnomalyGroundTruth (simulation : Simulator.SimulationOutput P) : MlAnomalyGroundTruth :=
  let timestamps := simulation.orders.foldl addAbuseOrder ∅
  ⟨fun key => (timestamps.lookup key).map (StableSort.sortBy id)⟩

/-- `std::lower_bound` in a sorted vector, from what it points to on. -/
def lowerBound (values : List ℤ) (value : ℤ) : List ℤ := values.dropWhile (· < value)

/-- `ml_anomaly_window_is_positive`. -/
def mlAnomalyWindowIsPositive (groundTruth : MlAnomalyGroundTruth) (alert : Alert P) (windowDurationNs : ℤ) : Bool :=
  match alert.accountIds.head? with
  | none => false
  | some account =>
    match groundTruth.abuseOrderTimestampsByKey (account ++ ascii "|" ++ alert.instrumentId) with
    | none => false
    | some timestamps =>
      let windowHi := alert.windowStartNs
      let windowLo := windowHi - windowDurationNs
      match (lowerBound timestamps windowLo).head? with
      | none => false
      | some firstInRange => firstInRange ≤ windowHi

end TradeSurveillance.Harness
