import TradeSurveillance.Harness.Evaluation
import TradeSurveillance.Harness.KafkaReplay

/-!
# `harness/evaluation` and `harness/main`: rates, scored windows and the report

The scoring worker of a replay lets every window through, so that one replay can be judged at every threshold. The report is what `main`
collects from its replays for the JSON file: its console output is left out.
-/

namespace TradeSurveillance.Harness

/-! ## Rates -/

section Rates

variable (P : Type) [Double P]

/-- A part of a sum, NaN where the sum is zero. -/
def rate (part whole : ℕ) : WithNaN P := if whole > 0 then .number (((part : ℤ) : P) / ((whole : ℤ) : P)) else .nan

def ConfusionMatrix.precision (m : ConfusionMatrix) : WithNaN P := rate P m.tp (m.tp + m.fp)

def ConfusionMatrix.recall (m : ConfusionMatrix) : WithNaN P := rate P m.tp (m.tp + m.fn)

def ConfusionMatrix.f1 [DecidableEq P] (m : ConfusionMatrix) : WithNaN P :=
  match m.precision P, m.recall P with
  | .number p, .number r => if p + r = 0.0 then .nan else .number (2.0 * p * r / (p + r))
  | _, _ => .nan

end Rates

variable {P : Type}

/-! ## Scored windows -/

section Windows

variable [LinearOrder P]

/-- The loop body of `compute_ml_anomaly_confusion_matrix`. -/
def countWindow (scoreThreshold : P) (groundTruth : MlAnomalyGroundTruth) (windowDurationNs : ℤ) (matrix : ConfusionMatrix)
    (alert : Alert P) : ConfusionMatrix :=
  if alert.detectorName ≠ ascii "MlAnomalyDetector" then matrix else
  let positive := mlAnomalyWindowIsPositive groundTruth alert windowDurationNs
  let predicted := decide (alert.score ≥ scoreThreshold)
  if predicted && positive then { matrix with tp := matrix.tp + 1 }
  else if predicted && !positive then { matrix with fp := matrix.fp + 1 }
  else if !predicted && positive then { matrix with fn := matrix.fn + 1 }
  else { matrix with tn := matrix.tn + 1 }

/-- `compute_ml_anomaly_confusion_matrix`. -/
def computeMlAnomalyConfusionMatrix (alerts : List (Alert P)) (scoreThreshold : P) (groundTruth : MlAnomalyGroundTruth)
    (windowDurationNs : ℤ) : ConfusionMatrix :=
  alerts.foldl (countWindow scoreThreshold groundTruth windowDurationNs) ⟨0, 0, 0, 0⟩

/-- `ml_anomaly_threshold_sweep`. -/
def mlAnomalyThresholdSweep (alerts : List (Alert P)) (groundTruth : MlAnomalyGroundTruth) (windowDurationNs : ℤ)
    (thresholds : List P) : List (SweepPoint P) :=
  thresholds.map fun threshold => ⟨threshold, computeMlAnomalyConfusionMatrix alerts threshold groundTruth windowDurationNs⟩

end Windows

/-! ## The report -/

structure DetectorSpec where
  detectorName : Str
  targetPattern : Simulator.AbusePattern

/-- `pattern_aware_detector_specs`. -/
def patternAwareDetectorSpecs : List DetectorSpec :=
  [⟨ascii "WashTradeDetector", .washTrade⟩, ⟨ascii "SpoofingLayeringDetector", .spoofingLayering⟩,
    ⟨ascii "MarkingTheCloseDetector", .markingTheClose⟩, ⟨ascii "FrontRunningDetector", .frontRunning⟩]

/-- `detector_universe_kind`. -/
def detectorUniverseKind (detectorName : Str) : Except Exception UniverseKind :=
  if detectorName = ascii "WashTradeDetector" then .ok .execution
  else if detectorName = ascii "SpoofingLayeringDetector" then .ok .cancelOrder
  else if detectorName = ascii "MarkingTheCloseDetector" then .ok .execution
  else if detectorName = ascii "FrontRunningDetector" then .ok .newOrder
  else if detectorName = ascii "StatisticalBaselineDetector" then .ok .newOrder
  else .error (.invalidArgument (ascii "detector_universe_kind: unknown detector '" ++ detectorName ++ ascii "'"))

/-- `EvalRun`; its universes are those of the session. -/
structure EvalRun (P : Type) where
  simulation : Simulator.SimulationOutput P
  replay : ReplayResult P

def EvalRun.universes (run : EvalRun P) : Universes := buildUniverses run.simulation

structure JsonDetectorEntry (P : Type) where
  name : Str
  targetPattern : Str
  threshold : P
  matrix : ConfusionMatrix

structure JsonSeverityGradientEntry (P : Type) where
  severity : P
  recallByDetector : Map Str (WithNaN P)

section Report

variable [Double P] [LinearOrder P]

/-- `thresholds`. -/
def sweepThresholds : List P := [0.0, 0.1, 0.2, 0.3, 0.4, 0.5, 0.6, 0.7, 0.8, 0.9, 1.0]

/-- `std::abs(x - y) < 1e-9`. -/
def near (x y : P) : Bool := StatisticalBaselineDetector.abs (x - y) < 1e-9

/-- The matrix of a rule against its own pattern. -/
def specMatrix (run : EvalRun P) (spec : DetectorSpec) (scoreThreshold : P) : Except Exception ConfusionMatrix := do
  let u := selectUniverse run.universes (← detectorUniverseKind spec.detectorName)
  return computeConfusionMatrix run.replay.alerts spec.detectorName scoreThreshold u.eventIds
    (positiveIdsFor u spec.targetPattern)

/-- The entries of the rules at one half, but for marking the close. -/
def operatingEntries (run : EvalRun P) : Except Exception (List (JsonDetectorEntry P)) :=
  (patternAwareDetectorSpecs.filter (·.detectorName ≠ ascii "MarkingTheCloseDetector")).mapM fun spec => do
    return ⟨spec.detectorName, spec.targetPattern.toString, 0.5, ← specMatrix run spec 0.5⟩

/-- The entry of the statistical baseline, against every pattern. -/
def baselineEntry (run : EvalRun P) : JsonDetectorEntry P :=
  let u := selectUniverse run.universes .newOrder
  ⟨ascii "StatisticalBaselineDetector", ascii "any injected abuse", 0.5,
    computeConfusionMatrix run.replay.alerts (ascii "StatisticalBaselineDetector") 0.5 u.eventIds (anyAbuseIds u)⟩

/-- The entries of the threshold sweep that are kept: marking the close at its own threshold. -/
def sweepEntries (run : EvalRun P) : Except Exception (List (JsonDetectorEntry P)) := do
  let entries ← (patternAwareDetectorSpecs.filter (·.detectorName = ascii "MarkingTheCloseDetector")).mapM fun spec => do
    let u := selectUniverse run.universes (← detectorUniverseKind spec.detectorName)
    let sweep := thresholdSweep run.replay.alerts spec.detectorName u.eventIds (positiveIdsFor u spec.targetPattern)
      sweepThresholds
    return (sweep.filter fun point => near point.threshold 0.4).map fun point =>
      ⟨spec.detectorName, spec.targetPattern.toString, 0.4, point.matrix⟩
  return entries.flatten

/-- The points of the sweep over the scored windows; none where no window was scored. -/
def mlSweep (run : EvalRun P) : List (SweepPoint P) :=
  if run.replay.alerts.filter (·.detectorName = ascii "MlAnomalyDetector") = [] then [] else
  mlAnomalyThresholdSweep run.replay.alerts (buildMlAnomalyGroundTruth run.simulation)
    ({} : MlAnomalyDetectorConfig).windowDurationNs sweepThresholds

/-- An entry of the scoring detector. -/
def mlEntry (threshold : P) (point : SweepPoint P) : JsonDetectorEntry P :=
  ⟨ascii "MlAnomalyDetector", ascii "any injected abuse", threshold, point.matrix⟩

/-- `json_detectors`. -/
def jsonDetectors (run : EvalRun P) : Except Exception (List (JsonDetectorEntry P)) := do
  let operating ← operatingEntries run
  let sweep ← sweepEntries run
  return operating ++ [baselineEntry run] ++ sweep ++ ((mlSweep run).filter fun point => near point.threshold 0.7).map (mlEntry 0.7)

/-- `json_ml_sweep`. -/
def jsonMlSweep (run : EvalRun P) : List (JsonDetectorEntry P) := (mlSweep run).map fun point => mlEntry point.threshold point

/-- The entry of one severity. -/
def severityEntry (severity : P) (run : EvalRun P) : Except Exception (JsonSeverityGradientEntry P) := do
  let recallByDetector ← patternAwareDetectorSpecs.foldlM (fun recalls spec => do
    return recalls.insert spec.detectorName ((← specMatrix run spec 0.5).recall P)) (∅ : Map Str (WithNaN P))
  return ⟨severity, recallByDetector⟩

/-- What `main` collects: the main run, and a run for each severity. -/
structure EvaluationReport (P : Type) where
  run : EvalRun P
  detectors : List (JsonDetectorEntry P)
  mlAnomalySweep : List (JsonDetectorEntry P)
  severityGradient : List (JsonSeverityGradientEntry P)

def evaluationReport (run : EvalRun P) (gradient : List (P × EvalRun P)) : Except Exception (EvaluationReport P) := do
  let detectors ← jsonDetectors run
  let severityGradient ← gradient.mapM fun x => severityEntry x.1 x.2
  return ⟨run, detectors, jsonMlSweep run, severityGradient⟩

end Report

end TradeSurveillance.Harness
