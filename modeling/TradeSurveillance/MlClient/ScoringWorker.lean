import TradeSurveillance.MlClient.AnomalyDetector

/-!
# `MlScoringWorker`: what is done with a request

The client posts a request to a service and answers `nullopt` for every failure; its answer is an argument here.
-/

namespace TradeSurveillance

/-- `ScoringResult`. -/
structure ScoringResult (P : Type) where
  anomalyScore : P
  modelVersion : Str

/-- `MlScoringWorkerConfig` and its defaults. -/
structure MlScoringWorkerConfig (P : Type) [Double P] where
  alertThreshold : P := 0.7
  queueCapacity : Word := 1024

/-- The fields of `MlScoringWorker` its thread writes; `alerts` are those handed to the alert sink, in order. -/
structure MlScoringWorker (P : Type) [Double P] where
  config : MlScoringWorkerConfig P
  alerts : List (Alert P)
  scored : Word
  alerted : Word
  failed : Word

namespace MlScoringWorker

variable {P : Type} [Double P]

/-- The constructor. -/
def make (config : MlScoringWorkerConfig P) : MlScoringWorker P := ⟨config, [], 0, 0, 0⟩

/-- The alert `process_one` builds. -/
def alertOf (request : ScoringRequest P) (result : ScoringResult P) : Alert P where
  detectorName := ascii "MlAnomalyDetector"
  score := result.anomalyScore
  instrumentId := request.instrumentId
  accountIds := [request.accountId]
  orderIds := []
  windowStartNs := request.timestampNs
  windowEndNs := request.timestampNs
  evidence := ascii "Isolation Forest anomaly_score=" ++ Double.toString result.anomalyScore ++ ascii " model_version=" ++
    result.modelVersion
  modelVersion := some result.modelVersion
  bookSnapshotSequence := some request.bookSnapshotSequence

/-- `process_one`, with the answer of the client. -/
def processOne [LinearOrder P] (w : MlScoringWorker P) (answer : Option (ScoringResult P)) (request : ScoringRequest P) :
    MlScoringWorker P :=
  match answer with
  | none => { w with failed := w.failed + 1 }
  | some result =>
    let w := { w with scored := w.scored + 1 }
    if result.anomalyScore < w.config.alertThreshold then w
    else { w with
      alerted := w.alerted + 1
      alerts := w.alerts ++ [alertOf request result] }

end MlScoringWorker

end TradeSurveillance
