import TradeSurveillance.Harness.EvaluationReport
import TradeSurveillance.Lib.JsonString

/-!
# `harness/json_output`: the report as JSON

The writer joins fields whose values are JSON already; the rest is what `main` writes to the file of its `--json` option.
-/

namespace TradeSurveillance.Harness

/-- `json_escape`. -/
def jsonEscape (s : Str) : Str := JsonString.escape s

/-- `json_string`. -/
def jsonString (s : Str) : Str := ascii "\"" ++ jsonEscape s ++ ascii "\""

/-- `JsonWriter`: the text so far, and whether it has no field yet. -/
structure JsonWriter where
  buf : Str := ascii "\x7b"
  first : Bool := true

namespace JsonWriter

def field (w : JsonWriter) (key rawJsonValue : Str) : JsonWriter where
  buf := w.buf ++ (if w.first then [] else ascii ",") ++ jsonString key ++ ascii ":" ++ rawJsonValue
  first := false

def str (w : JsonWriter) : Str := w.buf ++ ascii "\x7d"

end JsonWriter

/-- A writer with these fields, one after the other. -/
def writeFields (fields : List (Str × Str)) : Str := (fields.foldl (fun w f => w.field f.1 f.2) ({} : JsonWriter)).str

/-- Texts between brackets, with a comma before every one but the first. -/
def writeArray (items : List Str) : Str := ascii "[" ++ (ascii ",").intercalate items ++ ascii "]"

section Report

variable {P : Type} [Double P]

/-- `json_number` of a double: `%.6f` into a buffer of 32 characters. -/
def jsonNumber : WithNaN P → Str
  | .nan => ascii "null"
  | .number x => (Double.toString x).take 31

variable [LinearOrder P]

/-- An entry of `detectors` and of `ml_anomaly_sweep`. -/
def detectorJson (entry : JsonDetectorEntry P) : Str :=
  writeFields [
    (ascii "name", jsonString entry.name),
    (ascii "target_pattern", jsonString entry.targetPattern),
    (ascii "threshold", jsonNumber (.number entry.threshold)),
    (ascii "tp", Decimal.ofNat entry.matrix.tp),
    (ascii "fp", Decimal.ofNat entry.matrix.fp),
    (ascii "fn", Decimal.ofNat entry.matrix.fn),
    (ascii "tn", Decimal.ofNat entry.matrix.tn),
    (ascii "precision", jsonNumber (entry.matrix.precision P)),
    (ascii "recall", jsonNumber (entry.matrix.recall P)),
    (ascii "f1", jsonNumber (entry.matrix.f1 P))]

/-- `recall_by_detector.at`. -/
def recallAt (entry : JsonSeverityGradientEntry P) (detectorName : Str) : Except Exception (WithNaN P) :=
  match entry.recallByDetector.lookup detectorName with
  | some value => .ok value
  | none => .error (.outOfRange (ascii "_Map_base::at"))

/-- An entry of `severity_gradient`. -/
def severityJson (entry : JsonSeverityGradientEntry P) : Except Exception Str := do
  let recalls ← patternAwareDetectorSpecs.mapM fun spec => do
    return jsonString spec.detectorName ++ ascii ":" ++ jsonNumber (← recallAt entry spec.detectorName)
  return writeFields [
    (ascii "severity", jsonNumber (.number entry.severity)),
    (ascii "recall_by_detector", ascii "\x7b" ++ (ascii ",").intercalate recalls ++ ascii "\x7d")]

/-- `replay_integrity`. -/
def replayIntegrityJson (run : EvalRun P) : Str :=
  writeFields [
    (ascii "orders", Decimal.ofInt run.simulation.orders.length),
    (ascii "executions", Decimal.ofInt run.simulation.executions.length),
    (ascii "total_events_published", Decimal.ofInt run.replay.eventsTotal),
    (ascii "replayed_from_kafka", Decimal.ofInt run.replay.eventsReplayedFromKafka),
    (ascii "events_processed", Decimal.ofInt run.replay.eventsProcessed.toInt),
    (ascii "events_skipped_inconsistent", Decimal.ofInt run.replay.eventsSkippedInconsistent.toInt),
    (ascii "ring_buffer_dropped", Decimal.ofInt run.replay.ringBufferDropped.toInt)]

/-- The text of the report, at a time of the clock. -/
def evaluationJson (nowEpochNs : ℤ) (report : EvaluationReport P) : Except Exception Str := do
  let severityGradient ← report.severityGradient.mapM severityJson
  return writeFields [
    (ascii "generated_at_unix_ns", Decimal.ofInt nowEpochNs),
    (ascii "replay_integrity", replayIntegrityJson report.run),
    (ascii "detectors", writeArray (report.detectors.map detectorJson)),
    (ascii "ml_anomaly_sweep", writeArray (report.mlAnomalySweep.map detectorJson)),
    (ascii "severity_gradient_severities", ascii "[0.1,0.3,0.5,0.7,0.9]"),
    (ascii "severity_gradient", writeArray severityGradient)]

end Report

end TradeSurveillance.Harness
