import TradeSurveillance.Lib.Search
import TradeSurveillance.MlClient.ScoringWorker

/-!
# The JSON of the scoring service

The requests are written and the responses are read by hand: a member is found by searching the text for its quoted key and then for
the next colon. The features are kept in a hash map that is iterated over in an order the standard leaves open: the model takes any.
-/

namespace TradeSurveillance

/-- An order of iteration over the features of a request. -/
structure FeatureOrder (P : Type) where
  iterate : Map Str P → List (Str × P)
  nodup : ∀ features, ((iterate features).map Prod.fst).Nodup
  mem_iff : ∀ features name value, (name, value) ∈ iterate features ↔ features.lookup name = some value

namespace MlJson

/-- `escape_json_string`. -/
def escapeJsonString (value : Str) : Str := JsonString.escape value

/-- `find_value_start`: the text from the value on. -/
def findValueStart (body key : Str) : Option Str :=
  match Search.behind (JsonString.quoted key) body with
  | none => none
  | some rest => (Search.behind [58] rest).map (List.dropWhile Decimal.isSpace)

/-- `extract_string_field`. -/
def extractStringField (body key : Str) : Option Str :=
  match findValueStart body key with
  | none => none
  | some [] => none
  | some (c :: text) =>
    if c ≠ 34 then none else
    match JsonString.unescape text with
    | (_, []) => none
    | (result, _ :: _) => some result

variable {P : Type} [Double P]

/-- `extract_number_field`. -/
def extractNumberField (body key : Str) : Option P :=
  match findValueStart body key with
  | none => none
  | some text =>
    let number := text.takeWhile Decimal.isNumeric
    if number = [] then none else
    match Double.stod number with
    | .error _ => none
    | .ok x => some x

/-- The members of `window_features`. -/
def featureText (feature : Str × P) : Str := ascii "\"" ++ escapeJsonString feature.1 ++ ascii "\":" ++ Double.print17 feature.2

/-- `encode_scoring_request`. -/
def encodeScoringRequest (order : FeatureOrder P) (request : ScoringRequest P) : Str :=
  ascii "\x7b\"account_id\":\"" ++ escapeJsonString request.accountId ++ ascii "\"," ++
  ascii "\"instrument_id\":\"" ++ escapeJsonString request.instrumentId ++ ascii "\"," ++
  ascii "\"window_features\":\x7b" ++
  (ascii ",").intercalate ((order.iterate request.windowFeatures).map featureText) ++ ascii "\x7d\x7d"

/-- `decode_scoring_response`. -/
def decodeScoringResponse (body : Str) : Option (ScoringResult P) :=
  let anomalyScore : Option P := extractNumberField body (ascii "anomaly_score")
  let modelVersion := extractStringField body (ascii "model_version")
  match anomalyScore, modelVersion with
  | some anomalyScore, some modelVersion => some ⟨anomalyScore, modelVersion⟩
  | _, _ => none

end MlJson

end TradeSurveillance
