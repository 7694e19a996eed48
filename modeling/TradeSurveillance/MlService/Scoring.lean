import TradeSurveillance.Lib.JsonText
import TradeSurveillance.MlClient.ScoreClient

/-!
# `ml_service`: the other end of `POST /score`

What FastAPI and pydantic make of a body, the forest of scikit-learn and the exponential of numpy are arguments. The delay that a test
may ask for is left out.
-/

namespace TradeSurveillance.MlService

variable {P : Type}

/-! ## `features.py` and `schemas.py` -/

/-- `FEATURE_NAMES`. -/
def featureNames : List Str :=
  [ascii "order_count", ascii "total_qty", ascii "avg_qty", ascii "cancel_ratio", ascii "orders_per_second"]

/-- `features_to_vector`. -/
def featuresToVector [Double P] (windowFeatures : Map Str P) : List P :=
  featureNames.map fun name => (windowFeatures.lookup name).getD 0.0

structure ScoreRequest (P : Type) where
  accountId : Str
  instrumentId : Str
  windowFeatures : Map Str P

structure ScoreResponse (P : Type) where
  anomalyScore : P
  modelVersion : Str

/-! ## `model.py` -/

/-- `AnomalyModel`. The forest raises an exception for what it cannot take. -/
structure AnomalyModel (P : Type) where
  decisionFunction : List P → Option P
  exp : P → P
  modelVersion : Str

section Model

variable [Double P] [LinearOrder P]

/-- `SQUASH_STEEPNESS`. -/
def squashSteepness : P := 4.0

/-- `AnomalyModel.score`; `np.clip` is `std::clamp` where there is no NaN. -/
def AnomalyModel.score (model : AnomalyModel P) (windowFeatures : Map Str P) : Option P := do
  let decision ← model.decisionFunction (featuresToVector windowFeatures)
  let anomalyScore := 1.0 / (1.0 + model.exp (squashSteepness * decision))
  return Double.clamp anomalyScore 0.0 1.0

end Model

/-! ## `main.py` -/

/-- What FastAPI does: it parses the body of a request and lets pydantic validate it, it renders a response, and it writes its own
errors. -/
structure Framework (P : Type) where
  load : Str → Option JsonText.Json
  validate : JsonText.Json → Option (ScoreRequest P)
  render : ScoreResponse P → Str
  errorBody : ℕ → Str

variable [Double P] [LinearOrder P]

/-- `POST /score`. -/
def score (framework : Framework P) (model : AnomalyModel P) (body : Str) : HttpResult :=
  match (framework.load body).bind framework.validate with
  | none => .response 422 (framework.errorBody 422)
  | some request =>
    match model.score request.windowFeatures with
    | none => .response 500 (framework.errorBody 500)
    | some anomalyScore => .response 200 (framework.render ⟨anomalyScore, model.modelVersion⟩)

end TradeSurveillance.MlService
