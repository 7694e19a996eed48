import TradeSurveillance.MlClient.MlJson

/-!
# `MlScoreClient`

The HTTP library is an argument: what becomes of a body that is posted. Its timeouts only decide whether there is an answer.
-/

namespace TradeSurveillance

/-- `httplib::Result`. -/
inductive HttpResult where
  /-- Refused, timed out, and the like. -/
  | failed
  | response (status : ℕ) (body : Str)
  deriving DecidableEq, Repr

namespace MlScoreClient

variable {P : Type} [Double P]

/-- `score`. -/
def score (post : Str → HttpResult) (order : FeatureOrder P) (request : ScoringRequest P) : Option (ScoringResult P) :=
  match post (MlJson.encodeScoringRequest order request) with
  | .failed => none
  | .response status body => if status ≠ 200 then none else MlJson.decodeScoringResponse body

end MlScoreClient

end TradeSurveillance
