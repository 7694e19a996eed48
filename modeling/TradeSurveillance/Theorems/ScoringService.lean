import TradeSurveillance.Lemmas.ScoringWindow
import TradeSurveillance.MlService.Scoring
import TradeSurveillance.Theorems.ScoringRequest
import TradeSurveillance.Theorems.ScoringResponse
import TradeSurveillance.Theorems.WindowSweep

/-!
# The scoring service scores the windows the detector tallied

A request that arrives is validated to the features it was made of, in whatever order they were written, and the vector of the forest is
the tally in the order of `FEATURE_NAMES`. The client answers with the score of that vector or with nothing (`Answered`), so every alert
of the worker has such a score, between 0 and 1.
-/

namespace TradeSurveillance

/-! ## A score that is out of range -/

namespace MlJson

/-- Wherever the score stands, its value is found. -/
theorem findValueStart_score {literal version body : Str} (h : IsResponse literal version body) :
    ∃ (m : RawMember) (c : UInt8) (text : Str), findValueStart body (ascii "anomaly_score") = some (m.valueText ++ m.after ++ c :: text) ∧
      (c = 44 ∨ c = 125) ∧ IsScore literal m := by
  obtain ⟨lead, trail, m, n, members, hlead, -, hm, hn, hmembers, rfl⟩ := h
  have hquote : (34 : UInt8) ∉ lead ++ [123] := by
    simp [notMem_of_blank hlead (rfl : Decimal.isSpace 34 = false)]
  have hjoin : ∀ a b : RawMember, lead ++ 123 :: (joinMembers [a, b] ++ 125 :: trail) =
      (lead ++ [123]) ++ a.text ++ 44 :: (b.text ++ 125 :: trail) := by
    intro a b
    simp [joinMembers, List.intercalate]
  rw [← hm.key]
  rcases hmembers with rfl | rfl
  · rw [hjoin]
    exact ⟨m, 44, _, findValueStart_first hm.isMember hquote _, .inl rfl, hm⟩
  · have hne : n.key ≠ m.key := by
      rw [hm.key, hn.key]
      decide
    rw [hjoin]
    exact ⟨m, 125, _, findValueStart_second hn.isMember hm.isMember hne hquote _, .inr rfl, hm⟩

/-- A score that `std::stod` does not take is no result. -/
theorem decode_response_error {P : Type} [Double P] {literal version body : Str} {what : Exception}
    (hresponse : IsResponse literal version body) (hstod : Double.stod literal = (.error what : Except Exception P)) :
    decodeScoringResponse body = (none : Option (ScoringResult P)) := by
  obtain ⟨m, c, text, hstart, hc, hm⟩ := findValueStart_score hresponse
  have hvalue : m.valueText = literal := by simp [RawMember.valueText, hm.quoted, hm.value]
  have htake : (literal ++ m.after ++ c :: text).takeWhile Decimal.isNumeric = literal := by
    rw [List.append_assoc]
    exact Search.takeWhile_run hm.number.isNumeric.2 (hm.isMember.scans.head_after_not_numeric ⟨c, rfl, hc⟩)
  have hnumber : extractNumberField body (ascii "anomaly_score") = (none : Option P) := by
    rw [extractNumberField, hstart, hvalue]
    simp only [htake, if_neg hm.number.isNumeric.1, hstod]
  rw [decodeScoringResponse, hnumber]

end MlJson

namespace MlService

open JsonText (Json IsJson Conforming Printable)
open MlJson (IsResponse ReadBack Sendable printed)

variable {P : Type}

/-! ## What the framework is relied on for -/

/-- A `dict` made of its items. -/
def dict (items : List (Str × P)) : Map Str P := items.foldl (fun d item => d.insert item.1 item.2) ∅

/-- A version that JSON renders with no escapes but those of quotes and backslashes. -/
def PlainVersion (version : Str) : Prop := ∀ b ∈ version, 32 ≤ b.toNat ∧ b.toNat < 127

/-- What the texts and values between the client and the service are relied on for; `repr` is how a float is rendered. -/
structure Framework.Conforms [Double P] (framework : Framework P) (repr : P → Str) : Prop where
  load : Conforming framework.load
  /-- The object of a request is accepted, and a number is the float it stands for. -/
  validate : ∀ accountId instrumentId (features : List (Str × P)), (∀ f ∈ features, Double.stod (Double.print17 f.2) = .ok f.2) →
    framework.validate (.object [(ascii "account_id", .string accountId), (ascii "instrument_id", .string instrumentId),
      (ascii "window_features", .object (features.map printed))]) = some ⟨accountId, instrumentId, dict features⟩
  /-- A response is rendered as an object of its two members. -/
  render : ∀ score version, Double.isFinite score = true → PlainVersion version →
    IsResponse (repr score) version (framework.render ⟨score, version⟩)

/-- The scores of a model are read back as they were rendered, or are out of the range of `std::stod`. -/
def ReadsScores [Double P] [LinearOrder P] (repr : P → Str) (model : AnomalyModel P) : Prop :=
  ∀ windowFeatures x, model.score windowFeatures = some x →
    Double.stod (repr x) = .ok x ∨ ∃ what, Double.stod (repr x) = (.error what : Except Exception P)

/-- The numbers from 0 to 1 are finite. -/
structure UnitFinite (P : Type) [Double P] [LinearOrder P] : Prop where
  zero_le_one : (0.0 : P) ≤ 1.0
  finite : ∀ x : P, 0.0 ≤ x → x ≤ 1.0 → Double.isFinite x = true

/-! ## A request arrives -/

theorem lookup_dict {items : List (Str × P)} (h : (items.map Prod.fst).Nodup) (name : Str) (x : P) :
    (dict items).lookup name = some x ↔ (name, x) ∈ items := by
  induction items using List.reverseRecOn with
  | nil => simp [dict]
  | append_singleton items f ih =>
    rw [List.map_append, List.nodup_append] at h
    obtain ⟨hitems, -, hfresh⟩ := h
    have hdict : dict (items ++ [f]) = (dict items).insert f.1 f.2 := by
      rw [dict, List.foldl_append]
      rfl
    rw [hdict, List.mem_append, List.mem_singleton]
    by_cases hname : name = f.1
    · subst hname
      have hnot : (f.1, x) ∉ items := fun hmem =>
        hfresh f.1 (List.mem_map.2 ⟨_, hmem, rfl⟩) f.1 List.mem_cons_self rfl
      rw [Finmap.lookup_insert, Option.some.injEq]
      constructor
      · rintro rfl
        exact .inr rfl
      · rintro (hmem | heq)
        · exact absurd hmem hnot
        · rw [← heq]
    · rw [Finmap.lookup_insert_of_ne _ hname, ih hitems]
      constructor
      · exact .inl
      · rintro (hmem | rfl)
        · exact hmem
        · exact absurd rfl hname

/-- A `dict` forgets the order of iteration. -/
theorem dict_iterate (order : FeatureOrder P) (features : Map Str P) : dict (order.iterate features) = features := by
  refine Finmap.ext_lookup fun name => ?_
  refine Option.ext fun x => ?_
  rw [lookup_dict (order.nodup features), order.mem_iff]

variable [Double P]

/-- The service gets the request the client wrote. -/
theorem validate_encode {framework : Framework P} {repr : P → Str} (h : framework.Conforms repr) (order : FeatureOrder P)
    {request : ScoringRequest P} (hsendable : Sendable request) (hread : ReadBack request) :
    (framework.load (MlJson.encodeScoringRequest order request)).bind framework.validate =
      some ⟨request.accountId, request.instrumentId, request.windowFeatures⟩ := by
  have hjson : IsJson (MlJson.encodeScoringRequest order request) (MlJson.valueOf order request) :=
    (MlJson.isJson_encode_iff hread).2 ⟨hsendable, rfl⟩
  obtain ⟨v, hv, hload⟩ := h.load _ ⟨_, hjson⟩
  obtain ⟨-, rfl⟩ := (MlJson.isJson_encode_iff hread).1 hv
  rw [hload, Option.bind_some, MlJson.valueOf, h.validate _ _ _ fun f hf => ?_, dict_iterate]
  exact (hread f.1 f.2 ((order.mem_iff _ _ _).1 hf)).2

/-- The columns of the forest are those of the tally. -/
theorem featuresToVector_features (config : MlAnomalyDetectorConfig) (stats : WindowStats) :
    featuresToVector (MlAnomalyDetector.features config stats : Map Str P) =
      [(stats.orderCount : P), (stats.totalQty : P),
        if stats.orderCount > 0 then (stats.totalQty : P) / (stats.orderCount : P) else 0.0,
        if stats.orderCount > 0 then (stats.cancelCount : P) / (stats.orderCount : P) else 0.0,
        (stats.orderCount : P) / ((config.windowDurationNs : P) / 1e9)] := by
  rw [featuresToVector, featureNames, MlAnomalyDetector.features]
  simp (disch := decide) only [List.map_cons, List.map_nil, Finmap.lookup_insert, Finmap.lookup_insert_of_ne, Option.getD_some]

/-! ## One call -/

section Call

variable [LinearOrder P] {framework : Framework P} {repr : P → Str} {model : AnomalyModel P} {post : Str → HttpResult}
  {request : ScoringRequest P}

/-- What a model scores is the squashed decision on the vector, from 0 to 1. -/
theorem AnomalyModel.score_eq_some {windowFeatures : Map Str P} {x : P} (hunit : UnitFinite P)
    (h : model.score windowFeatures = some x) : ∃ decision, model.decisionFunction (featuresToVector windowFeatures) = some decision ∧
      x = Double.clamp (1.0 / (1.0 + model.exp (squashSteepness * decision))) 0.0 1.0 ∧ 0.0 ≤ x ∧ x ≤ 1.0 := by
  obtain ⟨decision, hdecision, hx⟩ := Option.bind_eq_some_iff.1 h
  obtain rfl := Option.some.inj hx
  exact ⟨decision, hdecision, rfl, Double.le_clamp hunit.zero_le_one, Double.clamp_le hunit.zero_le_one⟩

/-- What is posted is lost, or answered by the service. -/
def Reaches (post service : Str → HttpResult) : Prop := ∀ body, post body = .failed ∨ post body = service body

/-- What the service answers to the features of a request, as the client reads it. -/
def answerOf (repr : P → Str) (model : AnomalyModel P) (windowFeatures : Map Str P) : Option (ScoringResult P) :=
  match model.score windowFeatures with
  | none => none
  | some x =>
    match (Double.stod (repr x) : Except Exception P) with
    | .ok x => some ⟨x, model.modelVersion⟩
    | .error _ => none

/-- An answer has a score of the features, from 0 to 1. -/
theorem answerOf_eq_some {windowFeatures : Map Str P} {result : ScoringResult P} (hscores : ReadsScores repr model)
    (h : answerOf repr model windowFeatures = some result) :
    model.score windowFeatures = some result.anomalyScore ∧ result.modelVersion = model.modelVersion := by
  unfold answerOf at h
  cases hscore : model.score windowFeatures with
  | none => simp [hscore] at h
  | some x =>
    rcases hscores _ x hscore with hstod | ⟨what, hstod⟩
    · simp only [hscore, hstod, Option.some.injEq] at h
      subst h
      exact ⟨rfl, rfl⟩
    · simp [hscore, hstod] at h

/-- The client answers what the service answers, or nothing where the call is lost. -/
theorem client_score (hframework : framework.Conforms repr) (hscores : ReadsScores repr model) (hunit : UnitFinite P)
    (hversion : PlainVersion model.modelVersion) (hpost : Reaches post (score framework model)) (order : FeatureOrder P)
    (hsendable : Sendable request) (hread : ReadBack request) :
    MlScoreClient.score post order request = if post (MlJson.encodeScoringRequest order request) = .failed then none
      else answerOf repr model request.windowFeatures := by
  rcases hpost (MlJson.encodeScoringRequest order request) with hlost | hanswer
  · rw [MlScoreClient.score, hlost, if_pos rfl]
  · rw [MlScoreClient.score, hanswer, score, validate_encode hframework order hsendable hread, answerOf]
    cases hscore : model.score request.windowFeatures with
    | none => simp [hscore]
    | some x =>
      obtain ⟨decision, -, -, hzero, hone⟩ := AnomalyModel.score_eq_some hunit hscore
      have hresponse := hframework.render x model.modelVersion (hunit.finite x hzero hone) hversion
      rcases hscores _ x hscore with hstod | ⟨what, hstod⟩
      · simp [hscore, hstod, MlJson.decode_response hresponse hstod]
      · simp [hscore, hstod, MlJson.decode_response_error hresponse hstod]

end Call

/-! ## What is submitted -/

section Submitted

open MlAnomalyDetector (features Submits)

variable {config : MlAnomalyDetectorConfig} {calls : List (OrderBook P × Event P)}

/-- The detector behind a run of the pipeline. -/
def detectorAfter (config : MlAnomalyDetectorConfig) (calls : List (OrderBook P × Event P)) : MlAnomalyDetector P :=
  calls.foldl (fun d c => (d.evaluate c.1 c.2).1) (.make config)

/-- A request is made of an order and of the tally that was due with it. -/
structure Tallied (config : MlAnomalyDetectorConfig) (calls : List (OrderBook P × Event P)) (request : ScoringRequest P) : Prop where
  order : ∃ c ∈ calls, ∃ o, c.2 = .order o ∧ request.accountId = o.accountId ∧ request.instrumentId = o.instrumentId ∧
    request.timestampNs = o.timestampNs
  features : ∃ stats, Submits config stats ∧ request.windowFeatures = features config stats

theorem detectorAfter_concat (config : MlAnomalyDetectorConfig) (calls : List (OrderBook P × Event P)) (c : OrderBook P × Event P) :
    detectorAfter config (calls ++ [c]) = ((detectorAfter config calls).evaluate c.1 c.2).1 := by
  rw [detectorAfter, List.foldl_append]
  rfl

/-- Whatever the events are, what is submitted is tallied. -/
theorem tallied_of_mem (config : MlAnomalyDetectorConfig) (calls : List (OrderBook P × Event P)) :
    (detectorAfter config calls).config = config ∧ ∀ request ∈ (detectorAfter config calls).submitted, Tallied config calls request := by
  induction calls using List.reverseRecOn with
  | nil => exact ⟨rfl, List.forall_mem_nil _⟩
  | append_singleton calls c ih =>
    obtain ⟨hconfig, hold⟩ := ih
    have hold' : ∀ request ∈ (detectorAfter config calls).submitted, Tallied config (calls ++ [c]) request := by
      intro request hrequest
      obtain ⟨⟨c', hc', o, ho⟩, hfeatures⟩ := hold request hrequest
      exact ⟨⟨c', List.mem_append_left _ hc', o, ho⟩, hfeatures⟩
    obtain ⟨book, event⟩ := c
    rw [detectorAfter_concat]
    cases event with
    | execution e => exact ⟨hconfig, hold'⟩
    | order o =>
      rw [MlAnomalyDetector.evaluate, MlAnomalyDetector.handleOrder_eq _ _ _ rfl]
      refine ⟨hconfig, fun request hrequest => ?_⟩
      rcases List.mem_append.1 hrequest with hrequest | hrequest
      · exact hold' request hrequest
      · split at hrequest
        · rename_i hsubmits
          rw [hconfig] at hsubmits hrequest
          obtain rfl := List.mem_singleton.1 hrequest
          exact ⟨⟨_, List.mem_append_right _ List.mem_cons_self, o, rfl, rfl, rfl, rfl⟩, _, hsubmits, rfl⟩
        · cases hrequest

/-- The features have the names the service knows. -/
theorem mem_featureNames {stats : WindowStats} {name : Str} {x : P} (h : (features config stats : Map Str P).lookup name = some x) :
    name ∈ featureNames := by
  by_contra hname
  simp only [featureNames, List.mem_cons, List.not_mem_nil, or_false, not_or] at hname
  obtain ⟨hcount, htotal, havg, hratio, hsecond⟩ := hname
  rw [features, Finmap.lookup_insert_of_ne _ hsecond, Finmap.lookup_insert_of_ne _ hratio, Finmap.lookup_insert_of_ne _ havg,
    Finmap.lookup_insert_of_ne _ htotal, Finmap.lookup_insert_of_ne _ hcount, Finmap.lookup_empty] at h
  cases h

theorem Tallied.sendable {request : ScoringRequest P} (h : Tallied config calls request)
    (hids : ∀ c ∈ calls, ∀ o, c.2 = .order o → Printable o.accountId ∧ Printable o.instrumentId) : Sendable request := by
  obtain ⟨c, hc, o, ho, haccount, hinstrument, -⟩ := h.order
  obtain ⟨stats, -, hfeatures⟩ := h.features
  refine ⟨haccount ▸ (hids c hc o ho).1, hinstrument ▸ (hids c hc o ho).2, fun name x hx => ?_⟩
  have hnames : ∀ name ∈ featureNames, Printable name := by
    simp only [featureNames, List.forall_mem_cons, List.not_mem_nil, false_implies, implies_true, and_true]
    exact ⟨JsonText.printable_of_ascii rfl, JsonText.printable_of_ascii rfl, JsonText.printable_of_ascii rfl,
      JsonText.printable_of_ascii rfl, JsonText.printable_of_ascii rfl⟩
  rw [hfeatures] at hx
  exact hnames name (mem_featureNames hx)

end Submitted

/-! ## The worker -/

section Worker

variable [LinearOrder P]

/-- What the client answers to requests, one call after the other. -/
def answers (posts : List (Str → HttpResult)) (order : FeatureOrder P) (requests : List (ScoringRequest P)) :
    List (Option (ScoringResult P)) :=
  (posts.zip requests).map fun x => MlScoreClient.score x.1 order x.2

/-- An answer in its place is one to the request there. -/
theorem mem_zip_map_zip {α β γ : Type} {f : α × β → γ} {l : List α} {r : List β} {x : γ × β} (h : x ∈ ((l.zip r).map f).zip r) :
    ∃ a, (a, x.2) ∈ l.zip r ∧ x.1 = f (a, x.2) := by
  induction l generalizing r with
  | nil => cases h
  | cons a l ih =>
    cases r with
    | nil => cases h
    | cons b r =>
      rw [List.zip_cons_cons, List.map_cons, List.zip_cons_cons] at h
      rcases List.mem_cons.1 h with rfl | h
      · exact ⟨a, List.mem_cons_self, rfl⟩
      · obtain ⟨a', ha', hx⟩ := ih h
        exact ⟨a', List.mem_cons_of_mem _ ha', hx⟩

/-- What stands behind an alert of the worker: a request of the run, its tally as a vector, and the squashed decision on it. -/
structure Scored (model : AnomalyModel P) (config : MlAnomalyDetectorConfig) (calls : List (OrderBook P × Event P)) (threshold : P)
    (alert : Alert P) : Prop where
  zero_le : 0.0 ≤ alert.score
  le_one : alert.score ≤ 1.0
  threshold_le : threshold ≤ alert.score
  request : ∃ request, Tallied config calls request ∧ alert = MlScoringWorker.alertOf request ⟨alert.score, model.modelVersion⟩ ∧
    ∃ stats : WindowStats, request.windowFeatures = MlAnomalyDetector.features config stats ∧
      ∃ decision, alert.score = Double.clamp (1.0 / (1.0 + model.exp (squashSteepness * decision))) 0.0 1.0 ∧
        model.decisionFunction [(stats.orderCount : P), (stats.totalQty : P),
          if stats.orderCount > 0 then (stats.totalQty : P) / (stats.orderCount : P) else 0.0,
          if stats.orderCount > 0 then (stats.cancelCount : P) / (stats.orderCount : P) else 0.0,
          (stats.orderCount : P) / ((config.windowDurationNs : P) / 1e9)] = some decision

/-- Every alert of the worker that asks the service has the service's score of a tally of the run, and a gate of zero lets every answered
window through. -/
theorem scoring_service {framework : Framework P} {repr : P → Str} {model : AnomalyModel P} (hframework : framework.Conforms repr)
    (hscores : ReadsScores repr model) (hunit : UnitFinite P) (hversion : PlainVersion model.modelVersion) (order : FeatureOrder P)
    (config : MlAnomalyDetectorConfig) (calls : List (OrderBook P × Event P))
    (hids : ∀ c ∈ calls, ∀ o, c.2 = .order o → Printable o.accountId ∧ Printable o.instrumentId) {requests : List (ScoringRequest P)}
    (hrequests : ∀ request ∈ requests, request ∈ (detectorAfter config calls).submitted) (hread : ∀ request ∈ requests, ReadBack request)
    {posts : List (Str → HttpResult)} (hposts : ∀ post ∈ posts, Reaches post (score framework model)) (threshold : P) :
    (answers posts order requests = (posts.zip requests).map fun x =>
      if x.1 (MlJson.encodeScoringRequest order x.2) = .failed then none else answerOf repr model x.2.windowFeatures) ∧
    (∀ alert ∈ MlScoringWorker.alertsFor threshold (answers posts order requests) requests,
      Scored model config calls threshold alert) ∧
    (threshold ≤ 0.0 → (MlScoringWorker.alertsFor threshold (answers posts order requests) requests).length =
      (answers posts order requests).countP (·.isSome)) := by
  have htallied : ∀ request ∈ requests, Tallied config calls request :=
    fun request hrequest => (tallied_of_mem config calls).2 request (hrequests request hrequest)
  have hanswers : answers posts order requests = (posts.zip requests).map fun x =>
      if x.1 (MlJson.encodeScoringRequest order x.2) = .failed then none else answerOf repr model x.2.windowFeatures := by
    refine List.map_congr_left fun x hx => ?_
    obtain ⟨hpost, hrequest⟩ := List.of_mem_zip hx
    exact client_score hframework hscores hunit hversion (hposts x.1 hpost) order ((htallied x.2 hrequest).sendable hids)
      (hread x.2 hrequest)
  have hscored : ∀ x ∈ (answers posts order requests).zip requests, ∀ result, x.1 = some result →
      model.score x.2.windowFeatures = some result.anomalyScore ∧ result.modelVersion = model.modelVersion := by
    intro x hx result hresult
    obtain ⟨post, -, hx'⟩ := mem_zip_map_zip (hanswers ▸ hx)
    rw [hresult] at hx'
    split at hx'
    · cases hx'
    · exact answerOf_eq_some hscores hx'.symm
  refine ⟨hanswers, fun alert halert => ?_, fun hthreshold => ?_⟩
  · obtain ⟨x, hx, hraised⟩ := List.mem_filterMap.1 halert
    simp only [Option.bind_eq_some_iff, Option.ite_none_left_eq_some, Option.some.injEq] at hraised
    obtain ⟨result, hresult, hpassed, rfl⟩ := hraised
    obtain ⟨hscore, hmodel⟩ := hscored x hx result hresult
    obtain ⟨decision, hdecision, hsquash, hzero, hone⟩ := AnomalyModel.score_eq_some hunit hscore
    have hrequest := htallied x.2 (List.of_mem_zip hx).2
    obtain ⟨stats, -, hfeatures⟩ := hrequest.features
    rw [hfeatures, featuresToVector_features] at hdecision
    refine ⟨hzero, hone, not_lt.1 hpassed, x.2, hrequest, ?_, stats, hfeatures, decision, hsquash, hdecision⟩
    rw [← hmodel]
    rfl
  · rw [MlScoringWorker.length_alertsFor fun x hx result hresult => ?_]
    · have hlength : (answers posts order requests).length ≤ requests.length := by
        rw [answers, List.length_map, List.length_zip]
        exact min_le_right _ _
      conv_rhs => rw [← List.map_fst_zip hlength, List.countP_map]
      rfl
    · obtain ⟨hscore, -⟩ := hscored x hx result hresult
      obtain ⟨decision, -, -, hzero, -⟩ := AnomalyModel.score_eq_some hunit hscore
      exact hthreshold.trans hzero

end Worker

/-! ## A window of five orders -/

/-- A forest for which every vector is a borderline case. -/
def borderline : AnomalyModel ℚ := ⟨fun _ => some 0, fun _ => 1, ascii "isoforest-0a1b2c3d4e5f"⟩

/-- A feature, read as it is. -/
def readFeature : Str × Json → Option (Str × ℚ)
  | (name, .number literal) => (Decimal.readRat literal).map fun x => (name, x)
  | _ => none

/-- The object of a request, read as it is. -/
def readRequest : Json → Option (ScoreRequest ℚ)
  | .object [(account, .string accountId), (instrument, .string instrumentId), (window, .object features)] =>
    if account = ascii "account_id" ∧ instrument = ascii "instrument_id" ∧ window = ascii "window_features" then
      (features.mapM readFeature).map fun items => ⟨accountId, instrumentId, dict items⟩
    else none
  | _ => none

open Classical in
/-- A framework that takes nothing but JSON, and renders without white space. -/
noncomputable def strictFramework : Framework ℚ where
  load text := if h : ∃ v, IsJson text v then some h.choose else none
  validate := readRequest
  render r := 123 :: (joinMembers [⟨[], ascii "anomaly_score", [], [], false, Double.print17 r.anomalyScore, []⟩,
    ⟨[], ascii "model_version", [], [], true, JsonString.escape r.modelVersion, []⟩] ++ [125])
  errorBody _ := ascii "\x7b\x7d"

theorem strictFramework_conforms : strictFramework.Conforms Double.print17 where
  load text h := ⟨h.choose, h.choose_spec, dif_pos h⟩
  validate accountId instrumentId features hread := by
    have hmap : (features.map printed).mapM readFeature = some features := by
      induction features with
      | nil => rfl
      | cons f features ih =>
        have hf : Decimal.readRat (Double.print17 f.2) = some f.2 := by
          have hstod := hread f List.mem_cons_self
          simp only [Double.stod] at hstod
          split at hstod
          · cases hstod
          · rename_i q hq
            rw [hq, Except.ok.inj hstod]
        rw [List.map_cons, List.mapM_cons, ih fun g hg => hread g (List.mem_cons_of_mem _ hg)]
        simp [printed, readFeature, hf]
    simp only [strictFramework, readRequest, hmap, and_self, if_true, Option.map_some]
  render score version hfinite _ := by
    have hnil : Blank [] := List.forall_mem_nil _
    exact ⟨[], [], _, _, _, hnil, hnil, ⟨⟨hnil, hnil, hnil, hnil⟩, rfl, rfl, rfl, MlJson.isNumber_print17 hfinite⟩,
      ⟨⟨hnil, hnil, hnil, hnil⟩, rfl, rfl, rfl⟩, .inl rfl, rfl⟩

theorem score_borderline (windowFeatures : Map Str ℚ) : borderline.score windowFeatures = some (1 / 2) := by
  rw [AnomalyModel.score]
  norm_num [squashSteepness, borderline, Double.clamp]

theorem stod_half : Double.stod (Double.print17 (1 / 2 : ℚ)) = .ok (1 / 2 : ℚ) := by
  have hread : Decimal.readRat (Double.print17 (1 / 2 : ℚ)) = some (1 / 2) := by decide +kernel
  simp only [Double.stod, hread]

/-- The service loses no call. -/
theorem score_ne_failed {framework : Framework P} [LinearOrder P] {model : AnomalyModel P} (body : Str) :
    score framework model body ≠ .failed := by
  unfold score
  split
  · simp
  · split <;> simp

/-- The fifth order is scored on the border, which a gate of one half lets through. -/
theorem scoring_service_fiveOrders :
    let config : MlAnomalyDetectorConfig := { windowDurationNs := 40000000000 }
    let calls : List (OrderBook ℚ × Event ℚ) := (List.range 5).map fun i =>
      (.make (ascii "EQ-1"), .order { Harness.toFixOrder bought with orderId := Decimal.ofNat i, timestampNs := i + 1 })
    let requests := (detectorAfter config calls).submitted
    ∃ order : FeatureOrder ℚ, (answers [score strictFramework borderline] order requests).countP (·.isSome) = 1 ∧
      ∀ alert ∈ MlScoringWorker.alertsFor (1 / 2) (answers [score strictFramework borderline] order requests) requests,
        Scored borderline config calls (1 / 2) alert := by
  intro config calls requests
  obtain ⟨order⟩ : Nonempty (FeatureOrder ℚ) := MlJson.exists_featureOrder
  have hread : ∀ request ∈ requests, ReadBack request := by
    have hall : (requests.all fun request => featureNames.all fun name => (request.windowFeatures.lookup name).all fun x =>
        Decimal.readRat (Double.print17 x) = some x) = true := by decide +kernel
    intro request hrequest name x hx
    obtain ⟨stats, -, hfeatures⟩ := ((tallied_of_mem config calls).2 request hrequest).features
    have hname := List.all_eq_true.1 (List.all_eq_true.1 hall request hrequest) name (mem_featureNames (hfeatures ▸ hx))
    rw [hx, Option.all_some, decide_eq_true_eq] at hname
    exact ⟨rfl, by simp only [Double.stod, hname]⟩
  have hscores : ReadsScores Double.print17 borderline := by
    intro windowFeatures x hx
    obtain rfl := Option.some.inj ((score_borderline windowFeatures).symm.trans hx)
    exact .inl stod_half
  have hversion : PlainVersion borderline.modelVersion := by
    intro b hb
    have hall : borderline.modelVersion.all (fun b => 32 ≤ b.toNat ∧ b.toNat < 127) = true := rfl
    exact of_decide_eq_true (List.all_eq_true.1 hall b hb)
  have hposts : ∀ post ∈ [score strictFramework borderline], Reaches post (score strictFramework borderline) := by
    intro post hpost body
    rw [List.mem_singleton.1 hpost]
    exact .inr rfl
  have hids : ∀ c ∈ calls, ∀ o, c.2 = .order o → Printable o.accountId ∧ Printable o.instrumentId := by
    intro c hc o ho
    obtain ⟨i, -, rfl⟩ := List.mem_map.1 hc
    obtain rfl := Event.order.inj ho
    exact ⟨JsonText.printable_of_ascii rfl, JsonText.printable_of_ascii rfl⟩
  obtain ⟨hanswers, halerts, -⟩ := scoring_service strictFramework_conforms hscores ⟨by norm_num, fun _ _ _ => rfl⟩ hversion order config
    calls hids (fun _ h => h) hread hposts (1 / 2)
  obtain ⟨request, hrequest⟩ := List.length_eq_one_iff.1 (show requests.length = 1 by decide +kernel)
  refine ⟨order, ?_, halerts⟩
  have hanswer : answerOf Double.print17 borderline request.windowFeatures = some ⟨1 / 2, borderline.modelVersion⟩ := by
    rw [answerOf, score_borderline]
    simp only [stod_half]
  rw [hanswers, show (detectorAfter config calls).submitted = [request] from hrequest]
  simp [score_ne_failed, hanswer]

end MlService

end TradeSurveillance
