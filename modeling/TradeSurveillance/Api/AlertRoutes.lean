import TradeSurveillance.Db.AlertTable
import TradeSurveillance.Ingestion.EventCodec
import TradeSurveillance.Lib.JsonText

/-!
# `api/api_server`: the routes of the alerts and of the evaluation

The page of alerts, one alert, the change of a status, and the files of the evaluation. Crow parses the request and writes the JSON of an
answer: a body is what `encode_alert` and `encode_alerts` put into it.
-/

namespace TradeSurveillance.Api

open AlertStore

variable {P : Type}

/-- `crow::response`: status 200, or an error with its text. -/
inductive Response (α : Type) where
  | ok (body : α)
  | error (code : ℕ) (message : Str)
  deriving DecidableEq, Repr

/-- `what`. -/
def whatOf : Exception → Str
  | .invalidArgument what => what
  | .outOfRange what => what
  | .runtimeError what => what

/-! ## Integers -/

/-- The values of `int`. -/
def IsInt32 (z : ℤ) : Prop := -2 ^ 31 ≤ z ∧ z < 2 ^ 31

instance (z : ℤ) : Decidable (IsInt32 z) := inferInstanceAs (Decidable (_ ∧ _))

/-- `std::stoi`. -/
def stoi (text : Str) : Except Exception ℤ :=
  match Decimal.readInt text with
  | none => .error (.invalidArgument (ascii "stoi"))
  | some z => if IsInt32 z then .ok z else .error (.outOfRange (ascii "stoi"))

/-- What `std::stoll` leaves of a text that begins with an integer. -/
def unread (text : Str) : Str := (Decimal.readSign (text.dropWhile Decimal.isSpace)).2.dropWhile Decimal.isDigit

/-- `parse_id`: the whole text is read. -/
def parseId (text : Str) : Option ℤ :=
  match stoll text with
  | .ok value => if unread text = [] then some value else none
  | .error _ => none

/-! ## The routes -/

section Routes

variable (pg : Postgres) (t : AlertTable P)

/-- The parameters of a request for a page. -/
structure PageParams where
  offset : Str
  limit : Option Str := none
  detectorName : Option Str := none
  status : Option Str := none
  deriving DecidableEq, Repr

/-- `GET /api/alerts` with an `offset`. -/
def alertsPage (params : PageParams) : Response (PaginatedAlerts P) :=
  let page := do
    let limit ← match params.limit with
      | some text => stoi text
      | none => .ok 50
    let offset ← stoi params.offset
    listAlertsPaginated pg t params.detectorName params.status limit offset
  match page with
  | .ok page => .ok page
  | .error e => .error 500 (whatOf e)

/-- `GET /api/alerts/<id>`. -/
def oneAlert (alertIdText : Str) : Response (StoredAlert P) :=
  match parseId alertIdText with
  | none => .error 400 (ascii "alert id must be an integer")
  | some alertId =>
    match getAlert pg t alertId with
    | none => .error 404 (ascii "no alert with that id")
    | some found => .ok found

/-- What Crow makes of the body of a request: it does not load it or finds no `status` in it; `has` throws, for it is no object, or the
conversion of its `status` does, for that is no text; or there is the status. -/
inductive PatchBody where
  | absent
  | throws (what : Exception)
  | status (newStatus : Str)
  deriving DecidableEq, Repr

/-- Where the handler of a `PATCH` stands behind its update: it has returned a response, or an exception has left it, which Crow answers
with 500, or it goes on to the alert of this id. -/
inductive Patched (P : Type) where
  | returned (response : Response (StoredAlert P))
  | threw (what : Exception)
  | updated (alertId : ℤ)

/-- `PATCH /api/alerts/<id>/status` up to the end of its update. The body is read in front of the `try`. -/
def patchStatus (alertIdText : Str) (body : PatchBody) (answer : Answer) : AlertTable P × Patched P :=
  match parseId alertIdText, body with
  | none, _ => (t, .returned (.error 400 (ascii "alert id must be an integer")))
  | some _, .throws what => (t, .threw what)
  | some _, .absent => (t, .returned (.error 400 (ascii "request body must be \x7b\"status\": \"...\"\x7d")))
  | some alertId, .status newStatus =>
    match updateAlertStatus pg t alertId newStatus answer with
    | (t, .ok ()) => (t, .updated alertId)
    | (t, .error e) => (t, .returned (.error 400 (whatOf e)))

/-- The rest of it, a transaction of its own behind the `try`: what it throws leaves the handler, and `*updated` is `none` where there is
no alert to be had. -/
def patchAnswer (alertId : ℤ) (answer : Answer) : Option (Except Exception (Response (StoredAlert P))) :=
  match answer.result () with
  | .error what => some (.error what)
  | .ok () => (getAlert pg t alertId).map fun updated => .ok (.ok updated)

end Routes

/-! ## The evaluation -/

/-- `snapshots`: the files, and how to make them again. -/
def evaluationSnapshots (evaluationResultsDir : Str) : List (Str × Str) :=
  [(ascii "evaluation.json",
      ascii "run ./build-bench/cpp/harness/tse_harness_eval --json " ++ evaluationResultsDir ++ ascii "/evaluation.json"),
    (ascii "sarao.json",
      ascii "run ./build-bench/cpp/harness/tse_sarao_validation --json " ++ evaluationResultsDir ++ ascii "/sarao.json"),
    (ascii "spoofing_rate_sweep.json", ascii "run ./cpp/harness/run_rate_sweep.sh")]

/-- The loop over the files. What it fills is an object of Crow's, whose members have no order. -/
def mergeSnapshots (readFile : Str → Option Str) (load : Str → Option JsonText.Json) (evaluationResultsDir : Str) :
    List (Str × Str) → Map Str JsonText.Json → Response (Map Str JsonText.Json)
  | [], out => .ok out
  | (filename, regenHint) :: snapshots, out =>
    let path := evaluationResultsDir ++ ascii "/" ++ filename
    match readFile path with
    | none => .error 503 (ascii "missing evaluation snapshot " ++ path ++ ascii " -- " ++ regenHint)
    | some text =>
      match load text with
      | none => .error 500 (path ++ ascii " exists but failed to parse as JSON")
      | some parsed =>
        mergeSnapshots readFile load evaluationResultsDir snapshots (out.insert (filename.take (filename.length - 5)) parsed)

/-- `GET /api/evaluation`: the members of the body. -/
def evaluation (readFile : Str → Option Str) (load : Str → Option JsonText.Json) (evaluationResultsDir : Str) :
    Response (Map Str JsonText.Json) :=
  mergeSnapshots readFile load evaluationResultsDir (evaluationSnapshots evaluationResultsDir) ∅

/-! ## `dashboard`: `AlertsTab` and `api` -/

/-- `PAGE_SIZE`. -/
def pageSize : ℕ := 50

/-- `totalPages`, a quotient that is rounded up; on the last page there is no next one. -/
def totalPages (totalCount : ℕ) : ℕ := max 1 ((totalCount + (pageSize - 1)) / pageSize)

/-- What `fetchAlertPage` asks for on behalf of `loadPage`, for a page from `1` on and the detector that is chosen, with all statuses. -/
def pageParams (page : ℕ) (detectorName : Option Str) : PageParams where
  offset := Decimal.ofInt ((page - 1) * pageSize : ℕ)
  limit := some (Decimal.ofInt pageSize)
  detectorName := detectorName

end TradeSurveillance.Api
