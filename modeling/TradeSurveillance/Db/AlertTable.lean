import TradeSurveillance.Db.AlertStore
import TradeSurveillance.Detectors.Interface
import TradeSurveillance.Lib.Decimal
import TradeSurveillance.Lib.StableSort

/-!
# `db/alert_store` and `db/schema.sql`: the table of alerts

The methods that read and write alerts, each of them one transaction under the store's mutex, so one call follows another whatever the
threads. What Postgres does with an array literal and the texts of its errors are arguments; how it answers a transaction is one too,
for it may fail. It fails where a string of an alert cannot be stored as text, which is UTF-8 without a NUL.
-/

namespace TradeSurveillance.AlertStore

variable {P : Type}

/-! ## The table -/

/-- The values that the `CHECK` of the column `status` allows. -/
def allowedStatuses : List Str := [ascii "OPEN", ascii "UNDER_REVIEW", ascii "ESCALATED", ascii "CLOSED"]

/-- A row of `alerts`; `event_time` is never read. -/
structure AlertRow (P : Type) where
  alertId : ℤ
  detectorName : Str
  score : P
  instrumentId : Str
  accountIds : List Str
  orderIds : List Str
  windowStartNs : ℤ
  windowEndNs : ℤ
  evidence : Str
  modelVersion : Option Str
  bookSnapshotSequence : Option ℤ
  status : Str := ascii "OPEN"
  deriving DecidableEq, Repr

/-- The table, in the order of insertion, and the last value that was taken from the sequence of the `BIGSERIAL`. -/
structure AlertTable (P : Type) where
  rows : List (AlertRow P)
  sequence : ℤ

/-- The table that `apply_schema` creates. -/
def AlertTable.empty : AlertTable P := ⟨[], 0⟩

/-- `StoredAlert`. -/
structure StoredAlert (P : Type) where
  alertId : ℤ
  alert : Alert P
  status : Str
  deriving DecidableEq, Repr

/-- What Postgres refuses. -/
inductive Refusal where
  | malformedArray
  | checkViolation
  | negativeLimit
  | negativeOffset
  deriving DecidableEq, Repr

/-- What is asked of Postgres: `array_in`, `array_out`, and the texts of its errors, which libpqxx throws as `std::runtime_error`s. -/
structure Postgres where
  arrayIn : Str → Option (List Str)
  arrayOut : List Str → Str
  what : Refusal → Str

/-- The answer to a transaction: it is committed, with an id so many values behind the last one; or it fails; or it is committed and the
connection is lost before the store is told. -/
inductive Answer where
  | done (gap : ℕ)
  | failed (what : Str)
  | inDoubt (gap : ℕ) (what : Str)
  deriving DecidableEq, Repr

/-- The values of the sequence that were passed over. -/
def Answer.gap : Answer → ℕ
  | .done gap => gap
  | .inDoubt gap _ => gap
  | .failed _ => 0

/-- What was done stands. -/
def Answer.stands : Answer → Bool
  | .failed _ => false
  | _ => true

/-- What the method of the store returns or throws behind its statements. -/
def Answer.result {α : Type} (a : α) : Answer → Except Exception α
  | .done _ => .ok a
  | .failed what => .error (.runtimeError what)
  | .inDoubt _ what => .error (.runtimeError what)

/-! ## Writing -/

section Writing

variable (pg : Postgres) (t : AlertTable P)

/-- The next id. -/
def nextId (answer : Answer) : ℤ := t.sequence + 1 + answer.gap

/-- The row that is inserted. -/
def newRow (alertId : ℤ) (alert : Alert P) (accountIds orderIds : List Str) : AlertRow P where
  alertId := alertId
  detectorName := alert.detectorName
  score := alert.score
  instrumentId := alert.instrumentId
  accountIds := accountIds
  orderIds := orderIds
  windowStartNs := alert.windowStartNs
  windowEndNs := alert.windowEndNs
  evidence := alert.evidence
  modelVersion := alert.modelVersion
  bookSnapshotSequence := alert.bookSnapshotSequence

/-- `insert_alert`. -/
def insertAlert (alert : Alert P) (answer : Answer) : AlertTable P × Except Exception ℤ :=
  match answer, pg.arrayIn (toPgTextArray alert.accountIds), pg.arrayIn (toPgTextArray alert.orderIds) with
  | .failed what, _, _ => (t, .error (.runtimeError what))
  | answer, some accountIds, some orderIds =>
    let id := nextId t answer
    (⟨t.rows ++ [newRow id alert accountIds orderIds], id⟩, answer.result id)
  | _, _, _ => (t, .error (.runtimeError (pg.what .malformedArray)))

/-- `UPDATE alerts SET status = $1 WHERE alert_id = $2`. -/
def setStatus (alertId : ℤ) (newStatus : Str) : AlertTable P :=
  { t with rows := t.rows.map fun row => if row.alertId = alertId then { row with status := newStatus } else row }

/-- `update_alert_status`: where no row has the id, nothing is checked, and the store throws for itself. -/
def updateAlertStatus (alertId : ℤ) (newStatus : Str) (answer : Answer) : AlertTable P × Except Exception Unit :=
  match answer with
  | .failed what => (t, .error (.runtimeError what))
  | answer =>
    if !t.rows.any (·.alertId = alertId) then
      (t, .error (.runtimeError (ascii "update_alert_status: no alert with alert_id=" ++ Decimal.ofInt alertId)))
    else if newStatus ∉ allowedStatuses then (t, .error (.runtimeError (pg.what .checkViolation)))
    else (setStatus t alertId newStatus, answer.result ())

/-- `truncate_all` on this table: the rows go, and the sequence goes on from where it is. -/
def truncateAll (answer : Answer) : AlertTable P × Except Exception Unit :=
  match answer with
  | .failed what => (t, .error (.runtimeError what))
  | answer => ({ t with rows := [] }, answer.result ())

end Writing

/-! ## Reading -/

section Reading

variable (pg : Postgres) (t : AlertTable P)

/-- The loop body of `rows_to_stored_alerts`: the arrays come back as text. -/
def storedAlert (row : AlertRow P) : StoredAlert P where
  alertId := row.alertId
  alert := {
    detectorName := row.detectorName
    score := row.score
    instrumentId := row.instrumentId
    accountIds := fromPgTextArray (pg.arrayOut row.accountIds)
    orderIds := fromPgTextArray (pg.arrayOut row.orderIds)
    windowStartNs := row.windowStartNs
    windowEndNs := row.windowEndNs
    evidence := row.evidence
    modelVersion := row.modelVersion
    bookSnapshotSequence := row.bookSnapshotSequence }
  status := row.status

/-- `rows_to_stored_alerts`. -/
def rowsToStoredAlerts (rows : List (AlertRow P)) : List (StoredAlert P) := rows.map (storedAlert pg)

/-- `ORDER BY alert_id`. -/
def byAlertId (rows : List (AlertRow P)) : List (AlertRow P) := StableSort.sortBy (·.alertId) rows

/-- `query_alerts_by_account`. -/
def queryAlertsByAccount (accountId : Str) : List (StoredAlert P) :=
  rowsToStoredAlerts pg (byAlertId (t.rows.filter fun row => accountId ∈ row.accountIds))

/-- `query_alerts_by_detector`. -/
def queryAlertsByDetector (detectorName : Str) : List (StoredAlert P) :=
  rowsToStoredAlerts pg (byAlertId (t.rows.filter fun row => row.detectorName = detectorName))

/-- `LIMIT` and `OFFSET` behind `ORDER BY alert_id DESC`. -/
def window (rows : List (AlertRow P)) (limit offset : ℤ) : Except Exception (List (AlertRow P)) :=
  if offset < 0 then .error (.runtimeError (pg.what .negativeOffset))
  else if limit < 0 then .error (.runtimeError (pg.what .negativeLimit))
  else .ok (((byAlertId rows).reverse.drop offset.toNat).take limit.toNat)

/-- `list_recent_alerts`. -/
def listRecentAlerts (limit : ℤ) : Except Exception (List (StoredAlert P)) :=
  (window pg t.rows limit 0).map (rowsToStoredAlerts pg)

/-- The `WHERE` of the paginated list: what is not given is not asked for. -/
def matchesFilter (detectorName status : Option Str) (row : AlertRow P) : Bool :=
  detectorName.all (fun name => row.detectorName = name) && status.all (fun status => row.status = status)

/-- `PaginatedAlerts`. -/
structure PaginatedAlerts (P : Type) where
  alerts : List (StoredAlert P)
  totalCount : ℕ

/-- `list_alerts_paginated`. -/
def listAlertsPaginated (detectorName status : Option Str) (limit offset : ℤ) : Except Exception (PaginatedAlerts P) :=
  let rows := t.rows.filter (matchesFilter detectorName status)
  (window pg rows limit offset).map fun page => ⟨rowsToStoredAlerts pg page, rows.length⟩

/-- `get_alert`. -/
def getAlert (alertId : ℤ) : Option (StoredAlert P) :=
  (rowsToStoredAlerts pg (t.rows.filter (·.alertId = alertId))).head?

end Reading

/-! ## Histories -/

/-- A call by which the program may change the table. -/
inductive StoreCall (P : Type) where
  | insertAlert (alert : Alert P)
  | updateAlertStatus (alertId : ℤ) (newStatus : Str)

/-- The table after a call. -/
def AlertTable.call (pg : Postgres) (t : AlertTable P) (c : StoreCall P × Answer) : AlertTable P :=
  match c.1 with
  | .insertAlert alert => (insertAlert pg t alert c.2).1
  | .updateAlertStatus alertId newStatus => (updateAlertStatus pg t alertId newStatus c.2).1

/-- The table after some calls, from any thread, with what the database answered. -/
def AlertTable.after (pg : Postgres) (t : AlertTable P) (history : List (StoreCall P × Answer)) : AlertTable P :=
  history.foldl (AlertTable.call pg) t

/-- A call of any method that changes the table: one of the program, or `truncate_all`, which only the tests call. -/
inductive TableCall (P : Type) where
  | call (c : StoreCall P)
  | truncateAll

/-- The table after a call of any of the methods. -/
def AlertTable.anyCall (pg : Postgres) (t : AlertTable P) (c : TableCall P × Answer) : AlertTable P :=
  match c.1 with
  | .call call => t.call pg (call, c.2)
  | .truncateAll => (truncateAll t c.2).1

/-- The table after such calls. -/
def AlertTable.afterAll (pg : Postgres) (t : AlertTable P) (history : List (TableCall P × Answer)) : AlertTable P :=
  history.foldl (AlertTable.anyCall pg) t

end TradeSurveillance.AlertStore
