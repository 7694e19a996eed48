import TradeSurveillance.Ingestion.EventCodec
import TradeSurveillance.Simulator.Types

/-!
# `csv_writer`: the labelled dataset as CSV

The writer quotes a field that has a comma, a quote or a newline in it. The reader splits the text into lines first, and each line
into fields.
-/

namespace TradeSurveillance.Simulator

/-! ## Writing -/

/-- `csv_escape`. -/
def csvEscape (value : Str) : Str :=
  if 44 ∈ value ∨ 34 ∈ value ∨ 10 ∈ value then
    34 :: (value.flatMap (fun c => if c = 34 then [34, 34] else [c]) ++ [34])
  else value

section Writer

variable {P : Type} [Double P]

def ordersHeader : Str :=
  ascii ("order_id,account_id,instrument_id,side,price,qty,order_type,timestamp_ns,status,venue," ++
    "gt_pattern,gt_scenario_id,gt_severity\n")

def executionsHeader : Str :=
  ascii ("trade_id,order_id,account_id,instrument_id,price,qty,timestamp_ns,counterparty_account_id,venue," ++
    "gt_pattern,gt_scenario_id,gt_severity\n")

/-- The line `orders_to_csv` writes for an order. -/
def orderRow (order : Order P) : Str :=
  csvEscape order.orderId ++ ascii "," ++ csvEscape order.accountId ++ ascii "," ++
  csvEscape order.instrumentId ++ ascii "," ++ order.side.toString ++ ascii "," ++ Double.printFixed 8 order.price ++ ascii "," ++
  Decimal.ofInt order.qty ++ ascii "," ++ order.orderType.toString ++ ascii "," ++ Decimal.ofInt order.timestampNs ++
  ascii "," ++ order.status.toString ++ ascii "," ++ csvEscape order.venue ++ ascii "," ++
  order.groundTruthLabel.pattern.toString ++ ascii "," ++ csvEscape order.groundTruthLabel.scenarioId ++ ascii "," ++
  Double.printFixed 8 order.groundTruthLabel.severity ++ ascii "\n"

/-- `orders_to_csv`. -/
def ordersToCsv (orders : List (Order P)) : Str := ordersHeader ++ orders.flatMap orderRow

/-- The line `executions_to_csv` writes for an execution. -/
def executionRow (execution : Execution P) : Str :=
  csvEscape execution.tradeId ++ ascii "," ++ csvEscape execution.orderId ++ ascii "," ++
  csvEscape execution.accountId ++ ascii "," ++ csvEscape execution.instrumentId ++ ascii "," ++
  Double.printFixed 8 execution.price ++ ascii "," ++ Decimal.ofInt execution.qty ++ ascii "," ++
  Decimal.ofInt execution.timestampNs ++ ascii "," ++ csvEscape execution.counterpartyAccountId ++ ascii "," ++
  csvEscape execution.venue ++ ascii "," ++ execution.groundTruthLabel.pattern.toString ++ ascii "," ++
  csvEscape execution.groundTruthLabel.scenarioId ++ ascii "," ++
  Double.printFixed 8 execution.groundTruthLabel.severity ++ ascii "\n"

/-- `executions_to_csv`. -/
def executionsToCsv (executions : List (Execution P)) : Str := executionsHeader ++ executions.flatMap executionRow

end Writer

/-! ## Reading -/

/-- The rest of a quoted field, behind its opening quote: the field, and what is behind its closing quote. -/
def readQuoted : Str → Str × Str
  | [] => ([], [])
  | [c] => if c = 34 then ([], []) else ([c], [])
  | c :: next :: line =>
    if c = 34 then
      if next = 34 then (34 :: (readQuoted line).1, (readQuoted line).2) else ([], next :: line)
    else (c :: (readQuoted (next :: line)).1, (readQuoted (next :: line)).2)

/-- One pass of the loop of `parse_csv_line`, up to the `push_back`. -/
def readField : Str → Str × Str
  | 34 :: line => readQuoted line
  | line => (line.takeWhile (· ≠ 44), line.dropWhile (· ≠ 44))

/-- `parse_csv_line`, with the length of the line as fuel: every pass but the last takes a comma off the line. -/
def parseCsvFields : ℕ → Str → List Str
  | 0, line => [(readField line).1]
  | fuel + 1, line =>
    match readField line with
    | (field, 44 :: rest) => field :: parseCsvFields fuel rest
    | (field, _) => [field]

/-- `parse_csv_line`. -/
def parseCsvLine (line : Str) : List Str := parseCsvFields line.length line

/-- What calls of `std::getline` return until it fails. -/
def getlines : Str → List Str
  | [] => []
  | c :: csv =>
    if c = 10 then [] :: getlines csv
    else match getlines csv with
      | [] => [[c]]
      | line :: lines => (c :: line) :: lines

/-- `split_lines`. -/
def splitLines (csv : Str) : List Str := (getlines csv).filter (· ≠ [])

section Reader

variable {P : Type} [Double P]

/-- The body of the loop of `parse_orders_csv`. -/
def parseOrderLine (line : Str) : Except Exception (Order P) :=
  match parseCsvLine line with
  | [f0, f1, f2, f3, f4, f5, f6, f7, f8, f9, f10, f11, f12] => do
    let side ← sideFromString f3
    let price ← Double.stod f4
    let qty ← stoll f5
    let orderType ← orderTypeFromString f6
    let timestampNs ← stoll f7
    let status ← orderStatusFromString f8
    let pattern ← abusePatternFromString f10
    let severity ← Double.stod f12
    .ok {
      orderId := f0
      accountId := f1
      instrumentId := f2
      side, price, qty, orderType, timestampNs, status
      venue := f9
      groundTruthLabel := ⟨pattern, f11, severity⟩ }
  | f => .error (.runtimeError (ascii "parse_orders_csv: expected 13 columns, got " ++ Decimal.ofNat f.length))

/-- `parse_orders_csv`; the first line is the header. -/
def parseOrdersCsv (csv : Str) : Except Exception (List (Order P)) := (splitLines csv).tail.mapM parseOrderLine

/-- The body of the loop of `parse_executions_csv`. -/
def parseExecutionLine (line : Str) : Except Exception (Execution P) :=
  match parseCsvLine line with
  | [f0, f1, f2, f3, f4, f5, f6, f7, f8, f9, f10, f11] => do
    let price ← Double.stod f4
    let qty ← stoll f5
    let timestampNs ← stoll f6
    let pattern ← abusePatternFromString f9
    let severity ← Double.stod f11
    .ok {
      tradeId := f0
      orderId := f1
      accountId := f2
      instrumentId := f3
      price, qty, timestampNs
      counterpartyAccountId := f7
      venue := f8
      groundTruthLabel := ⟨pattern, f10, severity⟩ }
  | f => .error (.runtimeError (ascii "parse_executions_csv: expected 12 columns, got " ++ Decimal.ofNat f.length))

/-- `parse_executions_csv`. -/
def parseExecutionsCsv (csv : Str) : Except Exception (List (Execution P)) := (splitLines csv).tail.mapM parseExecutionLine

end Reader

end TradeSurveillance.Simulator
