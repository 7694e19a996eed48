import TradeSurveillance.Detectors.Interface
import TradeSurveillance.Lib.LinePattern

/-!
# `dashboard/src/evidence`: what is shown of the evidence of an alert

The dashboard matches the text of a detector with a regular expression and shows what the groups take; a text that does not match is shown
as it is. Texts are the bytes of their UTF-8 form. The numbers of the dashboard are doubles too: NaN, which `parseFloat` makes of a text
without a digit, is not among them.
-/

namespace TradeSurveillance.Dashboard

open LinePattern

/-- The UTF-8 form of a text of the source. -/
def utf8 (s : String) : Str := s.toList.flatMap String.utf8EncodeChar

/-- What the dashboard does with a number, besides arithmetic. -/
class JsNumber (P : Type) where
  parseFloat : Str → P
  /-- In base ten. -/
  parseInt : Str → P
  toFixed : P → ℕ → Str
  toLocaleString : P → Str
  /-- A number in a template literal. -/
  toText : P → Str

export JsNumber (parseFloat parseInt toFixed toLocaleString toText)

/-- The digits of an integer, the last one first, with a comma after every three. -/
def grouped : Str → Str
  | a :: b :: c :: d :: rest => a :: b :: c :: 44 :: grouped (d :: rest)
  | rest => rest

/-- The rationals: `toFixed` to the nearest, upwards when two are, and integers as in English. -/
instance : JsNumber ℚ where
  parseFloat text := (Decimal.readRat text).getD 0
  parseInt text := ((Decimal.readInt text).getD 0 : ℤ)
  toFixed q digits :=
    let n := ⌊|q| * 10 ^ digits + 1 / 2⌋₊
    (if q < 0 then ascii "-" else []) ++ Decimal.ofNat (n / 10 ^ digits) ++
      if digits = 0 then [] else 46 :: Decimal.padded digits (n % 10 ^ digits)
  toLocaleString q := (if q < 0 then ascii "-" else []) ++ (grouped (Decimal.ofNat q.num.natAbs).reverse).reverse
  toText q := Decimal.ofInt q.num

structure EvidenceMetric where
  label : Str
  value : Str
  raw : Option Str := none
  deriving DecidableEq, Repr

structure EvidenceDisplay where
  narrative : Str
  metrics : Option (List EvidenceMetric)
  deriving DecidableEq, Repr

/-! ## Numbers -/

/-- `replace(/\.0+$/, "")`. -/
def dropZeroFraction (text : Str) : Str :=
  let whole := text.rdropWhile (· = 48)
  if whole.length < text.length ∧ whole.getLast? = some 46 then whole.dropLast else text

section Format

variable {P : Type} [Double P] [LinearOrder P] [JsNumber P]

def formatDuration (ns : P) : Str :=
  if ns < 1000.0 then toText ns ++ ascii "ns"
  else if ns < 1000000.0 then toFixed (ns / 1000.0) 2 ++ utf8 "µs"
  else if ns < 1000000000.0 then toFixed (ns / 1000000.0) 2 ++ ascii "ms"
  else toFixed (ns / 1000000000.0) 2 ++ ascii "s"

omit [LinearOrder P] in
def formatPercent (ratio : P) (decimals : ℕ := 1) : Str := dropZeroFraction (toFixed (ratio * 100.0) decimals) ++ ascii "%"

omit [Double P] [LinearOrder P] in
def formatNum (n : P) (decimals : ℕ := 1) : Str := dropZeroFraction (toFixed n decimals)

end Format

variable (P : Type) [Double P] [LinearOrder P] [JsNumber P]

omit [Double P] [LinearOrder P] in
def formatInt (text : Str) : Str := toLocaleString (parseInt text : P)

/-- Twelve and a half thousand, and forty percent. -/
example : (formatInt ℚ (ascii "12500"), formatPercent (0.4 : ℚ) 0, formatDuration (2500000 : ℚ)) =
    (ascii "12,500", ascii "40%", ascii "2.50ms") := by decide +kernel

/-! ## Groups -/

/-- `\d+`. -/
def digits (text : Str) : Bool := text ≠ [] && text.all Decimal.isDigit

/-- `[\d.]+`. -/
def decimal (text : Str) : Bool := text ≠ [] && text.all fun b => Decimal.isDigit b || b = 46

/-- `[\d.-]+`. -/
def signed (text : Str) : Bool := text ≠ [] && text.all fun b => Decimal.isDigit b || b = 46 || b = 45

/-- `true|false`. -/
def flag (text : Str) : Bool := text = ascii "true" || text = ascii "false"

/-- `.+`: no line feed, no carriage return, and neither U+2028 nor U+2029. -/
def line (text : Str) : Bool :=
  text ≠ [] && text.all (fun b => b ≠ 10 && b ≠ 13) &&
    text.tails.all fun rest => rest.take 3 ≠ [0xE2, 0x80, 0xA8] && rest.take 3 ≠ [0xE2, 0x80, 0xA9]

/-! ## One parser a detector -/

/-- The regular expression of `parseSpoofingLayering`. -/
def spoofingLayeringPattern : List (Piece UInt8) :=
  [.text (ascii "depth_ratio="), .group decimal, .text (ascii " speed="), .group decimal,
    .text (ascii " opposite_price_moved_favorably="), .group flag, .text (ascii " move_score="), .group decimal,
    .text (ascii " concurrent_same_side_orders="), .group digits, .text (ascii " typical_concurrent="), .group decimal,
    .text (ascii " layering_score="), .group decimal, .text (ascii " time_in_book_ns="), .group digits]

/-- What `parseSpoofingLayering` makes of the groups. -/
def spoofingLayeringDisplay (depthRatio speed movedFavorably moveScore concurrent typicalConcurrent layeringScore timeInBookNs : Str) :
    EvidenceDisplay :=
  let depth : P := parseFloat depthRatio
  let moved := movedFavorably = ascii "true"
  let move : P := parseFloat moveScore
  let typical : P := parseFloat typicalConcurrent
  let layering : P := parseFloat layeringScore
  let spd : P := parseFloat speed
  let dwellNs : P := parseInt timeInBookNs
  let movedClause :=
    if moved then ascii "opposite-side price moved favorably" else ascii "opposite-side price did not move favorably"
  { narrative :=
      ascii "Placed at " ++ formatPercent depth ++ ascii " of visible depth, cancelled after " ++ formatDuration dwellNs ++ ascii ", " ++
      movedClause ++ ascii ". " ++ concurrent ++ ascii " concurrent same-side orders vs. typical " ++ formatNum typical ++
      ascii " for this instrument."
    metrics := some [
      ⟨ascii "Depth ratio", formatPercent depth, some depthRatio⟩,
      ⟨ascii "Time in book", formatDuration dwellNs, some (timeInBookNs ++ ascii "ns")⟩,
      ⟨ascii "Concurrent same-side orders", concurrent, none⟩,
      ⟨ascii "Typical concurrent", formatNum typical, some typicalConcurrent⟩,
      ⟨ascii "Move score", formatPercent move, some moveScore⟩,
      ⟨ascii "Layering score", formatPercent layering, some layeringScore⟩,
      ⟨ascii "Speed score", formatPercent spd, some speed⟩] }

def parseSpoofingLayering (evidence : Str) : Option EvidenceDisplay :=
  match matchPieces spoofingLayeringPattern evidence with
  | some [depthRatio, speed, movedFavorably, moveScore, concurrent, typicalConcurrent, layeringScore, timeInBookNs] =>
    some (spoofingLayeringDisplay P depthRatio speed movedFavorably moveScore concurrent typicalConcurrent layeringScore timeInBookNs)
  | _ => none

/-- `MTC_CONCENTRATION_THRESHOLD`. -/
def mtcConcentrationThreshold : P := 0.4

/-- The regular expression of `parseMarkingTheClose`. -/
def markingTheClosePattern : List (Piece UInt8) :=
  [.text (ascii "account-group closing-window volume="), .group digits, .text (ascii " / total="), .group digits,
    .text (ascii " (share="), .group decimal, .text (ascii ", group_size="), .group digits, .text (ascii ")")]

/-- What `parseMarkingTheClose` makes of the groups. -/
def markingTheCloseDisplay (groupQty totalQty share groupSize : Str) : EvidenceDisplay :=
  let shareRatio : P := parseFloat share
  let accountsLabel := if groupSize = ascii "1" then ascii "account" else ascii "accounts"
  { narrative :=
      ascii "Linked account group (" ++ groupSize ++ ascii " " ++ accountsLabel ++ ascii ") executed " ++ formatInt P groupQty ++
      ascii " of " ++ formatInt P totalQty ++ utf8 " total closing-window volume — " ++ formatPercent shareRatio ++
      utf8 " of the window — a concentrated share, above the " ++ formatPercent (mtcConcentrationThreshold P) 0 ++
      ascii " concentration threshold."
    metrics := some [
      ⟨ascii "Group volume", formatInt P groupQty, none⟩,
      ⟨ascii "Total window volume", formatInt P totalQty, none⟩,
      ⟨ascii "Share of volume", formatPercent shareRatio, some share⟩,
      ⟨ascii "Group size", groupSize, none⟩,
      ⟨ascii "Concentration threshold", formatPercent (mtcConcentrationThreshold P) 0, none⟩] }

def parseMarkingTheClose (evidence : Str) : Option EvidenceDisplay :=
  match matchPieces markingTheClosePattern evidence with
  | some [groupQty, totalQty, share, groupSize] => some (markingTheCloseDisplay P groupQty totalQty share groupSize)
  | _ => none

/-- The regular expression of `parseStatisticalBaseline`. -/
def statisticalBaselinePattern : List (Piece UInt8) :=
  [.text (ascii "order qty="), .group digits, .text (ascii " z="), .group signed, .text (ascii " against running mean="), .group decimal,
    .text (ascii " stddev="), .group decimal, .text (ascii " (n="), .group digits, .text (ascii ")")]

/-- What `parseStatisticalBaseline` makes of the groups. -/
def statisticalBaselineDisplay (qty z mean stddev n : Str) : EvidenceDisplay where
  narrative :=
    ascii "Order quantity " ++ formatInt P qty ++ ascii " is " ++ formatNum (parseFloat z : P) 2 ++
    utf8 "σ from this account/instrument's running average (" ++ formatNum (parseFloat mean : P) ++ ascii ", based on " ++ n ++
    utf8 " prior orders) — a statistical outlier against its own recent baseline."
  metrics := some [
    ⟨ascii "Order qty", formatInt P qty, none⟩,
    ⟨ascii "Z-score", formatNum (parseFloat z : P) 2, some z⟩,
    ⟨ascii "Running mean qty", formatNum (parseFloat mean : P), some mean⟩,
    ⟨ascii "Std deviation", formatNum (parseFloat stddev : P), some stddev⟩,
    ⟨ascii "Sample size (n)", n, none⟩]

def parseStatisticalBaseline (evidence : Str) : Option EvidenceDisplay :=
  match matchPieces statisticalBaselinePattern evidence with
  | some [qty, z, mean, stddev, n] => some (statisticalBaselineDisplay P qty z mean stddev n)
  | _ => none

/-- The regular expression of `parseMlAnomaly`. -/
def mlAnomalyPattern : List (Piece UInt8) :=
  [.text (ascii "Isolation Forest anomaly_score="), .group decimal, .text (ascii " model_version="), .group line]

/-- What `parseMlAnomaly` makes of the groups. -/
def mlAnomalyDisplay (score modelVersion : Str) : EvidenceDisplay where
  narrative :=
    ascii "Order-flow pattern for this account/instrument window scored " ++ formatPercent (parseFloat score : P) ++
    utf8 " anomalous by the Isolation Forest model — an unsupervised outlier relative to typical order-flow shape, not a " ++
    ascii "specific rule violation."
  metrics := some [⟨ascii "Model version", modelVersion, none⟩]

def parseMlAnomaly (evidence : Str) : Option EvidenceDisplay :=
  match matchPieces mlAnomalyPattern evidence with
  | some [score, modelVersion] => some (mlAnomalyDisplay P score modelVersion)
  | _ => none

/-- `(\d+)ns after`, with the text behind it. -/
def durationPattern : List (Piece UInt8) := [.group digits, .text (ascii "ns after"), .group fun _ => true]

/-- The first duration of the text, from left to right, is written anew. -/
def humanizeFrontRunningDuration : Str → Str
  | [] => []
  | b :: text =>
    match matchPieces durationPattern (b :: text) with
    | some [ns, rest] => formatDuration (parseInt ns : P) ++ ascii " after" ++ rest
    | _ => b :: humanizeFrontRunningDuration text

def buildEvidenceDisplay (alert : Alert P) : EvidenceDisplay :=
  let raw : EvidenceDisplay := ⟨alert.evidence, none⟩
  if alert.detectorName = ascii "SpoofingLayeringDetector" then (parseSpoofingLayering P alert.evidence).getD raw
  else if alert.detectorName = ascii "MarkingTheCloseDetector" then (parseMarkingTheClose P alert.evidence).getD raw
  else if alert.detectorName = ascii "StatisticalBaselineDetector" then (parseStatisticalBaseline P alert.evidence).getD raw
  else if alert.detectorName = ascii "MlAnomalyDetector" then (parseMlAnomaly P alert.evidence).getD raw
  else if alert.detectorName = ascii "FrontRunningDetector" then ⟨humanizeFrontRunningDuration P alert.evidence, none⟩
  else raw

end TradeSurveillance.Dashboard
