import TradeSurveillance.Detectors.Interface
import TradeSurveillance.Double

/-!
# `SpoofingLayeringDetector`

The detector keeps a book of its own: an entry of `tracked` for each resting order, made on New, erased on Cancel and on the
Execution that fills the order, moved to a new id on Replace. It is keyed by the order id alone. A Cancel is scored; the other
fields hold what the score compares with.
-/

namespace TradeSurveillance

/-- `SpoofingLayeringConfig` and its defaults. -/
structure SpoofingLayeringConfig (P : Type) [Double P] where
  alertThreshold : P := 0.6
  slowTimeInBookNs : ℤ := 5000000000
  minOppositePriceMove : P := 0.01
  layeringSaturationCount : ℤ := 3
  layeringBonusWeight : P := 0.15
  densityWindowNs : ℤ := 30000000000

structure TrackedOrder (P : Type) where
  accountId : Str
  instrumentId : Str
  side : Side
  remainingQty : ℤ
  placedTs : ℤ
  depthRatioAtPlacement : P
  oppositeBestAtPlacement : Option P

structure ConcurrentSample where
  timestampNs : ℤ
  accountId : Str
  concurrentCount : ℤ

structure AmbientTracker (P : Type) where
  recentMoveTimestamps : List ℤ := []
  recentConcurrentSamples : List ConcurrentSample := []
  lastBestPrice : Option P := none

/-- The fields of `SpoofingLayeringDetector`. -/
structure SpoofingLayeringDetector (P : Type) [Double P] where
  config : SpoofingLayeringConfig P
  tracked : Map Str (TrackedOrder P)
  ambientByInstrumentSide : Map Str (AmbientTracker P)
  concurrentCountByKey : Map Str ℤ

/-- `opposite_of`. -/
def Side.opposite : Side → Side
  | .buy => .sell
  | .sell => .buy

/-- The letter of a side in the keys of the detectors. -/
def Side.key : Side → Str
  | .buy => ascii "B"
  | .sell => ascii "S"

/-- `concurrency_key`. -/
def concurrencyKey (accountId instrumentId : Str) (side : Side) : Str :=
  accountId ++ ascii "|" ++ instrumentId ++ ascii "|" ++ side.key

/-- `instrument_side_key`; `key_for` of the front-running detector is the same. -/
def instrumentSideKey (instrumentId : Str) (side : Side) : Str := instrumentId ++ ascii "|" ++ side.key

namespace SpoofingLayeringDetector

variable {P : Type} [Double P] [LinearOrder P]

/-- The constructor. -/
def make (config : SpoofingLayeringConfig P) : SpoofingLayeringDetector P where
  config := config
  tracked := ∅
  ambientByInstrumentSide := ∅
  concurrentCountByKey := ∅

/-- The tracker of an instrument and a side, as `operator[]` finds or makes it. -/
def ambient (d : SpoofingLayeringDetector P) (instrumentId : Str) (side : Side) : AmbientTracker P :=
  (d.ambientByInstrumentSide.lookup (instrumentSideKey instrumentId side)).getD {}

/-- Assign to the tracker of an instrument and a side. -/
def setAmbient (d : SpoofingLayeringDetector P) (instrumentId : Str) (side : Side) (tracker : AmbientTracker P) :
    SpoofingLayeringDetector P :=
  { d with ambientByInstrumentSide := d.ambientByInstrumentSide.insert (instrumentSideKey instrumentId side) tracker }

/-- The loop body of `update_ambient`. -/
def updateAmbientSide (d : SpoofingLayeringDetector P) (book : OrderBook P) (instrumentId : Str) (eventTs : ℤ) (side : Side) :
    SpoofingLayeringDetector P :=
  let tracker := d.ambient instrumentId side
  let price := book.bestPrice side
  let moved := match tracker.lastBestPrice, price with
    | some last, some price => decide (price ≠ last)
    | _, _ => false
  let moves := if moved then tracker.recentMoveTimestamps ++ [eventTs] else tracker.recentMoveTimestamps
  let recent := fun ts : ℤ => decide (|eventTs - ts| ≤ d.config.densityWindowNs)
  d.setAmbient instrumentId side
    { recentMoveTimestamps := moves.filter recent
      recentConcurrentSamples := tracker.recentConcurrentSamples.filter fun s => recent s.timestampNs
      lastBestPrice := price.or tracker.lastBestPrice }

/-- `update_ambient`. -/
def updateAmbient (d : SpoofingLayeringDetector P) (book : OrderBook P) (instrumentId : Str) (eventTs : ℤ) :
    SpoofingLayeringDetector P :=
  (d.updateAmbientSide book instrumentId eventTs .buy).updateAmbientSide book instrumentId eventTs .sell

/-- `track_new`. -/
def trackNew (d : SpoofingLayeringDetector P) (book : OrderBook P) (order : Order P) : SpoofingLayeringDetector P :=
  let levelQty := book.qtyAtPrice order.side order.price
  let tracked : TrackedOrder P :=
    { accountId := order.accountId
      instrumentId := order.instrumentId
      side := order.side
      remainingQty := order.qty
      placedTs := order.timestampNs
      depthRatioAtPlacement := if levelQty > 0 then (order.qty : P) / (levelQty : P) else 0.0
      oppositeBestAtPlacement := book.bestPrice order.side.opposite }
  let key := concurrencyKey order.accountId order.instrumentId order.side
  let newCount := (d.concurrentCountByKey.lookup key).getD 0 + 1
  let d := { d with
    tracked := d.tracked.insert order.orderId tracked
    concurrentCountByKey := d.concurrentCountByKey.insert key newCount }
  let tracker := d.ambient order.instrumentId order.side
  d.setAmbient order.instrumentId order.side { tracker with
    recentConcurrentSamples := tracker.recentConcurrentSamples ++ [⟨order.timestampNs, order.accountId, newCount⟩] }

/-- `erase_tracked`. -/
def eraseTracked (d : SpoofingLayeringDetector P) (orderId : Str) : SpoofingLayeringDetector P × Option (TrackedOrder P) :=
  match d.tracked.lookup orderId with
  | none => (d, none)
  | some erased =>
    let key := concurrencyKey erased.accountId erased.instrumentId erased.side
    let counts := match d.concurrentCountByKey.lookup key with
      | none => d.concurrentCountByKey
      | some count =>
        if count - 1 ≤ 0 then d.concurrentCountByKey.erase key else d.concurrentCountByKey.insert key (count - 1)
    ({ d with
        tracked := d.tracked.erase orderId
        concurrentCountByKey := counts }, some erased)

/-- `handle_replace`. -/
def handleReplace (d : SpoofingLayeringDetector P) (book : OrderBook P) (order : Order P) : SpoofingLayeringDetector P :=
  (d.eraseTracked order.origOrderId).1.trackNew book order

/-- `handle_execution`. -/
def handleExecution (d : SpoofingLayeringDetector P) (execution : Execution P) : SpoofingLayeringDetector P :=
  match d.tracked.lookup execution.orderId with
  | none => d
  | some tracked =>
    let remaining := wrap64 (tracked.remainingQty - execution.qty)
    let d := { d with tracked := d.tracked.insert execution.orderId { tracked with remainingQty := remaining } }
    if remaining ≤ 0 then (d.eraseTracked execution.orderId).1 else d

/-- `count_concurrent_same_account_same_side`. -/
def countConcurrentSameAccountSameSide (d : SpoofingLayeringDetector P) (accountId instrumentId : Str) (side : Side) : ℤ :=
  (d.concurrentCountByKey.lookup (concurrencyKey accountId instrumentId side)).getD 0

/-! ## Scores -/

/-- `speed_score`. -/
def speedScore (config : SpoofingLayeringConfig P) (timeInBookNs : ℤ) : P :=
  if config.slowTimeInBookNs > 0 then
    Double.clamp (1.0 - (timeInBookNs : P) / (config.slowTimeInBookNs : P)) 0.0 1.0
  else 0.0

/-- `moved_favorably`. -/
def movedFavorably (config : SpoofingLayeringConfig P) (tracked : TrackedOrder P) (oppositeNow : Option P) : Bool :=
  match tracked.oppositeBestAtPlacement, oppositeNow with
  | some placed, some now =>
    let delta := now - placed
    match tracked.side with
    | .buy => delta ≥ config.minOppositePriceMove
    | .sell => delta ≤ -config.minOppositePriceMove
  | _, _ => false

/-- `recent_move_rate`, in moves per second. -/
def recentMoveRate (d : SpoofingLayeringDetector P) (instrumentId : Str) (side : Side) : P :=
  match d.ambientByInstrumentSide.lookup (instrumentSideKey instrumentId side) with
  | some tracker =>
    if d.config.densityWindowNs > 0 then
      ((tracker.recentMoveTimestamps.length : ℤ) : P) / ((d.config.densityWindowNs : P) / 1e9)
    else 0.0
  | none => 0.0

/-- `move_score` of an order whose opposite side moved favorably. -/
def moveScore (d : SpoofingLayeringDetector P) (tracked : TrackedOrder P) (timeInBookNs : ℤ) : P :=
  let dwellS : P := (timeInBookNs : P) / 1e9
  let dwellCapS : P := (d.config.slowTimeInBookNs : P) / 1e9
  let expectedMovesDuringDwell := d.recentMoveRate tracked.instrumentId tracked.side.opposite * min dwellS dwellCapS
  Double.clamp (1.0 - expectedMovesDuringDwell) 0.0 1.0

/-- `typical_concurrent`: the mean of the samples of other accounts, summed in order. -/
def typicalConcurrent (d : SpoofingLayeringDetector P) (tracked : TrackedOrder P) : P :=
  match d.ambientByInstrumentSide.lookup (instrumentSideKey tracked.instrumentId tracked.side) with
  | some tracker =>
    let others := tracker.recentConcurrentSamples.filter fun s => s.accountId ≠ tracked.accountId
    let sum := others.foldl (fun sum s => sum + (s.concurrentCount : P)) 0.0
    if others.length > 0 then sum / ((others.length : ℤ) : P) else 0.0
  | none => 0.0

/-- `layering_score`. -/
def layeringScore (config : SpoofingLayeringConfig P) (concurrent : ℤ) (typicalConcurrent : P) : P :=
  if config.layeringSaturationCount > 0 then
    Double.clamp (((concurrent : P) - typicalConcurrent) / (config.layeringSaturationCount : P)) 0.0 1.0
  else 0.0

/-- `handle_cancel`. -/
def handleCancel (d : SpoofingLayeringDetector P) (book : OrderBook P) (order : Order P) :
    SpoofingLayeringDetector P × List (Alert P) :=
  match d.eraseTracked order.origOrderId with
  | (d, none) => (d, [])
  | (d, some tracked) =>
    -- the entry is of an earlier order of the same id
    if order.timestampNs < tracked.placedTs then (d, []) else
    let timeInBookNs := order.timestampNs - tracked.placedTs
    let speed := speedScore d.config timeInBookNs
    let depth : P := Double.clamp tracked.depthRatioAtPlacement 0.0 1.0
    let moved := movedFavorably d.config tracked (book.bestPrice tracked.side.opposite)
    let move : P := if moved then d.moveScore tracked timeInBookNs else 0.0
    let concurrent := d.countConcurrentSameAccountSameSide tracked.accountId tracked.instrumentId tracked.side
    let typical := d.typicalConcurrent tracked
    let layering := layeringScore d.config concurrent typical
    let primary : P := (depth + speed + move) / 3.0
    let combined := Double.clamp (primary + d.config.layeringBonusWeight * layering) 0.0 1.0
    if combined < d.config.alertThreshold then (d, []) else
    (d, [{
      detectorName := ascii "SpoofingLayeringDetector"
      score := combined
      instrumentId := tracked.instrumentId
      accountIds := [tracked.accountId]
      orderIds := [order.origOrderId]
      windowStartNs := tracked.placedTs
      windowEndNs := order.timestampNs
      evidence := ascii "depth_ratio=" ++ Double.toString depth ++ ascii " speed=" ++ Double.toString speed ++
        ascii " opposite_price_moved_favorably=" ++ (if moved then ascii "true" else ascii "false") ++
        ascii " move_score=" ++ Double.toString move ++
        ascii " concurrent_same_side_orders=" ++ Decimal.ofInt concurrent ++
        ascii " typical_concurrent=" ++ Double.toString typical ++
        ascii " layering_score=" ++ Double.toString layering ++
        ascii " time_in_book_ns=" ++ Decimal.ofInt timeInBookNs
      modelVersion := none
      bookSnapshotSequence := some book.snapshotSequence }])

/-- `evaluate`. -/
def evaluate (d : SpoofingLayeringDetector P) (book : OrderBook P) (incoming : Event P) :
    SpoofingLayeringDetector P × List (Alert P) :=
  match incoming with
  | .order order =>
    let d := d.updateAmbient book order.instrumentId order.timestampNs
    match order.status with
    | .new => (d.trackNew book order, [])
    | .cancelled => d.handleCancel book order
    | .replaced => (d.handleReplace book order, [])
  | .execution execution =>
    let d := d.updateAmbient book execution.instrumentId execution.timestampNs
    (d.handleExecution execution, [])

/-- The detector as the pipeline holds it. -/
def object (d : SpoofingLayeringDetector P) : IDetector P where
  State := SpoofingLayeringDetector P
  state := d
  name := ascii "SpoofingLayeringDetector"
  evaluate d book incoming _ := d.evaluate book incoming

end SpoofingLayeringDetector

end TradeSurveillance
