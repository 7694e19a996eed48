import TradeSurveillance.Simulator.BaselineGenerator

/-!
# `abuse/spoofing_layering`
-/

namespace TradeSurveillance.Simulator

/-- `kSyntheticCounterparty`, of this scenario and the two others that use it. -/
def syntheticCounterparty : Str := ascii "MKT-COUNTERPARTY"

variable {P : Type} [Double P] [LinearOrder P] [DoubleRounding P]

/-- The draws of `generate_spoofing_layering_scenario`, with one for the Cancel of each layer. -/
structure SpoofingLayeringDraws (P : Type) where
  baselineQtyUnit : ℤ
  dwellNs : ℤ
  spoofSells : P
  genuineLeadNs : ℤ
  genuineQty : ℤ
  genuineFillNs : ℤ
  layerCancelNs : ℕ → ℤ

omit [Double P] [LinearOrder P] [DoubleRounding P] in
/-- The loop that places the layers `i`, `i + 1`, ..., `n` of them. -/
def placeLayers (layer : ℕ → Str → Order P) : ℕ → ℕ → IdGenerators → List (Order P) × IdGenerators
  | 0, _, ids => ([], ids)
  | n + 1, i, ids =>
    let (orderId, ids) := ids.nextOrder
    let (layers, ids) := placeLayers layer n (i + 1) ids
    (layer i orderId :: layers, ids)

omit [Double P] [LinearOrder P] [DoubleRounding P] in
/-- The Cancel of an order at a time. -/
def cancelAt (order : Order P) (timestampNs : ℤ) : Order P := { order with
  status := .cancelled
  timestampNs := timestampNs }

/-- `anchor_move_ts`. -/
def anchorMoveTs (anchorTimeNs dwellNs cancelClusterJitterNs lastLayerTs : ℤ) : ℤ :=
  let earliestPossibleLayerCancelTs := anchorTimeNs + dwellNs - cancelClusterJitterNs.tdiv 2
  let ts := anchorTimeNs + dwellNs.tdiv 2
  let ts := if ts ≤ lastLayerTs then lastLayerTs + 1000000 else ts
  if ts ≥ earliestPossibleLayerCancelTs then earliestPossibleLayerCancelTs - 1000000 else ts

/-- `generate_spoofing_layering_scenario`. It must place a layer. -/
def generateSpoofingLayeringScenario (draws : SpoofingLayeringDraws P) (ids : IdGenerators) (scenarioId : Str)
    (instrument : Instrument P) (account : Account) (basePrice : P) (anchorTimeNs : ℤ) (severity : P) (venue : Str) :
    Option (ScenarioOutput P × IdGenerators) := do
  let label : GroundTruthLabel P := ⟨.spoofingLayering, scenarioId, severity⟩
  let numLayers := 3 + DoubleRounding.llround (severity * 3.0)
  let qtyMultiplier : P := lerp 1.5 10.0 severity
  let baselineQtyUnit := uniformInt64 draws.baselineQtyUnit 2 10 * 100
  let layerQty := DoubleRounding.llround ((baselineQtyUnit : P) * qtyMultiplier)
  let speedScoreAnchorNs : P := ((5000000000 : ℤ) : P)
  let dwellNs := DoubleRounding.truncate (lerp (1.8 * speedScoreAnchorNs) (0.2 * speedScoreAnchorNs) severity) +
    uniformInt64 draws.dwellNs (-500000000) 500000000
  let cancelClusterJitterNs := DoubleRounding.truncate (lerp 5000000000.0 50000000.0 severity : P)
  let spoofSells := uniformDouble draws.spoofSells 0.0 1.0 < 0.5
  let sideSpoof := if spoofSells then Side.sell else Side.buy
  let sideGenuine := if spoofSells then Side.buy else Side.sell
  let awaySign : P := if spoofSells then 1.0 else -1.0
  let referencePriceRounded := DoubleRounding.round (basePrice / instrument.tickSize) * instrument.tickSize
  let anchorSafeZoneTicks : P := 8.0
  let layer := fun (i : ℕ) (orderId : Str) => ({
    orderId := orderId
    accountId := account.accountId
    instrumentId := instrument.instrumentId
    side := sideSpoof
    price := referencePriceRounded + awaySign * (anchorSafeZoneTicks + ((i + 1 : ℤ) : P)) * instrument.tickSize
    qty := layerQty
    orderType := .limit
    timestampNs := anchorTimeNs + i * 20000000
    status := .new
    venue := venue
    groundTruthLabel := label } : Order P)
  let (layers, ids) := placeLayers layer numLayers.toNat 0 ids
  let lastLayer ← layers.getLast?
  let (dominantId, ids) := ids.nextOrder
  -- not an order of the pattern, so of the baseline label
  let anchorDominant : Order P := {
    orderId := dominantId
    accountId := syntheticCounterparty
    instrumentId := instrument.instrumentId
    side := sideGenuine
    price := referencePriceRounded + awaySign * (anchorSafeZoneTicks - 1.0) * instrument.tickSize
    qty := 300
    orderType := .limit
    timestampNs := anchorTimeNs
    status := .new
    venue := venue
    groundTruthLabel := .default }
  let cancelAnchorTs := anchorTimeNs + dwellNs
  let moveTs := anchorMoveTs anchorTimeNs dwellNs cancelClusterJitterNs lastLayer.timestampNs
  let (fallbackId, ids) := ids.nextOrder
  let anchorFallback : Order P := {
    orderId := fallbackId
    accountId := syntheticCounterparty
    instrumentId := instrument.instrumentId
    side := sideGenuine
    price := referencePriceRounded - awaySign * 1.0 * instrument.tickSize
    qty := 300
    orderType := .limit
    timestampNs := moveTs + 1000000
    status := .new
    venue := venue
    groundTruthLabel := .default }
  let genuineTs := anchorTimeNs + dwellNs - uniformInt64 draws.genuineLeadNs 50000000 300000000
  let genuineTs := if genuineTs ≤ lastLayer.timestampNs then lastLayer.timestampNs + 10000000 else genuineTs
  let (genuineId, ids) := ids.nextOrder
  let genuine : Order P := {
    orderId := genuineId
    accountId := account.accountId
    instrumentId := instrument.instrumentId
    side := sideGenuine
    price := referencePriceRounded - awaySign * instrument.tickSize
    qty := uniformInt64 draws.genuineQty 1 5 * 100
    orderType := .limit
    timestampNs := genuineTs
    status := .new
    venue := venue
    groundTruthLabel := label }
  let (tradeId, ids) := ids.nextTrade
  let genuineExecution : Execution P := {
    tradeId := tradeId
    orderId := genuine.orderId
    accountId := account.accountId
    instrumentId := instrument.instrumentId
    price := genuine.price
    qty := genuine.qty
    timestampNs := genuineTs + uniformInt64 draws.genuineFillNs 10000000 100000000
    counterpartyAccountId := syntheticCounterparty
    venue := venue
    groundTruthLabel := label }
  let cancels := layers.zipIdx.map fun (layer, i) => cancelAt layer (max (layer.timestampNs + 1000000)
    (cancelAnchorTs + uniformInt64 (draws.layerCancelNs i) ((-cancelClusterJitterNs).tdiv 2) (cancelClusterJitterNs.tdiv 2)))
  some (⟨layers ++ [anchorDominant, cancelAt anchorDominant moveTs, anchorFallback, genuine] ++ cancels, [genuineExecution]⟩, ids)

end TradeSurveillance.Simulator
