import TradeSurveillance.Simulator.BaselineGenerator

/-!
# `abuse/wash_trade`
-/

namespace TradeSurveillance.Simulator

variable {P : Type} [Double P] [LinearOrder P] [DoubleRounding P]

/-- The draws of `generate_wash_trade_scenario`. -/
structure WashTradeDraws (P : Type) where
  aBuys : P
  qtyA : ℤ
  legGapNs : ℤ
  qtyB : P
  priceOffset : P
  tradeDelayNs : ℤ

omit [Double P] [LinearOrder P] [DoubleRounding P] in
/-- One of the two executions. -/
def washTradeExecution (label : GroundTruthLabel P) (venue : Str) (tradeId : Str) (order : Order P) (price : P) (qty timestampNs : ℤ)
    (counterparty : Account) : Execution P where
  tradeId := tradeId
  orderId := order.orderId
  accountId := order.accountId
  instrumentId := order.instrumentId
  price := price
  qty := qty
  timestampNs := timestampNs
  counterpartyAccountId := counterparty.accountId
  venue := venue
  groundTruthLabel := label

/-- `generate_wash_trade_scenario`. -/
def generateWashTradeScenario (draws : WashTradeDraws P) (ids : IdGenerators) (scenarioId : Str) (instrument : Instrument P)
    (accountA accountB : Account) (basePrice : P) (anchorTimeNs : ℤ) (severity : P) (venue : Str) : ScenarioOutput P × IdGenerators :=
  let label : GroundTruthLabel P := ⟨.washTrade, scenarioId, severity⟩
  let aBuys := uniformDouble draws.aBuys 0.0 1.0 < 0.5
  let qtyA := uniformInt64 draws.qtyA 2 20 * 100
  let qtyNoiseFrac : P := lerp 0.20 0.0 severity
  let priceNoiseTicks : P := lerp 3.0 0.0 severity
  let legGapNs := DoubleRounding.truncate (lerp 30000000000.0 200000000.0 severity : P) + uniformInt64 draws.legGapNs 0 500000000
  let qtyB := max 1 (DoubleRounding.llround ((qtyA : P) * (1.0 + uniformDouble draws.qtyB (-qtyNoiseFrac) qtyNoiseFrac)))
  let priceA := DoubleRounding.round (basePrice / instrument.tickSize) * instrument.tickSize
  let priceOffset := uniformDouble draws.priceOffset (-priceNoiseTicks) priceNoiseTicks * instrument.tickSize
  let (orderIdA, ids) := ids.nextOrder
  let orderA : Order P := {
    orderId := orderIdA
    accountId := accountA.accountId
    instrumentId := instrument.instrumentId
    side := if aBuys then .buy else .sell
    price := priceA
    qty := qtyA
    orderType := .limit
    timestampNs := anchorTimeNs
    status := .new
    venue := venue
    groundTruthLabel := label }
  let (orderIdB, ids) := ids.nextOrder
  let orderB : Order P := {
    orderId := orderIdB
    accountId := accountB.accountId
    instrumentId := instrument.instrumentId
    side := if aBuys then .sell else .buy
    price := priceA + priceOffset
    qty := qtyB
    orderType := .limit
    timestampNs := anchorTimeNs + legGapNs
    status := .new
    venue := venue
    groundTruthLabel := label }
  let tradeTimeNs := orderB.timestampNs + uniformInt64 draws.tradeDelayNs 10000000 200000000
  let filledQty := min qtyA qtyB
  let (tradeIdA, ids) := ids.nextTrade
  let (tradeIdB, ids) := ids.nextTrade
  (⟨[orderA, orderB], [washTradeExecution label venue tradeIdA orderA priceA filledQty tradeTimeNs accountB,
    washTradeExecution label venue tradeIdB orderB priceA filledQty tradeTimeNs accountA]⟩, ids)

end TradeSurveillance.Simulator
