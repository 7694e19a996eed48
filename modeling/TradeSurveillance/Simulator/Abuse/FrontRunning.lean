import TradeSurveillance.Simulator.Abuse.SpoofingLayering

/-!
# `abuse/front_running`
-/

namespace TradeSurveillance.Simulator

variable {P : Type} [Double P] [LinearOrder P] [DoubleRounding P]

/-- The draws of `generate_front_running_scenario`; the last three are read at a severity of one half or more. -/
structure FrontRunningDraws (P : Type) where
  side : P
  qtyClient : ℤ
  qtyRelated : ℤ
  reactionDelayNs : ℤ
  relatedFillDelayNs : ℤ
  leadNs : ℤ
  slipTicks : ℤ
  reversalTicks : ℤ
  reversalDelayNs : ℤ
  reversalFillDelayNs : ℤ

omit [Double P] [LinearOrder P] [DoubleRounding P] in
/-- An order of the scenario. -/
def frontRunningOrder (label : GroundTruthLabel P) (venue : Str) (instrument : Instrument P) (orderId : Str) (account : Account)
    (side : Side) (price : P) (qty timestampNs : ℤ) : Order P where
  orderId := orderId
  accountId := account.accountId
  instrumentId := instrument.instrumentId
  side := side
  price := price
  qty := qty
  orderType := .limit
  timestampNs := timestampNs
  status := .new
  venue := venue
  groundTruthLabel := label

omit [Double P] [LinearOrder P] [DoubleRounding P] in
/-- The execution of an order of the scenario. -/
def frontRunningExecution (tradeId : Str) (order : Order P) (timestampNs : ℤ) : Execution P where
  tradeId := tradeId
  orderId := order.orderId
  accountId := order.accountId
  instrumentId := order.instrumentId
  price := order.price
  qty := order.qty
  timestampNs := timestampNs
  counterpartyAccountId := syntheticCounterparty
  venue := order.venue
  groundTruthLabel := order.groundTruthLabel

/-- `generate_front_running_scenario`. -/
def generateFrontRunningScenario (draws : FrontRunningDraws P) (ids : IdGenerators) (scenarioId : Str) (instrument : Instrument P)
    (accountClient accountRelated : Account) (basePrice : P) (anchorTimeNs : ℤ) (severity : P) (venue : Str) :
    ScenarioOutput P × IdGenerators :=
  let label : GroundTruthLabel P := ⟨.frontRunning, scenarioId, severity⟩
  let side := if uniformDouble draws.side 0.0 1.0 < 0.5 then Side.buy else Side.sell
  let directionSign : P := if side = .buy then 1.0 else -1.0
  let referencePriceRounded := DoubleRounding.round (basePrice / instrument.tickSize) * instrument.tickSize
  let qtyClient := uniformInt64 draws.qtyClient 10 40 * 100
  let qtyRelated := uniformInt64 draws.qtyRelated 1 5 * 100
  let reactionDelayNs := uniformInt64 draws.reactionDelayNs 20000000 150000000
  let relatedFillDelayNs := uniformInt64 draws.relatedFillDelayNs 10000000 100000000
  let minLeadNs := reactionDelayNs + relatedFillDelayNs + 10000000
  let frontRunLeadNs := max minLeadNs
    (DoubleRounding.truncate (lerp 20000000000.0 300000000.0 severity : P) + uniformInt64 draws.leadNs 0 500000000)
  let slipTicks := uniformInt64 draws.slipTicks 1 3
  let clientPrice := referencePriceRounded + directionSign * (slipTicks : P) * instrument.tickSize
  let order := frontRunningOrder label venue instrument
  let (clientId, ids) := ids.nextOrder
  let clientOrder := order clientId accountClient side clientPrice qtyClient anchorTimeNs
  let (relatedId, ids) := ids.nextOrder
  let relatedOrder := order relatedId accountRelated side referencePriceRounded qtyRelated (anchorTimeNs + reactionDelayNs)
  let (relatedTradeId, ids) := ids.nextTrade
  let relatedExecution := frontRunningExecution relatedTradeId relatedOrder (relatedOrder.timestampNs + relatedFillDelayNs)
  let clientFillTs := anchorTimeNs + frontRunLeadNs
  let (clientTradeId, ids) := ids.nextTrade
  let clientExecution := frontRunningExecution clientTradeId clientOrder clientFillTs
  if severity ≥ 0.5 then
    let reversalSide := if side = .buy then Side.sell else Side.buy
    let reversalPrice := clientPrice + directionSign * instrument.tickSize * (uniformInt64 draws.reversalTicks 1 2 : P)
    let (reversalId, ids) := ids.nextOrder
    let reversalOrder := order reversalId accountRelated reversalSide reversalPrice qtyRelated
      (clientFillTs + uniformInt64 draws.reversalDelayNs 50000000 500000000)
    let (reversalTradeId, ids) := ids.nextTrade
    let reversalExecution := frontRunningExecution reversalTradeId reversalOrder
      (reversalOrder.timestampNs + uniformInt64 draws.reversalFillDelayNs 10000000 100000000)
    (⟨[clientOrder, relatedOrder, reversalOrder], [relatedExecution, clientExecution, reversalExecution]⟩, ids)
  else (⟨[clientOrder, relatedOrder], [relatedExecution, clientExecution]⟩, ids)

end TradeSurveillance.Simulator
