import TradeSurveillance.Simulator.AccountRegistry
import TradeSurveillance.Simulator.InstrumentUniverse

/-!
# `baseline_generator`: orders that are not abuse

Each turn of the loop reads the draws of one arrival. The flow is complete when an arrival would be after the end of the session; it
is `none` where the draws run out before.
-/

namespace TradeSurveillance.Simulator

/-- `BaselineOutput` and `ScenarioOutput`. -/
structure ScenarioOutput (P : Type) where
  orders : List (Order P)
  executions : List (Execution P)

variable {P : Type} [Double P]

/-- `kTradeSizePercentiles`. -/
def tradeSizePercentiles : List (P × ℤ) :=
  [(0.00, 1), (0.10, 1), (0.25, 4), (0.50, 20), (0.75, 50), (0.90, 100), (0.99, 460), (1.00, 460)]

/-- `kPriceMoveMagnitudePercentiles`. -/
def priceMoveMagnitudePercentiles : List (P × ℤ) :=
  [(0.00, 0), (0.10, 0), (0.25, 0), (0.50, 0), (0.75, 1), (0.90, 4), (0.99, 28), (1.00, 28)]

/-- `kSpreadOffsetPercentiles`. -/
def spreadOffsetPercentiles : List (P × ℤ) :=
  [(0.00, 0), (0.10, 0), (0.25, 1), (0.50, 1), (0.75, 2), (0.90, 3), (0.99, 10), (1.00, 10)]

/-- `BaselineConfig`; the rate of arrivals is left out (see `poissonInterarrivalNs`). -/
structure BaselineConfig where
  startTimeNs : ℤ := 0
  endTimeNs : ℤ := 0

/-- The draws of an arrival, in order; those of a branch that is not taken are not read. -/
structure ArrivalDraws (P : Type) where
  gapSec : P
  instrument : ℕ
  account : ℕ
  moveTicks : P
  moveSign : P
  side : P
  offsetTicks : P
  qty : P
  orderType : P
  outcome : P
  fillDelayNs : ℤ
  counterparty : ℕ
  redraws : Fin 5 → ℕ
  dwellNs : ℤ

/-- `accounts_related`. -/
def accountsRelated (a b : Account) : Bool :=
  a.accountId = b.accountId || (a.beneficialOwnerId ≠ [] && a.beneficialOwnerId = b.beneficialOwnerId) ||
  a.linkedAccountIds.contains b.accountId || b.linkedAccountIds.contains a.accountId

/-- The loop that draws the counterparty again, at most once for each draw that is left. -/
def redraw (accounts : List Account) (account : Account) : List ℕ → Account → Option Account
  | [], counterparty => some counterparty
  | draw :: draws, counterparty =>
    if accountsRelated counterparty account then (pickRandom draw accounts).bind (redraw accounts account draws)
    else some counterparty

/-- The counterparty of a fill. -/
def drawCounterparty (accounts : List Account) (account : Account) (draws : ArrivalDraws P) : Option Account :=
  (pickRandom draws.counterparty accounts).bind (redraw accounts account (List.ofFn draws.redraws))

/-- The loop's variables. -/
structure BaselineState (P : Type) where
  t : ℤ
  midPrice : Map Str P
  output : ScenarioOutput P
  ids : IdGenerators

/-- The execution of an order, or of a part of it. -/
def baselineExecution (tradeId : Str) (order : Order P) (qty timestampNs : ℤ) (counterparty : Account) : Execution P where
  tradeId := tradeId
  orderId := order.orderId
  accountId := order.accountId
  instrumentId := order.instrumentId
  price := order.price
  qty := qty
  timestampNs := timestampNs
  counterpartyAccountId := counterparty.accountId
  venue := ascii "SIM"
  groundTruthLabel := .default

variable [LinearOrder P] [DoubleRounding P]

/-- `round_to_tick`. -/
def roundToTick (price tickSize : P) : P :=
  if tickSize ≤ 0.0 then price else DoubleRounding.round (price / tickSize) * tickSize

/-- The mid price after a move. -/
def moveMid (mid tickSize : P) (draws : ArrivalDraws P) : P :=
  let moveTicks := sampleFromPercentiles draws.moveTicks priceMoveMagnitudePercentiles
  let moveSign : P := if uniformDouble draws.moveSign 0.0 1.0 < 0.5 then -1.0 else 1.0
  max tickSize (mid + moveSign * (moveTicks : P) * tickSize)

/-- The order of an arrival. -/
def baselineOrder (orderId : Str) (account : Account) (instrument : Instrument P) (mid : P) (t : ℤ) (draws : ArrivalDraws P) :
    Order P :=
  let side := if uniformDouble draws.side 0.0 1.0 < 0.5 then Side.buy else Side.sell
  let offsetTicks := sampleFromPercentiles draws.offsetTicks spreadOffsetPercentiles
  let price := mid + (if side = .buy then -1.0 else 1.0) * (offsetTicks : P) * instrument.tickSize
  { orderId := orderId
    accountId := account.accountId
    instrumentId := instrument.instrumentId
    side := side
    price := roundToTick price instrument.tickSize
    qty := sampleFromPercentiles draws.qty tradeSizePercentiles
    orderType := if uniformDouble draws.orderType 0.0 1.0 < 0.1 then .market else .limit
    timestampNs := t
    status := .new
    venue := ascii "SIM"
    groundTruthLabel := .default }

/-- What follows the order of an arrival: a fill, a fill of a part, a cancel, or nothing. -/
def baselineOutcome (accounts : List Account) (account : Account) (order : Order P) (draws : ArrivalDraws P) (ids : IdGenerators) :
    Option (ScenarioOutput P × IdGenerators) :=
  let outcome := uniformDouble draws.outcome 0.0 1.0
  let fillDelayNs := uniformInt64 draws.fillDelayNs 10000000 2000000000
  if outcome < 0.60 then do
    let counterparty ← drawCounterparty accounts account draws
    let (tradeId, ids) := ids.nextTrade
    some (⟨[order], [baselineExecution tradeId order order.qty (order.timestampNs + fillDelayNs) counterparty]⟩, ids)
  else if outcome < 0.75 then do
    let fillQty := max 1 (order.qty.tdiv 2)
    let counterparty ← drawCounterparty accounts account draws
    let (tradeId, ids) := ids.nextTrade
    some (⟨[order], [baselineExecution tradeId order fillQty (order.timestampNs + fillDelayNs) counterparty]⟩, ids)
  else if outcome < 0.90 then
    let dwellNs := uniformInt64 draws.dwellNs 500000000 30000000000
    some (⟨[order, { order with
      status := .cancelled
      timestampNs := order.timestampNs + dwellNs }], []⟩, ids)
  else some (⟨[order], []⟩, ids)

/-- The rest of a turn of the loop, at the time of the arrival. -/
def arrive (instruments : List (Instrument P)) (accounts : List Account) (s : BaselineState P) (t : ℤ) (draws : ArrivalDraws P) :
    Option (BaselineState P) := do
  let instrument ← pickRandom draws.instrument instruments
  let account ← pickRandom draws.account accounts
  let mid := moveMid ((s.midPrice.lookup instrument.instrumentId).getD 0.0) instrument.tickSize draws
  let (orderId, ids) := s.ids.nextOrder
  let (out, ids) ← baselineOutcome accounts account (baselineOrder orderId account instrument mid t draws) draws ids
  some
    { t := t
      midPrice := s.midPrice.insert instrument.instrumentId mid
      output := ⟨s.output.orders ++ out.orders, s.output.executions ++ out.executions⟩
      ids := ids }

/-- The loop. -/
def baselineLoop (instruments : List (Instrument P)) (accounts : List Account) (endTimeNs : ℤ) :
    BaselineState P → List (ArrivalDraws P) → Option (BaselineState P)
  | _, [] => none
  | s, draws :: rest =>
    let t := s.t + poissonInterarrivalNs draws.gapSec
    if t ≥ endTimeNs then some s
    else (arrive instruments accounts s t draws).bind fun s => baselineLoop instruments accounts endTimeNs s rest

/-- `generate_baseline_flow`. -/
def generateBaselineFlow (hash : Str → ℕ) (config : BaselineConfig) (instruments : List (Instrument P)) (accounts : List Account)
    (draws : List (ArrivalDraws P)) (ids : IdGenerators) : Option (ScenarioOutput P × IdGenerators) :=
  if instruments = [] ∨ accounts = [] then some (⟨[], []⟩, ids) else
  let midPrice : Map Str P :=
    instruments.foldl (fun mids instrument => mids.insert instrument.instrumentId (referencePrice hash instrument)) ∅
  (baselineLoop instruments accounts config.endTimeNs ⟨config.startTimeNs, midPrice, ⟨[], []⟩, ids⟩ draws).map
    fun s => (s.output, s.ids)

end TradeSurveillance.Simulator
