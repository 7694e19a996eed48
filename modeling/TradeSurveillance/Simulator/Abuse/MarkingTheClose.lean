import TradeSurveillance.Simulator.Abuse.SpoofingLayering

/-!
# `abuse/marking_the_close`
-/

namespace TradeSurveillance.Simulator

variable {P : Type} [Double P] [LinearOrder P] [DoubleRounding P]

/-- The draws of `generate_marking_the_close_scenario`, two of them for each trade. -/
structure MarkingTheCloseDraws (P : Type) where
  pushUp : P
  leadNs : ℕ → ℤ
  fillDelayNs : ℕ → ℤ

/-- What the trades of a scenario have in common. -/
structure ClosePush (P : Type) where
  label : GroundTruthLabel P
  instrument : Instrument P
  accounts : List Account
  accountsUsed : ℕ
  windowNs : P
  numTrades : ℤ
  stepTicks : P
  qtyPerTrade : ℤ
  pushUp : Bool
  referencePriceRounded : P
  venue : Str

omit [LinearOrder P] in
/-- The order of trade `i`. -/
def ClosePush.order (push : ClosePush P) (draws : MarkingTheCloseDraws P) (i : ℕ) (orderId : Str) (account : Account) : Order P :=
  let closeTime := push.instrument.sessionCloseNs
  let windowStart := closeTime - DoubleRounding.truncate push.windowNs
  let frac := ((i + 1 : ℤ) : P) / (push.numTrades : P)
  let ts := windowStart + DoubleRounding.truncate (frac * push.windowNs) -
    uniformInt64 (draws.leadNs i) 0 (DoubleRounding.truncate (push.windowNs / (2.0 * (push.numTrades : P))) + 1)
  { orderId := orderId
    accountId := account.accountId
    instrumentId := push.instrument.instrumentId
    side := if push.pushUp then .buy else .sell
    price := push.referencePriceRounded +
      (if push.pushUp then 1.0 else -1.0) * ((i + 1 : ℤ) : P) * push.stepTicks * push.instrument.tickSize
    qty := push.qtyPerTrade
    orderType := .limit
    timestampNs := min ts (closeTime - 1000000)
    status := .new
    venue := push.venue
    groundTruthLabel := push.label }

omit [Double P] [LinearOrder P] [DoubleRounding P] in
/-- Its execution. -/
def ClosePush.execution (push : ClosePush P) (draws : MarkingTheCloseDraws P) (i : ℕ) (tradeId : Str) (order : Order P) :
    Execution P where
  tradeId := tradeId
  orderId := order.orderId
  accountId := order.accountId
  instrumentId := push.instrument.instrumentId
  price := order.price
  qty := order.qty
  timestampNs := order.timestampNs + uniformInt64 (draws.fillDelayNs i) 1000000 20000000
  counterpartyAccountId := syntheticCounterparty
  venue := push.venue
  groundTruthLabel := push.label

omit [Double P] [LinearOrder P] [DoubleRounding P] in
/-- The account of trade `i`. The remainder by zero is undefined. -/
def ClosePush.account (push : ClosePush P) (i : ℕ) : Option Account :=
  if push.accountsUsed = 0 then none else push.accounts[i % push.accountsUsed]?

omit [LinearOrder P] in
/-- The loop over the trades `i`, `i + 1`, ..., `n` of them. -/
def ClosePush.trades (push : ClosePush P) (draws : MarkingTheCloseDraws P) :
    ℕ → ℕ → IdGenerators → Option (ScenarioOutput P × IdGenerators)
  | 0, _, ids => some (⟨[], []⟩, ids)
  | n + 1, i, ids => do
    let account ← push.account i
    let (orderId, ids) := ids.nextOrder
    let order := push.order draws i orderId account
    let (tradeId, ids) := ids.nextTrade
    let (out, ids) ← push.trades draws n (i + 1) ids
    some (⟨order :: out.orders, push.execution draws i tradeId order :: out.executions⟩, ids)

/-- `generate_marking_the_close_scenario`. -/
def generateMarkingTheCloseScenario (draws : MarkingTheCloseDraws P) (ids : IdGenerators) (scenarioId : Str)
    (instrument : Instrument P) (accounts : List Account) (basePrice severity ordersPerSecond : P) (instrumentCount : ℤ) (venue : Str) :
    Option (ScenarioOutput P × IdGenerators) :=
  if accounts = [] then some (⟨[], []⟩, ids) else
  let windowNs : P := lerp 300000000000.0 8000000000.0 severity
  let numTrades := 3 + DoubleRounding.llround (severity * 7.0)
  let accountsUsed := (DoubleRounding.truncate (max 1.0 (DoubleRounding.round (lerp 2.0 1.0 severity)) : P)).toNat
  let instrumentsForRate : P := ((max 1 instrumentCount : ℤ) : P)
  let expectedAmbientQty := ordersPerSecond / instrumentsForRate * 0.75 * 47.95 * 300.0
  let targetShare : P := lerp 0.15 0.65 severity
  let totalScenarioQty := targetShare / (1.0 - targetShare) * expectedAmbientQty
  let push : ClosePush P := {
    label := ⟨.markingTheClose, scenarioId, severity⟩
    instrument := instrument
    accounts := accounts
    accountsUsed := min accountsUsed accounts.length
    windowNs := windowNs
    numTrades := numTrades
    stepTicks := lerp 0.5 4.0 severity
    qtyPerTrade := max 1 (DoubleRounding.llround (totalScenarioQty / (numTrades : P)))
    pushUp := uniformDouble draws.pushUp 0.0 1.0 < 0.5
    referencePriceRounded := DoubleRounding.round (basePrice / instrument.tickSize) * instrument.tickSize
    venue := venue }
  push.trades draws numTrades.toNat 0 ids

end TradeSurveillance.Simulator
