import TradeSurveillance.Lib.StableSort
import TradeSurveillance.Simulator.Abuse.FrontRunning
import TradeSurveillance.Simulator.Abuse.MarkingTheClose
import TradeSurveillance.Simulator.Abuse.WashTrade

/-!
# `generate_simulation`

What the two random engines give is an argument (see `RandomUtils`), in place of the seed. The result is `none` where the source
throws, picks from an empty list, or has not returned after the draws.
-/

namespace TradeSurveillance.Simulator

variable {P : Type} [Double P]

/-- `AbusePatternConfig` and its defaults. -/
structure AbusePatternConfig (P : Type) [Double P] where
  count : ℤ := 0
  severity : P := 0.5

/-- `SimulatorConfig` and its defaults, but for the seed. -/
structure SimulatorConfig (P : Type) [Double P] where
  sessionStartNs : ℤ := 0
  sessionDurationNs : ℤ := 6 * 3600 * 1000000000
  numEquityInstruments : ℤ := 3
  numFxInstruments : ℤ := 2
  numFixedIncomeInstruments : ℤ := 2
  baselineOrdersPerSecond : P := 16.69 * ((7 : ℤ) : P)
  numIndependentAccounts : ℤ := 40
  numLinkedAccountPairs : ℤ := 8
  washTrade : AbusePatternConfig P := {}
  spoofingLayering : AbusePatternConfig P := {}
  markingTheClose : AbusePatternConfig P := {}
  frontRunning : AbusePatternConfig P := {}

/-- The draws of a turn of one of the loops over scenarios: which instrument and accounts, the anchor, and those of the scenario. -/
structure InjectionDraws (D : Type) where
  instrument : ℕ
  accounts : ℕ
  anchorNs : ℤ
  scenario : D

/-- The draws of `generate_simulation`. -/
structure SimulationDraws (P : Type) where
  baseline : List (ArrivalDraws P)
  washTrade : ℕ → InjectionDraws (WashTradeDraws P)
  spoofingLayering : ℕ → InjectionDraws (SpoofingLayeringDraws P)
  markingTheClose : ℕ → InjectionDraws (MarkingTheCloseDraws P)
  frontRunning : ℕ → InjectionDraws (FrontRunningDraws P)

namespace SimulatorConfig

/-- `session_end_ns`. -/
def sessionEndNs (config : SimulatorConfig P) : ℤ := config.sessionStartNs + config.sessionDurationNs

/-- The instruments of a session. -/
def instruments (config : SimulatorConfig P) : List (Instrument P) :=
  buildInstrumentUniverse
    { numEquity := config.numEquityInstruments
      numFx := config.numFxInstruments
      numFixedIncome := config.numFixedIncomeInstruments
      sessionCloseNs := config.sessionEndNs }

/-- The accounts of a session. -/
def accountRegistry (config : SimulatorConfig P) : AccountRegistry :=
  .make { numIndependentAccounts := config.numIndependentAccounts, numLinkedPairs := config.numLinkedAccountPairs }

/-- `random_anchor`; scenarios keep clear of the last 300 s of the session. -/
def randomAnchor (config : SimulatorConfig P) (draw : ℤ) : ℤ :=
  uniformInt64 draw config.sessionStartNs (max config.sessionStartNs (config.sessionEndNs - 300000000000))

end SimulatorConfig

/-- What a turn of one of the loops makes, given the id of the scenario. -/
abbrev Injection (P : Type) := ℕ → Str → IdGenerators → Option (ScenarioOutput P × IdGenerators)

omit [Double P] in
/-- A loop over scenarios, from number `i` on: what each makes is appended to the orders and the executions. -/
def injectScenarios (inject : Injection P) : ℕ → ℕ → IdGenerator → ScenarioOutput P × IdGenerators →
    Option (ScenarioOutput P × IdGenerators)
  | 0, _, _, r => some r
  | n + 1, i, scenarioGen, (out, ids) => do
    let (scenarioId, scenarioGen) := scenarioGen.next
    let (scenario, ids) ← inject i scenarioId ids
    injectScenarios inject n (i + 1) scenarioGen (⟨out.orders ++ scenario.orders, out.executions ++ scenario.executions⟩, ids)

omit [Double P] in
/-- What every scenario of a loop keeps, the loop keeps. -/
theorem injectScenarios_induct {inject : Injection P} {motive : ScenarioOutput P × IdGenerators → Prop}
    (hstep : ∀ {i scenarioId out ids scenario ids'}, inject i scenarioId ids = some (scenario, ids') → motive (out, ids) →
      motive (⟨out.orders ++ scenario.orders, out.executions ++ scenario.executions⟩, ids')) {n i : ℕ} {scenarioGen : IdGenerator}
    {r r' : ScenarioOutput P × IdGenerators} (h : injectScenarios inject n i scenarioGen r = some r') (hr : motive r) : motive r' := by
  induction n generalizing i scenarioGen r with
  | zero =>
    rw [injectScenarios, Option.some.injEq] at h
    exact h ▸ hr
  | succ n ih =>
    obtain ⟨out, ids⟩ := r
    unfold injectScenarios at h
    simp only [Option.bind_eq_bind, Option.bind_eq_some_iff, Prod.exists] at h
    obtain ⟨scenario, ids', hscenario, h⟩ := h
    exact ih h (hstep hscenario hr)

section Injections

variable [LinearOrder P] [DoubleRounding P] (hash : Str → ℕ) (config : SimulatorConfig P)

/-- The loop body of the wash trades. -/
def injectWashTrade (draws : ℕ → InjectionDraws (WashTradeDraws P)) : Injection P := fun i scenarioId ids => do
  let instrument ← pickRandom (draws i).instrument config.instruments
  let (first, second) ← config.accountRegistry.randomLinkedPair (draws i).accounts
  some (generateWashTradeScenario (draws i).scenario ids scenarioId instrument first second (referencePrice hash instrument)
    (config.randomAnchor (draws i).anchorNs) config.washTrade.severity (ascii "SIM"))

/-- The loop body of the spoofing scenarios. -/
def injectSpoofingLayering (draws : ℕ → InjectionDraws (SpoofingLayeringDraws P)) : Injection P := fun i scenarioId ids => do
  let instrument ← pickRandom (draws i).instrument config.instruments
  let account ← config.accountRegistry.randomIndependent (draws i).accounts
  generateSpoofingLayeringScenario (draws i).scenario ids scenarioId instrument account (referencePrice hash instrument)
    (config.randomAnchor (draws i).anchorNs) config.spoofingLayering.severity (ascii "SIM")

/-- The loop body of the marking-the-close scenarios, which have no anchor. -/
def injectMarkingTheClose (draws : ℕ → InjectionDraws (MarkingTheCloseDraws P)) : Injection P := fun i scenarioId ids => do
  let instrument ← pickRandom (draws i).instrument config.instruments
  let (first, second) ← config.accountRegistry.randomLinkedPair (draws i).accounts
  generateMarkingTheCloseScenario (draws i).scenario ids scenarioId instrument [first, second] (referencePrice hash instrument)
    config.markingTheClose.severity config.baselineOrdersPerSecond
    (config.numEquityInstruments + config.numFxInstruments + config.numFixedIncomeInstruments) (ascii "SIM")

/-- The loop body of the front-running scenarios. -/
def injectFrontRunning (draws : ℕ → InjectionDraws (FrontRunningDraws P)) : Injection P := fun i scenarioId ids => do
  let instrument ← pickRandom (draws i).instrument config.instruments
  let (first, second) ← config.accountRegistry.randomLinkedPair (draws i).accounts
  some (generateFrontRunningScenario (draws i).scenario ids scenarioId instrument first second (referencePrice hash instrument)
    (config.randomAnchor (draws i).anchorNs) config.frontRunning.severity (ascii "SIM"))

/-- `generate_simulation` up to the sorting. -/
def generateEvents (draws : SimulationDraws P) : Option (ScenarioOutput P × IdGenerators) := do
  let r ← generateBaselineFlow hash ⟨config.sessionStartNs, config.sessionEndNs⟩ config.instruments config.accountRegistry.accounts
    draws.baseline {}
  let r ← injectScenarios (injectWashTrade hash config draws.washTrade) config.washTrade.count.toNat 0
    { idPrefix := ascii "SCN-WASH" } r
  let r ← injectScenarios (injectSpoofingLayering hash config draws.spoofingLayering) config.spoofingLayering.count.toNat 0
    { idPrefix := ascii "SCN-SPOOF" } r
  let r ← injectScenarios (injectMarkingTheClose hash config draws.markingTheClose) config.markingTheClose.count.toNat 0
    { idPrefix := ascii "SCN-MTC" } r
  injectScenarios (injectFrontRunning hash config draws.frontRunning) config.frontRunning.count.toNat 0
    { idPrefix := ascii "SCN-FR" } r

/-- `generate_simulation`. -/
def generateSimulation (draws : SimulationDraws P) : Option (SimulationOutput P) :=
  (generateEvents hash config draws).map fun (out, _) =>
    { instruments := config.instruments
      accounts := config.accountRegistry.accounts
      orders := StableSort.sortBy (·.timestampNs) out.orders
      executions := StableSort.sortBy (·.timestampNs) out.executions }

end Injections

end TradeSurveillance.Simulator
