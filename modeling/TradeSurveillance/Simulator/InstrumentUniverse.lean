import TradeSurveillance.Simulator.Types

/-!
# `instrument_universe`
-/

namespace TradeSurveillance.Simulator

variable {P : Type} [Double P]

/-- `kEquitySymbols`. -/
def equitySymbols : List String := ["ACME", "GLBX", "NDEX", "ORCA", "PLTX", "QTRX", "RHNO", "STLR"]

/-- `kFxSymbols`. -/
def fxSymbols : List String := ["EURUSD", "USDJPY", "GBPUSD", "AUDUSD", "USDCHF"]

/-- `kFixedIncomeSymbols`. -/
def fixedIncomeSymbols : List String := ["UST2Y", "UST5Y", "UST10Y", "UST30Y", "BUND10Y"]

omit [Double P] in
/-- `make_instrument`. -/
def makeInstrument (assetClass : AssetClass) (tickSize : P) (avgDailyVolume sessionCloseNs : ℤ) (symbol : String) : Instrument P where
  instrumentId := ascii symbol
  symbol := ascii symbol
  assetClass := assetClass
  tickSize := tickSize
  avgDailyVolume := avgDailyVolume
  sessionCloseNs := sessionCloseNs

/-- `InstrumentUniverseConfig` and its defaults. -/
structure InstrumentUniverseConfig where
  numEquity : ℤ := 3
  numFx : ℤ := 2
  numFixedIncome : ℤ := 2
  sessionCloseNs : ℤ := 0

/-- `build_instrument_universe`. A number that is negative takes no symbols, one that is too large all of them. -/
def buildInstrumentUniverse (config : InstrumentUniverseConfig) : List (Instrument P) :=
  (equitySymbols.take config.numEquity.toNat).map (makeInstrument .equity 0.01 1000000 config.sessionCloseNs) ++
  (fxSymbols.take config.numFx.toNat).map (makeInstrument .fx 0.0001 100000000 config.sessionCloseNs) ++
  (fixedIncomeSymbols.take config.numFixedIncome.toNat).map (makeInstrument .fixedIncome 0.01 200000 config.sessionCloseNs)

/-- `reference_price`, with any `std::hash`. -/
def referencePrice (hash : Str → ℕ) (instrument : Instrument P) : P :=
  let jitter : P := ((hash instrument.instrumentId % 1000 : ℕ) : ℤ) / 1000.0
  match instrument.assetClass with
  | .equity => 50.0 + jitter * 150.0
  | .fx => 0.8 + jitter * 0.8
  | .fixedIncome => 95.0 + jitter * 10.0

end TradeSurveillance.Simulator
