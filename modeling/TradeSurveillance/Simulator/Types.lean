import TradeSurveillance.Fix.Types

/-!
# `simulator/types`: what the generator emits

The generator has its own orders and executions, each with the ground truth about the scenario that produced it.
-/

namespace TradeSurveillance.Simulator

inductive AssetClass where
  | equity | fx | fixedIncome
  deriving DecidableEq, Repr

inductive Side where
  | buy | sell
  deriving DecidableEq, Repr

inductive OrderType where
  | limit | market
  deriving DecidableEq, Repr

inductive OrderStatus where
  | new | cancelled | replaced
  deriving DecidableEq, Repr

inductive EntityType where
  | client | proprietary
  deriving DecidableEq, Repr

/-- `baseline`: not part of any injected scenario. -/
inductive AbusePattern where
  | baseline | washTrade | spoofingLayering | markingTheClose | frontRunning
  deriving DecidableEq, Repr

def Side.toString : Side → Str
  | .buy => ascii "Buy"
  | .sell => ascii "Sell"

def OrderType.toString : OrderType → Str
  | .limit => ascii "Limit"
  | .market => ascii "Market"

def OrderStatus.toString : OrderStatus → Str
  | .new => ascii "New"
  | .cancelled => ascii "Cancelled"
  | .replaced => ascii "Replaced"

def EntityType.toString : EntityType → Str
  | .client => ascii "Client"
  | .proprietary => ascii "Proprietary"

def AbusePattern.toString : AbusePattern → Str
  | .baseline => ascii "Baseline"
  | .washTrade => ascii "WashTrade"
  | .spoofingLayering => ascii "SpoofingLayering"
  | .markingTheClose => ascii "MarkingTheClose"
  | .frontRunning => ascii "FrontRunning"

def sideFromString (value : Str) : Except Exception Side :=
  if value = ascii "Buy" then .ok .buy
  else if value = ascii "Sell" then .ok .sell
  else .error (unrecognizedValue (ascii "side_from_string") value)

def orderTypeFromString (value : Str) : Except Exception OrderType :=
  if value = ascii "Limit" then .ok .limit
  else if value = ascii "Market" then .ok .market
  else .error (unrecognizedValue (ascii "order_type_from_string") value)

def orderStatusFromString (value : Str) : Except Exception OrderStatus :=
  if value = ascii "New" then .ok .new
  else if value = ascii "Cancelled" then .ok .cancelled
  else if value = ascii "Replaced" then .ok .replaced
  else .error (unrecognizedValue (ascii "order_status_from_string") value)

def abusePatternFromString (value : Str) : Except Exception AbusePattern :=
  if value = ascii "Baseline" then .ok .baseline
  else if value = ascii "WashTrade" then .ok .washTrade
  else if value = ascii "SpoofingLayering" then .ok .spoofingLayering
  else if value = ascii "MarkingTheClose" then .ok .markingTheClose
  else if value = ascii "FrontRunning" then .ok .frontRunning
  else .error (unrecognizedValue (ascii "abuse_pattern_from_string") value)

@[simp] theorem sideFromString_toString (side : Side) : sideFromString side.toString = .ok side := by
  cases side <;> rfl

@[simp] theorem orderTypeFromString_toString (type : OrderType) : orderTypeFromString type.toString = .ok type := by
  cases type <;> rfl

@[simp] theorem orderStatusFromString_toString (status : OrderStatus) : orderStatusFromString status.toString = .ok status := by
  cases status <;> rfl

@[simp] theorem abusePatternFromString_toString (pattern : AbusePattern) :
    abusePatternFromString pattern.toString = .ok pattern := by
  cases pattern <;> rfl

/-- An instrument; `sessionCloseNs` is when its synthetic session ends. -/
structure Instrument (P : Type) where
  instrumentId : Str
  symbol : Str
  assetClass : AssetClass
  tickSize : P
  avgDailyVolume : ℤ
  sessionCloseNs : ℤ

structure Account where
  accountId : Str
  beneficialOwnerId : Str
  entityType : EntityType
  linkedAccountIds : List Str
  deriving DecidableEq, Repr

/-- `GroundTruthLabel`; a baseline label has no scenario and no severity. -/
structure GroundTruthLabel (P : Type) where
  pattern : AbusePattern
  scenarioId : Str
  severity : P
  deriving DecidableEq, Repr

/-- The default label. -/
def GroundTruthLabel.default {P : Type} [Double P] : GroundTruthLabel P := ⟨.baseline, [], 0.0⟩

/-- `is_abuse`. -/
def isAbuse {P : Type} (label : GroundTruthLabel P) : Bool := label.pattern ≠ .baseline

structure Order (P : Type) where
  orderId : Str
  accountId : Str
  instrumentId : Str
  side : Side
  price : P
  qty : ℤ
  orderType : OrderType
  timestampNs : ℤ
  status : OrderStatus
  venue : Str
  groundTruthLabel : GroundTruthLabel P
  deriving DecidableEq, Repr

structure Execution (P : Type) where
  tradeId : Str
  orderId : Str
  accountId : Str
  instrumentId : Str
  price : P
  qty : ℤ
  timestampNs : ℤ
  counterpartyAccountId : Str
  venue : Str
  groundTruthLabel : GroundTruthLabel P
  deriving DecidableEq, Repr

/-- `SimulationOutput`. -/
structure SimulationOutput (P : Type) where
  instruments : List (Instrument P)
  accounts : List Account
  orders : List (Order P)
  executions : List (Execution P)

end TradeSurveillance.Simulator
