import TradeSurveillance.Detectors.MarkingTheClose
import TradeSurveillance.Detectors.Rules
import TradeSurveillance.Lib.StableSort
import TradeSurveillance.Simulator.Types

/-!
# `harness/replay_runner`: a simulated session as events

The orders and the executions of a simulation are put in one order by their timestamps and stripped of their ground truth.
-/

namespace TradeSurveillance.Harness

variable {P : Type}

/-- The side of a simulated order. -/
def toFixSide : Simulator.Side → Side
  | .buy => .buy
  | .sell => .sell

/-- `to_fix_order`. It knows no Replace, and the order it is about is always the order itself. -/
def toFixOrder (order : Simulator.Order P) : Order P where
  orderId := order.orderId
  accountId := order.accountId
  instrumentId := order.instrumentId
  side := toFixSide order.side
  price := order.price
  qty := order.qty
  orderType := if order.orderType = .market then .market else .limit
  timestampNs := order.timestampNs
  status := if order.status = .cancelled then .cancelled else .new
  venue := order.venue
  origOrderId := order.orderId

/-- `to_fix_execution`. -/
def toFixExecution (execution : Simulator.Execution P) (side : Side) : Execution P where
  tradeId := execution.tradeId
  orderId := execution.orderId
  accountId := execution.accountId
  instrumentId := execution.instrumentId
  side := side
  price := execution.price
  qty := execution.qty
  timestampNs := execution.timestampNs
  counterpartyAccountId := execution.counterpartyAccountId
  venue := execution.venue

/-- `to_entity`. -/
def toEntity (account : Simulator.Account) : Entity where
  accountId := account.accountId
  beneficialOwnerId := account.beneficialOwnerId
  entityType := account.entityType.toString
  linkedAccountIds := account.linkedAccountIds

/-- The registry `replay_through_kafka` fills. -/
def accountRegistry (simulation : Simulator.SimulationOutput P) : AccountRegistry :=
  simulation.accounts.foldl (fun accounts account => accounts.add (toEntity account)) .empty

/-- `side_by_order_id`. -/
def sideByOrderId (orders : List (Simulator.Order P)) : Map Str Side :=
  orders.foldl (fun sides order => sides.insert order.orderId (toFixSide order.side)) ∅

/-- `Item`: the source keeps an index into the orders or the executions. -/
inductive Item (P : Type) where
  | order (order : Simulator.Order P)
  | execution (execution : Simulator.Execution P)

def Item.timestampNs : Item P → ℤ
  | .order o => o.timestampNs
  | .execution x => x.timestampNs

/-- The items after `std::stable_sort`. -/
def sortedItems (simulation : Simulator.SimulationOutput P) : List (Item P) :=
  StableSort.sortBy Item.timestampNs (simulation.orders.map .order ++ simulation.executions.map .execution)

/-- The event of an item; `at` throws where there is no such order. -/
def toEvent (sides : Map Str Side) : Item P → Except Exception (Event P)
  | .order o => .ok (.order (toFixOrder o))
  | .execution x => match sides.lookup x.orderId with
    | some side => .ok (.execution (toFixExecution x side))
    | none => .error (.outOfRange (ascii "unordered_map::at"))

/-- `to_ingestion_events`. -/
def toIngestionEvents (simulation : Simulator.SimulationOutput P) : Except Exception (List (Event P)) :=
  (sortedItems simulation).mapM (toEvent (sideByOrderId simulation.orders))

/-- `make_five_detectors`. -/
def makeFiveDetectors [Double P] [LinearOrder P] (order : HashOrder) (simulation : Simulator.SimulationOutput P) :
    List (IDetector P) :=
  let closeTimes : Map Str ℤ := simulation.instruments.foldl
    (fun times instrument => times.insert instrument.instrumentId instrument.sessionCloseNs) ∅
  [WashTradeDetector.object, (SpoofingLayeringDetector.make {}).object,
    (MarkingTheCloseDetector.make { closeTimeNsByInstrument := closeTimes } order).object,
    (FrontRunningDetector.make {}).object, (StatisticalBaselineDetector.make {}).object]

end TradeSurveillance.Harness
