import TradeSurveillance.Fix.MessageTranslator
import TradeSurveillance.Harness.ReplayRunner
import TradeSurveillance.Ingestion.EventCodec

/-!
# The two ways of a simulated event to the pipeline

`feed_one_session` sends an order or an execution as a FIX message, which the application translates back; `replay_through_kafka`
publishes the event and decodes what it consumes.
-/

namespace TradeSurveillance

open Harness

variable {P : Type} [Double P]

/-- An order or an execution of a simulation; an execution comes with the side of its order. -/
inductive SessionItem (P : Type) where
  | order (order : Simulator.Order P)
  | execution (execution : Simulator.Execution P) (side : Side)

namespace SessionItem

omit [Double P] in
/-- The item by `to_fix_order` or `to_fix_execution`, which the harness and the server define alike. -/
def toEvent : SessionItem P → Event P
  | .order o => .order (toFixOrder o)
  | .execution x side => .execution (toFixExecution x side)

/-- What `on_order` or `on_execution` is called with for the message that is sent for an item. -/
def viaFix [DoubleRounding P] : SessionItem P → Except Exception (List (Event P))
  | .order o => match o.status with
    | .new => (fromNewOrderSingle (toNewOrderSingle (toFixOrder o))).map fun order => [.order order]
    | .cancelled => (fromOrderCancelRequest (toOrderCancelRequest (toFixOrder o))).map fun order => [.order order]
    -- no message is sent
    | .replaced => .ok []
  | .execution x side => (fromExecutionReport (toExecutionReport (toFixExecution x side))).map fun execution => [.execution execution]

/-- What the consumer decodes for an item. -/
def viaKafka (item : SessionItem P) : Except Exception (Event P) := decode (encode item.toEvent)

end SessionItem

/-- The events of a session over FIX. -/
def liveEvents [DoubleRounding P] (items : List (SessionItem P)) : Except Exception (List (Event P)) :=
  (items.mapM SessionItem.viaFix).map List.flatten

/-- The events of a session out of Kafka. -/
def replayedEvents (items : List (SessionItem P)) : Except Exception (List (Event P)) := items.mapM SessionItem.viaKafka

end TradeSurveillance
