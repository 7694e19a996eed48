import TradeSurveillance.Pipeline.LivePipeline

/-!
# `LiveBookRegistry`: the consumer of the API server

Its mutex orders `process_one` against the readers, which change nothing; it is left out.
-/

namespace TradeSurveillance

/-- `BookEvent`. -/
structure BookEvent (P : Type) where
  timestampNs : ℤ
  instrumentId : Str
  msgType : Str
  side : Str
  price : P
  qty : ℤ
  orderId : Str
  accountId : Str
  deriving DecidableEq, Repr

/-- How the feed writes a side. -/
def feedSide : Side → Str
  | .buy => ascii "BUY"
  | .sell => ascii "SELL"

variable {P : Type}

/-- `to_book_event`. -/
def toBookEvent : Event P → BookEvent P
  | .order order => {
      timestampNs := order.timestampNs
      instrumentId := order.instrumentId
      msgType := match order.status with
        | .cancelled => ascii "CANCEL"
        | .replaced => ascii "REPLACE"
        | .new => ascii "NEW"
      side := feedSide order.side
      price := order.price
      qty := order.qty
      orderId := order.orderId
      accountId := order.accountId }
  | .execution execution => {
      timestampNs := execution.timestampNs
      instrumentId := execution.instrumentId
      msgType := ascii "EXECUTION"
      side := feedSide execution.side
      price := execution.price
      qty := execution.qty
      orderId := execution.orderId
      accountId := execution.accountId }

/-- `kMaxEventsPerInstrument`. -/
def maxEventsPerInstrument : ℕ := 200

/-- The fields of `LiveBookRegistry`; `alerts` are those handed to the alert sink, in order. -/
structure LiveBookRegistry (P : Type) where
  pipeline : LivePipeline P
  recentEventsByInstrument : Map Str (List (BookEvent P))
  alerts : List (Alert P)
  eventsProcessed : Word
  eventsSkippedInconsistent : Word

namespace LiveBookRegistry

/-- The constructor. -/
def make (pipeline : LivePipeline P) : LiveBookRegistry P := ⟨pipeline, ∅, [], 0, 0⟩

/-- `record_event`: the oldest events go once there are too many. -/
def recordEvent (r : LiveBookRegistry P) (event : Event P) : LiveBookRegistry P :=
  let recorded := toBookEvent event
  let events := ((r.recentEventsByInstrument.lookup recorded.instrumentId).getD []) ++ [recorded]
  { r with recentEventsByInstrument :=
      r.recentEventsByInstrument.insert recorded.instrumentId (events.drop (events.length - maxEventsPerInstrument)) }

/-- `process_one`. -/
def processOne [LinearOrder P] (r : LiveBookRegistry P) (event : Event P) : LiveBookRegistry P :=
  let (pipeline, result) := r.pipeline.process event
  let r := { r with pipeline := pipeline }.recordEvent event
  let r := { r with eventsProcessed := r.eventsProcessed + 1 }
  if result.skippedInconsistent then { r with eventsSkippedInconsistent := r.eventsSkippedInconsistent + 1 }
  else { r with alerts := r.alerts ++ result.alerts }

/-- `snapshot`. -/
def snapshot [LinearOrder P] (r : LiveBookRegistry P) (instrumentId : Str) : Option (DepthSnapshot P) :=
  (r.pipeline.bookFor instrumentId).map OrderBook.snapshot

/-- `recent_events`: at most `limit` of the most recent events. -/
def recentEvents (r : LiveBookRegistry P) (instrumentId : Str) (limit : ℕ) : List (BookEvent P) :=
  let events := (r.recentEventsByInstrument.lookup instrumentId).getD []
  events.drop (events.length - min limit events.length)

end LiveBookRegistry

end TradeSurveillance
