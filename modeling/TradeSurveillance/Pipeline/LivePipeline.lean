import TradeSurveillance.Detectors.Interface

/-!
# `LivePipeline`: events to books, books to detectors

The durations `process` measures are left out: nothing reads them back into the pipeline.
-/

namespace TradeSurveillance

/-- `ProcessResult`. -/
structure ProcessResult (P : Type) where
  alerts : List (Alert P)
  skippedInconsistent : Bool

/-- The fields of `LivePipeline`. -/
structure LivePipeline (P : Type) where
  detectors : List (IDetector P)
  accounts : AccountRegistry
  books : Map Str (OrderBook P)
  inconsistentEventsSkipped : Word

namespace LivePipeline

variable {P : Type} [LinearOrder P]

/-- The constructor. -/
def make (detectors : List (IDetector P)) (accounts : AccountRegistry) : LivePipeline P where
  detectors := detectors
  accounts := accounts
  books := ∅
  inconsistentEventsSkipped := 0

/-- `book_for`. -/
def bookFor (p : LivePipeline P) (instrumentId : Str) : Option (OrderBook P) := p.books.lookup instrumentId

/-- What `try_emplace` finds or makes. -/
def bookOf (p : LivePipeline P) (instrumentId : Str) : OrderBook P :=
  (p.bookFor instrumentId).getD (OrderBook.make instrumentId)

/-- `process`. Whatever `apply` throws is caught: it throws nothing but `std::invalid_argument` (`OrderBook.run_thrown`). -/
def process (p : LivePipeline P) (event : Event P) : LivePipeline P × ProcessResult P :=
  let r := (p.bookOf event.instrumentId).apply event
  let p := { p with books := p.books.insert event.instrumentId r.1 }
  match r.2 with
  | some _ => ({ p with inconsistentEventsSkipped := p.inconsistentEventsSkipped + 1 }, ⟨[], true⟩)
  | none =>
    let steps := p.detectors.map fun d => d.step r.1 event p.accounts
    ({ p with detectors := steps.map (·.1) }, ⟨steps.flatMap (·.2), false⟩)

/-- The pipeline after the events, from an empty one. -/
def run (detectors : List (IDetector P)) (accounts : AccountRegistry) (events : List (Event P)) : LivePipeline P :=
  events.foldl (fun p e => (p.process e).1) (make detectors accounts)

end LivePipeline

end TradeSurveillance
