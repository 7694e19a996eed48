import TradeSurveillance.Db.AlertTable
import TradeSurveillance.Harness.ReplayRunner
import TradeSurveillance.Pipeline.ConsumerLoop

/-!
# `api/main`: the server around the alert store

The threads of the server: the one of the FIX session pushes events, that of the books consumes them, calls `submit` for the sixth detector
and hands alerts to the store, the worker's scores requests and hands over alerts of its own, and those of Crow change statuses. A
`DbAlertSink` inserts on the thread that calls it; what an insert throws leaves that thread and terminates the program. The server runs
until then: neither flag is ever set. What the database and the scoring service answer comes with an action.
-/

namespace TradeSurveillance.Api

open AlertStore

/-- The `LiveBookRegistry` on a pipeline of the first five detectors. The sixth is kept beside it, where what it submits can be seen; the
pipeline calls it last, with the same book and event, and it returns no alert. -/
structure ServerConsumer (P : Type) where
  registry : LiveBookRegistry P
  ml : MlAnomalyDetector P

variable {P : Type} [Double P]

/-- `process_one`. -/
def ServerConsumer.processOne [LinearOrder P] (c : ServerConsumer P) (event : Event P) : ServerConsumer P :=
  let registry := c.registry.processOne event
  let book := registry.pipeline.bookOf event.instrumentId
  { registry := registry
    ml := if (c.registry.pipeline.process event).2.skippedInconsistent then c.ml else (c.ml.evaluate book event).1 }

/-- `make_six_detectors` in a pipeline, before the first event. -/
def ServerConsumer.make [LinearOrder P] (order : HashOrder) (simulation : Simulator.SimulationOutput P) : ServerConsumer P where
  registry := .make (.make (Harness.makeFiveDetectors order simulation) (Harness.accountRegistry simulation))
  ml := .make {}

/-- The two consumers around their buffers, how many requests were submitted, how many alerts of either the store has, and its table;
`terminated` is the exception that ended the program. -/
structure LiveServer (P : Type) [Double P] where
  terminated : Option Exception
  books : ConsumerLoop (Event P) (ServerConsumer P)
  submits : ℕ
  handed : ℕ
  worker : ConsumerLoop (ScoringRequest P) (MlScoringWorker P)
  workerHanded : ℕ
  table : AlertTable P

/-- The actions: a thread takes its next step, with what the database or the service answers where the step asks them. -/
inductive ServerAction (P : Type) where
  | push (event : Event P)
  | feeder (spurious : Bool)
  | books (spurious : Bool) (answer : Answer)
  | worker (spurious : Bool) (score : Option (ScoringResult P)) (answer : Answer)
  | patch (alertId : ℤ) (newStatus : Str) (answer : Answer)

/-- What a run can be seen to do: an event is pushed, or handed to `process_one` of the books, a request is scored, the store is called. -/
inductive ServerEvent (P : Type) where
  | pushed (event : Event P)
  | consumed (event : Event P)
  | scored (request : ScoringRequest P) (score : Option (ScoringResult P))
  | called (call : StoreCall P × Answer)

namespace LiveServer

variable [LinearOrder P] (pg : Postgres) (moved : Event P → Event P) (movedRequest : ScoringRequest P → ScoringRequest P)

/-- A step of the loop around the buffer of events. -/
def stepBooks (s : LiveServer P) (a : LoopAction (Event P) Unit) : Option (LiveServer P × List (ServerEvent P)) :=
  (s.books.step moved (fun c _ event => c.processOne event) a).map fun r =>
    ({ s with books := r.1 }, (a.answered r.2).map (.consumed ·.1))

/-- A step of the loop around the buffer of requests. -/
def stepWorker (s : LiveServer P) (a : LoopAction (ScoringRequest P) (Option (ScoringResult P))) :
    Option (LiveServer P × List (ServerEvent P)) :=
  (s.worker.step movedRequest MlScoringWorker.processOne a).map fun r =>
    ({ s with worker := r.1 }, (a.answered r.2).map fun x => .scored x.1 x.2)

omit [LinearOrder P] in
/-- `on_alert`. -/
def onAlert (s : LiveServer P) (alert : Alert P) (answer : Answer) : LiveServer P :=
  let r := insertAlert pg s.table alert answer
  { s with
    table := r.1
    terminated := match r.2 with
      | .ok _ => none
      | .error e => some e }

/-- The alert is among those the store has, if it is. -/
def counted (n : ℕ) (answer : Answer) : ℕ := if answer.stands then n + 1 else n

/-- One step of the thread of the books: behind its calls of `submit` it hands over the alerts of the event, and goes on with its loop. -/
def booksStep (s : LiveServer P) (spurious : Bool) (answer : Answer) : Option (LiveServer P × List (ServerEvent P)) :=
  match s.worker.ring.producer with
  | .idle =>
    match s.books.consumer.ml.submitted[s.submits]? with
    | some request => { s with submits := s.submits + 1 }.stepWorker movedRequest (.push request)
    | none =>
      match s.books.consumer.registry.alerts[s.handed]? with
      | some alert =>
        some ({ s.onAlert pg alert answer with handed := counted s.handed answer }, [.called (.insertAlert alert, answer)])
      | none => s.stepBooks moved (.consumer spurious ())
  | _ => s.stepWorker movedRequest (.producer spurious)

/-- One step of the worker's thread. -/
def workerStep (s : LiveServer P) (spurious : Bool) (score : Option (ScoringResult P)) (answer : Answer) :
    Option (LiveServer P × List (ServerEvent P)) :=
  match s.worker.consumer.alerts[s.workerHanded]? with
  | some alert =>
    some ({ s.onAlert pg alert answer with workerHanded := counted s.workerHanded answer }, [.called (.insertAlert alert, answer)])
  | none => s.stepWorker movedRequest (.consumer spurious score)

/-- One step; none once an exception has terminated the program. -/
def step (s : LiveServer P) (a : ServerAction P) : Option (LiveServer P × List (ServerEvent P)) :=
  match s.terminated with
  | some _ => none
  | none =>
    match a with
    | .push event => (s.stepBooks moved (.push event)).map fun (s, out) => (s, .pushed event :: out)
    | .feeder spurious => s.stepBooks moved (.producer spurious)
    | .books spurious answer => s.booksStep pg moved movedRequest spurious answer
    | .worker spurious score answer => s.workerStep pg movedRequest spurious score answer
    | .patch alertId newStatus answer =>
      some ({ s with table := (updateAlertStatus pg s.table alertId newStatus answer).1 },
        [.called (.updateAlertStatus alertId newStatus, answer)])

end LiveServer

/-- The server on a store that some calls were made to before, with a buffer of this capacity. -/
def serverMachine [LinearOrder P] (pg : Postgres) (moved : Event P → Event P) (movedRequest : ScoringRequest P → ScoringRequest P)
    (capacity : Word) (order : HashOrder) (simulation : Simulator.SimulationOutput P) (before : List (StoreCall P × Answer)) :
    Machine (LiveServer P) (ServerAction P) (ServerEvent P) where
  init s := ∃ ring requests, SpscRingBuffer.make capacity = .ok ring ∧
    SpscRingBuffer.make ({} : MlScoringWorkerConfig P).queueCapacity = .ok requests ∧ s = {
      terminated := none
      books := ⟨⟨ring, .idle, .idle⟩, false, .pop, .make order simulation⟩
      submits := 0
      handed := 0
      worker := ⟨⟨requests, .idle, .idle⟩, false, .pop, .make {}⟩
      workerHanded := 0
      table := AlertTable.empty.after pg before }
  step := LiveServer.step pg moved movedRequest

end TradeSurveillance.Api
