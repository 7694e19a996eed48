import TradeSurveillance.Ingestion.EventCodec
import TradeSurveillance.Ingestion.RingBuffer
import TradeSurveillance.Pipeline.LivePipeline

/-!
# The live system: `PipelineEventSink`, the ring buffer, `LiveConsumer`

The sink runs on the thread of the producer: a call publishes the event to Kafka and then runs `push`. The consumer's thread calls
`pop` again and again and hands what it returns to the pipeline. Kafka is the list of the messages that `produce` enqueued; what
`produce` answers is part of the action. Latency samples are left out, and so is when `run` of the consumer ends.
-/

namespace TradeSurveillance

variable {P : Type} [Double P]

/-! ## The producer's side -/

/-- What `produce` answers, as far as `publish` distinguishes it; `text` is `err2str`. -/
inductive ErrorCode where
  | noError
  | queueFull
  | other (text : Str)
  deriving DecidableEq, Repr

/-- `KafkaProducer`: the messages of its topic, in the order they were enqueued. -/
structure KafkaProducer where
  log : List Str
  deriving DecidableEq, Repr

/-- The constructor, on an empty topic. -/
def KafkaProducer.make : KafkaProducer := ⟨[]⟩

/-- `KafkaProducer::publish`. -/
def KafkaProducer.publish (kafka : KafkaProducer) (event : Event P) (err : ErrorCode) :
    KafkaProducer × Except Exception Bool :=
  let payload := encode event
  match err with
  | .queueFull => (kafka, .ok false)
  | .other text => (kafka, .error (.runtimeError (ascii "KafkaProducer: produce() failed: " ++ text)))
  | .noError => (⟨kafka.log ++ [payload]⟩, .ok true)

/-- `PipelineEventSink::publish` before it calls `push`. The pointer to the producer may be null; what `publish` returns is not
looked at. -/
def PipelineEventSink.publishKafka (kafka : Option KafkaProducer) (event : Event P) (err : ErrorCode) :
    Option KafkaProducer × Except Exception Unit :=
  match kafka with
  | none => (none, .ok ())
  | some kafka =>
    match kafka.publish event err with
    | (kafka, .error what) => (some kafka, .error what)
    | (kafka, .ok _) => (some kafka, .ok ())

/-! ## The consumer's side -/

/-- The fields of `LiveConsumer`; `alerts` are those handed to the alert sink, in order. -/
structure LiveConsumer (P : Type) where
  pipeline : LivePipeline P
  alerts : List (Alert P)
  eventsProcessed : Word
  eventsSkippedInconsistent : Word

namespace LiveConsumer

/-- The constructor. -/
def make (pipeline : LivePipeline P) : LiveConsumer P := ⟨pipeline, [], 0, 0⟩

/-- `process_one`, and the result it acts on. -/
def processOne [LinearOrder P] (c : LiveConsumer P) (event : Event P) : LiveConsumer P × ProcessResult P :=
  let (pipeline, result) := c.pipeline.process event
  let c := { c with
    pipeline := pipeline
    eventsProcessed := c.eventsProcessed + 1 }
  if result.skippedInconsistent then
    ({ c with eventsSkippedInconsistent := c.eventsSkippedInconsistent + 1 }, result)
  else ({ c with alerts := c.alerts ++ result.alerts }, result)

end LiveConsumer

/-! ## The machine -/

/-- A default-constructed event, which the cells of a new buffer hold. -/
instance : Inhabited (Event P) where
  default := .order {
    orderId := []
    accountId := []
    instrumentId := []
    side := .buy
    price := 0.0
    qty := 0
    orderType := .limit
    timestampNs := 0
    status := .new
    venue := []
    origOrderId := [] }

/-- The parts of the system. -/
structure LiveSystem (P : Type) where
  kafka : Option KafkaProducer
  ring : RingState (Event P)
  consumer : LiveConsumer P

/-- The actions: the sink is called, the consumer calls `pop`, or a thread takes its next step in the buffer. -/
inductive SystemAction (P : Type) where
  | onEvent (event : Event P) (err : ErrorCode)
  | pop
  | producer (spurious : Bool)
  | consumer (spurious : Bool)

/-- What a run can be seen to do. -/
inductive SystemEvent (P : Type) where
  /-- A call of `on_order` or `on_execution`, and what `produce` answers to it. -/
  | received (event : Event P) (err : ErrorCode)
  | ring (event : RingEvent (Event P))
  /-- A call of `process`, with the event's book as the detectors get it. -/
  | processed (event : Event P) (book : OrderBook P) (result : ProcessResult P)

namespace LiveSystem

variable (moved : Event P → Event P)

/-- One step of the system. -/
def step [LinearOrder P] (s : LiveSystem P) : SystemAction P → Option (LiveSystem P × List (SystemEvent P))
  | .onEvent event err =>
    match s.ring.producer with
    | .idle =>
      match PipelineEventSink.publishKafka s.kafka event err with
      -- the exception leaves the sink before `push`
      | (kafka, .error _) => some ({ s with kafka := kafka }, [.received event err])
      | (kafka, .ok ()) =>
        (s.ring.step moved (.push event)).map fun (ring, out) =>
          ({ s with kafka := kafka, ring := ring }, .received event err :: out.map .ring)
    | _ => none
  | .pop => (s.ring.step moved .pop).map fun (ring, out) => ({ s with ring := ring }, out.map .ring)
  | .producer spurious =>
    (s.ring.step moved (.producer spurious)).map fun (ring, out) => ({ s with ring := ring }, out.map .ring)
  | .consumer spurious =>
    (s.ring.step moved (.consumer spurious)).map fun (ring, out) =>
      match popped out with
      | [] => ({ s with ring := ring }, out.map .ring)
      | event :: _ =>
        let (consumer, result) := s.consumer.processOne event
        ({ s with ring := ring, consumer := consumer },
          out.map .ring ++ [.processed event (consumer.pipeline.bookOf event.instrumentId) result])

end LiveSystem

/-- The machine of a system with this producer, capacity, detectors and accounts. -/
def liveMachine [LinearOrder P] (moved : Event P → Event P) (kafka : Option KafkaProducer) (capacity : Word)
    (detectors : List (IDetector P)) (accounts : AccountRegistry) :
    Machine (LiveSystem P) (SystemAction P) (SystemEvent P) where
  init s := ∃ r, SpscRingBuffer.make capacity = .ok r ∧
    s = ⟨kafka, ⟨r, .idle, .idle⟩, .make (.make detectors accounts)⟩
  step := LiveSystem.step moved

/-! ## What a log says -/

section Log

omit [Double P]

/-- What happened in the buffer. -/
def ringLog (log : List (SystemEvent P)) : List (RingEvent (Event P)) :=
  log.filterMap fun | .ring x => some x | _ => none

/-- The calls of the sink. -/
def calls (log : List (SystemEvent P)) : List (Event P × ErrorCode) :=
  log.filterMap fun | .received event err => some (event, err) | _ => none

/-- The events whose messages `produce` enqueued, in order. -/
def enqueued (log : List (SystemEvent P)) : List (Event P) :=
  ((calls log).filter fun c => c.2 = .noError).map (·.1)

/-- A run without events shows nothing of the buffer. -/
@[simp] theorem ringLog_nil : ringLog ([] : List (SystemEvent P)) = [] := rfl

/-- It shows no call of the sink. -/
@[simp] theorem calls_nil : calls ([] : List (SystemEvent P)) = [] := rfl

/-- What happened in the buffer in one log behind another. -/
@[simp] theorem ringLog_append (log out : List (SystemEvent P)) : ringLog (log ++ out) = ringLog log ++ ringLog out :=
  List.filterMap_append

/-- A call of the sink is nothing that happened in the buffer. -/
@[simp] theorem ringLog_received (e : Event P) (err : ErrorCode) (log : List (SystemEvent P)) :
    ringLog (.received e err :: log) = ringLog log := rfl

/-- Nor is an event processed. -/
@[simp] theorem ringLog_processed (e : Event P) (book : OrderBook P) (result : ProcessResult P) (log : List (SystemEvent P)) :
    ringLog (.processed e book result :: log) = ringLog log := rfl

/-- The events of the buffer are. -/
@[simp] theorem ringLog_ring (out : List (RingEvent (Event P))) : ringLog (out.map .ring) = out := by
  induction out with
  | nil => rfl
  | cons x out ih => exact congrArg (x :: ·) ih

/-- The calls of the sink in one log behind another. -/
@[simp] theorem calls_append (log out : List (SystemEvent P)) : calls (log ++ out) = calls log ++ calls out :=
  List.filterMap_append

/-- A call of the sink is the first of the calls. -/
@[simp] theorem calls_received (e : Event P) (err : ErrorCode) (log : List (SystemEvent P)) :
    calls (.received e err :: log) = (e, err) :: calls log := rfl

/-- An event processed is no call of the sink. -/
@[simp] theorem calls_processed (e : Event P) (book : OrderBook P) (result : ProcessResult P) (log : List (SystemEvent P)) :
    calls (.processed e book result :: log) = calls log := rfl

/-- The events of the buffer are no calls of the sink. -/
@[simp] theorem calls_ring (out : List (RingEvent (Event P))) : calls (out.map .ring) = [] := by
  induction out with
  | nil => rfl
  | cons x out ih => exact ih

/-- What Kafka has stored in one log behind another. -/
@[simp] theorem enqueued_append (log out : List (SystemEvent P)) : enqueued (log ++ out) = enqueued log ++ enqueued out := by
  simp only [enqueued, calls_append, List.filter_append, List.map_append]

end Log

end TradeSurveillance
