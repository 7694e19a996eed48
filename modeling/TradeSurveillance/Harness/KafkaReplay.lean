import TradeSurveillance.Harness.ReplayRunner
import TradeSurveillance.Pipeline.ConsumerLoop

/-!
# `harness/replay_runner`: a session through Kafka and the live pipeline

`replay_through_kafka` publishes the events, and then runs three threads: its own polls Kafka and pushes, a `LiveConsumer` evaluates
and hands alerts to the sink, and an `MlScoringWorker`, where there is one, scores what the sixth detector submits. Either consumer is
the machine of `run`; a step here is one of theirs, a poll, or an alert handed to the sink. What Kafka, the service and its health check
answer are arguments.
-/

namespace TradeSurveillance.Harness

variable {P : Type}

/-! ## Capacities -/

/-- The loop of `ring_buffer_capacity_for`; `none` where it takes more turns. -/
def doubleUntil (n : Word) : ℕ → Word → Option Word
  | 0, _ => none
  | turns + 1, capacity => if capacity < n then doubleUntil n turns (capacity * 2) else some capacity

/-- `ring_buffer_capacity_for`. After 54 turns the capacity is 0 and stays so: a loop that has not ended by then never does. -/
def ringBufferCapacityFor (n : Word) : Option Word := doubleUntil n 55 1024

/-! ## Publishing -/

section Publish

variable [Double P]

/-- The loop that publishes, with what `produce` answers to each of its calls; `none` where more calls are made. A full queue is polled
and tried again. -/
def publishAll : KafkaProducer → List (Event P) → List ErrorCode → Option (KafkaProducer × Except Exception Unit)
  | kafka, [], _ => some (kafka, .ok ())
  | _, _ :: _, [] => none
  | kafka, event :: events, err :: errs =>
    match kafka.publish event err with
    | (kafka, .error what) => some (kafka, .error what)
    | (kafka, .ok true) => publishAll kafka events errs
    | (kafka, .ok false) => publishAll kafka (event :: events) errs

/-- `replay_through_kafka` up to its first `poll`: the events, and the messages `produce` enqueued. `baseUrl` is that of the client of
`ml_eval`; what `produce`, `flush` and the health check answer are arguments. -/
def publishSession (simulation : Simulator.SimulationOutput P) (brokers : Str) (publishTimeoutMs : ℤ) (baseUrl : Option Str)
    (errs : List ErrorCode) (flushed healthy : Bool) : Option (Except Exception (List (Event P) × KafkaProducer)) :=
  match toIngestionEvents simulation with
  | .error what => some (.error what)
  | .ok events => (publishAll .make events errs).map fun (kafka, r) =>
    match r with
    | .error what => .error what
    | .ok () =>
      if flushed = false then
        .error (.runtimeError (ascii "replay_through_kafka: Kafka publish did not flush within " ++ Decimal.ofInt publishTimeoutMs ++
          ascii "ms -- is the broker at " ++ brokers ++ ascii " reachable? (docker compose up -d kafka)"))
      else match baseUrl with
        | none => .ok (events, kafka)
        | some baseUrl =>
          if healthy = false then
            .error (.runtimeError (ascii "replay_through_kafka: ml_service health check failed at " ++ baseUrl ++
              ascii " -- start ml_service before running an ML-inclusive evaluation"))
          else .ok (events, kafka)

end Publish

/-! ## Polling -/

/-- What `consume` gives. -/
inductive ConsumeAnswer where
  | message
  | timedOut
  | partitionEof
  | error (text : Str)
  deriving DecidableEq, Repr

/-- `KafkaReplayConsumer`: the messages of its partition, and the offset of the next. -/
structure KafkaReplayConsumer where
  partition : List Str
  next : ℕ
  deriving DecidableEq, Repr

namespace KafkaReplayConsumer

/-- The constructor, which ends with `seek_to_beginning`. -/
def make (partition : List Str) : KafkaReplayConsumer := ⟨partition, 0⟩

/-- `seek_to_beginning`. -/
def seekToBeginning (c : KafkaReplayConsumer) : KafkaReplayConsumer := { c with next := 0 }

/-- `poll`; there is no message to get behind the last. -/
def poll [Double P] (c : KafkaReplayConsumer) : ConsumeAnswer → Option (KafkaReplayConsumer × Except Exception (Option (Event P)))
  | .message => c.partition[c.next]?.map fun payload => ({ c with next := c.next + 1 }, (decode payload).map some)
  | .timedOut | .partitionEof => some (c, .ok none)
  | .error text => some (c, .error (.runtimeError (ascii "KafkaReplayConsumer: consume() failed: " ++ text)))

end KafkaReplayConsumer

/-! ## The consumer -/

/-- The `LiveConsumer` of a replay, on a pipeline of the first five detectors. The sixth is kept beside them, where what it submits can
be seen; the pipeline calls it last, with the same book and event, and it returns no alert. -/
structure ReplayConsumer (P : Type) where
  live : LiveConsumer P
  ml : Option (MlAnomalyDetector P)

namespace ReplayConsumer

variable [Double P]

/-- `process_one`. -/
def processOne [LinearOrder P] (c : ReplayConsumer P) (event : Event P) : ReplayConsumer P :=
  let r := c.live.processOne event
  let book := r.1.pipeline.bookOf event.instrumentId
  { live := r.1
    ml := if r.2.skippedInconsistent then c.ml else c.ml.map fun d => (d.evaluate book event).1 }

/-- The requests `submit` is called with. -/
def submitted (c : ReplayConsumer P) : List (ScoringRequest P) := (c.ml.map (·.submitted)).getD []

/-- `run`. -/
def run [LinearOrder P] (moved : Event P → Event P) (capacity : Word) (consumer : ReplayConsumer P) :
    Machine (ConsumerLoop (Event P) (ReplayConsumer P)) (LoopAction (Event P) Unit) (LoopEvent (Event P)) :=
  loopMachine moved (fun c _ event => c.processOne event) capacity consumer

end ReplayConsumer

/-! ## The replay -/

/-- Where the thread of `replay_through_kafka` stands: in the loop over `poll`, in the join of the consumer's thread, in that of the
worker's, behind both, or terminated by an exception that leaves it before the joins. -/
inductive ReplayPc where
  | polling
  | joining
  | stopping
  | joined
  | terminated (what : Exception)
  deriving DecidableEq, Repr

/-- The replay from its first `poll` on: the locals of its thread, the two consumers around their buffers, how many of the requests the
consumer's thread has submitted, how many alerts either has handed over, and the alerts of the sink. -/
structure KafkaReplay (P : Type) [Double P] where
  pc : ReplayPc
  kafka : KafkaReplayConsumer
  total : ℕ
  replayed : ℕ
  consecutiveEmpty : ℕ
  consumer : ConsumerLoop (Event P) (ReplayConsumer P)
  submits : ℕ
  handed : ℕ
  worker : Option (ConsumerLoop (ScoringRequest P) (MlScoringWorker P))
  workerHanded : ℕ
  sink : List (Alert P)

/-- The actions: a thread takes its next step. `answer` is what `consume` gives or the service answers, where the step calls it. -/
inductive ReplayAction (P : Type) where
  | main (answer : ConsumeAnswer) (spurious : Bool)
  | consumer (spurious : Bool)
  | worker (spurious : Bool) (answer : Option (ScoringResult P))

/-- A request that the worker scored, and what the service answered. -/
abbrev Scored (P : Type) := ScoringRequest P × Option (ScoringResult P)

namespace KafkaReplay

variable [Double P] [LinearOrder P] (moved : Event P → Event P) (movedRequest : ScoringRequest P → ScoringRequest P)

/-- A step of the loop around the consumer's buffer. -/
def stepConsumer (s : KafkaReplay P) (a : LoopAction (Event P) Unit) : Option (KafkaReplay P) :=
  (s.consumer.step moved (fun c _ event => c.processOne event) a).map fun r => { s with consumer := r.1 }

/-- A step of the loop around the worker's buffer. -/
def stepWorker (s : KafkaReplay P) (a : LoopAction (ScoringRequest P) (Option (ScoringResult P))) : Option (KafkaReplay P) :=
  s.worker.bind fun w => (w.step movedRequest MlScoringWorker.processOne a).map fun r => { s with worker := some r.1 }

/-- One step of the thread that polls. -/
def mainStep (s : KafkaReplay P) (answer : ConsumeAnswer) (spurious : Bool) : Option (KafkaReplay P) :=
  match s.pc with
  | .polling =>
    match s.consumer.ring.producer with
    | .idle =>
      if s.replayed < s.total ∧ s.consecutiveEmpty < 10 then
        (s.kafka.poll (P := P) answer).bind fun (kafka, r) =>
          match r with
          | .error what => some { s with kafka := kafka, pc := .terminated what }
          | .ok none => some { s with kafka := kafka, consecutiveEmpty := s.consecutiveEmpty + 1 }
          | .ok (some event) =>
            { s with kafka := kafka, replayed := s.replayed + 1, consecutiveEmpty := 0 }.stepConsumer moved (.push event)
      else { s with pc := .joining }.stepConsumer moved .setFlag
    | _ => s.stepConsumer moved (.producer spurious)
  | .joining =>
    match s.consumer.pc with
    | .returned =>
      match s.worker with
      | none => some { s with pc := .joined }
      | some _ => { s with pc := .stopping }.stepWorker movedRequest .setFlag
    | _ => none
  | .stopping =>
    match s.worker with
    | none => none
    | some w => if w.pc = .returned then some { s with pc := .joined } else none
  | .joined | .terminated _ => none

/-- Behind its calls of `submit` the consumer's thread hands over the alerts of the event, and goes on with its loop. -/
def handOrRun (s : KafkaReplay P) (spurious : Bool) : Option (KafkaReplay P) :=
  match s.consumer.consumer.live.alerts[s.handed]? with
  | some alert => some { s with handed := s.handed + 1, sink := s.sink ++ [alert] }
  | none => s.stepConsumer moved (.consumer spurious ())

/-- One step of the consumer's thread. -/
def consumerStep (s : KafkaReplay P) (spurious : Bool) : Option (KafkaReplay P) :=
  match s.worker with
  | none => s.handOrRun moved spurious
  | some w =>
    match w.ring.producer with
    | .idle =>
      match s.consumer.consumer.submitted[s.submits]? with
      | some request => { s with submits := s.submits + 1 }.stepWorker movedRequest (.push request)
      | none => s.handOrRun moved spurious
    | _ => s.stepWorker movedRequest (.producer spurious)

/-- One step of the worker's thread, and the request it hands to `process_one`, with the answer of the service. -/
def workerStep (s : KafkaReplay P) (spurious : Bool) (answer : Option (ScoringResult P)) : Option (KafkaReplay P × List (Scored P)) :=
  match s.worker with
  | none => none
  | some w =>
    match w.consumer.alerts[s.workerHanded]? with
    | some alert => some ({ s with workerHanded := s.workerHanded + 1, sink := s.sink ++ [alert] }, [])
    | none =>
      (w.step movedRequest MlScoringWorker.processOne (.consumer spurious answer)).map fun (w, out) =>
        ({ s with worker := some w }, (processed out).map (·, answer))

/-- One step; none once an exception has terminated the program. -/
def step (s : KafkaReplay P) (a : ReplayAction P) : Option (KafkaReplay P × List (Scored P)) :=
  match s.pc with
  | .terminated _ => none
  | _ =>
    match a with
    | .main answer spurious => (s.mainStep moved movedRequest answer spurious).map (·, [])
    | .consumer spurious => (s.consumerStep moved movedRequest spurious).map (·, [])
    | .worker spurious answer => s.workerStep movedRequest spurious answer

end KafkaReplay

/-- `MlEvalConfig` as far as it is read here, and the configuration of its worker but for the capacity. -/
def workerConfig [Double P] (capacity : Word) : MlScoringWorkerConfig P where
  alertThreshold := 0.0
  queueCapacity := capacity

/-- The consumer before the first event. -/
def ReplayConsumer.make [Double P] [LinearOrder P] (order : HashOrder) (simulation : Simulator.SimulationOutput P) (mlEval : Bool) :
    ReplayConsumer P where
  live := .make (.make (makeFiveDetectors order simulation) (accountRegistry simulation))
  ml := if mlEval then some (.make {}) else none

/-- The replay of a session whose topic came to hold these messages, from the first `poll` on. Its log is what the worker scored. -/
def replayMachine [Double P] [LinearOrder P] (moved : Event P → Event P) (movedRequest : ScoringRequest P → ScoringRequest P)
    (order : HashOrder) (simulation : Simulator.SimulationOutput P) (mlEval : Bool) (events : List (Event P)) (topic : List Str) :
    Machine (KafkaReplay P) (ReplayAction P) (Scored P) where
  init s := ∃ capacity ring, ringBufferCapacityFor (BitVec.ofNat 64 events.length) = some capacity ∧
    SpscRingBuffer.make capacity = .ok ring ∧ s = {
      pc := .polling
      kafka := (KafkaReplayConsumer.make topic).seekToBeginning
      total := events.length
      replayed := 0
      consecutiveEmpty := 0
      consumer := ⟨⟨ring, .idle, .idle⟩, false, .pop, .make order simulation mlEval⟩
      submits := 0
      handed := 0
      worker := if mlEval then (SpscRingBuffer.make capacity).toOption.map fun ring =>
          ⟨⟨ring, .idle, .idle⟩, false, .pop, .make (workerConfig capacity)⟩
        else none
      workerHanded := 0
      sink := [] }
  step := KafkaReplay.step moved movedRequest

/-! ## The result -/

/-- `ReplayResult`. -/
structure ReplayResult (P : Type) where
  alerts : List (Alert P)
  eventsTotal : ℕ
  eventsReplayedFromKafka : ℕ
  eventsProcessed : Word
  eventsSkippedInconsistent : Word
  ringBufferDropped : Word

/-- What `replay_through_kafka` returns or throws behind the joins. -/
def KafkaReplay.finish [Double P] (s : KafkaReplay P) : Except Exception (ReplayResult P) :=
  let requestsDropped := ((s.worker.map fun w => w.ring.ring.dropped).getD 0)
  let dropped := s.consumer.ring.ring.dropped
  if requestsDropped ≠ 0 then
    .error (.runtimeError (ascii "replay_through_kafka: ML scoring queue dropped " ++ Decimal.ofNat requestsDropped.toNat ++
      ascii " request(s) under backpressure -- queue_capacity too small for this replay"))
  else if s.replayed ≠ s.total then
    .error (.runtimeError (ascii "replay_through_kafka: only replayed " ++ Decimal.ofNat s.replayed ++ ascii "/" ++
      Decimal.ofNat s.total ++ ascii " events back from Kafka -- broker issue or topic collision?"))
  else if dropped ≠ 0 then
    .error (.runtimeError (ascii "replay_through_kafka: ring buffer dropped " ++ Decimal.ofNat dropped.toNat ++
      ascii " event(s) under drop-oldest backpressure -- capacity too small for this replay"))
  else .ok {
    alerts := s.sink
    eventsTotal := s.total
    eventsReplayedFromKafka := s.replayed
    eventsProcessed := s.consumer.consumer.live.eventsProcessed
    eventsSkippedInconsistent := s.consumer.consumer.live.eventsSkippedInconsistent
    ringBufferDropped := dropped }

end TradeSurveillance.Harness
