import TradeSurveillance.Lemmas.PipelineBooks
import TradeSurveillance.Lemmas.RingHistory
import TradeSurveillance.Pipeline.LiveSystem

/-!
# The runs of the live system

`step_took` says once what a step does. From it: the buffer of a run of the system makes a run of its own (`run_ring`), the pipeline
is that of the events `pop` returned (`run_pipeline`), the topic holds the messages of the events that were enqueued (`run_kafka`),
and `push` was called with the events whose `publish` did not throw (`run_pushed`).
-/

namespace TradeSurveillance

variable {P : Type} [Double P] [LinearOrder P]

/-- What a step of the system does. -/
inductive LiveSystem.Took (moved : Event P → Event P) (s : LiveSystem P) :
    SystemAction P → LiveSystem P → List (SystemEvent P) → Prop where
  /-- The sink throws before it calls `push`. -/
  | refused {event : Event P} {err : ErrorCode} {kafka : Option KafkaProducer} {what : Exception}
      (hk : PipelineEventSink.publishKafka s.kafka event err = (kafka, .error what)) :
      Took moved s (.onEvent event err) { s with kafka := kafka } [.received event err]
  | received {event : Event P} {err : ErrorCode} {kafka : Option KafkaProducer} {ring : RingState (Event P)}
      {out : List (RingEvent (Event P))} (hk : PipelineEventSink.publishKafka s.kafka event err = (kafka, .ok ()))
      (hr : s.ring.step moved (.push event) = some (ring, out)) (hpush : pushed out = [event]) (hpop : popped out = []) :
      Took moved s (.onEvent event err) { s with kafka := kafka, ring := ring } (.received event err :: out.map .ring)
  /-- A step in the buffer that neither calls `push` nor returns an element from `pop`. -/
  | buffer {a : SystemAction P} {b : RingAction (Event P)} {ring : RingState (Event P)} {out : List (RingEvent (Event P))}
      (hr : s.ring.step moved b = some (ring, out)) (hpush : pushed out = []) (hpop : popped out = []) :
      Took moved s a { s with ring := ring } (out.map .ring)
  /-- `pop` returns an element, which is processed. -/
  | returned {spurious : Bool} {ring : RingState (Event P)} {out : List (RingEvent (Event P))} {event : Event P}
      (hr : s.ring.step moved (.consumer spurious) = some (ring, out)) (hand : s.ring.consumer.inHand = [event])
      (hpush : pushed out = []) (hpop : popped out = [event]) :
      Took moved s (.consumer spurious) { s with ring := ring, consumer := (s.consumer.processOne event).1 }
        (out.map .ring ++ [.processed event
          ((s.consumer.processOne event).1.pipeline.bookOf event.instrumentId) (s.consumer.processOne event).2])

namespace LiveSystem

variable {moved : Event P → Event P}

theorem step_took {s s' : LiveSystem P} {a : SystemAction P} {out : List (SystemEvent P)}
    (hs : s.step moved a = some (s', out)) : Took moved s a s' out := by
  cases a with
  | onEvent event err =>
    simp only [step] at hs
    split at hs
    · split at hs
      · rename_i hk
        cases hs
        exact .refused hk
      · rename_i hk
        simp only [Option.map_eq_some_iff, Prod.exists] at hs
        obtain ⟨ring, out, hr, hs⟩ := hs
        cases hs
        exact .received hk hr (step_pushed hr) (step_popped hr)
    · cases hs
  | pop =>
    simp only [step, Option.map_eq_some_iff, Prod.exists] at hs
    obtain ⟨ring, out, hr, hs⟩ := hs
    cases hs
    exact .buffer hr (step_pushed hr) (step_popped hr)
  | producer spurious =>
    simp only [step, Option.map_eq_some_iff, Prod.exists] at hs
    obtain ⟨ring, out, hr, hs⟩ := hs
    cases hs
    exact .buffer hr (step_pushed hr) (step_popped hr)
  | consumer spurious =>
    simp only [step, Option.map_eq_some_iff, Prod.exists] at hs
    obtain ⟨ring, out, hr, hs⟩ := hs
    have hpop := step_popped hr
    split at hs
    · rename_i hnil
      cases hs
      exact .buffer hr (step_pushed hr) hnil
    · rename_i event rest hcons
      cases hs
      rw [hcons] at hpop
      have hrest : rest = [] := by
        simp only at hpop
        unfold ConsumerPc.inHand at hpop
        split at hpop
        · exact (List.cons.inj hpop).2
        · cases hpop
      subst hrest
      exact .returned hr hpop.symm (step_pushed hr) hcons

end LiveSystem

/-! ## What the parts of a step come to -/

omit [Double P] in
@[simp] theorem LiveConsumer.processOne_pipeline (c : LiveConsumer P) (e : Event P) :
    (c.processOne e).1.pipeline = (c.pipeline.process e).1 := by
  unfold processOne
  simp only
  split <;> rfl

omit [Double P] in
@[simp] theorem LiveConsumer.processOne_result (c : LiveConsumer P) (e : Event P) :
    (c.processOne e).2 = (c.pipeline.process e).2 := by
  unfold processOne
  simp only
  split <;> rfl

namespace ErrorCode

/-- `publish` throws on this answer. -/
def throws : ErrorCode → Bool
  | .other _ => true
  | _ => false

end ErrorCode

omit [LinearOrder P] in
/-- With a producer the sink throws exactly when `publish` does, and the topic grows exactly when `produce` enqueued. -/
theorem PipelineEventSink.publishKafka_some (k : KafkaProducer) (e : Event P) (err : ErrorCode) :
    (publishKafka (some k) e err).1 = some ⟨k.log ++ (enqueued [.received e err]).map encode⟩ ∧
      ((publishKafka (some k) e err).2 = .ok () ↔ err.throws = false) := by
  cases err with
  | noError => exact ⟨rfl, by simp [publishKafka, KafkaProducer.publish, ErrorCode.throws]⟩
  | queueFull => simp [publishKafka, KafkaProducer.publish, ErrorCode.throws, enqueued]
  | other text => simp [publishKafka, KafkaProducer.publish, ErrorCode.throws, enqueued]

/-! ## The runs -/

section Run

variable {moved : Event P → Event P} {kafka : Option KafkaProducer} {capacity : Word} {detectors : List (IDetector P)}
  {accounts : AccountRegistry} {s : LiveSystem P} {log : List (SystemEvent P)}

/-- The buffer makes a run of its own. -/
theorem run_ring (hr : (liveMachine moved kafka capacity detectors accounts).Run s log) :
    (ringMachine moved capacity).Run s.ring (ringLog log) := by
  induction hr with
  | init hs =>
    obtain ⟨r, hr, rfl⟩ := hs
    exact .init ⟨r, hr, rfl⟩
  | @step s s' log out a _ _ hs ih =>
    rw [ringLog_append]
    cases LiveSystem.step_took hs with
    | refused hk => simpa using ih
    | received hk hr _ _ =>
      rw [ringLog_received, ringLog_ring]
      exact .step (a := .push _) ih trivial hr
    | buffer hr _ _ =>
      rw [ringLog_ring]
      exact .step ih trivial hr
    | returned hr _ _ _ =>
      rw [ringLog_append, ringLog_ring, ringLog_processed, ringLog_nil, List.append_nil]
      exact .step (a := .consumer _) ih trivial hr

/-- The pipeline has processed what `pop` returned. -/
theorem run_pipeline (hr : (liveMachine moved kafka capacity detectors accounts).Run s log) :
    s.consumer.pipeline = LivePipeline.run detectors accounts (popped (ringLog log)) := by
  induction hr with
  | init hs =>
    obtain ⟨r, -, rfl⟩ := hs
    rfl
  | @step s s' log out a _ _ hs ih =>
    rw [ringLog_append, popped_append]
    cases LiveSystem.step_took hs with
    | refused hk => simpa [popped] using ih
    | received hk hr _ hpop => simpa [hpop] using ih
    | buffer hr _ hpop => simpa [hpop] using ih
    | returned hr _ _ hpop =>
      rw [ringLog_append, ringLog_ring, ringLog_processed, ringLog_nil, List.append_nil, hpop, LivePipeline.run_concat, ← ih]
      exact LiveConsumer.processOne_pipeline _ _

/-- The topic holds the messages of the events that were enqueued. -/
theorem run_kafka (hr : (liveMachine moved (some .make) capacity detectors accounts).Run s log) :
    s.kafka = some ⟨(enqueued log).map encode⟩ := by
  induction hr with
  | init hs =>
    obtain ⟨r, -, rfl⟩ := hs
    rfl
  | @step s s' log out a _ _ hs ih =>
    rw [enqueued_append, List.map_append]
    cases LiveSystem.step_took hs with
    | @refused event err kafka what hk =>
      have h1 := (PipelineEventSink.publishKafka_some ⟨(enqueued log).map encode⟩ event err).1
      rw [← ih, hk] at h1
      exact h1
    | @received event err kafka ring out hk _ _ _ =>
      have h1 := (PipelineEventSink.publishKafka_some ⟨(enqueued log).map encode⟩ event err).1
      rw [← ih, hk] at h1
      have hout : enqueued (.received event err :: out.map .ring) = enqueued [.received event err] := by
        simp [enqueued, List.filter_cons]
      rw [hout]
      exact h1
    | buffer _ _ _ => simpa [enqueued] using ih
    | returned _ _ _ _ => simpa [enqueued] using ih

/-- `push` was called with the events whose `publish` did not throw. -/
theorem run_pushed (hr : (liveMachine moved (some .make) capacity detectors accounts).Run s log) :
    pushed (ringLog log) = ((calls log).filter fun c => !c.2.throws).map (·.1) := by
  induction hr with
  | init hs => rfl
  | @step s s' log out a hr _ hs ih =>
    rw [ringLog_append, pushed_append, calls_append, List.filter_append, List.map_append, ih]
    have hkafka := run_kafka hr
    cases LiveSystem.step_took hs with
    | @refused event err kafka what hk =>
      have h1 := (PipelineEventSink.publishKafka_some ⟨(enqueued log).map encode⟩ event err).2
      rw [← hkafka, hk] at h1
      simpa [pushed] using h1
    | @received event err kafka ring out hk _ hpush _ =>
      have h1 := (PipelineEventSink.publishKafka_some ⟨(enqueued log).map encode⟩ event err).2
      rw [← hkafka, hk] at h1
      simp [hpush, h1.1 rfl]
    | buffer _ hpush _ => simp [hpush]
    | returned _ _ hpush _ => simp [hpush]

end Run

end TradeSurveillance
