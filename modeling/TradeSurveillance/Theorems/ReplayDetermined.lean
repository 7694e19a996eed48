import TradeSurveillance.Lemmas.ReplaySteps
import TradeSurveillance.Theorems.DetectorIndependence
import TradeSurveillance.Theorems.ReplayCapacity

/-!
# What a replay returns

Three threads take part in `replay_through_kafka`, Kafka may lose messages, polls may come up empty and the service may answer
anything. `replay_determined`: where it gets as far as its result, that is the one of a pipeline that gets the events one after the
other, with the worker's alerts interleaved.
-/

namespace TradeSurveillance

open Harness

variable {P : Type} [Double P]

/-! ## Publishing -/

/-- What `publish_all` leaves in the topic is there once, in order, however often the queue was full. -/
theorem publishAll_log {kafka kafka' : KafkaProducer} {events : List (Event P)} {errs : List ErrorCode}
    (h : publishAll kafka events errs = some (kafka', .ok ())) : kafka'.log = kafka.log ++ events.map encode := by
  induction errs generalizing kafka events with
  | nil =>
    cases events with
    | nil =>
      cases h
      exact (List.append_nil _).symm
    | cons e events => cases h
  | cons err errs ih =>
    cases events with
    | nil =>
      cases h
      exact (List.append_nil _).symm
    | cons e events =>
      cases err with
      | noError => rw [ih h, List.map_cons, List.append_assoc, List.singleton_append]
      | queueFull => exact ih h
      | other text => cases h

/-- The session is what `publish_session` leaves in the topic. -/
theorem publishSession_ok {simulation : Simulator.SimulationOutput P} {brokers : Str} {publishTimeoutMs : ℤ} {baseUrl : Option Str}
    {errs : List ErrorCode} {flushed healthy : Bool} {events : List (Event P)} {kafka : KafkaProducer}
    (h : publishSession simulation brokers publishTimeoutMs baseUrl errs flushed healthy = some (.ok (events, kafka))) :
    toIngestionEvents simulation = .ok events ∧ kafka.log = events.map encode := by
  unfold publishSession at h
  cases hevents : toIngestionEvents simulation with
  | error what =>
    rw [hevents] at h
    cases h
  | ok events' =>
    rw [hevents] at h
    obtain ⟨⟨kafka', r⟩, hpublish, h⟩ := Option.map_eq_some_iff.1 h
    cases r with
    | error what => cases h
    | ok u =>
      simp only at h
      split at h
      · cases h
      · have hlog := publishAll_log hpublish
        rw [KafkaProducer.make, List.nil_append] at hlog
        cases baseUrl with
        | none =>
          cases h
          exact ⟨rfl, hlog⟩
        | some baseUrl =>
          simp only at h
          split at h
          · cases h
          · cases h
            exact ⟨rfl, hlog⟩

/-- An event that comes out of its message as it went in: a finite price that is read back from its seventeen digits. -/
structure Event.Encodable (e : Event P) : Prop where
  finite : Double.isFinite e.price = true
  price : Double.stod (Double.print17 e.price) = .ok e.price
  qty : IsInt64 e.qty
  timestampNs : IsInt64 e.timestampNs

theorem Event.Encodable.decoded {e : Event P} (h : e.Encodable) : decode (encode e) = .ok e := by
  rw [encode_eq]
  exact decode_members e h.finite h.price h.qty h.timestampNs

/-! ## The consumers as folds -/

variable [LinearOrder P]

/-- The alerts of the answered requests whose score the threshold lets through. -/
def MlScoringWorker.alertsFor (threshold : P) (answers : List (Option (ScoringResult P)))
    (requests : List (ScoringRequest P)) : List (Alert P) :=
  (answers.zip requests).filterMap fun x =>
    x.1.bind fun result => if result.anomalyScore < threshold then none else some (alertOf x.2 result)

theorem MlScoringWorker.foldl_processOne (w : MlScoringWorker P) (answers : List (Option (ScoringResult P)))
    (requests : List (ScoringRequest P)) :
    ((answers.zip requests).foldl (fun w x => w.processOne x.1 x.2) w).alerts =
      w.alerts ++ alertsFor w.config.alertThreshold answers requests := by
  induction answers generalizing w requests with
  | nil => exact (List.append_nil _).symm
  | cons answer answers ih =>
    cases requests with
    | nil => exact (List.append_nil _).symm
    | cons request requests =>
      have hconfig : (w.processOne answer request).config = w.config := by
        unfold processOne
        split
        · rfl
        · simp only
          split <;> rfl
      rw [List.zip_cons_cons, List.foldl_cons, ih, hconfig, alertsFor, alertsFor, List.zip_cons_cons, List.filterMap_cons]
      cases answer with
      | none => rfl
      | some result =>
        simp only [processOne, Option.bind_some]
        split
        · rfl
        · simp

/-- The alerts of a worker that has scored these requests. -/
theorem MlScoringWorker.foldl_scored (w : MlScoringWorker P) (scored : List (Scored P)) :
    (scored.foldl (fun w x => w.processOne x.2 x.1) w).alerts =
      w.alerts ++ alertsFor w.config.alertThreshold (scored.map Prod.snd) (scored.map Prod.fst) := by
  have hfold := foldl_processOne w (scored.map Prod.snd) (scored.map Prod.fst)
  rwa [List.zip_map', List.foldl_map] at hfold

namespace Harness

/-- The detectors of a replay, as the source puts them together. -/
def replayDetectors (order : HashOrder) (simulation : Simulator.SimulationOutput P) (mlEval : Bool) : List (IDetector P) :=
  makeFiveDetectors order simulation ++ if mlEval then [(MlAnomalyDetector.make {}).object] else []

namespace ReplayConsumer

/-- The sixth detector as a pipeline of its own on the books of the first five. -/
def mlPipeline (c : ReplayConsumer P) : LivePipeline P :=
  { c.live.pipeline with detectors := (c.ml.map (·.object)).toList }

/-- The consumer with the sixth detector in its pipeline. -/
def whole (c : ReplayConsumer P) : LiveConsumer P := { c.live with pipeline := c.live.pipeline.join c.mlPipeline }

/-- The consumer of a replay is the one whose pipeline has all six detectors. -/
theorem whole_processOne (c : ReplayConsumer P) (e : Event P) : (c.processOne e).whole = (c.whole.processOne e).1 := by
  have hbooks : c.live.pipeline.SameBooks c.mlPipeline := ⟨rfl, rfl, rfl⟩
  have hbook : c.mlPipeline.bookOf e.instrumentId = c.live.pipeline.bookOf e.instrumentId := rfl
  have hskipped := c.live.pipeline.process_skipped e
  -- the sixth detector alone: it does what `process_one` does with it, and raises nothing
  have hml : (c.mlPipeline.process e).1.detectors = ((c.processOne e).ml.map (·.object)).toList ∧
      (c.mlPipeline.process e).2.alerts = [] := by
    have hafter : (c.live.processOne e).1.pipeline.bookOf e.instrumentId =
        ((c.live.pipeline.bookOf e.instrumentId).apply e).1 := by
      rw [LiveConsumer.processOne_eq]
      exact c.live.pipeline.process_bookOf_self e
    have hresult : (c.live.processOne e).2 = (c.live.pipeline.process e).2 := by
      unfold LiveConsumer.processOne
      simp only
      split <;> rfl
    cases ht : ((c.live.pipeline.bookOf e.instrumentId).apply e).2 with
    | some thrown =>
      obtain ⟨h1, h2, -⟩ := c.mlPipeline.process_of_thrown (hbook ▸ ht)
      refine ⟨?_, h2⟩
      rw [h1]
      simp only [processOne, mlPipeline, hresult, hskipped, ht, Option.isSome_some, if_true]
    | none =>
      obtain ⟨h1, h2⟩ := c.mlPipeline.process_of_applied (hbook ▸ ht)
      rw [h1, h2]
      simp only [processOne, mlPipeline, hresult, hskipped, ht, hafter]
      cases c.ml with
      | none => exact ⟨rfl, rfl⟩
      | some d =>
        refine ⟨rfl, ?_⟩
        cases e <;> rfl
  rw [LiveConsumer.processOne_eq, whole, live_processOne, LiveConsumer.processOne_eq]
  simp only [whole, LivePipeline.process_join hbooks, LivePipeline.joinResult, hml.2, List.append_nil]
  refine congrArg (fun pipeline => LiveConsumer.mk pipeline _ _ _) ?_
  unfold LivePipeline.join
  rw [hml.1]
  rfl

theorem whole_foldl (c : ReplayConsumer P) (events : List (Event P)) :
    (events.foldl processOne c).whole = events.foldl (fun c e => (c.processOne e).1) c.whole := by
  induction events generalizing c with
  | nil => rfl
  | cons e events ih => rw [List.foldl_cons, List.foldl_cons, ih, whole_processOne]

theorem whole_make (order : HashOrder) (simulation : Simulator.SimulationOutput P) (mlEval : Bool) :
    (make order simulation mlEval).whole =
      .make (.make (replayDetectors order simulation mlEval) (accountRegistry simulation)) := by
  cases mlEval <;> rfl

end ReplayConsumer

end Harness

/-! ## The result -/

section Result

variable {order : HashOrder} {simulation : Simulator.SimulationOutput P} {events : List (Event P)} {topic : List Str}
  {moved : Event P → Event P} {movedRequest : ScoringRequest P → ScoringRequest P} {s : KafkaReplay P} {scored : List (Scored P)}

/-- What a replay is determined to return by the session and by what the service answers to its requests: the counts and the alerts of
a pipeline that gets the events one after the other, interleaved with the worker's alerts on the answers. -/
structure Determined (order : HashOrder) (simulation : Simulator.SimulationOutput P) (mlEval : Bool) (events : List (Event P))
    (scored : List (Scored P)) (result : ReplayResult P) : Prop where
  total : result.eventsTotal = events.length ∧ result.eventsReplayedFromKafka = events.length
  processed : result.eventsProcessed = BitVec.ofNat 64 events.length ∧ result.ringBufferDropped = 0
  skipped : result.eventsSkippedInconsistent = BitVec.ofNat 64 (((LivePipeline.make (replayDetectors order simulation mlEval)
    (accountRegistry simulation)).trace events).countP (·.2.skippedInconsistent))
  /-- The worker scores the requests of the session, each once and in their order. -/
  requests : scored.map Prod.fst = (events.foldl ReplayConsumer.processOne (.make order simulation mlEval)).submitted
  alerts : Interleaving result.alerts
    ((LivePipeline.make (replayDetectors order simulation mlEval) (accountRegistry simulation)).alertsOf events)
    (MlScoringWorker.alertsFor 0.0 (scored.map Prod.snd) (scored.map Prod.fst))
  /-- A rule is measured as if it alone had got the events. -/
  matrices : ∀ d ∈ makeFiveDetectors order simulation, ∀ (threshold : P) (universeIds positiveIds : Finset Str),
    computeConfusionMatrix result.alerts d.name threshold universeIds positiveIds =
      computeConfusionMatrix ((LivePipeline.make [d] (accountRegistry simulation)).alertsOf events) d.name threshold universeIds
        positiveIds

/-- The state behind the joins, with the events that were polled and the requests that were scored. -/
structure Joined (order : HashOrder) (simulation : Simulator.SimulationOutput P) (mlEval : Bool) (topic : List Str)
    (s : KafkaReplay P) (scored : List (Scored P)) (events : List (Event P)) : Prop where
  received : (topic.take s.replayed).map decode = events.map Except.ok
  count : events.length = s.replayed ∧ s.replayed ≤ s.total
  dropped : s.consumer.ring.ring.dropped = 0 ∧ ∀ w, s.worker = some w → w.ring.ring.dropped = 0
  consumer : s.consumer.consumer = events.foldl ReplayConsumer.processOne (.make order simulation mlEval)
  requests : scored.map Prod.fst = s.consumer.consumer.submitted
  sink : Interleaving s.sink s.consumer.consumer.live.alerts
    (MlScoringWorker.alertsFor 0.0 (scored.map Prod.snd) (scored.map Prod.fst))

/-- Without a sixth detector nothing is submitted. -/
theorem Harness.ReplayConsumer.submitted_of_none {c : ReplayConsumer P} (h : c.ml = none) (events : List (Event P)) :
    (events.foldl processOne c).submitted = [] := by
  induction events generalizing c with
  | nil => rw [List.foldl_nil, submitted, h]; rfl
  | cons e events ih =>
    refine ih ?_
    unfold processOne
    simp [h]

/-- Behind the joins no buffer has dropped anything, and both consumers have got all there was. -/
theorem joined_of_run {mlEval : Bool} (hsize : events.length < 2 ^ 64)
    (hr : (replayMachine moved movedRequest order simulation mlEval events topic).Run s scored) (hpc : s.pc = .joined) :
    s.total = events.length ∧ ∃ received, Joined order simulation mlEval topic s scored received := by
  obtain ⟨capacity, hcapacity, hi⟩ := replay_invariant hr
  rcases hi with ⟨what, hterminated⟩ | ⟨log, wlog, hi⟩
  · rw [hpc] at hterminated
    cases hterminated
  have hfits : events.length ≤ capacity.toNat := by
    have hle := BitVec.le_def.1 (le_of_doubleUntil hcapacity)
    rwa [BitVec.toNat_ofNat, Nat.mod_eq_of_lt hsize] at hle
  have hreturned := hi.stopping (Or.inr hpc)
  have hcount := hi.count
  have hpolled := hi.polled.2
  have htotal := hi.total
  obtain ⟨hdropped, hprocessed⟩ := loop_lossless hi.consumer hreturned (by omega)
  obtain ⟨units, hunits, hconsumer⟩ := run_consumer hi.consumer
  rw [foldl_zip_right hunits, hprocessed] at hconsumer
  have hsubmitted : s.consumer.consumer.submitted.length ≤ capacity.toNat := by
    have hmake : (ReplayConsumer.make order simulation mlEval).submitted = [] := by cases mlEval <;> rfl
    have hle := ReplayConsumer.length_submitted_foldl (.make order simulation mlEval) (pushed (bufferLog log))
    rw [← hconsumer, hmake, List.length_nil] at hle
    omega
  obtain ⟨hhanded, hsubmits⟩ := hi.settled hreturned
  have hsink := hi.sink
  rw [hhanded, List.take_length] at hsink
  have hworker := hi.worker
  refine ⟨htotal, pushed (bufferLog log), ?_⟩
  cases hw : s.worker with
  | none =>
    have hnone : mlEval = false := by
      cases mlEval with
      | false => rfl
      | true =>
        rw [hw] at hworker
        cases hworker
    have hempty : s.consumer.consumer.submitted = [] := by
      rw [hconsumer, hnone]
      exact ReplayConsumer.submitted_of_none rfl _
    have hunscored := hi.unscored hw
    rw [KafkaReplay.workerAlerts, hw] at hsink
    exact {
      received := hi.received
      count := ⟨hcount, hpolled⟩
      dropped := ⟨hdropped, by simp [hw]⟩
      consumer := hconsumer
      requests := by rw [hunscored, hempty]; rfl
      sink := by
        rw [hunscored]
        simpa [MlScoringWorker.alertsFor] using hsink }
  | some w =>
    have hmlEval : mlEval = true := by
      cases mlEval with
      | true => rfl
      | false =>
        rw [hw] at hworker
        cases hworker
    have hscorer := hi.scorer
    rw [hw, hmlEval, if_pos rfl] at hworker hscorer
    obtain ⟨hrun⟩ := hworker
    obtain ⟨hfold⟩ := hscorer
    have hstopped := hi.joined hpc w hw
    have hrequests := hi.requests
    rw [hsubmits (by rw [hw]; rfl), List.take_length] at hrequests
    obtain ⟨hwdropped, hwprocessed⟩ := loop_lossless hrun hstopped (by rw [hrequests]; exact hsubmitted)
    have halerts : s.workerAlerts = MlScoringWorker.alertsFor 0.0 (scored.map Prod.snd) (scored.map Prod.fst) := by
      rw [KafkaReplay.workerAlerts, hw]
      exact (congrArg MlScoringWorker.alerts hfold).trans (MlScoringWorker.foldl_scored _ _)
    have hwhanded : s.workerHanded = s.workerAlerts.length := by
      rw [hi.workerSettled w hw hstopped, KafkaReplay.workerAlerts, hw]
      rfl
    rw [hwhanded, List.take_length, halerts] at hsink
    exact {
      received := hi.received
      count := ⟨hcount, hpolled⟩
      dropped := ⟨hdropped, fun w' hw' => Option.some.inj (hw'.symm.trans hw) ▸ hwdropped⟩
      consumer := hconsumer
      requests := hi.scored.trans (hwprocessed.trans hrequests)
      sink := hsink }

/-- The alerts of a rule, in a sink where the worker's alerts stand between them. -/
theorem filter_sink {mlEval : Bool} {d : IDetector P} (hd : d ∈ makeFiveDetectors order simulation) {sink : List (Alert P)}
    {answers : List (Option (ScoringResult P))} {requests : List (ScoringRequest P)}
    (h : Interleaving sink ((LivePipeline.make (replayDetectors order simulation mlEval) (accountRegistry simulation)).alertsOf events)
      (MlScoringWorker.alertsFor 0.0 answers requests)) :
    sink.filter (·.detectorName = d.name) = (LivePipeline.make [d] (accountRegistry simulation)).alertsOf events := by
  obtain ⟨before, after, hsplit, hname, hml⟩ := makeFiveDetectors_split hd
  rw [h.filter_eq fun alert halert => decide_eq_false fun heq => ?_]
  · have hdetectors : replayDetectors order simulation mlEval =
        before ++ d :: (after ++ if mlEval then [(MlAnomalyDetector.make {}).object] else []) := by
      rw [replayDetectors, hsplit, List.append_assoc, List.cons_append]
    rw [hdetectors]
    refine LivePipeline.filter_alertsOf_alone (fun x hx => ?_) (fun x hx => ?_) _ _
    · rw [← List.cons_append, ← List.append_assoc, ← hsplit, List.mem_append] at hx
      rcases hx with hx | hx
      · exact makeFiveDetectors_provided order simulation x hx
      · cases mlEval with
        | false => cases hx
        | true => exact List.mem_singleton.1 hx ▸ .mlAnomaly _
    · rw [← List.append_assoc, List.mem_append] at hx
      rcases hx with hx | hx
      · exact hname x hx
      · cases mlEval with
        | false => cases hx
        | true => exact List.mem_singleton.1 hx ▸ hml.symm
  · obtain ⟨⟨answer, request⟩, -, hsome⟩ := List.mem_filterMap.1 halert
    obtain ⟨result, -, hsome⟩ := Option.bind_eq_some_iff.1 hsome
    simp only [Option.ite_none_left_eq_some, Option.some.injEq] at hsome
    obtain ⟨-, rfl⟩ := hsome
    exact hml heq.symm

omit [LinearOrder P] in
/-- Where as many messages came back as there are events, they are the events. -/
theorem received_eq {received : List (Event P)} {kafka : KafkaProducer} {n : ℕ} (hlog : kafka.log = events.map encode)
    (hevents : ∀ e ∈ events, e.Encodable) (htopic : topic.Sublist kafka.log) (hn : events.length ≤ n)
    (hreceived : (topic.take n).map decode = received.map Except.ok) (hlength : received.length = events.length) :
    received = events := by
  have hlengths := congrArg List.length hreceived
  rw [List.length_map, List.length_map, List.length_take, hlength] at hlengths
  have hwhole : topic = events.map encode := by
    rw [← hlog]
    refine htopic.eq_of_length_le ?_
    rw [hlog, List.length_map]
    omega
  have hdecode : events.map (decode ∘ encode) = events.map Except.ok :=
    List.map_congr_left fun e he => (hevents e he).decoded
  rw [hwhole, List.take_of_length_le (by rw [List.length_map]; exact hn), List.map_map, hdecode] at hreceived
  exact (List.map_injective_iff.2 (fun _ _ h => Except.ok.inj h) hreceived).symm

section Returned

variable {brokers : Str} {publishTimeoutMs : ℤ} {baseUrl : Option Str} {errs : List ErrorCode} {flushed healthy : Bool}
  {kafka : KafkaProducer} {result : ReplayResult P}

/-- Behind the joins nothing has been dropped between the consumer and the worker. -/
theorem Joined.requestsDropped {mlEval : Bool} {received : List (Event P)}
    (hjoined : Joined order simulation mlEval topic s scored received) : (s.worker.map fun w => w.ring.ring.dropped).getD 0 = 0 := by
  cases hw : s.worker with
  | none => rfl
  | some w => exact hjoined.dropped.2 w hw

/-- Where all messages came back, the result is the one that is determined. -/
theorem determined_of_all
    (hpublish : publishSession simulation brokers publishTimeoutMs baseUrl errs flushed healthy = some (.ok (events, kafka)))
    (hevents : ∀ e ∈ events, e.Encodable) (hsize : events.length < 2 ^ 64) (htopic : topic.Sublist kafka.log)
    (hr : (replayMachine moved movedRequest order simulation baseUrl.isSome events topic).Run s scored) (hpc : s.pc = .joined)
    (hall : s.replayed = events.length) :
    ∃ result, s.finish = .ok result ∧ Determined order simulation baseUrl.isSome events scored result := by
  obtain ⟨htotal, received, hjoined⟩ := joined_of_run hsize hr hpc
  obtain ⟨-, hlog⟩ := publishSession_ok hpublish
  obtain ⟨hcount, -⟩ := hjoined.count
  have heq : received = events := received_eq hlog hevents htopic (by omega) hjoined.received (by omega)
  subst heq
  -- the consumer of the run is the sequential one, and that one's pipeline has all the detectors
  have hwhole := ReplayConsumer.whole_foldl (.make order simulation baseUrl.isSome) received
  rw [← hjoined.consumer, ReplayConsumer.whole_make] at hwhole
  obtain ⟨halerts, hprocessed, hskipped⟩ := LiveConsumer.foldl_processOne
    (.make (.make (replayDetectors order simulation baseUrl.isSome) (accountRegistry simulation))) received
  simp only [← hwhole] at halerts hprocessed hskipped
  have hlive : s.consumer.consumer.live.alerts =
      (LivePipeline.make (replayDetectors order simulation baseUrl.isSome) (accountRegistry simulation)).alertsOf received := halerts
  have hsink := hjoined.sink
  rw [hlive] at hsink
  refine ⟨_, by
    rw [KafkaReplay.finish, if_neg (not_not.2 hjoined.requestsDropped), if_neg (not_not.2 (hall.trans htotal.symm)),
      if_neg (not_not.2 hjoined.dropped.1)], ?_⟩
  exact {
    total := ⟨htotal, hall⟩
    processed := ⟨hprocessed.trans (BitVec.zero_add _), hjoined.dropped.1⟩
    skipped := hskipped.trans (BitVec.zero_add _)
    requests := hjoined.requests.trans (congrArg ReplayConsumer.submitted hjoined.consumer)
    alerts := hsink
    matrices := fun d hd threshold universeIds positiveIds => by
      rw [← computeConfusionMatrix_filter, filter_sink hd hsink] }

omit [LinearOrder P] in
/-- The alerts that are returned are those of the sink. -/
theorem alerts_of_finish (h : s.finish = .ok result) : result.alerts = s.sink := by
  unfold KafkaReplay.finish at h
  simp only at h
  split at h
  · cases h
  · split at h
    · cases h
    · split at h
      · cases h
      · cases h
        rfl

/-- Where messages are missing, the replay throws with the number of those that came back. -/
theorem finish_of_missing {mlEval : Bool} (hsize : events.length < 2 ^ 64)
    (hr : (replayMachine moved movedRequest order simulation mlEval events topic).Run s scored) (hpc : s.pc = .joined)
    (hmissing : s.replayed ≠ events.length) : s.replayed < events.length ∧
      s.finish = .error (.runtimeError (ascii "replay_through_kafka: only replayed " ++ Decimal.ofNat s.replayed ++ ascii "/" ++
        Decimal.ofNat events.length ++ ascii " events back from Kafka -- broker issue or topic collision?")) := by
  obtain ⟨htotal, received, hjoined⟩ := joined_of_run hsize hr hpc
  obtain ⟨-, hle⟩ := hjoined.count
  refine ⟨by omega, ?_⟩
  rw [KafkaReplay.finish, if_neg (not_not.2 hjoined.requestsDropped), if_pos (htotal ▸ hmissing), htotal]

/-- A replay that gets behind its joins either got too few messages back or returns what it is determined to: no buffer drops. -/
theorem replay_determined
    (hpublish : publishSession simulation brokers publishTimeoutMs baseUrl errs flushed healthy = some (.ok (events, kafka)))
    (hevents : ∀ e ∈ events, e.Encodable) (hsize : events.length < 2 ^ 64) (htopic : topic.Sublist kafka.log)
    (hr : (replayMachine moved movedRequest order simulation baseUrl.isSome events topic).Run s scored) (hpc : s.pc = .joined) :
    (s.replayed < events.length ∧ s.finish = .error (.runtimeError (ascii "replay_through_kafka: only replayed " ++
      Decimal.ofNat s.replayed ++ ascii "/" ++ Decimal.ofNat events.length ++
      ascii " events back from Kafka -- broker issue or topic collision?"))) ∨
    ∃ result, s.finish = .ok result ∧ Determined order simulation baseUrl.isSome events scored result := by
  by_cases hall : s.replayed = events.length
  · exact Or.inr (determined_of_all hpublish hevents hsize htopic hr hpc hall)
  · exact Or.inl (finish_of_missing hsize hr hpc hall)

/-- A session of one order. -/
def oneOrder : Simulator.SimulationOutput ℚ := ⟨[], [], [bought], []⟩

/-- Kafka is polled once in vain, then the event comes back, and the threads are joined. -/
theorem replay_determined_one : ∃ (s : KafkaReplay ℚ) (scored : List (Scored ℚ)) (result : ReplayResult ℚ), s.finish = .ok result ∧
    Determined ⟨id, fun _ => .refl _⟩ oneOrder true [.order (toFixOrder bought)] scored result := by
  let events : List (Event ℚ) := [.order (toFixOrder bought)]
  obtain ⟨s, scored, hr, hp⟩ := Machine.run_of_exec
    (M := replayMachine id id ⟨id, fun _ => .refl _⟩ oneOrder true events (events.map encode)) ⟨_, _, rfl, rfl, rfl⟩
    (.main .timedOut false :: List.replicate 6 (.main .message false) ++ List.replicate 6 (.consumer false) ++ .main .timedOut false ::
      List.replicate 7 (.consumer false) ++ .main .timedOut false :: List.replicate 7 (.worker false none) ++ [.main .timedOut false])
    (p := fun q => decide (q.1.pc = .joined ∧ q.1.replayed = 1)) (by decide +kernel)
  obtain ⟨hpc, hreplayed⟩ := of_decide_eq_true hp
  have hevents : ∀ e ∈ events, e.Encodable := by
    intro e he
    rw [List.mem_singleton.1 he]
    exact ⟨rfl, by decide +kernel, by decide +kernel, by decide +kernel⟩
  have hresult := replay_determined (show publishSession oneOrder [] 20000 (some []) [.queueFull, .noError] true true = _ from rfl)
    hevents (by decide) (List.Sublist.refl _) hr hpc
  rcases hresult with ⟨hlt, -⟩ | ⟨result, hok, hdetermined⟩
  · rw [hreplayed] at hlt
    exact absurd hlt (by decide)
  · exact ⟨s, scored, result, hok, hdetermined⟩

/-- A replay that returns, with what its worker scored: the session is published, its events come out of their messages as they went
in, Kafka gives each message back at most once and in order, and the threads are joined. -/
inductive Replayed (order : HashOrder) (simulation : Simulator.SimulationOutput P) (events : List (Event P)) (scored : List (Scored P))
    (result : ReplayResult P) : (mlEval : Bool) → Prop where
  | intro {brokers : Str} {publishTimeoutMs : ℤ} {baseUrl : Option Str} {errs : List ErrorCode} {flushed healthy : Bool}
      {kafka : KafkaProducer} {topic : List Str} {moved : Event P → Event P} {movedRequest : ScoringRequest P → ScoringRequest P}
      {s : KafkaReplay P}
      (hpublish : publishSession simulation brokers publishTimeoutMs baseUrl errs flushed healthy = some (.ok (events, kafka)))
      (hevents : ∀ e ∈ events, e.Encodable) (hsize : events.length < 2 ^ 64) (htopic : topic.Sublist kafka.log)
      (hrun : (replayMachine moved movedRequest order simulation baseUrl.isSome events topic).Run s scored) (hpc : s.pc = .joined)
      (hfinish : s.finish = .ok result) : Replayed order simulation events scored result baseUrl.isSome

namespace Replayed

variable {mlEval : Bool}

/-- What a replay returns is determined. -/
theorem determined (h : Replayed order simulation events scored result mlEval) :
    Determined order simulation mlEval events scored result := by
  cases h with
  | @intro _ _ _ _ _ _ _ _ _ _ s hpublish hevents hsize htopic hrun hpc hfinish =>
    by_cases hall : s.replayed = events.length
    · obtain ⟨result', hok, hdetermined⟩ := determined_of_all hpublish hevents hsize htopic hrun hpc hall
      rw [hfinish] at hok
      cases hok
      exact hdetermined
    · have hmissing := (finish_of_missing hsize hrun hpc hall).2
      rw [hfinish] at hmissing
      cases hmissing

/-- A run that gets all messages back returns. -/
theorem of_run
    (hpublish : publishSession simulation brokers publishTimeoutMs baseUrl errs flushed healthy = some (.ok (events, kafka)))
    (hevents : ∀ e ∈ events, e.Encodable) (hsize : events.length < 2 ^ 64) (htopic : topic.Sublist kafka.log)
    (hr : (replayMachine moved movedRequest order simulation baseUrl.isSome events topic).Run s scored) (hpc : s.pc = .joined)
    (hall : s.replayed = events.length) :
    ∃ result, result.alerts = s.sink ∧ Replayed order simulation events scored result baseUrl.isSome := by
  obtain ⟨result, hok, -⟩ := determined_of_all hpublish hevents hsize htopic hr hpc hall
  exact ⟨result, alerts_of_finish hok, .intro hpublish hevents hsize htopic hr hpc hok⟩

end Replayed

end Returned

end Result

end TradeSurveillance
