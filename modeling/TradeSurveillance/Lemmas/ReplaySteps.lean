import TradeSurveillance.Harness.KafkaReplay
import TradeSurveillance.Lib.Interleaving
import TradeSurveillance.Theorems.LiveReplay
import TradeSurveillance.Lemmas.LoopRun

/-!
# The steps of a replay

`Took` lists what a step of a replay does, and `ReplayInv` is the invariant: either consumer makes a run of its own loop, the first
on a front of the topic, the second on the front of what the first has submitted, and what waits to be submitted or handed over is
dealt with before the consumer's thread goes on.
-/

namespace TradeSurveillance.Harness

variable {P : Type} [Double P] [LinearOrder P] {moved : Event P → Event P} {movedRequest : ScoringRequest P → ScoringRequest P}

/-! ## What a step does -/

/-- What a step of the replay does, and what is scored in it. -/
inductive KafkaReplay.Took (moved : Event P → Event P) (movedRequest : ScoringRequest P → ScoringRequest P) (s : KafkaReplay P) :
    KafkaReplay P → List (Scored P) → Prop where
  | failed (kafka : KafkaReplayConsumer) (what : Exception) (hpc : s.pc = .polling) :
      Took moved movedRequest s { s with
        kafka := kafka
        pc := .terminated what } []
  | empty : Took moved movedRequest s { s with consecutiveEmpty := s.consecutiveEmpty + 1 } []
  | received {payload : Str} {event : Event P} {s' : KafkaReplay P} (hpc : s.pc = .polling) (hlt : s.replayed < s.total)
      (hpayload : s.kafka.partition[s.kafka.next]? = some payload) (hdecode : decode payload = .ok event)
      (hs : KafkaReplay.stepConsumer moved { s with
        kafka := { s.kafka with next := s.kafka.next + 1 }
        replayed := s.replayed + 1
        consecutiveEmpty := 0 } (.push event) = some s') : Took moved movedRequest s s' []
  | pushing {spurious : Bool} {s' : KafkaReplay P} (hs : s.stepConsumer moved (.producer spurious) = some s') :
      Took moved movedRequest s s' []
  | done {s' : KafkaReplay P} (hpc : s.pc = .polling)
      (hs : KafkaReplay.stepConsumer moved { s with pc := .joining } .setFlag = some s') : Took moved movedRequest s s' []
  | joined (hconsumer : s.pc = .stopping ∨ s.consumer.pc = .returned) (hworker : ∀ w, s.worker = some w → w.pc = .returned) :
      Took moved movedRequest s { s with pc := .joined } []
  | stopping {s' : KafkaReplay P} (hconsumer : s.consumer.pc = .returned)
      (hs : KafkaReplay.stepWorker movedRequest { s with pc := .stopping } .setFlag = some s') : Took moved movedRequest s s' []
  | handed {alert : Alert P} (halert : s.consumer.consumer.live.alerts[s.handed]? = some alert) :
      Took moved movedRequest s { s with
        handed := s.handed + 1
        sink := s.sink ++ [alert] } []
  | consumed {spurious : Bool} {s' : KafkaReplay P} (halerts : s.consumer.consumer.live.alerts[s.handed]? = none)
      (hrequests : ∀ w, s.worker = some w → s.consumer.consumer.submitted[s.submits]? = none)
      (hs : s.stepConsumer moved (.consumer spurious ()) = some s') : Took moved movedRequest s s' []
  | submitted {request : ScoringRequest P} {s' : KafkaReplay P}
      (hrequest : s.consumer.consumer.submitted[s.submits]? = some request)
      (hs : KafkaReplay.stepWorker movedRequest { s with submits := s.submits + 1 } (.push request) = some s') :
      Took moved movedRequest s s' []
  | submitting {spurious : Bool} {s' : KafkaReplay P} (hs : s.stepWorker movedRequest (.producer spurious) = some s') :
      Took moved movedRequest s s' []
  | workerHanded {w : ConsumerLoop (ScoringRequest P) (MlScoringWorker P)} {alert : Alert P} (hw : s.worker = some w)
      (halert : w.consumer.alerts[s.workerHanded]? = some alert) :
      Took moved movedRequest s { s with
        workerHanded := s.workerHanded + 1
        sink := s.sink ++ [alert] } []
  | worked {w w' : ConsumerLoop (ScoringRequest P) (MlScoringWorker P)} {spurious : Bool} {answer : Option (ScoringResult P)}
      {out : List (LoopEvent (ScoringRequest P))} (hw : s.worker = some w) (halerts : w.consumer.alerts[s.workerHanded]? = none)
      (hs : w.step movedRequest MlScoringWorker.processOne (.consumer spurious answer) = some (w', out)) :
      Took moved movedRequest s { s with worker := some w' } ((processed out).map (·, answer))

namespace KafkaReplay

variable {s s' : KafkaReplay P} {out : List (Scored P)}

/-- A step of the main thread is one of those `Took` lists. -/
theorem mainStep_took {answer : ConsumeAnswer} {spurious : Bool} (hs : s.mainStep moved movedRequest answer spurious = some s') :
    Took moved movedRequest s s' [] := by
  unfold mainStep at hs
  split at hs
  case h_1 hpc =>
    split at hs
    case h_1 =>
      split at hs
      case isTrue hloop =>
        obtain ⟨⟨kafka, r⟩, hpoll, hs⟩ := Option.bind_eq_some_iff.1 hs
        cases answer with
        | message =>
          obtain ⟨payload, hpayload, hpoll⟩ := Option.map_eq_some_iff.1 hpoll
          cases hdecode : (decode payload : Except Exception (Event P)) with
          | error what =>
            rw [hdecode] at hpoll
            cases hpoll
            cases hs
            exact .failed _ what hpc
          | ok event =>
            rw [hdecode] at hpoll
            cases hpoll
            exact .received hpc hloop.1 hpayload hdecode hs
        | timedOut =>
          cases hpoll
          cases hs
          exact .empty
        | partitionEof =>
          cases hpoll
          cases hs
          exact .empty
        | error text =>
          cases hpoll
          cases hs
          exact .failed _ _ hpc
      case isFalse => exact .done hpc hs
    case h_2 => exact .pushing hs
  case h_2 hpc =>
    split at hs
    case h_1 hreturned =>
      split at hs
      case h_1 hw =>
        cases hs
        exact .joined (Or.inr hreturned) (by simp [hw])
      case h_2 hw => exact .stopping hreturned hs
    case h_2 => cases hs
  case h_3 hpc =>
    split at hs
    case h_1 => cases hs
    case h_2 w hw =>
      simp only [Option.ite_none_right_eq_some, Option.some.injEq] at hs
      obtain ⟨hreturned, rfl⟩ := hs
      exact .joined (Or.inl hpc) fun w' hw' => by rw [Option.some.inj (hw'.symm.trans hw), hreturned]
  case h_4 => cases hs
  case h_5 => cases hs

/-- So is a step of the consumer's thread that has no request to submit: it hands over an alert, or its loop goes on. -/
theorem handOrRun_took {spurious : Bool} (hrequests : ∀ w, s.worker = some w → s.consumer.consumer.submitted[s.submits]? = none)
    (hs : s.handOrRun moved spurious = some s') : Took moved movedRequest s s' [] := by
  unfold handOrRun at hs
  cases halert : s.consumer.consumer.live.alerts[s.handed]? with
  | none =>
    rw [halert] at hs
    exact .consumed halert hrequests hs
  | some alert =>
    rw [halert] at hs
    cases hs
    exact .handed halert

/-- So is a step of the consumer's thread. -/
theorem consumerStep_took {spurious : Bool} (hs : s.consumerStep moved movedRequest spurious = some s') :
    Took moved movedRequest s s' [] := by
  unfold consumerStep at hs
  split at hs
  case h_1 hw => exact handOrRun_took (by simp [hw]) hs
  case h_2 w hw =>
    split at hs
    case h_1 =>
      cases hrequest : s.consumer.consumer.submitted[s.submits]? with
      | none =>
        rw [hrequest] at hs
        exact handOrRun_took (fun _ _ => hrequest) hs
      | some request =>
        rw [hrequest] at hs
        exact .submitted hrequest hs
    case h_2 => exact .submitting hs

/-- So is a step of the worker's. -/
theorem workerStep_took {spurious : Bool} {answer : Option (ScoringResult P)}
    (hs : s.workerStep movedRequest spurious answer = some (s', out)) : Took moved movedRequest s s' out := by
  unfold workerStep at hs
  split at hs
  case h_1 => cases hs
  case h_2 w hw =>
    cases halert : w.consumer.alerts[s.workerHanded]? with
    | none =>
      rw [halert] at hs
      obtain ⟨⟨w', wout⟩, hstep, heq⟩ := Option.map_eq_some_iff.1 hs
      cases heq
      exact .worked hw halert hstep
    | some alert =>
      rw [halert] at hs
      cases hs
      exact .workerHanded hw halert

/-- So is every step of the replay. -/
theorem step_took {a : ReplayAction P} (hs : s.step moved movedRequest a = some (s', out)) : Took moved movedRequest s s' out := by
  unfold step at hs
  split at hs
  · cases hs
  · cases a with
    | main answer spurious =>
      obtain ⟨s₁, hstep, heq⟩ := Option.map_eq_some_iff.1 hs
      cases heq
      exact mainStep_took hstep
    | consumer spurious =>
      obtain ⟨s₁, hstep, heq⟩ := Option.map_eq_some_iff.1 hs
      cases heq
      exact consumerStep_took hstep
    | worker spurious answer => exact workerStep_took hs

/-- A step of the loop around the consumer's buffer. -/
theorem stepConsumer_eq {a : LoopAction (Event P) Unit} (hs : s.stepConsumer moved a = some s') :
    ∃ c out, s.consumer.step moved (fun c _ event => c.processOne event) a = some (c, out) ∧ s' = { s with consumer := c } := by
  obtain ⟨⟨c, out⟩, hc, rfl⟩ := Option.map_eq_some_iff.1 hs
  exact ⟨c, out, hc, rfl⟩

/-- A step of the loop around the worker's buffer. -/
theorem stepWorker_eq {a : LoopAction (ScoringRequest P) (Option (ScoringResult P))} (hs : s.stepWorker movedRequest a = some s') :
    ∃ w w' out, s.worker = some w ∧ w.step movedRequest MlScoringWorker.processOne a = some (w', out) ∧
      s' = { s with worker := some w' } := by
  obtain ⟨w, hw, hs⟩ := Option.bind_eq_some_iff.1 hs
  obtain ⟨⟨w', out⟩, hw', rfl⟩ := Option.map_eq_some_iff.1 hs
  exact ⟨w, w', out, hw, hw', rfl⟩

end KafkaReplay

/-! ## What the consumers append -/

omit [LinearOrder P] in
/-- An event leads to at most one request. -/
theorem submitted_evaluate (d : MlAnomalyDetector P) (book : OrderBook P) (e : Event P) :
    ∃ requests : List (ScoringRequest P), requests.length ≤ 1 ∧ (d.evaluate book e).1.submitted = d.submitted ++ requests := by
  cases e with
  | execution t => exact ⟨[], by simp, (List.append_nil _).symm⟩
  | order o =>
    change ∃ requests : List (ScoringRequest P), requests.length ≤ 1 ∧
      (d.handleOrder o book.snapshotSequence).submitted = d.submitted ++ requests
    unfold MlAnomalyDetector.handleOrder
    simp only
    split
    · exact ⟨[], by simp, (List.append_nil _).symm⟩
    · split
      · exact ⟨[], by simp, (List.append_nil _).symm⟩
      · exact ⟨[_], by simp, rfl⟩

namespace ReplayConsumer

/-- What `process_one` does with the consumer it is part of. -/
theorem live_processOne (c : ReplayConsumer P) (e : Event P) : (c.processOne e).live = (c.live.processOne e).1 := rfl

/-- An event submits at most one request, behind those before it. -/
theorem submitted_processOne (c : ReplayConsumer P) (e : Event P) :
    ∃ requests : List (ScoringRequest P), requests.length ≤ 1 ∧ (c.processOne e).submitted = c.submitted ++ requests := by
  obtain ⟨live, ml⟩ := c
  unfold processOne submitted
  cases ml with
  | none => exact ⟨[], by simp, by simp⟩
  | some d =>
    simp only
    split
    · exact ⟨[], by simp, by simp⟩
    · simpa using submitted_evaluate d _ e

/-- An event leaves the alerts raised before it where they are. -/
theorem alerts_prefix_processOne (c : ReplayConsumer P) (e : Event P) : c.live.alerts <+: (c.processOne e).live.alerts := by
  rw [live_processOne]
  unfold LiveConsumer.processOne
  simp only
  split
  · exact List.prefix_refl _
  · exact List.prefix_append _ _

/-- So does it with the requests submitted before it. -/
theorem submitted_prefix_processOne (c : ReplayConsumer P) (e : Event P) : c.submitted <+: (c.processOne e).submitted := by
  obtain ⟨requests, -, heq⟩ := c.submitted_processOne e
  exact ⟨requests, heq.symm⟩

/-- No more requests are submitted than there are events. -/
theorem length_submitted_foldl (c : ReplayConsumer P) (events : List (Event P)) :
    (events.foldl processOne c).submitted.length ≤ c.submitted.length + events.length := by
  induction events generalizing c with
  | nil => simp
  | cons e events ih =>
    obtain ⟨requests, hle, heq⟩ := c.submitted_processOne e
    have hrest := ih (c.processOne e)
    rw [heq, List.length_append] at hrest
    rw [List.foldl_cons, List.length_cons]
    omega

end ReplayConsumer

/-- A request leaves the alerts of earlier ones where they are. -/
theorem alerts_prefix_worker (w : MlScoringWorker P) (answer : Option (ScoringResult P)) (request : ScoringRequest P) :
    w.alerts <+: (w.processOne answer request).alerts := by
  unfold MlScoringWorker.processOne
  cases answer with
  | none => exact List.prefix_refl _
  | some result =>
    simp only
    split
    · exact List.prefix_refl _
    · exact List.prefix_append _ _

/-! ## The invariant -/

/-- The alerts of the worker, where there is one. -/
def KafkaReplay.workerAlerts (s : KafkaReplay P) : List (Alert P) := (s.worker.map (·.consumer.alerts)).getD []

/-- What holds of every state of a replay, with the logs of the two loops. -/
structure ReplayInv (moved : Event P → Event P) (movedRequest : ScoringRequest P → ScoringRequest P) (capacity : Word)
    (c₀ : ReplayConsumer P) (w₀ : Option (MlScoringWorker P)) (topic : List Str) (total : ℕ) (s : KafkaReplay P)
    (rlog : List (Scored P)) (log : List (LoopEvent (Event P))) (wlog : List (LoopEvent (ScoringRequest P))) : Prop where
  total : s.total = total
  partition : s.kafka.partition = topic
  polled : s.kafka.next = s.replayed ∧ s.replayed ≤ s.total
  consumer : (c₀.run moved capacity).Run s.consumer log
  /-- What was pushed is the front of the topic. -/
  received : (topic.take s.replayed).map decode = (pushed (bufferLog log)).map Except.ok
  count : (pushed (bufferLog log)).length = s.replayed
  worker : Option.Rel (fun w w₀ => (MlScoringWorker.run movedRequest w₀).Run w wlog) s.worker w₀
  scored : rlog.map Prod.fst = processed wlog
  /-- The worker is what the requests and their answers made of it. -/
  scorer : Option.Rel (fun w w₀ => w.consumer = rlog.foldl (fun w x => w.processOne x.2 x.1) w₀) s.worker w₀
  unscored : s.worker = none → rlog = []
  requests : pushed (bufferLog wlog) = s.consumer.consumer.submitted.take s.submits
  sink : Interleaving s.sink (s.consumer.consumer.live.alerts.take s.handed) (s.workerAlerts.take s.workerHanded)
  submits : s.submits ≤ s.consumer.consumer.submitted.length
  handed : s.handed ≤ s.consumer.consumer.live.alerts.length
  workerHanded : s.workerHanded ≤ s.workerAlerts.length
  /-- Nothing waits when the consumer leaves its loop. -/
  settled : s.consumer.pc = .returned →
    s.handed = s.consumer.consumer.live.alerts.length ∧ (s.worker.isSome → s.submits = s.consumer.consumer.submitted.length)
  workerSettled : ∀ w, s.worker = some w → w.pc = .returned → s.workerHanded = w.consumer.alerts.length
  stopping : s.pc = .stopping ∨ s.pc = .joined → s.consumer.pc = .returned
  joined : s.pc = .joined → ∀ w, s.worker = some w → w.pc = .returned

omit [Double P] [LinearOrder P] in
/-- What stands at the front of a list stays there when the list is extended. -/
theorem take_eq_of_le_length {α : Type} {xs ys : List α} {n : ℕ} (h : xs <+: ys) (hn : n ≤ xs.length) : ys.take n = xs.take n := by
  obtain ⟨zs, rfl⟩ := h
  exact List.take_append_of_le_length hn

namespace ReplayInv

variable {capacity : Word} {c₀ : ReplayConsumer P} {w₀ : Option (MlScoringWorker P)} {topic : List Str} {total : ℕ}
  {s s' : KafkaReplay P} {rlog out : List (Scored P)} {log : List (LoopEvent (Event P))} {wlog : List (LoopEvent (ScoringRequest P))}

/-- A step of the consumer's loop that does not push. Its thread goes on only where nothing waits. -/
theorem stepConsumer {a : LoopAction (Event P) Unit} (hi : ReplayInv moved movedRequest capacity c₀ w₀ topic total s rlog log wlog)
    (ha : ∀ item, a ≠ .push item) (hs : s.stepConsumer moved a = some s')
    (hwaits : (∃ spurious answer, a = .consumer spurious answer) → s.consumer.consumer.live.alerts.length ≤ s.handed ∧
      (s.worker.isSome → s.consumer.consumer.submitted.length ≤ s.submits)) :
    ∃ log', ReplayInv moved movedRequest capacity c₀ w₀ topic total s' rlog log' wlog := by
  obtain ⟨c, out, hc, rfl⟩ := KafkaReplay.stepConsumer_eq hs
  have hpushed : pushed (bufferLog (log ++ out)) = pushed (bufferLog log) := by
    rw [bufferLog_append, pushed_append, ConsumerLoop.step_pushed hc]
    cases a with
    | push item => exact absurd rfl (ha item)
    | _ => simp [LoopAction.items]
  have halerts := ConsumerLoop.step_consumer (R := fun c c' => c.live.alerts <+: c'.live.alerts) (fun _ => List.prefix_rfl)
    (fun c _ event => c.alerts_prefix_processOne event) hc
  have hsubmitted := ConsumerLoop.step_consumer (R := fun c c' => c.submitted <+: c'.submitted) (fun _ => List.prefix_rfl)
    (fun c _ event => c.submitted_prefix_processOne event) hc
  obtain ⟨hstays, hleaves⟩ := ConsumerLoop.step_returned hc
  refine ⟨log ++ out, { hi with
    consumer := Machine.Reach.step hi.consumer trivial hc
    received := by rw [hpushed]; exact hi.received
    count := by rw [hpushed]; exact hi.count
    requests := by rw [take_eq_of_le_length hsubmitted hi.submits]; exact hi.requests
    sink := by rw [take_eq_of_le_length halerts hi.handed]; exact hi.sink
    submits := hi.submits.trans hsubmitted.length_le
    handed := hi.handed.trans halerts.length_le
    settled := fun h => ?_
    stopping := fun h => hstays (hi.stopping h) }⟩
  obtain ⟨heq, hreturned | hconsumer⟩ := hleaves h
  · rw [heq]
    exact hi.settled hreturned
  · obtain ⟨hnone, hrequests⟩ := hwaits hconsumer
    rw [heq]
    exact ⟨Nat.le_antisymm hi.handed hnone, fun hw => Nat.le_antisymm hi.submits (hrequests hw)⟩

/-- A poll that gives an event is followed by the call of `push`. -/
theorem receive {payload : Str} {event : Event P} (hi : ReplayInv moved movedRequest capacity c₀ w₀ topic total s rlog log wlog)
    (hlt : s.replayed < s.total) (hpayload : s.kafka.partition[s.kafka.next]? = some payload) (hdecode : decode payload = .ok event)
    (hs : KafkaReplay.stepConsumer moved { s with
      kafka := { s.kafka with next := s.kafka.next + 1 }
      replayed := s.replayed + 1
      consecutiveEmpty := 0 } (.push event) = some s') :
    ∃ log', ReplayInv moved movedRequest capacity c₀ w₀ topic total s' rlog log' wlog := by
  obtain ⟨c, out, hc, rfl⟩ := KafkaReplay.stepConsumer_eq hs
  have hpush : (c₀.run moved capacity).step s.consumer (.push event) = some (c, out) := hc
  have hpushed : pushed (bufferLog (log ++ out)) = pushed (bufferLog log) ++ [event] := by
    rw [bufferLog_append, pushed_append, ConsumerLoop.step_pushed hc, LoopAction.items]
  have hrun := Machine.Reach.step hi.consumer trivial hpush
  have hhandled := ConsumerLoop.step_handled hc
  generalize processed out = items at hhandled
  rw [hi.partition, hi.polled.1] at hpayload
  refine ⟨log ++ out, ?_⟩
  cases hhandled with
  | others _ heq hpc =>
    exact { hi with
      consumer := hrun
      polled := ⟨congrArg (· + 1) hi.polled.1, hlt⟩
      received := by
        rw [hpushed, List.take_add_one, hpayload, List.map_append, List.map_append, hi.received]
        simp [hdecode]
      count := by rw [hpushed, List.length_append, hi.count]; rfl
      requests := by rw [heq]; exact hi.requests
      sink := by rw [heq]; exact hi.sink
      submits := by rw [heq]; exact hi.submits
      handed := by rw [heq]; exact hi.handed
      settled := by rw [heq, hpc]; exact hi.settled
      stopping := by rw [hpc]; exact hi.stopping }

/-- A step of the worker's loop, behind a call of `submit` where it pushes, or with the store of the flag. -/
theorem stepWorker {a : LoopAction (ScoringRequest P) (Option (ScoringResult P))}
    {w w' : ConsumerLoop (ScoringRequest P) (MlScoringWorker P)} {out : List (LoopEvent (ScoringRequest P))} (n : ℕ) (pc : ReplayPc)
    (hi : ReplayInv moved movedRequest capacity c₀ w₀ topic total s rlog log wlog) (hw : s.worker = some w)
    (hc : w.step movedRequest MlScoringWorker.processOne a = some (w', out))
    (hle : s.submits ≤ n) (hn : n ≤ s.consumer.consumer.submitted.length)
    (hrequests : s.consumer.consumer.submitted.take n = s.consumer.consumer.submitted.take s.submits ++ a.items)
    (hpc : pc = s.pc ∨ pc = .stopping ∧ s.consumer.pc = .returned)
    (hwaits : (∃ spurious answer, a = .consumer spurious answer) → w.consumer.alerts.length ≤ s.workerHanded) :
    ReplayInv moved movedRequest capacity c₀ w₀ topic total { s with
      submits := n
      pc := pc
      worker := some w' } (rlog ++ a.answered out) log (wlog ++ out) := by
  have hworker := hi.worker
  have hscorer := hi.scorer
  rw [hw] at hworker hscorer
  obtain ⟨hrun₀⟩ := hworker
  obtain ⟨hfold₀⟩ := hscorer
  rename_i w₀
  obtain ⟨hanswered, hfold⟩ := ConsumerLoop.step_answered hc
  have hscored : (rlog ++ a.answered out).map Prod.fst = processed (wlog ++ out) := by
    rw [List.map_append, hanswered, hi.scored, processed_append]
  have hscorer : Option.Rel (fun w w₀ => w.consumer = (rlog ++ a.answered out).foldl (fun w x => w.processOne x.2 x.1) w₀)
      (some w') (some w₀) := by
    refine .some ?_
    rw [List.foldl_append, ← hfold₀, hfold]
  have halerts : s.workerAlerts = w.consumer.alerts := by rw [KafkaReplay.workerAlerts, hw]; rfl
  have hpushed : pushed (bufferLog (wlog ++ out)) = s.consumer.consumer.submitted.take n := by
    rw [bufferLog_append, pushed_append, ConsumerLoop.step_pushed hc, hi.requests, hrequests]
  have hrun : Option.Rel (fun w w₀ => (MlScoringWorker.run movedRequest w₀).Run w (wlog ++ out)) (some w') (some w₀) :=
    .some (Machine.Reach.step hrun₀ trivial hc)
  have hsettled : s.consumer.pc = .returned →
      s.handed = s.consumer.consumer.live.alerts.length ∧ (Option.isSome (some w') → n = s.consumer.consumer.submitted.length) := by
    intro h
    obtain ⟨h1, h2⟩ := hi.settled h
    refine ⟨h1, fun _ => ?_⟩
    have := h2 (by rw [hw]; rfl)
    omega
  have hstopping : pc = .stopping ∨ pc = .joined → s.consumer.pc = .returned := by
    intro h
    rcases hpc with rfl | ⟨-, hreturned⟩
    · exact hi.stopping h
    · exact hreturned
  have hjoined : pc = .joined → w.pc = .returned := by
    intro h
    rcases hpc with hpc | ⟨hpc, -⟩
    · exact hi.joined (hpc ▸ h) w hw
    · rw [h] at hpc
      cases hpc
  have hraised := ConsumerLoop.step_consumer (R := fun w w' => w.alerts <+: w'.alerts) (fun _ => List.prefix_rfl) alerts_prefix_worker hc
  obtain ⟨hstays, hleaves⟩ := ConsumerLoop.step_returned hc
  have hsink := hi.sink
  have hhanded := hi.workerHanded
  rw [halerts] at hsink hhanded
  exact { hi with
    worker := hrun
    scored := hscored
    scorer := hscorer
    unscored := nofun
    requests := hpushed
    sink := by
      rw [← take_eq_of_le_length hraised hhanded] at hsink
      exact hsink
    submits := hn
    workerHanded := hhanded.trans hraised.length_le
    settled := hsettled
    workerSettled := by
      rintro _ ⟨⟩ h
      obtain ⟨heq, hreturned | hconsumer⟩ := hleaves h
      · rw [heq]
        exact hi.workerSettled w hw hreturned
      · rw [heq]
        exact Nat.le_antisymm hhanded (hwaits hconsumer)
    stopping := hstopping
    joined := by
      rintro h _ ⟨⟩
      exact hstays (hjoined h) }

/-- A step keeps the invariant, or ends the program. -/
theorem step {a : ReplayAction P} (hi : ReplayInv moved movedRequest capacity c₀ w₀ topic total s rlog log wlog)
    (hs : s.step moved movedRequest a = some (s', out)) :
    (∃ what, s'.pc = .terminated what) ∨
      ∃ log' wlog', ReplayInv moved movedRequest capacity c₀ w₀ topic total s' (rlog ++ out) log' wlog' := by
  have htook := KafkaReplay.step_took hs
  clear hs
  cases htook with
  | failed _ what => exact Or.inl ⟨what, rfl⟩
  | empty =>
    rw [List.append_nil]
    exact Or.inr ⟨log, wlog, { hi with }⟩
  | received hpc hlt hpayload hdecode hs =>
    rw [List.append_nil]
    obtain ⟨log', hi⟩ := hi.receive hlt hpayload hdecode hs
    exact Or.inr ⟨log', wlog, hi⟩
  | pushing hs =>
    rw [List.append_nil]
    obtain ⟨log', hi⟩ := hi.stepConsumer (by simp) hs (by simp)
    exact Or.inr ⟨log', wlog, hi⟩
  | done hpc hs =>
    rw [List.append_nil]
    have hjoining : ReplayInv moved movedRequest capacity c₀ w₀ topic total { s with pc := .joining } rlog log wlog :=
      { hi with
        stopping := by simp
        joined := by simp }
    obtain ⟨log', hi⟩ := hjoining.stepConsumer (by simp) hs (by simp)
    exact Or.inr ⟨log', wlog, hi⟩
  | joined hconsumer hworker =>
    rw [List.append_nil]
    refine Or.inr ⟨log, wlog, { hi with
      stopping := fun _ => ?_
      joined := fun _ => hworker }⟩
    rcases hconsumer with hpc | hpc
    · exact hi.stopping (Or.inl hpc)
    · exact hpc
  | stopping hconsumer hs =>
    obtain ⟨w, w', out, hw, hc, rfl⟩ := KafkaReplay.stepWorker_eq hs
    exact Or.inr ⟨log, _, stepWorker s.submits _ hi hw hc (le_refl _) hi.submits (List.append_nil _).symm (Or.inr ⟨rfl, hconsumer⟩)
      (by simp)⟩
  | @handed alert halert =>
    rw [List.append_nil]
    obtain ⟨hlt, rfl⟩ := List.getElem?_eq_some_iff.1 halert
    refine Or.inr ⟨log, wlog, { hi with
      sink := ?_
      handed := hlt
      settled := fun h => absurd (hi.settled h).1 (by omega) }⟩
    rw [List.take_add_one, halert]
    exact hi.sink.left _
  | consumed halerts hrequests hs =>
    rw [List.append_nil]
    obtain ⟨log', hi⟩ := hi.stepConsumer (by simp) hs fun _ => ⟨List.getElem?_eq_none_iff.1 halerts, fun hw => by
      obtain ⟨w, hw⟩ := Option.isSome_iff_exists.1 hw
      exact List.getElem?_eq_none_iff.1 (hrequests w hw)⟩
    exact Or.inr ⟨log', wlog, hi⟩
  | @submitted request _ hrequest hs =>
    obtain ⟨hlt, rfl⟩ := List.getElem?_eq_some_iff.1 hrequest
    obtain ⟨w, w', out, hw, hc, rfl⟩ := KafkaReplay.stepWorker_eq hs
    exact Or.inr ⟨log, _, stepWorker (s.submits + 1) s.pc hi hw hc (Nat.le_succ _) hlt
      (by rw [List.take_add_one, hrequest]; rfl) (Or.inl rfl) (by simp)⟩
  | submitting hs =>
    obtain ⟨w, w', out, hw, hc, rfl⟩ := KafkaReplay.stepWorker_eq hs
    exact Or.inr ⟨log, _, stepWorker s.submits s.pc hi hw hc (le_refl _) hi.submits (List.append_nil _).symm (Or.inl rfl) (by simp)⟩
  | @workerHanded w alert hw halert =>
    rw [List.append_nil]
    have halerts : s.workerAlerts = w.consumer.alerts := by rw [KafkaReplay.workerAlerts, hw]; rfl
    obtain ⟨hlt, rfl⟩ := List.getElem?_eq_some_iff.1 halert
    refine Or.inr ⟨log, wlog, { hi with
      sink := ?_
      workerHanded := ?_
      workerSettled := ?_ }⟩
    · change Interleaving _ _ (s.workerAlerts.take (s.workerHanded + 1))
      rw [List.take_add_one, halerts, halert]
      exact (halerts ▸ hi.sink).right _
    · change s.workerHanded + 1 ≤ s.workerAlerts.length
      rw [halerts]
      exact hlt
    · intro w' hw' hpc
      have heq : w' = w := Option.some.inj (hw'.symm.trans hw)
      have := hi.workerSettled w hw (heq ▸ hpc)
      omega
  | worked hw halerts hs =>
    exact Or.inr ⟨log, _, stepWorker s.submits s.pc hi hw hs (le_refl _) hi.submits (List.append_nil _).symm (Or.inl rfl) fun _ =>
      List.getElem?_eq_none_iff.1 halerts⟩

end ReplayInv

/-- The state of every run but those an exception has ended. -/
theorem replay_invariant {order : HashOrder} {simulation : Simulator.SimulationOutput P} {mlEval : Bool} {events : List (Event P)}
    {topic : List Str} {s : KafkaReplay P} {rlog : List (Scored P)}
    (hr : (replayMachine moved movedRequest order simulation mlEval events topic).Run s rlog) :
    ∃ capacity, ringBufferCapacityFor (BitVec.ofNat 64 events.length) = some capacity ∧ ((∃ what, s.pc = .terminated what) ∨
      ∃ log wlog, ReplayInv moved movedRequest capacity (.make order simulation mlEval)
        (if mlEval then some (.make (workerConfig capacity)) else none) topic events.length s rlog log wlog) := by
  induction hr with
  | init hs =>
    obtain ⟨capacity, ring, hcapacity, hring, rfl⟩ := hs
    refine ⟨capacity, hcapacity, Or.inr ⟨[], [], ?_⟩⟩
    have hsubmitted : (ReplayConsumer.make order simulation mlEval).submitted = [] := by cases mlEval <;> rfl
    exact {
      total := rfl
      partition := rfl
      polled := ⟨rfl, Nat.zero_le _⟩
      consumer := .init ⟨ring, hring, rfl⟩
      received := rfl
      count := rfl
      worker := by
        cases mlEval with
        | false => exact .none
        | true =>
          obtain ⟨ring', hring'⟩ : ∃ ring', SpscRingBuffer.make (α := ScoringRequest P) capacity = .ok ring' :=
            make_ok_iff.2 (make_ok_iff.1 ⟨ring, hring⟩)
          simp only [hring', Except.toOption, if_true]
          exact .some (.init ⟨ring', hring', rfl⟩)
      scored := rfl
      scorer := by
        cases mlEval with
        | false => exact .none
        | true =>
          obtain ⟨ring', hring'⟩ : ∃ ring', SpscRingBuffer.make (α := ScoringRequest P) capacity = .ok ring' :=
            make_ok_iff.2 (make_ok_iff.1 ⟨ring, hring⟩)
          simp only [hring', Except.toOption, if_true]
          exact .some rfl
      unscored := fun _ => rfl
      requests := by rw [List.take_zero]; rfl
      sink := by simpa using Interleaving.nil
      submits := Nat.zero_le _
      handed := Nat.zero_le _
      workerHanded := Nat.zero_le _
      settled := by simp
      workerSettled := by
        cases mlEval with
        | false => simp
        | true =>
          intro w hw
          obtain ⟨ring', -, rfl⟩ := Option.map_eq_some_iff.1 hw
          simp
      stopping := by simp
      joined := by simp }
  | step _ _ hs ih =>
    obtain ⟨capacity, hcapacity, ih⟩ := ih
    refine ⟨capacity, hcapacity, ?_⟩
    rcases ih with ⟨what, hpc⟩ | ⟨log, wlog, hi⟩
    · simp only [replayMachine, KafkaReplay.step, hpc, reduceCtorEq] at hs
    · exact hi.step hs

end TradeSurveillance.Harness
