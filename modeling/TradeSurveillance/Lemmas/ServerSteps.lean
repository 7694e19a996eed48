import TradeSurveillance.Api.LiveServer
import TradeSurveillance.Lemmas.ReplaySteps
import TradeSurveillance.Theorems.AlertPersistence
import TradeSurveillance.Theorems.BookFeed

/-!
# The steps of the server

`Took` lists what a step of the server does, and `ServerInv` is the invariant: either consumer makes a run of its own loop, the table is
what the calls to the store made of it, and what was inserted is an interleaving of what either consumer has raised and handed over.
-/

namespace TradeSurveillance.Api

open AlertStore Harness

variable {P : Type} [Double P] [LinearOrder P] {pg : Postgres} {moved : Event P → Event P}
  {movedRequest : ScoringRequest P → ScoringRequest P}

/-! ## What a run shows -/

section Log

omit [Double P] [LinearOrder P]

/-- The events that were pushed. -/
def pushedEvents (log : List (ServerEvent P)) : List (Event P) :=
  log.filterMap fun | .pushed event => some event | _ => none

/-- The events that `process_one` of the books got. -/
def consumedEvents (log : List (ServerEvent P)) : List (Event P) :=
  log.filterMap fun | .consumed event => some event | _ => none

/-- The requests that were scored, with what the service answered. -/
def scoredRequests (log : List (ServerEvent P)) : List (Scored P) :=
  log.filterMap fun | .scored request score => some (request, score) | _ => none

/-- The calls to the store. -/
def calls (log : List (ServerEvent P)) : List (StoreCall P × Answer) :=
  log.filterMap fun | .called call => some call | _ => none

/-- The alert a call inserted. -/
def insertedBy (c : StoreCall P × Answer) : Option (Alert P) :=
  match c.1 with
  | .insertAlert alert => if c.2.stands then some alert else none
  | .updateAlertStatus _ _ => none

/-- The alerts that calls inserted. -/
def inserted (history : List (StoreCall P × Answer)) : List (Alert P) := history.filterMap insertedBy

/-- The events pushed in one log behind another. -/
@[simp] theorem pushedEvents_append (log out : List (ServerEvent P)) : pushedEvents (log ++ out) = pushedEvents log ++ pushedEvents out :=
  List.filterMap_append

/-- The events consumed in one log behind another. -/
@[simp] theorem consumedEvents_append (log out : List (ServerEvent P)) :
    consumedEvents (log ++ out) = consumedEvents log ++ consumedEvents out := List.filterMap_append

/-- The requests scored in one log behind another. -/
@[simp] theorem scoredRequests_append (log out : List (ServerEvent P)) :
    scoredRequests (log ++ out) = scoredRequests log ++ scoredRequests out := List.filterMap_append

/-- The calls in one log behind another. -/
@[simp] theorem calls_append (log out : List (ServerEvent P)) : calls (log ++ out) = calls log ++ calls out := List.filterMap_append

/-- The alerts inserted by one history behind another. -/
@[simp] theorem inserted_append (earlier later : List (StoreCall P × Answer)) :
    inserted (earlier ++ later) = inserted earlier ++ inserted later := List.filterMap_append

/-- What a step of the books' loop shows. -/
def bookEvents (a : LoopAction (Event P) Unit) (out : List (LoopEvent (Event P))) : List (ServerEvent P) :=
  a.items.map .pushed ++ (a.answered out).map (.consumed ·.1)

/-- What a step of the worker's loop shows. -/
def workerEvents (a : LoopAction (ScoringRequest P) (Option (ScoringResult P))) (out : List (LoopEvent (ScoringRequest P))) :
    List (ServerEvent P) := (a.answered out).map fun x => .scored x.1 x.2

section Events

variable (a : LoopAction (Event P) Unit) (out : List (LoopEvent (Event P)))
  (b : LoopAction (ScoringRequest P) (Option (ScoringResult P))) (wout : List (LoopEvent (ScoringRequest P)))

/-- A step of the books' loop pushes the items of its action. -/
@[simp] theorem pushedEvents_bookEvents : pushedEvents (bookEvents a out) = a.items := by
  simp [bookEvents, pushedEvents, List.filterMap_map]

/-- The events it shows as consumed are those its loop answered. -/
@[simp] theorem consumedEvents_bookEvents : consumedEvents (bookEvents a out) = (a.answered out).map Prod.fst := by
  simp [bookEvents, consumedEvents, List.filterMap_map]

/-- It scores nothing. -/
@[simp] theorem scoredRequests_bookEvents : scoredRequests (bookEvents a out) = [] := by
  simp [bookEvents, scoredRequests]

/-- It calls no method of the store. -/
@[simp] theorem calls_bookEvents : calls (bookEvents a out) = [] := by
  simp [bookEvents, calls]

/-- A step of the worker's loop pushes no event. -/
@[simp] theorem pushedEvents_workerEvents : pushedEvents (workerEvents b wout) = [] := by
  simp [workerEvents, pushedEvents]

/-- It consumes no event. -/
@[simp] theorem consumedEvents_workerEvents : consumedEvents (workerEvents b wout) = [] := by
  simp [workerEvents, consumedEvents]

/-- The requests it shows as scored are those its loop answered. -/
@[simp] theorem scoredRequests_workerEvents : scoredRequests (workerEvents b wout) = b.answered wout := by
  simp [workerEvents, scoredRequests, List.filterMap_map]

/-- What its loop shows has no call to the store. -/
@[simp] theorem calls_workerEvents : calls (workerEvents b wout) = [] := by
  simp [workerEvents, calls]

end Events

end Log

/-! ## The consumer of the books -/

namespace ServerConsumer

omit [LinearOrder P] in
/-- The part of the consumer that is like the one of a replay. -/
def replay (c : ServerConsumer P) : ReplayConsumer P := ⟨c.registry.consumer, some c.ml⟩

/-- On every event the consumer's part does what the one of a replay does. -/
theorem replay_processOne (c : ServerConsumer P) (e : Event P) : (c.processOne e).replay = c.replay.processOne e := by
  have hresult : (c.registry.consumer.processOne e).2 = (c.registry.pipeline.process e).2 := by
    unfold LiveConsumer.processOne
    simp only
    split <;> rfl
  have hregistry := c.registry.consumer_processOne e
  have hpipeline : (c.registry.processOne e).pipeline = (c.registry.consumer.processOne e).1.pipeline := congrArg LiveConsumer.pipeline hregistry
  unfold replay processOne ReplayConsumer.processOne
  simp only [hregistry, hresult, hpipeline]
  split <;> rfl

/-- The registry goes through the events as it does alone. -/
theorem registry_foldl (c : ServerConsumer P) (events : List (Event P)) :
    (events.foldl processOne c).registry = events.foldl LiveBookRegistry.processOne c.registry :=
  (List.foldl_hom registry fun _ _ => rfl).symm

/-- The alerts are those of the first five detectors. -/
theorem alerts_foldl (order : HashOrder) (simulation : Simulator.SimulationOutput P) (events : List (Event P)) :
    (events.foldl processOne (.make order simulation)).registry.alerts =
      (LivePipeline.make (makeFiveDetectors order simulation) (accountRegistry simulation)).alertsOf events := by
  rw [registry_foldl]
  exact (LiveBookRegistry.feed_foldl _ _ events).alerts

/-- An event takes no alert back. -/
theorem alerts_prefix_processOne (c : ServerConsumer P) (e : Event P) : c.registry.alerts <+: (c.processOne e).registry.alerts := by
  have h := c.replay.alerts_prefix_processOne e
  rw [← replay_processOne] at h
  exact h

/-- An event takes no submitted request back. -/
theorem submitted_prefix_processOne (c : ServerConsumer P) (e : Event P) : c.ml.submitted <+: (c.processOne e).ml.submitted := by
  have h := c.replay.submitted_prefix_processOne e
  rw [← replay_processOne] at h
  exact h

end ServerConsumer

/-- A request leads to at most one alert. -/
theorem length_alerts_processOne (w : MlScoringWorker P) (score : Option (ScoringResult P)) (request : ScoringRequest P) :
    (w.processOne score request).alerts.length ≤ w.alerts.length + 1 := by
  unfold MlScoringWorker.processOne
  cases score with
  | none => exact Nat.le_succ _
  | some result =>
    simp only
    split_ifs
    · exact Nat.le_succ _
    · rw [List.length_append, List.length_singleton]

/-! ## What a step does -/

/-- What a step of the server does, and what is seen of it. -/
inductive LiveServer.Took (pg : Postgres) (moved : Event P → Event P) (movedRequest : ScoringRequest P → ScoringRequest P)
    (s : LiveServer P) : LiveServer P → List (ServerEvent P) → Prop where
  | books {a : LoopAction (Event P) Unit} {b : ConsumerLoop (Event P) (ServerConsumer P)} {out : List (LoopEvent (Event P))}
      (hs : s.books.step moved (fun c _ event => c.processOne event) a = some (b, out))
      (hwaits : ∀ spurious, a = .consumer spurious () → s.books.consumer.ml.submitted[s.submits]? = none ∧
        s.books.consumer.registry.alerts[s.handed]? = none) :
      Took pg moved movedRequest s { s with books := b } (bookEvents a out)
  | submitted {request : ScoringRequest P} {w : ConsumerLoop (ScoringRequest P) (MlScoringWorker P)}
      {out : List (LoopEvent (ScoringRequest P))} (hrequest : s.books.consumer.ml.submitted[s.submits]? = some request)
      (hs : s.worker.step movedRequest MlScoringWorker.processOne (.push request) = some (w, out)) :
      Took pg moved movedRequest s { s with
        submits := s.submits + 1
        worker := w } []
  | worker {a : LoopAction (ScoringRequest P) (Option (ScoringResult P))} {w : ConsumerLoop (ScoringRequest P) (MlScoringWorker P)}
      {out : List (LoopEvent (ScoringRequest P))} (hs : s.worker.step movedRequest MlScoringWorker.processOne a = some (w, out))
      (hpush : a.items = [])
      (hwaits : ∀ spurious score, a = .consumer spurious score → s.worker.consumer.alerts[s.workerHanded]? = none) :
      Took pg moved movedRequest s { s with worker := w } (workerEvents a out)
  | handed {alert : Alert P} (answer : Answer) (halert : s.books.consumer.registry.alerts[s.handed]? = some alert) :
      Took pg moved movedRequest s { s.onAlert pg alert answer with handed := counted s.handed answer }
        [.called (.insertAlert alert, answer)]
  | workerHanded {alert : Alert P} (answer : Answer) (halert : s.worker.consumer.alerts[s.workerHanded]? = some alert) :
      Took pg moved movedRequest s { s.onAlert pg alert answer with workerHanded := counted s.workerHanded answer }
        [.called (.insertAlert alert, answer)]
  | patched (alertId : ℤ) (newStatus : Str) (answer : Answer) :
      Took pg moved movedRequest s { s with table := (updateAlertStatus pg s.table alertId newStatus answer).1 }
        [.called (.updateAlertStatus alertId newStatus, answer)]

namespace LiveServer

variable {s s' : LiveServer P} {out : List (ServerEvent P)}

/-- A step of a loop, as part of the server's. -/
theorem stepBooks_eq {a : LoopAction (Event P) Unit} (hs : s.stepBooks moved a = some (s', out)) :
    ∃ b bout, s.books.step moved (fun c _ event => c.processOne event) a = some (b, bout) ∧ s' = { s with books := b } ∧
      out = (a.answered bout).map (.consumed ·.1) := by
  obtain ⟨⟨b, bout⟩, hb, heq⟩ := Option.map_eq_some_iff.1 hs
  cases heq
  exact ⟨b, bout, hb, rfl, rfl⟩

/-- So for the worker. -/
theorem stepWorker_eq {a : LoopAction (ScoringRequest P) (Option (ScoringResult P))}
    (hs : s.stepWorker movedRequest a = some (s', out)) :
    ∃ w wout, s.worker.step movedRequest MlScoringWorker.processOne a = some (w, wout) ∧ s' = { s with worker := w } ∧
      out = workerEvents a wout := by
  obtain ⟨⟨w, wout⟩, hw, heq⟩ := Option.map_eq_some_iff.1 hs
  cases heq
  exact ⟨w, wout, hw, rfl, rfl⟩

/-- A step of the thread of the books is one of those `Took` lists. -/
theorem booksStep_took {spurious : Bool} {answer : Answer}
    (hs : s.booksStep pg moved movedRequest spurious answer = some (s', out)) : Took pg moved movedRequest s s' out := by
  unfold booksStep at hs
  split at hs
  · cases hrequest : s.books.consumer.ml.submitted[s.submits]? with
    | some request =>
      rw [hrequest] at hs
      obtain ⟨w, wout, hw, rfl, rfl⟩ := stepWorker_eq hs
      exact .submitted hrequest hw
    | none =>
      rw [hrequest] at hs
      cases halert : s.books.consumer.registry.alerts[s.handed]? with
      | some alert =>
        rw [halert] at hs
        cases hs
        exact .handed answer halert
      | none =>
        rw [halert] at hs
        obtain ⟨b, bout, hb, rfl, rfl⟩ := stepBooks_eq hs
        show Took pg moved movedRequest s _ (bookEvents (.consumer spurious ()) bout)
        exact .books hb fun _ _ => ⟨hrequest, halert⟩
  · -- the thread is in a call of `submit`
    obtain ⟨w, wout, hw, rfl, rfl⟩ := stepWorker_eq hs
    exact .worker hw rfl (by simp)

/-- So is a step of the worker's thread. -/
theorem workerStep_took {spurious : Bool} {score : Option (ScoringResult P)} {answer : Answer}
    (hs : s.workerStep pg movedRequest spurious score answer = some (s', out)) : Took pg moved movedRequest s s' out := by
  unfold workerStep at hs
  cases halert : s.worker.consumer.alerts[s.workerHanded]? with
  | some alert =>
    rw [halert] at hs
    cases hs
    exact .workerHanded answer halert
  | none =>
    rw [halert] at hs
    obtain ⟨w, wout, hw, rfl, rfl⟩ := stepWorker_eq hs
    exact .worker hw rfl fun _ _ _ => halert

/-- So is every step of the server. -/
theorem step_took {a : ServerAction P} (hs : s.step pg moved movedRequest a = some (s', out)) : Took pg moved movedRequest s s' out := by
  unfold step at hs
  split at hs
  · cases hs
  · cases a with
    | push event =>
      obtain ⟨⟨s₁, out⟩, hstep, heq⟩ := Option.map_eq_some_iff.1 hs
      obtain ⟨b, bout, hb, rfl, rfl⟩ := stepBooks_eq hstep
      cases heq
      show Took pg moved movedRequest s _ (bookEvents (.push event) bout)
      exact .books hb (by simp)
    | feeder spurious =>
      obtain ⟨b, bout, hb, rfl, rfl⟩ := stepBooks_eq hs
      show Took pg moved movedRequest s _ (bookEvents (.producer spurious) bout)
      exact .books hb (by simp)
    | books spurious answer => exact booksStep_took hs
    | worker spurious score answer => exact workerStep_took hs
    | patch alertId newStatus answer =>
      cases hs
      exact .patched alertId newStatus answer

end LiveServer

/-! ## The invariant -/

/-- What holds of every state of the server, with the logs of the two loops. -/
structure ServerInv (pg : Postgres) (moved : Event P → Event P) (movedRequest : ScoringRequest P → ScoringRequest P) (capacity : Word)
    (order : HashOrder) (simulation : Simulator.SimulationOutput P) (before : List (StoreCall P × Answer)) (s : LiveServer P)
    (log : List (ServerEvent P)) (blog : List (LoopEvent (Event P))) (wlog : List (LoopEvent (ScoringRequest P))) : Prop where
  books : (loopMachine moved (fun c (_ : Unit) event => c.processOne event) capacity (.make order simulation)).Run s.books blog
  pushed : pushed (bufferLog blog) = pushedEvents log
  consumed : consumedEvents log = processed blog
  worker : (MlScoringWorker.run movedRequest (.make {})).Run s.worker wlog
  scored : (scoredRequests log).map Prod.fst = processed wlog
  /-- The worker is what the requests and their scores made of it. -/
  scorer : s.worker.consumer = (scoredRequests log).foldl (fun w x => w.processOne x.2 x.1) (.make {})
  requests : TradeSurveillance.pushed (bufferLog wlog) = s.books.consumer.ml.submitted.take s.submits
  table : s.table = tableAfter pg (before ++ calls log)
  inserted : Interleaving (inserted (calls log)) (s.books.consumer.registry.alerts.take s.handed)
    (s.worker.consumer.alerts.take s.workerHanded)
  submits : s.submits ≤ s.books.consumer.ml.submitted.length
  handed : s.handed ≤ s.books.consumer.registry.alerts.length
  workerHanded : s.workerHanded ≤ s.worker.consumer.alerts.length
  /-- The alerts of every event but the last are handed over. -/
  lag : ((LivePipeline.make (makeFiveDetectors order simulation) (accountRegistry simulation)).alertsOf
    (processed blog).dropLast).length ≤ s.handed
  workerLag : s.worker.consumer.alerts.length ≤ s.workerHanded + 1

namespace ServerInv

variable {capacity : Word} {order : HashOrder} {simulation : Simulator.SimulationOutput P} {before : List (StoreCall P × Answer)}
  {s s' : LiveServer P} {log out : List (ServerEvent P)} {blog : List (LoopEvent (Event P))}
  {wlog : List (LoopEvent (ScoringRequest P))}

omit [Double P] [LinearOrder P] in
/-- An alert that is handed over joins what was inserted, if its insert stands. -/
theorem take_counted {alerts : List (Alert P)} {n : ℕ} {alert : Alert P} (answer : Answer) (h : alerts[n]? = some alert) :
    alerts.take (LiveServer.counted n answer) = alerts.take n ++ Api.inserted [(.insertAlert alert, answer)] := by
  cases hstands : answer.stands with
  | true => simp [LiveServer.counted, Api.inserted, insertedBy, hstands, List.take_add_one, h]
  | false => simp [LiveServer.counted, Api.inserted, insertedBy, hstands]

omit [Double P] [LinearOrder P] in
/-- What the program inserts extends the first of two interleaved lists. -/
theorem interleaving_inserted {l a b : List (Alert P)} (h : Interleaving l a b) (c : StoreCall P × Answer) :
    Interleaving (l ++ Api.inserted [c]) (a ++ Api.inserted [c]) b := by
  cases hc : insertedBy c with
  | none => simpa [Api.inserted, hc] using h
  | some alert => simpa [Api.inserted, hc] using h.left alert

omit [Double P] [LinearOrder P] in
/-- The count of inserted alerts stays below a bound that grew. -/
theorem counted_le {n m : ℕ} (answer : Answer) (h : n < m) : LiveServer.counted n answer ≤ m := by
  unfold LiveServer.counted
  split_ifs <;> omega

omit [Double P] [LinearOrder P] in
/-- Counting takes nothing back. -/
theorem le_counted (n : ℕ) (answer : Answer) : n ≤ LiveServer.counted n answer := by
  unfold LiveServer.counted
  split_ifs <;> omega

/-- The alerts the books' consumer has raised are those of the events it was handed. -/
theorem alerts_eq (hi : ServerInv pg moved movedRequest capacity order simulation before s log blog wlog) :
    s.books.consumer.registry.alerts =
      (LivePipeline.make (makeFiveDetectors order simulation) (accountRegistry simulation)).alertsOf (processed blog) := by
  obtain ⟨units, hunits, hconsumer⟩ := run_consumer hi.books
  rw [hconsumer, foldl_zip_right hunits, ServerConsumer.alerts_foldl]

/-- A step of the loop of the books. Its thread goes on only where nothing waits. -/
theorem stepBooks {a : LoopAction (Event P) Unit} {b : ConsumerLoop (Event P) (ServerConsumer P)} {bout : List (LoopEvent (Event P))}
    (hi : ServerInv pg moved movedRequest capacity order simulation before s log blog wlog)
    (hs : s.books.step moved (fun c _ event => c.processOne event) a = some (b, bout))
    (hwaits : ∀ spurious, a = .consumer spurious () → s.books.consumer.ml.submitted[s.submits]? = none ∧
      s.books.consumer.registry.alerts[s.handed]? = none) :
    ServerInv pg moved movedRequest capacity order simulation before { s with books := b } (log ++ bookEvents a bout) (blog ++ bout)
      wlog := by
  have hcalls : calls (log ++ bookEvents a bout) = calls log := by simp
  have hscored : scoredRequests (log ++ bookEvents a bout) = scoredRequests log := by simp
  have hpushed : TradeSurveillance.pushed (bufferLog (blog ++ bout)) = pushedEvents (log ++ bookEvents a bout) := by
    rw [bufferLog_append, pushed_append, ConsumerLoop.step_pushed hs, hi.pushed, pushedEvents_append, pushedEvents_bookEvents]
  have hconsumed : consumedEvents (log ++ bookEvents a bout) = processed (blog ++ bout) := by
    rw [consumedEvents_append, consumedEvents_bookEvents, (ConsumerLoop.step_answered hs).1, hi.consumed, processed_append]
  have hraised := ConsumerLoop.step_consumer (R := fun c c' => c.registry.alerts <+: c'.registry.alerts) (fun _ => List.prefix_rfl)
    (fun c _ event => c.alerts_prefix_processOne event) hs
  have hsubmitted := ConsumerLoop.step_consumer (R := fun c c' => c.ml.submitted <+: c'.ml.submitted) (fun _ => List.prefix_rfl)
    (fun c _ event => c.submitted_prefix_processOne event) hs
  have hlag : ((LivePipeline.make (makeFiveDetectors order simulation) (accountRegistry simulation)).alertsOf
      (processed (blog ++ bout)).dropLast).length ≤ s.handed := by
    have hhandled := ConsumerLoop.step_handled hs
    rw [processed_append]
    generalize processed bout = items at hhandled
    cases hhandled with
    | others => rw [List.append_nil]; exact hi.lag
    | kept => rw [List.append_nil]; exact hi.lag
    | @processed spurious _ item =>
      rw [List.dropLast_concat, ← hi.alerts_eq]
      exact List.getElem?_eq_none_iff.1 (hwaits spurious rfl).2
  exact { hi with
    books := Machine.Reach.step hi.books trivial hs
    pushed := hpushed
    consumed := hconsumed
    scored := by rw [hscored]; exact hi.scored
    scorer := by rw [hscored]; exact hi.scorer
    requests := by rw [hi.requests, take_eq_of_le_length hsubmitted hi.submits]
    table := by rw [hcalls]; exact hi.table
    inserted := by rw [hcalls, take_eq_of_le_length hraised hi.handed]; exact hi.inserted
    submits := hi.submits.trans hsubmitted.length_le
    handed := hi.handed.trans hraised.length_le
    lag := hlag }

/-- A step of the loop of the worker, behind a call of `submit` where it pushes. -/
theorem stepWorker {a : LoopAction (ScoringRequest P) (Option (ScoringResult P))}
    {w : ConsumerLoop (ScoringRequest P) (MlScoringWorker P)} {wout : List (LoopEvent (ScoringRequest P))}
    (n : ℕ) (hi : ServerInv pg moved movedRequest capacity order simulation before s log blog wlog)
    (hs : s.worker.step movedRequest MlScoringWorker.processOne a = some (w, wout))
    (hn : n ≤ s.books.consumer.ml.submitted.length)
    (hrequests : s.books.consumer.ml.submitted.take n = s.books.consumer.ml.submitted.take s.submits ++ a.items)
    (hwaits : ∀ spurious score, a = .consumer spurious score → s.worker.consumer.alerts[s.workerHanded]? = none) :
    ServerInv pg moved movedRequest capacity order simulation before { s with submits := n, worker := w } (log ++ workerEvents a wout)
      blog (wlog ++ wout) := by
  obtain ⟨hanswered, hfold⟩ := ConsumerLoop.step_answered hs
  have hevents : pushedEvents (log ++ workerEvents a wout) = pushedEvents log := by simp
  have hconsumed : consumedEvents (log ++ workerEvents a wout) = consumedEvents log := by simp
  have hcalls : calls (log ++ workerEvents a wout) = calls log := by simp
  have hscored : scoredRequests (log ++ workerEvents a wout) = scoredRequests log ++ a.answered wout := by simp
  have hrequest : (scoredRequests (log ++ workerEvents a wout)).map Prod.fst = processed (wlog ++ wout) := by
    rw [hscored, List.map_append, hi.scored, hanswered, processed_append]
  have hscorer : w.consumer = (scoredRequests (log ++ workerEvents a wout)).foldl (fun w x => w.processOne x.2 x.1) (.make {}) := by
    rw [hscored, List.foldl_append, ← hi.scorer, hfold]
  have hrun : (MlScoringWorker.run movedRequest (.make {})).Run w (wlog ++ wout) := Machine.Reach.step hi.worker trivial hs
  have hpushed : TradeSurveillance.pushed (bufferLog (wlog ++ wout)) = s.books.consumer.ml.submitted.take n := by
    rw [bufferLog_append, pushed_append, ConsumerLoop.step_pushed hs, hi.requests, hrequests]
  have hraised := ConsumerLoop.step_consumer (R := fun w w' => w.alerts <+: w'.alerts) (fun _ => List.prefix_rfl) alerts_prefix_worker hs
  have hlag : w.consumer.alerts.length ≤ s.workerHanded + 1 := by
    have hhandled := ConsumerLoop.step_handled hs
    generalize processed wout = items at hhandled
    cases hhandled with
    | others _ heq _ => exact heq ▸ hi.workerLag
    | kept heq => exact heq ▸ hi.workerLag
    | @processed spurious score request heq _ =>
      have hall := List.getElem?_eq_none_iff.1 (hwaits spurious score rfl)
      rw [heq]
      exact (length_alerts_processOne s.worker.consumer score request).trans (Nat.add_le_add_right hall 1)
  exact { hi with
    pushed := by rw [hevents]; exact hi.pushed
    consumed := by rw [hconsumed]; exact hi.consumed
    worker := hrun
    scored := hrequest
    scorer := hscorer
    requests := hpushed
    table := by rw [hcalls]; exact hi.table
    inserted := by rw [hcalls, take_eq_of_le_length hraised hi.workerHanded]; exact hi.inserted
    submits := hn
    workerHanded := hi.workerHanded.trans hraised.length_le
    workerLag := hlag }

/-- One step of the server. -/
theorem step {a : ServerAction P} (hi : ServerInv pg moved movedRequest capacity order simulation before s log blog wlog)
    (hs : s.step pg moved movedRequest a = some (s', out)) :
    ∃ blog' wlog', ServerInv pg moved movedRequest capacity order simulation before s' (log ++ out) blog' wlog' := by
  have hcall : ∀ (c : StoreCall P × Answer), s.table.call pg c = tableAfter pg (before ++ calls (log ++ [.called c])) := by
    intro c
    have hcalls : calls (log ++ [.called c]) = calls log ++ [c] := calls_append _ _
    rw [hcalls, ← List.append_assoc, tableAfter_append, ← hi.table]
    rfl
  have hevents : ∀ c : StoreCall P × Answer, pushedEvents (log ++ [.called c]) = pushedEvents log ∧
      consumedEvents (log ++ [.called c]) = consumedEvents log ∧ scoredRequests (log ++ [.called c]) = scoredRequests log := by
    intro c
    rw [pushedEvents_append, consumedEvents_append, scoredRequests_append]
    exact ⟨List.append_nil _, List.append_nil _, List.append_nil _⟩
  have hinserted : ∀ c : StoreCall P × Answer, Api.inserted (calls (log ++ [.called c])) = Api.inserted (calls log) ++ Api.inserted [c] := by
    intro c
    rw [calls_append, inserted_append]
    rfl
  have htook := LiveServer.step_took hs
  clear hs
  cases htook with
  | books hs hwaits => exact ⟨_, wlog, hi.stepBooks hs hwaits⟩
  | @submitted request w wout hrequest hs =>
    obtain ⟨hlt, rfl⟩ := List.getElem?_eq_some_iff.1 hrequest
    refine ⟨blog, wlog ++ wout, hi.stepWorker (s.submits + 1) hs hlt ?_ (by simp)⟩
    rw [List.take_add_one, hrequest]
    rfl
  | worker hs hpush hwaits =>
    refine ⟨blog, _, hi.stepWorker s.submits hs hi.submits ?_ hwaits⟩
    rw [hpush, List.append_nil]
  | @handed alert answer halert =>
    obtain ⟨hlt, -⟩ := List.getElem?_eq_some_iff.1 halert
    have hnew : Interleaving (Api.inserted (calls log) ++ Api.inserted [(.insertAlert alert, answer)])
        (s.books.consumer.registry.alerts.take (LiveServer.counted s.handed answer)) (s.worker.consumer.alerts.take s.workerHanded) := by
      rw [take_counted answer halert]
      exact interleaving_inserted hi.inserted _
    exact ⟨blog, wlog, { hi with
      pushed := hi.pushed.trans (hevents _).1.symm
      consumed := (hevents _).2.1.trans hi.consumed
      scored := by rw [(hevents _).2.2]; exact hi.scored
      scorer := by rw [(hevents _).2.2]; exact hi.scorer
      table := hcall (.insertAlert alert, answer)
      inserted := by rw [hinserted]; exact hnew
      handed := counted_le answer hlt
      lag := hi.lag.trans (le_counted _ _) }⟩
  | @workerHanded alert answer halert =>
    obtain ⟨hlt, -⟩ := List.getElem?_eq_some_iff.1 halert
    have hnew : Interleaving (Api.inserted (calls log) ++ Api.inserted [(.insertAlert alert, answer)])
        (s.books.consumer.registry.alerts.take s.handed) (s.worker.consumer.alerts.take (LiveServer.counted s.workerHanded answer)) := by
      rw [take_counted answer halert]
      exact (interleaving_inserted hi.inserted.symm _).symm
    exact ⟨blog, wlog, { hi with
      pushed := hi.pushed.trans (hevents _).1.symm
      consumed := (hevents _).2.1.trans hi.consumed
      scored := by rw [(hevents _).2.2]; exact hi.scored
      scorer := by rw [(hevents _).2.2]; exact hi.scorer
      table := hcall (.insertAlert alert, answer)
      inserted := by rw [hinserted]; exact hnew
      workerHanded := counted_le answer hlt
      workerLag := hi.workerLag.trans (Nat.add_le_add_right (le_counted _ _) 1) }⟩
  | patched alertId newStatus answer =>
    have hnone : Api.inserted [((.updateAlertStatus alertId newStatus, answer) : StoreCall P × Answer)] = [] := rfl
    exact ⟨blog, wlog, { hi with
      pushed := hi.pushed.trans (hevents _).1.symm
      consumed := (hevents _).2.1.trans hi.consumed
      scored := by rw [(hevents _).2.2]; exact hi.scored
      scorer := by rw [(hevents _).2.2]; exact hi.scorer
      table := hcall (.updateAlertStatus alertId newStatus, answer)
      inserted := by rw [hinserted, hnone, List.append_nil]; exact hi.inserted }⟩

end ServerInv

/-- Every state of the server. -/
theorem server_invariant {capacity : Word} {order : HashOrder} {simulation : Simulator.SimulationOutput P}
    {before : List (StoreCall P × Answer)} {s : LiveServer P} {log : List (ServerEvent P)}
    (hr : (serverMachine pg moved movedRequest capacity order simulation before).Run s log) :
    ∃ blog wlog, ServerInv pg moved movedRequest capacity order simulation before s log blog wlog := by
  induction hr with
  | init hs =>
    obtain ⟨ring, requests, hring, hrequests, rfl⟩ := hs
    exact ⟨[], [], {
      books := .init ⟨ring, hring, rfl⟩
      pushed := rfl
      consumed := rfl
      scored := rfl
      scorer := rfl
      worker := .init ⟨requests, hrequests, rfl⟩
      requests := rfl
      table := by
        show _ = tableAfter pg (before ++ [])
        rw [List.append_nil]
        rfl
      inserted := .nil
      submits := Nat.zero_le _
      handed := Nat.zero_le _
      workerHanded := Nat.zero_le _
      lag := Nat.zero_le _
      workerLag := Nat.zero_le _ }⟩
  | step _ _ hs ih =>
    obtain ⟨blog, wlog, hi⟩ := ih
    exact hi.step hs

end TradeSurveillance.Api
