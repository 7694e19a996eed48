import TradeSurveillance.Lemmas.ServerSteps
import TradeSurveillance.Theorems.ReplayDetermined

/-!
# What the server's store shows

The session pushes events, the books consume them, the worker scores, analysts change statuses and the database may fail. Whatever the
interleaving, the alerts the store lists for a detector are those the detector would raise alone on the events that were consumed, each
once and in order, up to the last event (`server_alerts`).
-/

namespace TradeSurveillance

open AlertStore Harness

variable {P : Type}

/-! ## The alerts of a table -/

/-- The alerts of a table, in the order of insertion. -/
def alertsIn (pg : Postgres) (t : AlertTable P) : List (Alert P) := t.rows.map fun row => (storedAlert pg row).alert

/-- A call adds the alert it inserts. -/
theorem alertsIn_effect {pg : Postgres} (hpg : pg.Documented) {t t' : AlertTable P} {c : StoreCall P × Answer} (heffect : Effect t c t') :
    alertsIn pg t' = alertsIn pg t ++ Api.inserted [c] := by
  rcases heffect with ⟨hinsert, hupdate⟩ | ⟨alert, hcall, hstands⟩ | ⟨id, status, hcall, hstands, hallowed⟩
  · have hnone : Api.insertedBy c = none := by
      unfold Api.insertedBy
      split
      · rename_i alert hcall
        rw [hinsert alert hcall]
        rfl
      · rfl
    simp [Api.inserted, hnone]
  · have hsome : Api.insertedBy c = some alert := by
      rw [Api.insertedBy, hcall]
      exact if_pos hstands
    have hrow : (storedAlert pg (newRow (nextId t c.2) alert alert.accountIds alert.orderIds)).alert = alert :=
      congrArg StoredAlert.alert (storedAlert_newRow hpg _ alert (ascii "OPEN"))
    simp [alertsIn, Api.inserted, hsome, hrow]
  · have hnone : Api.insertedBy c = none := by rw [Api.insertedBy, hcall]
    have hsame : ((fun row => (storedAlert pg row).alert) ∘ fun row : AlertRow P =>
        if row.alertId = id then { row with status := status } else row) = fun row => (storedAlert pg row).alert := by
      funext row
      rw [Function.comp_apply]
      split_ifs <;> rfl
    simp [alertsIn, setStatus, Api.inserted, hnone, hsame]

theorem alertsIn_after {pg : Postgres} (hpg : pg.Documented) (t : AlertTable P) (history : List (StoreCall P × Answer)) :
    alertsIn pg (t.after pg history) = alertsIn pg t ++ Api.inserted history := by
  induction history generalizing t with
  | nil => exact (List.append_nil _).symm
  | cons c history ih =>
    show alertsIn pg ((t.call pg c).after pg history) = _
    rw [ih, alertsIn_effect hpg (call_cases hpg c), List.append_assoc, ← Api.inserted_append]
    rfl

theorem queryAlertsByDetector_alerts {pg : Postgres} {t : AlertTable P} (h : Ordered t) (detectorName : Str) :
    (queryAlertsByDetector pg t detectorName).map (·.alert) = (alertsIn pg t).filter (·.detectorName = detectorName) := by
  rw [queryAlertsByDetector, byAlertId_eq (h.increasing.filter _), rowsToStoredAlerts, List.map_map, alertsIn, List.filter_map]
  rfl

/-! ## The events and the requests -/

/-- Whatever waits in the buffer or was discarded, what was handed to `process_one` was pushed, in that order. -/
theorem processed_sublist_pushed {α ι : Type} {σ : Type*} [Inhabited α] {moved : α → α} {processOne : σ → ι → α → σ} {capacity : Word}
    {consumer : σ} {s : ConsumerLoop α σ} {log : List (LoopEvent α)} (hr : (loopMachine moved processOne capacity consumer).Run s log) :
    (processed log).Sublist (pushed (bufferLog log)) := by
  have hrun := run_buffer hr
  obtain ⟨k, gp, gc, -, -, -, hi⟩ := ring_invariant hrun
  have hpopped : (processed log).Sublist (RingHistory.ofLog (bufferLog log)).delivered := by
    rw [run_processed hr, ← popped_eq hrun]
    exact List.sublist_append_left _ _
  have hshare : (RingHistory.ofLog (bufferLog log)).delivered.Sublist ((RingHistory.ofLog (bufferLog log)).share .consumer) := by
    rw [hi.share .consumer]
    exact List.sublist_append_left _ _
  rw [pushed_eq hrun]
  exact (hpopped.trans hshare).trans ((RingHistory.share_sublist _ _).trans (List.sublist_append_left _ _))

/-- More events leave the alerts of the earlier ones where they are. -/
theorem LivePipeline.alertsOf_prefix [LinearOrder P] (p : LivePipeline P) {earlier events : List (Event P)} (h : earlier <+: events) :
    p.alertsOf earlier <+: p.alertsOf events := by
  induction earlier generalizing p events with
  | nil => exact List.nil_prefix
  | cons e earlier ih =>
    obtain ⟨later, rfl⟩ := h
    rw [List.cons_append, alertsOf_cons, alertsOf_cons]
    exact (List.prefix_append_right_inj _).2 (ih _ (List.prefix_append _ _))

/-! ## The store behind a run -/

section Server

variable [Double P] [LinearOrder P] {pg : Postgres} {moved : Event P → Event P} {movedRequest : ScoringRequest P → ScoringRequest P}
  {capacity : Word} {order : HashOrder} {simulation : Simulator.SimulationOutput P} {before : List (StoreCall P × Answer)}
  {s : Api.LiveServer P} {log : List (Api.ServerEvent P)}

omit [Double P] [LinearOrder P] in
/-- What the store lists of a detector beyond what it listed when the server was started. -/
def ListedSince (pg : Postgres) (before : List (StoreCall P × Answer)) (t : AlertTable P) (detectorName : Str) (raised : List (Alert P)) :
    Prop := (queryAlertsByDetector pg t detectorName).map (·.alert) =
      (queryAlertsByDetector pg (tableAfter pg before) detectorName).map (·.alert) ++ raised

/-- What the server shows of its books and of its alerts, by what a run has consumed and scored. -/
structure ServerAlerts (pg : Postgres) (order : HashOrder) (simulation : Simulator.SimulationOutput P)
    (before : List (StoreCall P × Answer)) (s : Api.LiveServer P) (log : List (Api.ServerEvent P)) : Prop where
  events : (Api.consumedEvents log).Sublist (Api.pushedEvents log)
  books : s.books.consumer = (Api.consumedEvents log).foldl Api.ServerConsumer.processOne (.make order simulation)
  feed : Feed s.books.consumer.registry (makeFiveDetectors order simulation) (accountRegistry simulation) (Api.consumedEvents log)
  /-- The alerts of a rule are those it raises alone; of the last event some may be missing. -/
  rules : ∀ d ∈ makeFiveDetectors order simulation, ∃ raised, ListedSince pg before s.table d.name raised ∧
    raised <+: (LivePipeline.make [d] (accountRegistry simulation)).alertsOf (Api.consumedEvents log) ∧
    (LivePipeline.make [d] (accountRegistry simulation)).alertsOf (Api.consumedEvents log).dropLast <+: raised
  requests : ((Api.scoredRequests log).map Prod.fst).Sublist s.books.consumer.ml.submitted
  /-- The alerts of the sixth detector are those of the scored requests, but perhaps for the last. -/
  scored : ∃ raised, ListedSince pg before s.table (ascii "MlAnomalyDetector") raised ∧
    raised <+: MlScoringWorker.alertsFor 0.7 ((Api.scoredRequests log).map Prod.snd) ((Api.scoredRequests log).map Prod.fst) ∧
    (MlScoringWorker.alertsFor (0.7 : P) ((Api.scoredRequests log).map Prod.snd) ((Api.scoredRequests log).map Prod.fst)).length ≤
      raised.length + 1
  others : ∀ name, name ≠ ascii "MlAnomalyDetector" → name ∉ (makeFiveDetectors order simulation).map (·.name) →
    ListedSince pg before s.table name []

/-- What is listed by now. -/
theorem listedSince_of_inserted (hpg : pg.Documented) {blog : List (LoopEvent (Event P))} {wlog : List (LoopEvent (ScoringRequest P))}
    (hi : Api.ServerInv pg moved movedRequest capacity order simulation before s log blog wlog) (name : Str) :
    ListedSince pg before s.table name ((Api.inserted (Api.calls log)).filter (·.detectorName = name)) := by
  have hafter : alertsIn pg s.table = alertsIn pg (tableAfter pg before) ++ Api.inserted (Api.calls log) := by
    rw [hi.table, tableAfter_append, alertsIn_after hpg]
  have hordered : Ordered s.table := by
    rw [hi.table]
    exact ordered_tableAfter hpg _
  rw [ListedSince, queryAlertsByDetector_alerts hordered, queryAlertsByDetector_alerts (ordered_tableAfter hpg before), hafter,
    List.filter_append]

/-- The alerts of the worker. -/
theorem detectorName_alertsFor {threshold : P} {scores : List (Option (ScoringResult P))} {requests : List (ScoringRequest P)}
    {alert : Alert P} (h : alert ∈ MlScoringWorker.alertsFor threshold scores requests) : alert.detectorName = ascii "MlAnomalyDetector" := by
  obtain ⟨⟨score, request⟩, -, hsome⟩ := List.mem_filterMap.1 h
  obtain ⟨result, -, hsome⟩ := Option.bind_eq_some_iff.1 hsome
  simp only [Option.ite_none_left_eq_some, Option.some.injEq] at hsome
  obtain ⟨-, rfl⟩ := hsome
  rfl

section Invariant

variable {blog : List (LoopEvent (Event P))} {wlog : List (LoopEvent (ScoringRequest P))}
  (hi : Api.ServerInv pg moved movedRequest capacity order simulation before s log blog wlog)

include hi

/-- The books are what the consumed events made of them. -/
theorem books_of_inv : s.books.consumer = (Api.consumedEvents log).foldl Api.ServerConsumer.processOne (.make order simulation) := by
  obtain ⟨units, hunits, hconsumer⟩ := run_consumer hi.books
  rw [hconsumer, foldl_zip_right hunits, hi.consumed]

/-- So is what the feed shows. -/
theorem feed_of_inv :
    Feed s.books.consumer.registry (makeFiveDetectors order simulation) (accountRegistry simulation) (Api.consumedEvents log) := by
  rw [books_of_inv hi, Api.ServerConsumer.registry_foldl]
  exact LiveBookRegistry.feed_foldl _ _ _

/-- The worker has raised the alerts of the scored requests. -/
theorem worker_alerts : s.worker.consumer.alerts =
    MlScoringWorker.alertsFor 0.7 ((Api.scoredRequests log).map Prod.snd) ((Api.scoredRequests log).map Prod.fst) := by
  rw [hi.scorer, MlScoringWorker.foldl_scored]
  rfl

/-- No alert of the worker has the name of a rule. -/
theorem filter_worker {name : Str} (hname : name ≠ ascii "MlAnomalyDetector") :
    ∀ alert ∈ s.worker.consumer.alerts.take s.workerHanded, decide (alert.detectorName = name) = false := by
  intro alert halert
  have hmem := List.mem_of_mem_take halert
  rw [worker_alerts hi] at hmem
  refine decide_eq_false ?_
  rw [detectorName_alertsFor hmem]
  exact hname.symm

/-- Every alert of the books has the name of a rule. -/
theorem filter_books {name : Str} (hname : name ∉ (makeFiveDetectors order simulation).map (·.name)) :
    ∀ alert ∈ s.books.consumer.registry.alerts.take s.handed, decide (alert.detectorName = name) = false := by
  intro alert halert
  have hmem := List.mem_of_mem_take halert
  rw [hi.alerts_eq] at hmem
  have hnames := LivePipeline.alertsOf_names (p := .make (makeFiveDetectors order simulation) (accountRegistry simulation))
    (makeFiveDetectors_provided order simulation) _ alert hmem
  refine decide_eq_false ?_
  rintro rfl
  exact hname hnames

/-- What is listed of a rule. -/
theorem rules_of_inv (hpg : pg.Documented) {d : IDetector P} (hd : d ∈ makeFiveDetectors order simulation) :
    ∃ raised, ListedSince pg before s.table d.name raised ∧
      raised <+: (LivePipeline.make [d] (accountRegistry simulation)).alertsOf (Api.consumedEvents log) ∧
      (LivePipeline.make [d] (accountRegistry simulation)).alertsOf (Api.consumedEvents log).dropLast <+: raised := by
  rw [hi.consumed]
  obtain ⟨first, last, hsplit, hname, hml⟩ := makeFiveDetectors_split hd
  have halone : ∀ events : List (Event P),
      ((LivePipeline.make (makeFiveDetectors order simulation) (accountRegistry simulation)).alertsOf events).filter
        (·.detectorName = d.name) = (LivePipeline.make [d] (accountRegistry simulation)).alertsOf events := by
    intro events
    rw [hsplit]
    refine LivePipeline.filter_alertsOf_alone ?_ hname _ events
    rw [← hsplit]
    exact makeFiveDetectors_provided order simulation
  refine ⟨(s.books.consumer.registry.alerts.take s.handed).filter (·.detectorName = d.name), ?_, ?_, ?_⟩
  · have hlisted := listedSince_of_inserted hpg hi d.name
    rwa [hi.inserted.filter_eq (filter_worker hi hml)] at hlisted
  · rw [← halone, ← hi.alerts_eq]
    exact (List.take_prefix _ _).filter _
  · -- the alerts of the events before the last have been handed over
    have hearlier := LivePipeline.alertsOf_prefix (.make (makeFiveDetectors order simulation) (accountRegistry simulation))
      (List.dropLast_prefix (processed blog))
    rw [← hi.alerts_eq] at hearlier
    rw [← halone]
    exact (List.prefix_of_prefix_length_le hearlier (List.take_prefix _ _)
      (by rw [List.length_take, Nat.min_eq_left hi.handed]; exact hi.lag)).filter _

/-- What is scored was submitted. -/
theorem requests_of_inv : ((Api.scoredRequests log).map Prod.fst).Sublist s.books.consumer.ml.submitted := by
  have hrequests := processed_sublist_pushed hi.worker
  rw [hi.requests] at hrequests
  rw [hi.scored]
  exact hrequests.trans (List.take_sublist _ _)

/-- What is listed of the sixth detector. -/
theorem scored_of_inv (hpg : pg.Documented) : ∃ raised, ListedSince pg before s.table (ascii "MlAnomalyDetector") raised ∧
    raised <+: MlScoringWorker.alertsFor (0.7 : P) ((Api.scoredRequests log).map Prod.snd) ((Api.scoredRequests log).map Prod.fst) ∧
    (MlScoringWorker.alertsFor (0.7 : P) ((Api.scoredRequests log).map Prod.snd) ((Api.scoredRequests log).map Prod.fst)).length ≤
      raised.length + 1 := by
  have hscored := worker_alerts hi
  have hnames : ascii "MlAnomalyDetector" ∉ (makeFiveDetectors order simulation).map (·.name) := by
    rw [makeFiveDetectors_names]
    decide
  have hall : ∀ alert ∈ s.worker.consumer.alerts.take s.workerHanded, decide (alert.detectorName = ascii "MlAnomalyDetector") = true := by
    intro alert halert
    have hmem := List.mem_of_mem_take halert
    rw [hscored] at hmem
    exact decide_eq_true (detectorName_alertsFor hmem)
  refine ⟨s.worker.consumer.alerts.take s.workerHanded, ?_, ?_, ?_⟩
  · have hlisted := listedSince_of_inserted hpg hi (ascii "MlAnomalyDetector")
    rwa [hi.inserted.symm.filter_eq (filter_books hi hnames), List.filter_eq_self.2 hall] at hlisted
  · rw [← hscored]
    exact List.take_prefix _ _
  · rw [← hscored, List.length_take, Nat.min_eq_left hi.workerHanded]
    exact hi.workerLag

/-- Of any other name nothing is listed. -/
theorem others_of_inv (hpg : pg.Documented) {name : Str} (hml : name ≠ ascii "MlAnomalyDetector")
    (hname : name ∉ (makeFiveDetectors order simulation).map (·.name)) : ListedSince pg before s.table name [] := by
  have hlisted := listedSince_of_inserted hpg hi name
  rw [hi.inserted.filter_eq (filter_worker hi hml)] at hlisted
  have hnone := List.filter_eq_nil_iff.2 fun alert halert => Bool.eq_false_iff.1 (filter_books hi hname alert halert)
  rwa [hnone] at hlisted

end Invariant

/-- Whatever the interleaving of the server's threads, and whatever the database and the scoring service answer, the store lists the
alerts of a detector as it raises them on the events that were consumed, or the requests that were scored. -/
theorem server_alerts (hpg : pg.Documented)
    (hr : (Api.serverMachine pg moved movedRequest capacity order simulation before).Run s log) :
    ServerAlerts pg order simulation before s log := by
  obtain ⟨blog, wlog, hi⟩ := Api.server_invariant hr
  have hevents := processed_sublist_pushed hi.books
  rw [hi.pushed, ← hi.consumed] at hevents
  exact {
    events := hevents
    books := books_of_inv hi
    feed := feed_of_inv hi
    rules := fun d hd => rules_of_inv hi hpg hd
    requests := requests_of_inv hi
    scored := scored_of_inv hi hpg
    others := fun name hml hname => others_of_inv hi hpg hml hname }

/-- An order of one account is filled by an order of the same account: both events are consumed, the alert is inserted, and then closed. -/
theorem server_alerts_selfTrade : ∃ (s : Api.LiveServer ℚ) (log : List (Api.ServerEvent ℚ)),
    s.table.rows.map (fun row => (row.alertId, row.detectorName, row.status)) = [(1, ascii "WashTradeDetector", ascii "CLOSED")] ∧
    (Api.consumedEvents log).length = 2 ∧ ServerAlerts quotingPostgres ⟨id, fun _ => .refl _⟩ ⟨[], [], [], []⟩ [] s log := by
  obtain ⟨s, log, hr, hp⟩ := Machine.run_of_exec
    (M := Api.serverMachine quotingPostgres id id 2 ⟨id, fun _ => .refl _⟩ (⟨[], [], [], []⟩ : Simulator.SimulationOutput ℚ) [])
    ⟨_, _, rfl, rfl, rfl⟩
    (.push (.order (toFixOrder bought)) :: List.replicate 5 (.feeder false) ++ List.replicate 8 (.books false (.done 0)) ++
      .push (.execution (toFixExecution { boughtFill with counterpartyAccountId := ascii "ACC-1" } .buy)) ::
        List.replicate 5 (.feeder false) ++ List.replicate 9 (.books false (.done 0)) ++ [.patch 1 (ascii "CLOSED") (.done 0)])
    (p := fun q => decide (q.1.table.rows.map (fun row => (row.alertId, row.detectorName, row.status)) =
      [(1, ascii "WashTradeDetector", ascii "CLOSED")] ∧ (Api.consumedEvents q.2).length = 2)) (by decide +kernel)
  obtain ⟨hrows, hlength⟩ := of_decide_eq_true hp
  exact ⟨s, log, hrows, hlength, server_alerts quotingPostgres_documented hr⟩

end Server

end TradeSurveillance
