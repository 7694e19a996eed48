import TradeSurveillance.Lemmas.ConsumerFold
import TradeSurveillance.Theorems.ConfusionMatrix

/-!
# A detector is judged as if it were alone

The detectors of a pipeline share its books and nothing else. A pipeline with the detectors of two others goes through the same books,
skips the same events, and raises for each event what the one raises and then what the other does (`trace_join`).
-/

namespace TradeSurveillance

open Harness

variable {P : Type} [Double P] [LinearOrder P]

/-- An alert has the name of its detector. -/
theorem IDetector.Provided.detectorName {d : IDetector P} (hd : d.Provided) {book : OrderBook P} {e : Event P}
    {accounts : AccountRegistry} {alert : Alert P} (h : alert ∈ (d.step book e accounts).2) : alert.detectorName = d.name := by
  cases hd with
  | washTrade => exact (WashTradeDetector.raisedBy book e accounts h).detectorName
  | spoofingLayering d =>
    change alert ∈ (d.evaluate book e).2 at h
    unfold SpoofingLayeringDetector.evaluate at h
    cases e with
    | execution t => simp at h
    | order o =>
      simp only at h
      split at h
      · simp at h
      · unfold SpoofingLayeringDetector.handleCancel at h
        split at h
        · simp at h
        · simp only [apply_ite Prod.snd, List.mem_ite_nil_left, List.mem_singleton] at h
          obtain ⟨-, -, rfl⟩ := h
          rfl
      · simp at h
  | markingTheClose d => exact (MarkingTheCloseDetector.raisedBy book e accounts h).detectorName
  | frontRunning d => exact (FrontRunningDetector.raisedBy book e accounts h).detectorName
  | statisticalBaseline d => exact (StatisticalBaselineDetector.raisedBy book e h).detectorName
  | mlAnomaly d => cases e <;> exact absurd h List.not_mem_nil

omit [Double P] [LinearOrder P] in
theorem IDetector.step_name (d : IDetector P) (book : OrderBook P) (e : Event P) (accounts : AccountRegistry) :
    (d.step book e accounts).1.name = d.name := rfl

namespace LivePipeline

omit [Double P]

omit [LinearOrder P] in
/-- A pipeline with the detectors of another behind its own. -/
def join (p q : LivePipeline P) : LivePipeline P := { p with detectors := p.detectors ++ q.detectors }

omit [LinearOrder P] in
/-- Two pipelines differ in their detectors only. -/
structure SameBooks (p q : LivePipeline P) : Prop where
  accounts : p.accounts = q.accounts
  books : p.books = q.books
  skipped : p.inconsistentEventsSkipped = q.inconsistentEventsSkipped

/-- What an event leads to in a pipeline with the detectors of two. -/
def joinResult (r t : LivePipeline P × ProcessResult P) : LivePipeline P × ProcessResult P :=
  (r.1.join t.1, ⟨r.2.alerts ++ t.2.alerts, r.2.skippedInconsistent⟩)

section Join

variable {p q : LivePipeline P}

theorem SameBooks.process (h : SameBooks p q) (e : Event P) :
    SameBooks (p.process e).1 (q.process e).1 ∧ (p.process e).2.skippedInconsistent = (q.process e).2.skippedInconsistent := by
  have hbook : p.bookOf e.instrumentId = q.bookOf e.instrumentId := by rw [bookOf, bookOf, bookFor, bookFor, h.books]
  refine ⟨⟨?_, ?_, ?_⟩, ?_⟩
  · rw [process_accounts, process_accounts, h.accounts]
  · rw [process_books, process_books, h.books, hbook]
  · unfold LivePipeline.process
    simp only [hbook]
    split <;> simp only [h.skipped]
  · rw [process_skipped, process_skipped, hbook]

omit [LinearOrder P] in
theorem SameBooks.join (h : SameBooks p q) : SameBooks (p.join q) q := ⟨h.accounts, h.books, h.skipped⟩

theorem process_join (h : SameBooks p q) (e : Event P) : (p.join q).process e = joinResult (p.process e) (q.process e) := by
  have hbook : q.bookOf e.instrumentId = p.bookOf e.instrumentId := by rw [bookOf, bookOf, bookFor, bookFor, h.books]
  have hjoin : (p.join q).bookOf e.instrumentId = p.bookOf e.instrumentId := rfl
  unfold LivePipeline.process joinResult
  rw [hjoin, hbook]
  generalize (p.bookOf e.instrumentId).apply e = r
  obtain ⟨book, thrown⟩ := r
  cases thrown with
  | some thrown => rfl
  | none => simp only [LivePipeline.join, List.map_append, List.flatMap_append, h.accounts]

/-- A run with the detectors of two pipelines. -/
theorem trace_join (h : SameBooks p q) (events : List (Event P)) :
    (p.join q).trace events = List.zipWith joinResult (p.trace events) (q.trace events) := by
  induction events generalizing p q with
  | nil => rfl
  | cons e events ih =>
    rw [trace, trace, trace, List.zipWith_cons_cons, process_join h]
    exact congrArg _ (ih (h.process e).1)

/-- The books and the skips of a run. -/
theorem SameBooks.trace (h : SameBooks p q) (events : List (Event P)) :
    List.Forall₂ (fun r t => SameBooks r.1 t.1 ∧ r.2.skippedInconsistent = t.2.skippedInconsistent) (p.trace events)
      (q.trace events) := by
  induction events generalizing p q with
  | nil => exact .nil
  | cons e events ih => exact .cons (h.process e) (ih (h.process e).1)

/-- The alerts that pass a filter, in a pipeline with the detectors of two of which one raises none that pass it. -/
theorem filter_alertsOf_join (h : SameBooks p q) (events : List (Event P)) {keep : Alert P → Bool} :
    ((∀ alert ∈ p.alertsOf events, keep alert = false) → ((p.join q).alertsOf events).filter keep = (q.alertsOf events).filter keep) ∧
      ((∀ alert ∈ q.alertsOf events, keep alert = false) →
        ((p.join q).alertsOf events).filter keep = (p.alertsOf events).filter keep) := by
  induction events generalizing p q with
  | nil => exact ⟨fun _ => rfl, fun _ => rfl⟩
  | cons e events ih =>
    obtain ⟨ihp, ihq⟩ := ih (h.process e).1
    have hjoin : (p.join q).alertsOf (e :: events) = ((p.process e).2.alerts ++ (q.process e).2.alerts) ++
        ((p.process e).1.join (q.process e).1).alertsOf events := by
      rw [alertsOf_cons, process_join h]
      rfl
    simp only [hjoin, alertsOf_cons, List.filter_append, List.mem_append]
    constructor
    · intro hnone
      rw [ihp fun alert ha => hnone alert (Or.inr ha), List.filter_eq_nil_iff.2 fun alert ha => by simp [hnone alert (Or.inl ha)],
        List.nil_append]
    · intro hnone
      rw [ihq fun alert ha => hnone alert (Or.inr ha),
        List.filter_eq_nil_iff (l := (q.process e).2.alerts).2 fun alert ha => by simp [hnone alert (Or.inl ha)], List.append_nil]

end Join

section Names

variable [Double P] {p : LivePipeline P}

/-- The names of the detectors are those before the event, and every alert has one of them. -/
theorem process_names (hp : ∀ d ∈ p.detectors, d.Provided) (e : Event P) :
    (p.process e).1.detectors.map (·.name) = p.detectors.map (·.name) ∧
      ∀ alert ∈ (p.process e).2.alerts, alert.detectorName ∈ p.detectors.map (·.name) := by
  cases ht : ((p.bookOf e.instrumentId).apply e).2 with
  | some thrown =>
    rw [(p.process_of_thrown ht).1, (p.process_of_thrown ht).2.1]
    exact ⟨rfl, by simp⟩
  | none =>
    rw [(p.process_of_applied ht).1, (p.process_of_applied ht).2, List.map_map, List.map_map]
    refine ⟨List.map_congr_left fun d _ => d.step_name _ e _, fun alert ha => ?_⟩
    simp only [List.mem_flatMap, List.mem_map, exists_exists_and_eq_and] at ha
    obtain ⟨d, hd, ha⟩ := ha
    exact List.mem_map.2 ⟨d, hd, ((hp d hd).detectorName ha).symm⟩

theorem alertsOf_names (hp : ∀ d ∈ p.detectors, d.Provided) (events : List (Event P)) :
    ∀ alert ∈ p.alertsOf events, alert.detectorName ∈ p.detectors.map (·.name) := by
  induction events generalizing p with
  | nil => simp [alertsOf, trace]
  | cons e events ih =>
    obtain ⟨hnames, halerts⟩ := process_names hp e
    intro alert ha
    rw [alertsOf_cons, List.mem_append] at ha
    rcases ha with ha | ha
    · exact halerts alert ha
    · rw [← hnames]
      exact ih (process_provided hp e) alert ha

/-- What holds of every alert of a detector of the repository, in any state, holds of every alert of a run. -/
theorem alertsOf_forall {Q : Alert P → Prop} (hQ : ∀ d : IDetector P, d.Provided → ∀ book e accounts, ∀ alert ∈ (d.step book e accounts).2,
    Q alert) (hp : ∀ d ∈ p.detectors, d.Provided) (events : List (Event P)) : ∀ alert ∈ p.alertsOf events, Q alert := by
  induction events generalizing p with
  | nil =>
    intro alert ha
    cases ha
  | cons e events ih =>
    intro alert ha
    rw [alertsOf_cons, List.mem_append] at ha
    rcases ha with ha | ha
    · cases ht : ((p.bookOf e.instrumentId).apply e).2 with
      | some thrown =>
        rw [(p.process_of_thrown ht).2.1] at ha
        cases ha
      | none =>
        rw [(p.process_of_applied ht).2] at ha
        simp only [List.mem_flatMap, List.mem_map, exists_exists_and_eq_and] at ha
        obtain ⟨d, hd, ha⟩ := ha
        exact hQ d (hp d hd) _ _ _ alert ha
    · exact ih (process_provided hp e) alert ha

end Names

end LivePipeline

/-! ## The matrices -/

omit [Double P] in
/-- A confusion matrix is made of the alerts of its detector. -/
theorem Harness.computeConfusionMatrix_filter (alerts : List (Alert P)) (detectorName : Str) (threshold : P)
    (universeIds positiveIds : Finset Str) :
    computeConfusionMatrix (alerts.filter (·.detectorName = detectorName)) detectorName threshold universeIds positiveIds =
      computeConfusionMatrix alerts detectorName threshold universeIds positiveIds := by
  have hpredicted : ∀ predicted : Finset Str,
      (alerts.filter (·.detectorName = detectorName)).foldl (addPredicted detectorName threshold universeIds) predicted =
        alerts.foldl (addPredicted detectorName threshold universeIds) predicted := by
    induction alerts with
    | nil => exact fun _ => rfl
    | cons alert alerts ih =>
      intro predicted
      by_cases hname : alert.detectorName = detectorName
      · rw [List.filter_cons_of_pos (by simpa using hname), List.foldl_cons, List.foldl_cons, ih]
      · rw [List.filter_cons_of_neg (by simpa using hname), List.foldl_cons, ih, addPredicted, if_pos hname]
  unfold computeConfusionMatrix
  rw [hpredicted]

/-- The alerts of a detector among others with other names are those it raises alone. -/
theorem LivePipeline.filter_alertsOf_alone {before after : List (IDetector P)} {d : IDetector P}
    (hd : ∀ x ∈ before ++ d :: after, x.Provided) (hname : ∀ x ∈ before ++ after, x.name ≠ d.name) (accounts : AccountRegistry)
    (events : List (Event P)) :
    ((make (before ++ d :: after) accounts).alertsOf events).filter (·.detectorName = d.name) = (make [d] accounts).alertsOf events := by
  have hsame : ∀ ds ds' : List (IDetector P), (make ds accounts).SameBooks (make ds' accounts) := fun _ _ => ⟨rfl, rfl, rfl⟩
  have hnone : ∀ ds : List (IDetector P), (∀ x ∈ ds, x.Provided ∧ x.name ≠ d.name) →
      ∀ alert ∈ (make ds accounts).alertsOf events, decide (alert.detectorName = d.name) = false := by
    intro ds hds alert ha
    have hmem := alertsOf_names (p := make ds accounts) (fun x hx => (hds x hx).1) events alert ha
    obtain ⟨x, hx, hxname⟩ := List.mem_map.1 hmem
    exact decide_eq_false (hxname ▸ (hds x hx).2)
  have hall : ∀ alert ∈ (make [d] accounts).alertsOf events, decide (alert.detectorName = d.name) = true := by
    intro alert ha
    have hprov : ∀ x ∈ (make [d] accounts).detectors, x.Provided := by
      intro x hx
      rw [List.mem_singleton.1 hx]
      exact hd d (by simp)
    exact decide_eq_true (List.mem_singleton.1 (alertsOf_names hprov events alert ha))
  have hfirst := (filter_alertsOf_join (hsame before (d :: after)) events).1
    (hnone before fun x hx => ⟨hd x (by simp [hx]), hname x (by simp [hx])⟩)
  have hlast := (filter_alertsOf_join (hsame [d] after) events).2
    (hnone after fun x hx => ⟨hd x (by simp [hx]), hname x (by simp [hx])⟩)
  exact hfirst.trans (hlast.trans (List.filter_eq_self.2 hall))

/-- What a run of a pipeline with other detectors has in common with the run of a detector alone. -/
structure JudgedAlone (accounts : AccountRegistry) (detectors : List (IDetector P)) (d : IDetector P) (events : List (Event P)) :
    Prop where
  /-- The same books and the same events skipped, after every event. -/
  books : List.Forall₂ (fun r t => r.1.books = t.1.books ∧ r.2.skippedInconsistent = t.2.skippedInconsistent)
    ((LivePipeline.make detectors accounts).trace events) ((LivePipeline.make [d] accounts).trace events)
  alerts : ((LivePipeline.make detectors accounts).alertsOf events).filter (·.detectorName = d.name) =
    (LivePipeline.make [d] accounts).alertsOf events
  matrices : ∀ (threshold : P) (universeIds positiveIds : Finset Str),
    computeConfusionMatrix ((LivePipeline.make detectors accounts).alertsOf events) d.name threshold universeIds positiveIds =
      computeConfusionMatrix ((LivePipeline.make [d] accounts).alertsOf events) d.name threshold universeIds positiveIds

/-- Whatever other detectors of the repository stand before and behind it, under other names, a detector raises the alerts it would
raise alone, and its confusion matrices are those of a replay with no other detector. -/
theorem detector_judged_alone {before after : List (IDetector P)} {d : IDetector P}
    (hd : ∀ x ∈ before ++ d :: after, x.Provided) (hname : ∀ x ∈ before ++ after, x.name ≠ d.name) (accounts : AccountRegistry)
    (events : List (Event P)) : JudgedAlone accounts (before ++ d :: after) d events := by
  have hsame : (LivePipeline.make (before ++ d :: after) accounts).SameBooks (.make [d] accounts) := ⟨rfl, rfl, rfl⟩
  have hfilter := LivePipeline.filter_alertsOf_alone hd hname accounts events
  refine ⟨(hsame.trace events).imp fun r t h => ⟨h.1.books, h.2⟩, hfilter, fun threshold universeIds positiveIds => ?_⟩
  rw [← computeConfusionMatrix_filter, hfilter]

/-- The rule on front-running, between the rule on wash trades and the scoring detector, on an order and its fill. -/
theorem detector_judged_alone_between :
    JudgedAlone (P := ℚ) .empty [WashTradeDetector.object, (FrontRunningDetector.make {}).object, (MlAnomalyDetector.make {}).object]
      (FrontRunningDetector.make {}).object [.order (toFixOrder bought), .execution (toFixExecution boughtFill .buy)] := by
  refine @detector_judged_alone ℚ _ _ [WashTradeDetector.object] [(MlAnomalyDetector.make {}).object] _ ?_ ?_ .empty _
  · simp only [List.cons_append, List.nil_append, List.forall_mem_cons, List.not_mem_nil, false_implies, implies_true, and_true]
    exact ⟨.washTrade, .frontRunning _, .mlAnomaly _⟩
  · simp only [List.cons_append, List.nil_append, List.forall_mem_cons, List.not_mem_nil, false_implies, implies_true, and_true]
    exact ⟨by decide, by decide⟩

/-! ## The detectors of a replay -/

theorem makeFiveDetectors_names (order : HashOrder) (simulation : Simulator.SimulationOutput P) :
    (makeFiveDetectors order simulation).map (·.name) = [ascii "WashTradeDetector", ascii "SpoofingLayeringDetector",
      ascii "MarkingTheCloseDetector", ascii "FrontRunningDetector", ascii "StatisticalBaselineDetector"] := rfl

/-- A detector of a replay stands among detectors with other names, and is not called as the sixth is. -/
theorem makeFiveDetectors_split {order : HashOrder} {simulation : Simulator.SimulationOutput P} {d : IDetector P}
    (hd : d ∈ makeFiveDetectors order simulation) : ∃ before after, makeFiveDetectors order simulation = before ++ d :: after ∧
      (∀ x ∈ before ++ after, x.name ≠ d.name) ∧ d.name ≠ ascii "MlAnomalyDetector" := by
  obtain ⟨before, after, hsplit⟩ := List.append_of_mem hd
  have hnames := makeFiveDetectors_names order simulation
  have hnodup : ((makeFiveDetectors order simulation).map (·.name)).Nodup := by rw [hnames]; decide
  have hml : ascii "MlAnomalyDetector" ∉ (makeFiveDetectors order simulation).map (·.name) := by rw [hnames]; decide
  refine ⟨before, after, hsplit, fun x hx heq => ?_, fun heq => hml (heq ▸ List.mem_map_of_mem hd)⟩
  rw [hsplit, List.map_append, List.map_cons, List.nodup_middle, List.nodup_cons, ← List.map_append] at hnodup
  exact hnodup.1 (heq ▸ List.mem_map_of_mem hx)

end TradeSurveillance
