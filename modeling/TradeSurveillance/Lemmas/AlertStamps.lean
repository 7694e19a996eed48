import TradeSurveillance.Detectors.MarkingTheClose
import TradeSurveillance.Detectors.Rules
import TradeSurveillance.Lemmas.PipelineBooks
import TradeSurveillance.Lemmas.SpoofingTracked
import TradeSurveillance.MlClient.AnomalyDetector

/-!
# What an alert refers to

Every alert of the repository's detectors names the sequence number of the book it was evaluated against, and the instrument of the
event; for the spoofing detector this needs that the order a Cancel names was tracked on the same instrument (`TracksInstrument`).
-/

namespace TradeSurveillance

variable {P : Type} [Double P] [LinearOrder P]

/-- An alert about an instrument, at this book. -/
structure Alert.RefersTo (alert : Alert P) (instrumentId : Str) (book : OrderBook P) : Prop where
  instrumentId : alert.instrumentId = instrumentId
  sequence : alert.bookSnapshotSequence = some book.snapshotSequence

/-- An alert of a detector, about an instrument, at this book. -/
structure Alert.RaisedBy (alert : Alert P) (name instrumentId : Str) (book : OrderBook P) : Prop
    extends alert.RefersTo instrumentId book where
  detectorName : alert.detectorName = name

/-- The order that a Cancel names is tracked, if at all, on the instrument of the Cancel. -/
def SpoofingLayeringDetector.TracksInstrument (d : SpoofingLayeringDetector P) : Event P → Prop
  | .order o => o.status = .cancelled → ∀ t, d.tracked.lookup o.origOrderId = some t → t.instrumentId = o.instrumentId
  | .execution _ => True

/-- The detectors of the repository, in any state. -/
inductive IDetector.Provided : IDetector P → Prop where
  | washTrade : Provided WashTradeDetector.object
  | spoofingLayering (d : SpoofingLayeringDetector P) : Provided d.object
  | markingTheClose (d : MarkingTheCloseDetector P) : Provided d.object
  | frontRunning (d : FrontRunningDetector P) : Provided d.object
  | statisticalBaseline (d : StatisticalBaselineDetector P) : Provided d.object
  | mlAnomaly (d : MlAnomalyDetector P) : Provided d.object

/-! ## One detector -/

section Detectors

variable (book : OrderBook P) (e : Event P) (accounts : AccountRegistry)

omit [LinearOrder P] in
/-- An alert of the wash-trade rule has its name, the instrument of the event and the sequence number of the book. -/
theorem WashTradeDetector.raisedBy {alert : Alert P} (h : alert ∈ evaluate book e accounts) :
    alert.RaisedBy (ascii "WashTradeDetector") e.instrumentId book := by
  unfold evaluate at h
  cases e with
  | order o => simp at h
  | execution t =>
    simp only [List.mem_ite_nil_left, List.mem_singleton] at h
    obtain ⟨-, -, rfl⟩ := h
    exact ⟨⟨rfl, rfl⟩, rfl⟩

/-- An alert of the spoofing rule refers to the event's instrument, where the order cancelled is tracked on it. -/
theorem SpoofingLayeringDetector.refersTo {d : SpoofingLayeringDetector P} (hd : d.TracksInstrument e) {alert : Alert P}
    (h : alert ∈ (d.evaluate book e).2) : alert.RefersTo e.instrumentId book := by
  unfold evaluate at h
  cases e with
  | execution t => simp at h
  | order o =>
    simp only at h
    split at h
    · simp at h
    · rename_i hst
      unfold handleCancel at h
      split at h
      · simp at h
      · rename_i d' tracked heq
        have ht := lookup_of_eraseTracked heq
        simp only [apply_ite Prod.snd, List.mem_ite_nil_left, List.mem_singleton] at h
        obtain ⟨-, -, rfl⟩ := h
        exact ⟨hd hst tracked ht, rfl⟩
    · simp at h

/-- An alert of a check of an account is raised by the marking-the-close rule, about the instrument checked. -/
theorem MarkingTheCloseDetector.checkAccount_raisedBy {d : MarkingTheCloseDetector P} {i accountId : Str} {ws ts : ℤ}
    {alert : Alert P} (h : (d.checkAccount i accountId ws ts book.snapshotSequence accounts).2 = some alert) :
    alert.RaisedBy (ascii "MarkingTheCloseDetector") i book := by
  unfold checkAccount at h
  simp only [apply_ite Prod.snd, Option.ite_none_left_eq_some, Option.some.injEq] at h
  obtain ⟨-, -, -, -, rfl⟩ := h
  exact ⟨⟨rfl, rfl⟩, rfl⟩

/-- So is one of its `evaluate`, about the event's instrument. -/
theorem MarkingTheCloseDetector.raisedBy {d : MarkingTheCloseDetector P} {alert : Alert P}
    (h : alert ∈ (d.evaluate book e accounts).2) : alert.RaisedBy (ascii "MarkingTheCloseDetector") e.instrumentId book := by
  unfold evaluate at h
  cases e with
  | order o => simp at h
  | execution t =>
    simp only at h
    unfold handleExecution at h
    split at h
    · simp at h
    · simp only at h
      split at h
      · simp at h
      · split at h
        · simp only [List.mem_append, Option.mem_toList] at h
          rcases h with h | h <;> exact checkAccount_raisedBy book accounts h
        · simp only [Option.mem_toList] at h
          exact checkAccount_raisedBy book accounts h

/-- An alert of the front-running rule is about the event's instrument. -/
theorem FrontRunningDetector.raisedBy {d : FrontRunningDetector P} {alert : Alert P}
    (h : alert ∈ (d.evaluate book e accounts).2) : alert.RaisedBy (ascii "FrontRunningDetector") e.instrumentId book := by
  unfold evaluate at h
  cases e with
  | execution t => simp at h
  | order o =>
    simp only at h
    split at h
    · simp only [handleNew, List.mem_map] at h
      obtain ⟨prior, -, rfl⟩ := h
      exact ⟨⟨rfl, rfl⟩, rfl⟩
    · simp at h

/-- So is an alert of the baseline rule. -/
theorem StatisticalBaselineDetector.raisedBy {d : StatisticalBaselineDetector P} {alert : Alert P}
    (h : alert ∈ (d.evaluate book e).2) : alert.RaisedBy (ascii "StatisticalBaselineDetector") e.instrumentId book := by
  unfold evaluate at h
  cases e with
  | execution t => simp at h
  | order o =>
    simp only at h
    split at h
    · simp at h
    · unfold alertsFor at h
      simp only [List.mem_ite_nil_left, List.mem_singleton] at h
      obtain ⟨-, -, -, rfl⟩ := h
      exact ⟨⟨rfl, rfl⟩, rfl⟩

end Detectors

/-! ## The pipeline -/

namespace IDetector

/-- A detector of the repository remains one. -/
theorem Provided.step (d : IDetector P) (book : OrderBook P) (e : Event P) (accounts : AccountRegistry) (hd : d.Provided) :
    (d.step book e accounts).1.Provided := by
  cases hd with
  | washTrade => exact .washTrade
  | spoofingLayering d => exact .spoofingLayering _
  | markingTheClose d => exact .markingTheClose _
  | frontRunning d => exact .frontRunning _
  | statisticalBaseline d => exact .statisticalBaseline _
  | mlAnomaly d => exact .mlAnomaly _

/-- An alert of a detector of the repository refers to the event's instrument and its book. -/
theorem Provided.refersTo {d : IDetector P} (hd : d.Provided) {book : OrderBook P} {e : Event P} {accounts : AccountRegistry}
    (htracks : ∀ d' : SpoofingLayeringDetector P, d'.object = d → d'.TracksInstrument e) {alert : Alert P}
    (h : alert ∈ (d.step book e accounts).2) : alert.RefersTo e.instrumentId book := by
  cases hd with
  | washTrade => exact (WashTradeDetector.raisedBy book e accounts h).toRefersTo
  | spoofingLayering d => exact SpoofingLayeringDetector.refersTo book e (htracks d rfl) h
  | markingTheClose d => exact (MarkingTheCloseDetector.raisedBy book e accounts h).toRefersTo
  | frontRunning d => exact (FrontRunningDetector.raisedBy book e accounts h).toRefersTo
  | statisticalBaseline d => exact (StatisticalBaselineDetector.raisedBy book e h).toRefersTo
  | mlAnomaly d => cases e <;> exact absurd h (List.not_mem_nil)

end IDetector

namespace LivePipeline

/-- Every spoofing detector of the pipeline tracks the order a Cancel names on the instrument of the Cancel. -/
def TracksInstrument (p : LivePipeline P) (e : Event P) : Prop :=
  ∀ d : SpoofingLayeringDetector P, d.object ∈ p.detectors → d.TracksInstrument e

variable {detectors : List (IDetector P)}

omit [Double P] in
/-- What evaluating keeps of a detector, the detectors of a pipeline keep. -/
theorem run_detectors {Q : IDetector P → Prop} (hstep : ∀ d book e accounts, Q d → Q (d.step book e accounts).1)
    (hd : ∀ d ∈ detectors, Q d) (accounts : AccountRegistry) (events : List (Event P)) :
    ∀ d ∈ (run detectors accounts events).detectors, Q d := by
  induction events using List.reverseRecOn with
  | nil => exact hd
  | append_singleton events e ih =>
    rw [run_concat]
    generalize run detectors accounts events = p at ih ⊢
    cases ht : ((p.bookOf e.instrumentId).apply e).2 with
    | some thrown =>
      rw [(p.process_of_thrown ht).1]
      exact ih
    | none =>
      rw [(p.process_of_applied ht).1]
      simp only [List.mem_map, exists_exists_and_eq_and]
      rintro d ⟨d', hd', rfl⟩
      exact hstep _ _ _ _ (ih d' hd')

/-- The alerts of an event refer to the book it was applied to. -/
theorem process_refersTo {p : LivePipeline P} (hp : ∀ d ∈ p.detectors, d.Provided) {e : Event P} (ht : p.TracksInstrument e)
    {alert : Alert P} (h : alert ∈ (p.process e).2.alerts) :
    alert.RefersTo e.instrumentId ((p.process e).1.bookOf e.instrumentId) := by
  rw [process_bookOf_self]
  cases hthrown : ((p.bookOf e.instrumentId).apply e).2 with
  | some thrown =>
    rw [(p.process_of_thrown hthrown).2.1] at h
    simp at h
  | none =>
    rw [(p.process_of_applied hthrown).2] at h
    simp only [List.mem_flatMap, List.mem_map, exists_exists_and_eq_and] at h
    obtain ⟨d, hd, ha⟩ := h
    exact (hp d hd).refersTo (fun d' hd' => ht d' (hd' ▸ hd)) ha

end LivePipeline

end TradeSurveillance
