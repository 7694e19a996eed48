import TradeSurveillance.Lemmas.SpoofingView

/-!
# What an event does to an ambient tracker

`observe` is what `update_ambient` makes of the tracker of a side, and `samplesOf` what a New or a Replace records in it after that
(`ambient_evaluate`). No other handler touches the trackers.
-/

namespace TradeSurveillance

variable {P : Type} [LinearOrder P]

namespace AmbientTracker

/-- A best price that differs from the last one known. -/
def moved (last price : Option P) : Bool :=
  match last, price with
  | some last, some price => decide (price ≠ last)
  | _, _ => false

/-- A tracker after `update_ambient` with the best price of its side. -/
def observe (tracker : AmbientTracker P) (width : ℤ) (price : Option P) (ts : ℤ) : AmbientTracker P where
  recentMoveTimestamps :=
    (if moved tracker.lastBestPrice price then tracker.recentMoveTimestamps ++ [ts] else tracker.recentMoveTimestamps).filter
      fun move => decide (|ts - move| ≤ width)
  recentConcurrentSamples := tracker.recentConcurrentSamples.filter fun s => decide (|ts - s.timestampNs| ≤ width)
  lastBestPrice := price.or tracker.lastBestPrice

omit [LinearOrder P] in
/-- A tracker with more samples. -/
def record (tracker : AmbientTracker P) (samples : List ConcurrentSample) : AmbientTracker P :=
  { tracker with recentConcurrentSamples := tracker.recentConcurrentSamples ++ samples }

omit [LinearOrder P] in
/-- No samples change nothing. -/
@[simp] theorem record_nil (tracker : AmbientTracker P) : tracker.record [] = tracker := by
  rw [record, List.append_nil]

end AmbientTracker

namespace SpoofingLayeringDetector

variable [Double P] (d : SpoofingLayeringDetector P) (book : OrderBook P) {i j : Str} {ts : ℤ} {o : Order P}

omit [LinearOrder P] in
/-- A tracker depends on the map of the trackers only. -/
theorem ambient_congr {d d' : SpoofingLayeringDetector P} (h : d'.ambientByInstrumentSide = d.ambientByInstrumentSide) (i : Str)
    (s : Side) : d'.ambient i s = d.ambient i s := by
  rw [ambient, ambient, h]

omit [LinearOrder P] in
/-- The tracker of a side is the one stored. -/
@[simp] theorem ambient_setAmbient (i : Str) (s : Side) (tracker : AmbientTracker P) : (d.setAmbient i s tracker).ambient i s = tracker := by
  rw [ambient, setAmbient, Finmap.lookup_insert, Option.getD_some]

omit [LinearOrder P] in
/-- The trackers of other sides and instruments stay. -/
theorem ambient_setAmbient_of_ne {s t : Side} (hkey : ¬(i = j ∧ s = t)) (tracker : AmbientTracker P) :
    (d.setAmbient j t tracker).ambient i s = d.ambient i s := by
  rw [ambient, ambient, setAmbient, Finmap.lookup_insert_of_ne _ fun h => hkey (instrumentSideKey_inj h)]

/-! ## `update_ambient` -/

/-- The ambient update stores the tracker of each side, with the best price observed. -/
theorem lookup_updateAmbient (i : Str) (ts : ℤ) (s : Side) :
    (d.updateAmbient book i ts).ambientByInstrumentSide.lookup (instrumentSideKey i s) =
      some ((d.ambient i s).observe d.config.densityWindowNs (book.bestPrice s) ts) := by
  have hkey : instrumentSideKey i .buy ≠ instrumentSideKey i .sell := fun h => nomatch (instrumentSideKey_inj h).2
  cases s with
  | buy => exact (Finmap.lookup_insert_of_ne _ hkey).trans (Finmap.lookup_insert _)
  | sell =>
    have hsell : (d.updateAmbientSide book i ts .buy).ambient i .sell = d.ambient i .sell :=
      ambient_setAmbient_of_ne (s := .sell) (t := .buy) d (fun h => nomatch h.2) _
    rw [← hsell]
    exact Finmap.lookup_insert _

/-- The tracker of a side after the ambient update of its instrument. -/
theorem ambient_updateAmbient (i : Str) (ts : ℤ) (s : Side) : (d.updateAmbient book i ts).ambient i s =
    (d.ambient i s).observe d.config.densityWindowNs (book.bestPrice s) ts := by
  rw [ambient, lookup_updateAmbient, Option.getD_some]

/-- The ambient update of another instrument leaves it alone. -/
theorem ambient_updateAmbient_of_ne (hij : j ≠ i) (s : Side) : (d.updateAmbient book j ts).ambient i s = d.ambient i s := by
  have hagree : Agree i (fun _ => True) (d.updateAmbient book j ts) d := updateAmbient_other book ts hij d
  exact hagree.ambient_eq s

/-! ## The handlers -/

omit [LinearOrder P] in
/-- Erasing an entry does not touch the trackers. -/
theorem eraseTracked_ambientByInstrumentSide (id : Str) :
    (d.eraseTracked id).1.ambientByInstrumentSide = d.ambientByInstrumentSide := by
  unfold eraseTracked
  split <;> rfl

omit [LinearOrder P] in
/-- Nor does an execution. -/
theorem handleExecution_ambientByInstrumentSide (x : Execution P) :
    (d.handleExecution x).ambientByInstrumentSide = d.ambientByInstrumentSide := by
  unfold handleExecution
  split
  · rfl
  · simp only
    split
    · rw [eraseTracked_ambientByInstrumentSide]
    · rfl

/-- The sample that an event has just made `d` record in the tracker of a side. -/
def samplesOf {P : Type} [Double P] (d : SpoofingLayeringDetector P) (i : Str) (s : Side) : Event P → List ConcurrentSample
  | .order o =>
    if o.status ≠ .cancelled ∧ o.instrumentId = i ∧ o.side = s then
      [⟨o.timestampNs, o.accountId, d.countConcurrentSameAccountSameSide o.accountId i s⟩]
    else []
  | .execution _ => []

/-- What `track_new` adds to the tracker of a side. -/
theorem ambient_trackNew (ho : o.status ≠ .cancelled) (i : Str) (s : Side) :
    (d.trackNew book o).ambient i s = (d.ambient i s).record (samplesOf (d.trackNew book o) i s (.order o)) := by
  by_cases hkey : o.instrumentId = i ∧ o.side = s
  · obtain ⟨rfl, rfl⟩ := hkey
    have hcount : (d.trackNew book o).countConcurrentSameAccountSameSide o.accountId o.instrumentId o.side =
        (d.concurrentCountByKey.lookup (concurrencyKey o.accountId o.instrumentId o.side)).getD 0 + 1 :=
      congrArg (Option.getD · 0) (Finmap.lookup_insert _)
    rw [samplesOf, if_pos ⟨ho, rfl, rfl⟩, hcount]
    exact ambient_setAmbient _ _ _ _
  · rw [samplesOf, if_neg fun h => hkey h.2, AmbientTracker.record_nil]
    exact ambient_setAmbient_of_ne _ (fun h => hkey (h.imp Eq.symm Eq.symm)) _

/-! ## Events -/

/-- An event of the instrument is observed and then recorded. -/
theorem ambient_evaluate (e : Event P) (s : Side) : (d.evaluate book e).1.ambient e.instrumentId s =
    ((d.ambient e.instrumentId s).observe d.config.densityWindowNs (book.bestPrice s) e.timestampNs).record
      (samplesOf (d.evaluate book e).1 e.instrumentId s e) := by
  rw [← ambient_updateAmbient]
  cases e with
  | execution x =>
    rw [samplesOf, AmbientTracker.record_nil]
    exact ambient_congr (handleExecution_ambientByInstrumentSide _ x) _ s
  | order o =>
    cases hst : o.status with
    | new =>
      rw [evaluate_new d book hst]
      exact ambient_trackNew _ book (by simp [hst]) _ s
    | cancelled =>
      rw [evaluate_cancelled d book hst, handleCancel_fst, samplesOf, if_neg fun h => h.1 hst, AmbientTracker.record_nil]
      exact ambient_congr (eraseTracked_ambientByInstrumentSide _ _) _ s
    | replaced =>
      rw [evaluate_replaced d book hst]
      refine (ambient_trackNew _ book (by simp [hst]) _ s).trans (congrArg (AmbientTracker.record · _) ?_)
      exact ambient_congr (eraseTracked_ambientByInstrumentSide _ _) _ s

/-- An event of another instrument leaves the trackers of an instrument alone. -/
theorem ambient_evaluate_of_ne {e : Event P} (he : e.instrumentId ≠ i) (s : Side) :
    (d.evaluate book e).1.ambient i s = d.ambient i s := by
  cases e with
  | execution x =>
    exact (ambient_congr (handleExecution_ambientByInstrumentSide _ x) _ s).trans (ambient_updateAmbient_of_ne d book he s)
  | order o =>
    have hambient : (d.updateAmbient book o.instrumentId o.timestampNs).ambient i s = d.ambient i s :=
      ambient_updateAmbient_of_ne d book he s
    have hsample : ∀ d', samplesOf d' i s (.order o) = [] := fun d' => if_neg fun h => he h.2.1
    cases hst : o.status with
    | new =>
      rw [evaluate_new d book hst, ambient_trackNew _ book (by simp [hst]), hsample, AmbientTracker.record_nil]
      exact hambient
    | cancelled =>
      rw [evaluate_cancelled d book hst, handleCancel_fst]
      exact (ambient_congr (eraseTracked_ambientByInstrumentSide _ _) _ s).trans hambient
    | replaced =>
      rw [evaluate_replaced d book hst, ambient_trackNew _ book (by simp [hst]), hsample, AmbientTracker.record_nil]
      exact (ambient_congr (eraseTracked_ambientByInstrumentSide _ _) _ s).trans hambient

end SpoofingLayeringDetector

end TradeSurveillance
