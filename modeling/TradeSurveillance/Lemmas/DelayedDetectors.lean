import TradeSurveillance.Detectors.Rules
import TradeSurveillance.Lemmas.AmbientTracker
import TradeSurveillance.Lemmas.ClosingGroups
import TradeSurveillance.Lemmas.UntimedBook

/-!
# What the detectors make of events that all come later

The rules compare timestamps with each other, and the closing volumes with the close, but never with a date: of events that all come
later by the same time, and with a close that does too, a detector makes the same alerts, later by that time (`Delayed.evaluate` of each).
-/

namespace TradeSurveillance

variable {P : Type}

def Order.delay (k : ℤ) (o : Order P) : Order P := { o with timestampNs := o.timestampNs + k }

def Execution.delay (k : ℤ) (x : Execution P) : Execution P := { x with timestampNs := x.timestampNs + k }

/-- A delayed order is stamped `k` later. -/
@[simp] theorem Order.delay_timestampNs (k : ℤ) (o : Order P) : (o.delay k).timestampNs = o.timestampNs + k := rfl

/-- An event that comes later by `k`. -/
def Event.delay (k : ℤ) : Event P → Event P
  | .order o => .order (o.delay k)
  | .execution x => .execution (x.delay k)

/-- Delaying an event is restamping it with its own time plus `k`. -/
theorem Event.delay_eq_atTime (k : ℤ) (e : Event P) : e.delay k = e.atTime (e.timestampNs + k) := by
  cases e <;> rfl

/-- An alert whose window is later by `k`. -/
def Alert.delay (k : ℤ) (a : Alert P) : Alert P :=
  { a with windowStartNs := a.windowStartNs + k, windowEndNs := a.windowEndNs + k }

variable [Double P] [LinearOrder P] {k : ℤ} {book book' : OrderBook P}

/-! ## Rules without a clock -/

/-- The wash-trade detector alerts on a delayed event as on the event, `k` later. -/
theorem WashTradeDetector.evaluate_delay (h : book.Alike book') (e : Event P) (accounts : AccountRegistry) :
    evaluate book' (e.delay k) accounts = (evaluate book e accounts).map (Alert.delay k) := by
  cases e with
  | order o => rfl
  | execution x =>
    simp only [Event.delay, Execution.delay, evaluate, ← h.snapshotSequence]
    split
    · rfl
    · split <;> rfl

/-- The baseline detector keeps no times: it moves to the same state and its alert is `k` later. -/
theorem StatisticalBaselineDetector.evaluate_delay (h : book.Alike book') (d : StatisticalBaselineDetector P) (e : Event P) :
    d.evaluate book' (e.delay k) = ((d.evaluate book e).1, (d.evaluate book e).2.map (Alert.delay k)) := by
  cases e with
  | execution x => rfl
  | order o =>
    simp only [Event.delay, Order.delay, evaluate, alertsFor, ← h.snapshotSequence]
    split
    · rfl
    · refine Prod.ext rfl ?_
      simp only
      split
      · rfl
      · split
        · rfl
        · split <;> rfl

/-! ## Front running -/

def RecentOrder.delay (k : ℤ) (r : RecentOrder) : RecentOrder := { r with timestampNs := r.timestampNs + k }

namespace FrontRunningDetector

/-- A detector whose orders all came later. -/
structure Delayed (k : ℤ) (d d' : FrontRunningDetector P) : Prop where
  config : d'.config = d.config
  recent : RelatedMaps (fun l l' => l' = l.map (RecentOrder.delay k)) d.recentByKey d'.recentByKey

/-- The orders that are in the window of a New order. -/
def inWindow (d : FrontRunningDetector P) (o : Order P) : List RecentOrder :=
  ((d.recentByKey.lookup (instrumentSideKey o.instrumentId o.side)).getD []).filter fun r =>
    |o.timestampNs - r.timestampNs| ≤ d.config.lookbackWindowNs

/-- What a New order does to the map of recent orders and which alerts it raises, in one equation. -/
theorem handleNew_eq (d : FrontRunningDetector P) (o : Order P) (accounts : AccountRegistry) (sequence : ℤ) :
    d.handleNew o accounts sequence =
      (⟨d.config, d.recentByKey.insert (instrumentSideKey o.instrumentId o.side)
          (d.inWindow o ++ [⟨o.accountId, o.orderId, o.qty, o.timestampNs⟩])⟩,
        ((d.inWindow o).filter (reacts d.config o accounts)).map fun prior => alertFor o prior sequence) := rfl

/-- Whether an order reacts to a prior one depends on the difference of their times only. -/
theorem reacts_delay (config : FrontRunningConfig P) (o : Order P) (accounts : AccountRegistry) (prior : RecentOrder) :
    reacts config (o.delay k) accounts (prior.delay k) = reacts config o accounts prior := by
  refine congrArg₂ (· && ·) rfl (decide_eq_decide.2 ?_)
  simp [RecentOrder.delay, Order.delay]

omit [LinearOrder P] in
/-- The alert of a delayed pair is the delayed alert of the pair. -/
theorem alertFor_delay (o : Order P) (prior : RecentOrder) (sequence : ℤ) :
    alertFor (o.delay k) (prior.delay k) sequence = (alertFor o prior sequence).delay k := by
  simp [alertFor, RecentOrder.delay, Order.delay, Alert.delay]

variable {d d' : FrontRunningDetector P}

omit [LinearOrder P] in
/-- The delayed detector finds the same prior orders inside the window, each `k` later. -/
theorem Delayed.inWindow (hd : Delayed k d d') (o : Order P) :
    d'.inWindow (o.delay k) = (d.inWindow o).map (RecentOrder.delay k) := by
  have hrecent : (d'.recentByKey.lookup (instrumentSideKey o.instrumentId o.side)).getD [] =
      ((d.recentByKey.lookup (instrumentSideKey o.instrumentId o.side)).getD []).map (RecentOrder.delay k) :=
    hd.recent.getD (d := []) rfl _
  unfold FrontRunningDetector.inWindow
  simp only [Order.delay, hrecent, hd.config, List.filter_map]
  simp only [Function.comp_def, RecentOrder.delay, add_sub_add_right_eq_sub]

/-- One New order keeps two front-running detectors `k` apart, alerts included. -/
theorem Delayed.handleNew (hd : Delayed k d d') (o : Order P) (accounts : AccountRegistry) (sequence : ℤ) :
    Delayed k (d.handleNew o accounts sequence).1 (d'.handleNew (o.delay k) accounts sequence).1 ∧
      (d'.handleNew (o.delay k) accounts sequence).2 = (d.handleNew o accounts sequence).2.map (Alert.delay k) := by
  rw [handleNew_eq, handleNew_eq, hd.inWindow o]
  refine ⟨⟨hd.config, hd.recent.insert ?_ _⟩, ?_⟩
  · rw [List.map_append]
    rfl
  · simp only [hd.config, List.filter_map, List.map_map, Function.comp_def, reacts_delay, alertFor_delay]

/-- One event keeps two front-running detectors `k` apart, alerts included. -/
theorem Delayed.evaluate (hd : Delayed k d d') (h : book.Alike book') (e : Event P) (accounts : AccountRegistry) :
    Delayed k (d.evaluate book e accounts).1 (d'.evaluate book' (e.delay k) accounts).1 ∧
      (d'.evaluate book' (e.delay k) accounts).2 = (d.evaluate book e accounts).2.map (Alert.delay k) := by
  cases e with
  | execution x => exact ⟨hd, rfl⟩
  | order o =>
    by_cases hst : o.status = .new
    · have hst' : (o.delay k).status = .new := hst
      simp only [Event.delay, FrontRunningDetector.evaluate, if_pos hst, if_pos hst', ← h.snapshotSequence]
      exact hd.handleNew o accounts book.snapshotSequence
    · have hst' : ¬(o.delay k).status = .new := hst
      simp only [Event.delay, FrontRunningDetector.evaluate, if_neg hst, if_neg hst']
      exact ⟨hd, rfl⟩

end FrontRunningDetector

/-! ## Marking the close -/

namespace MarkingTheCloseDetector

omit [LinearOrder P] in
/-- The detector with other closing times. -/
def reclose (d : MarkingTheCloseDetector P) (times : Map Str ℤ) : MarkingTheCloseDetector P :=
  { d with config := { d.config with closeTimeNsByInstrument := times } }

/-- A detector whose closes all come later. -/
def Delayed (k : ℤ) (d d' : MarkingTheCloseDetector P) : Prop :=
  ∃ times, RelatedMaps (fun t t' => t' = t + k) d.config.closeTimeNsByInstrument times ∧ d' = d.reclose times

section Reclose

variable (d : MarkingTheCloseDetector P) (times : Map Str ℤ) (accountId : Str) (accounts : AccountRegistry)

omit [LinearOrder P] in
/-- Registering an account does not read the close times. -/
theorem registerAndGroup_reclose :
    (d.reclose times).registerAndGroup accountId accounts = (d.registerAndGroup accountId accounts).reclose times := by
  unfold registerAndGroup
  change (if accountId ∈ d.allAccountsSeen then _ else _) = _
  split <;> rfl

omit [LinearOrder P] in
/-- Nor does collecting the members of its group. -/
theorem groupMembers_reclose : (d.reclose times).groupMembers accountId =
    ((d.groupMembers accountId).1, (d.groupMembers accountId).2.reclose times) := rfl

/-- The check of one account commutes with moving the close times, window and event by `k`. -/
theorem checkAccount_reclose (instrumentId : Str) (windowStartNs eventTs sequence : ℤ) :
    (d.reclose times).checkAccount instrumentId accountId (windowStartNs + k) (eventTs + k) sequence accounts =
      ((d.checkAccount instrumentId accountId windowStartNs eventTs sequence accounts).1.reclose times,
        (d.checkAccount instrumentId accountId windowStartNs eventTs sequence accounts).2.map (Alert.delay k)) := by
  unfold checkAccount
  simp only [registerAndGroup_reclose, groupMembers_reclose]
  generalize (d.registerAndGroup accountId accounts).groupMembers accountId = r
  obtain ⟨members, d⟩ := r
  simp only
  by_cases halerted : (members.any fun member => decide (keyFor instrumentId member ∈ d.alerted)) = true
  · rw [if_pos halerted]
    exact if_pos halerted
  rw [if_neg halerted]
  refine (if_neg halerted).trans ?_
  by_cases hgroup : sum64 (members.map (d.windowQty instrumentId)) < d.config.minAccountQtyThreshold
  · rw [if_pos hgroup]
    exact if_pos hgroup
  rw [if_neg hgroup]
  refine (if_neg hgroup).trans ?_
  by_cases htotal : (d.totalWindowQty.lookup instrumentId).getD 0 < d.config.minTotalWindowQtyThreshold
  · rw [if_pos htotal]
    exact if_pos htotal
  rw [if_neg htotal]
  refine (if_neg htotal).trans ?_
  by_cases hshare : ((sum64 (members.map (d.windowQty instrumentId)) : ℤ) : P) /
      (((d.totalWindowQty.lookup instrumentId).getD 0 : ℤ) : P) < d.config.concentrationThreshold
  · rw [if_pos hshare]
    exact if_pos hshare
  · rw [if_neg hshare]
    exact if_neg hshare

end Reclose

/-! Executions -/

section Executions

variable (d : MarkingTheCloseDetector P) (times : Map Str ℤ) (x : Execution P)

omit [LinearOrder P] in
/-- Adding a trade to the window totals does not read the close times. -/
theorem counted_reclose : (d.reclose times).counted (x.delay k) = (d.counted x).reclose times := by
  have hsides : sides (x.delay k) = sides x := rfl
  unfold counted
  rw [hsides]
  unfold sides
  split <;> rfl

/-- Checking one account leaves the configuration alone. -/
theorem checkAccount_config (instrumentId accountId : Str) (windowStartNs eventTs sequence : ℤ) (accounts : AccountRegistry) :
    (d.checkAccount instrumentId accountId windowStartNs eventTs sequence accounts).1.config = d.config := by
  have hregister : (d.registerAndGroup accountId accounts).config = d.config := by
    unfold registerAndGroup
    split <;> rfl
  unfold checkAccount
  simp only [groupMembers, apply_ite Prod.fst, apply_ite MarkingTheCloseDetector.config, hregister, ite_self]

/-- So does checking a list of accounts. -/
theorem checkAll_config (instrumentId : Str) (windowStartNs eventTs sequence : ℤ) (accounts : AccountRegistry) (as : List Str) :
    (checkAll (fun d a => d.checkAccount instrumentId a windowStartNs eventTs sequence accounts) d as).1.config = d.config := by
  induction as generalizing d with
  | nil => rfl
  | cons a as ih => rw [checkAll, ih, checkAccount_config]

/-- The check of a list of accounts commutes with moving the close times, window and event by `k`. -/
theorem checkAll_reclose (instrumentId : Str) (windowStartNs eventTs sequence : ℤ) (accounts : AccountRegistry) (as : List Str) :
    checkAll (fun d a => d.checkAccount instrumentId a (windowStartNs + k) (eventTs + k) sequence accounts) (d.reclose times) as =
      ((checkAll (fun d a => d.checkAccount instrumentId a windowStartNs eventTs sequence accounts) d as).1.reclose times,
        (checkAll (fun d a => d.checkAccount instrumentId a windowStartNs eventTs sequence accounts) d as).2.map (Alert.delay k)) := by
  induction as generalizing d with
  | nil => rfl
  | cons a as ih =>
    rw [checkAll, checkAll, checkAccount_reclose]
    simp only [ih, List.map_append, Option.toList_map]

omit [LinearOrder P] in
/-- A delayed trade is in the delayed closing window exactly when the trade is in the window. -/
theorem inWindow_reclose (htimes : RelatedMaps (fun t t' => t' = t + k) d.config.closeTimeNsByInstrument times) :
    inWindow (d.reclose times).config (x.delay k) = inWindow d.config x := by
  have hclose : (d.reclose times).config.closeTimeNsByInstrument.lookup (x.delay k).instrumentId = times.lookup x.instrumentId := rfl
  have hduration : (d.reclose times).config.windowDurationNs = d.config.windowDurationNs := rfl
  have htimestamp : (x.delay k).timestampNs = x.timestampNs + k := rfl
  unfold inWindow
  rw [hclose, hduration, htimestamp]
  rcases htimes.lookup_cases x.instrumentId with ⟨hl, hl'⟩ | ⟨closeTs, closeTs', hl, hl', rfl⟩
  · rw [hl, hl']
  · simp only [hl, hl', decide_eq_decide]
    omega

end Executions

/-- One event keeps two marking-the-close detectors `k` apart, alerts included. -/
theorem Delayed.evaluate {d d' : MarkingTheCloseDetector P} (hd : Delayed k d d') (h : book.Alike book') (e : Event P)
    (accounts : AccountRegistry) : Delayed k (d.evaluate book e accounts).1 (d'.evaluate book' (e.delay k) accounts).1 ∧
      (d'.evaluate book' (e.delay k) accounts).2 = (d.evaluate book e accounts).2.map (Alert.delay k) := by
  cases e with
  | order o => exact ⟨hd, rfl⟩
  | execution x =>
    obtain ⟨times, htimes, rfl⟩ := hd
    have hwindow := inWindow_reclose d times x htimes
    cases hx : inWindow d.config x with
    | false =>
      rw [evaluate_of_not_inWindow book hx, Event.delay, evaluate_of_not_inWindow book' (hwindow.trans hx)]
      exact ⟨⟨times, htimes, rfl⟩, rfl⟩
    | true =>
      rcases htimes.lookup_cases x.instrumentId with ⟨hl, -⟩ | ⟨closeTs, closeTs', hl, hl', rfl⟩
      · rw [inWindow, hl] at hx
        cases hx
      · have hstart : closeTs + k - d.config.windowDurationNs = closeTs - d.config.windowDurationNs + k := by omega
        have hrun : (d.reclose times).evaluate book' (.execution (x.delay k)) accounts =
            checkAll (fun c a => c.checkAccount x.instrumentId a (closeTs + k - d.config.windowDurationNs) (x.timestampNs + k)
              book'.snapshotSequence accounts) ((d.reclose times).counted (x.delay k)) (sides x) :=
          evaluate_eq_checkAll book' hl' (hwindow.trans hx)
        rw [hstart, counted_reclose, checkAll_reclose, ← h.snapshotSequence] at hrun
        rw [Event.delay, hrun, evaluate_eq_checkAll book hl hx]
        refine ⟨⟨times, ?_, rfl⟩, rfl⟩
        rw [checkAll_config, counted_config]
        exact htimes

end MarkingTheCloseDetector

/-! ## Spoofing and layering -/

def TrackedOrder.delay (k : ℤ) (t : TrackedOrder P) : TrackedOrder P := { t with placedTs := t.placedTs + k }

omit [Double P] [LinearOrder P] in
/-- A delay keeps the tracked order's account. -/
@[simp] theorem TrackedOrder.delay_accountId (t : TrackedOrder P) : (t.delay k).accountId = t.accountId := rfl

omit [Double P] [LinearOrder P] in
/-- A delay keeps its instrument. -/
@[simp] theorem TrackedOrder.delay_instrumentId (t : TrackedOrder P) : (t.delay k).instrumentId = t.instrumentId := rfl

omit [Double P] [LinearOrder P] in
/-- A delay keeps its side. -/
@[simp] theorem TrackedOrder.delay_side (t : TrackedOrder P) : (t.delay k).side = t.side := rfl

omit [Double P] [LinearOrder P] in
/-- A delay moves the time it was placed. -/
@[simp] theorem TrackedOrder.delay_placedTs (t : TrackedOrder P) : (t.delay k).placedTs = t.placedTs + k := rfl

omit [Double P] [LinearOrder P] in
/-- A delay keeps its depth ratio. -/
@[simp] theorem TrackedOrder.delay_depth (t : TrackedOrder P) : (t.delay k).depthRatioAtPlacement = t.depthRatioAtPlacement := rfl

def ConcurrentSample.delay (k : ℤ) (s : ConcurrentSample) : ConcurrentSample := { s with timestampNs := s.timestampNs + k }

def AmbientTracker.delay (k : ℤ) (t : AmbientTracker P) : AmbientTracker P where
  recentMoveTimestamps := t.recentMoveTimestamps.map (· + k)
  recentConcurrentSamples := t.recentConcurrentSamples.map (ConcurrentSample.delay k)
  lastBestPrice := t.lastBestPrice

omit [Double P] in
/-- Observing a price `k` later in a delayed tracker is the delayed observation. -/
theorem AmbientTracker.observe_delay (t : AmbientTracker P) (width : ℤ) (price : Option P) (ts : ℤ) :
    (t.observe width price ts).delay k = (t.delay k).observe width price (ts + k) := by
  have hmoves : ((if moved t.lastBestPrice price then t.recentMoveTimestamps ++ [ts] else t.recentMoveTimestamps).map (· + k)) =
      if moved t.lastBestPrice price then t.recentMoveTimestamps.map (· + k) ++ [ts + k] else t.recentMoveTimestamps.map (· + k) := by
    split <;> simp
  have hfilter : ∀ moves : List ℤ, (moves.filter fun move => decide (|ts - move| ≤ width)).map (· + k) =
      (moves.map (· + k)).filter fun move => decide (|ts + k - move| ≤ width) := by
    intro moves
    simp only [List.filter_map, Function.comp_def, add_sub_add_right_eq_sub]
  simp only [AmbientTracker.delay, observe, hfilter, hmoves]
  simp only [List.filter_map, Function.comp_def, ConcurrentSample.delay, add_sub_add_right_eq_sub]
  rfl

omit [Double P] [LinearOrder P] in
/-- Recording a delayed sample in a delayed tracker is the delayed record. -/
theorem AmbientTracker.record_delay (t : AmbientTracker P) (s : ConcurrentSample) :
    (t.record [s]).delay k = (t.delay k).record [s.delay k] := by
  simp [AmbientTracker.delay, record]

namespace SpoofingLayeringDetector

/-- A detector whose orders, moves and samples all came later. -/
structure Delayed (k : ℤ) (d d' : SpoofingLayeringDetector P) : Prop where
  config : d'.config = d.config
  tracked : RelatedMaps (fun t t' => t' = t.delay k) d.tracked d'.tracked
  trackers : RelatedMaps (fun t t' => t' = t.delay k) d.ambientByInstrumentSide d'.ambientByInstrumentSide
  counts : d'.concurrentCountByKey = d.concurrentCountByKey

/-- Whether the opposite price moved favourably does not depend on when the order was placed. -/
theorem movedFavorably_delay (config : SpoofingLayeringConfig P) (t : TrackedOrder P) (oppositeNow : Option P) :
    movedFavorably config (t.delay k) oppositeNow = movedFavorably config t oppositeNow := rfl

/-- The entry of a New or a Replace. -/
def placed (book : OrderBook P) (o : Order P) : TrackedOrder P where
  accountId := o.accountId
  instrumentId := o.instrumentId
  side := o.side
  remainingQty := o.qty
  placedTs := o.timestampNs
  depthRatioAtPlacement :=
    if book.qtyAtPrice o.side o.price > 0 then (o.qty : P) / (book.qtyAtPrice o.side o.price : P) else 0.0
  oppositeBestAtPlacement := book.bestPrice o.side.opposite

/-- The tracked order built from a delayed order is the delayed tracked order. -/
theorem placed_delay (h : book.Alike book') (o : Order P) : placed book' (o.delay k) = (placed book o).delay k := by
  simp only [placed, Order.delay, TrackedOrder.delay, h.qtyAtPrice, h.bestPrice]
  rfl

/-- What `trackNew` changes, in one record update. -/
theorem trackNew_eq (d : SpoofingLayeringDetector P) (book : OrderBook P) (o : Order P) : d.trackNew book o =
    { d with
      tracked := d.tracked.insert o.orderId (placed book o)
      concurrentCountByKey := d.concurrentCountByKey.insert (concurrencyKey o.accountId o.instrumentId o.side)
        ((d.concurrentCountByKey.lookup (concurrencyKey o.accountId o.instrumentId o.side)).getD 0 + 1)
      ambientByInstrumentSide := d.ambientByInstrumentSide.insert (instrumentSideKey o.instrumentId o.side)
        ((d.ambient o.instrumentId o.side).record [⟨o.timestampNs, o.accountId,
          (d.concurrentCountByKey.lookup (concurrencyKey o.accountId o.instrumentId o.side)).getD 0 + 1⟩]) } := rfl

namespace Delayed

variable {d d' : SpoofingLayeringDetector P}

omit [LinearOrder P] in
/-- The trackers of one side of an instrument are `k` apart. -/
theorem ambient (hd : Delayed k d d') (instrumentId : Str) (side : Side) :
    d'.ambient instrumentId side = (d.ambient instrumentId side).delay k :=
  hd.trackers.getD (d := {}) rfl _

omit [LinearOrder P] in
/-- Storing a tracker and its delay keeps the detectors `k` apart. -/
theorem setAmbient (hd : Delayed k d d') (instrumentId : Str) (side : Side) (tracker : AmbientTracker P) :
    Delayed k (d.setAmbient instrumentId side tracker) (d'.setAmbient instrumentId side (tracker.delay k)) :=
  ⟨hd.config, hd.tracked, hd.trackers.insert rfl _, hd.counts⟩

/-- The ambient update of one side keeps the detectors `k` apart. -/
theorem updateAmbientSide (hd : Delayed k d d') (h : book.Alike book') (instrumentId : Str) (eventTs : ℤ) (side : Side) :
    Delayed k (d.updateAmbientSide book instrumentId eventTs side)
      (d'.updateAmbientSide book' instrumentId (eventTs + k) side) := by
  have hupdate : d'.updateAmbientSide book' instrumentId (eventTs + k) side = d'.setAmbient instrumentId side
      ((d'.ambient instrumentId side).observe d'.config.densityWindowNs (book'.bestPrice side) (eventTs + k)) := rfl
  rw [hupdate, hd.ambient, hd.config, ← h.bestPrice, ← AmbientTracker.observe_delay]
  exact hd.setAmbient _ _ _

/-- The ambient update of both sides keeps the detectors `k` apart. -/
theorem updateAmbient (hd : Delayed k d d') (h : book.Alike book') (instrumentId : Str) (eventTs : ℤ) :
    Delayed k (d.updateAmbient book instrumentId eventTs) (d'.updateAmbient book' instrumentId (eventTs + k)) :=
  (hd.updateAmbientSide h instrumentId eventTs .buy).updateAmbientSide h instrumentId eventTs .sell

/-- Tracking a New order and its delay keeps the detectors `k` apart. -/
theorem trackNew (hd : Delayed k d d') (h : book.Alike book') (o : Order P) :
    Delayed k (d.trackNew book o) (d'.trackNew book' (o.delay k)) := by
  rw [trackNew_eq, trackNew_eq, placed_delay h, hd.counts]
  refine ⟨hd.config, hd.tracked.insert rfl _, hd.trackers.insert ?_ _, rfl⟩
  rw [AmbientTracker.record_delay, ← hd.ambient]
  rfl

omit [LinearOrder P] in
/-- Erasing an id keeps the detectors `k` apart and hands back the same order, delayed. -/
theorem eraseTracked (hd : Delayed k d d') (orderId : Str) : Delayed k (d.eraseTracked orderId).1 (d'.eraseTracked orderId).1 ∧
    (d'.eraseTracked orderId).2 = (d.eraseTracked orderId).2.map (TrackedOrder.delay k) := by
  unfold SpoofingLayeringDetector.eraseTracked
  rcases hd.tracked.lookup_cases orderId with ⟨hl, hl'⟩ | ⟨t, t', hl, hl', rfl⟩
  · simp only [hl, hl']
    exact ⟨hd, rfl⟩
  · simp only [hl, hl']
    refine ⟨⟨hd.config, hd.tracked.erase orderId, hd.trackers, ?_⟩, rfl⟩
    rw [hd.counts]
    rfl

/-- A Replace and its delay keep the detectors `k` apart. -/
theorem handleReplace (hd : Delayed k d d') (h : book.Alike book') (o : Order P) :
    Delayed k (d.handleReplace book o) (d'.handleReplace book' (o.delay k)) :=
  (hd.eraseTracked o.origOrderId).1.trackNew h o

omit [LinearOrder P] in
/-- An Execution and its delay keep the detectors `k` apart. -/
theorem handleExecution (hd : Delayed k d d') (x : Execution P) :
    Delayed k (d.handleExecution x) (d'.handleExecution (x.delay k)) := by
  unfold SpoofingLayeringDetector.handleExecution
  simp only [Execution.delay]
  rcases hd.tracked.lookup_cases x.orderId with ⟨hl, hl'⟩ | ⟨t, t', hl, hl', rfl⟩
  · simp only [hl, hl']
    exact hd
  · simp only [hl, hl']
    have hfilled : Delayed k { d with tracked := d.tracked.insert x.orderId { t with remainingQty := wrap64 (t.remainingQty - x.qty) } }
        { d' with tracked := d'.tracked.insert x.orderId ({ t with remainingQty := wrap64 (t.remainingQty - x.qty) }.delay k) } :=
      ⟨hd.config, hd.tracked.insert rfl _, hd.trackers, hd.counts⟩
    change Delayed k (if wrap64 (t.remainingQty - x.qty) ≤ 0 then _ else _) (if wrap64 (t.remainingQty - x.qty) ≤ 0 then _ else _)
    split
    · exact (hfilled.eraseTracked x.orderId).1
    · exact hfilled

/-! Scores -/

omit [LinearOrder P] in
/-- The recent rate of moves is a ratio of counts, equal in both detectors. -/
theorem recentMoveRate (hd : Delayed k d d') (instrumentId : Str) (side : Side) :
    d'.recentMoveRate instrumentId side = d.recentMoveRate instrumentId side := by
  unfold SpoofingLayeringDetector.recentMoveRate
  rw [hd.config]
  rcases hd.trackers.lookup_cases (instrumentSideKey instrumentId side) with ⟨hl, hl'⟩ | ⟨t, t', hl, hl', rfl⟩
  · rw [hl, hl']
  · simp only [hl, hl', AmbientTracker.delay, List.length_map]

omit [LinearOrder P] in
/-- Both detectors count the same concurrent orders. -/
theorem countConcurrent (hd : Delayed k d d') (accountId instrumentId : Str) (side : Side) :
    d'.countConcurrentSameAccountSameSide accountId instrumentId side = d.countConcurrentSameAccountSameSide accountId instrumentId side := by
  rw [countConcurrentSameAccountSameSide, countConcurrentSameAccountSameSide, hd.counts]

/-- The move score depends on the time in the book, not on when it began. -/
theorem moveScore (hd : Delayed k d d') (t : TrackedOrder P) (timeInBookNs : ℤ) :
    d'.moveScore (t.delay k) timeInBookNs = d.moveScore t timeInBookNs := by
  unfold SpoofingLayeringDetector.moveScore
  simp only [TrackedOrder.delay, hd.recentMoveRate, hd.config]

omit [LinearOrder P] in
/-- Both detectors hold the same typical concurrency. -/
theorem typicalConcurrent (hd : Delayed k d d') (t : TrackedOrder P) :
    d'.typicalConcurrent (t.delay k) = d.typicalConcurrent t := by
  unfold SpoofingLayeringDetector.typicalConcurrent
  simp only [TrackedOrder.delay]
  rcases hd.trackers.lookup_cases (instrumentSideKey t.instrumentId t.side) with ⟨hl, hl'⟩ | ⟨a, a', hl, hl', rfl⟩
  · rw [hl, hl']
  · simp only [hl, hl', AmbientTracker.delay, List.filter_map, List.foldl_map, List.length_map, Function.comp_def,
      ConcurrentSample.delay]
    rfl

omit [LinearOrder P] in
/-- No alert, or the same one later. -/
theorem ite (hd : Delayed k d d') (c : Prop) [Decidable c] {alerts alerts' : List (Alert P)}
    (halerts : alerts' = alerts.map (Alert.delay k)) :
    Delayed k (if c then (d, []) else (d, alerts)).1 (if c then (d', []) else (d', alerts')).1 ∧
      (if c then (d', []) else (d', alerts')).2 = (if c then (d, []) else (d, alerts)).2.map (Alert.delay k) := by
  split
  · exact ⟨hd, rfl⟩
  · exact ⟨hd, halerts⟩

/-- A Cancel and its delay keep the detectors `k` apart, alerts included. -/
theorem handleCancel (hd : Delayed k d d') (h : book.Alike book') (o : Order P) :
    Delayed k (d.handleCancel book o).1 (d'.handleCancel book' (o.delay k)).1 ∧
      (d'.handleCancel book' (o.delay k)).2 = (d.handleCancel book o).2.map (Alert.delay k) := by
  obtain ⟨he, ht⟩ := hd.eraseTracked o.origOrderId
  have horig : (o.delay k).origOrderId = o.origOrderId := rfl
  unfold SpoofingLayeringDetector.handleCancel
  rw [horig]
  generalize d.eraseTracked o.origOrderId = r at he ht ⊢
  generalize d'.eraseTracked o.origOrderId = r' at he ht ⊢
  obtain ⟨e, t⟩ := r
  obtain ⟨e', t'⟩ := r'
  obtain rfl : t' = t.map (TrackedOrder.delay k) := ht
  cases t with
  | none => exact ⟨he, rfl⟩
  | some t =>
    change Delayed k e e' at he
    have hcount := he.countConcurrent t.accountId t.instrumentId t.side
    simp only [Option.map_some, TrackedOrder.delay_placedTs, Order.delay_timestampNs, add_lt_add_iff_right, add_sub_add_right_eq_sub,
      he.config, he.moveScore, he.typicalConcurrent, movedFavorably_delay, TrackedOrder.delay_side, TrackedOrder.delay_accountId,
      TrackedOrder.delay_instrumentId, TrackedOrder.delay_depth, ← h.bestPrice, ← h.snapshotSequence, hcount]
    split
    · exact ⟨he, rfl⟩
    · exact he.ite _ rfl

/-- One event keeps two spoofing detectors `k` apart, alerts included. -/
theorem evaluate (hd : Delayed k d d') (h : book.Alike book') (e : Event P) :
    Delayed k (d.evaluate book e).1 (d'.evaluate book' (e.delay k)).1 ∧
      (d'.evaluate book' (e.delay k)).2 = (d.evaluate book e).2.map (Alert.delay k) := by
  cases e with
  | execution x => exact ⟨(hd.updateAmbient h x.instrumentId x.timestampNs).handleExecution x, rfl⟩
  | order o =>
    have hambient := hd.updateAmbient h o.instrumentId o.timestampNs
    cases hst : o.status with
    | new =>
      rw [Event.delay, evaluate_new d book hst, evaluate_new d' book' (o := o.delay k) hst]
      exact ⟨hambient.trackNew h o, rfl⟩
    | cancelled =>
      rw [Event.delay, evaluate_cancelled d book hst, evaluate_cancelled d' book' (o := o.delay k) hst]
      exact hambient.handleCancel h o
    | replaced =>
      rw [Event.delay, evaluate_replaced d book hst, evaluate_replaced d' book' (o := o.delay k) hst]
      exact ⟨hambient.handleReplace h o, rfl⟩

end Delayed

end SpoofingLayeringDetector

end TradeSurveillance
