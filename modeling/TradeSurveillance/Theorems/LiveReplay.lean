import TradeSurveillance.Api.Feed
import TradeSurveillance.Lemmas.AlertStamps
import TradeSurveillance.Lemmas.DoubleArithmetic
import TradeSurveillance.Theorems.CodecRoundTrip

/-!
# Live and replayed sessions are judged alike

`sessions_judged_alike`: the pipeline and its results after each event are the same over FIX and out of Kafka. What an event loses
over FIX is read by no book (`OrderBook.apply_overFix`) and by no detector (`IDetector.Provided.step_overFix`), in any state.
-/

namespace TradeSurveillance

variable {P : Type} [Double P]

/-! ## What is lost -/

/-- What is left of an event over FIX. -/
def Event.overFix : Event P → Event P
  | .order o => .order <| match o.status with
    | .new => { o with origOrderId := [] }
    | .cancelled => { o with
        price := 0.0
        orderType := .limit
        venue := [] }
    | .replaced => o
  | .execution x => .execution x

section Lost

variable [LinearOrder P] {o : Order P}

omit [LinearOrder P] in
/-- A New over FIX is without the id it replaces. -/
theorem Event.overFix_new (h : o.status = .new) : (Event.order o).overFix = .order { o with origOrderId := [] } := by
  simp only [overFix, h]

omit [LinearOrder P] in
/-- A Cancel over FIX is without its price, type and status. -/
theorem Event.overFix_cancelled (h : o.status = .cancelled) : (Event.order o).overFix = .order { o with
    price := 0.0
    orderType := .limit
    venue := [] } := by
  simp only [overFix, h]

omit [LinearOrder P] in
/-- What reads neither what a New order loses nor what a Cancel loses does not read what an event loses. -/
theorem Event.map_overFix {α : Type} (f : Event P → α) (hnew : ∀ o, o.status = .new → f (.order { o with origOrderId := [] }) = f (.order o))
    (hcancelled : ∀ o, o.status = .cancelled → f (.order { o with
      price := 0.0
      orderType := .limit
      venue := [] }) = f (.order o)) (e : Event P) : f e.overFix = f e := by
  cases e with
  | execution x => rfl
  | order o =>
    cases hst : o.status with
    | new =>
      rw [overFix_new hst]
      exact hnew o hst
    | cancelled =>
      rw [overFix_cancelled hst]
      exact hcancelled o hst
    | replaced => simp only [overFix, hst]

omit [LinearOrder P] in
/-- FIX keeps the instrument. -/
@[simp] theorem Event.overFix_instrumentId (e : Event P) : e.overFix.instrumentId = e.instrumentId :=
  e.map_overFix instrumentId (fun _ _ => rfl) fun _ _ => rfl

/-- A book does not read it. -/
theorem OrderBook.apply_overFix (b : OrderBook P) (e : Event P) : b.apply e.overFix = b.apply e := by
  refine e.map_overFix b.apply (fun o hst => ?_) fun o hst => ?_
  · simp only [apply, applyOrder, hst]
    rfl
  · simp only [apply, applyOrder, hst]

variable (book : OrderBook P) (e : Event P) (accounts : AccountRegistry)

omit [LinearOrder P] in
/-- The wash-trade rule does not see the difference. -/
theorem WashTradeDetector.evaluate_overFix : evaluate book e.overFix accounts = evaluate book e accounts := by
  cases e <;> rfl

/-- Nor does the spoofing rule. -/
theorem SpoofingLayeringDetector.evaluate_overFix (d : SpoofingLayeringDetector P) :
    d.evaluate book e.overFix = d.evaluate book e := by
  refine e.map_overFix (d.evaluate book) (fun o hst => ?_) fun o hst => ?_
  · simp only [evaluate, hst]
    rfl
  · simp only [evaluate, hst]
    rfl

/-- Nor does the marking-the-close rule. -/
theorem MarkingTheCloseDetector.evaluate_overFix (d : MarkingTheCloseDetector P) :
    d.evaluate book e.overFix accounts = d.evaluate book e accounts := by
  cases e <;> rfl

/-- Nor does the front-running rule. -/
theorem FrontRunningDetector.evaluate_overFix (d : FrontRunningDetector P) :
    d.evaluate book e.overFix accounts = d.evaluate book e accounts := by
  refine e.map_overFix (d.evaluate book · accounts) (fun o hst => ?_) fun o hst => ?_
  · simp only [evaluate, hst]
    rfl
  · simp only [evaluate, hst, reduceCtorEq, if_false]

/-- Nor does the baseline rule. -/
theorem StatisticalBaselineDetector.evaluate_overFix (d : StatisticalBaselineDetector P) :
    d.evaluate book e.overFix = d.evaluate book e := by
  refine e.map_overFix (d.evaluate book) (fun o hst => ?_) fun o hst => ?_
  · simp only [evaluate, hst]
    rfl
  · simp only [evaluate, hst, ne_eq, reduceCtorEq, not_false_eq_true, if_true]

omit [LinearOrder P] in
/-- Nor does the learned detector. -/
theorem MlAnomalyDetector.evaluate_overFix (d : MlAnomalyDetector P) : d.evaluate book e.overFix = d.evaluate book e := by
  refine e.map_overFix (d.evaluate book) (fun o hst => ?_) fun o hst => ?_
  · simp only [evaluate, handleOrder, tally, hst]
  · simp only [evaluate, handleOrder, tally, hst]

/-- A detector does not read it. -/
theorem IDetector.Provided.step_overFix {d : IDetector P} (h : d.Provided) : d.step book e.overFix accounts = d.step book e accounts := by
  unfold IDetector.step
  cases h with
  | washTrade => simp only [WashTradeDetector.object, WashTradeDetector.evaluate_overFix]
  | spoofingLayering d => simp only [SpoofingLayeringDetector.object, SpoofingLayeringDetector.evaluate_overFix]
  | markingTheClose d => simp only [MarkingTheCloseDetector.object, MarkingTheCloseDetector.evaluate_overFix]
  | frontRunning d => simp only [FrontRunningDetector.object, FrontRunningDetector.evaluate_overFix]
  | statisticalBaseline d => simp only [StatisticalBaselineDetector.object, StatisticalBaselineDetector.evaluate_overFix]
  | mlAnomaly d => simp only [MlAnomalyDetector.object, MlAnomalyDetector.evaluate_overFix]

end Lost

/-! ## The pipeline -/

namespace LivePipeline

variable [LinearOrder P] {p : LivePipeline P}

omit [Double P] in
/-- The pipeline after each event, with the result for the event. The books are in the pipeline, and in the detectors of it what the
scoring detector has submitted. -/
def trace (p : LivePipeline P) : List (Event P) → List (LivePipeline P × ProcessResult P)
  | [] => []
  | e :: es => p.process e :: trace (p.process e).1 es

/-- A pipeline of the repository's detectors does the same with an event and with what is left of it over FIX. -/
theorem process_overFix (hp : ∀ d ∈ p.detectors, d.Provided) (e : Event P) : p.process e.overFix = p.process e := by
  have hsteps : ∀ book, (p.detectors.map fun d => d.step book e.overFix p.accounts) =
      p.detectors.map fun d => d.step book e p.accounts :=
    fun book => List.map_congr_left fun d hd => (hp d hd).step_overFix book e p.accounts
  unfold process
  simp only [Event.overFix_instrumentId, OrderBook.apply_overFix, hsteps]

/-- An event leaves the repository's detectors in it. -/
theorem process_provided (hp : ∀ d ∈ p.detectors, d.Provided) (e : Event P) : ∀ d ∈ (p.process e).1.detectors, d.Provided := by
  cases ht : ((p.bookOf e.instrumentId).apply e).2 with
  | some thrown =>
    rw [(p.process_of_thrown ht).1]
    exact hp
  | none =>
    rw [(p.process_of_applied ht).1]
    intro d hd
    obtain ⟨r, hr, rfl⟩ := List.mem_map.1 hd
    obtain ⟨d', hd', rfl⟩ := List.mem_map.1 hr
    exact IDetector.Provided.step d' _ e _ (hp d' hd')

/-- It goes through events as through what is left of them over FIX. -/
theorem trace_overFix (hp : ∀ d ∈ p.detectors, d.Provided) (events : List (Event P)) :
    p.trace (events.map Event.overFix) = p.trace events := by
  induction events generalizing p with
  | nil => rfl
  | cons e events ih =>
    rw [List.map_cons, trace, trace, process_overFix hp, ih (process_provided hp e)]

end LivePipeline

/-! ## Sessions -/

/-- What a simulated item must be to go either way: no Replace; a finite price that is read back from its seventeen digits; a quantity
that is a double; a timestamp that does not precede the epoch. -/
structure SessionItem.Sendable (item : SessionItem P) : Prop where
  status : ∀ o, item = .order o → o.status ≠ .replaced
  finite : Double.isFinite item.toEvent.price = true
  price : Double.stod (Double.print17 item.toEvent.price) = .ok item.toEvent.price
  qty : |item.toEvent.qty| ≤ 2 ^ 53
  nonneg : 0 ≤ item.toEvent.timestampNs
  timestampNs : item.toEvent.timestampNs < 2 ^ 63

namespace SessionItem

variable {item : SessionItem P}

/-- Over Kafka a sendable item arrives as its event. -/
theorem Sendable.viaKafka (h : item.Sendable) : item.viaKafka = .ok item.toEvent := by
  have hqty := abs_le.1 h.qty
  rw [SessionItem.viaKafka, encode_eq]
  exact decode_members _ h.finite h.price ⟨by omega, by omega⟩ ⟨by have := h.nonneg; omega, h.timestampNs⟩

/-- Over FIX it arrives as what is left of its event. -/
theorem Sendable.viaFix [DoubleRounding P] (hround : ∀ n : ℤ, |n| ≤ 2 ^ 53 → DoubleRounding.llround (n : P) = n) (h : item.Sendable) :
    item.viaFix = .ok [item.toEvent.overFix] := by
  have hqty := hround _ h.qty
  cases item with
  | execution x side =>
    simp only [SessionItem.viaFix, fromExecutionReport_to hqty]
    rfl
  | order o =>
    cases hst : o.status with
    | new =>
      have hnew : (Harness.toFixOrder o).status = .new := by simp [Harness.toFixOrder, hst]
      simp only [SessionItem.viaFix, hst, fromNewOrderSingle_to hnew hqty, toEvent, Event.overFix_new hnew]
      rfl
    | cancelled =>
      have hcancelled : (Harness.toFixOrder o).status = .cancelled := by simp [Harness.toFixOrder, hst]
      simp only [SessionItem.viaFix, hst, fromOrderCancelRequest_to hcancelled hqty, toEvent, Event.overFix_cancelled hcancelled]
      rfl
    | replaced => exact absurd hst (h.status o rfl)

end SessionItem

section Sessions

variable {items : List (SessionItem P)}

/-- The replay hands on the events of the items. -/
theorem replayedEvents_eq (h : ∀ item ∈ items, item.Sendable) : replayedEvents items = .ok (items.map SessionItem.toEvent) :=
  mapM_eq_ok fun item hi => (h item hi).viaKafka

/-- The live path hands on what is left of them over FIX. -/
theorem liveEvents_eq [DoubleRounding P] (hround : ∀ n : ℤ, |n| ≤ 2 ^ 53 → DoubleRounding.llround (n : P) = n)
    (h : ∀ item ∈ items, item.Sendable) : liveEvents items = .ok ((items.map SessionItem.toEvent).map Event.overFix) := by
  have hmap : items.mapM SessionItem.viaFix = .ok (items.map fun item => [item.toEvent.overFix]) :=
    mapM_eq_ok fun item hi => (h item hi).viaFix hround
  rw [liveEvents, hmap, Except.map, ← List.flatMap_def, List.map_map, List.map_eq_flatMap]
  rfl

/-- A session over FIX and the same session out of Kafka leave any detectors of the repository, the books and the alerts alike after
each event. -/
theorem sessions_judged_alike [DoubleRounding P] [LinearOrder P]
    (hround : ∀ n : ℤ, |n| ≤ 2 ^ 53 → DoubleRounding.llround (n : P) = n) (hitems : ∀ item ∈ items, item.Sendable)
    {detectors : List (IDetector P)} (hd : ∀ d ∈ detectors, d.Provided) (accounts : AccountRegistry) :
    ∃ live replayed, liveEvents items = .ok live ∧ replayedEvents items = .ok replayed ∧
      (LivePipeline.make detectors accounts).trace live = (LivePipeline.make detectors accounts).trace replayed :=
  ⟨_, _, liveEvents_eq hround hitems, replayedEvents_eq hitems, LivePipeline.trace_overFix hd _⟩

/-- The detectors of a replay. -/
theorem makeFiveDetectors_provided [LinearOrder P] (order : HashOrder) (simulation : Simulator.SimulationOutput P) :
    ∀ d ∈ Harness.makeFiveDetectors order simulation, d.Provided := by
  unfold Harness.makeFiveDetectors
  simp only [List.forall_mem_cons, List.not_mem_nil, false_implies, implies_true, and_true]
  exact ⟨.washTrade, .spoofingLayering _, .markingTheClose _, .frontRunning _, .statisticalBaseline _⟩

/-- An order. -/
def bought : Simulator.Order ℚ where
  orderId := ascii "ORD-1"
  accountId := ascii "ACC-1"
  instrumentId := ascii "EQ-1"
  side := .buy
  price := 201 / 2
  qty := 10
  orderType := .market
  timestampNs := 1700000000000000000
  status := .new
  venue := ascii "XSIM"
  groundTruthLabel := .default

/-- A fill of the order. -/
def boughtFill : Simulator.Execution ℚ where
  tradeId := ascii "TRD-1"
  orderId := ascii "ORD-1"
  accountId := ascii "ACC-1"
  instrumentId := ascii "EQ-1"
  price := 201 / 2
  qty := 4
  timestampNs := 1700000000000000001
  counterpartyAccountId := ascii "ACC-2"
  venue := ascii "XSIM"
  groundTruthLabel := .default

/-- The order is filled in part and then cancelled. -/
def filledThenCancelled : List (SessionItem ℚ) :=
  [.order bought, .execution boughtFill .buy, .order { bought with
    status := .cancelled
    timestampNs := 1700000000000000002 }]

/-- The events differ, and the pipelines do not. -/
theorem sessions_judged_alike_filled :
    let detectors := Harness.makeFiveDetectors ⟨id, fun _ => .refl _⟩ (⟨[], [], [], []⟩ : Simulator.SimulationOutput ℚ) ++
      [(MlAnomalyDetector.make {}).object]
    liveEvents filledThenCancelled ≠ replayedEvents filledThenCancelled ∧
      ∃ live replayed, liveEvents filledThenCancelled = .ok live ∧ replayedEvents filledThenCancelled = .ok replayed ∧
        (LivePipeline.make detectors .empty).trace live = (LivePipeline.make detectors .empty).trace replayed := by
  intro detectors
  have hitems : ∀ item ∈ filledThenCancelled, item.Sendable := by
    unfold filledThenCancelled
    simp only [List.forall_mem_cons, List.not_mem_nil, false_implies, implies_true, and_true]
    refine ⟨⟨?_, rfl, by decide +kernel, by decide +kernel, by decide +kernel, by decide +kernel⟩,
      ⟨?_, rfl, by decide +kernel, by decide +kernel, by decide +kernel, by decide +kernel⟩,
      ⟨?_, rfl, by decide +kernel, by decide +kernel, by decide +kernel, by decide +kernel⟩⟩
    · rintro o ⟨⟩
      decide
    · intro o ho
      cases ho
    · rintro o ⟨⟩
      decide
  have hd : ∀ d ∈ detectors, d.Provided := by
    intro d hd
    rcases List.mem_append.1 hd with hd | hd
    · exact makeFiveDetectors_provided _ _ d hd
    · rw [List.mem_singleton.1 hd]
      exact .mlAnomaly _
  have hdiffer : liveEvents filledThenCancelled ≠ replayedEvents filledThenCancelled := by
    rw [liveEvents_eq (fun n _ => Double.llround_intCast n) hitems, replayedEvents_eq hitems]
    decide +kernel
  exact ⟨hdiffer, sessions_judged_alike (fun n _ => Double.llround_intCast n) hitems hd .empty⟩

end Sessions

end TradeSurveillance
