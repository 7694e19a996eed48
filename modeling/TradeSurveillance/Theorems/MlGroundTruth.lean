import TradeSurveillance.Harness.Evaluation
import TradeSurveillance.Lemmas.PipelineBooks
import TradeSurveillance.Lemmas.ScoringWindow

/-!
# Scored windows and the ground truth

`Observed` is the scoring detector with, for each key, the orders counted in its window. In the harness's order of events these lie
between the start of the window and the order that triggers a request, and so within the duration of a window before it: an abusive one
is among the timestamps looked up for the alert (`ml_window_positive`).
-/

namespace TradeSurveillance

open Harness MlAnomalyDetector

variable {P : Type}

/-! ## The detector and its windows -/

/-- A call of `evaluate`, with the item the event was made of. -/
structure Call (P : Type) where
  book : OrderBook P
  item : Item P
  event : Event P

/-- The scoring detector, the window of each key, and each request with the window it is about. -/
structure Observed (P : Type) where
  detector : MlAnomalyDetector P
  windows : Str → Window P
  requests : List (ScoringRequest P × Window P)

variable [Double P]

namespace Observed

omit [Double P] in
def make (config : MlAnomalyDetectorConfig) : Observed P := ⟨.make config, fun _ => {}, []⟩

/-- A call of `evaluate`; an order is counted in the window of its key. -/
def step (s : Observed P) (c : Call P) : Observed P :=
  let detector := (s.detector.evaluate c.book c.event).1
  match c.item with
  | .execution _ => { s with detector := detector }
  | .order o =>
    let window := (s.windows (groundTruthKey o)).add s.detector.config o
    { detector := detector
      windows := Function.update s.windows (groundTruthKey o) window
      requests := s.requests ++ (detector.submitted.drop s.detector.submitted.length).map fun r => (r, window) }

/-- The calls in order. -/
def run (config : MlAnomalyDetectorConfig) (calls : List (Call P)) : Observed P := calls.foldl step (make config)

/-- One more call is made behind the others. -/
@[simp] theorem run_concat (config : MlAnomalyDetectorConfig) (calls : List (Call P)) (c : Call P) :
    run config (calls ++ [c]) = (run config calls).step c := by
  simp [run]

/-- Watching the windows does not change what the detector does. -/
theorem run_detector (config : MlAnomalyDetectorConfig) (calls : List (Call P)) :
    (run config calls).detector = calls.foldl (fun d c => (d.evaluate c.book c.event).1) (.make config) := by
  induction calls using List.reverseRecOn with
  | nil => rfl
  | append_singleton calls c ih =>
    rw [run_concat, List.foldl_append, ← ih]
    unfold step
    split <;> rfl

end Observed

/-- What a request says of its window: the features are those of the orders counted, which are of the request's key and lie within a
duration before it. -/
structure Judged (config : MlAnomalyDetectorConfig) (items : List (Item P)) (r : ScoringRequest P) (w : Window P) : Prop where
  features : r.windowFeatures = features config w.stats
  counts : w.Counts
  key : ∀ o ∈ w.orders, groundTruthKey o = pairKey r.accountId r.instrumentId
  mem : ∀ o ∈ w.orders, .order o ∈ items
  start_le : ∀ o ∈ w.orders, r.timestampNs - config.windowDurationNs ≤ o.timestampNs
  le_end : ∀ o ∈ w.orders, o.timestampNs ≤ r.timestampNs

/-- A request judged from some items is judged so from more. -/
theorem Judged.mono {config : MlAnomalyDetectorConfig} {items items' : List (Item P)} {r : ScoringRequest P} {w : Window P} (h : Judged config items r w)
    (hmono : ∀ x ∈ items, x ∈ items') : Judged config items' r w :=
  { h with mem := fun o ho => hmono _ (h.mem o ho) }

/-- What holds after calls. -/
structure Observed.Inv (config : MlAnomalyDetectorConfig) (items : List (Item P)) (s : Observed P) : Prop where
  config_eq : s.detector.config = config
  stats : ∀ key, (s.detector.statsByKey.lookup key).getD {} = (s.windows key).stats
  counts : ∀ key, (s.windows key).Counts
  key : ∀ key, ∀ o ∈ (s.windows key).orders, groundTruthKey o = key
  start_le : ∀ key, ∀ o ∈ (s.windows key).orders, (s.windows key).stats.windowStartNs ≤ o.timestampNs
  mem : ∀ key, ∀ o ∈ (s.windows key).orders, .order o ∈ items
  submitted : s.requests.map Prod.fst = s.detector.submitted
  judged : ∀ p ∈ s.requests, Judged config items p.1 p.2

namespace Observed

variable {config : MlAnomalyDetectorConfig} {items : List (Item P)} {s : Observed P}

/-- An execution is not counted. -/
theorem Inv.execution (h : Inv config items s) (book : OrderBook P) (x : Simulator.Execution P) (x' : Execution P) :
    Inv config (items ++ [.execution x]) (s.step ⟨book, .execution x, .execution x'⟩) :=
  { h with
    mem := fun key o ho => List.mem_append_left _ (h.mem key o ho)
    judged := fun p hp => (h.judged p hp).mono fun _ => List.mem_append_left _ }

/-- The window of an order, which none before it is later than. -/
theorem Inv.order_window (h : Inv config items s) (o : Simulator.Order P) {w : Window P}
    (hw : w = (s.windows (groundTruthKey o)).add config o) :
    w.Counts ∧ (∀ o' ∈ w.orders, groundTruthKey o' = groundTruthKey o) ∧
      (∀ o' ∈ w.orders, w.stats.windowStartNs ≤ o'.timestampNs) ∧ ∀ o' ∈ w.orders, o' = o ∨ .order o' ∈ items := by
  subst hw
  have hcases : ∀ o' ∈ ((s.windows (groundTruthKey o)).add config o).orders, o' = o ∨ o' ∈ (s.windows (groundTruthKey o)).orders ∧
      (s.windows (groundTruthKey o)).current config o = s.windows (groundTruthKey o) := by
    intro o' ho'
    rcases Window.mem_add_orders.1 ho' with hcur | rfl
    · exact .inr (Window.of_mem_current hcur)
    · exact .inl rfl
  refine ⟨(h.counts _).add _ _, fun o' ho' => ?_, fun o' ho' => ?_, fun o' ho' => ?_⟩
  · rcases hcases o' ho' with rfl | ⟨hmem, -⟩
    · rfl
    · exact h.key _ o' hmem
  · rw [Window.add_windowStartNs]
    rcases hcases o' ho' with rfl | ⟨hmem, hcur⟩
    · exact Window.current_le _ _ _
    · rw [hcur]
      exact h.start_le _ o' hmem
  · exact (hcases o' ho').imp_right fun hmem => h.mem _ o' hmem.1

/-- What a call with an order does. -/
theorem Inv.step_order (h : Inv config items s) (book : OrderBook P) (o : Simulator.Order P) {w : Window P}
    (hw : w = (s.windows (groundTruthKey o)).add config o) :
    let requests : List (ScoringRequest P) := if Submits config w.stats then
      [⟨o.accountId, o.instrumentId, features config w.stats, o.timestampNs, book.snapshotSequence⟩] else []
    s.step ⟨book, .order o, .order (toFixOrder o)⟩ =
      { detector := ⟨config, s.detector.statsByKey.insert (groundTruthKey o) w.stats, s.detector.submitted ++ requests⟩
        windows := Function.update s.windows (groundTruthKey o) w
        requests := s.requests ++ requests.map fun r => (r, w) } := by
  intro requests
  have hstats : tally s.detector.config ((s.detector.statsByKey.lookup
      (pairKey (toFixOrder o).accountId (toFixOrder o).instrumentId)).getD {}) (toFixOrder o) = w.stats := by
    have hkey : pairKey (toFixOrder o).accountId (toFixOrder o).instrumentId = groundTruthKey o := rfl
    rw [hkey, h.stats, h.config_eq, hw]
    rfl
  have hd : (s.detector.evaluate book (.order (toFixOrder o))).1 = _ :=
    handleOrder_eq s.detector (toFixOrder o) book.snapshotSequence hstats
  unfold step
  simp only [hd, h.config_eq, ← hw, List.drop_left]
  rfl

/-- An order that none before it is later than is counted in its window, and a request is about that window. -/
theorem Inv.order (hduration : 0 ≤ config.windowDurationNs) (h : Inv config items s) (book : OrderBook P) (o : Simulator.Order P)
    (hsorted : ∀ x ∈ items, x.timestampNs ≤ o.timestampNs) :
    Inv config (items ++ [.order o]) (s.step ⟨book, .order o, .order (toFixOrder o)⟩) := by
  obtain ⟨w, hw⟩ : ∃ w, w = (s.windows (groundTruthKey o)).add config o := ⟨_, rfl⟩
  obtain ⟨hcounts, hkey, hstart, hmem⟩ := h.order_window o hw
  have hmem' : ∀ o' ∈ w.orders, Item.order o' ∈ items ++ [.order o] := by
    intro o' ho'
    rcases hmem o' ho' with rfl | hold
    · exact List.mem_append_right _ (List.mem_singleton_self _)
    · exact List.mem_append_left _ hold
  -- a statement about the window of each key holds of the new one and of the others
  have hupdate : ∀ {p : Str → Window P → Prop}, (∀ key, p key (s.windows key)) → p (groundTruthKey o) w →
      ∀ key, p key (Function.update s.windows (groundTruthKey o) w key) := by
    intro p hold hnew key
    rcases eq_or_ne key (groundTruthKey o) with rfl | hne
    · rwa [Function.update_self]
    · rw [Function.update_of_ne hne]
      exact hold key
  rw [h.step_order book o hw]
  constructor
  · rfl
  · intro key
    show ((s.detector.statsByKey.insert (groundTruthKey o) w.stats).lookup key).getD {} =
      (Function.update s.windows (groundTruthKey o) w key).stats
    rcases eq_or_ne key (groundTruthKey o) with rfl | hne
    · rw [Finmap.lookup_insert, Function.update_self]
      rfl
    · rw [Finmap.lookup_insert_of_ne _ hne, Function.update_of_ne hne]
      exact h.stats key
  · exact hupdate (p := fun _ w => w.Counts) h.counts hcounts
  · exact hupdate (p := fun key w => ∀ o' ∈ w.orders, groundTruthKey o' = key) h.key hkey
  · exact hupdate (p := fun _ w => ∀ o' ∈ w.orders, w.stats.windowStartNs ≤ o'.timestampNs) h.start_le hstart
  · exact hupdate (p := fun _ w => ∀ o' ∈ w.orders, Item.order o' ∈ items ++ [.order o])
      (fun key o' ho' => List.mem_append_left _ (h.mem key o' ho')) hmem'
  · simp [h.submitted, Function.comp_def]
  · intro p hp
    rcases List.mem_append.1 hp with hold | hnew
    · exact (h.judged p hold).mono fun _ => List.mem_append_left _
    · obtain ⟨r, hr, rfl⟩ := List.mem_map.1 hnew
      split_ifs at hr with hs
      · rw [List.mem_singleton.1 hr]
        refine ⟨rfl, hcounts, hkey, hmem', fun o' ho' => ?_, fun o' ho' => ?_⟩
        · have hwindow := Window.sub_le_current hduration (s.windows (groundTruthKey o)) o
          rw [← Window.add_windowStartNs, ← hw] at hwindow
          exact hwindow.trans (hstart o' ho')
        · rcases hmem o' ho' with rfl | hold
          · exact le_refl _
          · exact hsorted _ hold
      · nomatch hr

omit [Double P] in
/-- An execution is replayed as an execution. -/
theorem toEvent_execution {sides : Map Str Side} {x : Simulator.Execution P} {e : Event P}
    (h : toEvent sides (.execution x) = .ok e) : ∃ x', e = .execution x' := by
  simp only [toEvent] at h
  split at h
  · exact ⟨_, (Except.ok.inj h).symm⟩
  · nomatch h

/-- A new detector has nothing to judge. -/
theorem inv_make (config : MlAnomalyDetectorConfig) : Inv config [] (make config : Observed P) where
  config_eq := rfl
  stats _ := rfl
  counts _ := ⟨rfl, rfl, rfl⟩
  key _ _ ho := nomatch ho
  start_le _ _ ho := nomatch ho
  mem _ _ ho := nomatch ho
  submitted := rfl
  judged _ hp := nomatch hp

/-- The invariant holds after calls in the order of their timestamps. -/
theorem inv_run (hduration : 0 ≤ config.windowDurationNs) (sides : Map Str Side) {calls : List (Call P)}
    (hevent : ∀ c ∈ calls, toEvent sides c.item = .ok c.event)
    (hsorted : (calls.map (·.item)).Pairwise fun a b => a.timestampNs ≤ b.timestampNs) :
    Inv config (calls.map (·.item)) (run config calls) := by
  induction calls using List.reverseRecOn with
  | nil => exact inv_make config
  | append_singleton calls c ih =>
    have hc := hevent c (List.mem_append_right _ (List.mem_singleton_self c))
    rw [List.map_append, List.pairwise_append] at hsorted
    have h := ih (fun c hc => hevent c (List.mem_append_left _ hc)) hsorted.1
    rw [run_concat, List.map_append]
    obtain ⟨book, item, event⟩ := c
    cases item with
    | execution x =>
      obtain ⟨x', rfl⟩ := toEvent_execution hc
      exact h.execution book x x'
    | order o =>
      cases hc
      exact h.order hduration book o fun x hx => hsorted.2.2 x hx _ (List.mem_singleton_self _)

end Observed

/-! ## The ground truth -/

/-- The timestamps at a key hold one. -/
def Lists (timestamps : Map Str (List ℤ)) (key : Str) (t : ℤ) : Prop := ∃ ts, timestamps.lookup key = some ts ∧ t ∈ ts

omit [Double P] in
/-- Times listed stay listed. -/
theorem Lists.addAbuseOrder {timestamps : Map Str (List ℤ)} {key : Str} {t : ℤ} (h : Lists timestamps key t)
    (o : Simulator.Order P) : Lists (addAbuseOrder timestamps o) key t := by
  obtain ⟨ts, hts, ht⟩ := h
  unfold Harness.addAbuseOrder
  split_ifs
  · exact ⟨ts, hts, ht⟩
  · rcases eq_or_ne key (groundTruthKey o) with rfl | hne
    · exact ⟨_, Finmap.lookup_insert _, by simp [hts, ht]⟩
    · exact ⟨ts, (Finmap.lookup_insert_of_ne _ hne).trans hts, ht⟩

omit [Double P] in
/-- The time of an abuse order is listed under its pair. -/
theorem lists_addAbuseOrder (timestamps : Map Str (List ℤ)) {o : Simulator.Order P} (h : o.groundTruthLabel.pattern ≠ .baseline) :
    Lists (addAbuseOrder timestamps o) (groundTruthKey o) o.timestampNs := by
  rw [Harness.addAbuseOrder, if_neg h]
  exact ⟨_, Finmap.lookup_insert _, by simp⟩

omit [Double P] in
/-- The timestamps of every abusive order are listed. -/
theorem lists_of_mem {orders : List (Simulator.Order P)} {o : Simulator.Order P} (ho : o ∈ orders)
    (h : o.groundTruthLabel.pattern ≠ .baseline) : Lists (orders.foldl addAbuseOrder ∅) (groundTruthKey o) o.timestampNs := by
  induction orders using List.reverseRecOn with
  | nil => nomatch ho
  | append_singleton orders o' ih =>
    rw [List.foldl_append]
    rcases List.mem_append.1 ho with hold | hnew
    · exact (ih hold).addAbuseOrder o'
    · rw [← List.mem_singleton.1 hnew]
      exact lists_addAbuseOrder _ h

/-- The lower bound of a value is no later than any timestamp from it on. -/
theorem lowerBound_head {values : List ℤ} (hsorted : values.Pairwise (· ≤ ·)) {lo t : ℤ} (ht : t ∈ values) (hlo : lo ≤ t) :
    ∃ first, (lowerBound values lo).head? = some first ∧ first ≤ t := by
  induction values with
  | nil => nomatch ht
  | cons v values ih =>
    rw [List.pairwise_cons] at hsorted
    unfold lowerBound
    by_cases hv : v < lo
    · rw [List.dropWhile_cons_of_pos (by simpa using hv)]
      refine ih hsorted.2 ((List.mem_cons.1 ht).resolve_left ?_)
      rintro rfl
      exact absurd hv (not_lt.2 hlo)
    · rw [List.dropWhile_cons_of_neg (by simpa using hv)]
      refine ⟨v, rfl, ?_⟩
      rcases List.mem_cons.1 ht with rfl | hmem
      · exact le_refl _
      · exact hsorted.1 t hmem

/-- A window with an abusive order within a duration before an alert is positive. -/
theorem window_is_positive {simulation : Simulator.SimulationOutput P} {o : Simulator.Order P} (ho : o ∈ simulation.orders)
    (habuse : Simulator.isAbuse o.groundTruthLabel) {r : ScoringRequest P}
    (hkey : groundTruthKey o = pairKey r.accountId r.instrumentId) {duration : ℤ}
    (hlo : r.timestampNs - duration ≤ o.timestampNs) (hhi : o.timestampNs ≤ r.timestampNs) (result : ScoringResult P) :
    mlAnomalyWindowIsPositive (buildMlAnomalyGroundTruth simulation) (MlScoringWorker.alertOf r result) duration = true := by
  obtain ⟨ts, hts, ht⟩ := lists_of_mem ho (of_decide_eq_true habuse)
  rw [hkey] at hts
  have hlookup : (buildMlAnomalyGroundTruth simulation).abuseOrderTimestampsByKey (r.accountId ++ ascii "|" ++ r.instrumentId) =
      some (StableSort.sortBy id ts) := congrArg (Option.map (StableSort.sortBy id)) hts
  obtain ⟨first, hfirst, hle⟩ := lowerBound_head (StableSort.sortBy_pairwise id ts) ((StableSort.mem_sortBy id).2 ht) hlo
  unfold mlAnomalyWindowIsPositive MlScoringWorker.alertOf
  simp only [List.head?_cons, hlookup, hfirst, decide_eq_true (hle.trans hhi)]

/-! ## A replay -/

omit [Double P] in
/-- The events are those of the items, one by one. -/
theorem forall₂_of_mapM {sides : Map Str Side} {items : List (Item P)} {events : List (Event P)}
    (h : items.mapM (toEvent sides) = .ok events) : List.Forall₂ (fun x e => toEvent sides x = .ok e) items events := by
  induction items generalizing events with
  | nil =>
    cases h
    exact .nil
  | cons x items ih =>
    rw [List.mapM_cons] at h
    cases he : toEvent sides x with
    | error _ => rw [he] at h; nomatch h
    | ok e =>
      cases hes : items.mapM (toEvent sides) with
      | error _ => rw [he, hes] at h; nomatch h
      | ok es =>
        rw [he, hes] at h
        cases h
        exact .cons he (ih hes)

variable [LinearOrder P]

/-- In every replay of a simulation through a pipeline, the requests the scoring detector submits are each about a window of orders of
the simulation, and if one of these is abusive, the ground truth calls the alert built from the request positive. -/
theorem ml_window_positive (config : MlAnomalyDetectorConfig) (hduration : 0 ≤ config.windowDurationNs)
    (simulation : Simulator.SimulationOutput P) {events : List (Event P)} (hevents : toIngestionEvents simulation = .ok events)
    {detectors : List (IDetector P)} (accounts : AccountRegistry) {k : ℕ}
    (hk : detectors[k]? = some (MlAnomalyDetector.make config).object) :
    ∃ calls : List (Call P), (calls.map fun c => (c.item, c.event)).Sublist ((sortedItems simulation).zip events) ∧
      (LivePipeline.run detectors accounts events).detectors[k]? = some (Observed.run config calls).detector.object ∧
      (Observed.run config calls).requests.map Prod.fst = (Observed.run config calls).detector.submitted ∧
      ∀ r w, (r, w) ∈ (Observed.run config calls).requests → r.windowFeatures = features config w.stats ∧ w.Counts ∧
        ∀ o ∈ w.orders, Simulator.isAbuse o.groundTruthLabel → ∀ result : ScoringResult P,
          mlAnomalyWindowIsPositive (buildMlAnomalyGroundTruth simulation) (MlScoringWorker.alertOf r result)
            config.windowDurationNs = true := by
  obtain ⟨hlength, hzip⟩ := List.forall₂_iff_zip.1 (forall₂_of_mapM hevents)
  obtain ⟨replayed, hsub, hd⟩ := LivePipeline.run_calls accounts hk ((sortedItems simulation).zip events)
  rw [List.map_snd_zip hlength.ge] at hd
  obtain ⟨calls, hcalls⟩ : ∃ calls : List (Call P), calls = replayed.map fun c => ⟨c.1, c.2.1, c.2.2⟩ := ⟨_, rfl⟩
  have hsub' : (calls.map fun c => (c.item, c.event)).Sublist ((sortedItems simulation).zip events) := by
    rw [hcalls, List.map_map]
    exact hsub
  have hitems : (calls.map (·.item)).Sublist (sortedItems simulation) := by
    have hfst := hsub'.map Prod.fst
    rw [List.map_fst_zip hlength.le, List.map_map] at hfst
    exact hfst
  have hinv : Observed.Inv config (calls.map (·.item)) (Observed.run config calls) := Observed.inv_run hduration
    (sideByOrderId simulation.orders) (fun c hc => hzip (hsub'.subset (List.mem_map_of_mem hc))) ((StableSort.sortBy_pairwise _ _).sublist hitems)
  refine ⟨calls, hsub', ?_, hinv.submitted, fun r w hrw => ?_⟩
  · rw [hd, Observed.run_detector, hcalls, List.foldl_map]
    exact congrArg some (List.foldl_hom MlAnomalyDetector.object fun _ _ => rfl)
  · have h := hinv.judged _ hrw
    refine ⟨h.features, h.counts, ?_⟩
    intro o ho habuse result
    have hmem : Item.order o ∈ sortedItems simulation := hitems.subset (h.mem o ho)
    have ho' : o ∈ simulation.orders := by simpa [sortedItems] using hmem
    exact window_is_positive ho' habuse (h.key o ho) (h.start_le o ho) (h.le_end o ho) result

/-- A session of one order, which is abusive. -/
def oneAbusiveOrder : Simulator.SimulationOutput ℚ where
  instruments := []
  accounts := []
  orders := [{
    orderId := ascii "ORD-000001"
    accountId := ascii "ACC-000001"
    instrumentId := ascii "ACME"
    side := .buy
    price := 100
    qty := 200
    orderType := .limit
    timestampNs := 5
    status := .new
    venue := ascii "SIM"
    groundTruthLabel := ⟨.spoofingLayering, ascii "SCN-SPOOF-000001", 1⟩ }]
  executions := []

/-- Where every order is submitted, one request is, and its window is judged. -/
theorem ml_window_positive_one :
    let config : MlAnomalyDetectorConfig := { minOrdersBeforeSubmit := 1, submitEveryNOrders := 1 }
    let events : List (Event ℚ) := oneAbusiveOrder.orders.map fun o => .order (toFixOrder o)
    let p := LivePipeline.run [(MlAnomalyDetector.make config).object] .empty events
    (∃ d : MlAnomalyDetector ℚ, p.detectors[0]? = some d.object ∧ d.submitted.length = 1) ∧
      ∃ calls : List (Call ℚ), (calls.map fun c => (c.item, c.event)).Sublist ((sortedItems oneAbusiveOrder).zip events) ∧
        p.detectors[0]? = some (Observed.run config calls).detector.object ∧
        (Observed.run config calls).requests.map Prod.fst = (Observed.run config calls).detector.submitted ∧
        ∀ r w, (r, w) ∈ (Observed.run config calls).requests → r.windowFeatures = features config w.stats ∧ w.Counts ∧
          ∀ o ∈ w.orders, Simulator.isAbuse o.groundTruthLabel → ∀ result : ScoringResult ℚ,
            mlAnomalyWindowIsPositive (buildMlAnomalyGroundTruth oneAbusiveOrder) (MlScoringWorker.alertOf r result)
              config.windowDurationNs = true :=
  ⟨⟨_, rfl, rfl⟩, ml_window_positive _ (by decide) oneAbusiveOrder rfl .empty rfl⟩

end TradeSurveillance
