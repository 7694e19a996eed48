import TradeSurveillance.Harness.EvaluationReport
import TradeSurveillance.Theorems.ReplayDetermined

/-!
# One replay judges the scoring detector at every threshold

The scoring worker of a replay raises an alert for every answered window with a score from its gate on. `Swept`: at each threshold above
the gate, the sweep predicts the windows that a worker with this threshold would raise, and what it misses is what the gate let through
besides. Below the gate nothing is missed, whatever the windows are: such a sweep knows no false negative.
-/

namespace TradeSurveillance

open Harness

variable {P : Type}

/-! ## The counts -/

namespace Harness

/-- The matrix of windows that are predicted by one test and positive by another. -/
def windowCounts (predicted positive : Alert P → Bool) (windows : List (Alert P)) : ConfusionMatrix where
  tp := windows.countP fun a => predicted a && positive a
  fp := windows.countP fun a => predicted a && !positive a
  fn := windows.countP fun a => !predicted a && positive a
  tn := windows.countP fun a => !predicted a && !positive a

/-- The matrix is that of the alerts of the scoring detector. -/
theorem computeMlAnomalyConfusionMatrix_eq [LinearOrder P] (alerts : List (Alert P)) (scoreThreshold : P)
    (groundTruth : MlAnomalyGroundTruth) (windowDurationNs : ℤ) :
    computeMlAnomalyConfusionMatrix alerts scoreThreshold groundTruth windowDurationNs =
      windowCounts (fun a => scoreThreshold ≤ a.score) (fun a => mlAnomalyWindowIsPositive groundTruth a windowDurationNs)
        (alerts.filter (·.detectorName = ascii "MlAnomalyDetector")) := by
  induction alerts using List.reverseRecOn with
  | nil => rfl
  | append_singleton alerts a ih =>
    rw [computeMlAnomalyConfusionMatrix, List.foldl_append, List.foldl_cons, List.foldl_nil, ← computeMlAnomalyConfusionMatrix, ih,
      List.filter_append, countWindow]
    by_cases hname : a.detectorName = ascii "MlAnomalyDetector"
    · rw [if_neg (not_not.2 hname), List.filter_cons_of_pos (by simpa using hname), List.filter_nil]
      cases hpositive : mlAnomalyWindowIsPositive groundTruth a windowDurationNs <;>
        by_cases hscore : scoreThreshold ≤ a.score <;> simp [windowCounts, List.countP_append, hpositive, hscore]
    · rw [if_pos hname, List.filter_cons_of_neg (by simpa using hname), List.filter_nil, List.append_nil]

section Counts

variable {predicted predicted' positive : Alert P → Bool} {windows : List (Alert P)}

/-- Positive or not, a window is predicted or missed. -/
theorem windowCounts_total (predicted positive : Alert P → Bool) (windows : List (Alert P)) :
    (windowCounts predicted positive windows).tp + (windowCounts predicted positive windows).fn = windows.countP positive ∧
      (windowCounts predicted positive windows).fp + (windowCounts predicted positive windows).tn =
        windows.countP fun a => !positive a := by
  induction windows with
  | nil => exact ⟨rfl, rfl⟩
  | cons a windows ih =>
    obtain ⟨hpos, hneg⟩ := ih
    simp only [windowCounts, List.countP_cons] at hpos hneg ⊢
    cases predicted a <;> cases positive a <;> simp <;> omega

/-- Whatever predicts less finds less of either kind. -/
theorem windowCounts_mono (h : ∀ a ∈ windows, predicted' a = true → predicted a = true) (positive : Alert P → Bool) :
    (windowCounts predicted' positive windows).tp ≤ (windowCounts predicted positive windows).tp ∧
      (windowCounts predicted' positive windows).fp ≤ (windowCounts predicted positive windows).fp := by
  refine ⟨List.countP_mono_left fun a ha htrue => ?_, List.countP_mono_left fun a ha htrue => ?_⟩
  · rw [Bool.and_eq_true] at htrue ⊢
    exact ⟨h a ha htrue.1, htrue.2⟩
  · rw [Bool.and_eq_true] at htrue ⊢
    exact ⟨h a ha htrue.1, htrue.2⟩

/-- The predicted windows are the ones that a filter keeps. -/
theorem windowCounts_predicted (predicted positive : Alert P → Bool) (windows : List (Alert P)) :
    (windowCounts predicted positive windows).tp = (windows.filter predicted).countP positive ∧
      (windowCounts predicted positive windows).fp = (windows.filter predicted).countP fun a => !positive a := by
  refine ⟨?_, ?_⟩
  · rw [List.countP_filter]
    exact List.countP_congr fun a _ => by rw [Bool.and_comm]
  · rw [List.countP_filter]
    exact List.countP_congr fun a _ => by rw [Bool.and_comm]

end Counts

end Harness

/-! ## The gate of the worker -/

namespace MlScoringWorker

variable [Double P] [LinearOrder P] {gate threshold : P} {answers : List (Option (ScoringResult P))}
  {requests : List (ScoringRequest P)}

/-- A worker raises nothing below its threshold. -/
theorem le_of_mem_alertsFor {a : Alert P} (h : a ∈ alertsFor threshold answers requests) : threshold ≤ a.score := by
  obtain ⟨x, -, hx⟩ := List.mem_filterMap.1 h
  simp only [Option.bind_eq_some_iff, Option.ite_none_left_eq_some, Option.some.injEq] at hx
  obtain ⟨result, -, hscore, rfl⟩ := hx
  exact not_lt.1 hscore

/-- The alerts of a worker with a higher threshold are those with such scores of one with a lower. -/
theorem alertsFor_filter (h : gate ≤ threshold) (answers : List (Option (ScoringResult P))) (requests : List (ScoringRequest P)) :
    (alertsFor gate answers requests).filter (fun a => threshold ≤ a.score) = alertsFor threshold answers requests := by
  unfold alertsFor
  induction answers.zip requests with
  | nil => rfl
  | cons x l ih =>
    obtain ⟨answer, request⟩ := x
    cases answer with
    | none => exact ih
    | some result =>
      rw [List.filterMap_cons, List.filterMap_cons]
      simp only [Option.bind_some]
      by_cases hgate : result.anomalyScore < gate
      · rw [if_pos hgate, if_pos (lt_of_lt_of_le hgate h)]
        exact ih
      · rw [if_neg hgate]
        by_cases hthreshold : result.anomalyScore < threshold
        · rw [if_pos hthreshold, List.filter_cons_of_neg (by simpa [alertOf] using hthreshold)]
          exact ih
        · rw [if_neg hthreshold, List.filter_cons_of_pos (by simpa [alertOf] using hthreshold), ih]

/-- A gate that every answer passes lets every scored window through. -/
theorem length_alertsFor (h : ∀ x ∈ answers.zip requests, ∀ result, x.1 = some result → gate ≤ result.anomalyScore) :
    (alertsFor gate answers requests).length = (answers.zip requests).countP fun x => x.1.isSome := by
  unfold alertsFor
  generalize answers.zip requests = l at h ⊢
  induction l with
  | nil => rfl
  | cons x l ih =>
    have hl := ih fun x hx => h x (List.mem_cons_of_mem _ hx)
    obtain ⟨answer, request⟩ := x
    cases answer with
    | none => simpa using hl
    | some result =>
      have hgate : ¬ result.anomalyScore < gate := not_lt.2 (h _ List.mem_cons_self result rfl)
      simp [hgate, hl]

end MlScoringWorker

/-! ## The sweep -/

section Sweep

variable [Double P] [LinearOrder P]

/-- What the matrices of the sweep say of the windows a worker with this gate has scored. -/
structure Swept (alerts : List (Alert P)) (gate : P) (answers : List (Option (ScoringResult P))) (requests : List (ScoringRequest P))
    (groundTruth : MlAnomalyGroundTruth) (windowDurationNs : ℤ) : Prop where
  /-- From the gate on, a window is predicted where a worker with that threshold would raise an alert. -/
  predicted : ∀ threshold, gate ≤ threshold →
    (computeMlAnomalyConfusionMatrix alerts threshold groundTruth windowDurationNs).tp =
        (MlScoringWorker.alertsFor threshold answers requests).countP (mlAnomalyWindowIsPositive groundTruth · windowDurationNs) ∧
      (computeMlAnomalyConfusionMatrix alerts threshold groundTruth windowDurationNs).fp =
        (MlScoringWorker.alertsFor threshold answers requests).countP fun a => !mlAnomalyWindowIsPositive groundTruth a windowDurationNs
  /-- At every threshold the windows that are positive, and those that are not, are all that passed the gate. -/
  total : ∀ threshold,
    (computeMlAnomalyConfusionMatrix alerts threshold groundTruth windowDurationNs).tp +
        (computeMlAnomalyConfusionMatrix alerts threshold groundTruth windowDurationNs).fn =
        (MlScoringWorker.alertsFor gate answers requests).countP (mlAnomalyWindowIsPositive groundTruth · windowDurationNs) ∧
      (computeMlAnomalyConfusionMatrix alerts threshold groundTruth windowDurationNs).fp +
        (computeMlAnomalyConfusionMatrix alerts threshold groundTruth windowDurationNs).tn =
        (MlScoringWorker.alertsFor gate answers requests).countP fun a => !mlAnomalyWindowIsPositive groundTruth a windowDurationNs
  /-- Up to the gate nothing is missed. -/
  blind : ∀ threshold ≤ gate,
    (computeMlAnomalyConfusionMatrix alerts threshold groundTruth windowDurationNs).fn = 0 ∧
      (computeMlAnomalyConfusionMatrix alerts threshold groundTruth windowDurationNs).tn = 0
  /-- A higher threshold predicts no more. -/
  antitone : ∀ threshold threshold', threshold ≤ threshold' →
    (computeMlAnomalyConfusionMatrix alerts threshold' groundTruth windowDurationNs).tp ≤
        (computeMlAnomalyConfusionMatrix alerts threshold groundTruth windowDurationNs).tp ∧
      (computeMlAnomalyConfusionMatrix alerts threshold' groundTruth windowDurationNs).fp ≤
        (computeMlAnomalyConfusionMatrix alerts threshold groundTruth windowDurationNs).fp
  /-- Where the service never answers below the gate, every answered window is counted. -/
  counted : (∀ x ∈ answers.zip requests, ∀ result, x.1 = some result → gate ≤ result.anomalyScore) → ∀ threshold,
    (computeMlAnomalyConfusionMatrix alerts threshold groundTruth windowDurationNs).tp +
        (computeMlAnomalyConfusionMatrix alerts threshold groundTruth windowDurationNs).fn +
        ((computeMlAnomalyConfusionMatrix alerts threshold groundTruth windowDurationNs).fp +
          (computeMlAnomalyConfusionMatrix alerts threshold groundTruth windowDurationNs).tn) =
      (answers.zip requests).countP fun x => x.1.isSome

/-- The scored windows in a sink where the alerts of the rules stand between them. -/
theorem windows_of_interleaving {alerts rules : List (Alert P)} {gate : P} {answers : List (Option (ScoringResult P))}
    {requests : List (ScoringRequest P)} (hsink : Interleaving alerts rules (MlScoringWorker.alertsFor gate answers requests))
    (hrules : ∀ alert ∈ rules, alert.detectorName ≠ ascii "MlAnomalyDetector") :
    alerts.filter (·.detectorName = ascii "MlAnomalyDetector") = MlScoringWorker.alertsFor gate answers requests := by
  have hscored : (MlScoringWorker.alertsFor gate answers requests).filter (·.detectorName = ascii "MlAnomalyDetector") =
      MlScoringWorker.alertsFor gate answers requests := by
    refine List.filter_eq_self.2 fun a ha => ?_
    obtain ⟨x, -, hx⟩ := List.mem_filterMap.1 ha
    simp only [Option.bind_eq_some_iff, Option.ite_none_left_eq_some, Option.some.injEq] at hx
    obtain ⟨result, -, -, rfl⟩ := hx
    rfl
  rw [hsink.symm.filter_eq fun a ha => by simpa using hrules a ha, hscored]

/-- Such a sink is judged as the windows of its worker. -/
theorem swept_of_interleaving {alerts rules : List (Alert P)} {gate : P} {answers : List (Option (ScoringResult P))}
    {requests : List (ScoringRequest P)} (hsink : Interleaving alerts rules (MlScoringWorker.alertsFor gate answers requests))
    (hrules : ∀ alert ∈ rules, alert.detectorName ≠ ascii "MlAnomalyDetector") (groundTruth : MlAnomalyGroundTruth)
    (windowDurationNs : ℤ) : Swept alerts gate answers requests groundTruth windowDurationNs := by
  have hwindows := windows_of_interleaving hsink hrules
  have hmatrix : ∀ threshold, computeMlAnomalyConfusionMatrix alerts threshold groundTruth windowDurationNs =
      windowCounts (fun a => threshold ≤ a.score) (fun a => mlAnomalyWindowIsPositive groundTruth a windowDurationNs)
        (MlScoringWorker.alertsFor gate answers requests) := by
    intro threshold
    rw [computeMlAnomalyConfusionMatrix_eq, hwindows]
  refine ⟨fun threshold hgate => ?_, fun threshold => ?_, fun threshold hgate => ?_, fun threshold threshold' hle => ?_,
    fun hscores threshold => ?_⟩
  · rw [hmatrix, ← MlScoringWorker.alertsFor_filter hgate]
    exact windowCounts_predicted _ _ _
  · rw [hmatrix]
    exact windowCounts_total _ _ _
  · rw [hmatrix]
    refine ⟨List.countP_eq_zero.2 fun a ha => ?_, List.countP_eq_zero.2 fun a ha => ?_⟩
    · simp [hgate.trans (MlScoringWorker.le_of_mem_alertsFor ha)]
    · simp [hgate.trans (MlScoringWorker.le_of_mem_alertsFor ha)]
  · rw [hmatrix, hmatrix]
    exact windowCounts_mono (fun a _ h => decide_eq_true (hle.trans (of_decide_eq_true h))) _
  · obtain ⟨hpositive, hnegative⟩ := windowCounts_total (fun a => threshold ≤ a.score)
      (fun a => mlAnomalyWindowIsPositive groundTruth a windowDurationNs) (MlScoringWorker.alertsFor gate answers requests)
    rw [hmatrix, hpositive, hnegative, ← MlScoringWorker.length_alertsFor hscores]
    simpa using (List.length_eq_countP_add_countP (mlAnomalyWindowIsPositive groundTruth · windowDurationNs)).symm

/-- The scoring detector raises nothing in the pipeline, and no other alert has its name. -/
theorem IDetector.Provided.name_ne_ml {d : IDetector P} (hd : d.Provided) {book : OrderBook P} {e : Event P} {accounts : AccountRegistry}
    {alert : Alert P} (h : alert ∈ (d.step book e accounts).2) : alert.detectorName ≠ ascii "MlAnomalyDetector" := by
  rw [hd.detectorName h]
  cases hd with
  | washTrade => change ascii "WashTradeDetector" ≠ _; decide
  | spoofingLayering d => change ascii "SpoofingLayeringDetector" ≠ _; decide
  | markingTheClose d => change ascii "MarkingTheCloseDetector" ≠ _; decide
  | frontRunning d => change ascii "FrontRunningDetector" ≠ _; decide
  | statisticalBaseline d => change ascii "StatisticalBaselineDetector" ≠ _; decide
  | mlAnomaly d => cases e <;> exact absurd h List.not_mem_nil

variable {order : HashOrder} {simulation : Simulator.SimulationOutput P} {events : List (Event P)}
  {scored : List (Scored P)} {result : ReplayResult P}

/-- The six detectors of a replay are those the repository provides. -/
theorem replayDetectors_provided (order : HashOrder) (simulation : Simulator.SimulationOutput P) (mlEval : Bool) :
    ∀ d ∈ replayDetectors order simulation mlEval, d.Provided := by
  intro d hd
  rcases List.mem_append.1 hd with hd | hd
  · exact makeFiveDetectors_provided order simulation d hd
  · cases mlEval with
    | false => cases hd
    | true => exact List.mem_singleton.1 hd ▸ .mlAnomaly _

/-- No rule's alert in the pipeline of a replay has the name of the scoring detector. -/
theorem rules_name_ne_ml (order : HashOrder) (simulation : Simulator.SimulationOutput P) (mlEval : Bool) (events : List (Event P)) :
    ∀ alert ∈ (LivePipeline.make (replayDetectors order simulation mlEval) (accountRegistry simulation)).alertsOf events,
      alert.detectorName ≠ ascii "MlAnomalyDetector" :=
  LivePipeline.alertsOf_forall (fun _ hd _ _ _ _ ha => hd.name_ne_ml ha) (replayDetectors_provided order simulation mlEval) events

/-- What a replay returns judges the scoring detector at every threshold as a replay whose worker has that threshold would: on the
requests of the session, with the answers they got. -/
theorem window_sweep (h : Replayed order simulation events scored result true) (groundTruth : MlAnomalyGroundTruth)
    (windowDurationNs : ℤ) :
    scored.map Prod.fst = (events.foldl ReplayConsumer.processOne (.make order simulation true)).submitted ∧
      Swept result.alerts 0.0 (scored.map Prod.snd) (scored.map Prod.fst) groundTruth windowDurationNs := by
  have hdetermined := h.determined
  exact ⟨hdetermined.requests,
    swept_of_interleaving hdetermined.alerts (rules_name_ne_ml order simulation true events) groundTruth windowDurationNs⟩

end Sweep

/-- A session of five orders of one account. -/
def fiveOrders : Simulator.SimulationOutput ℚ :=
  ⟨[], [], (List.range 5).map fun i => { bought with orderId := Decimal.ofNat i, timestampNs := i + 1 }, []⟩

/-- The five orders make a window, which the service scores at four fifths. -/
theorem window_sweep_fiveOrders : ∃ (events : List (Event ℚ)) (scored : List (Scored ℚ)) (result : ReplayResult ℚ),
    scored.length = 1 ∧ (computeMlAnomalyConfusionMatrix result.alerts (7 / 10) (buildMlAnomalyGroundTruth fiveOrders) 60).fp = 1 ∧
      scored.map Prod.fst = (events.foldl ReplayConsumer.processOne (.make ⟨id, fun _ => .refl _⟩ fiveOrders true)).submitted ∧
      Swept result.alerts 0.0 (scored.map Prod.snd) (scored.map Prod.fst) (buildMlAnomalyGroundTruth fiveOrders) 60 := by
  let events : List (Event ℚ) := fiveOrders.orders.map fun o => .order (toFixOrder o)
  obtain ⟨s, scored, hr, hp⟩ := Machine.run_of_attempts
    (M := replayMachine id id ⟨id, fun _ => .refl _⟩ fiveOrders true events (events.map encode)) ⟨_, _, rfl, rfl, rfl⟩
    (List.replicate 60 [.main .message false, .consumer false, .worker false (some ⟨4 / 5, ascii "v1"⟩)]).flatten
    (p := fun q => decide (q.1.pc = .joined ∧ q.1.replayed = 5 ∧ q.2.length = 1 ∧
      (computeMlAnomalyConfusionMatrix q.1.sink (7 / 10) (buildMlAnomalyGroundTruth fiveOrders) 60).fp = 1)) (by decide +kernel)
  obtain ⟨hpc, hreplayed, hlength, hfp⟩ := of_decide_eq_true hp
  have hevents : ∀ e ∈ events, e.Encodable := by
    intro e he
    obtain ⟨o, ho, rfl⟩ := List.mem_map.1 he
    obtain ⟨i, hi, rfl⟩ := List.mem_map.1 ho
    have hlt := List.mem_range.1 hi
    have hprice : Double.stod (Double.print17 bought.price) = .ok bought.price := by decide +kernel
    have hqty : IsInt64 bought.qty := by decide
    refine ⟨rfl, hprice, hqty, ?_⟩
    constructor <;> simp [Event.timestampNs, toFixOrder] <;> omega
  obtain ⟨result, halerts, hreplay⟩ := Replayed.of_run
    (show publishSession fiveOrders [] 20000 (some []) (List.replicate 5 .noError) true true = _ from rfl) hevents (by decide)
    (List.Sublist.refl _) hr hpc hreplayed
  rw [← halerts] at hfp
  exact ⟨events, scored, result, hlength, hfp, window_sweep hreplay (buildMlAnomalyGroundTruth fiveOrders) 60⟩

end TradeSurveillance
