import TradeSurveillance.Lemmas.EvidenceTexts
import TradeSurveillance.Theorems.DetectorIndependence
import TradeSurveillance.Theorems.ReplayDetermined

/-!
# What the dashboard reads is what the detectors wrote

The evidence of an alert is a text; the dashboard takes it apart again. `Displayed` says for each detector which numbers its text holds and
what is shown of them: the display made of exactly these numbers, if they are printed without a sign, and the text as it is, if not. A
duration in the text of the front running detector is found where the detector wrote it, unless an id before it holds one.
-/

namespace TradeSurveillance

open LinePattern Dashboard Harness

variable {P : Type} [Double P] [LinearOrder P] [JsNumber P]

/-- An evidence made of a pattern and these texts is shown as this display, if `shown`, and as it is otherwise. -/
structure Alert.ShownAs (alert : Alert P) (pattern : List (Piece UInt8)) (texts : List Str) (shown : Prop) (display : EvidenceDisplay) :
    Prop where
  evidence : alert.evidence = fill pattern texts
  display : shown → buildEvidenceDisplay P alert = display
  raw : ¬shown → buildEvidenceDisplay P alert = ⟨alert.evidence, none⟩

/-- The text of a front running alert up to the duration. -/
def FrontRunningDetector.leadIn (accountId orderId : Str) (qty : ℤ) : Str :=
  ascii "related account " ++ accountId ++ ascii " placed order " ++ orderId ++ ascii " (qty=" ++ Decimal.ofInt qty ++ ascii ") "

/-- What is shown of an alert. -/
inductive Alert.Displayed (alert : Alert P) : Prop
  | washTrade (hname : alert.detectorName = ascii "WashTradeDetector") (h : buildEvidenceDisplay P alert = ⟨alert.evidence, none⟩)
  | spoofingLayering (depth speed move typical layering : P) (moved : Bool) (concurrent timeInBookNs : ℤ)
      (hname : alert.detectorName = ascii "SpoofingLayeringDetector") (htime : timeInBookNs = alert.windowEndNs - alert.windowStartNs)
      (h :
        let flag := if moved then ascii "true" else ascii "false"
        alert.ShownAs spoofingLayeringPattern
          [Double.toString depth, Double.toString speed, flag, Double.toString move, Decimal.ofInt concurrent, Double.toString typical,
            Double.toString layering, Decimal.ofInt timeInBookNs]
          ((Plain depth ∧ Plain speed ∧ Plain move ∧ Plain typical ∧ Plain layering) ∧ 0 ≤ concurrent)
          (spoofingLayeringDisplay P (Double.toString depth) (Double.toString speed) flag (Double.toString move)
            (Decimal.ofInt concurrent) (Double.toString typical) (Double.toString layering) (Decimal.ofInt timeInBookNs)))
  | markingTheClose (groupQty totalQty : ℤ) (share : P) (hname : alert.detectorName = ascii "MarkingTheCloseDetector")
      (hscore : alert.score = min share 1.0)
      (h :
        let groupSize := Decimal.ofNat alert.accountIds.length
        alert.ShownAs markingTheClosePattern [Decimal.ofInt groupQty, Decimal.ofInt totalQty, Double.toString share, groupSize]
          (0 ≤ groupQty ∧ 0 ≤ totalQty ∧ Plain share)
          (markingTheCloseDisplay P (Decimal.ofInt groupQty) (Decimal.ofInt totalQty) (Double.toString share) groupSize))
  | statisticalBaseline (qty n : ℤ) (z mean stddev : P) (hname : alert.detectorName = ascii "StatisticalBaselineDetector")
      (h :
        alert.ShownAs statisticalBaselinePattern
          [Decimal.ofInt qty, Double.toString z, Double.toString mean, Double.toString stddev, Decimal.ofInt n]
          (0 ≤ qty ∧ Double.isFinite z = true ∧ Plain mean ∧ Plain stddev ∧ 0 ≤ n)
          (statisticalBaselineDisplay P (Decimal.ofInt qty) (Double.toString z) (Double.toString mean) (Double.toString stddev)
            (Decimal.ofInt n)))
  | mlAnomaly (modelVersion : Str) (hname : alert.detectorName = ascii "MlAnomalyDetector")
      (hversion : alert.modelVersion = some modelVersion)
      (h :
        alert.ShownAs mlAnomalyPattern [Double.toString alert.score, modelVersion] (Plain alert.score ∧ line modelVersion = true)
          (mlAnomalyDisplay P (Double.toString alert.score) modelVersion))
  | frontRunning (leader accountId large orderId rest : Str) (qty : ℤ) (hname : alert.detectorName = ascii "FrontRunningDetector")
      (haccounts : alert.accountIds = [leader, accountId]) (horders : alert.orderIds = [large, orderId])
      (h :
        let leadIn := FrontRunningDetector.leadIn accountId orderId qty
        let gap := Decimal.ofInt (alert.windowEndNs - alert.windowStartNs)
        alert.evidence = leadIn ++ gap ++ ascii "ns after" ++ rest ∧
          (¬ ascii "ns after" <:+: accountId → ¬ ascii "ns after" <:+: orderId →
            buildEvidenceDisplay P alert = ⟨leadIn ++ formatDuration (parseInt gap : P) ++ ascii " after" ++ rest, none⟩))

/-! ## The patterns -/

section Patterns

variable {alert : Alert P} {pattern : List (Piece UInt8)} {texts : List Str} {shown : Prop} {display : EvidenceDisplay}

/-- An evidence is shown as said when it is parsed as its pattern is matched. -/
theorem Alert.ShownAs.of_parsed (parsed : Option EvidenceDisplay) (hevidence : alert.evidence = fill pattern texts)
    (hdelimited : Delimited pattern texts) (hfits : fits pattern texts = true ↔ shown)
    (hsome : matchPieces pattern alert.evidence = some texts → parsed = some display)
    (hnone : matchPieces pattern alert.evidence = none → parsed = none)
    (hbuild : buildEvidenceDisplay P alert = parsed.getD ⟨alert.evidence, none⟩) : alert.ShownAs pattern texts shown display := by
  have hmatch := matchPieces_fill hdelimited
  rw [← hevidence] at hmatch
  refine ⟨hevidence, fun h => ?_, fun h => ?_⟩
  · rw [if_pos (hfits.2 h)] at hmatch
    rw [hbuild, hsome hmatch, Option.getD_some]
  · rw [if_neg (mt hfits.1 h)] at hmatch
    rw [hbuild, hnone hmatch, Option.getD_none]

/-- How a spoofing alert is shown. -/
theorem Alert.shownAs_spoofingLayering (depth speed move typical layering : P) (moved : Bool) (concurrent : ℤ) {timeInBookNs : ℤ}
    (htime : 0 ≤ timeInBookNs) (hname : alert.detectorName = ascii "SpoofingLayeringDetector")
    (hevidence : alert.evidence =
      ascii "depth_ratio=" ++ Double.toString depth ++ ascii " speed=" ++ Double.toString speed ++
      ascii " opposite_price_moved_favorably=" ++ (if moved then ascii "true" else ascii "false") ++
      ascii " move_score=" ++ Double.toString move ++ ascii " concurrent_same_side_orders=" ++ Decimal.ofInt concurrent ++
      ascii " typical_concurrent=" ++ Double.toString typical ++ ascii " layering_score=" ++ Double.toString layering ++
      ascii " time_in_book_ns=" ++ Decimal.ofInt timeInBookNs) :
    alert.ShownAs spoofingLayeringPattern
      [Double.toString depth, Double.toString speed, if moved then ascii "true" else ascii "false", Double.toString move,
        Decimal.ofInt concurrent, Double.toString typical, Double.toString layering, Decimal.ofInt timeInBookNs]
      ((Plain depth ∧ Plain speed ∧ Plain move ∧ Plain typical ∧ Plain layering) ∧ 0 ≤ concurrent)
      (spoofingLayeringDisplay P (Double.toString depth) (Double.toString speed) (if moved then ascii "true" else ascii "false")
        (Double.toString move) (Decimal.ofInt concurrent) (Double.toString typical) (Double.toString layering)
        (Decimal.ofInt timeInBookNs)) := by
  have hdecimal : ∀ other, decimal other = true → (32 : UInt8) ∉ other := fun _ => not_mem_of_decimal rfl
  refine .of_parsed (parseSpoofingLayering P alert.evidence) ?_ ?_ ?_ (fun h => ?_) (fun h => ?_) ?_
  · simp only [hevidence, spoofingLayeringPattern, fill, List.append_assoc, List.append_nil]
  · refine .text _ (.before 32 rfl (blank_not_mem depth) hdecimal (.before 32 rfl (blank_not_mem speed) hdecimal ?_))
    refine .before 32 rfl (not_mem_of_flag (flag_text moved)) (fun _ => not_mem_of_flag) ?_
    refine .before 32 rfl (blank_not_mem move) hdecimal ?_
    refine .before 32 rfl (not_mem_ofInt rfl concurrent) (fun _ => not_mem_of_digits rfl) ?_
    exact .before 32 rfl (blank_not_mem typical) hdecimal (.before 32 rfl (blank_not_mem layering) hdecimal (.last _ _))
  · simp only [spoofingLayeringPattern, fits, Bool.and_eq_true, decimal_toString, digits_ofInt, flag_text, htime]
    tauto
  · rw [parseSpoofingLayering, h]
  · rw [parseSpoofingLayering, h]
  · rw [buildEvidenceDisplay, if_pos hname]

/-- How a marking-the-close alert is shown. -/
theorem Alert.shownAs_markingTheClose (groupQty totalQty : ℤ) (share : P) (groupSize : ℕ)
    (hname : alert.detectorName = ascii "MarkingTheCloseDetector")
    (hevidence : alert.evidence =
      ascii "account-group closing-window volume=" ++ Decimal.ofInt groupQty ++ ascii " / total=" ++ Decimal.ofInt totalQty ++
      ascii " (share=" ++ Double.toString share ++ ascii ", group_size=" ++ Decimal.ofNat groupSize ++ ascii ")") :
    alert.ShownAs markingTheClosePattern
      [Decimal.ofInt groupQty, Decimal.ofInt totalQty, Double.toString share, Decimal.ofNat groupSize]
      (0 ≤ groupQty ∧ 0 ≤ totalQty ∧ Plain share)
      (markingTheCloseDisplay P (Decimal.ofInt groupQty) (Decimal.ofInt totalQty) (Double.toString share) (Decimal.ofNat groupSize)) := by
  refine .of_parsed (parseMarkingTheClose P alert.evidence) ?_ ?_ ?_ (fun h => ?_) (fun h => ?_) ?_
  · simp only [hevidence, markingTheClosePattern, fill, List.append_assoc, List.append_nil]
  · refine .text _ (.before 32 rfl (not_mem_ofInt rfl groupQty) (fun _ => not_mem_of_digits rfl) ?_)
    refine .before 32 rfl (not_mem_ofInt rfl totalQty) (fun _ => not_mem_of_digits rfl) ?_
    refine .before 44 rfl (not_mem_toString rfl (by decide) share) (fun _ => not_mem_of_decimal rfl) ?_
    exact .before 41 rfl (not_mem_ofNat rfl groupSize) (fun _ => not_mem_of_digits rfl) .nil
  · simp only [markingTheClosePattern, fits, Bool.and_eq_true, decimal_toString, digits_ofInt, digits_ofNat, and_true]
  · rw [parseMarkingTheClose, h]
  · rw [parseMarkingTheClose, h]
  · rw [buildEvidenceDisplay, hname, if_neg (by decide), if_pos rfl]

/-- How a baseline alert is shown. -/
theorem Alert.shownAs_statisticalBaseline (qty n : ℤ) (z mean stddev : P)
    (hname : alert.detectorName = ascii "StatisticalBaselineDetector")
    (hevidence : alert.evidence =
      ascii "order qty=" ++ Decimal.ofInt qty ++ ascii " z=" ++ Double.toString z ++ ascii " against running mean=" ++
      Double.toString mean ++ ascii " stddev=" ++ Double.toString stddev ++ ascii " (n=" ++ Decimal.ofInt n ++ ascii ")") :
    alert.ShownAs statisticalBaselinePattern
      [Decimal.ofInt qty, Double.toString z, Double.toString mean, Double.toString stddev, Decimal.ofInt n]
      (0 ≤ qty ∧ Double.isFinite z = true ∧ Plain mean ∧ Plain stddev ∧ 0 ≤ n)
      (statisticalBaselineDisplay P (Decimal.ofInt qty) (Double.toString z) (Double.toString mean) (Double.toString stddev)
        (Decimal.ofInt n)) := by
  refine .of_parsed (parseStatisticalBaseline P alert.evidence) ?_ ?_ ?_ (fun h => ?_) (fun h => ?_) ?_
  · simp only [hevidence, statisticalBaselinePattern, fill, List.append_assoc, List.append_nil]
  · refine .text _ (.before 32 rfl (not_mem_ofInt rfl qty) (fun _ => not_mem_of_digits rfl) ?_)
    refine .before 32 rfl (blank_not_mem z) (fun _ => not_mem_of_signed rfl) ?_
    refine .before 32 rfl (blank_not_mem mean) (fun _ => not_mem_of_decimal rfl) ?_
    refine .before 32 rfl (blank_not_mem stddev) (fun _ => not_mem_of_decimal rfl) ?_
    exact .before 41 rfl (not_mem_ofInt rfl n) (fun _ => not_mem_of_digits rfl) .nil
  · simp only [statisticalBaselinePattern, fits, Bool.and_eq_true, decimal_toString, signed_toString, digits_ofInt, and_true]
  · rw [parseStatisticalBaseline, h]
  · rw [parseStatisticalBaseline, h]
  · rw [buildEvidenceDisplay, hname, if_neg (by decide), if_neg (by decide), if_pos rfl]

/-- How an alert of the learned detector is shown. -/
theorem Alert.shownAs_mlAnomaly (score : P) (modelVersion : Str) (hname : alert.detectorName = ascii "MlAnomalyDetector")
    (hevidence : alert.evidence =
      ascii "Isolation Forest anomaly_score=" ++ Double.toString score ++ ascii " model_version=" ++ modelVersion) :
    alert.ShownAs mlAnomalyPattern [Double.toString score, modelVersion] (Plain score ∧ line modelVersion = true)
      (mlAnomalyDisplay P (Double.toString score) modelVersion) := by
  refine .of_parsed (parseMlAnomaly P alert.evidence) ?_ ?_ ?_ (fun h => ?_) (fun h => ?_) ?_
  · simp only [hevidence, mlAnomalyPattern, fill, List.append_assoc, List.append_nil]
  · exact .text _ (.before 32 rfl (blank_not_mem score) (fun _ => not_mem_of_decimal rfl) (.last _ _))
  · simp only [mlAnomalyPattern, fits, Bool.and_eq_true, decimal_toString, and_true]
  · rw [parseMlAnomaly, h]
  · rw [parseMlAnomaly, h]
  · rw [buildEvidenceDisplay, hname, if_neg (by decide), if_neg (by decide), if_neg (by decide), if_pos rfl]

/-- A front-running alert is shown with its duration in words. -/
theorem Alert.buildEvidenceDisplay_frontRunning (hname : alert.detectorName = ascii "FrontRunningDetector") :
    buildEvidenceDisplay P alert = ⟨humanizeFrontRunningDuration P alert.evidence, none⟩ := by
  rw [buildEvidenceDisplay, hname, if_neg (by decide), if_neg (by decide), if_neg (by decide), if_neg (by decide), if_pos rfl]

/-- A wash-trade alert is shown as it is. -/
theorem Alert.buildEvidenceDisplay_washTrade (hname : alert.detectorName = ascii "WashTradeDetector") :
    buildEvidenceDisplay P alert = ⟨alert.evidence, none⟩ := by
  rw [buildEvidenceDisplay, hname, if_neg (by decide), if_neg (by decide), if_neg (by decide), if_neg (by decide), if_neg (by decide)]

end Patterns

/-! ## The detectors -/

section Detectors

variable {book : OrderBook P} {e : Event P} {accounts : AccountRegistry} {alert : Alert P}

/-- Every alert of the wash-trade rule is shown so. -/
theorem WashTradeDetector.displayed (h : alert ∈ evaluate book e accounts) : alert.Displayed := by
  unfold evaluate at h
  cases e with
  | order o => simp at h
  | execution t =>
    simp only [List.mem_ite_nil_left, List.mem_singleton] at h
    obtain ⟨-, -, rfl⟩ := h
    exact .washTrade rfl (Alert.buildEvidenceDisplay_washTrade rfl)

/-- Every alert of the spoofing rule is shown so. -/
theorem SpoofingLayeringDetector.displayed {d : SpoofingLayeringDetector P} (h : alert ∈ (d.evaluate book e).2) : alert.Displayed := by
  unfold evaluate at h
  cases e with
  | execution t => simp at h
  | order o =>
    simp only at h
    split at h
    · simp at h
    · unfold handleCancel at h
      split at h
      · simp at h
      · simp only [apply_ite Prod.snd, List.mem_ite_nil_left, List.mem_singleton] at h
        obtain ⟨hplaced, -, rfl⟩ := h
        refine .spoofingLayering _ _ _ _ _ _ _ _ rfl rfl (Alert.shownAs_spoofingLayering _ _ _ _ _ _ _ ?_ rfl rfl)
        exact Int.sub_nonneg_of_le (not_lt.1 hplaced)
    · simp at h

/-- Every alert of a check of an account is shown so. -/
theorem MarkingTheCloseDetector.checkAccount_displayed {d : MarkingTheCloseDetector P} {i accountId : Str} {ws ts sequence : ℤ}
    (h : (d.checkAccount i accountId ws ts sequence accounts).2 = some alert) : alert.Displayed := by
  unfold checkAccount at h
  simp only [apply_ite Prod.snd, Option.ite_none_left_eq_some, Option.some.injEq] at h
  obtain ⟨-, -, -, -, rfl⟩ := h
  exact .markingTheClose _ _ _ rfl rfl (Alert.shownAs_markingTheClose _ _ _ _ rfl rfl)

/-- Every alert of the marking-the-close rule is shown so. -/
theorem MarkingTheCloseDetector.displayed {d : MarkingTheCloseDetector P} (h : alert ∈ (d.evaluate book e accounts).2) :
    alert.Displayed := by
  unfold evaluate at h
  cases e with
  | order o => simp at h
  | execution t =>
    simp only at h
    unfold handleExecution at h
    split at h
    · simp at h
    · simp only at h
      split at h
      · simp at h
      · split at h
        · simp only [List.mem_append, Option.mem_toList] at h
          rcases h with h | h <;> exact checkAccount_displayed h
        · simp only [Option.mem_toList] at h
          exact checkAccount_displayed h

/-- No duration begins before the one the detector writes, if the ids before it hold none. -/
theorem FrontRunningDetector.humanize_leadIn {accountId orderId : Str} (haccount : ¬ ascii "ns after" <:+: accountId)
    (horder : ¬ ascii "ns after" <:+: orderId) (qty : ℤ) (rest : Str) :
    humanizeFrontRunningDuration P (leadIn accountId orderId qty ++ rest) =
      leadIn accountId orderId qty ++ humanizeFrontRunningDuration P rest := by
  have hrelated : ∀ text, NoDuration (ascii "related account ") text := fun _ => noDuration_of_no_digit (by decide +kernel)
  have haccount : ∀ text, NoDuration accountId (ascii " placed order " ++ text) :=
    fun _ => noDuration_of_not_infix (d := 112) haccount (by decide)
  have hplaced : ∀ text, NoDuration (ascii " placed order ") text := fun _ => noDuration_of_no_digit (by decide +kernel)
  have horder : ∀ text, NoDuration orderId (ascii " (qty=" ++ text) :=
    fun _ => noDuration_of_not_infix (d := 40) horder (by decide)
  have hqty : ∀ text, NoDuration (ascii " (qty=") text := fun _ => noDuration_of_no_digit (by decide +kernel)
  have hamount : ∀ text, NoDuration (Decimal.ofInt qty) (ascii ") " ++ text) :=
    fun _ => noDuration_of_not_mem (d := 41) (not_mem_ofInt rfl qty) rfl (by decide)
  have hclose : ∀ text, NoDuration (ascii ") ") text := fun _ => noDuration_of_no_digit (by decide +kernel)
  simp only [leadIn, List.append_assoc]
  rw [humanize_append (hrelated _), humanize_append (haccount _), humanize_append (hplaced _), humanize_append (horder _),
    humanize_append (hqty _), humanize_append (hamount _), humanize_append (hclose _)]

/-- An alert about an order and an earlier one is shown so. -/
theorem FrontRunningDetector.alertFor_displayed {order : Order P} {prior : RecentOrder} (hle : prior.timestampNs ≤ order.timestampNs)
    (sequence : ℤ) : (alertFor order prior sequence).Displayed := by
  have hgap : digits (Decimal.ofInt (order.timestampNs - prior.timestampNs)) = true :=
    (digits_ofInt _).2 (Int.sub_nonneg_of_le hle)
  have hafter : ascii "ns after a large same-side order " = ascii "ns after" ++ ascii " a large same-side order " := by decide
  refine .frontRunning prior.accountId order.accountId prior.orderId order.orderId
    (ascii " a large same-side order " ++ prior.orderId ++ ascii " (qty=" ++ Decimal.ofInt prior.qty ++
      ascii ") from related account " ++ prior.accountId) order.qty rfl rfl rfl ?_
  have hevidence : (alertFor order prior sequence).evidence = leadIn order.accountId order.orderId order.qty ++
      (Decimal.ofInt (order.timestampNs - prior.timestampNs) ++ (ascii "ns after" ++ (ascii " a large same-side order " ++
        prior.orderId ++ ascii " (qty=" ++ Decimal.ofInt prior.qty ++ ascii ") from related account " ++ prior.accountId))) := by
    simp only [alertFor, leadIn, hafter, List.append_assoc]
  refine ⟨?_, fun haccount horder => ?_⟩
  · rw [hevidence]
    simp only [alertFor, List.append_assoc]
  · rw [Alert.buildEvidenceDisplay_frontRunning rfl, hevidence, humanize_leadIn haccount horder, humanize_duration hgap]
    simp only [alertFor, List.append_assoc]

/-- Every alert of the front-running rule is shown so. -/
theorem FrontRunningDetector.displayed {d : FrontRunningDetector P} (h : alert ∈ (d.evaluate book e accounts).2) :
    alert.Displayed := by
  unfold evaluate at h
  cases e with
  | execution t => simp at h
  | order o =>
    simp only at h
    split at h
    · simp only [handleNew, List.mem_map] at h
      obtain ⟨prior, hprior, rfl⟩ := h
      have hreacts := (List.mem_filter.1 hprior).2
      simp only [reacts, Bool.and_eq_true, decide_eq_true_eq] at hreacts
      exact alertFor_displayed hreacts.2 _
    · simp at h

/-- Every alert of the baseline rule is shown so. -/
theorem StatisticalBaselineDetector.displayed {d : StatisticalBaselineDetector P} (h : alert ∈ (d.evaluate book e).2) :
    alert.Displayed := by
  unfold evaluate at h
  cases e with
  | execution t => simp at h
  | order o =>
    simp only at h
    split at h
    · simp at h
    · unfold alertsFor at h
      simp only [List.mem_ite_nil_left, List.mem_singleton] at h
      obtain ⟨-, -, -, rfl⟩ := h
      exact .statisticalBaseline _ _ _ _ _ rfl (Alert.shownAs_statisticalBaseline _ _ _ _ _ rfl rfl)

/-- Every alert of the scoring worker is shown so. -/
theorem MlScoringWorker.displayed (request : ScoringRequest P) (result : ScoringResult P) : (alertOf request result).Displayed :=
  .mlAnomaly _ rfl rfl (Alert.shownAs_mlAnomaly _ _ rfl rfl)

/-- Every alert of a detector of the repository is shown so. -/
theorem IDetector.Provided.displayed {d : IDetector P} (hd : d.Provided) (h : alert ∈ (d.step book e accounts).2) :
    alert.Displayed := by
  cases hd with
  | washTrade => exact WashTradeDetector.displayed h
  | spoofingLayering d => exact SpoofingLayeringDetector.displayed h
  | markingTheClose d => exact MarkingTheCloseDetector.displayed h
  | frontRunning d => exact FrontRunningDetector.displayed h
  | statisticalBaseline d => exact StatisticalBaselineDetector.displayed h
  | mlAnomaly d => cases e <;> exact absurd h List.not_mem_nil

end Detectors

/-! ## Runs -/

/-- Whatever the events and the answers of the service, what the dashboard shows of an alert is what the detector has written. -/
theorem evidence_displayed {detectors : List (IDetector P)} (hd : ∀ d ∈ detectors, d.Provided) (accounts : AccountRegistry)
    (events : List (Event P)) (config : MlScoringWorkerConfig P) (answers : List (Option (ScoringResult P)))
    (requests : List (ScoringRequest P)) :
    (∀ alert ∈ (LivePipeline.make detectors accounts).alertsOf events, alert.Displayed) ∧
      ∀ alert ∈ ((answers.zip requests).foldl (fun w x => w.processOne x.1 x.2) (MlScoringWorker.make config)).alerts,
        alert.Displayed := by
  refine ⟨LivePipeline.alertsOf_forall (fun d hd _ _ _ _ ha => hd.displayed ha) hd events, fun alert ha => ?_⟩
  rw [MlScoringWorker.foldl_processOne, MlScoringWorker.make, List.nil_append] at ha
  simp only [MlScoringWorker.alertsFor, List.mem_filterMap, Option.bind_eq_some_iff, Option.ite_none_left_eq_some,
    Option.some.injEq] at ha
  obtain ⟨x, -, result, -, -, rfl⟩ := ha
  exact MlScoringWorker.displayed x.2 result

/-- An order and its fill, and a window that the service scores at four fifths. -/
theorem evidence_displayed_boughtFill :
    (∀ alert ∈ (LivePipeline.make [WashTradeDetector.object, (FrontRunningDetector.make {}).object] .empty).alertsOf
      [.order (toFixOrder bought), .execution (toFixExecution boughtFill .buy)], Alert.Displayed (P := ℚ) alert) ∧
    ∀ alert ∈ (([some (⟨4 / 5, ascii "v1"⟩ : ScoringResult ℚ)].zip [(⟨ascii "A", ascii "X", ∅, 0, 0⟩ : ScoringRequest ℚ)]).foldl
      (fun w x => w.processOne x.1 x.2) (MlScoringWorker.make {})).alerts, alert.Displayed := by
  refine evidence_displayed ?_ .empty _ {} _ _
  simp only [List.forall_mem_cons, List.not_mem_nil, false_implies, implies_true, and_true]
  exact ⟨.washTrade, .frontRunning _⟩

/-- The version of the model, as it is shown. -/
example :
    (buildEvidenceDisplay ℚ (MlScoringWorker.alertOf ⟨ascii "A", ascii "X", ∅, 0, 0⟩ ⟨4 / 5, ascii "v1"⟩)).metrics =
      some [⟨ascii "Model version", ascii "v1", none⟩] := by decide +kernel

end TradeSurveillance
