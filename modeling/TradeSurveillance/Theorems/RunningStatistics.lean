import TradeSurveillance.Detectors.Rules
import TradeSurveillance.Lemmas.ScoringWindow
import TradeSurveillance.Lib.Moments

/-!
# The running statistics of `StatisticalBaselineDetector` are exact

The one-pass update keeps the count, the average and the sum of squared deviations of the values seen, in rational arithmetic. What the
detector holds for a pair is the update folded over the quantities of the pair's New orders.
-/

namespace TradeSurveillance

namespace StatisticalBaselineDetector

open Moments

/-! ## Over any doubles -/

section Runs

variable {P : Type} [Double P] [LinearOrder P]

omit [LinearOrder P] in
/-- The statistics of some values. -/
def statsOf (values : List P) : RunningStats P := values.foldl update {}

omit [LinearOrder P] in
theorem statsOf_concat (values : List P) (value : P) : statsOf (values ++ [value]) = update (statsOf values) value := by
  rw [statsOf, List.foldl_append]
  rfl

/-- The detector after calls of `evaluate`, each with its book. -/
def after (config : StatisticalBaselineConfig P) (calls : List (OrderBook P × Event P)) : StatisticalBaselineDetector P :=
  calls.foldl (fun d c => (d.evaluate c.1 c.2).1) (make config)

omit [LinearOrder P] in
/-- The value an event adds to the statistics of a pair. -/
def observed (key : Str) : Event P → Option P
  | .order order => if order.status = .new ∧ pairKey order.accountId order.instrumentId = key then some (order.qty : P) else none
  | .execution _ => none

/-- An event adds its value to the statistics of its pair, and no others. -/
theorem lookup_evaluate (d : StatisticalBaselineDetector P) (book : OrderBook P) (incoming : Event P) (key : Str) :
    ((d.evaluate book incoming).1.statsByKey.lookup key).getD {} =
      (observed key incoming).toList.foldl update ((d.statsByKey.lookup key).getD {}) := by
  unfold evaluate observed
  cases incoming with
  | execution _ => rfl
  | order order =>
    by_cases hnew : order.status = .new
    · simp only [hnew, ne_eq, not_true_eq_false, if_false, true_and]
      by_cases hkey : pairKey order.accountId order.instrumentId = key
      · rw [if_pos hkey, ← hkey, pairKey, Finmap.lookup_insert]
        rfl
      · rw [if_neg hkey, ← pairKey, Finmap.lookup_insert_of_ne _ (Ne.symm hkey)]
        rfl
    · simp only [hnew, ne_eq, not_false_eq_true, if_true, false_and, if_false]
      rfl

/-- The statistics of a pair are those of the quantities of its New orders. -/
theorem lookup_after (config : StatisticalBaselineConfig P) (calls : List (OrderBook P × Event P)) (key : Str) :
    ((after config calls).statsByKey.lookup key).getD {} = statsOf (calls.filterMap fun c => observed key c.2) := by
  induction calls using List.reverseRecOn with
  | nil => rfl
  | append_singleton calls c ih =>
    have hstep : after config (calls ++ [c]) = ((after config calls).evaluate c.1 c.2).1 := by
      rw [after, List.foldl_append]
      rfl
    have hvalue : ([c].filterMap fun c => observed key c.2) = (observed key c.2).toList := by
      cases h : observed key c.2 <;> simp [h]
    rw [hstep, lookup_evaluate, ih, List.filterMap_append, hvalue, statsOf, statsOf, List.foldl_append]

end Runs

/-! ## Over the rationals -/

/-- The statistics of some values say of them what they are for. -/
structure Exact (values : List ℚ) (stats : RunningStats ℚ) : Prop where
  count : stats.count = values.length
  mean : stats.mean = average values
  m2 : stats.m2 = squares values
  sampleVariance : sampleVariance stats = if 1 < values.length then stats.m2 / (values.length - 1) else 0
  nonneg : 0 ≤ stats.m2
  order : ∀ values', values'.Perm values → statsOf values' = stats

/-- One value more: the mean moves to the new average, and the product of the two deltas is what the squares grow by. -/
theorem update_eq (values : List ℚ) (value : ℚ) : update ⟨values.length, average values, squares values⟩ value =
    ⟨(values ++ [value]).length, average (values ++ [value]), squares (values ++ [value])⟩ := by
  have hmean : average values + (value - average values) / (((values.length : ℤ) + 1 : ℤ) : ℚ) = average (values ++ [value]) := by
    rw [average_concat]
    push_cast
    rfl
  have hlength : ((values ++ [value]).length : ℤ) = values.length + 1 := by simp
  rw [squares_concat, hlength, ← hmean]
  rfl

theorem statsOf_eq (values : List ℚ) : statsOf values = ⟨values.length, average values, squares values⟩ := by
  induction values using List.reverseRecOn with
  | nil =>
    have hzero : (0.0 : ℚ) = 0 := by norm_num
    show (⟨0, 0.0, 0.0⟩ : RunningStats ℚ) = ⟨_, average [], squares []⟩
    rw [average_nil, squares_nil, hzero]
    rfl
  | append_singleton values value ih => rw [statsOf_concat, ih, update_eq]

theorem exact_moments (values : List ℚ) : Exact values ⟨values.length, average values, squares values⟩ := by
  refine ⟨rfl, rfl, rfl, ?_, squares_nonneg values, ?_⟩
  · unfold StatisticalBaselineDetector.sampleVariance
    by_cases hlength : 1 < values.length
    · rw [if_pos hlength, if_pos (show (values.length : ℤ) > 1 by omega)]
      push_cast
      rfl
    · rw [if_neg hlength, if_neg (show ¬(values.length : ℤ) > 1 by omega)]
      norm_num
  · intro values' hperm
    rw [statsOf_eq, average_perm hperm, squares_perm hperm, hperm.length_eq]

/-- Whatever the values and their order: the statistics are the count, the average and the squares of the deviations from it. -/
theorem update_exact (values : List ℚ) : Exact values (values.foldl update {}) := by
  have h := statsOf_eq values
  rw [statsOf] at h
  rw [h]
  exact exact_moments values

/-- What an order of a pair is compared with: the average and the deviations of the pair's New orders so far. -/
theorem evaluate_exact (config : StatisticalBaselineConfig ℚ) (calls : List (OrderBook ℚ × Event ℚ)) (key : Str) :
    Exact (calls.filterMap fun c => observed key c.2) (((after config calls).statsByKey.lookup key).getD {}) := by
  rw [lookup_after, statsOf_eq]
  exact exact_moments _

end StatisticalBaselineDetector

end TradeSurveillance
