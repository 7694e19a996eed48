import TradeSurveillance.Double

/-!
# `random_utils`: draws

A draw is an argument: whatever is passed, the function brings it into the range that the source draws from, and every value of the
range is drawn. How likely a value is has no part in the model.
-/

namespace TradeSurveillance.Simulator

/-- `uniform_int64`. -/
def uniformInt64 (draw lo hi : ℤ) : ℤ := if hi ≤ lo then lo else lo + draw % (hi - lo + 1)

/-- `pick_random`. The source must not pick from an empty list. -/
def pickRandom {α : Type} (draw : ℕ) (values : List α) : Option α := values[draw % values.length]?

section Doubles

variable {P : Type} [Double P] [LinearOrder P]

/-- `uniform_double`. -/
def uniformDouble (draw lo hi : P) : P := Double.clamp draw lo hi

omit [LinearOrder P] in
/-- `lerp`. -/
def lerp (lo hi t : P) : P := lo + (hi - lo) * t

variable [DoubleRounding P]

/-- `poisson_interarrival_ns`: an exponential gap is any that is not negative, whatever the rate. -/
def poissonInterarrivalNs (draw : P) : ℤ := DoubleRounding.llround (max draw 0.0 * 1e9)

/-- The value at `u` of the line between two points. -/
def interpolate (u loP hiP : P) (loV hiV : ℤ) : ℤ :=
  let bracketWidth := hiP - loP
  let t := if bracketWidth > 0.0 then (u - loP) / bracketWidth else 0.0
  DoubleRounding.llround ((loV : P) + t * ((hiV - loV : ℤ) : P))

/-- The loop of `sample_from_percentiles`; there must be two points at least. -/
def samplePercentile (u : P) : List (P × ℤ) → ℤ
  | [] => 0
  | [(_, v)] => v
  | (loP, loV) :: (hiP, hiV) :: points =>
    if u ≤ hiP then interpolate u loP hiP loV hiV else samplePercentile u ((hiP, hiV) :: points)

/-- `sample_from_percentiles`. -/
def sampleFromPercentiles (draw : P) (points : List (P × ℤ)) : ℤ := samplePercentile (uniformDouble draw 0.0 1.0) points

end Doubles

/-! ## Ranges -/

/-- No draw is below the lower bound. -/
theorem le_uniformInt64 (draw lo hi : ℤ) : lo ≤ uniformInt64 draw lo hi := by
  unfold uniformInt64
  split
  · exact le_refl lo
  · have hmod := Int.emod_nonneg draw (b := hi - lo + 1) (by omega)
    omega

/-- No draw is above the upper bound. -/
theorem uniformInt64_le (draw : ℤ) {lo hi : ℤ} (h : lo ≤ hi) : uniformInt64 draw lo hi ≤ hi := by
  unfold uniformInt64
  split
  · exact h
  · have hmod := Int.emod_lt_of_pos draw (b := hi - lo + 1) (by omega)
    omega

/-- Every value of the range is drawn. -/
theorem exists_uniformInt64 {lo hi n : ℤ} (hlo : lo ≤ n) (hhi : n ≤ hi) : ∃ draw, uniformInt64 draw lo hi = n := by
  refine ⟨n - lo, ?_⟩
  unfold uniformInt64
  split
  · omega
  · rw [Int.emod_eq_of_lt (by omega) (by omega)]
    omega

/-- What is picked is one of the values. -/
theorem mem_of_pickRandom {α : Type} {draw : ℕ} {values : List α} {a : α} (h : pickRandom draw values = some a) : a ∈ values :=
  List.mem_of_getElem? h

/-- Each value is picked by some draw. -/
theorem exists_pickRandom {α : Type} {values : List α} {a : α} (h : a ∈ values) : ∃ draw, pickRandom draw values = some a := by
  obtain ⟨i, hi, rfl⟩ := List.getElem_of_mem h
  refine ⟨i, ?_⟩
  rw [pickRandom, Nat.mod_eq_of_lt hi, List.getElem?_eq_getElem hi]

theorem uniformDouble_of_mem {P : Type} [Double P] [LinearOrder P] {x lo hi : P} (hlo : lo ≤ x) (hhi : x ≤ hi) :
    uniformDouble x lo hi = x := by
  rw [uniformDouble, Double.clamp, if_neg (not_lt.2 hlo), if_neg (not_lt.2 hhi)]

end TradeSurveillance.Simulator
