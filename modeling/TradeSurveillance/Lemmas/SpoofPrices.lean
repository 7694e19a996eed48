import TradeSurveillance.Lemmas.SpoofRoles

/-!
# The prices of a spoof

Computed prices are near the exact ones (`Double.Near`): the dominant anchor is seven ticks from the reference price, the fallback and
the genuine order one tick on the other side of it. The eight ticks between them are more than `min_opposite_price_move` where a tick is
a hundredth, and less where it is a ten-thousandth (`SpoofRoles.Of.movedFavorably_iff`).
-/

namespace TradeSurveillance.Simulator

open Double

variable {P : Type} [Double P] [LinearOrder P] [DoubleRounding P] [RoundedDouble P] {instrument : Instrument P}
  {basePrice away tick price : P} {r σ τ : ℚ}

/-- A whole number of ticks that is near the reference price. -/
theorem between_referencePriceRounded [ExactDouble P] (hbase : Between basePrice 0 256)
    (htick : Between instrument.tickSize (1 / 16384) (1 / 64)) : Between (referencePriceRounded instrument basePrice) 0 65536 := by
  have hpos : 0 < RoundedDouble.value instrument.tickSize := lt_of_lt_of_le (by norm_num) htick.mem.1
  have hquot : Between (basePrice / instrument.tickSize) 0 (2 ^ 22) := by
    refine .div hbase.finite htick.finite hpos.ne' ⟨div_nonneg hbase.mem.1 hpos.le, ?_⟩ (by norm_num) (by norm_num)
    rw [div_le_iff₀ hpos]
    calc RoundedDouble.value basePrice ≤ 256 := hbase.mem.2
      _ = 2 ^ 22 * (1 / 16384) := by norm_num
      _ ≤ 2 ^ 22 * RoundedDouble.value instrument.tickSize := mul_le_mul_of_nonneg_left htick.mem.1 (by norm_num)
  obtain ⟨hfinite, hvalue⟩ := ExactDouble.round hquot.finite
  have hround : Between (DoubleRounding.round (basePrice / instrument.tickSize)) 0 (2 ^ 22) := by
    refine ⟨hfinite, ?_⟩
    rw [hvalue]
    constructor
    · exact_mod_cast le_roundHalfAway (n := 0) (by exact_mod_cast hquot.mem.1)
    · exact_mod_cast roundHalfAway_le (n := 4194304) (hquot.mem.2.trans (by norm_num))
  exact (hround.mul_of_nonneg htick le_rfl (by norm_num) (by norm_num) (by norm_num)).mono (by norm_num) (by norm_num)

theorem near_one : Near (1.0 : P) 1 ulp := near_ofScientific 10 true 1 (by norm_num) (by norm_num)

theorem abs_mul_le_one (hσ : |σ| ≤ 1) (hτ : |τ| ≤ 1) : |σ * τ| ≤ 1 := by
  rw [abs_mul]
  exact mul_le_one₀ hσ (abs_nonneg _) hτ

/-- The dominant anchor is seven ticks away. -/
theorem near_dominant (haway : Near away σ ulp) (hσ : |σ| ≤ 1) (htick : Near tick τ ulp) (hτ : |τ| ≤ 1) (hprice : Near price r 0)
    (hr : |r| ≤ 65536) : Near (price + away * (8.0 - 1.0) * tick) (r + σ * 7 * τ) (1 / 2 ^ 15) := by
  have height : Near (8.0 : P) 8 ulp := near_ofScientific 80 true 1 (by norm_num) (by norm_num)
  have hseven : Near (8.0 - 1.0 : P) (8 - 1) (3 * ulp) :=
    height.sub near_one (a := 8) (b := 1) (by norm_num) (by norm_num) (by norm_num [ulp]) (by norm_num [ulp])
  rw [show (8 - 1 : ℚ) = 7 by norm_num] at hseven
  have hticks := haway.mul hseven (a := 1) (b := 7) (f := 12 * ulp) hσ (by norm_num) (by norm_num [ulp]) (by norm_num [ulp])
  have hsigned : |σ * 7| ≤ 7 := by
    rw [abs_mul]
    norm_num
    linarith
  have hoffset := hticks.mul htick (a := 7) (b := 1) (f := 21 * ulp) hsigned hτ (by norm_num [ulp]) (by norm_num [ulp])
  have hfar : |σ * 7 * τ| ≤ 7 := by
    rw [abs_mul]
    exact (mul_le_mul hsigned hτ (abs_nonneg _) (by norm_num)).trans (by norm_num)
  exact hprice.add hoffset (a := 65536) (b := 7) hr hfar (by norm_num [ulp]) (by norm_num [ulp])

/-- The fallback is a tick on the other side. -/
theorem near_fallback (haway : Near away σ ulp) (hσ : |σ| ≤ 1) (htick : Near tick τ ulp) (hτ : |τ| ≤ 1) (hprice : Near price r 0)
    (hr : |r| ≤ 65536) : Near (price - away * 1.0 * tick) (r - σ * τ) (1 / 2 ^ 15) := by
  have hticks := haway.mul near_one (a := 1) (b := 1) (f := 4 * ulp) hσ (by norm_num) (by norm_num [ulp]) (by norm_num [ulp])
  rw [mul_one] at hticks
  have hoffset := hticks.mul htick (a := 1) (b := 1) (f := 7 * ulp) hσ hτ (by norm_num [ulp]) (by norm_num [ulp])
  exact hprice.sub hoffset (a := 65536) (b := 1) hr (abs_mul_le_one hσ hτ) (by norm_num [ulp]) (by norm_num [ulp])

/-- The genuine order too. -/
theorem near_genuine (haway : Near away σ ulp) (hσ : |σ| ≤ 1) (htick : Near tick τ ulp) (hτ : |τ| ≤ 1) (hprice : Near price r 0)
    (hr : |r| ≤ 65536) : Near (price - away * tick) (r - σ * τ) (1 / 2 ^ 15) := by
  have hoffset := haway.mul htick (a := 1) (b := 1) (f := 4 * ulp) hσ hτ (by norm_num [ulp]) (by norm_num [ulp])
  exact hprice.sub hoffset (a := 65536) (b := 1) hr (abs_mul_le_one hσ hτ) (by norm_num [ulp]) (by norm_num [ulp])

/-- The best price falls or rises by eight ticks. -/
theorem near_move {now placed : P} (hnow : Near now (r - σ * τ) (1 / 2 ^ 15)) (hplaced : Near placed (r + σ * 7 * τ) (1 / 2 ^ 15))
    (hσ : |σ| ≤ 1) (hτ : |τ| ≤ 1) (hr : |r| ≤ 65536) : Near (now - placed) (-(8 * (σ * τ))) (1 / 2 ^ 13) := by
  obtain ⟨hlow, hhigh⟩ := abs_le.1 (abs_mul_le_one hσ hτ)
  obtain ⟨hrlow, hrhigh⟩ := abs_le.1 hr
  have hmove := hnow.sub hplaced (a := 65537) (b := 65543) (f := 1 / 2 ^ 13) (abs_le.2 ⟨by linarith, by linarith⟩)
    (abs_le.2 ⟨by linarith, by linarith⟩) (by norm_num) (by norm_num [ulp])
  have heq : r - σ * τ - (r + σ * 7 * τ) = -(8 * (σ * τ)) := by ring
  rwa [heq] at hmove

omit [LinearOrder P] [DoubleRounding P] [RoundedDouble P] in
/-- A tick is a hundredth, of currency pairs a ten-thousandth. -/
theorem tickSize_of_mem {config : InstrumentUniverseConfig} (h : instrument ∈ buildInstrumentUniverse config) :
    instrument.assetClass ≠ .fx ∧ instrument.tickSize = 0.01 ∨ instrument.assetClass = .fx ∧ instrument.tickSize = 0.0001 := by
  unfold buildInstrumentUniverse at h
  simp only [List.mem_append, List.mem_map] at h
  rcases h with (⟨symbol, -, rfl⟩ | ⟨symbol, -, rfl⟩) | ⟨symbol, -, rfl⟩
  · exact .inl ⟨(fun hfx => by cases hfx), rfl⟩
  · exact .inr ⟨rfl, rfl⟩
  · exact .inl ⟨(fun hfx => by cases hfx), rfl⟩

theorem between_tickSize {config : InstrumentUniverseConfig} (h : instrument ∈ buildInstrumentUniverse config) :
    Between instrument.tickSize (1 / 16384) (1 / 64) := by
  rcases tickSize_of_mem h with ⟨-, htick⟩ | ⟨-, htick⟩
  · rw [htick]
    exact between_ofScientific 1 true 2 (by decide +kernel) (by decide +kernel) ⟨by norm_num, by norm_num⟩
  · rw [htick]
    exact between_ofScientific 1 true 4 (by decide +kernel) (by decide +kernel) ⟨by norm_num, by norm_num⟩

/-- A reference price, whatever the hash. -/
theorem between_referencePrice (hash : Str → ℕ) (instrument : Instrument P) : Between (referencePrice hash instrument) 0 256 := by
  have hjitter : Between ((((hash instrument.instrumentId % 1000 : ℕ) : ℤ) : P) / 1000.0) 0 1 := by
    have hnum : Between (((hash instrument.instrumentId % 1000 : ℕ) : ℤ) : P) (0 : ℤ) (1000 : ℤ) :=
      between_intCast (by decide) (by decide) ⟨by omega, by omega⟩
    have hden : Between (1000.0 : P) 1000 1000 := between_literal 10000 1 (by norm_num) (by norm_num)
    have hpos : 0 < RoundedDouble.value (1000.0 : P) := lt_of_lt_of_le (by norm_num) hden.mem.1
    have hle : RoundedDouble.value (((hash instrument.instrumentId % 1000 : ℕ) : ℤ) : P) ≤ RoundedDouble.value (1000.0 : P) :=
      (hnum.mem.2.trans (by norm_num)).trans hden.mem.1
    refine .div hnum.finite hden.finite hpos.ne' ⟨div_nonneg ?_ hpos.le, (div_le_one hpos).2 hle⟩ (by norm_num) (by norm_num)
    exact_mod_cast hnum.mem.1
  have hscaled : ∀ {base spread : P} {a b : ℚ}, Between base 0 a → Between spread 0 b → Exact b → Exact (a + b) → a + b ≤ 256 →
      Between (base + (((hash instrument.instrumentId % 1000 : ℕ) : ℤ) : P) / 1000.0 * spread) 0 256 := by
    intro base spread a b hbase hspread hb hab hle
    have hprod := hjitter.mul_of_nonneg hspread le_rfl le_rfl (by norm_num) (by rwa [one_mul])
    rw [mul_zero, one_mul] at hprod
    have hsum := hbase.add hprod (by norm_num) hab
    exact hsum.mono (by norm_num) hle
  unfold referencePrice
  simp only
  cases instrument.assetClass with
  | equity =>
    have hbase : Between (50.0 : P) 0 50 := (between_literal 500 1 (by norm_num) (by norm_num)).mono (by norm_num) le_rfl
    have hspread : Between (150.0 : P) 0 150 := (between_literal 1500 1 (by norm_num) (by norm_num)).mono (by norm_num) le_rfl
    exact hscaled hbase hspread (by norm_num) (by norm_num) (by norm_num)
  | fx =>
    have hbase : Between (0.8 : P) 0 1 := between_unit 8 1 ⟨by norm_num, by norm_num⟩
    exact hscaled hbase hbase (by norm_num) (by norm_num) (by norm_num)
  | fixedIncome =>
    have hbase : Between (95.0 : P) 0 95 := (between_literal 950 1 (by norm_num) (by norm_num)).mono (by norm_num) le_rfl
    have hspread : Between (10.0 : P) 0 10 := (between_literal 100 1 (by norm_num) (by norm_num)).mono (by norm_num) le_rfl
    exact hscaled hbase hspread (by norm_num) (by norm_num) (by norm_num)

/-! ## The move -/

/-- A tick is near a fraction that tells the currency pairs. -/
theorem near_tickSize {config : InstrumentUniverseConfig} (h : instrument ∈ buildInstrumentUniverse config) :
    ∃ τ : ℚ, |τ| ≤ 1 ∧ Near instrument.tickSize τ ulp ∧
      (instrument.assetClass ≠ .fx ∧ τ = 1 / 100 ∨ instrument.assetClass = .fx ∧ τ = 1 / 10000) := by
  rcases tickSize_of_mem h with ⟨hclass, htick⟩ | ⟨hclass, htick⟩
  · have hnear : Near (0.01 : P) (1 / 100) ulp := near_ofScientific 1 true 2 (by norm_num) (by norm_num)
    exact ⟨1 / 100, by norm_num, htick ▸ hnear, .inl ⟨hclass, rfl⟩⟩
  · have hnear : Near (0.0001 : P) (1 / 10000) ulp := near_ofScientific 1 true 4 (by norm_num) (by norm_num)
    exact ⟨1 / 10000, by norm_num, htick ▸ hnear, .inr ⟨hclass, rfl⟩⟩

variable [ExactDouble P]

theorem near_awaySign (side : Side) : ∃ σ : ℚ, |σ| ≤ 1 ∧ Near (side.awaySign : P) σ ulp ∧
    (side = .buy ∧ σ = -1 ∨ side = .sell ∧ σ = 1) := by
  cases side with
  | buy => exact ⟨-1, by norm_num, near_one.neg, .inl ⟨rfl, rfl⟩⟩
  | sell => exact ⟨1, by norm_num, near_one, .inr ⟨rfl, rfl⟩⟩

/-- From the dominant anchor's price to the fallback's or the genuine order's is a move in favor of a layer, but for currency pairs. -/
theorem SpoofRoles.Of.movedFavorably_iff {s : SpoofRoles P} {side : Side} {config : InstrumentUniverseConfig} {hash : Str → ℕ}
    {anchorTimeNs : ℤ} {severity now : P} {out : ScenarioOutput P}
    (hs : s.Of side instrument (referencePrice hash instrument) anchorTimeNs severity out)
    (hi : instrument ∈ buildInstrumentUniverse config) (hnow : now = s.fallback.price ∨ now = s.genuine.price) {t : TrackedOrder P}
    (hside : t.side = Harness.toFixSide side) (hplaced : t.oppositeBestAtPlacement = some s.dominant.price) :
    SpoofingLayeringDetector.movedFavorably {} t (some now) = true ↔ instrument.assetClass ≠ .fx := by
  obtain ⟨σ, hσ, haway, hsign⟩ := near_awaySign (P := P) side
  obtain ⟨τ, hτ, htick, hclass⟩ := near_tickSize hi
  have hprice := between_referencePriceRounded (between_referencePrice hash instrument) (between_tickSize hi)
  have hr : |RoundedDouble.value (referencePriceRounded instrument (referencePrice hash instrument))| ≤ 65536 :=
    abs_le.2 ⟨by linarith [hprice.mem.1], hprice.mem.2⟩
  have hnow' : Near now (RoundedDouble.value (referencePriceRounded instrument (referencePrice hash instrument)) - σ * τ) (1 / 2 ^ 15) := by
    rcases hnow with rfl | rfl
    · rw [hs.fallbackPrice]
      exact near_fallback haway hσ htick hτ (near_value hprice.finite) hr
    · rw [hs.genuinePrice]
      exact near_genuine haway hσ htick hτ (near_value hprice.finite) hr
  have hdominant := near_dominant haway hσ htick hτ (near_value hprice.finite) hr
  rw [← hs.dominantPrice] at hdominant
  have hmove := near_move hnow' hdominant hσ hτ hr
  have hleast : Near (0.01 : P) (1 / 100) ulp := near_ofScientific 1 true 2 (by norm_num) (by norm_num)
  unfold SpoofingLayeringDetector.movedFavorably
  rw [hplaced]
  rcases hsign with ⟨rfl, rfl⟩ | ⟨rfl, rfl⟩
  · rw [hside]
    simp only [Harness.toFixSide, decide_eq_true_eq]
    rcases hclass with ⟨hclass, rfl⟩ | ⟨hclass, rfl⟩
    · exact iff_of_true (hleast.le_of_add_le hmove (by norm_num [ulp])) hclass
    · exact iff_of_false (not_le.2 (hmove.lt_of_add_lt hleast (by norm_num [ulp]))) (not_not.2 hclass)
  · rw [hside]
    simp only [Harness.toFixSide, decide_eq_true_eq]
    rcases hclass with ⟨hclass, rfl⟩ | ⟨hclass, rfl⟩
    · exact iff_of_true (hmove.le_of_add_le hleast.neg (by norm_num [ulp])) hclass
    · exact iff_of_false (not_le.2 (hleast.neg.lt_of_add_lt hmove (by norm_num [ulp]))) (not_not.2 hclass)

end TradeSurveillance.Simulator
