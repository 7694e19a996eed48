import TradeSurveillance.Lemmas.DoubleArithmetic
import TradeSurveillance.Simulator.Abuse.SpoofingLayering

/-!
# Amounts that the order of a session rests on

An order of the baseline has a quantity; the second leg of a wash trade does not precede the first; the layers of a spoof dwell for
longer than the cancels of them are spread.
-/

namespace TradeSurveillance.Simulator

open Double RoundedDouble

variable {P : Type} [Double P] [LinearOrder P] [DoubleRounding P] [RoundedDouble P] {severity : P}

/-- A literal between zero and one. -/
theorem between_unit (m e : ℕ) (h : (OfScientific.ofScientific m true e : ℚ) ∈ Set.Icc 0 1) :
    Between (OfScientific.ofScientific m true e : P) 0 1 :=
  between_ofScientific m true e (by norm_num) (by norm_num) h

theorem between_zero : Between (0.0 : P) 0 0 :=
  between_literal 0 1 (by norm_num) (by norm_num)

theorem between_one : Between (1.0 : P) 1 1 :=
  between_literal 10 1 (by norm_num) (by norm_num)

theorem between_severity (hzero : 0.0 ≤ severity) (hone : severity ≤ 1.0) : Between severity 0 1 :=
  between_of_le_of_le between_zero between_one hzero hone

theorem between_uniformDouble (draw : P) : Between (uniformDouble draw 0.0 1.0) 0 1 := by
  have hle : (0.0 : P) ≤ 1.0 := (le_iff between_zero.finite between_one.finite).2
    (between_zero.mem.2.trans (zero_le_one.trans between_one.mem.1))
  exact between_severity (le_clamp hle) (clamp_le hle)

/-! ## Samples -/

/-- A rounded difference from one number grows with the other. -/
theorem value_sub_le {x y z : P} (hx : Between x 0 1) (hy : Between y 0 1) (hz : Between z 0 1) (h : value x ≤ value y) :
    value (x - z) ≤ value (y - z) := by
  have hbound : ∀ {w : P}, Between w 0 1 → |value w - value z| ≤ 2 ^ 1023 := by
    intro w hw
    have hone : |value w - value z| ≤ 1 := abs_le.2 ⟨by linarith [hw.mem.1, hz.mem.2], by linarith [hw.mem.2, hz.mem.1]⟩
    exact hone.trans (one_le_pow₀ (by norm_num))
  rw [(sub hx.finite hz.finite (hbound hx)).2, (sub hy.finite hz.finite (hbound hy)).2]
  exact Rounding.mono _ (sub_le_sub_right h _)

/-- What lies between two points is not below the lower one. -/
theorem le_interpolate {u loP hiP : P} {loV hiV : ℤ} (hu : Between u 0 1) (hlo : Between loP 0 1) (hhi : Between hiP 0 1)
    (hlow : value loP ≤ value u) (hhigh : u ≤ hiP) (hV : loV ≤ hiV) (hpos : 0 ≤ loV) (hbound : hiV ≤ 2 ^ 53) :
    loV ≤ interpolate u loP hiP loV hiV := by
  unfold interpolate
  extract_lets bracketWidth t
  have hle := value_sub_le hu hhi hlo ((le_iff hu.finite hhi.finite).1 hhigh)
  have hzero : (0 : ℚ) ≤ value (u - loP) ∧ isFinite (u - loP) = true := by
    have hdiff : Between (u - loP) 0 1 := between_of_hasValue (RoundedDouble.sub hu.finite hlo.finite) (by norm_num) (by norm_num)
      ⟨sub_nonneg.2 hlow, by linarith [hu.mem.2, hlo.mem.1]⟩
    exact ⟨hdiff.mem.1, hdiff.finite⟩
  have ht : Between t 0 1 := by
    by_cases hwidth : bracketWidth > 0.0
    · have hw : Between bracketWidth (-1) 1 := (hhi.sub hlo (by norm_num) (by norm_num)).mono (by norm_num) (by norm_num)
      have hpos : 0 < value bracketWidth := by
        have hlt := not_le.2 hwidth
        rw [le_iff hw.finite between_zero.finite, not_le] at hlt
        exact between_zero.mem.1.trans_lt hlt
      rw [show t = (u - loP) / bracketWidth from if_pos hwidth]
      exact .div hzero.2 hw.finite hpos.ne' ⟨div_nonneg hzero.1 hpos.le, (div_le_one hpos).2 hle⟩ (by norm_num) (by norm_num)
    · rw [show t = 0.0 from if_neg hwidth]
      exact between_zero.mono le_rfl zero_le_one
  have hloV : Between (loV : P) loV loV := between_intCast_self (by rw [abs_le]; omega)
  have hdiff : Between ((hiV - loV : ℤ) : P) (0 : ℤ) (hiV - loV : ℤ) :=
    between_intCast (by decide) (by rw [abs_le]; omega) ⟨by omega, le_rfl⟩
  have hexact : ∀ {n : ℤ}, 0 ≤ n → n ≤ 2 ^ 53 → Exact (n : ℚ) := fun h₁ h₂ => Rounding.intCast_mem_binary (by rw [abs_le]; omega)
  have hprod := ht.mul_of_nonneg hdiff le_rfl (by norm_num) (by simp)
    (by rw [one_mul]; exact hexact (by omega) (by omega))
  rw [zero_mul, one_mul] at hprod
  have hlower : Exact ((loV : ℚ) + 0) := by rw [add_zero]; exact hexact hpos (by omega)
  have hupper : Exact ((loV : ℚ) + (hiV - loV : ℤ)) := by
    rw [← Int.cast_add, add_sub_cancel]
    exact hexact (by omega) hbound
  exact (hloV.add hprod hlower hupper).le_llround hlower hupper (by rw [add_zero])

/-- A sample is not below the values of the points. -/
theorem le_samplePercentile {u : P} (hu : Between u 0 1) {m : ℤ} (hm : 0 ≤ m) {points : List (P × ℤ)} (hne : points ≠ [])
    (hpoints : ∀ p ∈ points, Between p.1 0 1 ∧ m ≤ p.2 ∧ p.2 ≤ 2 ^ 53) (hV : (points.map Prod.snd).Pairwise (· ≤ ·))
    (hfirst : ∀ p ∈ points.head?, value p.1 ≤ value u) : m ≤ samplePercentile u points := by
  fun_induction samplePercentile u points with
  | case1 => exact absurd rfl hne
  | case2 _ v => exact (hpoints _ List.mem_cons_self).2.1
  | case3 loP loV hiP hiV points hle =>
    obtain ⟨hlo, hmlo, -⟩ := hpoints (loP, loV) List.mem_cons_self
    obtain ⟨hhi, -, hbound⟩ := hpoints (hiP, hiV) (List.mem_cons_of_mem _ List.mem_cons_self)
    have hlohi : loV ≤ hiV := (List.pairwise_cons.1 hV).1 hiV List.mem_cons_self
    exact hmlo.trans (le_interpolate hu hlo hhi (hfirst _ rfl) hle hlohi (hm.trans hmlo) hbound)
  | case4 loP loV hiP hiV points hle ih =>
    refine ih nofun (fun p hp => hpoints p (List.mem_cons_of_mem _ hp)) (List.pairwise_cons.1 hV).2 fun p hp => ?_
    obtain rfl : (hiP, hiV) = p := Option.some.inj hp
    have hhi := (hpoints (hiP, hiV) (List.mem_cons_of_mem _ List.mem_cons_self)).1
    exact ((le_iff hhi.finite hu.finite).1 (le_of_not_ge hle))

/-- The quantity of a baseline order. -/
theorem one_le_tradeSize (draw : P) : 1 ≤ sampleFromPercentiles draw tradeSizePercentiles := by
  refine le_samplePercentile (between_uniformDouble draw) zero_le_one (List.cons_ne_nil _ _) ?_ ?_ ?_
  · unfold tradeSizePercentiles
    simp only [List.forall_mem_cons, List.not_mem_nil, false_implies, implies_true, and_true]
    exact ⟨⟨between_unit 0 2 ⟨by norm_num, by norm_num⟩, by norm_num⟩, ⟨between_unit 10 2 ⟨by norm_num, by norm_num⟩, by norm_num⟩,
      ⟨between_unit 25 2 ⟨by norm_num, by norm_num⟩, by norm_num⟩, ⟨between_unit 50 2 ⟨by norm_num, by norm_num⟩, by norm_num⟩,
      ⟨between_unit 75 2 ⟨by norm_num, by norm_num⟩, by norm_num⟩, ⟨between_unit 90 2 ⟨by norm_num, by norm_num⟩, by norm_num⟩,
      ⟨between_unit 99 2 ⟨by norm_num, by norm_num⟩, by norm_num⟩, ⟨between_unit 100 2 ⟨by norm_num, by norm_num⟩, by norm_num⟩⟩
  · show ([1, 1, 4, 20, 50, 100, 460, 460] : List ℤ).Pairwise (· ≤ ·)
    decide
  · intro p hp
    obtain rfl : _ = p := Option.some.inj hp
    have hzero : Between (0.00 : P) 0 0 := between_literal 0 2 (by norm_num) (by norm_num)
    exact hzero.mem.2.trans (between_uniformDouble draw).mem.1

/-! ## Delays -/

/-- The time between the legs of a wash trade. -/
theorem legGap_nonneg (h : Between severity 0 1) : 0 ≤ DoubleRounding.truncate (lerp 30000000000.0 200000000.0 severity : P) := by
  have hlo : Between (30000000000.0 : P) 30000000000 30000000000 :=
    between_literal 300000000000 1 (by norm_num) (by norm_num)
  have hhi : Between (200000000.0 : P) 200000000 200000000 :=
    between_literal 2000000000 1 (by norm_num) (by norm_num)
  have hgap := hlo.lerp hhi h (by norm_num) le_rfl (by norm_num) (by norm_num) (by norm_num) (by norm_num)
    (by norm_num) (by norm_num)
  exact hgap.le_truncate (by norm_num) (by norm_num) (by norm_num)

/-- `dwell_ns` before its noise. -/
def dwellNs (severity : P) : ℤ :=
  DoubleRounding.truncate (lerp (1.8 * ((5000000000 : ℤ) : P)) (0.2 * ((5000000000 : ℤ) : P)) severity)

/-- `cancel_cluster_jitter_ns`. -/
def cancelClusterJitterNs (severity : P) : ℤ := DoubleRounding.truncate (lerp 5000000000.0 50000000.0 severity : P)

/-- Both fall with the severity; on a short interval they are nearly what they are at its ends. -/
theorem le_dwellNs {a b : ℚ} (h : Between severity a b) (ha : 0 ≤ a) {dwell : ℤ} (hdwell : (dwell : ℚ) ≤ 4882812.5 * (1843 - 1640 * b))
    (hexact : Exact (-1640 * 4882812.5 * b) ∧ Exact (-1638 * 4882812.5 * a) ∧ Exact (4882812.5 * (1843 - 1640 * b)) ∧
      Exact (4882812.5 * (1844 - 1638 * a))) : dwell ≤ dwellNs severity := by
  have hspeed : Between ((5000000000 : ℤ) : P) (5000000000 : ℤ) (5000000000 : ℤ) := between_intCast_self (by decide)
  have hslow : Between (1.8 : P) (1843 / 1024) (1844 / 1024) :=
    between_ofScientific 18 true 1 (by decide +kernel) (by decide +kernel) ⟨by norm_num, by norm_num⟩
  have hfast : Between (0.2 : P) (204 / 1024) (205 / 1024) :=
    between_ofScientific 2 true 1 (by decide +kernel) (by decide +kernel) ⟨by norm_num, by norm_num⟩
  have hlo := hslow.mul_of_nonneg hspeed (by norm_num) (by norm_num) (by decide +kernel) (by decide +kernel)
  have hhi := hfast.mul_of_nonneg hspeed (by norm_num) (by norm_num) (by decide +kernel) (by decide +kernel)
  obtain ⟨hleft, hright, hlower, hupper⟩ := hexact
  have hcb : (204 / 1024 * ((5000000000 : ℤ) : ℚ) - 1844 / 1024 * ((5000000000 : ℤ) : ℚ)) = -1640 * 4882812.5 := by norm_num
  have hda : (205 / 1024 * ((5000000000 : ℤ) : ℚ) - 1843 / 1024 * ((5000000000 : ℤ) : ℚ)) = -1638 * 4882812.5 := by norm_num
  have hl : 1843 / 1024 * ((5000000000 : ℤ) : ℚ) + -1640 * 4882812.5 * b = 4882812.5 * (1843 - 1640 * b) := by push_cast; ring
  have hu : 1844 / 1024 * ((5000000000 : ℤ) : ℚ) + -1638 * 4882812.5 * a = 4882812.5 * (1844 - 1638 * a) := by push_cast; ring
  have hlerp := hlo.lerp hhi h (by norm_num) ha (by norm_num) (by norm_num) (by rwa [hcb]) (by rwa [hda])
    (by rwa [hcb, hl]) (by rwa [hda, hu])
  rw [hcb, hda, hl, hu] at hlerp
  exact hlerp.le_truncate hlower hupper hdwell

theorem cancelClusterJitterNs_le {a b : ℚ} (h : Between severity a b) (ha : 0 ≤ a) (hb : b ≤ 1) {jitter : ℤ}
    (hjitter : 5000000000 - 4950000000 * a ≤ jitter)
    (hexact : Exact (-4950000000 * b) ∧ Exact (-4950000000 * a) ∧ Exact (5000000000 + -4950000000 * b) ∧
      Exact (5000000000 + -4950000000 * a)) : cancelClusterJitterNs severity ∈ Set.Icc 0 jitter := by
  have hlo : Between (5000000000.0 : P) 5000000000 5000000000 :=
    between_literal 50000000000 1 (by norm_num) (by norm_num)
  have hhi : Between (50000000.0 : P) 50000000 50000000 :=
    between_literal 500000000 1 (by norm_num) (by norm_num)
  obtain ⟨hleft, hright, hlower, hupper⟩ := hexact
  have hdiff : (50000000 - 5000000000 : ℚ) = -4950000000 := by norm_num
  have hlerp := hlo.lerp hhi h (by norm_num) ha (by norm_num) (by norm_num) (by rwa [hdiff]) (by rwa [hdiff])
    (by rwa [hdiff]) (by rwa [hdiff])
  rw [hdiff] at hlerp
  refine ⟨hlerp.le_truncate hlower hupper ?_, hlerp.truncate_le hlower hupper (by linarith)⟩
  push_cast
  linarith

/-- The dwell is longer than the cancels are spread, by more than its noise and the placing of the layers. -/
theorem jitter_add_le_dwell (h : Between severity 0 1) :
    0 ≤ cancelClusterJitterNs severity ∧ cancelClusterJitterNs severity + 604000000 ≤ dwellNs severity := by
  have hpart : ∀ {a b : ℚ} (dwell jitter : ℤ), value severity ∈ Set.Icc a b → 0 ≤ a ∧ b ≤ 1 →
      (dwell : ℚ) ≤ 4882812.5 * (1843 - 1640 * b) ∧ 5000000000 - 4950000000 * a ≤ jitter → jitter + 604000000 ≤ dwell →
      (Exact (-1640 * 4882812.5 * b) ∧ Exact (-1638 * 4882812.5 * a) ∧ Exact (4882812.5 * (1843 - 1640 * b)) ∧
        Exact (4882812.5 * (1844 - 1638 * a))) →
      (Exact (-4950000000 * b) ∧ Exact (-4950000000 * a) ∧ Exact (5000000000 + -4950000000 * b) ∧
        Exact (5000000000 + -4950000000 * a)) →
      0 ≤ cancelClusterJitterNs severity ∧ cancelClusterJitterNs severity + 604000000 ≤ dwellNs severity := by
    intro a b dwell jitter hs hab hbounds hle hexact hexact'
    have hdwell := le_dwellNs ⟨h.finite, hs⟩ hab.1 hbounds.1 hexact
    obtain ⟨hzero, hjitter⟩ := cancelClusterJitterNs_le ⟨h.finite, hs⟩ hab.1 hab.2 hbounds.2 hexact'
    omega
  obtain ⟨hlow, hhigh⟩ := h.mem
  -- the margin is least at the greatest severity, where the parts are shortest
  rcases le_total (value severity) (3 / 8) with h₁ | h₁
  · exact hpart 5900000000 5000000000 ⟨hlow, h₁⟩ (by norm_num) (by norm_num) (by norm_num) (by decide +kernel) (by decide +kernel)
  rcases le_total (value severity) (5 / 8) with h₂ | h₂
  · exact hpart 3900000000 3200000000 ⟨h₁, h₂⟩ (by norm_num) (by norm_num) (by norm_num) (by decide +kernel) (by decide +kernel)
  rcases le_total (value severity) (3 / 4) with h₃ | h₃
  · exact hpart 2900000000 2000000000 ⟨h₂, h₃⟩ (by norm_num) (by norm_num) (by norm_num) (by decide +kernel) (by decide +kernel)
  rcases le_total (value severity) (7 / 8) with h₄ | h₄
  · exact hpart 1980000000 1300000000 ⟨h₃, h₄⟩ (by norm_num) (by norm_num) (by norm_num) (by decide +kernel) (by decide +kernel)
  rcases le_total (value severity) (15 / 16) with h₅ | h₅
  · exact hpart 1400000000 700000000 ⟨h₄, h₅⟩ (by norm_num) (by norm_num) (by norm_num) (by decide +kernel) (by decide +kernel)
  · exact hpart 990000000 360000000 ⟨h₅, hhigh⟩ (by norm_num) (by norm_num) (by norm_num) (by decide +kernel) (by decide +kernel)

end TradeSurveillance.Simulator
