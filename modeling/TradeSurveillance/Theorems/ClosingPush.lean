import TradeSurveillance.Harness.ReplayRunner
import TradeSurveillance.Lemmas.ClosingGroups
import TradeSurveillance.Lemmas.SimulatedAmounts
import TradeSurveillance.Simulator.Abuse.MarkingTheClose

/-!
# Marking-the-close positives and the detector's window

An order is kept a millisecond off the close, and its execution follows it by a delay of one to twenty milliseconds. Only the last order
of a scenario comes so near to the close that the delay can carry its execution past it (`fillTs_mem_iff`).
-/

namespace TradeSurveillance

variable {P : Type} [Double P] [LinearOrder P]

/-! ## The detector -/

namespace MarkingTheCloseDetector

variable {accounts : AccountRegistry}

/-- A check leaves the totals alone. -/
theorem totalWindowQty_checkAccount (d : MarkingTheCloseDetector P) (i a : Str) (windowStart ts sequence : ℤ) :
    (d.checkAccount i a windowStart ts sequence accounts).1.totalWindowQty = d.totalWindowQty := by
  have hregister : (d.registerAndGroup a accounts).totalWindowQty = d.totalWindowQty := by
    unfold registerAndGroup
    split_ifs <;> rfl
  unfold checkAccount
  simp only [groupMembers, apply_ite Prod.fst, apply_ite totalWindowQty, hregister, ite_self]

/-- Only an execution in the window adds to a total. -/
theorem totalWindowQty_evaluate (d : MarkingTheCloseDetector P) (book : OrderBook P) (x : Execution P) :
    (d.evaluate book (.execution x) accounts).1.totalWindowQty =
      if inWindow d.config x then
        d.totalWindowQty.insert x.instrumentId (wrap64 ((d.totalWindowQty.lookup x.instrumentId).getD 0 + x.qty))
      else d.totalWindowQty := by
  cases hx : inWindow d.config x with
  | false => rw [evaluate_of_not_inWindow book hx, if_neg Bool.false_ne_true]
  | true =>
    unfold inWindow at hx
    rw [if_pos rfl, evaluate, handleExecution]
    cases hclose : d.config.closeTimeNsByInstrument.lookup x.instrumentId with
    | none => simp [hclose] at hx
    | some closeTs =>
      simp only [hclose, decide_eq_true_eq] at hx
      simp only
      rw [if_neg (by omega)]
      split_ifs <;> simp only [totalWindowQty_checkAccount] <;> rfl

end MarkingTheCloseDetector

namespace Simulator

open Double RoundedDouble

/-- The execution lies in the default window before the close of the instrument, and every detector of this window that knows the close
counts it. -/
structure InClosingWindow (instrument : Instrument P) (x : Execution P) : Prop where
  mem : x.timestampNs ∈ Set.Icc (instrument.sessionCloseNs - 300000000000) instrument.sessionCloseNs
  counted : ∀ (d : MarkingTheCloseDetector P) (closeTimes : Map Str ℤ) book side accounts,
    d.config = { closeTimeNsByInstrument := closeTimes } →
    closeTimes.lookup instrument.instrumentId = some instrument.sessionCloseNs →
    (d.evaluate book (.execution (Harness.toFixExecution x side)) accounts).1.totalWindowQty =
      d.totalWindowQty.insert x.instrumentId (wrap64 ((d.totalWindowQty.lookup x.instrumentId).getD 0 + x.qty))

theorem inClosingWindow_iff {instrument : Instrument P} {x : Execution P} (hinstrument : x.instrumentId = instrument.instrumentId) :
    InClosingWindow instrument x ↔
      x.timestampNs ∈ Set.Icc (instrument.sessionCloseNs - 300000000000) instrument.sessionCloseNs := by
  constructor
  · exact InClosingWindow.mem
  · intro hmem
    refine ⟨hmem, ?_⟩
    intro d closeTimes book side accounts hconfig hclose
    have hwindow : MarkingTheCloseDetector.inWindow d.config (Harness.toFixExecution x side) = true := by
      have hlookup : closeTimes.lookup x.instrumentId = some instrument.sessionCloseNs := by rw [hinstrument, hclose]
      rw [hconfig]
      unfold MarkingTheCloseDetector.inWindow
      simp only [Harness.toFixExecution, hlookup]
      exact decide_eq_true hmem
    rw [MarkingTheCloseDetector.totalWindowQty_evaluate, if_pos hwindow]
    rfl

variable [DoubleRounding P]

/-! ## The trades of a scenario -/

/-- What is drawn for how far an order is ahead of its place in the window. -/
def ClosePush.lead (push : ClosePush P) (draws : MarkingTheCloseDraws P) (i : ℕ) : ℤ :=
  uniformInt64 (draws.leadNs i) 0 (DoubleRounding.truncate (push.windowNs / (2.0 * (push.numTrades : P))) + 1)

/-- What is drawn for the delay of an execution. -/
def fillDelay (draws : MarkingTheCloseDraws P) (i : ℕ) : ℤ := uniformInt64 (draws.fillDelayNs i) 1000000 20000000

/-- The place of an order in the window. -/
def ClosePush.place (push : ClosePush P) (i : ℕ) : ℤ :=
  DoubleRounding.truncate (((i + 1 : ℤ) : P) / (push.numTrades : P) * push.windowNs)

/-- When trade `i` is executed. -/
def ClosePush.fillTs (push : ClosePush P) (draws : MarkingTheCloseDraws P) (i : ℕ) : ℤ :=
  min (push.instrument.sessionCloseNs - DoubleRounding.truncate push.windowNs + push.place i - push.lead draws i)
    (push.instrument.sessionCloseNs - 1000000) + fillDelay draws i

variable {push : ClosePush P} {draws : MarkingTheCloseDraws P} {ids ids' : IdGenerators} {out : ScenarioOutput P}

omit [LinearOrder P] in
/-- The executions of the loop, one for each trade. -/
theorem trades_executions {n i : ℕ} (h : push.trades draws n i ids = some (out, ids')) :
    out.executions.map (·.timestampNs) = (List.range' i n).map (push.fillTs draws) ∧
      ∀ x ∈ out.executions, x.instrumentId = push.instrument.instrumentId ∧ x.groundTruthLabel = push.label := by
  induction n generalizing i ids out with
  | zero =>
    rw [ClosePush.trades, Option.some.injEq, Prod.mk.injEq] at h
    obtain ⟨rfl, -⟩ := h
    exact ⟨rfl, List.forall_mem_nil _⟩
  | succ n ih =>
    rw [ClosePush.trades] at h
    simp only [Option.bind_eq_bind, Option.bind_eq_some_iff, Option.some.injEq, Prod.mk.injEq] at h
    obtain ⟨account, -, ⟨rest, ids₁⟩, hrest, rfl, rfl⟩ := h
    obtain ⟨htimes, hfields⟩ := ih hrest
    constructor
    · rw [List.map_cons, List.range'_succ, List.map_cons, htimes]
      rfl
    · exact List.forall_mem_cons.2 ⟨⟨rfl, rfl⟩, hfields⟩

/-! ## Amounts -/

variable [RoundedDouble P] {severity : P}

/-- `window_ns`. -/
def closingWindowNs (severity : P) : P := lerp 300000000000.0 8000000000.0 severity

/-- `num_trades`. -/
def closingTrades (severity : P) : ℤ := 3 + DoubleRounding.llround (severity * 7.0)

theorem closingWindowNs_spec (h : Between severity 0 1) :
    Between (closingWindowNs severity) 8000000000 300000000000 ∧ value (closingWindowNs severity) ∈ numbers P := by
  have hlo : Between (300000000000.0 : P) 300000000000 300000000000 :=
    between_literal 3000000000000 1 (by norm_num) (by norm_num)
  have hhi : Between (8000000000.0 : P) 8000000000 8000000000 :=
    between_literal 80000000000 1 (by norm_num) (by norm_num)
  have hscaled := (hhi.sub hlo (by norm_num) (by norm_num)).mul_of_nonpos h (by norm_num) le_rfl (by norm_num)
    (by norm_num)
  have hsum := hlo.add hscaled (by norm_num) (by norm_num)
  exact ⟨hsum.mono (by norm_num) (by norm_num), hlo.value_add_mem hscaled (by norm_num) (by norm_num)⟩

theorem closingTrades_mem (h : Between severity 0 1) : closingTrades severity ∈ Set.Icc 3 10 := by
  have hseven : Between (7.0 : P) 7 7 :=
    between_literal 70 1 (by norm_num) (by norm_num)
  have hprod := h.mul_of_nonneg hseven le_rfl (by norm_num) (by norm_num) (by norm_num)
  have hlow := hprod.le_llround (n := 0) (by norm_num) (by norm_num) (by norm_num)
  have hhigh := hprod.llround_le (n := 7) (by norm_num) (by norm_num) (by norm_num)
  unfold closingTrades
  exact ⟨by omega, by omega⟩

/-- What the amounts of a scenario are between. -/
structure ClosePush.Sound (push : ClosePush P) : Prop where
  window : Between push.windowNs 8000000000 300000000000
  window_mem : value push.windowNs ∈ numbers P
  trades : push.numTrades ∈ Set.Icc 3 10

section Places

variable {push : ClosePush P} {i : ℕ}

theorem ClosePush.Sound.numTrades_pos (h : push.Sound) : (0 : ℚ) < push.numTrades := by
  exact_mod_cast lt_of_lt_of_le (by norm_num) h.trades.1

theorem ClosePush.Sound.between_trades (h : push.Sound) : Between (push.numTrades : P) push.numTrades push.numTrades := by
  obtain ⟨hlow, hhigh⟩ := h.trades
  exact between_intCast_self (by rw [abs_le]; omega)

/-- The part of the window that the trades up to `i` take. -/
theorem ClosePush.Sound.between_frac (h : push.Sound) (hi : (i : ℤ) < push.numTrades) {p q : ℚ}
    (hpq : ((i + 1 : ℤ) : ℚ) / push.numTrades ∈ Set.Icc p q) (hp : Exact p) (hq : Exact q) :
    Between (((i + 1 : ℤ) : P) / (push.numTrades : P)) p q := by
  obtain ⟨hlow, hhigh⟩ := h.trades
  have hnum : Between ((i + 1 : ℤ) : P) ((i + 1 : ℤ) : ℚ) ((i + 1 : ℤ) : ℚ) := between_intCast_self (by rw [abs_le]; omega)
  have hden := h.between_trades
  refine .div hnum.finite hden.finite ?_ ?_ hp hq
  · rw [hden.value_eq]
    exact h.numTrades_pos.ne'
  · rwa [hnum.value_eq, hden.value_eq]

/-- The last order's place is the close. -/
theorem ClosePush.Sound.place_last (h : push.Sound) (hi : (i : ℤ) + 1 = push.numTrades) :
    push.place i = DoubleRounding.truncate push.windowNs := by
  have hfrac := h.between_frac (i := i) (by omega) (p := 1) (q := 1) (by rw [hi, div_self h.numTrades_pos.ne']; exact ⟨le_rfl, le_rfl⟩)
    (by norm_num) (by norm_num)
  have hbound := h.window.abs_value_le (by norm_num) (by norm_num)
  have hprod := RoundedDouble.mul hfrac.finite h.window.finite
    (by rw [hfrac.value_eq, one_mul]; exact hbound.trans (pow_le_pow_right₀ (by norm_num) (by norm_num)))
  rw [hfrac.value_eq, one_mul, Rounding.round_of_mem _ h.window_mem] at hprod
  rw [ClosePush.place, RoundedDouble.truncate hprod.1 (by rw [hprod.2]; exact hbound), hprod.2,
    RoundedDouble.truncate h.window.finite hbound]

/-- The trades before the last take no more than nine tenths of the window, which is less than fifteen sixteenths. -/
theorem ClosePush.Sound.between_frac_of_lt (h : push.Sound) (hi : (i : ℤ) + 1 < push.numTrades) :
    Between (((i + 1 : ℤ) : P) / (push.numTrades : P)) 0 (15 / 16) := by
  refine h.between_frac (by omega) ⟨?_, ?_⟩ (by norm_num) (by decide +kernel)
  · exact div_nonneg (by exact_mod_cast (by omega : (0 : ℤ) ≤ (i : ℤ) + 1)) h.numTrades_pos.le
  · have hnum : ((i + 1 : ℤ) : ℚ) ≤ push.numTrades - 1 := by exact_mod_cast (by omega : (i : ℤ) + 1 ≤ push.numTrades - 1)
    have hten : (push.numTrades : ℚ) ≤ 10 := by exact_mod_cast h.trades.2
    exact (div_le_iff₀ h.numTrades_pos).2 (by linarith)

/-- Any other's is well before it. -/
theorem ClosePush.Sound.place_add_le (h : push.Sound) (hi : (i : ℤ) + 1 < push.numTrades) :
    push.place i + 100000000 ≤ DoubleRounding.truncate push.windowNs := by
  have hfrac := h.between_frac_of_lt hi
  have hlt := h.window.value_lt_truncate_add_one (by norm_num) (by norm_num)
  have hlow := h.window.le_truncate (n := 8000000000) (by norm_num) (by norm_num) (by norm_num)
  have hhigh := h.window.truncate_le (n := 300000000000) (by norm_num) (by norm_num) (by norm_num)
  generalize DoubleRounding.truncate push.windowNs = T at *
  have hexact : Exact ((T - 100000000 : ℤ) : ℚ) := Rounding.intCast_mem_binary (by rw [abs_le]; omega)
  have hprod : Between (((i + 1 : ℤ) : P) / (push.numTrades : P) * push.windowNs) 0 ((T - 100000000 : ℤ) : ℚ) := by
    have hnonneg : 0 ≤ value push.windowNs := le_trans (by norm_num) h.window.mem.1
    have hTq : (8000000000 : ℚ) ≤ T := by exact_mod_cast hlow
    refine between_of_hasValue (RoundedDouble.mul hfrac.finite h.window.finite) (by norm_num) hexact ⟨?_, ?_⟩
    · exact mul_nonneg hfrac.mem.1 hnonneg
    · calc value (((i + 1 : ℤ) : P) / (push.numTrades : P)) * value push.windowNs
          ≤ 15 / 16 * (T + 1) := mul_le_mul hfrac.mem.2 hlt.le hnonneg (by norm_num)
        _ ≤ ((T - 100000000 : ℤ) : ℚ) := by push_cast; linarith
  have hle := hprod.truncate_le (by norm_num) hexact le_rfl
  rw [ClosePush.place]
  omega

/-- A power of two between half of the part of one trade and that part. -/
theorem exists_power {n : ℤ} (hn : n ∈ Set.Icc 3 10) : ∃ e : ℚ, Exact e ∧ 0 < e ∧ 1 / (2 * n) ≤ e ∧ e ≤ 1 / (n : ℚ) := by
  have hpos : (0 : ℚ) < n := by exact_mod_cast lt_of_lt_of_le (by norm_num) hn.1
  have hle : ∀ e : ℚ, 1 / (2 * n) ≤ e ∧ e ≤ 1 / (n : ℚ) ↔ 1 ≤ e * (2 * n) ∧ e * n ≤ 1 := by
    intro e
    rw [div_le_iff₀ (by linarith), le_div_iff₀ hpos]
  have h₃ : (3 : ℚ) ≤ n := by exact_mod_cast hn.1
  have h₁₀ : (n : ℚ) ≤ 10 := by exact_mod_cast hn.2
  rcases le_total (n : ℚ) 4 with hfour | hfour
  · exact ⟨1 / 4, by decide +kernel, by norm_num, (hle _).2 ⟨by linarith, by linarith⟩⟩
  · rcases le_total (n : ℚ) 8 with height | height
    · exact ⟨1 / 8, by decide +kernel, by norm_num, (hle _).2 ⟨by linarith, by linarith⟩⟩
    · exact ⟨1 / 16, by decide +kernel, by norm_num, (hle _).2 ⟨by linarith, by linarith⟩⟩

/-- Twice the number of trades. -/
theorem ClosePush.Sound.between_double (h : push.Sound) :
    Between (2.0 * (push.numTrades : P)) (2 * push.numTrades) (2 * push.numTrades) := by
  obtain ⟨hlow, hhigh⟩ := h.trades
  have htwo : Between (2.0 : P) 2 2 :=
    between_literal 20 1 (by norm_num) (by norm_num)
  have hexact : Exact (2 * (push.numTrades : ℚ)) := by
    have hcast : (2 * (push.numTrades : ℚ)) = ((2 * push.numTrades : ℤ) : ℚ) := by push_cast; rfl
    rw [hcast]
    exact Rounding.intCast_mem_binary (by rw [abs_le]; omega)
  exact htwo.mul_of_nonneg h.between_trades (by norm_num) (by exact_mod_cast (by omega : 0 ≤ push.numTrades)) hexact hexact

/-- Half of the part of one trade is no longer than what any place takes of the window. -/
theorem ClosePush.Sound.half_le_place (h : push.Sound) (hi : (i : ℤ) < push.numTrades) :
    DoubleRounding.truncate (push.windowNs / (2.0 * (push.numTrades : P))) ∈ Set.Icc 0 (push.place i) := by
  obtain ⟨e, hexact, he, hehalf, hepart⟩ := exists_power h.trades
  have hpos := h.numTrades_pos
  have hnum : (1 : ℚ) ≤ ((i + 1 : ℤ) : ℚ) := by exact_mod_cast (by omega : (1 : ℤ) ≤ (i : ℤ) + 1)
  have hfrac := h.between_frac hi (p := e) (q := 1)
    ⟨hepart.trans (div_le_div_of_nonneg_right hnum hpos.le), (div_le_one hpos).2 (by exact_mod_cast (by omega : (i : ℤ) + 1 ≤ _))⟩
    hexact (by norm_num)
  have hwindow : 0 ≤ value push.windowNs := le_trans (by norm_num) h.window.mem.1
  have hdouble := h.between_double.value_eq
  -- the exact results first, then what they are rounded to
  have hle : value push.windowNs / value (2.0 * (push.numTrades : P)) ≤
      value (((i + 1 : ℤ) : P) / (push.numTrades : P)) * value push.windowNs := by
    rw [hdouble, div_eq_mul_one_div, mul_comm]
    exact mul_le_mul_of_nonneg_right (hehalf.trans hfrac.mem.1) hwindow
  have hprod : value (((i + 1 : ℤ) : P) / (push.numTrades : P)) * value push.windowNs ∈ Set.Icc 0 300000000000 := by
    constructor
    · exact mul_nonneg (he.le.trans hfrac.mem.1) hwindow
    · exact (mul_le_mul hfrac.mem.2 h.window.mem.2 hwindow zero_le_one).trans (by norm_num)
  have hquot : value push.windowNs / value (2.0 * (push.numTrades : P)) ∈ Set.Icc 0 300000000000 := by
    refine ⟨div_nonneg hwindow ?_, hle.trans hprod.2⟩
    rw [hdouble]
    linarith
  have hne : value (2.0 * (push.numTrades : P)) ≠ 0 := by
    rw [hdouble]
    exact (mul_pos two_pos hpos).ne'
  have hmul := RoundedDouble.mul hfrac.finite h.window.finite
  have hdiv := RoundedDouble.div h.window.finite h.between_double.finite hne
  have hplace := between_of_hasValue hmul (by norm_num) (by norm_num) hprod
  have hhalf := between_of_hasValue hdiv (by norm_num) (by norm_num) hquot
  refine ⟨hhalf.le_truncate (by norm_num) (by norm_num) (by norm_num), ?_⟩
  refine hhalf.truncate_le_truncate hplace (by norm_num) (by norm_num) (by norm_num) (by norm_num) ?_
  exact value_le_of_hasValue hdiv hmul (abs_le_of_mem_Icc (by norm_num) (by norm_num) hquot)
    (abs_le_of_mem_Icc (by norm_num) (by norm_num) hprod) hle

/-- An order is not ahead of its place by more than the place, and a nanosecond. -/
theorem ClosePush.Sound.lead_mem (h : push.Sound) (hi : (i : ℤ) < push.numTrades) (draws : MarkingTheCloseDraws P) :
    push.lead draws i ∈ Set.Icc 0 (push.place i + 1) := by
  obtain ⟨hzero, hhalf⟩ := h.half_le_place hi
  unfold ClosePush.lead
  exact ⟨le_uniformInt64 _ _ _, (uniformInt64_le _ (by omega)).trans (by omega)⟩

/-- An execution is in the window but for the last, which must not be delayed beyond the close. -/
theorem ClosePush.Sound.fillTs_mem_iff (h : push.Sound) (hi : (i : ℤ) < push.numTrades) (draws : MarkingTheCloseDraws P) :
    push.fillTs draws i ∈ Set.Icc (push.instrument.sessionCloseNs - 300000000000) push.instrument.sessionCloseNs ↔
      ((i : ℤ) + 1 = push.numTrades → fillDelay draws i ≤ max (push.lead draws i) 1000000) := by
  obtain ⟨hzero, hlead⟩ := h.lead_mem hi draws
  have hdelay : fillDelay draws i ∈ Set.Icc 1000000 20000000 := ⟨le_uniformInt64 _ _ _, uniformInt64_le _ (by norm_num)⟩
  have hwindow : DoubleRounding.truncate push.windowNs ≤ 300000000000 :=
    h.window.truncate_le (by norm_num) (by norm_num) (by norm_num)
  obtain ⟨hdelay₁, hdelay₂⟩ := hdelay
  rcases (show (i : ℤ) + 1 ≤ push.numTrades from hi).eq_or_lt with hlast | hlast
  · have hplace := h.place_last hlast
    rw [Set.mem_Icc, ClosePush.fillTs, hplace]
    constructor
    · intro hmem _
      omega
    · intro hle
      have hle := hle hlast
      omega
  · have hplace := h.place_add_le hlast
    rw [Set.mem_Icc, ClosePush.fillTs]
    refine iff_of_true ?_ fun heq => absurd heq hlast.ne
    omega

end Places

/-! ## Scenarios -/

/-- What is drawn for the last trade delays its execution by no more than its order is ahead of the close. -/
def LastFillBeforeClose (draws : MarkingTheCloseDraws P) (severity : P) : Prop :=
  let last := (closingTrades severity - 1).toNat
  fillDelay draws last ≤
    max (uniformInt64 (draws.leadNs last) 0
      (DoubleRounding.truncate (closingWindowNs severity / (2.0 * (closingTrades severity : P))) + 1)) 1000000

variable {scenarioId venue : Str} {instrument : Instrument P} {accounts : List Account} {basePrice ordersPerSecond : P}
  {instrumentCount : ℤ}

/-- A scenario is the loop over its trades. -/
theorem exists_push (hzero : 0.0 ≤ severity) (hone : severity ≤ 1.0) (hne : accounts ≠ [])
    (h : generateMarkingTheCloseScenario draws ids scenarioId instrument accounts basePrice severity ordersPerSecond instrumentCount venue =
      some (out, ids')) :
    ∃ push : ClosePush P, push.Sound ∧ push.instrument = instrument ∧ push.windowNs = closingWindowNs severity ∧
      push.numTrades = closingTrades severity ∧ push.label.pattern = .markingTheClose ∧
      push.trades draws push.numTrades.toNat 0 ids = some (out, ids') := by
  have hseverity := between_severity hzero hone
  obtain ⟨hwindow, hmem⟩ := closingWindowNs_spec hseverity
  unfold generateMarkingTheCloseScenario at h
  rw [if_neg hne] at h
  exact ⟨_, ⟨hwindow, hmem, closingTrades_mem hseverity⟩, rfl, rfl, rfl, rfl, h⟩

/-- The positives of a scenario lie in the detector's window, and are counted, exactly if the last execution does not pass the close. -/
theorem closing_push_in_window_iff (hzero : 0.0 ≤ severity) (hone : severity ≤ 1.0)
    (h : generateMarkingTheCloseScenario draws ids scenarioId instrument accounts basePrice severity ordersPerSecond instrumentCount venue =
      some (out, ids')) :
    (∀ x ∈ out.executions, isAbuse x.groundTruthLabel = true → InClosingWindow instrument x) ↔
      accounts = [] ∨ LastFillBeforeClose draws severity := by
  by_cases hempty : accounts = []
  · unfold generateMarkingTheCloseScenario at h
    rw [if_pos hempty, Option.some.injEq, Prod.mk.injEq] at h
    obtain ⟨rfl, -⟩ := h
    exact iff_of_true (List.forall_mem_nil _) (.inl hempty)
  · obtain ⟨push, hsound, rfl, hwindow, htrades, hlabel, hloop⟩ := exists_push hzero hone hempty h
    obtain ⟨htimes, hfields⟩ := trades_executions hloop
    obtain ⟨hlow, hhigh⟩ := hsound.trades
    have hfill : LastFillBeforeClose draws severity ↔
        fillDelay draws (push.numTrades - 1).toNat ≤ max (push.lead draws (push.numTrades - 1).toNat) 1000000 := by
      rw [LastFillBeforeClose, ClosePush.lead, hwindow, htrades]
    rw [or_iff_right hempty, hfill]
    constructor
    · intro hall
      have hmem : push.fillTs draws (push.numTrades - 1).toNat ∈ out.executions.map (·.timestampNs) := by
        rw [htimes]
        exact List.mem_map_of_mem (List.mem_range'_1.2 ⟨Nat.zero_le _, by omega⟩)
      obtain ⟨x, hx, hts⟩ := List.mem_map.1 hmem
      have habuse : isAbuse x.groundTruthLabel = true := by
        rw [(hfields x hx).2, isAbuse, hlabel]
        rfl
      have hin := (hall x hx habuse).mem
      rw [hts] at hin
      exact (hsound.fillTs_mem_iff (by omega) draws).1 hin (by omega)
    · intro hlast x hx _
      rw [inClosingWindow_iff (hfields x hx).1]
      have hts := List.mem_map_of_mem (f := (·.timestampNs)) hx
      rw [htimes] at hts
      obtain ⟨i, hi, hts⟩ := List.mem_map.1 hts
      have hi := (List.mem_range'_1.1 hi).2
      rw [← hts]
      refine (hsound.fillTs_mem_iff (by omega) draws).2 ?_
      intro heq
      obtain rfl : i = (push.numTrades - 1).toNat := by omega
      exact hlast

/-! ## One push -/

/-- An equity whose session is five minutes. -/
def equity : Instrument ℚ := ⟨ascii "EQ-0", ascii "EQ0", .equity, 1 / 100, 1000000, 300000000000⟩

/-- An account of its own. -/
def loneAccount : Account := ⟨ascii "ACC-0", ascii "OWN-0", .client, []⟩

/-- No order is ahead of its place, and every execution follows by a millisecond and so much more. -/
def delayedBy (extra : ℤ) : MarkingTheCloseDraws ℚ := ⟨0, fun _ => 0, fun _ => extra⟩

/-- The least severe scenario, three trades. -/
def threeTrades (extra : ℤ) : Option (ScenarioOutput ℚ × IdGenerators) :=
  generateMarkingTheCloseScenario (delayedBy extra) {} (ascii "SCN-0") equity [loneAccount] 100 0.0 1 1 (ascii "SIM")

/-- With the shortest delay the last execution is at the close. -/
theorem closing_push_at_close : ∃ r, threeTrades 0 = some r ∧
    r.1.executions.map (·.timestampNs) = [100001000000, 200001000000, 300000000000] ∧
    ∀ x ∈ r.1.executions, isAbuse x.groundTruthLabel = true → InClosingWindow equity x := by
  have htimes : (threeTrades 0).map (fun r => r.1.executions.map (·.timestampNs)) = some [100001000000, 200001000000, 300000000000] := by
    decide +kernel
  obtain ⟨r, hr, htimes⟩ := Option.map_eq_some_iff.1 htimes
  have hfill : LastFillBeforeClose (delayedBy 0) (0.0 : ℚ) := by
    unfold LastFillBeforeClose
    decide +kernel
  exact ⟨r, hr, htimes, (closing_push_in_window_iff (by norm_num) (by norm_num) hr).2 (.inr hfill)⟩

/-- With a delay that is a nanosecond longer, it is after the close. -/
theorem closing_push_past_close : ¬∀ (draws : MarkingTheCloseDraws ℚ) (ids : IdGenerators) (scenarioId : Str) (instrument : Instrument ℚ)
    (accounts : List Account) (basePrice severity ordersPerSecond : ℚ) (instrumentCount : ℤ) (venue : Str)
    (r : ScenarioOutput ℚ × IdGenerators), 0 ≤ severity → severity ≤ 1 →
    generateMarkingTheCloseScenario draws ids scenarioId instrument accounts basePrice severity ordersPerSecond instrumentCount venue =
      some r →
    ∀ x ∈ r.1.executions, isAbuse x.groundTruthLabel = true → InClosingWindow instrument x := by
  intro h
  have hlate : (threeTrades 1).map (fun r => r.1.executions.any fun x => isAbuse x.groundTruthLabel && x.timestampNs = 300000000001) =
      some true := by
    decide +kernel
  obtain ⟨r, hr, hany⟩ := Option.map_eq_some_iff.1 hlate
  obtain ⟨x, hx, hx'⟩ := List.any_eq_true.1 hany
  simp only [Bool.and_eq_true, decide_eq_true_eq] at hx'
  obtain ⟨habuse, hts⟩ := hx'
  have hclose := (h _ _ _ _ _ _ _ _ _ _ _ (by norm_num) (by norm_num) hr x hx habuse).mem.2
  rw [hts] at hclose
  exact absurd hclose (by decide)

end Simulator

end TradeSurveillance
