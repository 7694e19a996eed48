import TradeSurveillance.Lemmas.DoubleError
import TradeSurveillance.Lemmas.SimulatedOrders

/-!
# The orders of a spoof by their roles

A scenario is made of layers, of two anchors on the other side, the dominant one withdrawn and the fallback left, of the genuine order,
and of the Cancels of the layers (`SpoofRoles`). `SpoofRoles.Of` says what the generator makes of each: the anchors change places after
the last layer is placed and before the first is cancelled.
-/

namespace TradeSurveillance.Simulator

open Double RoundedDouble

variable {P : Type}

/-- The orders of a spoof. -/
structure SpoofRoles (P : Type) where
  layers : List (Order P)
  dominant : Order P
  moveTs : ℤ
  fallback : Order P
  genuine : Order P
  cancels : List (Order P)

/-- The orders as the scenario has them. -/
def SpoofRoles.orders (s : SpoofRoles P) : List (Order P) :=
  s.layers ++ [s.dominant, cancelAt s.dominant s.moveTs, s.fallback, s.genuine] ++ s.cancels

/-- The order is a New on an instrument and a side. -/
structure PlacedOn (instrumentId : Str) (side : Side) (o : Order P) : Prop where
  status : o.status = .new
  instrumentId : o.instrumentId = instrumentId
  side : o.side = side

/-- The other side. -/
def Side.other : Side → Side
  | .buy => .sell
  | .sell => .buy

section Scenario

variable [Double P]

/-- `away_sign`. -/
def Side.awaySign : Side → P
  | .buy => -1.0
  | .sell => 1.0

variable [DoubleRounding P]

/-- `num_layers`. -/
def numLayers (severity : P) : ℕ := (3 + DoubleRounding.llround (severity * 3.0)).toNat

/-- `reference_price_rounded`. -/
def referencePriceRounded (instrument : Instrument P) (basePrice : P) : P :=
  DoubleRounding.round (basePrice / instrument.tickSize) * instrument.tickSize

/-- What the scenario makes of the orders, where the layers are on a side. -/
structure SpoofRoles.Of (s : SpoofRoles P) (side : Side) (instrument : Instrument P) (basePrice : P) (anchorTimeNs : ℤ) (severity : P)
    (out : ScenarioOutput P) : Prop where
  orders : out.orders = s.orders
  execution : ∃ x, out.executions = [x] ∧ x.orderId = s.genuine.orderId
  length : s.layers.length = numLayers severity
  layers : ∀ o ∈ s.layers, PlacedOn instrument.instrumentId side o
  others : ∀ o ∈ [s.dominant, s.fallback, s.genuine], PlacedOn instrument.instrumentId side.other o
  cancels : List.Forall₂ (fun o c => ∃ ts, s.moveTs + 1000000 ≤ ts ∧ c = cancelAt o ts) s.layers s.cancels
  layerTs : ∀ (i : ℕ) (o : Order P), s.layers[i]? = some o → o.timestampNs = anchorTimeNs + i * 20000000 ∧ o.timestampNs < s.moveTs ∧
    o.timestampNs < s.genuine.timestampNs
  dominantTs : s.dominant.timestampNs = anchorTimeNs
  fallbackTs : s.fallback.timestampNs = s.moveTs + 1000000
  dominantPrice : s.dominant.price = referencePriceRounded instrument basePrice + side.awaySign * (8.0 - 1.0) * instrument.tickSize
  fallbackPrice : s.fallback.price = referencePriceRounded instrument basePrice - side.awaySign * 1.0 * instrument.tickSize
  genuinePrice : s.genuine.price = referencePriceRounded instrument basePrice - side.awaySign * instrument.tickSize

end Scenario

/-! ## Times -/

/-- The anchors change places after the last layer and before the first Cancel. -/
theorem anchorMoveTs_mem (anchor last : ℤ) {dwell jitter : ℤ} (hjitter : 0 ≤ jitter) (hdwell : jitter + 104000000 ≤ dwell)
    (hfirst : anchor ≤ last) (hlast : last ≤ anchor + 100000000) :
    last < anchorMoveTs anchor dwell jitter last ∧ anchorMoveTs anchor dwell jitter last + 1000000 ≤ anchor + dwell - jitter.tdiv 2 := by
  unfold anchorMoveTs
  rw [Int.tdiv_eq_ediv_of_nonneg hjitter, Int.tdiv_eq_ediv_of_nonneg (by omega : 0 ≤ dwell)]
  simp only
  split_ifs <;> omega

theorem length_placeLayers (layer : ℕ → Str → Order P) (n i : ℕ) (ids : IdGenerators) : (placeLayers layer n i ids).1.length = n := by
  induction n generalizing i ids with
  | zero => rfl
  | succ n ih => exact congrArg (· + 1) (ih _ _)

/-- The layer at a place is the one of its number. -/
theorem getElem?_placeLayers {layer : ℕ → Str → Order P} {n i j : ℕ} {ids : IdGenerators} {o : Order P}
    (h : (placeLayers layer n i ids).1[j]? = some o) : ∃ id, o = layer (i + j) id := by
  induction n generalizing i j ids with
  | zero => simp [placeLayers] at h
  | succ n ih =>
    cases j with
    | zero => exact ⟨_, (Option.some.inj h).symm⟩
    | succ j =>
      obtain ⟨id, hid⟩ := ih h
      exact ⟨id, by rw [hid, Nat.add_right_comm, Nat.add_assoc]⟩

section Generate

variable [Double P] [LinearOrder P] [DoubleRounding P] [RoundedDouble P] {severity : P}

/-- There are three to six layers. -/
theorem numLayers_mem (h : Between severity 0 1) : numLayers severity ∈ Set.Icc 3 6 := by
  have hthree : Between (3.0 : P) 3 3 :=
    between_literal 30 1 (by norm_num) (by norm_num)
  have hprod := h.mul_of_nonneg hthree le_rfl (by norm_num) (by norm_num) (by norm_num)
  have hlow := hprod.le_llround (n := 0) (by norm_num) (by norm_num) (by norm_num)
  have hhigh := hprod.llround_le (n := 3) (by norm_num) (by norm_num) (by norm_num)
  rw [Set.mem_Icc, numLayers]
  omega

variable {draws : SpoofingLayeringDraws P} {ids ids' : IdGenerators} {scenarioId venue : Str} {instrument : Instrument P}
  {account : Account} {basePrice : P} {anchorTimeNs : ℤ} {out : ScenarioOutput P}

/-- A scenario is generated. -/
theorem exists_generateSpoofingLayeringScenario (draws : SpoofingLayeringDraws P) (ids : IdGenerators) (scenarioId : Str)
    (instrument : Instrument P) (account : Account) (basePrice : P) (anchorTimeNs : ℤ) (hseverity : Between severity 0 1) (venue : Str) :
    ∃ out ids', generateSpoofingLayeringScenario draws ids scenarioId instrument account basePrice anchorTimeNs severity venue =
      some (out, ids') := by
  cases h : generateSpoofingLayeringScenario draws ids scenarioId instrument account basePrice anchorTimeNs severity venue with
  | some r => exact ⟨r.1, r.2, rfl⟩
  | none =>
    have hthree := (numLayers_mem hseverity).1
    unfold generateSpoofingLayeringScenario at h
    extract_lets label n qtyMultiplier baselineQtyUnit layerQty speedScoreAnchorNs dwellNs cancelClusterJitterNs spoofSells sideSpoof
      sideGenuine awaySign price anchorSafeZoneTicks layer cancelAnchorTs earliestGenuineTs at h
    simp only [Option.bind_eq_bind, Option.bind_eq_none_iff, reduceCtorEq, imp_false] at h
    have hempty := List.getLast?_eq_none_iff.1 (Option.eq_none_iff_forall_ne_some.2 h)
    have hlength := length_placeLayers layer n.toNat 0 ids
    rw [hempty] at hlength
    have hzero : numLayers severity = 0 := hlength.symm
    omega

/-- What is generated, by roles. -/
theorem exists_roles (hseverity : Between severity 0 1)
    (h : generateSpoofingLayeringScenario draws ids scenarioId instrument account basePrice anchorTimeNs severity venue =
      some (out, ids')) :
    ∃ (s : SpoofRoles P) (side : Side), s.Of side instrument basePrice anchorTimeNs severity out := by
  obtain ⟨hjitter, hmargin⟩ := jitter_add_le_dwell hseverity
  have hcount := numLayers_mem hseverity
  have hnoise := le_uniformInt64 draws.dwellNs (-500000000) 500000000
  unfold generateSpoofingLayeringScenario at h
  extract_lets label n qtyMultiplier baselineQtyUnit layerQty speedScoreAnchorNs dwellNs cancelClusterJitterNs spoofSells sideSpoof
    sideGenuine awaySign price anchorSafeZoneTicks layer cancelAnchorTs earliestGenuineTs at h
  have hspread : 0 ≤ cancelClusterJitterNs ∧ cancelClusterJitterNs + 104000000 ≤ dwellNs := by
    refine ⟨hjitter, ?_⟩
    show Simulator.cancelClusterJitterNs severity + 104000000 ≤
      Simulator.dwellNs severity + uniformInt64 draws.dwellNs (-500000000) 500000000
    omega
  simp only [Option.bind_eq_bind, Option.bind_eq_some_iff, Option.some.injEq, Prod.mk.injEq] at h
  obtain ⟨lastLayer, hlast, rfl, rfl⟩ := h
  have hlength : (placeLayers layer n.toNat 0 ids).1.length = numLayers severity := length_placeLayers _ _ _ _
  have hlayer : ∀ (i : ℕ) o, (placeLayers layer n.toNat 0 ids).1[i]? = some o → o.timestampNs = anchorTimeNs + i * 20000000 := by
    intro i o ho
    obtain ⟨id, rfl⟩ := getElem?_placeLayers ho
    rw [zero_add]
  have hlastTs : lastLayer.timestampNs = anchorTimeNs + (numLayers severity - 1 : ℕ) * 20000000 := by
    rw [List.getLast?_eq_getElem?, hlength] at hlast
    exact hlayer _ _ hlast
  obtain ⟨hthree, hsix⟩ := hcount
  obtain ⟨hmove, hmoved⟩ := anchorMoveTs_mem anchorTimeNs lastLayer.timestampNs hspread.1 hspread.2 (by omega) (by omega)
  have hother : sideGenuine = sideSpoof.other := by
    by_cases hsells : spoofSells
    · simp [sideGenuine, sideSpoof, hsells, Side.other]
    · simp [sideGenuine, sideSpoof, hsells, Side.other]
  have haway : awaySign = sideSpoof.awaySign := by
    by_cases hsells : spoofSells
    · simp [awaySign, sideSpoof, hsells, Side.awaySign]
    · simp [awaySign, sideSpoof, hsells, Side.awaySign]
  refine ⟨⟨_, _, anchorMoveTs anchorTimeNs dwellNs cancelClusterJitterNs lastLayer.timestampNs, _, _, _⟩, sideSpoof, rfl, ⟨_, rfl, rfl⟩,
    hlength, ?_, ?_, forall₂_map_zipIdx ?_ _ _, ?_, rfl, rfl, ?_, ?_, ?_⟩
  · intro o ho
    obtain ⟨j, id, rfl⟩ := mem_placeLayers _ _ _ _ o ho
    exact ⟨rfl, rfl, rfl⟩
  · intro o ho
    simp only [List.mem_cons, List.not_mem_nil, or_false] at ho
    rcases ho with rfl | rfl | rfl
    · exact ⟨rfl, rfl, hother⟩
    · exact ⟨rfl, rfl, hother⟩
    · exact ⟨rfl, rfl, hother⟩
  · intro x
    refine ⟨_, le_trans ?_ (le_max_right _ _), rfl⟩
    have hdraw := le_uniformInt64 (draws.layerCancelNs x.2) ((-cancelClusterJitterNs).tdiv 2) (cancelClusterJitterNs.tdiv 2)
    have hneg : (-cancelClusterJitterNs).tdiv 2 = -cancelClusterJitterNs.tdiv 2 := Int.neg_tdiv _ _
    show anchorMoveTs anchorTimeNs dwellNs cancelClusterJitterNs lastLayer.timestampNs + 1000000 ≤ anchorTimeNs + dwellNs + _
    omega
  · intro i o ho
    have hts := hlayer i o ho
    have hi := (List.getElem?_eq_some_iff.1 ho).1
    rw [hlength] at hi
    refine ⟨hts, ?_, ?_⟩
    · show _ < anchorMoveTs anchorTimeNs dwellNs cancelClusterJitterNs lastLayer.timestampNs
      omega
    · show _ < if earliestGenuineTs ≤ lastLayer.timestampNs then lastLayer.timestampNs + 10000000 else earliestGenuineTs
      split_ifs <;> omega
  · rw [← haway]
    rfl
  · rw [← haway]
    rfl
  · rw [← haway]
    rfl

end Generate

end TradeSurveillance.Simulator
