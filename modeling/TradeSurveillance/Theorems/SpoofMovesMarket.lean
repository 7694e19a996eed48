import TradeSurveillance.Lemmas.RestingOrders
import TradeSurveillance.Lemmas.SpoofPrices
import TradeSurveillance.Theorems.CleanReplay

/-!
# Which layers of a spoof move the market

What the detector compares at the Cancel of a layer are the best prices of the other side when the layer was placed and now. The first
layer is placed before the dominant anchor, at the same time, so there is no price to compare with. When any other is placed the
dominant anchor is the best order; when it is cancelled the fallback or the genuine order is (`Scene`). These prices are eight ticks
apart, which is enough unless the instrument is a currency pair (`SpoofRoles.Of.movesMarket_iff`).
-/

namespace TradeSurveillance

variable {P : Type} [Double P] [LinearOrder P]

/-! ## Layers on a book -/

/-- The pipeline of the spoofing detector alone, after the events. -/
def spoofingRun (accounts : AccountRegistry) (events : List (Event P)) : LivePipeline P :=
  .run [(SpoofingLayeringDetector.make {}).object] accounts events

/-- The best price after the events. -/
def bestAfter (accounts : AccountRegistry) (events : List (Event P)) (instrumentId : Str) (side : Side) :
    Option P :=
  ((spoofingRun accounts events).bookOf instrumentId).bestPrice side

/-- At the Cancel of an order, the detector finds that the best price of the other side has moved in favor of the order since it was
placed. -/
def MovesMarket (accounts : AccountRegistry) (events : List (Event P)) (orderId : Str) : Prop :=
  ∃ (pre : List (Event P)) (cancel : Order P) (post : List (Event P)) (d : SpoofingLayeringDetector P) (t : TrackedOrder P),
    events = pre ++ .order cancel :: post ∧ cancel.status = .cancelled ∧ cancel.origOrderId = orderId ∧
    (spoofingRun accounts pre).detectors[0]? = some d.object ∧ d.tracked.lookup orderId = some t ∧
    SpoofingLayeringDetector.movedFavorably d.config t
      (bestAfter accounts (pre ++ [.order cancel]) cancel.instrumentId t.side.opposite) = true

/-- The order is a Cancel of another. -/
structure Cancels (n c : Order P) : Prop where
  status : c.status = .cancelled
  origOrderId : c.origOrderId = n.orderId
  instrumentId : c.instrumentId = n.instrumentId

/-- The detector compares the best prices at the placement and at the Cancel. -/
theorem movesMarket_iff (accounts : AccountRegistry) {pre mid post : List (Event P)}
    {layer cancel : Order P} (h : Orderly (pre ++ .order layer :: mid ++ .order cancel :: post))
    (hst : layer.status = .new) (hcancel : Cancels layer cancel) :
    ∃ t : TrackedOrder P, t.side = layer.side ∧
      t.oppositeBestAtPlacement = bestAfter accounts (pre ++ [.order layer]) layer.instrumentId layer.side.opposite ∧
      (MovesMarket accounts (pre ++ .order layer :: mid ++ .order cancel :: post) layer.orderId ↔
        SpoofingLayeringDetector.movedFavorably {} t
          (bestAfter accounts (pre ++ .order layer :: mid ++ [.order cancel]) layer.instrumentId layer.side.opposite) = true) := by
  have hends : (Event.order cancel).ends = some layer.orderId := (if_pos hcancel.status).trans (congrArg some hcancel.origOrderId)
  have hbefore := h.cycles.not_ended_before hends
  have hk : [(SpoofingLayeringDetector.make ({} : SpoofingLayeringConfig P)).object][0]? = some (SpoofingLayeringDetector.make {}).object :=
    rfl
  obtain ⟨d, t, hd, hconfig, ht, hside, hbest⟩ := h.entry_of_placed accounts hk hst fun e he =>
    hbefore e (List.mem_append_right _ (List.mem_cons_of_mem _ he))
  refine ⟨t, hside, hbest, ?_⟩
  constructor
  · rintro ⟨pre', cancel', post', d', t', heq, hst', hid', hd', ht', hmoved⟩
    have hends' : (Event.order cancel').ends = some layer.orderId := (if_pos hst').trans (congrArg some hid')
    have hmem : Event.order cancel' ∈ pre ++ .order layer :: mid ++ .order cancel :: post :=
      heq ▸ List.mem_append_right _ List.mem_cons_self
    have hsame := h.cycles.eq_of_ends hmem (List.mem_append_right _ List.mem_cons_self) hends' hends
    rw [Event.order.injEq] at hsame
    subst hsame
    have hnodup := List.nodup_append.1 h.nodup
    have hleft : Event.order cancel' ∉ pre ++ .order layer :: mid := fun hmem => hbefore _ hmem hends
    have hright : Event.order cancel' ∉ post := (List.nodup_cons.1 hnodup.2.1).1
    obtain ⟨rfl, -, -⟩ := (List.append_cons_inj_of_notMem hleft hright).1 heq
    obtain rfl := SpoofingLayeringDetector.object_injective (Option.some.inj (hd.symm.trans hd'))
    obtain rfl := Option.some.inj (ht.symm.trans ht')
    rwa [hconfig, hside, hcancel.instrumentId] at hmoved
  · intro hmoved
    refine ⟨_, cancel, post, d, t, rfl, hcancel.status, hcancel.origOrderId, hd, ht, ?_⟩
    rw [hconfig, hside, hcancel.instrumentId]
    exact hmoved

/-- The order is a New on the other side of a layer's instrument. -/
structure Opposes (layer n : Order P) : Prop where
  status : n.status = .new
  instrumentId : n.instrumentId = layer.instrumentId
  side : n.side = layer.side.opposite

/-- One order comes before another. -/
def Before (events : List (Event P)) (a b : Order P) : Prop := [Event.order a, Event.order b].Sublist events

/-- A layer among the events of its spoof: while it rests the dominant anchor goes and the fallback comes. -/
structure Scene (events : List (Event P)) (layer cancel dominant withdrawal fallback genuine : Order P) : Prop where
  orderly : Orderly events
  placed : layer.status = .new
  cancelled : Cancels layer cancel
  first : Opposes layer dominant
  withdrawn : Cancels dominant withdrawal
  last : Opposes layer fallback
  opposing : ∀ n, .order n ∈ events → Opposes layer n → n = dominant ∨ n = fallback ∨ n = genuine
  left : ∀ e ∈ events, e.ends ≠ some fallback.orderId
  rests : Before events layer cancel
  goes : Before events layer withdrawal ∧ Before events withdrawal cancel
  comes : Before events layer fallback ∧ Before events fallback cancel
  trades : Before events layer genuine

namespace Scene

variable {pre post : List (Event P)} {layer cancel dominant withdrawal fallback genuine : Order P}
  (accounts : AccountRegistry)

/-- The best price of the other side is of one of its orders. -/
theorem mem_of_bestAfter {part : List (Event P)} {price : P}
    (h : Scene (part ++ post) layer cancel dominant withdrawal fallback genuine)
    (hbest : bestAfter accounts part layer.instrumentId layer.side.opposite = some price) :
    ∃ n, .order n ∈ part ∧ n.price = price ∧ (n = dominant ∨ n = fallback ∨ n = genuine) ∧
      ∀ c, .order c ∈ part → ¬Cancels n c := by
  obtain ⟨n, hn, hst, hinst, hside, hprice, hnot⟩ := h.orderly.placed_of_bestPrice _ accounts hbest
  refine ⟨n, hn, hprice, h.opposing n (List.mem_append_left _ hn) ⟨hst, hinst, hside⟩, ?_⟩
  intro c hc hcancels
  exact hnot c hc (hcancels.instrumentId.trans hinst) hcancels.status hcancels.origOrderId

/-- When the first layer is placed, the other side is empty. -/
theorem bestAfter_first (h : Scene (pre ++ .order layer :: post) layer cancel dominant withdrawal fallback genuine)
    (hfirst : Before (pre ++ .order layer :: post) layer dominant) :
    bestAfter accounts (pre ++ [.order layer]) layer.instrumentId layer.side.opposite = none := by
  have hnodup := h.orderly.nodup
  have hdominant := not_mem_left_of_sublist hnodup hfirst
  have hfallback := not_mem_left_of_sublist hnodup h.comes.1
  have hgenuine := not_mem_left_of_sublist hnodup h.trades
  rw [Option.eq_none_iff_forall_ne_some]
  intro price hbest
  rw [List.append_cons] at h
  obtain ⟨n, hn, -, rfl | rfl | rfl, -⟩ := h.mem_of_bestAfter accounts hbest
  · exact hdominant hn
  · exact hfallback hn
  · exact hgenuine hn

/-- When any other is placed, the dominant anchor is on it alone. -/
theorem bestAfter_later (h : Scene (pre ++ .order layer :: post) layer cancel dominant withdrawal fallback genuine)
    (hlater : Before (pre ++ .order layer :: post) dominant layer) :
    bestAfter accounts (pre ++ [.order layer]) layer.instrumentId layer.side.opposite = some dominant.price := by
  have hnodup := h.orderly.nodup
  have hwithdrawal := not_mem_left_of_sublist hnodup h.goes.1
  have hfallback := not_mem_left_of_sublist hnodup h.comes.1
  have hgenuine := not_mem_left_of_sublist hnodup h.trades
  have hdominant : Event.order dominant ∈ pre ++ [.order layer] := by
    refine List.mem_append_left _ (mem_left_of_sublist ?_ hlater)
    exact (List.nodup_cons.1 (List.nodup_append.1 hnodup).2.1).1
  have hmem : Event.order withdrawal ∈ pre ++ .order layer :: post := h.goes.1.subset (List.mem_cons_of_mem _ List.mem_cons_self)
  have hends : ∀ e ∈ pre ++ [.order layer], e.ends ≠ some dominant.orderId := by
    intro e he hends
    have hmem' : e ∈ pre ++ .order layer :: post := by
      rw [List.append_cons]
      exact List.mem_append_left _ he
    have hends' : (Event.order withdrawal).ends = some dominant.orderId :=
      (if_pos h.withdrawn.status).trans (congrArg some h.withdrawn.origOrderId)
    rw [h.orderly.cycles.eq_of_ends hmem' hmem hends hends'] at he
    exact hwithdrawal he
  rw [List.append_cons] at h
  have hsome := h.orderly.bestPrice_ne_none [(SpoofingLayeringDetector.make {}).object] accounts hdominant h.first.status hends
  rw [h.first.instrumentId, h.first.side] at hsome
  obtain ⟨price, hbest⟩ := Option.ne_none_iff_exists'.1 hsome
  obtain ⟨n, hn, hprice, rfl | rfl | rfl, -⟩ := h.mem_of_bestAfter accounts hbest
  · exact hbest.trans (congrArg some hprice.symm)
  · exact absurd hn hfallback
  · exact absurd hn hgenuine

/-- When it is cancelled, the fallback is there and the dominant anchor is not. -/
theorem bestAfter_cancel (h : Scene (pre ++ .order cancel :: post) layer cancel dominant withdrawal fallback genuine) :
    ∃ now, bestAfter accounts (pre ++ [.order cancel]) layer.instrumentId layer.side.opposite = some now ∧
      (now = fallback.price ∨ now = genuine.price) := by
  have hnodup := h.orderly.nodup
  have hlast : Event.order cancel ∉ post := (List.nodup_cons.1 (List.nodup_append.1 hnodup).2.1).1
  have hwithdrawal := List.mem_append_left [Event.order cancel] (mem_left_of_sublist hlast h.goes.2)
  have hfallback := List.mem_append_left [Event.order cancel] (mem_left_of_sublist hlast h.comes.2)
  rw [List.append_cons] at h
  have hsome := h.orderly.bestPrice_ne_none [(SpoofingLayeringDetector.make {}).object] accounts hfallback h.last.status
    fun e he => h.left e (List.mem_append_left _ he)
  rw [h.last.instrumentId, h.last.side] at hsome
  obtain ⟨price, hbest⟩ := Option.ne_none_iff_exists'.1 hsome
  refine ⟨price, hbest, ?_⟩
  obtain ⟨n, -, rfl, rfl | rfl | rfl, hnot⟩ := h.mem_of_bestAfter accounts hbest
  · exact absurd h.withdrawn (hnot _ hwithdrawal)
  · exact .inl rfl
  · exact .inr rfl

/-- What the detector compares at the Cancel of a layer. -/
theorem exists_comparison {events : List (Event P)} (h : Scene events layer cancel dominant withdrawal fallback genuine) :
    ∃ (t : TrackedOrder P) (now : P), t.side = layer.side ∧ (now = fallback.price ∨ now = genuine.price) ∧
      (MovesMarket accounts events layer.orderId ↔ SpoofingLayeringDetector.movedFavorably {} t (some now) = true) ∧
      (Before events layer dominant → t.oppositeBestAtPlacement = none) ∧
      (Before events dominant layer → t.oppositeBestAtPlacement = some dominant.price) := by
  obtain ⟨r₁, r₂, rfl, hlayer, hcancel⟩ := List.cons_sublist_iff.1 h.rests
  obtain ⟨pre, mid₁, rfl⟩ := List.append_of_mem hlayer
  obtain ⟨mid₂, post, rfl⟩ := List.append_of_mem (List.singleton_sublist.1 hcancel)
  have hsplit : pre ++ .order layer :: mid₁ ++ (mid₂ ++ .order cancel :: post) =
      pre ++ .order layer :: (mid₁ ++ mid₂) ++ .order cancel :: post := by simp
  rw [hsplit] at h ⊢
  obtain ⟨t, hside, hplaced, hiff⟩ := movesMarket_iff accounts h.orderly h.placed h.cancelled
  obtain ⟨now, hbest, hnow⟩ := h.bestAfter_cancel accounts
  rw [hbest] at hiff
  refine ⟨t, now, hside, hnow, hiff, ?_, ?_⟩
  · intro hfirst
    rw [List.append_assoc, List.cons_append] at h hfirst
    exact hplaced.trans (h.bestAfter_first accounts hfirst)
  · intro hlater
    rw [List.append_assoc, List.cons_append] at h hlater
    exact hplaced.trans (h.bestAfter_later accounts hlater)

end Scene

/-! ## A scenario on its own -/

namespace Simulator

open Harness

variable {out : ScenarioOutput P} {simulation : SimulationOutput P} {sides : Map Str TradeSurveillance.Side} {a b : Order P}

omit [Double P] [LinearOrder P] in
/-- Orders stay in the order they are in unless their times are the other way. -/
theorem SortedFrom.before_of_sublist (h : SortedFrom simulation out) (hsub : [a, b].Sublist out.orders)
    (hts : a.timestampNs ≤ b.timestampNs) :
    Before ((sortedItems simulation).map (eventOf sides)) (toFixOrder a) (toFixOrder b) := by
  have horders : [a, b].Sublist simulation.orders := by
    rw [h.orders]
    exact StableSort.sublist_sortBy _ hsub (by simp [hts])
  have hitems : [Item.order a, Item.order b].Sublist (sortedItems simulation) :=
    StableSort.sublist_sortBy _ ((horders.map Item.order).trans (List.sublist_append_left _ _)) (by simp [Item.timestampNs, hts])
  exact hitems.map (eventOf sides)

omit [Double P] [LinearOrder P] in
/-- An earlier order comes first. -/
theorem SortedFrom.before_of_lt (h : SortedFrom simulation out) (ha : a ∈ out.orders) (hb : b ∈ out.orders)
    (hts : a.timestampNs < b.timestampNs) :
    Before ((sortedItems simulation).map (eventOf sides)) (toFixOrder a) (toFixOrder b) := by
  have hmem : ∀ o ∈ out.orders, Item.order o ∈ simulation.orders.map Item.order ++ simulation.executions.map Item.execution := by
    intro o ho
    rw [h.orders]
    exact List.mem_append_left _ (List.mem_map_of_mem ((StableSort.mem_sortBy _).2 ho))
  have hitems : [Item.order a, Item.order b].Sublist (sortedItems simulation) :=
    StableSort.pair_sublist_sortBy _ (hmem a ha) (hmem b hb) hts
  exact hitems.map (eventOf sides)

omit [Double P] [LinearOrder P] in
theorem SortedFrom.mem_sortedItems (h : SortedFrom simulation out) {x : Item P} : x ∈ sortedItems simulation ↔ x ∈ out.items := by
  unfold sortedItems ScenarioOutput.items
  rw [h.orders, h.executions, StableSort.mem_sortBy]
  simp

section Roles

omit [Double P] [LinearOrder P] in
theorem opposes_toFixOrder {instrumentId : Str} {side : Side} (ha : PlacedOn instrumentId side a)
    (hb : PlacedOn instrumentId side.other b) : Opposes (toFixOrder a) (toFixOrder b) where
  status := by simp [toFixOrder, hb.status]
  instrumentId := hb.instrumentId.trans ha.instrumentId.symm
  side := by
    show toFixSide b.side = (toFixSide a.side).opposite
    rw [ha.side, hb.side]
    cases side <;> rfl

omit [Double P] [LinearOrder P] in
theorem cancels_toFixOrder (o : Order P) (ts : ℤ) : Cancels (toFixOrder o) (toFixOrder (cancelAt o ts)) where
  status := by simp [toFixOrder, cancelAt]
  origOrderId := rfl
  instrumentId := rfl

variable [DoubleRounding P] {s : SpoofRoles P} {side : Side} {instrument : Instrument P} {basePrice severity : P} {anchorTimeNs : ℤ}

omit [LinearOrder P] in
theorem SpoofRoles.Of.cancelled (hs : s.Of side instrument basePrice anchorTimeNs severity out) {c : Order P} (hc : c ∈ s.cancels) :
    ∃ o ∈ s.layers, ∃ ts, c = cancelAt o ts := by
  obtain ⟨j, hj, rfl⟩ := List.getElem_of_mem hc
  have hlength := hs.cancels.length_eq
  obtain ⟨ts, -, heq⟩ := (List.forall₂_iff_get.1 hs.cancels).2 j (hlength ▸ hj) hj
  exact ⟨_, List.getElem_mem (hlength ▸ hj), ts, heq⟩

omit [LinearOrder P] in
/-- The layers are the first orders. -/
theorem SpoofRoles.Of.exists_layer (hs : s.Of side instrument basePrice anchorTimeNs severity out) {i : ℕ} (hi : i < numLayers severity) :
    ∃ layer, s.layers[i]? = some layer ∧ out.orders[i]? = some layer := by
  rw [← hs.length] at hi
  have hlayer := List.getElem?_eq_getElem hi
  refine ⟨_, hlayer, ?_⟩
  rw [hs.orders, SpoofRoles.orders, List.append_assoc, List.getElem?_append_left hi]
  exact hlayer

omit [LinearOrder P] in
/-- No two orders have one id. -/
theorem SpoofRoles.Of.nodup_ids (hs : s.Of side instrument basePrice anchorTimeNs severity out)
    (hcycles : LifeCycle Item.opens Item.ends Item.Follows out.items) :
    (s.layers.map (·.orderId) ++ [s.dominant.orderId, s.fallback.orderId, s.genuine.orderId]).Nodup := by
  have hnew : ∀ o : Order P, o.status = .new → Item.opens (.order o) = some o.orderId := by
    intro o ho
    simp [Item.opens, ho]
  have hlayers : ∀ l : List (Order P), (∀ o ∈ l, o.status = .new) → (l.map Item.order).filterMap Item.opens = l.map (·.orderId) := by
    intro l hl
    induction l with
    | nil => rfl
    | cons o l ih =>
      rw [List.map_cons, List.filterMap_cons_some (hnew o (hl o List.mem_cons_self)), ih fun o' ho' => hl o' (List.mem_cons_of_mem _ ho')]
      rfl
  have hcancels : (s.cancels.map Item.order).filterMap Item.opens = [] := by
    refine List.filterMap_eq_nil_iff.2 ?_
    intro a ha
    obtain ⟨c, hc, rfl⟩ := List.mem_map.1 ha
    obtain ⟨o, -, ts, rfl⟩ := hs.cancelled hc
    rfl
  obtain ⟨x, hx, -⟩ := hs.execution
  have hopens : out.items.filterMap Item.opens =
      s.layers.map (·.orderId) ++ [s.dominant.orderId, s.fallback.orderId, s.genuine.orderId] := by
    have hdominant := hnew s.dominant (hs.others _ (by simp)).status
    have hfallback := hnew s.fallback (hs.others _ (by simp)).status
    have hgenuine := hnew s.genuine (hs.others _ (by simp)).status
    have hwithdrawal : Item.opens (.order (cancelAt s.dominant s.moveTs)) = none := rfl
    have hexecution : Item.opens (.execution x) = none := rfl
    unfold ScenarioOutput.items
    rw [hs.orders, hx, SpoofRoles.orders]
    simp only [List.map_append, List.filterMap_append, hlayers s.layers fun o ho => (hs.layers o ho).status, hcancels, List.map_cons,
      List.map_nil, List.filterMap_cons, List.filterMap_nil, hdominant, hfallback, hgenuine, hwithdrawal, hexecution, List.append_nil]
  rw [← hopens]
  exact hcycles.openedOnce

omit [LinearOrder P] in
/-- Nothing ends the fallback. -/
theorem SpoofRoles.Of.fallback_left (hs : s.Of side instrument basePrice anchorTimeNs severity out)
    (hcycles : LifeCycle Item.opens Item.ends Item.Follows out.items) : ∀ a ∈ out.items, a.ends ≠ some s.fallback.orderId := by
  have hnodup := List.nodup_append.1 (hs.nodup_ids hcycles)
  have hlayers : ∀ o ∈ s.layers, o.orderId ≠ s.fallback.orderId := fun o ho =>
    hnodup.2.2 _ (List.mem_map_of_mem ho) _ (List.mem_cons_of_mem _ List.mem_cons_self)
  have hothers := hnodup.2.1
  simp only [List.nodup_cons, List.mem_cons, List.not_mem_nil, or_false, not_or] at hothers
  intro a ha hends
  rcases List.mem_append.1 ha with ha | ha
  · obtain ⟨o, ho, rfl⟩ := List.mem_map.1 ha
    have hst : o.status = .cancelled ∧ o.orderId = s.fallback.orderId := by
      unfold Item.ends at hends
      simp only at hends
      split_ifs at hends with hst
      exact ⟨hst, Option.some.inj hends⟩
    rw [hs.orders, SpoofRoles.orders, List.mem_append, List.mem_append] at ho
    rcases ho with (ho | ho) | ho
    · exact hlayers o ho hst.2
    · simp only [List.mem_cons, List.not_mem_nil, or_false] at ho
      rcases ho with rfl | rfl | rfl | rfl
      · exact hothers.1.1 hst.2
      · exact hothers.1.1 hst.2
      · rw [(hs.others s.fallback (by simp)).status] at hst
        cases hst.1
      · exact hothers.2.1 hst.2.symm
    · obtain ⟨o', ho', ts, rfl⟩ := hs.cancelled ho
      exact hlayers o' ho' hst.2
  · obtain ⟨x, hx, hid⟩ := hs.execution
    obtain ⟨x', hx', rfl⟩ := List.mem_map.1 ha
    rw [hx, List.mem_singleton] at hx'
    subst hx'
    exact hothers.2.1 (Option.some.inj hends.symm |>.trans hid)

omit [LinearOrder P] in
/-- The orders of the other side. -/
theorem SpoofRoles.Of.opposing (hs : s.Of side instrument basePrice anchorTimeNs severity out) (hsorted : SortedFrom simulation out)
    {layer : Order P} (hlayer : layer ∈ s.layers) {n : TradeSurveillance.Order P}
    (hn : .order n ∈ (sortedItems simulation).map (eventOf sides)) (hopposes : Opposes (toFixOrder layer) n) :
    n = toFixOrder s.dominant ∨ n = toFixOrder s.fallback ∨ n = toFixOrder s.genuine := by
  obtain ⟨x, hx, heq⟩ := List.mem_map.1 hn
  cases x with
  | execution x => cases heq
  | order o =>
    cases heq
    have ho : o ∈ out.orders := by
      have hitem := hsorted.mem_sortedItems.1 hx
      unfold ScenarioOutput.items at hitem
      simpa using hitem
    have hcancel : ∀ (o : Order P) ts, (toFixOrder (cancelAt o ts)).status ≠ .new := by
      intro o ts hst
      rw [(cancels_toFixOrder o ts).status] at hst
      cases hst
    rw [hs.orders, SpoofRoles.orders, List.mem_append, List.mem_append] at ho
    rcases ho with (ho | ho) | ho
    · -- another layer is on the side of the layers
      have hside := hopposes.side
      have hsame : (toFixOrder o).side = (toFixOrder layer).side := by
        show toFixSide o.side = toFixSide layer.side
        rw [(hs.layers o ho).side, (hs.layers layer hlayer).side]
      rw [hsame] at hside
      cases hkind : (toFixOrder layer).side <;> rw [hkind] at hside <;> cases hside
    · simp only [List.mem_cons, List.not_mem_nil, or_false] at ho
      rcases ho with rfl | rfl | rfl | rfl
      · exact .inl rfl
      · exact absurd hopposes.status (hcancel _ _)
      · exact .inr (.inl rfl)
      · exact .inr (.inr rfl)
    · obtain ⟨o', -, ts, rfl⟩ := hs.cancelled ho
      exact absurd hopposes.status (hcancel _ _)

omit [LinearOrder P] in
/-- A layer in the events of the scenario. -/
theorem SpoofRoles.Of.scene (hs : s.Of side instrument basePrice anchorTimeNs severity out)
    (hcycles : LifeCycle Item.opens Item.ends Item.Follows out.items) (hsorted : SortedFrom simulation out)
    (sides : Map Str TradeSurveillance.Side) {i : ℕ} {layer : Order P} (hlayer : s.layers[i]? = some layer) :
    ∃ cancel, Scene ((sortedItems simulation).map (eventOf sides)) (toFixOrder layer) cancel (toFixOrder s.dominant)
        (toFixOrder (cancelAt s.dominant s.moveTs)) (toFixOrder s.fallback) (toFixOrder s.genuine) ∧
      (i = 0 → Before ((sortedItems simulation).map (eventOf sides)) (toFixOrder layer) (toFixOrder s.dominant)) ∧
      (0 < i → Before ((sortedItems simulation).map (eventOf sides)) (toFixOrder s.dominant) (toFixOrder layer)) := by
  obtain ⟨hts, hmove, hgenuine⟩ := hs.layerTs i layer hlayer
  obtain ⟨hi, hget⟩ := List.getElem?_eq_some_iff.1 hlayer
  have hlayers : layer ∈ s.layers := hget ▸ List.getElem_mem hi
  have hi' : i < s.cancels.length := hs.cancels.length_eq ▸ hi
  obtain ⟨ts, hcancelTs, hcancel⟩ := (List.forall₂_iff_get.1 hs.cancels).2 i hi hi'
  simp only [List.get_eq_getElem, hget] at hcancel
  have hcancels : cancelAt layer ts ∈ s.cancels := hcancel ▸ List.getElem_mem hi'
  have horders := hs.orders
  unfold SpoofRoles.orders at horders
  have hmem : ∀ o ∈ [layer, s.dominant, cancelAt s.dominant s.moveTs, s.fallback, s.genuine, cancelAt layer ts], o ∈ out.orders := by
    rw [horders]
    simp [hlayers, hcancels]
  have hafter : ∀ o ∈ [cancelAt s.dominant s.moveTs, s.fallback, s.genuine, cancelAt layer ts], layer.timestampNs < o.timestampNs →
      Before ((sortedItems simulation).map (eventOf sides)) (toFixOrder layer) (toFixOrder o) := fun o ho hlt =>
    hsorted.before_of_lt (hmem _ (by simp)) (hmem o (List.mem_cons_of_mem _ (List.mem_cons_of_mem _ ho))) hlt
  have hfallbackTs := hs.fallbackTs
  refine ⟨toFixOrder (cancelAt layer ts), ?_, ?_, ?_⟩
  · exact {
      orderly := orderly_map_eventOf (hsorted.sortedItems_cycles hcycles)
      placed := by simp [toFixOrder, (hs.layers layer hlayers).status]
      cancelled := cancels_toFixOrder layer ts
      first := opposes_toFixOrder (hs.layers layer hlayers) (hs.others _ (by simp))
      withdrawn := cancels_toFixOrder s.dominant s.moveTs
      last := opposes_toFixOrder (hs.layers layer hlayers) (hs.others _ (by simp))
      opposing := fun n hn => hs.opposing hsorted hlayers hn
      left := by
        intro e he
        obtain ⟨x, hx, rfl⟩ := List.mem_map.1 he
        rw [eventOf_ends]
        exact hs.fallback_left hcycles x (hsorted.mem_sortedItems.1 hx)
      rests := hafter _ (by simp) (show layer.timestampNs < ts by omega)
      goes := by
        refine ⟨hafter _ (by simp) hmove, hsorted.before_of_lt (hmem _ (by simp)) (hmem _ (by simp)) ?_⟩
        show s.moveTs < ts
        omega
      comes := by
        refine ⟨hafter _ (by simp) (by omega), hsorted.before_of_sublist ?_ ?_⟩
        · rw [horders]
          exact (List.singleton_sublist.2 (by simp)).append (List.singleton_sublist.2 hcancels)
        · exact hfallbackTs.le.trans hcancelTs
      trades := hafter _ (by simp) hgenuine }
  · rintro rfl
    refine hsorted.before_of_sublist ?_ ?_
    · rw [horders]
      exact ((List.singleton_sublist.2 hlayers).append (List.singleton_sublist.2 List.mem_cons_self)).trans (List.sublist_append_left _ _)
    · rw [hts, hs.dominantTs]
      simp
  · intro hpos
    refine hsorted.before_of_lt (hmem _ (by simp)) (hmem _ (by simp)) ?_
    rw [hts, hs.dominantTs]
    omega

variable [RoundedDouble P] [ExactDouble P] {hash : Str → ℕ} {config : InstrumentUniverseConfig}

/-- Of the layers of a scenario all but the first move the market, unless the instrument is a currency pair. -/
theorem SpoofRoles.Of.movesMarket_iff (hs : s.Of side instrument (referencePrice hash instrument) anchorTimeNs severity out)
    (hi : instrument ∈ buildInstrumentUniverse config) (hcycles : LifeCycle Item.opens Item.ends Item.Follows out.items)
    (hsorted : SortedFrom simulation out) (accounts : TradeSurveillance.AccountRegistry) {i : ℕ} {layer : Order P}
    (hlayer : s.layers[i]? = some layer) :
    MovesMarket accounts ((sortedItems simulation).map (eventOf sides)) layer.orderId ↔ 0 < i ∧ instrument.assetClass ≠ .fx := by
  obtain ⟨cancel, hscene, hfirst, hlater⟩ := hs.scene hcycles hsorted sides hlayer
  obtain ⟨t, now, hside, hnow, hiff, hnone, hsome⟩ := hscene.exists_comparison accounts
  refine hiff.trans ?_
  rcases Nat.eq_zero_or_pos i with hzero | hpos
  · refine iff_of_false ?_ fun h => h.1.ne' hzero
    unfold SpoofingLayeringDetector.movedFavorably
    rw [hnone (hfirst hzero)]
    exact Bool.false_ne_true
  · have hsideLayer : t.side = toFixSide side := by
      rw [hside, ← (hs.layers layer (List.mem_of_getElem? hlayer)).side]
      rfl
    rw [hs.movedFavorably_iff hi hnow hsideLayer (hsome (hlater hpos))]
    exact (and_iff_right hpos).symm

end Roles

/-- The simulation of one scenario on its own. -/
def alone (out : ScenarioOutput P) : SimulationOutput P where
  instruments := []
  accounts := []
  orders := StableSort.sortBy (·.timestampNs) out.orders
  executions := StableSort.sortBy (·.timestampNs) out.executions

/-- A layer of a spoof moves the market exactly if it is not the first one and the instrument is not a currency pair. -/
theorem spoof_moves_market_iff [DoubleRounding P] [RoundedDouble P] [ExactDouble P] (hash : Str → ℕ) {config : InstrumentUniverseConfig}
    {instrument : Instrument P} (hi : instrument ∈ buildInstrumentUniverse config) {severity : P} (hzero : 0.0 ≤ severity)
    (hone : severity ≤ 1.0) (draws : SpoofingLayeringDraws P) (ids : IdGenerators) (scenarioId : Str) (account : Account)
    (anchorTimeNs : ℤ) (venue : Str) (accounts : TradeSurveillance.AccountRegistry) :
    ∃ out ids' events,
      generateSpoofingLayeringScenario draws ids scenarioId instrument account (referencePrice hash instrument) anchorTimeNs severity
        venue = some (out, ids') ∧
      toIngestionEvents (alone out) = .ok events ∧
      ∀ i < numLayers severity, ∃ layer, out.orders[i]? = some layer ∧
        (MovesMarket accounts events layer.orderId ↔ 0 < i ∧ instrument.assetClass ≠ .fx) := by
  have hseverity := between_severity hzero hone
  obtain ⟨out, ids', h⟩ := exists_generateSpoofingLayeringScenario draws ids scenarioId instrument account (referencePrice hash instrument)
    anchorTimeNs hseverity venue
  obtain ⟨s, side, hs⟩ := exists_roles hseverity h
  have hcycles := (generateSpoofingLayeringScenario_issued hseverity h).cycles
  have hsorted : SortedFrom (alone out) out := ⟨rfl, rfl⟩
  refine ⟨out, ids', _, h, toIngestionEvents_eq (hsorted.sortedItems_cycles hcycles), ?_⟩
  intro i hlt
  obtain ⟨layer, hlayer, horder⟩ := hs.exists_layer hlt
  exact ⟨layer, horder, hs.movesMarket_iff hi hcycles hsorted accounts hlayer⟩

/-! ## One spoof -/

/-- An equity of the universe. -/
def acme : Instrument ℚ := makeInstrument .equity 0.01 1000000 0 "ACME"

theorem acme_mem : acme ∈ buildInstrumentUniverse {} := by
  refine List.mem_append_left _ (List.mem_append_left _ (List.mem_map.2 ⟨"ACME", ?_, rfl⟩))
  decide

/-- Everything drawn is the least. -/
def leastDraws : SpoofingLayeringDraws ℚ := ⟨0, 0, 0, 0, 0, 0, fun _ => 0⟩

/-- A spoof of five layers: the last four move the market. -/
theorem spoof_moves_market_iff_five : ∃ out ids' events,
    generateSpoofingLayeringScenario leastDraws {} (ascii "SCN-0") acme ⟨ascii "ACC-0", ascii "OWN-0", .client, []⟩
      (referencePrice (fun _ => 0) acme) 0 (1 / 2) (ascii "SIM") = some (out, ids') ∧
    toIngestionEvents (alone out) = .ok events ∧
    ∀ i < 5, ∃ layer, out.orders[i]? = some layer ∧ (MovesMarket .empty events layer.orderId ↔ 0 < i) := by
  have hfive : numLayers (1 / 2 : ℚ) = 5 := by decide +kernel
  obtain ⟨out, ids', events, h, hevents, hlayers⟩ := spoof_moves_market_iff (fun _ => 0) acme_mem
    (by norm_num : (0.0 : ℚ) ≤ 1 / 2) (by norm_num) leastDraws {} (ascii "SCN-0")
    ⟨ascii "ACC-0", ascii "OWN-0", .client, []⟩ 0 (ascii "SIM") .empty
  refine ⟨out, ids', events, h, hevents, ?_⟩
  intro i hi
  obtain ⟨layer, hlayer, hiff⟩ := hlayers i (hfive ▸ hi)
  exact ⟨layer, hlayer, hiff.trans (and_iff_left fun hfx => by cases hfx)⟩

/-- The first does not. -/
theorem spoof_first_layer_static : ¬∀ (config : InstrumentUniverseConfig) (hash : Str → ℕ) (instrument : Instrument ℚ) (severity : ℚ)
    (draws : SpoofingLayeringDraws ℚ) (ids : IdGenerators) (scenarioId : Str) (account : Account) (anchorTimeNs : ℤ) (venue : Str)
    (accounts : TradeSurveillance.AccountRegistry) (out : ScenarioOutput ℚ) (ids' : IdGenerators) (events : List (Event ℚ)),
    instrument ∈ buildInstrumentUniverse config → 0.0 ≤ severity → severity ≤ 1.0 →
    generateSpoofingLayeringScenario draws ids scenarioId instrument account (referencePrice hash instrument) anchorTimeNs severity venue =
      some (out, ids') →
    toIngestionEvents (alone out) = .ok events →
    ∀ (i : ℕ) (layer : Order ℚ), i < numLayers severity → out.orders[i]? = some layer → MovesMarket accounts events layer.orderId := by
  intro h
  have hseverity : Double.Between (1 / 2 : ℚ) 0 1 := between_severity (by norm_num) (by norm_num)
  obtain ⟨out, ids', hout⟩ := exists_generateSpoofingLayeringScenario leastDraws {} (ascii "SCN-0") acme
    ⟨ascii "ACC-0", ascii "OWN-0", .client, []⟩ (referencePrice (fun _ => 0) acme) 0 hseverity (ascii "SIM")
  obtain ⟨s, side, hs⟩ := exists_roles hseverity hout
  have hcycles := (generateSpoofingLayeringScenario_issued hseverity hout).cycles
  have hsorted : SortedFrom (alone out) out := ⟨rfl, rfl⟩
  have hlt : 0 < numLayers (1 / 2 : ℚ) := by decide +kernel
  obtain ⟨layer, hlayer, horder⟩ := hs.exists_layer hlt
  have hmoved := h {} _ acme _ _ _ _ _ _ _ .empty out ids' _ acme_mem (by norm_num) (by norm_num) hout
    (toIngestionEvents_eq (hsorted.sortedItems_cycles hcycles)) 0 layer hlt horder
  exact absurd ((hs.movesMarket_iff acme_mem hcycles hsorted .empty hlayer).1 hmoved).1 (lt_irrefl 0)

end Simulator

end TradeSurveillance
