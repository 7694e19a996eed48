import TradeSurveillance.Harness.ReplayRunner
import TradeSurveillance.Lemmas.SimulatedAmounts
import TradeSurveillance.Lib.LifeCycle
import TradeSurveillance.Simulator.Simulator

/-!
# The orders of a simulation

Whatever is drawn, the items that a generator makes are life cycles of orders whose ids it has taken from the order-id generator
(`Issued`). This is so of one order with its fill or its Cancel, and parts that take their ids one after the other may be put together
in any way, so it is so of every scenario and of the whole session (`generateEvents_issued`).
-/

namespace TradeSurveillance

open Harness Simulator

variable {P : Type}

namespace Harness.Item

def orderId : Item P → Str
  | .order o => o.orderId
  | .execution x => x.orderId

def instrumentId : Item P → Str
  | .order o => o.instrumentId
  | .execution x => x.instrumentId

def qty : Item P → ℤ
  | .order o => o.qty
  | .execution x => x.qty

/-- The order id that a New opens. -/
def opens : Item P → Option Str
  | .order o => if o.status = .cancelled then none else some o.orderId
  | .execution _ => none

/-- The order id that a Cancel or an execution ends. -/
def ends : Item P → Option Str
  | .order o => if o.status = .cancelled then some o.orderId else none
  | .execution x => some x.orderId

/-- What ends an order is of its instrument, not before it in time, and executes at most its quantity. -/
structure Follows (n e : Item P) : Prop where
  instrumentId : n.instrumentId = e.instrumentId
  timestampNs : n.timestampNs ≤ e.timestampNs
  qty : ∀ x, e = .execution x → x.qty ≤ n.qty

end Harness.Item

namespace Simulator

/-- The orders and the executions of an output. -/
def ScenarioOutput.items (out : ScenarioOutput P) : List (Item P) := out.orders.map .order ++ out.executions.map .execution

/-- The id generator has gone on from another. -/
structure IdGenerator.After (g' g : IdGenerator) : Prop where
  idPrefix : g'.idPrefix = g.idPrefix
  counter : g.counter ≤ g'.counter

variable {g g' g'' : IdGenerator}

/-- Ids given stay given. -/
theorem IdGenerator.After.given {id : Str} (h : g'.After g) (hid : g.Given id) : g'.Given id := by
  obtain ⟨n, hn, rfl⟩ := hid
  exact ⟨n, hn.trans_le h.counter, by rw [h.idPrefix]⟩

/-- The items are life cycles of orders, and the ids of the orders were taken between two states of the generator. -/
structure Issued (g g' : IdGenerator) (items : List (Item P)) : Prop where
  cycles : LifeCycle Item.opens Item.ends Item.Follows items
  after : g'.After g
  given : ∀ id ∈ items.filterMap Item.opens, g'.Given id ∧ ¬g.Given id

namespace Issued

/-- No items need no ids. -/
theorem nil (g : IdGenerator) : Issued g g ([] : List (Item P)) where
  cycles := .nil
  after := ⟨rfl, le_rfl⟩
  given := fun _ hid => nomatch hid

/-! ## One order -/

section One

variable {o : Simulator.Order P}

/-- The next id is given, and was not before. -/
theorem given_next (hid : o.orderId = g.next.1) {id : Str} (h : id = o.orderId) : g.next.2.Given id ∧ ¬g.Given id := by
  rw [h, hid]
  exact ⟨IdGenerator.given_next g, IdGenerator.not_given_next g⟩

/-- An order. -/
theorem placed (hid : o.orderId = g.next.1) (hst : o.status = .new) : Issued g g.next.2 [.order o] where
  cycles := .opening (k := o.orderId) (by simp [Item.opens, hst]) (by simp [Item.ends, hst])
  after := ⟨rfl, Nat.le_succ _⟩
  given := fun id hmem => given_next hid (by simpa [Item.opens, hst] using hmem)

/-- An order and its execution. -/
theorem filled {x : Simulator.Execution P} (hid : o.orderId = g.next.1) (hst : o.status = .new) (hx : x.orderId = o.orderId)
    (hinst : x.instrumentId = o.instrumentId) (hts : o.timestampNs ≤ x.timestampNs) (hqty : x.qty ≤ o.qty) :
    Issued g g.next.2 [.order o, .execution x] where
  cycles := by
    refine .whole (by simp [Item.opens, hst]) (by simp [Item.ends, hst]) rfl (congrArg some hx) ⟨hinst.symm, hts, ?_⟩
    intro y hy
    cases hy
    exact hqty
  after := ⟨rfl, Nat.le_succ _⟩
  given := fun id hmem => given_next hid (by simpa [Item.opens, hst] using hmem)

/-- An order and its Cancel. -/
theorem cancelled {timestampNs : ℤ} (hid : o.orderId = g.next.1) (hst : o.status = .new) (hts : o.timestampNs ≤ timestampNs) :
    Issued g g.next.2 [.order o, .order (cancelAt o timestampNs)] where
  cycles := .whole (k := o.orderId) (by simp [Item.opens, hst]) (by simp [Item.ends, hst]) rfl rfl ⟨rfl, hts, fun _ hx => nomatch hx⟩
  after := ⟨rfl, Nat.le_succ _⟩
  given := fun id hmem => given_next hid (by simpa [Item.opens, hst, cancelAt] using hmem)

end One

/-! ## Putting parts together -/

/-- Two parts, interleaved in any way. -/
theorem merge {l m u : List (Item P)} (hl : Issued g g' l) (hm : Issued g' g'' m) (hlu : l.Sublist u) (hmu : m.Sublist u)
    (hu : u.Perm (l ++ m)) : Issued g g'' u where
  cycles := hl.cycles.merge hm.cycles hlu hmu hu fun id hid hid' => (hm.given id hid').2 (hl.given id hid).1
  after := ⟨hm.after.idPrefix.trans hl.after.idPrefix, hl.after.counter.trans hm.after.counter⟩
  given := by
    intro id hid
    rw [(hu.filterMap _).mem_iff, List.filterMap_append, List.mem_append] at hid
    rcases hid with hid | hid
    · exact ⟨hm.after.given (hl.given id hid).1, (hl.given id hid).2⟩
    · exact ⟨(hm.given id hid).1, fun hg => (hm.given id hid).2 (hl.after.given hg)⟩

/-- Two outputs, appended. -/
theorem append {a b : ScenarioOutput P} (ha : Issued g g' a.items) (hb : Issued g' g'' b.items) :
    Issued g g'' (ScenarioOutput.items ⟨a.orders ++ b.orders, a.executions ++ b.executions⟩) := by
  unfold ScenarioOutput.items at ha hb ⊢
  simp only [List.map_append] at ha hb ⊢
  refine ha.merge hb ?_ ?_ ?_
  · exact (List.sublist_append_left _ _).append (List.sublist_append_left _ _)
  · exact (List.sublist_append_right _ _).append (List.sublist_append_right _ _)
  · rw [List.append_assoc, List.append_assoc]
    refine List.Perm.append_left _ ?_
    rw [← List.append_assoc, ← List.append_assoc]
    exact List.Perm.append_right _ List.perm_append_comm

/-- An output between two parts of a list of orders. -/
theorem around {first last : List (Simulator.Order P)} (out : ScenarioOutput P) (h : Issued g g' ((first ++ last).map .order))
    (hout : Issued g' g'' out.items) : Issued g g'' (ScenarioOutput.items ⟨first ++ out.orders ++ last, out.executions⟩) := by
  unfold ScenarioOutput.items at hout ⊢
  simp only [List.map_append] at h ⊢
  refine h.merge hout ?_ ?_ ?_
  · exact ((List.sublist_append_left _ _).append (List.Sublist.refl _)).trans (List.sublist_append_left _ _)
  · exact ((List.sublist_append_right _ _).trans (List.sublist_append_left _ _)).append (List.Sublist.refl _)
  · simp only [List.append_assoc]
    refine List.Perm.append_left _ ?_
    rw [← List.append_assoc, ← List.append_assoc]
    exact List.Perm.append_right _ List.perm_append_comm

/-- The executions in another order. -/
theorem permuted {out : ScenarioOutput P} (h : Issued g g' out.items) {executions : List (Simulator.Execution P)}
    (hperm : executions.Perm out.executions) : Issued g g' (ScenarioOutput.items ⟨out.orders, executions⟩) := by
  have hitems : (ScenarioOutput.items ⟨out.orders, executions⟩).Perm out.items := (hperm.map _).append_left _
  refine ⟨h.cycles.rearrange hitems fun n e hn _ hsub => ?_, h.after, fun id hid => ?_⟩
  · obtain ⟨l₁, l₂, heq, h₁, h₂⟩ := List.sublist_append_iff.1 hsub
    rcases l₁ with _ | ⟨a, l₁⟩
    · -- what opens an order is not an execution
      rw [List.nil_append] at heq
      rw [← heq] at h₂
      obtain ⟨x, -, rfl⟩ := List.mem_map.1 (h₂.subset List.mem_cons_self)
      nomatch hn
    · rw [heq]
      refine h₁.append ?_
      rcases l₂ with _ | ⟨b, l₂⟩
      · exact List.nil_sublist _
      · have hlen := congrArg List.length heq
        simp only [List.length_append, List.length_cons, List.length_nil] at hlen
        obtain rfl : l₂ = [] := List.length_eq_zero_iff.1 (by omega)
        exact List.singleton_sublist.2 ((hperm.map _).mem_iff.2 (List.singleton_sublist.1 h₂))
  · rw [(hitems.filterMap _).mem_iff] at hid
    exact h.given id hid

end Issued

/-! ## Scenarios -/

section Scenarios

variable [Double P] [LinearOrder P] [DoubleRounding P] {ids ids' : IdGenerators} {scenarioId venue : Str}
  {instrument : Instrument P} {basePrice severity : P} {anchorTimeNs : ℤ} {out : ScenarioOutput P}

/-- A front-running scenario is made of life cycles with new ids. -/
theorem generateFrontRunningScenario_issued {draws : FrontRunningDraws P} {a b : Account}
    (h : generateFrontRunningScenario draws ids scenarioId instrument a b basePrice anchorTimeNs severity venue = (out, ids')) :
    Issued ids.order ids'.order out.items := by
  have hreaction := le_uniformInt64 draws.reactionDelayNs 20000000 150000000
  have hfill := le_uniformInt64 draws.relatedFillDelayNs 10000000 100000000
  have hreversal := le_uniformInt64 draws.reversalFillDelayNs 10000000 100000000
  unfold generateFrontRunningScenario at h
  extract_lets label side directionSign referencePriceRounded qtyClient qtyRelated reactionDelayNs relatedFillDelayNs minLeadNs
    frontRunLeadNs slipTicks clientPrice order at h
  have hlead : reactionDelayNs + relatedFillDelayNs + 10000000 ≤ frontRunLeadNs := le_max_left _ _
  -- the client's order is executed after the related account's
  have hpair : ∀ (client related : Simulator.Order P) (clientFillTs relatedFillTs : ℤ) (tradeId tradeId' : Str) (g : IdGenerator),
      client.orderId = g.next.1 → client.status = .new → related.orderId = g.next.2.next.1 → related.status = .new →
      client.timestampNs ≤ clientFillTs → related.timestampNs ≤ relatedFillTs → Issued g g.next.2.next.2
        (ScenarioOutput.items ⟨[client, related], [frontRunningExecution tradeId related relatedFillTs,
          frontRunningExecution tradeId' client clientFillTs]⟩) := by
    intro client related clientFillTs relatedFillTs tradeId tradeId' g hclient hcst hrelated hrst hcts hrts
    have happend := Issued.append (a := ⟨[client], [frontRunningExecution tradeId' client clientFillTs]⟩)
      (b := ⟨[related], [frontRunningExecution tradeId related relatedFillTs]⟩)
      (.filled hclient hcst rfl rfl hcts le_rfl) (.filled hrelated hrst rfl rfl hrts le_rfl)
    exact happend.permuted (List.Perm.swap _ _ _)
  by_cases hs : severity ≥ 0.5
  · simp only [if_pos hs, Prod.mk.injEq] at h
    obtain ⟨rfl, rfl⟩ := h
    refine Issued.append (a := ⟨[_, _], [_, _]⟩) (b := ⟨[_], [_]⟩) (hpair _ _ _ _ _ _ _ rfl rfl rfl rfl ?_ ?_)
      (.filled rfl rfl rfl rfl ?_ le_rfl)
    · show anchorTimeNs ≤ anchorTimeNs + frontRunLeadNs
      omega
    · show anchorTimeNs + reactionDelayNs ≤ anchorTimeNs + reactionDelayNs + relatedFillDelayNs
      omega
    · show _ ≤ _ + uniformInt64 draws.reversalFillDelayNs 10000000 100000000
      omega
  · simp only [if_neg hs, Prod.mk.injEq] at h
    obtain ⟨rfl, rfl⟩ := h
    refine hpair _ _ _ _ _ _ _ rfl rfl rfl rfl ?_ ?_
    · show anchorTimeNs ≤ anchorTimeNs + frontRunLeadNs
      omega
    · show anchorTimeNs + reactionDelayNs ≤ anchorTimeNs + reactionDelayNs + relatedFillDelayNs
      omega

omit [LinearOrder P] in
/-- So are the trades of a push to the close. -/
theorem trades_issued {push : ClosePush P} {draws : MarkingTheCloseDraws P} {n i : ℕ} (h : push.trades draws n i ids = some (out, ids')) :
    Issued ids.order ids'.order out.items := by
  induction n generalizing i ids out with
  | zero =>
    simp only [ClosePush.trades, Option.some.injEq, Prod.mk.injEq] at h
    obtain ⟨rfl, rfl⟩ := h
    exact .nil _
  | succ n ih =>
    unfold ClosePush.trades at h
    simp only [Option.bind_eq_bind, Option.bind_eq_some_iff, Option.some.injEq, Prod.exists, Prod.mk.injEq] at h
    obtain ⟨account, -, rest, ids'', hrest, rfl, rfl⟩ := h
    have hdelay := le_uniformInt64 (draws.fillDelayNs i) 1000000 20000000
    refine Issued.append (a := ⟨[_], [_]⟩) (.filled rfl rfl rfl rfl ?_ le_rfl) (ih hrest)
    show _ ≤ _ + uniformInt64 (draws.fillDelayNs i) 1000000 20000000
    omega

/-- So is a marking-the-close scenario. -/
theorem generateMarkingTheCloseScenario_issued {draws : MarkingTheCloseDraws P} {pool : List Account} {ordersPerSecond : P}
    {instrumentCount : ℤ} (h : generateMarkingTheCloseScenario draws ids scenarioId instrument pool basePrice severity ordersPerSecond
      instrumentCount venue = some (out, ids')) : Issued ids.order ids'.order out.items := by
  unfold generateMarkingTheCloseScenario at h
  split_ifs at h
  · simp only [Option.some.injEq, Prod.mk.injEq] at h
    obtain ⟨rfl, rfl⟩ := h
    exact .nil _
  · exact trades_issued h

variable [RoundedDouble P]

/-- So is a wash-trade scenario. -/
theorem generateWashTradeScenario_issued {draws : WashTradeDraws P} {a b : Account} (hseverity : Double.Between severity 0 1)
    (h : generateWashTradeScenario draws ids scenarioId instrument a b basePrice anchorTimeNs severity venue = (out, ids')) :
    Issued ids.order ids'.order out.items := by
  obtain ⟨rfl, rfl⟩ := Prod.mk.inj h
  have hgap := legGap_nonneg hseverity
  have hnoise := le_uniformInt64 draws.legGapNs 0 500000000
  have hdelay := le_uniformInt64 draws.tradeDelayNs 10000000 200000000
  refine Issued.append (a := ⟨[_], [_]⟩) (b := ⟨[_], [_]⟩) (Issued.filled rfl rfl rfl rfl ?_ (min_le_left _ _))
    (Issued.filled rfl rfl rfl rfl ?_ (min_le_right _ _))
  · show anchorTimeNs ≤ anchorTimeNs + _ + _
    omega
  · show anchorTimeNs + _ ≤ anchorTimeNs + _ + _
    omega

/-! ### Spoofing -/

omit [Double P] [LinearOrder P] [DoubleRounding P] [RoundedDouble P] in
/-- The order is a Cancel of another, not before it. -/
def CancelOf (o c : Simulator.Order P) : Prop := ∃ ts, o.timestampNs ≤ ts ∧ c = cancelAt o ts

omit [Double P] [LinearOrder P] [DoubleRounding P] [RoundedDouble P] in
/-- The orders of the layers are layers. -/
theorem mem_placeLayers (layer : ℕ → Str → Simulator.Order P) (n i : ℕ) (ids : IdGenerators) :
    ∀ o ∈ (placeLayers layer n i ids).1, ∃ j id, o = layer j id := by
  induction n generalizing i ids with
  | zero => exact fun _ ho => nomatch ho
  | succ n ih =>
    intro o ho
    rcases List.mem_cons.1 ho with rfl | ho
    · exact ⟨i, _, rfl⟩
    · exact ih _ _ o ho

omit [Double P] [LinearOrder P] [DoubleRounding P] [RoundedDouble P] in
/-- The layers, and later their Cancels. -/
theorem placeLayers_issued {layer : ℕ → Str → Simulator.Order P} (hid : ∀ i id, (layer i id).orderId = id)
    (hst : ∀ i id, (layer i id).status = .new) (n i : ℕ) (ids : IdGenerators) {cancels : List (Simulator.Order P)}
    (hcancels : List.Forall₂ CancelOf (placeLayers layer n i ids).1 cancels) :
    Issued ids.order (placeLayers layer n i ids).2.order (((placeLayers layer n i ids).1 ++ cancels).map .order) := by
  induction n generalizing i ids cancels with
  | zero =>
    obtain rfl := List.forall₂_nil_left_iff.1 hcancels
    exact .nil _
  | succ n ih =>
    obtain ⟨c, cancels, ⟨ts, hts, rfl⟩, hrest, rfl⟩ := List.forall₂_cons_left_iff.1 hcancels
    have hone : Issued ids.order ids.order.next.2 [.order (layer i ids.nextOrder.1), .order (cancelAt (layer i ids.nextOrder.1) ts)] :=
      .cancelled (hid _ _) (hst _ _) hts
    refine hone.merge (ih _ _ hrest) ?_ ?_ ?_
    · refine List.Sublist.cons_cons _ (List.singleton_sublist.2 ?_)
      exact List.mem_map_of_mem (List.mem_append_right _ List.mem_cons_self)
    · refine ((List.Sublist.refl _).append (List.sublist_cons_self _ _)).map _ |>.cons _
    · exact (List.perm_middle.map _).cons _

omit [Double P] [LinearOrder P] [DoubleRounding P] [RoundedDouble P] in
/-- What a loop makes of each order, and of its place. -/
theorem forall₂_map_zipIdx {R : Simulator.Order P → Simulator.Order P → Prop} {f : Simulator.Order P × ℕ → Simulator.Order P}
    (hf : ∀ x, R x.1 (f x)) (layers : List (Simulator.Order P)) (i : ℕ) : List.Forall₂ R layers ((layers.zipIdx i).map f) := by
  induction layers generalizing i with
  | nil => exact .nil
  | cons o layers ih => exact .cons (hf (o, i)) (ih (i + 1))

/-- The anchor moves the price no earlier than its time. -/
theorem anchorMoveTs_ge {dwell jitter lastLayerTs : ℤ} (hdwell : jitter.tdiv 2 + 1000000 ≤ dwell) (hlast : anchorTimeNs ≤ lastLayerTs) :
    anchorTimeNs ≤ anchorMoveTs anchorTimeNs dwell jitter lastLayerTs := by
  unfold anchorMoveTs
  simp only
  split_ifs <;> omega

/-- A spoofing scenario is made of life cycles with new ids. -/
theorem generateSpoofingLayeringScenario_issued {draws : SpoofingLayeringDraws P} {a : Account} (hseverity : Double.Between severity 0 1)
    (h : generateSpoofingLayeringScenario draws ids scenarioId instrument a basePrice anchorTimeNs severity venue = some (out, ids')) :
    Issued ids.order ids'.order out.items := by
  obtain ⟨hjitter, hmargin⟩ := jitter_add_le_dwell hseverity
  have hnoise := le_uniformInt64 draws.dwellNs (-500000000) 500000000
  have hfill := le_uniformInt64 draws.genuineFillNs 10000000 100000000
  unfold generateSpoofingLayeringScenario at h
  extract_lets label numLayers qtyMultiplier baselineQtyUnit layerQty speedScoreAnchorNs dwellNs cancelClusterJitterNs spoofSells sideSpoof
    sideGenuine awaySign referencePriceRounded anchorSafeZoneTicks layer cancelAnchorTs earliestGenuineTs at h
  have hdwell : cancelClusterJitterNs.tdiv 2 + 1000000 ≤ dwellNs := by
    have hspread : 0 ≤ cancelClusterJitterNs ∧ cancelClusterJitterNs + 604000000 ≤ Simulator.dwellNs severity := ⟨hjitter, hmargin⟩
    show _ ≤ Simulator.dwellNs severity + uniformInt64 draws.dwellNs (-500000000) 500000000
    rw [Int.tdiv_eq_ediv_of_nonneg hspread.1]
    omega
  have hplaced := mem_placeLayers layer numLayers.toNat 0 ids
  have hissued : ∀ cancels, List.Forall₂ CancelOf (placeLayers layer numLayers.toNat 0 ids).1 cancels → Issued ids.order
      (placeLayers layer numLayers.toNat 0 ids).2.order (((placeLayers layer numLayers.toNat 0 ids).1 ++ cancels).map .order) :=
    fun _ => placeLayers_issued (fun _ _ => rfl) (fun _ _ => rfl) _ _ _
  simp only [Option.bind_eq_bind, Option.bind_eq_some_iff, Option.some.injEq, Prod.mk.injEq] at h
  obtain ⟨lastLayer, hlast, rfl, rfl⟩ := h
  have hlastTs : anchorTimeNs ≤ lastLayer.timestampNs := by
    obtain ⟨j, id, rfl⟩ := hplaced _ (List.mem_of_getLast? hlast)
    show anchorTimeNs ≤ anchorTimeNs + j * 20000000
    omega
  refine Issued.around ⟨[_, _] ++ ([_] ++ [_]), [] ++ ([] ++ [_])⟩
    (hissued _ (forall₂_map_zipIdx ?_ _ _)) ?_
  · intro x
    exact ⟨_, (le_add_of_nonneg_right (by norm_num)).trans (le_max_left (x.1.timestampNs + 1000000) _), rfl⟩
  refine .append (a := ⟨[_, _], []⟩) (b := ⟨[_] ++ [_], [] ++ [_]⟩) (.cancelled rfl rfl ?_) ?_
  · exact anchorMoveTs_ge hdwell hlastTs
  refine .append (a := ⟨[_], []⟩) (b := ⟨[_], [_]⟩) (.placed rfl rfl) (.filled rfl rfl rfl rfl ?_ le_rfl)
  have hnonneg : 0 ≤ uniformInt64 draws.genuineFillNs 10000000 100000000 := by omega
  exact le_add_of_nonneg_right hnonneg

end Scenarios

/-! ## The session -/

section Session

variable [Double P] [LinearOrder P] [DoubleRounding P] [RoundedDouble P] {ids ids' : IdGenerators}

omit [DoubleRounding P] [RoundedDouble P] in
/-- An arrival and what becomes of it are a life cycle with a new id. -/
theorem baselineOutcome_issued {accounts : List Account} {account : Account} {order : Simulator.Order P} {draws : ArrivalDraws P}
    {out : ScenarioOutput P} (hid : order.orderId = g.next.1) (hids : ids.order = g.next.2) (hst : order.status = .new)
    (hqty : 1 ≤ order.qty) (h : baselineOutcome accounts account order draws ids = some (out, ids')) :
    Issued g ids'.order out.items := by
  have hdelay := le_uniformInt64 draws.fillDelayNs 10000000 2000000000
  have hdwell := le_uniformInt64 draws.dwellNs 500000000 30000000000
  have hpart : max 1 (order.qty.tdiv 2) ≤ order.qty := by
    rw [Int.tdiv_eq_ediv_of_nonneg (by omega)]
    omega
  have hfill : order.timestampNs ≤ order.timestampNs + uniformInt64 draws.fillDelayNs 10000000 2000000000 := by omega
  unfold baselineOutcome at h
  simp only at h
  split_ifs at h
  · simp only [Option.bind_eq_bind, Option.bind_eq_some_iff, Option.some.injEq, Prod.mk.injEq] at h
    obtain ⟨counterparty, -, rfl, rfl⟩ := h
    show Issued g ids.order _
    rw [hids]
    exact .filled hid hst rfl rfl hfill le_rfl
  · simp only [Option.bind_eq_bind, Option.bind_eq_some_iff, Option.some.injEq, Prod.mk.injEq] at h
    obtain ⟨counterparty, -, rfl, rfl⟩ := h
    show Issued g ids.order _
    rw [hids]
    exact .filled hid hst rfl rfl hfill hpart
  · simp only [Option.some.injEq, Prod.mk.injEq] at h
    obtain ⟨rfl, rfl⟩ := h
    rw [hids]
    refine Issued.cancelled hid hst ?_
    omega
  · simp only [Option.some.injEq, Prod.mk.injEq] at h
    obtain ⟨rfl, rfl⟩ := h
    rw [hids]
    exact .placed hid hst

/-- The output so far has ids taken since the session began. -/
theorem arrive_issued {instruments : List (Instrument P)} {accounts : List Account} {s s' : BaselineState P} {t : ℤ}
    {draws : ArrivalDraws P} (hs : Issued g s.ids.order s.output.items) (h : arrive instruments accounts s t draws = some s') :
    Issued g s'.ids.order s'.output.items := by
  unfold arrive at h
  simp only [Option.bind_eq_bind, Option.bind_eq_some_iff, Option.some.injEq, Prod.exists] at h
  obtain ⟨instrument, -, account, -, out, ids, hout, rfl⟩ := h
  exact hs.append (baselineOutcome_issued rfl rfl rfl (one_le_tradeSize draws.qty) hout)

/-- The loop over the arrivals goes on in life cycles. -/
theorem baselineLoop_issued {instruments : List (Instrument P)} {accounts : List Account} {endTimeNs : ℤ} {s s' : BaselineState P}
    {draws : List (ArrivalDraws P)} (hs : Issued g s.ids.order s.output.items)
    (h : baselineLoop instruments accounts endTimeNs s draws = some s') : Issued g s'.ids.order s'.output.items := by
  induction draws generalizing s with
  | nil => nomatch h
  | cons d draws ih =>
    rw [baselineLoop] at h
    split_ifs at h
    · rw [Option.some.injEq] at h
      exact h ▸ hs
    · obtain ⟨next, hnext, h⟩ := Option.bind_eq_some_iff.1 h
      exact ih (arrive_issued hs hnext) h

/-- The baseline flow is made of life cycles. -/
theorem generateBaselineFlow_issued {hash : Str → ℕ} {config : BaselineConfig} {instruments : List (Instrument P)}
    {accounts : List Account} {draws : List (ArrivalDraws P)} {r : ScenarioOutput P × IdGenerators}
    (h : generateBaselineFlow hash config instruments accounts draws ids = some r) : Issued ids.order r.2.order r.1.items := by
  unfold generateBaselineFlow at h
  split_ifs at h
  · obtain rfl := Option.some.inj h
    exact .nil _
  · obtain ⟨s, hs, rfl⟩ := Option.map_eq_some_iff.1 h
    exact baselineLoop_issued (.nil _) hs

omit [Double P] [LinearOrder P] [DoubleRounding P] [RoundedDouble P] in
/-- A loop over scenarios. -/
theorem injectScenarios_issued {inject : Injection P}
    (hinject : ∀ {i scenarioId ids out ids'}, inject i scenarioId ids = some (out, ids') → Issued ids.order ids'.order out.items) {n i : ℕ}
    {scenarioGen : IdGenerator} {r r' : ScenarioOutput P × IdGenerators} (hr : Issued g r.2.order r.1.items)
    (h : injectScenarios inject n i scenarioGen r = some r') : Issued g r'.2.order r'.1.items := by
  refine injectScenarios_induct (motive := fun s => Issued g s.2.order s.1.items) ?_ h hr
  intro i scenarioId out ids scenario ids' hscenario hissued
  exact hissued.append (hinject hscenario)

variable {hash : Str → ℕ} {config : SimulatorConfig P} {i : ℕ} {scenarioId : Str} {out : ScenarioOutput P}

/-- An injected wash trade is made of life cycles with new ids. -/
theorem injectWashTrade_issued (hseverity : Double.Between config.washTrade.severity 0 1) {draws : ℕ → InjectionDraws (WashTradeDraws P)}
    (h : injectWashTrade hash config draws i scenarioId ids = some (out, ids')) : Issued ids.order ids'.order out.items := by
  unfold injectWashTrade at h
  simp only [Option.bind_eq_bind, Option.bind_eq_some_iff, Option.some.injEq, Prod.exists] at h
  obtain ⟨instrument, -, first, second, -, h⟩ := h
  exact generateWashTradeScenario_issued hseverity h

/-- So is an injected spoofing scenario. -/
theorem injectSpoofingLayering_issued (hseverity : Double.Between config.spoofingLayering.severity 0 1)
    {draws : ℕ → InjectionDraws (SpoofingLayeringDraws P)}
    (h : injectSpoofingLayering hash config draws i scenarioId ids = some (out, ids')) : Issued ids.order ids'.order out.items := by
  unfold injectSpoofingLayering at h
  simp only [Option.bind_eq_bind, Option.bind_eq_some_iff] at h
  obtain ⟨instrument, -, account, -, h⟩ := h
  exact generateSpoofingLayeringScenario_issued hseverity h

omit [RoundedDouble P] in
/-- So is an injected push to the close. -/
theorem injectMarkingTheClose_issued {draws : ℕ → InjectionDraws (MarkingTheCloseDraws P)}
    (h : injectMarkingTheClose hash config draws i scenarioId ids = some (out, ids')) : Issued ids.order ids'.order out.items := by
  unfold injectMarkingTheClose at h
  simp only [Option.bind_eq_bind, Option.bind_eq_some_iff, Prod.exists] at h
  obtain ⟨instrument, -, first, second, -, h⟩ := h
  exact generateMarkingTheCloseScenario_issued h

omit [RoundedDouble P] in
/-- So is an injected front-running scenario. -/
theorem injectFrontRunning_issued {draws : ℕ → InjectionDraws (FrontRunningDraws P)}
    (h : injectFrontRunning hash config draws i scenarioId ids = some (out, ids')) : Issued ids.order ids'.order out.items := by
  unfold injectFrontRunning at h
  simp only [Option.bind_eq_bind, Option.bind_eq_some_iff, Option.some.injEq, Prod.exists] at h
  obtain ⟨instrument, -, first, second, -, h⟩ := h
  exact generateFrontRunningScenario_issued h

variable {draws : SimulationDraws P}

/-- Every event of a session is of an order whose id was taken in it. -/
theorem generateEvents_issued (hwash : Double.Between config.washTrade.severity 0 1)
    (hspoofing : Double.Between config.spoofingLayering.severity 0 1) {r : ScenarioOutput P × IdGenerators}
    (h : generateEvents hash config draws = some r) : Issued { idPrefix := ascii "ORD" } r.2.order r.1.items := by
  unfold generateEvents at h
  simp only [Option.bind_eq_bind, Option.bind_eq_some_iff] at h
  obtain ⟨b, hb, r₁, h₁, r₂, h₂, r₃, h₃, h₄⟩ := h
  have hr₁ := injectScenarios_issued (injectWashTrade_issued hwash) (generateBaselineFlow_issued hb) h₁
  have hr₂ := injectScenarios_issued (injectSpoofingLayering_issued hspoofing) hr₁ h₂
  have hr₃ := injectScenarios_issued injectMarkingTheClose_issued hr₂ h₃
  exact injectScenarios_issued injectFrontRunning_issued hr₃ h₄

end Session

end Simulator

end TradeSurveillance
