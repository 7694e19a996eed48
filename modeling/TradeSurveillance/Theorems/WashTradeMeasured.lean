import TradeSurveillance.Lemmas.SimulatedTrades
import TradeSurveillance.Theorems.CleanReplay
import TradeSurveillance.Theorems.DetectorIndependence

/-!
# The wash-trade rule, measured

The confusion matrix of the rule over a generated session, from the draws: no labelled execution is missed, and what is found besides
them are the fills of the baseline whose counterparties were all drawn related (`wash_trades_measured`).
-/

namespace TradeSurveillance

open Harness Simulator

variable {P : Type}

/-! ## Trade ids -/

namespace Harness

/-- The trade ids of the executions with a property. -/
def tradeIds (p : Simulator.Execution P → Bool) (xs : List (Simulator.Execution P)) : Finset Str := ((xs.filter p).map (·.tradeId)).toFinset

variable {p q : Simulator.Execution P → Bool} {xs : List (Simulator.Execution P)} {id : Str}

/-- The trade ids are those of the executions with the property. -/
theorem mem_tradeIds : id ∈ tradeIds p xs ↔ ∃ x ∈ xs, p x = true ∧ x.tradeId = id := by
  simp [tradeIds, and_assoc]

/-- Different trade ids are as many as the executions. -/
theorem card_tradeIds (h : (xs.map (·.tradeId)).Nodup) : (tradeIds p xs).card = xs.countP p := by
  have hnodup : ((xs.filter p).map (·.tradeId)).Nodup := h.sublist (List.filter_sublist.map _)
  rw [tradeIds, List.toFinset_card_of_nodup hnodup, List.length_map, List.countP_eq_length_filter]

/-- An execution is found by its trade id. -/
theorem mem_tradeIds_self (h : (xs.map (·.tradeId)).Nodup) {x : Simulator.Execution P} (hx : x ∈ xs) :
    x.tradeId ∈ tradeIds p xs ↔ p x = true := by
  rw [mem_tradeIds]
  constructor
  · rintro ⟨y, hy, hp, hid⟩
    rwa [← List.inj_on_of_nodup_map h hy hx hid]
  · exact fun hp => ⟨x, hx, hp, rfl⟩

/-- Ids in two sets are those of executions with both properties. -/
theorem tradeIds_filter (h : (xs.map (·.tradeId)).Nodup) :
    (tradeIds p xs).filter (· ∈ tradeIds q xs) = tradeIds (fun x => p x && q x) xs := by
  ext id
  simp only [Finset.mem_filter, mem_tradeIds (p := p), mem_tradeIds (p := fun x => p x && q x), Bool.and_eq_true]
  constructor
  · rintro ⟨⟨x, hx, hp, rfl⟩, hq⟩
    exact ⟨x, hx, ⟨hp, (mem_tradeIds_self h hx).1 hq⟩, rfl⟩
  · rintro ⟨x, hx, ⟨hp, hq⟩, rfl⟩
    exact ⟨⟨x, hx, hp, rfl⟩, (mem_tradeIds_self h hx).2 hq⟩

/-- Ids in the first set only are those of executions with the first property only. -/
theorem tradeIds_filter_not (h : (xs.map (·.tradeId)).Nodup) :
    (tradeIds p xs).filter (· ∉ tradeIds q xs) = tradeIds (fun x => p x && !q x) xs := by
  ext id
  simp only [Finset.mem_filter, mem_tradeIds (p := p), mem_tradeIds (p := fun x => p x && !q x), Bool.and_eq_true, Bool.not_eq_true']
  constructor
  · rintro ⟨⟨x, hx, hp, rfl⟩, hq⟩
    exact ⟨x, hx, ⟨hp, Bool.eq_false_iff.2 fun hqx => hq ((mem_tradeIds_self h hx).2 hqx)⟩, rfl⟩
  · rintro ⟨x, hx, ⟨hp, hq⟩, rfl⟩
    exact ⟨⟨x, hx, hp, rfl⟩, fun hmem => by simp [(mem_tradeIds_self h hx).1 hmem] at hq⟩

/-- The universe of the executions. -/
theorem buildUniverses_executions (simulation : SimulationOutput P) :
    (buildUniverses simulation).executions.eventIds = tradeIds (fun _ => true) simulation.executions ∧ ∀ pattern,
      (buildUniverses simulation).executions.ids pattern =
        tradeIds (fun x => decide (x.groundTruthLabel.pattern = pattern)) simulation.executions := by
  have horders : ∀ (orders : List (Simulator.Order P)) (u : Universes), (orders.foldl Universes.addOrder u).executions = u.executions := by
    intro orders
    induction orders with
    | nil => exact fun _ => rfl
    | cons o orders ih =>
      intro u
      rw [List.foldl_cons, ih]
      unfold Universes.addOrder
      cases o.status <;> rfl
  unfold buildUniverses
  simp only
  generalize hu : simulation.orders.foldl Universes.addOrder ⟨.empty, .empty, .empty⟩ = u
  have hempty : u.executions = .empty := by rw [← hu, horders]
  generalize simulation.executions = xs
  induction xs using List.reverseRecOn with
  | nil =>
    rw [List.foldl_nil, hempty]
    exact ⟨rfl, fun pattern => rfl⟩
  | append_singleton xs x ih =>
    rw [List.foldl_append, List.foldl_cons, List.foldl_nil]
    constructor
    · show insert x.tradeId _ = _
      rw [ih.1]
      ext id
      simp [mem_tradeIds, eq_comm, or_comm]
    · intro pattern
      show DetectorUniverse.ids (DetectorUniverse.add _ _ _) pattern = _
      unfold DetectorUniverse.add DetectorUniverse.ids
      simp only
      by_cases hpattern : pattern = x.groundTruthLabel.pattern
      · subst hpattern
        rw [Finmap.lookup_insert, Option.getD_some]
        show insert _ (DetectorUniverse.ids _ _) = _
        rw [ih.2]
        ext id
        simp only [Finset.mem_insert, mem_tradeIds, List.mem_append, List.mem_singleton, decide_eq_true_eq]
        constructor
        · rintro (rfl | ⟨y, hy, hp, rfl⟩)
          · exact ⟨x, .inr rfl, rfl, rfl⟩
          · exact ⟨y, .inl hy, hp, rfl⟩
        · rintro ⟨y, hy | rfl, hp, rfl⟩
          · exact .inr ⟨y, hy, hp, rfl⟩
          · exact .inl rfl
      · rw [Finmap.lookup_insert_of_ne _ hpattern]
        show DetectorUniverse.ids _ _ = _
        rw [ih.2]
        ext id
        simp only [mem_tradeIds, List.mem_append, List.mem_singleton, decide_eq_true_eq]
        constructor
        · rintro ⟨y, hy, hp, rfl⟩
          exact ⟨y, .inl hy, hp, rfl⟩
        · rintro ⟨y, hy | rfl, hp, rfl⟩
          · exact ⟨y, hy, hp, rfl⟩
          · exact absurd hp.symm hpattern

end Harness

/-! ## The alerts of the rule -/

namespace LivePipeline

variable [LinearOrder P]

/-- Where an alert of a run comes from. -/
theorem mem_alertsOf {p : LivePipeline P} {events : List (Event P)} {alert : Alert P} : alert ∈ p.alertsOf events ↔
    ∃ pre e post, events = pre ++ e :: post ∧ alert ∈ ((pre.foldl (fun p e => (p.process e).1) p).process e).2.alerts := by
  induction events generalizing p with
  | nil => simp [alertsOf, trace]
  | cons e events ih =>
    rw [alertsOf_cons, List.mem_append, ih]
    constructor
    · rintro (h | ⟨pre, e', post, rfl, h⟩)
      · exact ⟨[], e, events, rfl, h⟩
      · exact ⟨e :: pre, e', post, rfl, h⟩
    · rintro ⟨_ | ⟨first, pre⟩, e', post, heq, h⟩
      · obtain ⟨rfl, rfl⟩ := List.cons.inj heq
        exact .inl h
      · obtain ⟨rfl, rfl⟩ := List.cons.inj heq
        exact .inr ⟨pre, e', post, rfl, h⟩

end LivePipeline

section Rule

variable [Double P] [LinearOrder P] {accounts : AccountRegistry}

/-- The rule fires on the execution. -/
def fires (accounts : AccountRegistry) (x : Simulator.Execution P) : Bool :=
  decide (x.counterpartyAccountId ≠ []) && accounts.isRelated x.accountId x.counterpartyAccountId

/-- The wash-trade rule has no state. -/
theorem run_washTrade (accounts : AccountRegistry) (events : List (Event P)) :
    (LivePipeline.run [WashTradeDetector.object] accounts events).detectors = [WashTradeDetector.object] := by
  induction events using List.reverseRecOn with
  | nil => rfl
  | append_singleton events e ih =>
    rw [LivePipeline.run_concat]
    generalize LivePipeline.run [WashTradeDetector.object] accounts events = p at ih ⊢
    cases ht : ((p.bookOf e.instrumentId).apply e).2 with
    | some thrown => rw [(p.process_of_thrown ht).1, ih]
    | none =>
      rw [(p.process_of_applied ht).1, ih]
      rfl

/-- The rule alone names the two ids of each execution it fires on, where no event is skipped. -/
theorem names_washTrade {events : List (Event P)} (h : Orderly events) {threshold : P} (hthreshold : threshold ≤ 1.0) {id : Str} :
    (∃ alert ∈ (LivePipeline.make [WashTradeDetector.object] accounts).alertsOf events,
      Names (ascii "WashTradeDetector") threshold id alert) ↔
    ∃ x, .execution x ∈ events ∧ x.counterpartyAccountId ≠ [] ∧
      accounts.isRelated x.accountId x.counterpartyAccountId = true ∧ (id = x.orderId ∨ id = x.tradeId) := by
  have halerts : ∀ pre e post, events = pre ++ e :: post → ∃ book : OrderBook P,
      ((LivePipeline.run [WashTradeDetector.object] accounts pre).process e).2.alerts = WashTradeDetector.evaluate book e accounts := by
    intro pre e post hevents
    have haccepted := (hevents ▸ h).accepted [WashTradeDetector.object] accounts
    have hdetectors := run_washTrade accounts pre
    have haccounts := LivePipeline.run_accounts (P := P) [WashTradeDetector.object] accounts pre
    generalize LivePipeline.run [WashTradeDetector.object] accounts pre = p at haccepted hdetectors haccounts ⊢
    rw [LivePipeline.process_skipped, Option.isSome_eq_false_iff, Option.isNone_iff_eq_none] at haccepted
    refine ⟨((p.bookOf e.instrumentId).apply e).1, ?_⟩
    rw [(p.process_of_applied haccepted).2, hdetectors, haccounts]
    exact List.append_nil _
  constructor
  · rintro ⟨alert, ha, -, -, hid⟩
    obtain ⟨pre, e, post, hevents, ha⟩ := LivePipeline.mem_alertsOf.1 ha
    obtain ⟨book, hbook⟩ := halerts pre e post hevents
    change alert ∈ ((LivePipeline.run [WashTradeDetector.object] accounts pre).process e).2.alerts at ha
    rw [hbook] at ha
    cases e with
    | order o => nomatch ha
    | execution x =>
      have hne := WashTradeDetector.evaluate_ne_nil_iff.1 (List.ne_nil_of_mem ha)
      refine ⟨x, hevents ▸ List.mem_append_right _ List.mem_cons_self, hne.1, hne.2, ?_⟩
      unfold WashTradeDetector.evaluate at ha
      simp only [hne.1, hne.2, if_false, Bool.not_true, Bool.false_eq_true, List.mem_singleton] at ha
      rw [ha] at hid
      simpa using hid
  · rintro ⟨x, hx, hne, hrelated, hid⟩
    obtain ⟨pre, post, hevents⟩ := List.append_of_mem hx
    obtain ⟨book, hbook⟩ := halerts pre _ post hevents
    have hevaluate : WashTradeDetector.evaluate book (.execution x) accounts ≠ [] := WashTradeDetector.evaluate_ne_nil_iff.2 ⟨hne, hrelated⟩
    obtain ⟨alert, ha⟩ := List.exists_mem_of_ne_nil _ hevaluate
    refine ⟨alert, LivePipeline.mem_alertsOf.2 ⟨pre, _, post, hevents, hbook ▸ ha⟩, ?_⟩
    unfold WashTradeDetector.evaluate at ha
    simp only [hne, hrelated, if_false, Bool.not_true, Bool.false_eq_true, List.mem_singleton] at ha
    rw [ha]
    exact ⟨rfl, not_lt.2 hthreshold, by simpa using hid⟩

end Rule

/-! ## The executions it fires on -/

namespace Simulator

section Session

variable [Double P]

instance (accounts : List Account) (draws : ArrivalDraws P) : Decidable (draws.AllRelated accounts) :=
  decidable_of_iff (((pickRandom draws.account accounts).any fun account => (draws.counterparty :: List.ofFn draws.redraws).all fun draw =>
    (pickRandom draw accounts).all (accountsRelated · account)) = true) (by
      simp [ArrivalDraws.AllRelated, Option.any_eq_true, Option.all_eq_true])

variable {simulation : SimulationOutput P} {x : Execution P}

/-- The rule agrees with the label when it fires on the labelled ones. -/
theorem labelAgrees_iff : LabelAgrees (Harness.accountRegistry simulation) x ↔
    (fires (Harness.accountRegistry simulation) x = true ↔ washLabelled x = true) := by
  have hfires : ∀ book side, WashTradeDetector.evaluate book (.execution (toFixExecution x side)) (Harness.accountRegistry simulation) ≠ [] ↔
      fires (Harness.accountRegistry simulation) x = true := by
    intro book side
    rw [WashTradeDetector.evaluate_ne_nil_iff, fires, Bool.and_eq_true, decide_eq_true_eq]
    rfl
  unfold LabelAgrees washLabelled
  simp only [hfires, decide_eq_true_eq]
  exact ⟨fun h => h (OrderBook.make []) .buy, fun h _ _ => h⟩

variable [LinearOrder P] [DoubleRounding P] {hash : Str → ℕ} {config : SimulatorConfig P} {draws : SimulationDraws P}

/-- The fills whose counterparties were all drawn related to their accounts. -/
def relatedFills (config : SimulatorConfig P) (draws : SimulationDraws P) : ℕ :=
  (filledArrivals config draws).countP (·.AllRelated config.accountRegistry.accounts)

/-- What the rule finds in a session, before sorting. -/
structure Found (accounts : TradeSurveillance.AccountRegistry) (config : SimulatorConfig P) (draws : SimulationDraws P)
    (xs : List (Execution P)) : Prop where
  labelled : xs.countP washLabelled = 2 * config.washTrade.count.toNat
  missed : ∀ x ∈ xs, washLabelled x = true → fires accounts x = true
  others : xs.countP (fun x => fires accounts x && !washLabelled x) = relatedFills config draws

/-- Related lists have as many elements with corresponding properties. -/
theorem countP_of_forall₂ {α β : Type} {R : α → β → Prop} {p : α → Bool} {q : β → Bool} {l : List α} {m : List β}
    (h : List.Forall₂ R l m) (hpq : ∀ a b, R a b → (p a = true ↔ q b = true)) : l.countP p = m.countP q := by
  induction h with
  | nil => rfl
  | cons hab _ ih =>
    rw [List.countP_cons, List.countP_cons, ih]
    simp only [hpq _ _ hab]

/-- Each element of the second list has its related one in the first. -/
theorem exists_of_forall₂ {α β : Type} {R : α → β → Prop} {l : List α} {m : List β} (h : List.Forall₂ R l m) {b : β} (hb : b ∈ m) :
    ∃ a ∈ l, R a b := by
  induction h with
  | nil => nomatch hb
  | cons hab _ ih =>
    rcases List.mem_cons.1 hb with rfl | hb
    · exact ⟨_, List.mem_cons_self, hab⟩
    · obtain ⟨a, ha, hR⟩ := ih hb
      exact ⟨a, List.mem_cons_of_mem _ ha, hR⟩

/-- What the rule finds in the events that a session generates. -/
theorem generateEvents_found (haccounts : simulation.accounts = config.accountRegistry.accounts)
    {r : ScenarioOutput P × IdGenerators} (h : generateEvents hash config draws = some r) :
    Found (Harness.accountRegistry simulation) config draws r.1.executions := by
  have hregistry := accountRegistry_wellFormed config
  have hnodup : (simulation.accounts.map (·.accountId)).Nodup := haccounts ▸ hregistry.nodup
  have hids : ∀ a ∈ simulation.accounts, IsAccountId a.accountId ∧ ∀ id ∈ a.linkedAccountIds, IsAccountId id := by
    rw [haccounts]
    exact fun a ha => ⟨(hregistry.given a ha).isAccountId hregistry.idPrefix, hregistry.linked a ha⟩
  obtain ⟨fills, more, hxs, hfills, hmore⟩ := generateEvents_fills h
  rw [← haccounts] at hfills hmore
  have hinjected : ∀ x ∈ more, (fires (Harness.accountRegistry simulation) x = true ↔ washLabelled x = true) :=
    fun x hx => labelAgrees_iff.1 ((hmore x hx).labelAgrees hnodup hids)
  have hfill : ∀ (d : ArrivalDraws P) (x : Execution P), RecordedFill simulation.accounts d x → washLabelled x = false ∧
      (fires (Harness.accountRegistry simulation) x = true ↔ d.AllRelated simulation.accounts) := by
    intro d x hx
    have hlabel : washLabelled x = false := decide_eq_false (by rw [hx.label]; exact nofun)
    have hagree := hx.labelAgrees_iff hnodup fun a ha => (hids a ha).1
    rw [labelAgrees_iff, hlabel, Bool.false_eq_true, iff_false] at hagree
    exact ⟨hlabel, not_iff_not.1 hagree⟩
  refine ⟨(generateEvents_traded h).labelled, ?_, ?_⟩
  · intro x hx hlabel
    rw [hxs] at hx
    rcases List.mem_append.1 hx with hx | hx
    · obtain ⟨d, -, hrecorded⟩ := exists_of_forall₂ hfills hx
      rw [(hfill d x hrecorded).1] at hlabel
      nomatch hlabel
    · exact (hinjected x hx).2 hlabel
  · have hnone : more.countP (fun x => fires (Harness.accountRegistry simulation) x && !washLabelled x) = 0 := by
      rw [List.countP_eq_zero]
      intro x hx
      have hiff := hinjected x hx
      simp only [Bool.and_eq_true, Bool.not_eq_true', not_and, Bool.not_eq_false]
      exact hiff.1
    rw [hxs, List.countP_append, hnone, Nat.add_zero, relatedFills, ← haccounts]
    refine (countP_of_forall₂ hfills fun d x hx => ?_).symm
    obtain ⟨hlabel, hfires⟩ := hfill d x hx
    simp [hlabel, hfires]

/-! ## The matrix -/

omit [Double P] [LinearOrder P] [DoubleRounding P] in
/-- The executions among the events of a session. -/
theorem mem_sortedItems_execution {sides : Map Str TradeSurveillance.Side} {y : TradeSurveillance.Execution P} :
    .execution y ∈ (sortedItems simulation).map (eventOf sides) ↔
      ∃ x ∈ simulation.executions, toFixExecution x ((sides.lookup x.orderId).getD .buy) = y := by
  unfold sortedItems
  simp only [List.mem_map, StableSort.mem_sortBy, List.mem_append]
  constructor
  · rintro ⟨a, ⟨o, -, rfl⟩ | ⟨x, hx, rfl⟩, heq⟩
    · cases heq
    · exact ⟨x, hx, Event.execution.inj heq⟩
  · rintro ⟨x, hx, rfl⟩
    exact ⟨_, .inr ⟨x, hx, rfl⟩, rfl⟩

omit [Double P] [LinearOrder P] [DoubleRounding P] in
/-- No order of a session has the id of a trade of it. -/
theorem orderId_ne_tradeId {g g' : IdGenerator} {n : ℕ} {out : ScenarioOutput P} (hissued : Issued { idPrefix := ascii "ORD" } g out.items)
    (htraded : Traded { idPrefix := ascii "EXE" } g' n out.executions) {x y : Execution P} (hx : x ∈ out.executions)
    (hy : y ∈ out.executions) : x.orderId ≠ y.tradeId := by
  obtain ⟨m, hopens, -, hsub⟩ := hissued.cycles.caused (.execution x) (List.mem_append_right _ (List.mem_map_of_mem hx)) x.orderId rfl
  have hmem : x.orderId ∈ out.items.filterMap Item.opens := List.mem_filterMap.2 ⟨m, hsub.subset List.mem_cons_self, hopens⟩
  obtain ⟨⟨i, -, horder⟩, -⟩ := hissued.given _ hmem
  obtain ⟨⟨j, -, htrade⟩, -⟩ := htraded.taken.given y.tradeId (List.mem_map_of_mem hy)
  rw [horder, htrade, hissued.after.idPrefix, htraded.taken.after.idPrefix]
  intro heq
  have hhead := congrArg List.head? heq
  exact absurd hhead (by simp [IdGenerator.format, ascii])

/-- The confusion matrix of the rule, from the configuration and the draws. -/
structure WashTradesMeasured (config : SimulatorConfig P) (draws : SimulationDraws P) (simulation : SimulationOutput P)
    (matrix : ConfusionMatrix) : Prop where
  tp : matrix.tp = 2 * config.washTrade.count.toNat
  fn : matrix.fn = 0
  fp : matrix.fp = relatedFills config draws
  total : matrix.tp + matrix.fp + matrix.fn + matrix.tn = simulation.executions.length

/-- The accounts of a simulation are those of the registry. -/
theorem accounts_of_generateSimulation (h : generateSimulation hash config draws = some simulation) :
    simulation.accounts = config.accountRegistry.accounts := by
  obtain ⟨r, -, rfl⟩ := Option.map_eq_some_iff.1 h
  rfl

omit [DoubleRounding P] in
/-- The matrix of a detector of a replay is that of the detector alone. -/
theorem matrix_alone {order : HashOrder} {d : IDetector P} (hd : d ∈ makeFiveDetectors order simulation)
    (accounts : TradeSurveillance.AccountRegistry) (events : List (Event P)) (threshold : P) (universeIds positiveIds : Finset Str) :
    computeConfusionMatrix ((LivePipeline.make (makeFiveDetectors order simulation) accounts).alertsOf events) d.name threshold universeIds
        positiveIds =
      computeConfusionMatrix ((LivePipeline.make [d] accounts).alertsOf events) d.name threshold universeIds positiveIds := by
  obtain ⟨before, after, hsplit, hname, -⟩ := makeFiveDetectors_split hd
  have hprovided := makeFiveDetectors_provided order simulation
  rw [hsplit] at hprovided ⊢
  rw [← computeConfusionMatrix_filter, LivePipeline.filter_alertsOf_alone hprovided hname]

omit [DoubleRounding P] in
/-- What the rule alone predicts. -/
theorem predicted_washTrade (accounts : TradeSurveillance.AccountRegistry) {sides : Map Str TradeSurveillance.Side}
    (horderly : Orderly ((sortedItems simulation).map (eventOf sides)))
    (hids : ∀ x ∈ simulation.executions, ∀ y ∈ simulation.executions, x.orderId ≠ y.tradeId) {threshold : P}
    (hthreshold : threshold ≤ 1.0) :
    ((LivePipeline.make [WashTradeDetector.object] accounts).alertsOf ((sortedItems simulation).map (eventOf sides))).foldl
        (addPredicted (ascii "WashTradeDetector") threshold (tradeIds (fun _ => true) simulation.executions)) ∅ =
      tradeIds (fires accounts) simulation.executions := by
  ext id
  rw [mem_predicted, names_washTrade horderly hthreshold, mem_tradeIds, mem_tradeIds]
  simp only [Finset.notMem_empty, false_or, true_and]
  constructor
  · rintro ⟨⟨y, hy, hyid⟩, z, hz, hne, hrelated, hid⟩
    obtain ⟨x, hx, rfl⟩ := mem_sortedItems_execution.1 hz
    have hfires : fires accounts x = true := by
      rw [fires, Bool.and_eq_true, decide_eq_true_eq]
      exact ⟨hne, hrelated⟩
    rcases hid with hid | hid
    · exact absurd (hid.symm.trans hyid.symm) (hids x hx y hy)
    · exact ⟨x, hx, hfires, hid.symm⟩
  · rintro ⟨x, hx, hfires, rfl⟩
    rw [fires, Bool.and_eq_true, decide_eq_true_eq] at hfires
    exact ⟨⟨x, hx, rfl⟩, _, mem_sortedItems_execution.2 ⟨x, hx, rfl⟩, hfires.1, hfires.2, .inr rfl⟩

omit [DoubleRounding P] in
/-- The counts of the rule among the detectors of a replay, over executions with trade ids of their own. -/
theorem counts_washTrade (order : HashOrder) (accounts : TradeSurveillance.AccountRegistry) {sides : Map Str TradeSurveillance.Side}
    (horderly : Orderly ((sortedItems simulation).map (eventOf sides)))
    (hids : ∀ x ∈ simulation.executions, ∀ y ∈ simulation.executions, x.orderId ≠ y.tradeId)
    (hnodup : (simulation.executions.map (·.tradeId)).Nodup) {threshold : P} (hthreshold : threshold ≤ 1.0) :
    let m := computeConfusionMatrix ((LivePipeline.make (makeFiveDetectors order simulation) accounts).alertsOf
      ((sortedItems simulation).map (eventOf sides))) (ascii "WashTradeDetector") threshold
      (selectUniverse (buildUniverses simulation) .execution).eventIds
      (positiveIdsFor (selectUniverse (buildUniverses simulation) .execution) .washTrade)
    m.tp = simulation.executions.countP (fun x => fires accounts x && washLabelled x) ∧
      m.fp = simulation.executions.countP (fun x => fires accounts x && !washLabelled x) ∧
      m.tp + m.fn = simulation.executions.countP washLabelled ∧ m.tp + m.fp + m.fn + m.tn = simulation.executions.length := by
  obtain ⟨huniverse, hpositive⟩ := buildUniverses_executions simulation
  have hU : (selectUniverse (buildUniverses simulation) .execution).eventIds = tradeIds (fun _ => true) simulation.executions := huniverse
  have hpos : positiveIdsFor (selectUniverse (buildUniverses simulation) .execution) .washTrade =
    tradeIds washLabelled simulation.executions := hpositive .washTrade
  have hsub : tradeIds washLabelled simulation.executions ⊆ tradeIds (fun _ => true) simulation.executions := by
    intro id hid
    obtain ⟨x, hx, -, hid⟩ := mem_tradeIds.1 hid
    exact mem_tradeIds.2 ⟨x, hx, rfl, hid⟩
  have hwashTrade : WashTradeDetector.object ∈ makeFiveDetectors order simulation := List.mem_cons_self
  have hmatrix := matrix_alone hwashTrade accounts ((sortedItems simulation).map (eventOf sides)) threshold
    (tradeIds (fun _ => true) simulation.executions) (tradeIds washLabelled simulation.executions)
  change computeConfusionMatrix _ (ascii "WashTradeDetector") _ _ _ = computeConfusionMatrix _ (ascii "WashTradeDetector") _ _ _ at hmatrix
  have hpredicted := predicted_washTrade accounts horderly hids hthreshold
  simp only
  rw [hU, hpos, hmatrix]
  obtain ⟨htotal, hpositives⟩ := @counts_partition P _ _ ((LivePipeline.make [WashTradeDetector.object] accounts).alertsOf
    ((sortedItems simulation).map (eventOf sides))) (ascii "WashTradeDetector") threshold _ _ hsub
  refine ⟨?_, ?_, hpositives.trans (card_tradeIds hnodup), ?_⟩
  · unfold computeConfusionMatrix
    simp only
    rw [hpredicted, tradeIds_filter hnodup, card_tradeIds hnodup]
  · unfold computeConfusionMatrix
    simp only
    rw [hpredicted, tradeIds_filter_not hnodup, card_tradeIds hnodup]
  · rw [htotal, card_tradeIds hnodup, List.countP_true]

variable [RoundedDouble P]

/-- Whatever is drawn, at every threshold up to one the rule finds the two executions of each wash-trade scenario, and besides them the
fills of the baseline whose six counterparties were all drawn related: nothing is missed, and nothing else is found. -/
theorem wash_trades_measured (hseverities : config.SeveritiesInRange) (h : generateSimulation hash config draws = some simulation)
    (order : HashOrder) {threshold : P} (hthreshold : threshold ≤ 1.0) : ∃ events, toIngestionEvents simulation = .ok events ∧
    WashTradesMeasured config draws simulation (computeConfusionMatrix
      ((LivePipeline.make (makeFiveDetectors order simulation) (Harness.accountRegistry simulation)).alertsOf events)
      (ascii "WashTradeDetector") threshold (selectUniverse (buildUniverses simulation) .execution).eventIds
      (positiveIdsFor (selectUniverse (buildUniverses simulation) .execution) .washTrade)) := by
  obtain ⟨r, hevents, hsorted⟩ := sortedFrom_of_generateSimulation h
  have hwash := hseverities config.washTrade.severity List.mem_cons_self
  have hspoofing := hseverities config.spoofingLayering.severity (List.mem_cons_of_mem _ List.mem_cons_self)
  have hissued := generateEvents_issued (between_severity hwash.1 hwash.2) (between_severity hspoofing.1 hspoofing.2) hevents
  have hcycles := hsorted.sortedItems_cycles hissued.cycles
  have horderly : Orderly ((sortedItems simulation).map (eventOf (sideByOrderId simulation.orders))) := orderly_map_eventOf hcycles
  refine ⟨_, toIngestionEvents_eq hcycles, ?_⟩
  have hperm : simulation.executions.Perm r.1.executions := hsorted.executions ▸ StableSort.sortBy_perm _ _
  have htraded := generateEvents_traded hevents
  have hnodup : (simulation.executions.map (·.tradeId)).Nodup := (hperm.map _).nodup_iff.2 htraded.taken.nodup
  have hids : ∀ x ∈ simulation.executions, ∀ y ∈ simulation.executions, x.orderId ≠ y.tradeId :=
    fun x hx y hy => orderId_ne_tradeId hissued htraded (hperm.mem_iff.1 hx) (hperm.mem_iff.1 hy)
  obtain ⟨htp, hfp, hpositives, htotal⟩ := counts_washTrade order (Harness.accountRegistry simulation) horderly hids hnodup hthreshold
  have hfound := generateEvents_found (accounts_of_generateSimulation h) hevents
  -- what is labelled fires
  have hboth : simulation.executions.countP (fun x => fires (Harness.accountRegistry simulation) x && washLabelled x) =
      simulation.executions.countP washLabelled := by
    refine List.countP_congr fun x hx => ?_
    rw [Bool.and_eq_true, and_iff_right_iff_imp]
    exact hfound.missed x (hperm.mem_iff.1 hx)
  rw [hboth, hperm.countP_eq, hfound.labelled] at htp
  rw [htp, hperm.countP_eq, hfound.labelled] at hpositives
  rw [hperm.countP_eq, hfound.others] at hfp
  exact ⟨htp, Nat.add_eq_left.1 hpositives, hfp, htotal⟩

end Session

/-- A session with one scenario of each kind. -/
theorem wash_trades_measured_each : ∃ simulation events, toIngestionEvents simulation = .ok events ∧
    WashTradesMeasured oneOfEach eachOutcome simulation (computeConfusionMatrix
      ((LivePipeline.make (makeFiveDetectors ⟨id, fun _ => .refl _⟩ simulation) (Harness.accountRegistry simulation)).alertsOf events)
      (ascii "WashTradeDetector") 0.5 (selectUniverse (buildUniverses simulation) .execution).eventIds
      (positiveIdsFor (selectUniverse (buildUniverses simulation) .execution) .washTrade)) := by
  have hsome : (generateSimulation (fun _ => 0) oneOfEach eachOutcome).isSome = true := by decide +kernel
  obtain ⟨simulation, hsimulation⟩ := Option.isSome_iff_exists.1 hsome
  have hseverities : oneOfEach.SeveritiesInRange := by
    unfold SimulatorConfig.SeveritiesInRange oneOfEach
    decide +kernel
  obtain ⟨events, hevents, hmeasured⟩ := wash_trades_measured hseverities hsimulation ⟨id, fun _ => .refl _⟩
    (show (0.5 : ℚ) ≤ 1.0 by norm_num)
  exact ⟨simulation, events, hevents, hmeasured⟩

end Simulator

end TradeSurveillance
