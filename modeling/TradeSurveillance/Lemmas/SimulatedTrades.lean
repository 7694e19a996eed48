import TradeSurveillance.Lemmas.SimulatedOrders
import TradeSurveillance.Theorems.WashTradeLabels

/-!
# The executions of a simulation

Every execution of a session takes a trade id of its own from one generator (`Traded`). A wash-trade scenario makes two executions with
its label and every other part of the session none; the executions of the baseline are the fills of its arrivals, one for one
(`generateEvents_traded`, `generateEvents_fills`).
-/

namespace TradeSurveillance.Simulator

variable {P : Type}

/-! ## Ids taken in turn -/

/-- The ids were taken, each once, between two states of the generator. -/
structure Taken (g g' : IdGenerator) (ids : List Str) : Prop where
  after : g'.After g
  given : ∀ id ∈ ids, g'.Given id ∧ ¬g.Given id
  nodup : ids.Nodup

variable {g g' g'' : IdGenerator}

namespace Taken

/-- No ids are taken without a call. -/
theorem nil (g : IdGenerator) : Taken g g [] where
  after := ⟨rfl, le_rfl⟩
  given := fun _ hid => nomatch hid
  nodup := List.nodup_nil

/-- One call takes one id. -/
theorem next (g : IdGenerator) : Taken g g.next.2 [g.next.1] where
  after := ⟨rfl, Nat.le_succ _⟩
  given := by
    intro id hid
    rw [List.mem_singleton.1 hid]
    exact ⟨IdGenerator.given_next g, IdGenerator.not_given_next g⟩
  nodup := List.nodup_singleton _

/-- Ids taken in a row are all different. -/
theorem append {ids ids' : List Str} (h : Taken g g' ids) (h' : Taken g' g'' ids') : Taken g g'' (ids ++ ids') where
  after := ⟨h'.after.idPrefix.trans h.after.idPrefix, h.after.counter.trans h'.after.counter⟩
  given := by
    intro id hid
    rcases List.mem_append.1 hid with hid | hid
    · exact ⟨h'.after.given (h.given id hid).1, (h.given id hid).2⟩
    · exact ⟨(h'.given id hid).1, fun hg => (h'.given id hid).2 (h.after.given hg)⟩
  nodup := by
    rw [List.nodup_append]
    exact ⟨h.nodup, h'.nodup, fun id hid id' hid' heq => (h'.given id' hid').2 (heq ▸ (h.given id hid).1)⟩

end Taken

/-! ## Trades and labels -/

/-- An execution that is labelled as part of a wash trade. -/
def washLabelled (x : Execution P) : Bool := decide (x.groundTruthLabel.pattern = .washTrade)

/-- The trade ids of the executions were taken between two states of the generator, and so many of them are labelled wash trades. -/
structure Traded (g g' : IdGenerator) (n : ℕ) (xs : List (Execution P)) : Prop where
  taken : Taken g g' (xs.map (·.tradeId))
  labelled : xs.countP washLabelled = n

namespace Traded

/-- No executions take no trade ids. -/
theorem nil (g : IdGenerator) : Traded g g 0 ([] : List (Execution P)) := ⟨.nil g, rfl⟩

/-- An execution that is labelled a wash trade, before others. -/
theorem wash {n : ℕ} {x : Execution P} {xs : List (Execution P)} (hid : x.tradeId = g.next.1) (hlabel : washLabelled x = true)
    (h : Traded g.next.2 g' n xs) : Traded g g' (n + 1) (x :: xs) where
  taken := by
    rw [List.map_cons, hid]
    exact (Taken.next g).append h.taken
  labelled := by rw [List.countP_cons_of_pos hlabel, h.labelled]

/-- An execution with another label, before others. -/
theorem other {n : ℕ} {x : Execution P} {xs : List (Execution P)} (hid : x.tradeId = g.next.1) (hlabel : washLabelled x = false)
    (h : Traded g.next.2 g' n xs) : Traded g g' n (x :: xs) where
  taken := by
    rw [List.map_cons, hid]
    exact (Taken.next g).append h.taken
  labelled := by rw [List.countP_cons_of_neg (by simp [hlabel]), h.labelled]

/-- Executions in a row take their trade ids in a row. -/
theorem append {n n' : ℕ} {xs xs' : List (Execution P)} (h : Traded g g' n xs) (h' : Traded g' g'' n' xs') :
    Traded g g'' (n + n') (xs ++ xs') where
  taken := by
    rw [List.map_append]
    exact h.taken.append h'.taken
  labelled := by rw [List.countP_append, h.labelled, h'.labelled]

end Traded

section Generators

variable [Double P] {ids ids' : IdGenerators} {out : ScenarioOutput P}

section Scenarios

variable [LinearOrder P] [DoubleRounding P] {scenarioId venue : Str} {instrument : Instrument P} {basePrice severity : P}
  {anchorTimeNs : ℤ}

/-- A wash-trade scenario takes two trade ids, for two labelled wash trades. -/
theorem generateWashTradeScenario_traded {draws : WashTradeDraws P} {a b : Account}
    (h : generateWashTradeScenario draws ids scenarioId instrument a b basePrice anchorTimeNs severity venue = (out, ids')) :
    Traded ids.trade ids'.trade 2 out.executions := by
  obtain ⟨rfl, rfl⟩ := Prod.mk.inj h
  exact .wash rfl rfl (.wash rfl rfl (.nil _))

/-- A spoofing scenario labels no wash trade. -/
theorem generateSpoofingLayeringScenario_traded {draws : SpoofingLayeringDraws P} {a : Account}
    (h : generateSpoofingLayeringScenario draws ids scenarioId instrument a basePrice anchorTimeNs severity venue = some (out, ids')) :
    Traded ids.trade ids'.trade 0 out.executions := by
  have hlayers : ∀ (layer : ℕ → Str → Order P) (n i : ℕ) (ids : IdGenerators), (placeLayers layer n i ids).2.trade = ids.trade := by
    intro layer n
    induction n with
    | zero => exact fun _ _ => rfl
    | succ n ih => exact fun i ids => ih _ _
  unfold generateSpoofingLayeringScenario at h
  simp only [Option.bind_eq_bind, Option.bind_eq_some_iff, Option.some.injEq, Prod.mk.injEq] at h
  obtain ⟨lastLayer, -, rfl, rfl⟩ := h
  simp only [IdGenerators.nextOrder, IdGenerators.nextTrade, hlayers]
  exact .other rfl rfl (.nil _)

omit [LinearOrder P] in
/-- Nor do the trades of a push to the close. -/
theorem trades_traded {push : ClosePush P} (hlabel : push.label.pattern = .markingTheClose) {draws : MarkingTheCloseDraws P} {n i : ℕ}
    (h : push.trades draws n i ids = some (out, ids')) : Traded ids.trade ids'.trade 0 out.executions := by
  induction n generalizing i ids out with
  | zero =>
    simp only [ClosePush.trades, Option.some.injEq, Prod.mk.injEq] at h
    obtain ⟨rfl, rfl⟩ := h
    exact .nil _
  | succ n ih =>
    unfold ClosePush.trades at h
    simp only [Option.bind_eq_bind, Option.bind_eq_some_iff, Option.some.injEq, Prod.exists, Prod.mk.injEq] at h
    obtain ⟨account, -, rest, ids'', hrest, rfl, rfl⟩ := h
    refine .other rfl (decide_eq_false ?_) (ih hrest)
    show ¬push.label.pattern = .washTrade
    simp [hlabel]

/-- Nor does a marking-the-close scenario. -/
theorem generateMarkingTheCloseScenario_traded {draws : MarkingTheCloseDraws P} {pool : List Account} {ordersPerSecond : P}
    {instrumentCount : ℤ} (h : generateMarkingTheCloseScenario draws ids scenarioId instrument pool basePrice severity ordersPerSecond
      instrumentCount venue = some (out, ids')) : Traded ids.trade ids'.trade 0 out.executions := by
  unfold generateMarkingTheCloseScenario at h
  split_ifs at h
  · simp only [Option.some.injEq, Prod.mk.injEq] at h
    obtain ⟨rfl, rfl⟩ := h
    exact .nil _
  · exact trades_traded rfl h

/-- Nor does a front-running scenario. -/
theorem generateFrontRunningScenario_traded {draws : FrontRunningDraws P} {a b : Account}
    (h : generateFrontRunningScenario draws ids scenarioId instrument a b basePrice anchorTimeNs severity venue = (out, ids')) :
    Traded ids.trade ids'.trade 0 out.executions := by
  unfold generateFrontRunningScenario at h
  by_cases hs : severity ≥ 0.5
  · simp only [if_pos hs, Prod.mk.injEq] at h
    obtain ⟨rfl, rfl⟩ := h
    exact .other rfl rfl (.other rfl rfl (.other rfl rfl (.nil _)))
  · simp only [if_neg hs, Prod.mk.injEq] at h
    obtain ⟨rfl, rfl⟩ := h
    exact .other rfl rfl (.other rfl rfl (.nil _))

end Scenarios

/-! ## Loops over scenarios -/

omit [Double P] in
/-- A loop over scenarios that label the same number of executions each. -/
theorem injectScenarios_traded {inject : Injection P} {n : ℕ}
    (hinject : ∀ {i scenarioId ids out ids'}, inject i scenarioId ids = some (out, ids') → Traded ids.trade ids'.trade n out.executions)
    {turns i k : ℕ} {scenarioGen : IdGenerator} {r r' : ScenarioOutput P × IdGenerators} (hr : Traded g r.2.trade k r.1.executions)
    (h : injectScenarios inject turns i scenarioGen r = some r') : Traded g r'.2.trade (k + turns * n) r'.1.executions := by
  induction turns generalizing i k scenarioGen r with
  | zero =>
    rw [injectScenarios, Option.some.injEq] at h
    subst h
    simpa using hr
  | succ turns ih =>
    obtain ⟨out, ids⟩ := r
    unfold injectScenarios at h
    simp only [Option.bind_eq_bind, Option.bind_eq_some_iff, Prod.exists] at h
    obtain ⟨scenario, ids', hscenario, h⟩ := h
    have hnext := ih (hr.append (hinject hscenario)) h
    rwa [show k + n + turns * n = k + (turns + 1) * n by ring] at hnext

omit [Double P] in
/-- What a loop over scenarios appends to the executions. -/
theorem injectScenarios_append {inject : Injection P} {Q : Execution P → Prop}
    (hinject : ∀ {i scenarioId ids out ids'}, inject i scenarioId ids = some (out, ids') → ∀ x ∈ out.executions, Q x) {turns i : ℕ}
    {scenarioGen : IdGenerator} {r r' : ScenarioOutput P × IdGenerators} (h : injectScenarios inject turns i scenarioGen r = some r') :
    ∃ more, r'.1.executions = r.1.executions ++ more ∧ ∀ x ∈ more, Q x := by
  refine injectScenarios_induct (motive := fun s => ∃ more, s.1.executions = r.1.executions ++ more ∧ ∀ x ∈ more, Q x) ?_ h
    ⟨[], (List.append_nil _).symm, fun x hx => nomatch hx⟩
  rintro i scenarioId out ids scenario ids' hscenario ⟨more, hmore, hQ⟩
  refine ⟨more ++ scenario.executions, by rw [← List.append_assoc, ← hmore], fun x hx => ?_⟩
  rcases List.mem_append.1 hx with hx | hx
  · exact hQ x hx
  · exact hinject hscenario x hx

/-! ## The baseline -/

section Baseline

variable [LinearOrder P] {accounts : List Account}

/-- Nor does an arrival. -/
theorem baselineOutcome_traded {account : Account} {order : Order P} {draws : ArrivalDraws P}
    (h : baselineOutcome accounts account order draws ids = some (out, ids')) : Traded ids.trade ids'.trade 0 out.executions := by
  unfold baselineOutcome at h
  simp only at h
  split_ifs at h
  · simp only [Option.bind_eq_bind, Option.bind_eq_some_iff, Option.some.injEq, Prod.mk.injEq] at h
    obtain ⟨counterparty, -, rfl, rfl⟩ := h
    exact .other rfl rfl (.nil _)
  · simp only [Option.bind_eq_bind, Option.bind_eq_some_iff, Option.some.injEq, Prod.mk.injEq] at h
    obtain ⟨counterparty, -, rfl, rfl⟩ := h
    exact .other rfl rfl (.nil _)
  · simp only [Option.some.injEq, Prod.mk.injEq] at h
    obtain ⟨rfl, rfl⟩ := h
    exact .nil _
  · simp only [Option.some.injEq, Prod.mk.injEq] at h
    obtain ⟨rfl, rfl⟩ := h
    exact .nil _

variable [DoubleRounding P] {instruments : List (Instrument P)} {endTimeNs : ℤ} {s s' : BaselineState P}

/-- Nor does the loop over the arrivals. -/
theorem baselineLoop_traded {draws : List (ArrivalDraws P)} (hs : Traded g s.ids.trade 0 s.output.executions)
    (h : baselineLoop instruments accounts endTimeNs s draws = some s') : Traded g s'.ids.trade 0 s'.output.executions := by
  induction draws generalizing s with
  | nil => nomatch h
  | cons d draws ih =>
    rw [baselineLoop] at h
    split_ifs at h
    · rw [Option.some.injEq] at h
      exact h ▸ hs
    · obtain ⟨next, hnext, h⟩ := Option.bind_eq_some_iff.1 h
      unfold arrive at hnext
      simp only [Option.bind_eq_bind, Option.bind_eq_some_iff, Option.some.injEq, Prod.exists] at hnext
      obtain ⟨instrument, -, account, -, out, ids, hout, rfl⟩ := hnext
      have hout := baselineOutcome_traded hout
      exact ih (hs.append hout) h

instance (draws : ArrivalDraws P) : Decidable draws.Fills := inferInstanceAs (Decidable (_ ∨ _))

/-- The executions the loop appends are the fills of the arrivals before the end, one for one. -/
theorem baselineLoop_fills {draws : List (ArrivalDraws P)} (h : baselineLoop instruments accounts endTimeNs s draws = some s') :
    ∃ fills, s'.output.executions = s.output.executions ++ fills ∧
      List.Forall₂ (RecordedFill accounts) ((arrivals endTimeNs s.t draws).filter (·.Fills)) fills := by
  induction draws generalizing s with
  | nil => nomatch h
  | cons d draws ih =>
    rw [baselineLoop] at h
    rw [arrivals]
    split_ifs at h ⊢ with hend
    · rw [Option.some.injEq] at h
      subst h
      exact ⟨[], (List.append_nil _).symm, .nil⟩
    · obtain ⟨next, hnext, h⟩ := Option.bind_eq_some_iff.1 h
      obtain ⟨ht, hstep⟩ := arrive_executions hnext
      obtain ⟨fills, hfills, hrecorded⟩ := ih h
      rw [ht] at hrecorded
      rcases hstep with ⟨hnot, hkept⟩ | ⟨x, hx, hrec⟩
      · refine ⟨fills, by rw [hfills, hkept], ?_⟩
        rwa [List.filter_cons_of_neg (by simpa using hnot)]
      · refine ⟨x :: fills, by rw [hfills, hx, List.append_assoc, List.singleton_append], ?_⟩
        rw [List.filter_cons_of_pos (by simpa using hrec.fills)]
        exact .cons hrec hrecorded

end Baseline

/-! ## The session -/

section Session

variable [LinearOrder P] [DoubleRounding P] {hash : Str → ℕ} {config : SimulatorConfig P} {draws : SimulationDraws P}
  {r : ScenarioOutput P × IdGenerators}

/-- Every execution of a session has a trade id of its own, and two for each wash-trade scenario are labelled as that. -/
theorem generateEvents_traded (h : generateEvents hash config draws = some r) :
    Traded { idPrefix := ascii "EXE" } r.2.trade (2 * config.washTrade.count.toNat) r.1.executions := by
  unfold generateEvents at h
  simp only [Option.bind_eq_bind, Option.bind_eq_some_iff] at h
  obtain ⟨b, hb, r₁, h₁, r₂, h₂, r₃, h₃, h₄⟩ := h
  have hbaseline : Traded { idPrefix := ascii "EXE" } b.2.trade 0 b.1.executions := by
    unfold generateBaselineFlow at hb
    split_ifs at hb
    · obtain rfl := Option.some.inj hb
      exact .nil _
    · obtain ⟨s, hs, rfl⟩ := Option.map_eq_some_iff.1 hb
      exact baselineLoop_traded (.nil _) hs
  have hr₁ := injectScenarios_traded (n := 2) (fun hscenario => by
    unfold injectWashTrade at hscenario
    simp only [Option.bind_eq_bind, Option.bind_eq_some_iff, Option.some.injEq, Prod.exists] at hscenario
    obtain ⟨instrument, -, first, second, -, hscenario⟩ := hscenario
    exact generateWashTradeScenario_traded hscenario) hbaseline h₁
  have hr₂ := injectScenarios_traded (n := 0) (fun hscenario => by
    unfold injectSpoofingLayering at hscenario
    simp only [Option.bind_eq_bind, Option.bind_eq_some_iff] at hscenario
    obtain ⟨instrument, -, account, -, hscenario⟩ := hscenario
    exact generateSpoofingLayeringScenario_traded hscenario) hr₁ h₂
  have hr₃ := injectScenarios_traded (n := 0) (fun hscenario => by
    unfold injectMarkingTheClose at hscenario
    simp only [Option.bind_eq_bind, Option.bind_eq_some_iff, Prod.exists] at hscenario
    obtain ⟨instrument, -, first, second, -, hscenario⟩ := hscenario
    exact generateMarkingTheCloseScenario_traded hscenario) hr₂ h₃
  have hr₄ := injectScenarios_traded (n := 0) (fun hscenario => by
    unfold injectFrontRunning at hscenario
    simp only [Option.bind_eq_bind, Option.bind_eq_some_iff, Option.some.injEq, Prod.exists] at hscenario
    obtain ⟨instrument, -, first, second, -, hscenario⟩ := hscenario
    exact generateFrontRunningScenario_traded hscenario) hr₃ h₄
  simpa [mul_comm] using hr₄

/-- The arrivals of a session that are filled: none where there is no instrument to trade or nobody to trade it. -/
def filledArrivals (config : SimulatorConfig P) (draws : SimulationDraws P) : List (ArrivalDraws P) :=
  if config.instruments = [] ∨ config.accountRegistry.accounts = [] then []
  else (arrivals config.sessionEndNs config.sessionStartNs draws.baseline).filter (·.Fills)

/-- The executions of a session: the fills of its arrivals, then those of its scenarios. -/
theorem generateEvents_fills (h : generateEvents hash config draws = some r) : ∃ fills more, r.1.executions = fills ++ more ∧
    List.Forall₂ (RecordedFill config.accountRegistry.accounts) (filledArrivals config draws) fills ∧
    ∀ x ∈ more, Injected config.accountRegistry.accounts x := by
  unfold generateEvents at h
  simp only [Option.bind_eq_bind, Option.bind_eq_some_iff] at h
  obtain ⟨b, hb, r₁, h₁, r₂, h₂, r₃, h₃, h₄⟩ := h
  obtain ⟨more₁, hmore₁, hinjected₁⟩ := injectScenarios_append injectWashTrade_injected h₁
  obtain ⟨more₂, hmore₂, hinjected₂⟩ := injectScenarios_append injectSpoofingLayering_injected h₂
  obtain ⟨more₃, hmore₃, hinjected₃⟩ := injectScenarios_append injectMarkingTheClose_injected h₃
  obtain ⟨more₄, hmore₄, hinjected₄⟩ := injectScenarios_append injectFrontRunning_injected h₄
  refine ⟨b.1.executions, more₁ ++ more₂ ++ more₃ ++ more₄, ?_, ?_, ?_⟩
  · rw [hmore₄, hmore₃, hmore₂, hmore₁]
    simp only [List.append_assoc]
  · unfold generateBaselineFlow at hb
    unfold filledArrivals
    split_ifs at hb ⊢
    · obtain rfl := Option.some.inj hb
      exact .nil
    · obtain ⟨s, hs, rfl⟩ := Option.map_eq_some_iff.1 hb
      obtain ⟨fills, hfills, hrecorded⟩ := baselineLoop_fills hs
      rw [List.nil_append] at hfills
      rwa [hfills]
  · simp only [List.mem_append]
    rintro x (((hx | hx) | hx) | hx)
    · exact hinjected₁ x hx
    · exact hinjected₂ x hx
    · exact hinjected₃ x hx
    · exact hinjected₄ x hx

end Session

end Generators

end TradeSurveillance.Simulator
