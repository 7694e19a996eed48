import TradeSurveillance.Lemmas.SimulatedAccounts

/-!
# Wash-trade labels and the wash-trade rule

The detector fires on an execution of a simulation exactly where the label is a wash trade, but for baseline fills: their counterparty
is drawn again five times at most, and if all six drawn are related to the account, the last of them is taken. `wash_trade_labels_iff`
says that this is the one way for rule and labels to differ.
-/

namespace TradeSurveillance

open Harness Simulator

variable {P : Type} [Double P]

/-- When the detector fires. -/
theorem WashTradeDetector.evaluate_ne_nil_iff {book : OrderBook P} {x : Execution P} {accounts : AccountRegistry} :
    evaluate book (.execution x) accounts ≠ [] ↔
      x.counterpartyAccountId ≠ [] ∧ accounts.isRelated x.accountId x.counterpartyAccountId = true := by
  unfold evaluate
  simp only
  split_ifs with hempty hrelated
  · simp [hempty]
  · simpa [hempty] using hrelated
  · simpa [hempty] using hrelated

namespace Simulator

/-- The rule fires on an execution exactly if its label is a wash trade, whatever the book and the side. -/
def LabelAgrees (accounts : TradeSurveillance.AccountRegistry) (x : Execution P) : Prop :=
  ∀ book side, WashTradeDetector.evaluate book (.execution (toFixExecution x side)) accounts ≠ [] ↔
    x.groundTruthLabel.pattern = .washTrade

/-- The wash-trade rule and the labels of a simulation agree. -/
def LabelsAgree (simulation : SimulationOutput P) : Prop :=
  ∀ x ∈ simulation.executions, LabelAgrees (Harness.accountRegistry simulation) x

/-! ## Draws -/

/-- The order of the arrival is filled, wholly or in part. -/
def ArrivalDraws.Fills [LinearOrder P] (draws : ArrivalDraws P) : Prop :=
  uniformDouble draws.outcome 0.0 1.0 < 0.60 ∨ uniformDouble draws.outcome 0.0 1.0 < 0.75

omit [Double P] in
/-- Each of the six counterparties drawn for the arrival is related to its account. -/
def ArrivalDraws.AllRelated (accounts : List Account) (draws : ArrivalDraws P) : Prop :=
  ∃ account, pickRandom draws.account accounts = some account ∧
    ∀ draw ∈ draws.counterparty :: List.ofFn draws.redraws, ∀ counterparty, pickRandom draw accounts = some counterparty →
      accountsRelated counterparty account = true

/-- The arrivals before the end of a session. -/
def arrivals [LinearOrder P] [DoubleRounding P] (endTimeNs : ℤ) : ℤ → List (ArrivalDraws P) → List (ArrivalDraws P)
  | _, [] => []
  | t, draws :: rest =>
    let t := t + poissonInterarrivalNs draws.gapSec
    if t ≥ endTimeNs then [] else draws :: arrivals endTimeNs t rest

/-- An arrival in time is one of those drawn. -/
theorem mem_of_mem_arrivals [LinearOrder P] [DoubleRounding P] {endTimeNs t : ℤ} {draws : List (ArrivalDraws P)}
    {d : ArrivalDraws P} (h : d ∈ arrivals endTimeNs t draws) : d ∈ draws := by
  induction draws generalizing t with
  | nil => nomatch h
  | cons d' draws ih =>
    rw [arrivals] at h
    split_ifs at h
    · nomatch h
    · rcases List.mem_cons.1 h with rfl | h
      · exact List.mem_cons_self
      · exact List.mem_cons_of_mem _ (ih h)

/-- No arrival that is filled draws six related counterparties. -/
def CounterpartyFound [LinearOrder P] [DoubleRounding P] (config : SimulatorConfig P) (draws : SimulationDraws P) : Prop :=
  config.instruments ≠ [] → ∀ d ∈ arrivals config.sessionEndNs config.sessionStartNs draws.baseline, d.Fills →
    ¬d.AllRelated config.accountRegistry.accounts

/-! ## Baseline fills -/

omit [Double P] in
/-- The last counterparty drawn is related to the account when all were. -/
theorem redraw_related {accounts : List Account} {account first last : Account} {draws : List ℕ}
    (h : redraw accounts account draws first = some last) : accountsRelated last account = true ↔
      accountsRelated first account = true ∧ ∀ draw ∈ draws, ∀ c, pickRandom draw accounts = some c → accountsRelated c account = true := by
  induction draws generalizing first with
  | nil =>
    rw [redraw, Option.some.injEq] at h
    subst h
    exact ⟨fun hr => ⟨hr, fun draw hd => nomatch hd⟩, And.left⟩
  | cons draw draws ih =>
    rw [redraw] at h
    split_ifs at h with hfirst
    · obtain ⟨next, hnext, h⟩ := Option.bind_eq_some_iff.1 h
      rw [ih h, List.forall_mem_cons]
      constructor
      · rintro ⟨hr, hrest⟩
        refine ⟨hfirst, fun c hc => ?_, hrest⟩
        rwa [← Option.some.inj (hnext.symm.trans hc)]
      · rintro ⟨-, hdraw, hrest⟩
        exact ⟨hdraw next hnext, hrest⟩
    · rw [Option.some.injEq] at h
      subst h
      exact ⟨fun hr => absurd hr hfirst, And.left⟩

omit [Double P] in
/-- The counterparty of an arrival is related to its account when all six drawn are. -/
theorem drawCounterparty_related {accounts : List Account} {account counterparty : Account} {draws : ArrivalDraws P}
    (ha : pickRandom draws.account accounts = some account) (h : drawCounterparty accounts account draws = some counterparty) :
    accountsRelated counterparty account = true ↔ draws.AllRelated accounts := by
  unfold drawCounterparty at h
  obtain ⟨first, hfirst, h⟩ := Option.bind_eq_some_iff.1 h
  rw [redraw_related h]
  unfold ArrivalDraws.AllRelated
  simp only [ha, Option.some.injEq, exists_eq_left', List.forall_mem_cons, hfirst, forall_eq']

omit [Double P] in
/-- The counterparty drawn last is one of the accounts. -/
theorem mem_of_redraw {accounts : List Account} {account first last : Account} {draws : List ℕ}
    (h : redraw accounts account draws first = some last) (hfirst : first ∈ accounts) : last ∈ accounts := by
  induction draws generalizing first with
  | nil =>
    rw [redraw, Option.some.injEq] at h
    exact h ▸ hfirst
  | cons draw draws ih =>
    rw [redraw] at h
    split_ifs at h
    · obtain ⟨next, hnext, h⟩ := Option.bind_eq_some_iff.1 h
      exact ih h (mem_of_pickRandom hnext)
    · rw [Option.some.injEq] at h
      exact h ▸ hfirst

section Baseline

variable [LinearOrder P] {accounts : List Account}

/-- The execution is the fill of an arrival. -/
structure RecordedFill (accounts : List Account) (draws : ArrivalDraws P) (x : Execution P) : Prop where
  fills : draws.Fills
  label : x.groundTruthLabel.pattern = .baseline
  parties : ∃ account ∈ accounts, ∃ counterparty ∈ accounts, x.accountId = account.accountId ∧
    x.counterpartyAccountId = counterparty.accountId ∧ (accountsRelated counterparty account = true ↔ draws.AllRelated accounts)

/-- A filled arrival is recorded as an execution of its account and its counterparty. -/
theorem baselineExecution_recorded {account : Account} {draws : ArrivalDraws P} {order : Order P} {counterparty : Account}
    (hfills : draws.Fills) (ha : pickRandom draws.account accounts = some account) (horder : order.accountId = account.accountId)
    (hc : drawCounterparty accounts account draws = some counterparty) (tradeId : Str) (qty ts : ℤ) :
    RecordedFill accounts draws (baselineExecution tradeId order qty ts counterparty) where
  fills := hfills
  label := rfl
  parties := by
    obtain ⟨first, hfirst, hlast⟩ := Option.bind_eq_some_iff.1 hc
    exact ⟨account, mem_of_pickRandom ha, counterparty, mem_of_redraw hlast (mem_of_pickRandom hfirst), horder, rfl,
      drawCounterparty_related ha hc⟩

/-- An order is filled at most once. -/
theorem baselineOutcome_executions {account : Account} {draws : ArrivalDraws P} {order : Order P} {ids ids' : IdGenerators}
    {out : ScenarioOutput P} (ha : pickRandom draws.account accounts = some account) (horder : order.accountId = account.accountId)
    (h : baselineOutcome accounts account order draws ids = some (out, ids')) :
    (¬draws.Fills ∧ out.executions = []) ∨ ∃ x, out.executions = [x] ∧ RecordedFill accounts draws x := by
  unfold baselineOutcome at h
  simp only at h
  split_ifs at h with h60 h75 h90
  · simp only [Option.bind_eq_bind, Option.bind_eq_some_iff, Option.some.injEq, Prod.mk.injEq] at h
    obtain ⟨counterparty, hc, rfl, -⟩ := h
    exact .inr ⟨_, rfl, baselineExecution_recorded (.inl h60) ha horder hc _ _ _⟩
  · simp only [Option.bind_eq_bind, Option.bind_eq_some_iff, Option.some.injEq, Prod.mk.injEq] at h
    obtain ⟨counterparty, hc, rfl, -⟩ := h
    exact .inr ⟨_, rfl, baselineExecution_recorded (.inr h75) ha horder hc _ _ _⟩
  · simp only [Option.some.injEq, Prod.mk.injEq] at h
    obtain ⟨rfl, -⟩ := h
    exact .inl ⟨not_or.2 ⟨h60, h75⟩, rfl⟩
  · simp only [Option.some.injEq, Prod.mk.injEq] at h
    obtain ⟨rfl, -⟩ := h
    exact .inl ⟨not_or.2 ⟨h60, h75⟩, rfl⟩

variable [DoubleRounding P] {instruments : List (Instrument P)}

/-- An arrival adds the fill of its order, if there is one. -/
theorem arrive_executions {s s' : BaselineState P} {t : ℤ} {draws : ArrivalDraws P} (h : arrive instruments accounts s t draws = some s') :
    s'.t = t ∧ ((¬draws.Fills ∧ s'.output.executions = s.output.executions) ∨
      ∃ x, s'.output.executions = s.output.executions ++ [x] ∧ RecordedFill accounts draws x) := by
  unfold arrive at h
  simp only [Option.bind_eq_bind, Option.bind_eq_some_iff, Option.some.injEq, Prod.exists] at h
  obtain ⟨instrument, -, account, ha, out, ids, hout, rfl⟩ := h
  refine ⟨rfl, ?_⟩
  rcases baselineOutcome_executions ha rfl hout with ⟨hfills, hnil⟩ | ⟨x, hx, hrecorded⟩
  · exact .inl ⟨hfills, by simp only [hnil, List.append_nil]⟩
  · exact .inr ⟨x, by simp only [hx], hrecorded⟩

/-- The executions of the loop are the fills of the arrivals before the end. -/
theorem baselineLoop_executions {endTimeNs : ℤ} {s s' : BaselineState P} {draws : List (ArrivalDraws P)}
    (h : baselineLoop instruments accounts endTimeNs s draws = some s') :
    (∀ x ∈ s'.output.executions, x ∈ s.output.executions ∨ ∃ d ∈ arrivals endTimeNs s.t draws, RecordedFill accounts d x) ∧
    (∀ x ∈ s.output.executions, x ∈ s'.output.executions) ∧
    ∀ d ∈ arrivals endTimeNs s.t draws, d.Fills → ∃ x ∈ s'.output.executions, RecordedFill accounts d x := by
  induction draws generalizing s with
  | nil => nomatch h
  | cons d draws ih =>
    rw [baselineLoop] at h
    rw [arrivals]
    split_ifs at h ⊢ with hend
    · rw [Option.some.injEq] at h
      subst h
      exact ⟨fun x hx => .inl hx, fun x hx => hx, fun d hd => nomatch hd⟩
    · obtain ⟨next, hnext, h⟩ := Option.bind_eq_some_iff.1 h
      obtain ⟨ht, hstep⟩ := arrive_executions hnext
      obtain ⟨hfrom, hkept, hfilled⟩ := ih h
      rw [ht] at hfrom hfilled
      have hmem : ∀ x, x ∈ next.output.executions → x ∈ s.output.executions ∨ RecordedFill accounts d x := by
        intro x hx
        rcases hstep with ⟨-, heq⟩ | ⟨y, heq, hy⟩
        · exact .inl (heq ▸ hx)
        · rw [heq, List.mem_append, List.mem_singleton] at hx
          rcases hx with hx | rfl
          · exact .inl hx
          · exact .inr hy
      refine ⟨fun x hx => ?_, fun x hx => ?_, fun d' hd' hfills => ?_⟩
      · rcases hfrom x hx with hx | ⟨d', hd', hx⟩
        · exact (hmem x hx).imp_right fun hx => ⟨d, List.mem_cons_self, hx⟩
        · exact .inr ⟨d', List.mem_cons_of_mem _ hd', hx⟩
      · rcases hstep with ⟨-, heq⟩ | ⟨y, heq, -⟩
        · exact hkept x (heq ▸ hx)
        · exact hkept x (heq ▸ List.mem_append_left _ hx)
      · rcases List.mem_cons.1 hd' with rfl | hd'
        · rcases hstep with ⟨hnot, -⟩ | ⟨y, heq, hy⟩
          · exact absurd hfills hnot
          · exact ⟨y, hkept y (heq ▸ List.mem_append_right _ List.mem_cons_self), hy⟩
        · exact hfilled d' hd' hfills

end Baseline

/-! ## Scenarios -/

section Scenarios

variable {accounts : List Account}

omit [Double P] in
/-- The parties of an execution of a scenario: two related accounts in a wash trade, else an account and the market. -/
inductive Injected (accounts : List Account) (x : Execution P) : Prop where
  | washTrade (a b : Account) (ha : a ∈ accounts) (hb : b ∈ accounts) (hrelated : accountsRelated a b = true)
    (label : x.groundTruthLabel.pattern = .washTrade) (account : x.accountId = a.accountId)
    (counterparty : x.counterpartyAccountId = b.accountId)
  | market (a : Account) (ha : a ∈ accounts) (label : x.groundTruthLabel.pattern ≠ .washTrade) (account : x.accountId = a.accountId)
    (counterparty : x.counterpartyAccountId = syntheticCounterparty)

variable [LinearOrder P] [DoubleRounding P] {ids ids' : IdGenerators} {scenarioId venue : Str} {instrument : Instrument P}
  {basePrice severity : P} {anchorTimeNs : ℤ}

/-- An execution of a wash-trade scenario is of two related accounts. -/
theorem generateWashTradeScenario_injected {draws : WashTradeDraws P} {a b : Account} (ha : a ∈ accounts) (hb : b ∈ accounts)
    (hrelated : accountsRelated a b = true) {out : ScenarioOutput P} (h : generateWashTradeScenario draws ids scenarioId instrument a b
      basePrice anchorTimeNs severity venue = (out, ids')) : ∀ x ∈ out.executions, Injected accounts x := by
  obtain ⟨rfl, -⟩ := Prod.mk.inj h
  intro x hx
  rcases List.mem_pair.1 hx with rfl | rfl
  · exact .washTrade a b ha hb hrelated rfl rfl rfl
  · exact .washTrade b a hb ha ((accountsRelated_comm b a).trans hrelated) rfl rfl rfl

/-- Those of a spoofing scenario are with the market. -/
theorem generateSpoofingLayeringScenario_injected {draws : SpoofingLayeringDraws P} {a : Account} (ha : a ∈ accounts)
    {out : ScenarioOutput P} (h : generateSpoofingLayeringScenario draws ids scenarioId instrument a basePrice anchorTimeNs severity
      venue = some (out, ids')) : ∀ x ∈ out.executions, Injected accounts x := by
  unfold generateSpoofingLayeringScenario at h
  simp only [Option.bind_eq_bind, Option.bind_eq_some_iff, Option.some.injEq, Prod.mk.injEq] at h
  obtain ⟨lastLayer, -, rfl, -⟩ := h
  intro x hx
  rw [List.mem_singleton.1 hx]
  exact .market a ha nofun rfl rfl

omit [LinearOrder P] in
/-- Those of a push to the close are with the market. -/
theorem trades_injected {push : ClosePush P} (hlabel : push.label.pattern = .markingTheClose)
    (haccounts : ∀ a ∈ push.accounts, a ∈ accounts) {draws : MarkingTheCloseDraws P} {n i : ℕ} {out : ScenarioOutput P}
    (h : push.trades draws n i ids = some (out, ids')) : ∀ x ∈ out.executions, Injected accounts x := by
  induction n generalizing i ids ids' out with
  | zero =>
    simp only [ClosePush.trades, Option.some.injEq, Prod.mk.injEq] at h
    obtain ⟨rfl, -⟩ := h
    exact fun x hx => nomatch hx
  | succ n ih =>
    unfold ClosePush.trades at h
    simp only [Option.bind_eq_bind, Option.bind_eq_some_iff, Option.some.injEq, Prod.exists, Prod.mk.injEq] at h
    obtain ⟨a, ha, rest, ids'', hrest, rfl, -⟩ := h
    have hmem : a ∈ push.accounts := by
      unfold ClosePush.account at ha
      split_ifs at ha
      exact List.mem_of_getElem? ha
    intro x hx
    rcases List.mem_cons.1 hx with rfl | hx
    · refine .market a (haccounts a hmem) ?_ rfl rfl
      show push.label.pattern ≠ .washTrade
      rw [hlabel]
      exact nofun
    · exact ih hrest x hx

/-- So are those of a marking-the-close scenario. -/
theorem generateMarkingTheCloseScenario_injected {draws : MarkingTheCloseDraws P} {pool : List Account}
    (haccounts : ∀ a ∈ pool, a ∈ accounts) {ordersPerSecond : P} {instrumentCount : ℤ} {out : ScenarioOutput P}
    (h : generateMarkingTheCloseScenario draws ids scenarioId instrument pool basePrice severity ordersPerSecond instrumentCount
      venue = some (out, ids')) : ∀ x ∈ out.executions, Injected accounts x := by
  unfold generateMarkingTheCloseScenario at h
  split_ifs at h
  · simp only [Option.some.injEq, Prod.mk.injEq] at h
    obtain ⟨rfl, -⟩ := h
    exact fun x hx => nomatch hx
  · refine trades_injected ?_ ?_ h
    · rfl
    · exact haccounts

/-- So are those of a front-running scenario. -/
theorem generateFrontRunningScenario_injected {draws : FrontRunningDraws P} {a b : Account} (ha : a ∈ accounts) (hb : b ∈ accounts)
    {out : ScenarioOutput P} (h : generateFrontRunningScenario draws ids scenarioId instrument a b basePrice anchorTimeNs severity
      venue = (out, ids')) : ∀ x ∈ out.executions, Injected accounts x := by
  unfold generateFrontRunningScenario at h
  by_cases hseverity : severity ≥ 0.5
  · simp only [if_pos hseverity, Prod.mk.injEq] at h
    obtain ⟨rfl, -⟩ := h
    intro x hx
    simp only [List.mem_cons, List.not_mem_nil, or_false] at hx
    rcases hx with rfl | rfl | rfl
    · exact .market b hb nofun rfl rfl
    · exact .market a ha nofun rfl rfl
    · exact .market b hb nofun rfl rfl
  · simp only [if_neg hseverity, Prod.mk.injEq] at h
    obtain ⟨rfl, -⟩ := h
    intro x hx
    rcases List.mem_pair.1 hx with rfl | rfl
    · exact .market b hb nofun rfl rfl
    · exact .market a ha nofun rfl rfl

omit [Double P] [LinearOrder P] [DoubleRounding P] in
/-- A loop over scenarios keeps the executions and adds those of the scenarios. -/
theorem injectScenarios_executions {inject : Injection P} {Q : Execution P → Prop}
    (hinject : ∀ {i scenarioId ids out ids'}, inject i scenarioId ids = some (out, ids') → ∀ x ∈ out.executions, Q x) {n i : ℕ}
    {scenarioGen : IdGenerator} {r r' : ScenarioOutput P × IdGenerators} (h : injectScenarios inject n i scenarioGen r = some r') :
    (∀ x ∈ r.1.executions, x ∈ r'.1.executions) ∧ ∀ x ∈ r'.1.executions, x ∈ r.1.executions ∨ Q x := by
  refine injectScenarios_induct (motive := fun s => (∀ x ∈ r.1.executions, x ∈ s.1.executions) ∧
    ∀ x ∈ s.1.executions, x ∈ r.1.executions ∨ Q x) ?_ h ⟨fun x hx => hx, fun x hx => .inl hx⟩
  rintro i scenarioId out ids scenario ids' hscenario ⟨hkept, hfrom⟩
  refine ⟨fun x hx => List.mem_append_left _ (hkept x hx), fun x hx => ?_⟩
  rcases List.mem_append.1 hx with hx | hx
  · exact hfrom x hx
  · exact .inr (hinject hscenario x hx)

end Scenarios

/-! ## Simulations -/

section Simulations

variable {hash : Str → ℕ} {config : SimulatorConfig P}

/-- The registry that the simulator builds is well formed. -/
theorem accountRegistry_wellFormed (config : SimulatorConfig P) : config.accountRegistry.WellFormed := AccountRegistry.make_wellFormed _

variable [LinearOrder P] [DoubleRounding P]

section Injections

variable {i : ℕ} {scenarioId : Str} {ids ids' : IdGenerators} {out : ScenarioOutput P}

/-- An injected wash trade is of two related accounts of the registry. -/
theorem injectWashTrade_injected {draws : ℕ → InjectionDraws (WashTradeDraws P)}
    (h : injectWashTrade hash config draws i scenarioId ids = some (out, ids')) :
    ∀ x ∈ out.executions, Injected config.accountRegistry.accounts x := by
  unfold injectWashTrade at h
  simp only [Option.bind_eq_bind, Option.bind_eq_some_iff, Option.some.injEq, Prod.exists] at h
  obtain ⟨instrument, -, first, second, hpair, h⟩ := h
  obtain ⟨hfirst, hsecond, hrelated⟩ := (accountRegistry_wellFormed config).randomLinkedPair hpair
  exact generateWashTradeScenario_injected hfirst hsecond hrelated h

/-- An injected spoofing scenario trades with the market. -/
theorem injectSpoofingLayering_injected {draws : ℕ → InjectionDraws (SpoofingLayeringDraws P)}
    (h : injectSpoofingLayering hash config draws i scenarioId ids = some (out, ids')) :
    ∀ x ∈ out.executions, Injected config.accountRegistry.accounts x := by
  unfold injectSpoofingLayering at h
  simp only [Option.bind_eq_bind, Option.bind_eq_some_iff] at h
  obtain ⟨instrument, -, account, haccount, h⟩ := h
  exact generateSpoofingLayeringScenario_injected (AccountRegistry.mem_of_randomIndependent haccount) h

/-- So does an injected push to the close. -/
theorem injectMarkingTheClose_injected {draws : ℕ → InjectionDraws (MarkingTheCloseDraws P)}
    (h : injectMarkingTheClose hash config draws i scenarioId ids = some (out, ids')) :
    ∀ x ∈ out.executions, Injected config.accountRegistry.accounts x := by
  unfold injectMarkingTheClose at h
  simp only [Option.bind_eq_bind, Option.bind_eq_some_iff, Prod.exists] at h
  obtain ⟨instrument, -, first, second, hpair, h⟩ := h
  obtain ⟨hfirst, hsecond, -⟩ := (accountRegistry_wellFormed config).randomLinkedPair hpair
  refine generateMarkingTheCloseScenario_injected (fun a ha => ?_) h
  rcases List.mem_pair.1 ha with rfl | rfl
  · exact hfirst
  · exact hsecond

/-- So does an injected front-running scenario. -/
theorem injectFrontRunning_injected {draws : ℕ → InjectionDraws (FrontRunningDraws P)}
    (h : injectFrontRunning hash config draws i scenarioId ids = some (out, ids')) :
    ∀ x ∈ out.executions, Injected config.accountRegistry.accounts x := by
  unfold injectFrontRunning at h
  simp only [Option.bind_eq_bind, Option.bind_eq_some_iff, Option.some.injEq, Prod.exists] at h
  obtain ⟨instrument, -, first, second, hpair, h⟩ := h
  obtain ⟨hfirst, hsecond, -⟩ := (accountRegistry_wellFormed config).randomLinkedPair hpair
  exact generateFrontRunningScenario_injected hfirst hsecond h

end Injections

variable {draws : SimulationDraws P}

/-- The executions of a simulation are those of the baseline and those of scenarios. -/
theorem generateEvents_executions {r : ScenarioOutput P × IdGenerators} (h : generateEvents hash config draws = some r) :
    ∃ b, generateBaselineFlow hash ⟨config.sessionStartNs, config.sessionEndNs⟩ config.instruments config.accountRegistry.accounts
        draws.baseline {} = some b ∧ (∀ x ∈ b.1.executions, x ∈ r.1.executions) ∧
      ∀ x ∈ r.1.executions, x ∈ b.1.executions ∨ Injected config.accountRegistry.accounts x := by
  unfold generateEvents at h
  simp only [Option.bind_eq_bind, Option.bind_eq_some_iff] at h
  obtain ⟨b, hb, r₁, h₁, r₂, h₂, r₃, h₃, h₄⟩ := h
  obtain ⟨hkept₁, hfrom₁⟩ := injectScenarios_executions injectWashTrade_injected h₁
  obtain ⟨hkept₂, hfrom₂⟩ := injectScenarios_executions injectSpoofingLayering_injected h₂
  obtain ⟨hkept₃, hfrom₃⟩ := injectScenarios_executions injectMarkingTheClose_injected h₃
  obtain ⟨hkept₄, hfrom₄⟩ := injectScenarios_executions injectFrontRunning_injected h₄
  refine ⟨b, hb, fun x hx => hkept₄ x (hkept₃ x (hkept₂ x (hkept₁ x hx))), fun x hx => ?_⟩
  rcases hfrom₄ x hx with hx | hx
  · rcases hfrom₃ x hx with hx | hx
    · rcases hfrom₂ x hx with hx | hx
      · exact hfrom₁ x hx
      · exact .inr hx
    · exact .inr hx
  · exact .inr hx

/-- The executions of the baseline are the fills of the arrivals before the end. -/
theorem generateBaselineFlow_executions {b : ScenarioOutput P × IdGenerators} {ids : IdGenerators}
    {baseline : List (ArrivalDraws P)} {accounts : List Account} {instruments : List (Instrument P)} {startTimeNs endTimeNs : ℤ}
    (h : generateBaselineFlow hash ⟨startTimeNs, endTimeNs⟩ instruments accounts baseline ids = some b) :
    (∀ x ∈ b.1.executions, ∃ d ∈ arrivals endTimeNs startTimeNs baseline, instruments ≠ [] ∧ RecordedFill accounts d x) ∧
    ∀ d ∈ arrivals endTimeNs startTimeNs baseline, instruments ≠ [] → accounts ≠ [] → d.Fills →
      ∃ x ∈ b.1.executions, RecordedFill accounts d x := by
  unfold generateBaselineFlow at h
  split_ifs at h with hempty
  · rw [Option.some.injEq] at h
    subst h
    refine ⟨fun x hx => (nomatch hx), fun d _ hi ha => ?_⟩
    rcases hempty with hempty | hempty
    · exact absurd hempty hi
    · exact absurd hempty ha
  · obtain ⟨s, hs, rfl⟩ := Option.map_eq_some_iff.1 h
    obtain ⟨hfrom, -, hfilled⟩ := baselineLoop_executions hs
    refine ⟨fun x hx => ?_, fun d hd _ _ hfills => hfilled d hd hfills⟩
    rcases hfrom x hx with hx | ⟨d, hd, hx⟩
    · nomatch hx
    · exact ⟨d, hd, fun hi => hempty (.inl hi), hx⟩

/-! ## Agreement -/

section Agreement

variable {simulation : SimulationOutput P}

omit [LinearOrder P] [DoubleRounding P] in
/-- The label of an execution of a scenario agrees with the rule. -/
theorem Injected.labelAgrees (hnodup : (simulation.accounts.map (·.accountId)).Nodup)
    (hids : ∀ a ∈ simulation.accounts, IsAccountId a.accountId ∧ ∀ id ∈ a.linkedAccountIds, IsAccountId id) {x : Execution P}
    (h : Injected simulation.accounts x) : LabelAgrees (Harness.accountRegistry simulation) x := by
  intro book side
  rw [WashTradeDetector.evaluate_ne_nil_iff]
  show x.counterpartyAccountId ≠ [] ∧
    (Harness.accountRegistry simulation).isRelated x.accountId x.counterpartyAccountId = true ↔ _
  cases h with
  | washTrade a b ha hb hrelated hlabel haccount hcounterparty =>
    rw [haccount, hcounterparty, isRelated_accountRegistry hnodup ha hb, hrelated]
    exact iff_of_true ⟨(hids b hb).1.ne_nil, rfl⟩ hlabel
  | market a ha hlabel haccount hcounterparty =>
    have hunregistered := isRelated_unregistered hnodup ha
      (fun b hb (heq : syntheticCounterparty = b.accountId) => (hids b hb).1.ne_syntheticCounterparty heq.symm)
      fun hlinked => ((hids a ha).2 _ hlinked).ne_syntheticCounterparty rfl
    rw [haccount, hcounterparty, hunregistered]
    exact iff_of_false (fun h => Bool.false_ne_true h.2) hlabel

omit [DoubleRounding P] in
/-- The label of a fill agrees with the rule unless the six counterparties drawn are related. -/
theorem RecordedFill.labelAgrees_iff (hnodup : (simulation.accounts.map (·.accountId)).Nodup)
    (hids : ∀ a ∈ simulation.accounts, IsAccountId a.accountId) {d : ArrivalDraws P} {x : Execution P}
    (h : RecordedFill simulation.accounts d x) :
    LabelAgrees (Harness.accountRegistry simulation) x ↔ ¬d.AllRelated simulation.accounts := by
  obtain ⟨account, ha, counterparty, hc, haccount, hcounterparty, hrelated⟩ := h.parties
  have hlabel : ¬x.groundTruthLabel.pattern = .washTrade := by
    rw [h.label]
    exact nofun
  have hfires : ∀ book side, WashTradeDetector.evaluate book (.execution (toFixExecution x side))
      (Harness.accountRegistry simulation) ≠ [] ↔ d.AllRelated simulation.accounts := by
    intro book side
    rw [WashTradeDetector.evaluate_ne_nil_iff, ← hrelated, accountsRelated_comm, ← isRelated_accountRegistry hnodup ha hc, ← haccount,
      ← hcounterparty]
    have hne : x.counterpartyAccountId ≠ [] := by
      rw [hcounterparty]
      exact (hids counterparty hc).ne_nil
    exact and_iff_right hne
  unfold LabelAgrees
  simp only [hfires, iff_false_right hlabel]
  exact ⟨fun hagree => hagree (OrderBook.make []) .buy, fun hnot _ _ => hnot⟩

/-- The rule and the labels of a simulation agree exactly if each baseline fill draws a counterparty that is not related. -/
theorem wash_trade_labels_iff (h : generateSimulation hash config draws = some simulation) :
    LabelsAgree simulation ↔ CounterpartyFound config draws := by
  unfold generateSimulation at h
  obtain ⟨r, hr, rfl⟩ := Option.map_eq_some_iff.1 h
  obtain ⟨b, hb, hkept, hfrom⟩ := generateEvents_executions hr
  obtain ⟨hfill, hfilled⟩ := generateBaselineFlow_executions hb
  have hregistry := accountRegistry_wellFormed config
  have hids : ∀ a ∈ config.accountRegistry.accounts, IsAccountId a.accountId :=
    fun a ha => (hregistry.given a ha).isAccountId hregistry.idPrefix
  unfold LabelsAgree CounterpartyFound
  simp only [StableSort.mem_sortBy]
  constructor
  · intro hagree hi d hd hfills hall
    obtain ⟨account, ha, -⟩ := id hall
    obtain ⟨x, hx, hrecorded⟩ := hfilled d hd hi (List.ne_nil_of_mem (mem_of_pickRandom ha)) hfills
    exact (hrecorded.labelAgrees_iff hregistry.nodup hids).1 (hagree x (hkept x hx)) hall
  · intro hfound x hx
    rcases hfrom x hx with hx | hx
    · obtain ⟨d, hd, hi, hrecorded⟩ := hfill x hx
      exact (hrecorded.labelAgrees_iff hregistry.nodup hids).2 (hfound hi d hd hrecorded.fills)
    · exact hx.labelAgrees hregistry.nodup fun a ha => ⟨hids a ha, hregistry.linked a ha⟩

end Agreement

end Simulations

/-! ## One fill -/

/-- A session of a second and a half, with these accounts and one instrument. -/
def shortSession (independent pairs : ℤ) : SimulatorConfig ℚ where
  sessionDurationNs := 1500000000
  numEquityInstruments := 1
  numFxInstruments := 0
  numFixedIncomeInstruments := 0
  numIndependentAccounts := independent
  numLinkedAccountPairs := pairs

/-- An order arrives each second and is filled; its counterparty is the one of this number, each time it is drawn. -/
def filledBy (counterparty : ℕ) : SimulationDraws ℚ :=
  let arrival : ArrivalDraws ℚ := ⟨1, 0, 0, 0, 0, 0, 0, 0, 0, 0, 0, counterparty, fun _ => counterparty, 0⟩
  { baseline := [arrival, arrival]
    washTrade := fun _ => ⟨0, 0, 0, ⟨0, 0, 0, 0, 0, 0⟩⟩
    spoofingLayering := fun _ => ⟨0, 0, 0, ⟨0, 0, 0, 0, 0, 0, fun _ => 0⟩⟩
    markingTheClose := fun _ => ⟨0, 0, 0, ⟨0, fun _ => 0, fun _ => 0⟩⟩
    frontRunning := fun _ => ⟨0, 0, 0, ⟨0, 0, 0, 0, 0, 0, 0, 0, 0, 0⟩⟩ }

/-- Of two independent accounts, one fills an order of the other. -/
theorem wash_trade_labels_independent : ∃ simulation, generateSimulation (fun _ => 0) (shortSession 2 0) (filledBy 1) = some simulation ∧
    simulation.executions.length = 1 ∧ LabelsAgree simulation := by
  have hlength : (generateSimulation (fun _ => 0) (shortSession 2 0) (filledBy 1)).map (·.executions.length) = some 1 := by
    decide +kernel
  obtain ⟨simulation, hsimulation, hone⟩ := Option.map_eq_some_iff.1 hlength
  refine ⟨simulation, hsimulation, hone, (wash_trade_labels_iff hsimulation).2 ?_⟩
  rintro - d hd - ⟨account, ha, hall⟩
  have hunrelated : ((pickRandom 0 (shortSession 2 0).accountRegistry.accounts).bind fun a =>
      (pickRandom 1 (shortSession 2 0).accountRegistry.accounts).map fun c => accountsRelated c a) = some false := by
    decide +kernel
  obtain ⟨a, ha', hunrelated⟩ := Option.bind_eq_some_iff.1 hunrelated
  obtain ⟨c, hc, hunrelated⟩ := Option.map_eq_some_iff.1 hunrelated
  rcases List.mem_pair.1 (mem_of_mem_arrivals hd) with rfl | rfl
  all_goals
    obtain rfl : account = a := Option.some.inj (ha.symm.trans ha')
    exact absurd (hall 1 List.mem_cons_self c hc) (by simp [hunrelated])

/-- Where there is one pair of accounts and no other, every fill is between related accounts. -/
theorem baseline_fill_mislabelled : ¬∀ (hash : Str → ℕ) (config : SimulatorConfig ℚ) (draws : SimulationDraws ℚ)
    (simulation : SimulationOutput ℚ), generateSimulation hash config draws = some simulation → LabelsAgree simulation := by
  intro h
  have hrelated : (generateSimulation (fun _ => 0) (shortSession 0 1) (filledBy 1)).map (fun simulation =>
      simulation.executions.any fun x => x.groundTruthLabel.pattern = .baseline && x.counterpartyAccountId ≠ [] &&
        (Harness.accountRegistry simulation).isRelated x.accountId x.counterpartyAccountId) = some true := by
    decide +kernel
  obtain ⟨simulation, hsimulation, hany⟩ := Option.map_eq_some_iff.1 hrelated
  obtain ⟨x, hx, hx'⟩ := List.any_eq_true.1 hany
  simp only [Bool.and_eq_true, decide_eq_true_eq] at hx'
  obtain ⟨⟨hlabel, hne⟩, hrel⟩ := hx'
  have hagree := (h _ _ _ _ hsimulation x hx (OrderBook.make []) .buy).1 (WashTradeDetector.evaluate_ne_nil_iff.2 ⟨hne, hrel⟩)
  rw [hlabel] at hagree
  cases hagree

end Simulator

end TradeSurveillance
