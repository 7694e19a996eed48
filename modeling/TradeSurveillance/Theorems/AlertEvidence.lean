import TradeSurveillance.Lemmas.AlertStamps
import TradeSurveillance.Theorems.BookIndex

/-!
# What an alert says

An alert of a rule detector has a score between 0 and 1, a window that does not end before it starts, and ids of events that were
processed (`alert_wellFormed`). A detector has ids of earlier events in its state: `Knows` says of each that they are ids of those events.
-/

namespace TradeSurveillance

variable {P : Type}

/-- The accounts an event names. -/
def Event.parties : Event P → List Str
  | .order o => [o.accountId]
  | .execution x => [x.accountId, x.counterpartyAccountId]

/-- The orders and the trade an event is about. -/
def Event.references : Event P → List Str
  | .order o => [o.orderId]
  | .execution x => [x.orderId, x.tradeId]

/-- An account named by one of the events. -/
def IsParty (events : List (Event P)) (id : Str) : Prop := ∃ e ∈ events, id ∈ e.parties

/-- An order or a trade one of the events is about. -/
def IsReference (events : List (Event P)) (id : Str) : Prop := ∃ e ∈ events, id ∈ e.references

section Ids

variable {events : List (Event P)} {e : Event P} {id : Str}

/-- A party of some events is one of more. -/
theorem IsParty.concat (h : IsParty events id) (e : Event P) : IsParty (events ++ [e]) id := by
  obtain ⟨e', he', hid⟩ := h
  exact ⟨e', List.mem_append_left _ he', hid⟩

/-- A reference of some events is one of more. -/
theorem IsReference.concat (h : IsReference events id) (e : Event P) : IsReference (events ++ [e]) id := by
  obtain ⟨e', he', hid⟩ := h
  exact ⟨e', List.mem_append_left _ he', hid⟩

/-- The parties of the last event are parties of the events. -/
theorem isParty_last (h : id ∈ e.parties) : IsParty (events ++ [e]) id := ⟨e, List.mem_append_right _ (List.mem_singleton_self e), h⟩

/-- So are its references. -/
theorem isReference_last (h : id ∈ e.references) : IsReference (events ++ [e]) id :=
  ⟨e, List.mem_append_right _ (List.mem_singleton_self e), h⟩

end Ids

variable [Double P] [LinearOrder P]

/-- What an alert says is in range, and is about the events. -/
structure Alert.WellFormed (a : Alert P) (events : List (Event P)) : Prop where
  score_nonneg : 0.0 ≤ a.score
  score_le_one : a.score ≤ 1.0
  window : a.windowStartNs ≤ a.windowEndNs
  accountIds : ∀ id ∈ a.accountIds, IsParty events id
  orderIds : ∀ id ∈ a.orderIds, IsReference events id

/-! ## One detector -/

section Detectors

variable {events : List (Event P)} {book : OrderBook P} {e : Event P} {accounts : AccountRegistry}

/-- An alert of the wash-trade detector is about the event it saw last. -/
theorem WashTradeDetector.wellFormed (hone : (0.0 : P) ≤ 1.0) {a : Alert P} (h : a ∈ evaluate book e accounts) :
    a.WellFormed (events ++ [e]) := by
  unfold evaluate at h
  cases e with
  | order o => nomatch h
  | execution t =>
    simp only [List.mem_ite_nil_left, List.mem_singleton] at h
    obtain ⟨-, -, rfl⟩ := h
    refine ⟨hone, le_refl _, le_refl _, fun id hid => ?_, fun id hid => ?_⟩
    · exact isParty_last hid
    · exact isReference_last hid

/-- So is one of the baseline detector. -/
theorem StatisticalBaselineDetector.wellFormed (hone : (0.0 : P) ≤ 1.0) {d : StatisticalBaselineDetector P} {a : Alert P}
    (h : a ∈ (d.evaluate book e).2) : a.WellFormed (events ++ [e]) := by
  unfold evaluate at h
  cases e with
  | execution t => nomatch h
  | order o =>
    simp only at h
    split at h
    · nomatch h
    · unfold alertsFor at h
      simp only [List.mem_ite_nil_left, List.mem_singleton] at h
      obtain ⟨-, -, -, rfl⟩ := h
      refine ⟨Double.le_clamp hone, Double.clamp_le hone, le_refl _, fun id hid => ?_, fun id hid => ?_⟩
      · exact isParty_last hid
      · exact isReference_last hid

/-! ### Front running -/

/-- What the detector remembers of orders is of events. -/
def FrontRunningDetector.Knows (events : List (Event P)) (d : FrontRunningDetector P) : Prop :=
  ∀ key recent, d.recentByKey.lookup key = some recent → ∀ r ∈ recent, IsParty events r.accountId ∧ IsReference events r.orderId

omit [LinearOrder P] in
/-- What the detector knows of some events it knows of more. -/
theorem FrontRunningDetector.Knows.concat {d : FrontRunningDetector P} (h : d.Knows events) (e : Event P) :
    d.Knows (events ++ [e]) := fun key recent hrecent r hr => (h key recent hrecent r hr).imp (.concat · e) (.concat · e)

/-- A New order adds itself to what is remembered, and its alerts name it and remembered orders. -/
theorem FrontRunningDetector.Knows.handleNew {d : FrontRunningDetector P} (h : d.Knows events) (hone : (0.0 : P) ≤ 1.0)
    {o : Order P} (hparty : IsParty events o.accountId) (href : IsReference events o.orderId) (sequence : ℤ) :
    (d.handleNew o accounts sequence).1.Knows events ∧ ∀ a ∈ (d.handleNew o accounts sequence).2, a.WellFormed events := by
  have hrecent : ∀ r ∈ (d.recentByKey.lookup (instrumentSideKey o.instrumentId o.side)).getD [],
      IsParty events r.accountId ∧ IsReference events r.orderId := by
    intro r hr
    cases hl : d.recentByKey.lookup (instrumentSideKey o.instrumentId o.side) with
    | none => rw [hl] at hr; nomatch hr
    | some recent => exact h _ recent hl r (by rwa [hl] at hr)
  unfold FrontRunningDetector.handleNew
  refine ⟨fun key recent hl r hr => ?_, fun a ha => ?_⟩
  · by_cases hkey : key = instrumentSideKey o.instrumentId o.side
    · rw [hkey, Finmap.lookup_insert, Option.some.injEq] at hl
      subst hl
      rcases List.mem_append.1 hr with hold | hnew
      · exact hrecent r (List.mem_of_mem_filter hold)
      · rw [List.mem_singleton.1 hnew]
        exact ⟨hparty, href⟩
    · exact h key recent ((Finmap.lookup_insert_of_ne _ hkey).symm.trans hl) r hr
  · obtain ⟨prior, hprior, rfl⟩ := List.mem_map.1 ha
    obtain ⟨hprior, hreacts⟩ := List.mem_filter.1 hprior
    obtain ⟨hp, hr⟩ := hrecent prior (List.mem_of_mem_filter hprior)
    -- a prior order with a later timestamp is passed over
    have hle : prior.timestampNs ≤ o.timestampNs := by
      unfold reacts at hreacts
      simp only [Bool.and_eq_true] at hreacts
      exact of_decide_eq_true hreacts.2
    refine ⟨hone, le_refl _, hle, fun id hid => ?_, fun id hid => ?_⟩
    · rcases List.mem_pair.1 hid with rfl | rfl
      · exact hp
      · exact hparty
    · rcases List.mem_pair.1 hid with rfl | rfl
      · exact hr
      · exact href

/-- One event keeps what the detector knows, and its alerts are about the events. -/
theorem FrontRunningDetector.Knows.evaluate {d : FrontRunningDetector P} (h : d.Knows events) (hone : (0.0 : P) ≤ 1.0)
    (book : OrderBook P) (e : Event P) (accounts : AccountRegistry) :
    (d.evaluate book e accounts).1.Knows (events ++ [e]) ∧
      ∀ a ∈ (d.evaluate book e accounts).2, a.WellFormed (events ++ [e]) := by
  unfold FrontRunningDetector.evaluate
  cases e with
  | execution t => exact ⟨h.concat _, fun a ha => nomatch ha⟩
  | order o =>
    simp only
    split
    · exact (h.concat _).handleNew hone (isParty_last (List.mem_singleton_self _)) (isReference_last (List.mem_singleton_self _)) _
    · exact ⟨h.concat _, fun a ha => nomatch ha⟩

/-! ### Spoofing and layering -/

/-- What the detector tracks is of events. -/
def SpoofingLayeringDetector.Knows (events : List (Event P)) (d : SpoofingLayeringDetector P) : Prop :=
  ∀ id t, d.tracked.lookup id = some t → IsReference events id ∧ IsParty events t.accountId

namespace SpoofingLayeringDetector

variable {d : SpoofingLayeringDetector P}

omit [LinearOrder P] in
/-- What the detector knows of some events it knows of more. -/
theorem Knows.concat (h : d.Knows events) (e : Event P) : d.Knows (events ++ [e]) :=
  fun id t ht => (h id t ht).imp (.concat · e) (.concat · e)

omit [LinearOrder P] in
/-- Erasing an id forgets, and adds nothing. -/
theorem Knows.eraseTracked (h : d.Knows events) (id : Str) : (d.eraseTracked id).1.Knows events := by
  unfold SpoofingLayeringDetector.eraseTracked
  split
  · exact h
  · intro id' t ht
    by_cases hid : id' = id
    · rw [hid, Finmap.lookup_erase] at ht
      nomatch ht
    · exact h id' t ((Finmap.lookup_erase_ne hid).symm.trans ht)

omit [LinearOrder P] in
/-- An entry is added or assigned to. -/
theorem Knows.insert {d' : SpoofingLayeringDetector P} {id : Str} {t : TrackedOrder P} (h : d.Knows events)
    (hd' : d'.tracked = d.tracked.insert id t) (href : IsReference events id) (hparty : IsParty events t.accountId) :
    d'.Knows events := by
  intro id' t' ht'
  rw [hd'] at ht'
  by_cases hid : id' = id
  · rw [hid, Finmap.lookup_insert, Option.some.injEq] at ht'
    rw [hid, ← ht']
    exact ⟨href, hparty⟩
  · exact h id' t' ((Finmap.lookup_insert_of_ne _ hid).symm.trans ht')

omit [LinearOrder P] in
/-- An Execution changes quantities only. -/
theorem Knows.handleExecution (h : d.Knows events) (t : Execution P) : (d.handleExecution t).Knows events := by
  unfold SpoofingLayeringDetector.handleExecution
  split
  · exact h
  · rename_i tracked hl
    obtain ⟨href, hparty⟩ := h _ _ hl
    have hinsert : ∀ d' : SpoofingLayeringDetector P,
        d'.tracked = d.tracked.insert t.orderId { tracked with remainingQty := wrap64 (tracked.remainingQty - t.qty) } → d'.Knows events :=
      fun _ hd' => h.insert hd' href hparty
    simp only
    split
    · exact (hinsert _ rfl).eraseTracked _
    · exact hinsert _ rfl

/-- `track_new` adds the order of the event. -/
theorem Knows.trackNew (h : d.Knows events) {o : Order P} (hparty : IsParty events o.accountId)
    (href : IsReference events o.orderId) : (d.trackNew book o).Knows events := by
  have htracked : ∃ t, (d.trackNew book o).tracked = d.tracked.insert o.orderId t ∧ t.accountId = o.accountId := ⟨_, rfl, rfl⟩
  obtain ⟨t, ht, haccount⟩ := htracked
  exact h.insert ht href (haccount ▸ hparty)

/-- An alert on a Cancel is about the tracked order. -/
theorem handleCancel_wellFormed (h : d.Knows events) (hone : (0.0 : P) ≤ 1.0) {o : Order P} {a : Alert P}
    (ha : a ∈ (d.handleCancel book o).2) : a.WellFormed events := by
  unfold handleCancel at ha
  split at ha
  · nomatch ha
  · rename_i d' tracked heq
    obtain ⟨href, hparty⟩ := h _ _ (lookup_of_eraseTracked heq)
    simp only [apply_ite Prod.snd, List.mem_ite_nil_left, List.mem_singleton] at ha
    obtain ⟨hplaced, -, rfl⟩ := ha
    refine ⟨Double.le_clamp hone, Double.clamp_le hone, not_lt.1 hplaced, fun id hid => ?_, fun id hid => ?_⟩
    · rw [List.mem_singleton.1 hid]
      exact hparty
    · rw [List.mem_singleton.1 hid]
      exact href

/-- One event keeps what the detector knows, and its alerts are about the events. -/
theorem Knows.evaluate (h : d.Knows events) (hone : (0.0 : P) ≤ 1.0) (book : OrderBook P) (e : Event P) :
    (d.evaluate book e).1.Knows (events ++ [e]) ∧
    ∀ a ∈ (d.evaluate book e).2, a.WellFormed (events ++ [e]) := by
  unfold SpoofingLayeringDetector.evaluate
  cases e with
  | execution t =>
    have hambient : (d.updateAmbient book t.instrumentId t.timestampNs).Knows (events ++ [.execution t]) := h.concat _
    exact ⟨hambient.handleExecution t, fun a ha => nomatch ha⟩
  | order o =>
    have hambient : (d.updateAmbient book o.instrumentId o.timestampNs).Knows (events ++ [.order o]) := h.concat _
    have hparty : IsParty (events ++ [.order o]) o.accountId := isParty_last (List.mem_singleton_self _)
    have href : IsReference (events ++ [.order o]) o.orderId := isReference_last (List.mem_singleton_self _)
    simp only
    split
    · exact ⟨hambient.trackNew hparty href, fun a ha => nomatch ha⟩
    · refine ⟨?_, fun a ha => handleCancel_wellFormed hambient hone ha⟩
      rw [handleCancel_fst]
      exact hambient.eraseTracked _
    · exact ⟨(hambient.eraseTracked _).trackNew hparty href, fun a ha => nomatch ha⟩

end SpoofingLayeringDetector

/-! ### Marking the close -/

/-- What the detector has counted is of events. -/
structure MarkingTheCloseDetector.Knows (events : List (Event P)) (d : MarkingTheCloseDetector P) : Prop where
  threshold : 0.0 ≤ d.config.concentrationThreshold
  accounts : ∀ id ∈ d.allAccountsSeen, IsParty events id
  trades : ∀ key ids, d.tradeIdsByKey.lookup key = some ids → ∀ id ∈ ids, IsReference events id

namespace MarkingTheCloseDetector

variable {d : MarkingTheCloseDetector P}

/-- What the detector knows of some events it knows of more. -/
theorem Knows.concat (h : d.Knows events) (e : Event P) : d.Knows (events ++ [e]) where
  threshold := h.threshold
  accounts id hid := (h.accounts id hid).concat e
  trades key ids hids id hid := (h.trades key ids hids id hid).concat e

/-- Registering a party of the events keeps what the detector knows. -/
theorem Knows.registerAndGroup (h : d.Knows events) {accountId : Str} (hparty : IsParty events accountId)
    (accounts : AccountRegistry) :
    (d.registerAndGroup accountId accounts).Knows events := by
  unfold MarkingTheCloseDetector.registerAndGroup
  split
  · exact h
  · refine ⟨h.threshold, fun id hid => ?_, h.trades⟩
    rcases List.mem_append.1 hid with hold | hnew
    · exact h.accounts id hold
    · rw [List.mem_singleton.1 hnew]
      exact hparty

omit [LinearOrder P] in
/-- The members are accounts seen. -/
theorem mem_of_addMember {rep : Str} {seen : List Str} {r : List Str × Map Str Str} {id : Str}
    (h : id ∈ (seen.foldl (addMember rep) r).1) : id ∈ r.1 ∨ id ∈ seen := by
  induction seen generalizing r with
  | nil => exact .inl h
  | cons acc seen ih =>
    rcases ih h with hr | hseen
    · unfold addMember at hr
      simp only at hr
      split at hr
      · rcases List.mem_append.1 hr with hold | hnew
        · exact .inl hold
        · exact .inr (List.mem_cons.2 (.inl (List.mem_singleton.1 hnew)))
      · exact .inl hr
    · exact .inr (List.mem_cons_of_mem _ hseen)

omit [LinearOrder P] in
/-- The members of a group have been seen. -/
theorem mem_of_groupMembers {accountId id : Str} (h : id ∈ (d.groupMembers accountId).1) : id ∈ d.allAccountsSeen := by
  rcases mem_of_addMember h with hnil | hseen
  · nomatch hnil
  · exact (d.order.perm _).mem_iff.1 hseen

/-- Collecting them keeps what the detector knows. -/
theorem Knows.groupMembers (h : d.Knows events) (accountId : Str) : (d.groupMembers accountId).2.Knows events :=
  ⟨h.threshold, h.accounts, h.trades⟩

omit [LinearOrder P] in
/-- The trades of an account are stored under its key. -/
theorem mem_tradeIds {ids : List Str} {i accountId : Str} (h : d.tradeIds i accountId = ids) {id : Str} (hid : id ∈ ids) :
    ∃ ids, d.tradeIdsByKey.lookup (keyFor i accountId) = some ids ∧ id ∈ ids := by
  subst h
  unfold tradeIds at hid
  cases hl : d.tradeIdsByKey.lookup (keyFor i accountId) with
  | none => rw [hl] at hid; nomatch hid
  | some ids => exact ⟨ids, rfl, by rwa [hl] at hid⟩

/-- Crediting a trade of the events keeps what the detector knows. -/
theorem Knows.credit (h : d.Knows events) {t : Execution P} (href : IsReference events t.tradeId) (accountId : Str) :
    (d.credit t accountId).Knows events := by
  refine ⟨h.threshold, h.accounts, ?_⟩
  intro key ids hids id hid
  by_cases hkey : key = keyFor t.instrumentId accountId
  · rw [hkey] at hids
    obtain rfl := Option.some.inj ((Finmap.lookup_insert _).symm.trans hids)
    rcases List.mem_append.1 hid with hold | hnew
    · obtain ⟨ids, hl, hmem⟩ := mem_tradeIds rfl hold
      exact h.trades _ ids hl id hmem
    · rw [List.mem_singleton.1 hnew]
      exact href
  · exact h.trades key ids ((Finmap.lookup_insert_of_ne _ hkey).symm.trans hids) id hid

/-- A check counts the account in, and an alert is about the accounts and trades counted. -/
theorem Knows.checkAccount (h : d.Knows events) (hone : (0.0 : P) ≤ 1.0) {accountId : Str} (hparty : IsParty events accountId)
    (i : Str) {ws ts : ℤ} (hwindow : ws ≤ ts) (sequence : ℤ) (accounts : AccountRegistry) :
    (d.checkAccount i accountId ws ts sequence accounts).1.Knows events ∧
      ∀ a ∈ (d.checkAccount i accountId ws ts sequence accounts).2, a.WellFormed events := by
  have hreg := h.registerAndGroup hparty accounts
  unfold MarkingTheCloseDetector.checkAccount
  generalize d.registerAndGroup accountId accounts = d at hreg ⊢
  have hmembers : ∀ id ∈ (d.groupMembers accountId).1, IsParty events id := fun id hid => hreg.accounts id (mem_of_groupMembers hid)
  have hgroup := hreg.groupMembers accountId
  simp only
  generalize d.groupMembers accountId = r at hmembers hgroup ⊢
  obtain ⟨members, d'⟩ := r
  have hnone : d'.Knows events ∧ ∀ a ∈ (none : Option (Alert P)), a.WellFormed events := ⟨hgroup, fun a ha => nomatch ha⟩
  split
  · exact hnone
  split
  · exact hnone
  split
  · exact hnone
  split
  · exact hnone
  rename_i hshare
  refine ⟨⟨hgroup.threshold, hgroup.accounts, hgroup.trades⟩, ?_⟩
  intro a ha
  obtain rfl := Option.some.inj ha
  refine ⟨le_min (hgroup.threshold.trans (not_lt.1 hshare)) hone, min_le_right _ _, hwindow, hmembers, ?_⟩
  intro id hid
  obtain ⟨member, -, hmem⟩ := List.mem_flatMap.1 hid
  obtain ⟨ids, hl, hmem⟩ := mem_tradeIds rfl hmem
  exact hgroup.trades _ ids hl id hmem

/-- One event keeps what the detector knows, and its alerts are about the events. -/
theorem Knows.evaluate (h : d.Knows events) (hone : (0.0 : P) ≤ 1.0) (book : OrderBook P) (e : Event P)
    (accounts : AccountRegistry) : (d.evaluate book e accounts).1.Knows (events ++ [e]) ∧
    ∀ a ∈ (d.evaluate book e accounts).2, a.WellFormed (events ++ [e]) := by
  unfold MarkingTheCloseDetector.evaluate
  cases e with
  | order o => exact ⟨h.concat _, fun a ha => nomatch ha⟩
  | execution t =>
    have hnone : d.Knows (events ++ [.execution t]) ∧ ∀ a ∈ ([] : List (Alert P)), a.WellFormed (events ++ [.execution t]) :=
      ⟨h.concat _, fun a ha => nomatch ha⟩
    have href : IsReference (events ++ [.execution t]) t.tradeId := isReference_last (by simp [Event.references])
    have hparty : IsParty (events ++ [.execution t]) t.accountId := isParty_last (by simp [Event.parties])
    have hparty' : IsParty (events ++ [.execution t]) t.counterpartyAccountId := isParty_last (by simp [Event.parties])
    simp only
    unfold MarkingTheCloseDetector.handleExecution
    split
    · exact hnone
    rename_i closeTs hclose
    simp only
    split
    · exact hnone
    rename_i hin
    have hwindow : closeTs - d.config.windowDurationNs ≤ t.timestampNs := not_lt.1 fun hlt => hin (.inl hlt)
    have hcredit := Knows.credit (d := { d with totalWindowQty := (d.totalWindowQty.insert t.instrumentId
      (wrap64 ((d.totalWindowQty.lookup t.instrumentId).getD 0 + t.qty))) })
      ⟨hnone.1.threshold, hnone.1.accounts, hnone.1.trades⟩ href t.accountId
    split
    · have hcredit' := hcredit.credit href t.counterpartyAccountId
      have hcheck := hcredit'.checkAccount hone hparty t.instrumentId hwindow book.snapshotSequence accounts
      have hcheck' := hcheck.1.checkAccount hone hparty' t.instrumentId hwindow book.snapshotSequence accounts
      refine ⟨hcheck'.1, ?_⟩
      intro a ha
      rcases List.mem_append.1 ha with ha | ha
      · exact hcheck.2 a (Option.mem_toList.1 ha)
      · exact hcheck'.2 a (Option.mem_toList.1 ha)
    · have hcheck := hcredit.checkAccount hone hparty t.instrumentId hwindow book.snapshotSequence accounts
      exact ⟨hcheck.1, fun a ha => hcheck.2 a (Option.mem_toList.1 ha)⟩

end MarkingTheCloseDetector

end Detectors

/-! ## The pipeline -/

/-- The rule detectors, with what they know of the events. -/
inductive IDetector.Informed (events : List (Event P)) : IDetector P → Prop where
  | washTrade : Informed events WashTradeDetector.object
  | spoofingLayering {d : SpoofingLayeringDetector P} (h : d.Knows events) : Informed events d.object
  | markingTheClose {d : MarkingTheCloseDetector P} (h : d.Knows events) : Informed events d.object
  | frontRunning {d : FrontRunningDetector P} (h : d.Knows events) : Informed events d.object
  | statisticalBaseline (d : StatisticalBaselineDetector P) : Informed events d.object

namespace IDetector

variable {events : List (Event P)} {d : IDetector P}

/-- What a detector knows of some events it knows of more. -/
theorem Informed.concat (h : d.Informed events) (e : Event P) : d.Informed (events ++ [e]) := by
  cases h with
  | washTrade => exact .washTrade
  | spoofingLayering h => exact .spoofingLayering (h.concat e)
  | markingTheClose h => exact .markingTheClose (h.concat e)
  | frontRunning h => exact .frontRunning (h.concat e)
  | statisticalBaseline d => exact .statisticalBaseline d

/-- A call makes a detector know the event, and its alerts are about what it knows. -/
theorem Informed.step (h : d.Informed events) (hone : (0.0 : P) ≤ 1.0) (book : OrderBook P) (e : Event P)
    (accounts : AccountRegistry) : (d.step book e accounts).1.Informed (events ++ [e]) ∧
      ∀ a ∈ (d.step book e accounts).2, a.WellFormed (events ++ [e]) := by
  cases h with
  | washTrade => exact ⟨.washTrade, fun a ha => WashTradeDetector.wellFormed hone ha⟩
  | spoofingLayering h =>
    obtain ⟨hknows, halerts⟩ := h.evaluate hone book e
    exact ⟨.spoofingLayering hknows, halerts⟩
  | markingTheClose h =>
    obtain ⟨hknows, halerts⟩ := h.evaluate hone book e accounts
    exact ⟨.markingTheClose hknows, halerts⟩
  | frontRunning h =>
    obtain ⟨hknows, halerts⟩ := h.evaluate hone book e accounts
    exact ⟨.frontRunning hknows, halerts⟩
  | statisticalBaseline d => exact ⟨.statisticalBaseline _, fun a ha => StatisticalBaselineDetector.wellFormed hone ha⟩

end IDetector

namespace LivePipeline

variable {p : LivePipeline P} {events : List (Event P)}

/-- An event makes the detectors know it, and their alerts are about what they know. -/
theorem process_informed (h : ∀ d ∈ p.detectors, d.Informed events) (hone : (0.0 : P) ≤ 1.0) (e : Event P) :
    (∀ d ∈ (p.process e).1.detectors, d.Informed (events ++ [e])) ∧
      ∀ a ∈ (p.process e).2.alerts, a.WellFormed (events ++ [e]) := by
  cases ht : ((p.bookOf e.instrumentId).apply e).2 with
  | some thrown =>
    rw [(p.process_of_thrown ht).1, (p.process_of_thrown ht).2.1]
    exact ⟨fun d hd => (h d hd).concat e, fun a ha => nomatch ha⟩
  | none =>
    rw [(p.process_of_applied ht).1, (p.process_of_applied ht).2]
    simp only [List.mem_map, List.mem_flatMap, exists_exists_and_eq_and]
    constructor
    · rintro d ⟨d', hd', rfl⟩
      exact ((h d' hd').step hone _ e _).1
    · rintro a ⟨d', hd', ha⟩
      exact ((h d' hd').step hone _ e _).2 a ha

/-- After any events the detectors know of them. -/
theorem run_informed {detectors : List (IDetector P)} (h : ∀ d ∈ detectors, d.Informed []) (hone : (0.0 : P) ≤ 1.0)
    (accounts : AccountRegistry) (events : List (Event P)) : ∀ d ∈ (run detectors accounts events).detectors, d.Informed events := by
  induction events using List.reverseRecOn with
  | nil => exact h
  | append_singleton events e ih =>
    rw [run_concat]
    exact (process_informed ih hone e).1

end LivePipeline

/-- The five rule detectors in their default configuration, with any session closes. -/
def ruleDetectors (order : HashOrder) (closeTimes : Map Str ℤ) : List (IDetector P) :=
  [WashTradeDetector.object, (SpoofingLayeringDetector.make {}).object,
    (MarkingTheCloseDetector.make { closeTimeNsByInstrument := closeTimes } order).object,
    (FrontRunningDetector.make {}).object, (StatisticalBaselineDetector.make {}).object]

/-- The rule detectors start informed of no event. -/
theorem ruleDetectors_informed (hthreshold : (0.0 : P) ≤ 0.4) (order : HashOrder) (closeTimes : Map Str ℤ) :
    ∀ d ∈ (ruleDetectors order closeTimes : List (IDetector P)), d.Informed [] := by
  have hspoofing : (SpoofingLayeringDetector.make {} : SpoofingLayeringDetector P).Knows [] := fun id t ht => nomatch ht
  have hclose : (MarkingTheCloseDetector.make { closeTimeNsByInstrument := closeTimes } order : MarkingTheCloseDetector P).Knows [] :=
    ⟨hthreshold, fun id hid => (nomatch hid), fun key ids hids => (nomatch hids)⟩
  have hfront : (FrontRunningDetector.make {} : FrontRunningDetector P).Knows [] := fun key recent hrecent => nomatch hrecent
  unfold ruleDetectors
  simp only [List.forall_mem_cons, List.not_mem_nil, false_implies, implies_true, and_true]
  exact ⟨.washTrade, .spoofingLayering hspoofing, .markingTheClose hclose, .frontRunning hfront, .statisticalBaseline _⟩

/-- Whatever events a pipeline with the rule detectors has processed, every alert of the next one has a score in range, a window in
order, and ids that occur in the events up to it. -/
theorem alert_wellFormed (hthreshold : (0.0 : P) ≤ 0.4) (hone : (0.0 : P) ≤ 1.0) (order : HashOrder) (closeTimes : Map Str ℤ)
    (accounts : AccountRegistry) (events : List (Event P)) (e : Event P) :
    ∀ a ∈ ((LivePipeline.run (ruleDetectors order closeTimes) accounts events).process e).2.alerts, a.WellFormed (events ++ [e]) :=
  (LivePipeline.process_informed
    (LivePipeline.run_informed (ruleDetectors_informed hthreshold order closeTimes) hone accounts events) hone e).2

/-- An account trades with itself. -/
theorem alert_wellFormed_selfTrade :
    let new : Event ℚ := .order (orderOn "X" "A" .new "A" .buy 100 10)
    let trade : Event ℚ := .execution (selfTrade "X" "A" 100 2)
    let alerts := ((LivePipeline.run (ruleDetectors ⟨id, fun _ => .refl _⟩ ∅) .empty [new]).process trade).2.alerts
    alerts.length = 1 ∧ ∀ a ∈ alerts, a.WellFormed [new, trade] :=
  ⟨by decide +kernel, alert_wellFormed (by norm_num) (by norm_num) _ ∅ .empty [_] _⟩

end TradeSurveillance
