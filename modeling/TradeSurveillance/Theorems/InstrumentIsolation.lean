import TradeSurveillance.Lemmas.AlertStamps
import TradeSurveillance.Lemmas.SpoofingView
import TradeSurveillance.Lib.Unwinding
import TradeSurveillance.Theorems.BookIndex

/-!
# Isolation of instruments

The spoofing alerts for an instrument depend on its events alone (`spoofing_alerts_isolated`), where no order id is used on two
instruments and no account id has a bar in it: the other events are hidden inputs of the pipeline.
-/

namespace TradeSurveillance

variable {P : Type} [Double P] [LinearOrder P]

/-! ## Other detectors -/

/-- The detectors of the repository other than the spoofing detector, in any state. -/
inductive IDetector.Other : IDetector P → Prop where
  | washTrade : Other WashTradeDetector.object
  | markingTheClose (d : MarkingTheCloseDetector P) : Other d.object
  | frontRunning (d : FrontRunningDetector P) : Other d.object
  | statisticalBaseline (d : StatisticalBaselineDetector P) : Other d.object
  | mlAnomaly (d : MlAnomalyDetector P) : Other d.object

namespace IDetector

theorem Other.step {d : IDetector P} (h : d.Other) (book : OrderBook P) (e : Event P) (accounts : AccountRegistry) :
    (d.step book e accounts).1.Other ∧ ∀ a ∈ (d.step book e accounts).2, a.detectorName ≠ ascii "SpoofingLayeringDetector" := by
  have hname : ∀ {alerts : List (Alert P)} {name : Str}, (∀ a ∈ alerts, a.detectorName = name) →
      name ≠ ascii "SpoofingLayeringDetector" → ∀ a ∈ alerts, a.detectorName ≠ ascii "SpoofingLayeringDetector" :=
    fun halerts hne a ha heq => hne ((halerts a ha).symm.trans heq)
  cases h with
  | washTrade => exact ⟨.washTrade, hname (fun a ha => (WashTradeDetector.raisedBy book e accounts ha).detectorName) (by decide)⟩
  | markingTheClose d =>
    exact ⟨.markingTheClose _, hname (fun a ha => (MarkingTheCloseDetector.raisedBy book e accounts ha).detectorName) (by decide)⟩
  | frontRunning d =>
    exact ⟨.frontRunning _, hname (fun a ha => (FrontRunningDetector.raisedBy book e accounts ha).detectorName) (by decide)⟩
  | statisticalBaseline d =>
    exact ⟨.statisticalBaseline _, hname (fun a ha => (StatisticalBaselineDetector.raisedBy book e ha).detectorName) (by decide)⟩
  | mlAnomaly d =>
    refine ⟨.mlAnomaly _, ?_⟩
    intro a ha
    cases e <;> nomatch ha

/-- The detectors of the repository, a spoofing detector in its first state. -/
inductive Fresh : IDetector P → Prop where
  | spoofingLayering (config : SpoofingLayeringConfig P) : Fresh (SpoofingLayeringDetector.make config).object
  | other {d : IDetector P} (h : d.Other) : Fresh d

/-- Two detectors whose spoofing alerts for an instrument will be the same. -/
inductive Alike (X : Str) (own : Str → Prop) : IDetector P → IDetector P → Prop where
  | spoofingLayering {d d' : SpoofingLayeringDetector P} (h : d.Agree X own d') (ho : d.Owned X own) (ho' : d'.Owned X own) :
    Alike X own d.object d'.object
  | other {d d' : IDetector P} (h : d.Other) (h' : d'.Other) : Alike X own d d'

end IDetector

/-- The spoofing alerts for an instrument among alerts. -/
def spoofingAlerts (X : Str) (alerts : List (Alert P)) : List (Alert P) :=
  alerts.filter fun a => a.detectorName = ascii "SpoofingLayeringDetector" ∧ a.instrumentId = X

namespace IDetector

variable {X : Str} {own : Str → Prop} {d d' : IDetector P} {e : Event P}

theorem Fresh.alike (h : d.Fresh) : Alike X own d d := by
  cases h with
  | spoofingLayering config =>
    have howned : (SpoofingLayeringDetector.make config).Owned X own := ⟨fun id t ht => (nomatch ht), fun id t ht => (nomatch ht)⟩
    exact .spoofingLayering (.refl _) howned howned
  | other h => exact .other h h

theorem Alike.symm (h : Alike X own d d') : Alike X own d' d := by
  cases h with
  | spoofingLayering h ho ho' => exact .spoofingLayering h.symm ho' ho
  | other h h' => exact .other h' h

theorem Other.spoofingAlerts_eq_nil (h : d.Other) (book : OrderBook P) (e : Event P) (accounts : AccountRegistry) :
    spoofingAlerts X (d.step book e accounts).2 = [] := by
  refine List.filter_eq_nil_iff.2 ?_
  intro a ha
  have hne := (h.step book e accounts).2 a ha
  simp [hne]

/-- An event of another instrument is not noticed. -/
theorem Alike.step_other (h : Alike X own d d') (he : e.Fits X own) (hX : e.instrumentId ≠ X) (book : OrderBook P)
    (accounts : AccountRegistry) : Alike X own (d.step book e accounts).1 d' ∧ spoofingAlerts X (d.step book e accounts).2 = [] := by
  cases h with
  | spoofingLayering h ho ho' =>
    obtain ⟨hagree, hother⟩ := ho.evaluate_other he hX book
    refine ⟨.spoofingLayering (hagree.trans h) (ho.evaluate he book) ho', ?_⟩
    refine List.filter_eq_nil_iff.2 ?_
    intro a ha
    have hne := hother a ha
    simp [hne]
  | other h h' => exact ⟨.other (h.step book e accounts).1 h', h.spoofingAlerts_eq_nil book e accounts⟩

/-- An event of the instrument is judged alike. -/
theorem Alike.step (h : Alike X own d d') (he : e.Fits X own) (hX : e.instrumentId = X) (book : OrderBook P)
    (accounts accounts' : AccountRegistry) : Alike X own (d.step book e accounts).1 (d'.step book e accounts').1 ∧
      spoofingAlerts X (d.step book e accounts).2 = spoofingAlerts X (d'.step book e accounts').2 := by
  cases h with
  | spoofingLayering h ho ho' =>
    obtain ⟨hagree, halerts⟩ := h.evaluate ho he hX book
    exact ⟨.spoofingLayering hagree (ho.evaluate he book) (ho'.evaluate he book), congrArg (spoofingAlerts X) halerts⟩
  | other h h' =>
    refine ⟨.other (h.step book e accounts).1 (h'.step book e accounts').1, ?_⟩
    rw [h.spoofingAlerts_eq_nil, h'.spoofingAlerts_eq_nil]

end IDetector

/-! ## The pipeline -/

namespace LivePipeline

/-- `process`, as far as the spoofing alerts for an instrument go. -/
def spoofingStep (X : Str) (p : LivePipeline P) (e : Event P) : LivePipeline P × List (Alert P) :=
  ((p.process e).1, spoofingAlerts X (p.process e).2.alerts)

/-- Two pipelines whose spoofing alerts for an instrument will be the same. -/
structure Alike (X : Str) (own : Str → Prop) (p p' : LivePipeline P) : Prop where
  book : p.bookOf X = p'.bookOf X
  detectors : List.Forall₂ (IDetector.Alike X own) p.detectors p'.detectors

variable {X : Str} {own : Str → Prop} {p p' : LivePipeline P} {e : Event P}

omit [Double P] [LinearOrder P] in
/-- The spoofing alerts of the detectors, one after another. -/
theorem spoofingAlerts_flatMap {α : Type*} (l : List α) (f : α → List (Alert P)) :
    spoofingAlerts X (l.flatMap f) = l.flatMap fun x => spoofingAlerts X (f x) := List.filter_flatMap

theorem flatMap_congr_of_forall₂ {α β γ : Type*} {R : α → β → Prop} {l : List α} {l' : List β} (h : List.Forall₂ R l l')
    {f : α → List γ} {g : β → List γ} (hfg : ∀ a b, R a b → f a = g b) : l.flatMap f = l'.flatMap g := by
  induction h with
  | nil => rfl
  | cons hab _ ih => rw [List.flatMap_cons, List.flatMap_cons, hfg _ _ hab, ih]

/-- An event of another instrument is not noticed. -/
theorem Alike.process_other (h : Alike X own p p') (he : e.Fits X own) (hX : e.instrumentId ≠ X) :
    Alike X own (p.spoofingStep X e).1 p' ∧ (p.spoofingStep X e).2 = [] := by
  have hbook : (p.process e).1.bookOf X = p'.bookOf X := (p.process_bookOf_other (Ne.symm hX)).trans h.book
  unfold spoofingStep
  cases ht : ((p.bookOf e.instrumentId).apply e).2 with
  | some thrown =>
    obtain ⟨hdetectors, halerts, -⟩ := p.process_of_thrown ht
    exact ⟨⟨hbook, hdetectors ▸ h.detectors⟩, by rw [halerts]; rfl⟩
  | none =>
    obtain ⟨hdetectors, halerts⟩ := p.process_of_applied ht
    refine ⟨⟨hbook, ?_⟩, ?_⟩
    · rw [hdetectors, List.map_map, List.forall₂_map_left_iff]
      exact h.detectors.imp fun d d' hd => (hd.step_other he hX _ _).1
    · rw [halerts, List.flatMap_map, spoofingAlerts_flatMap,
        flatMap_congr_of_forall₂ h.detectors fun d d' hd => (hd.step_other he hX _ _).2]
      exact List.flatMap_eq_nil_iff.2 fun _ _ => rfl

/-- An event of the instrument is judged alike. -/
theorem Alike.process (h : Alike X own p p') (he : e.Fits X own) (hX : e.instrumentId = X) :
    Alike X own (p.spoofingStep X e).1 (p'.spoofingStep X e).1 ∧ (p.spoofingStep X e).2 = (p'.spoofingStep X e).2 := by
  subst hX
  have hbook : (p.process e).1.bookOf e.instrumentId = (p'.process e).1.bookOf e.instrumentId := by
    rw [process_bookOf_self, process_bookOf_self, h.book]
  unfold spoofingStep
  cases ht : ((p.bookOf e.instrumentId).apply e).2 with
  | some thrown =>
    obtain ⟨hdetectors, halerts, -⟩ := p.process_of_thrown ht
    obtain ⟨hdetectors', halerts', -⟩ := p'.process_of_thrown (h.book ▸ ht)
    exact ⟨⟨hbook, by rw [hdetectors, hdetectors']; exact h.detectors⟩, by rw [halerts, halerts']⟩
  | none =>
    obtain ⟨hdetectors, halerts⟩ := p.process_of_applied ht
    obtain ⟨hdetectors', halerts'⟩ := p'.process_of_applied (h.book ▸ ht)
    refine ⟨⟨hbook, ?_⟩, ?_⟩
    · rw [hdetectors, hdetectors', List.map_map, List.map_map, List.forall₂_map_left_iff, List.forall₂_map_right_iff, ← h.book]
      exact h.detectors.imp fun d d' hd => (hd.step he rfl _ _ _).1
    · rw [halerts, halerts', List.flatMap_map, List.flatMap_map, spoofingAlerts_flatMap, spoofingAlerts_flatMap, ← h.book]
      exact flatMap_congr_of_forall₂ h.detectors fun d d' hd => (hd.step he rfl _ _ p'.accounts).2

theorem unwinds (X : Str) (own : Str → Prop) : Unwinding.Unwinds (spoofingStep (P := P) X) (Event.Fits X own)
    (Option.guard fun e => e.instrumentId = X) (Alike X own) where
  symm h := ⟨h.book.symm, h.detectors.flip.imp fun _ _ hd => hd.symm⟩
  hidden h he hview := h.process_other he (by simpa using hview)
  visible h he _ hview hview' := by
    simp only [Option.guard_eq_some_iff, decide_eq_true_eq] at hview hview'
    obtain ⟨rfl, hX⟩ := hview
    obtain ⟨rfl, -⟩ := hview'
    exact h.process he hX

/-- The spoofing alerts for an instrument in a run, in order. -/
def runSpoofingAlerts (X : Str) (detectors : List (IDetector P)) (accounts : AccountRegistry) (events : List (Event P)) :
    List (Alert P) :=
  (Unwinding.run (spoofingStep X) (make detectors accounts) events).2

end LivePipeline

/-! ## Streams -/

/-- No account of an order has a bar in it, and no order id is used on two instruments. -/
structure Separated (events : List (Event P)) : Prop where
  account : ∀ e ∈ events, ∀ a ∈ e.accounts, 124 ∉ a
  ids : ∀ e ∈ events, ∀ e' ∈ events, ∀ id ∈ e.usedIds, id ∈ e'.usedIds → e.instrumentId = e'.instrumentId

omit [Double P] [LinearOrder P] in
/-- The ids an instrument uses are used by its events alone. -/
theorem Separated.fits {events : List (Event P)} (h : Separated events) (X : Str) :
    ∀ e ∈ events, e.Fits X fun id => ∃ e' ∈ eventsOf X events, id ∈ e'.usedIds := by
  intro e he
  refine ⟨h.account e he, fun id hid => ⟨?_, fun hX => ?_⟩⟩
  · rintro ⟨e', he', hid'⟩
    exact (h.ids e he e' (List.mem_filter.1 he').1 id hid hid').trans (instrumentId_of_mem_eventsOf he')
  · exact ⟨e, List.mem_filter.2 ⟨he, decide_eq_true hX⟩, hid⟩

/-- Two streams with the same events of an instrument lead to the same spoofing alerts for it. -/
theorem spoofing_alerts_isolated {X : Str} {events events' : List (Event P)} (hs : Separated events) (hs' : Separated events')
    (hX : eventsOf X events = eventsOf X events') {detectors : List (IDetector P)} (hd : ∀ d ∈ detectors, d.Fresh)
    (accounts : AccountRegistry) : LivePipeline.runSpoofingAlerts X detectors accounts events =
      LivePipeline.runSpoofingAlerts X detectors accounts events' := by
  have hok := hs.fits X
  have hok' := hs'.fits X
  rw [← hX] at hok'
  refine (Unwinding.run_eq_of_view (LivePipeline.unwinds X _) ⟨rfl, ?_⟩ hok hok' ?_).2
  · exact List.forall₂_same.2 fun d hmem => (hd d hmem).alike
  · rw [List.filterMap_eq_filter]
    exact hX

/-- An order is placed and cancelled at once, alone and among orders of another instrument. -/
theorem spoofing_alerts_isolated_interleaved :
    let new : Event ℚ := .order (orderOn "X" "A" .new "A" .buy 100 10)
    let cancel : Event ℚ := .order (orderOn "X" "A" .cancelled "A" .buy 100 10)
    let other : Event ℚ := .order (orderOn "Y" "B" .new "B" .sell 7 3)
    let alerts := LivePipeline.runSpoofingAlerts (ascii "X") [(SpoofingLayeringDetector.make {}).object] .empty
    (alerts [new, cancel]).length = 1 ∧ alerts [new, cancel] = alerts [new, other, cancel] := by
  intro new cancel other alerts
  have hs : Separated [new, cancel] := ⟨by decide +kernel, by decide +kernel⟩
  have hs' : Separated [new, other, cancel] := ⟨by decide +kernel, by decide +kernel⟩
  refine ⟨by decide +kernel, spoofing_alerts_isolated hs hs' (by decide +kernel) (fun d hd => ?_) .empty⟩
  exact List.mem_singleton.1 hd ▸ .spoofingLayering {}

end TradeSurveillance
