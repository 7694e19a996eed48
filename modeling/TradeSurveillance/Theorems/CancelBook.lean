import TradeSurveillance.Lemmas.AmbientTracker
import TradeSurveillance.Theorems.ConcurrencyIndex

/-!
# The book a Cancel is scored with

The pipeline shows a Cancel to the spoofing detector together with the book after the Cancel. Of the book the scores read only the best
price of the side opposite to the order's. The Cancel leaves that side alone as long as the detector and the book agree on the order's
side: `sides_run` says that they do along every run in which a Replace repeats the side of the order it amends.
-/

namespace TradeSurveillance

variable {P : Type}

/-! ## Entries and the index of a book -/

/-- Where an index of an instrument has an id that is tracked on the instrument, they agree on its side. -/
def SidesMatch (index : Map Str (OrderIndexEntry P)) (i : Str) (f : Str → Option ShadowEntry) : Prop :=
  ∀ id a s n entry, f id = some (a, i, s, n) → index.lookup id = some entry → entry.side = s

section SidesMatch

variable {index : Map Str (OrderIndexEntry P)} {i j a : Str} {s : Side} {n : ℤ} {f f' : Str → Option ShadowEntry}

/-- Sides match when there are only entries that there were. -/
theorem SidesMatch.of_entries (h : SidesMatch index i f)
    (hf : ∀ id a s n, f' id = some (a, i, s, n) → ∃ n', f id = some (a, i, s, n')) : SidesMatch index i f' := by
  intro id a s n entry hid hentry
  obtain ⟨n', hold⟩ := hf id a s n hid
  exact h id a s n' entry hold hentry

/-- Sides match with one entry less. -/
theorem SidesMatch.forget (h : SidesMatch index i f) (id : Str) : SidesMatch index i (Function.update f id none) := by
  refine h.of_entries fun id' a s n hid' => ⟨n, ?_⟩
  by_cases hid : id' = id
  · rw [hid, Function.update_self] at hid'
    nomatch hid'
  · rwa [Function.update_of_ne hid] at hid'

/-- Sides match when the index forgets an id. -/
theorem SidesMatch.erase (h : SidesMatch index i f) (id : Str) : SidesMatch (index.erase id) i f := by
  intro id' a s n entry hid' hentry
  by_cases hid : id' = id
  · rw [hid, Finmap.lookup_erase] at hentry
    nomatch hentry
  · rw [Finmap.lookup_erase_ne hid] at hentry
    exact h id' a s n entry hid' hentry

/-- Sides match when both get an entry of one side. -/
theorem SidesMatch.insert (h : SidesMatch index i f) (id : Str) {entry : OrderIndexEntry P} (hside : entry.side = s) :
    SidesMatch (index.insert id entry) i (Function.update f id (some (a, j, s, n))) := by
  intro id' a' s' n' entry' hid' hentry
  by_cases hid : id' = id
  · rw [hid, Finmap.lookup_insert, Option.some.injEq] at hentry
    rw [hid, Function.update_self, Option.some.injEq, Prod.mk.injEq, Prod.mk.injEq, Prod.mk.injEq] at hid'
    rw [← hentry, hside, hid'.2.2.1]
  · rw [Finmap.lookup_insert_of_ne _ hid] at hentry
    rw [Function.update_of_ne hid] at hid'
    exact h id' a' s' n' entry' hid' hentry

/-- An Execution makes no entry. -/
theorem shadowStep_execution {t : Execution P} {id : Str} (h : shadowStep f (.execution t) id = some (a, i, s, n)) :
    ∃ n', f id = some (a, i, s, n') := by
  rcases hf : f t.orderId with _ | ⟨account, instrument, side, qty⟩
  · simp only [shadowStep, hf] at h
    exact ⟨n, h⟩
  · simp only [shadowStep, hf] at h
    by_cases hid : id = t.orderId
    · rw [hid, Function.update_self] at h
      split at h
      · cases h
      · rw [Option.some.injEq, Prod.mk.injEq, Prod.mk.injEq, Prod.mk.injEq] at h
        obtain ⟨rfl, rfl, rfl, -⟩ := h
        exact ⟨qty, hid ▸ hf⟩
    · rw [Function.update_of_ne hid] at h
      exact ⟨n, h⟩

/-- Where an entry comes from. -/
theorem shadowStep_cases {e : Event P} {id : Str} (h : shadowStep f e id = some (a, i, s, n)) :
    (∃ n', f id = some (a, i, s, n')) ∨ id ∈ e.usedIds ∧ e.instrumentId = i := by
  have hnone : ∀ {g : Str → Option ShadowEntry} {id'}, Function.update g id' none id = some (a, i, s, n) → g id = some (a, i, s, n) := by
    intro g id' hid
    by_cases heq : id = id'
    · rw [heq, Function.update_self] at hid
      nomatch hid
    · rwa [Function.update_of_ne heq] at hid
  cases e with
  | order o =>
    -- the entry made for a New or a Replace
    have hmade : ∀ {g : Str → Option ShadowEntry}, Function.update g o.orderId (some o.shadowEntry) id = some (a, i, s, n) →
        g id = some (a, i, s, n) ∨ id = o.orderId ∧ o.instrumentId = i := by
      intro g hid
      by_cases heq : id = o.orderId
      · rw [heq, Function.update_self, Order.shadowEntry, Option.some.injEq, Prod.mk.injEq, Prod.mk.injEq] at hid
        exact .inr ⟨heq, hid.2.1⟩
      · rw [Function.update_of_ne heq] at hid
        exact .inl hid
    cases hst : o.status with
    | new =>
      simp only [shadowStep, hst] at h
      rcases hmade h with hold | ⟨rfl, hi⟩
      · exact .inl ⟨n, hold⟩
      · exact .inr ⟨by simp [Event.usedIds, hst], hi⟩
    | cancelled =>
      simp only [shadowStep, hst] at h
      exact .inl ⟨n, hnone h⟩
    | replaced =>
      simp only [shadowStep, hst] at h
      rcases hmade h with hold | ⟨rfl, hi⟩
      · exact .inl ⟨n, hnone hold⟩
      · exact .inr ⟨by simp [Event.usedIds, hst], hi⟩
  | execution t => exact .inl (shadowStep_execution h)

end SidesMatch

/-! ## One event -/

/-- A Replace carries the side of the order it amends. -/
def LivePipeline.RepeatsSide [LinearOrder P] (p : LivePipeline P) : Event P → Prop
  | .order o => o.status = .replaced → ∀ entry n, (p.bookOf o.instrumentId).target o.origOrderId = some (entry, n) →
      o.side = n.resting.side
  | .execution _ => True

variable [LinearOrder P] {p : LivePipeline P} {f : Str → Option ShadowEntry}

/-- The book of the event's instrument. -/
theorem SidesMatch.applied {e : Event P} {L L' : List (Placed P)} {b' : OrderBook P} {thrown : Option Thrown}
    (h : SidesMatch (p.bookOf e.instrumentId).orderIndex e.instrumentId f) (hl : Layout (p.bookOf e.instrumentId) L)
    (hok : p.RepeatsSide e) (ha : Applied (p.bookOf e.instrumentId) L e b' thrown L') :
    SidesMatch b'.orderIndex e.instrumentId (if thrown.isSome then f else shadowStep f e) := by
  cases ha with
  | mismatch _ => exact h
  | duplicate _ _ _ => exact h
  | unknown _ _ _ => exact h
  | unfilled _ _ => exact h
  | overfilled _ _ _ _ _ => exact h
  | @inserted o b' _ hst hid hindex =>
    simp only [Option.isSome_none, Bool.false_eq_true, if_false, shadowStep, hst, hindex]
    exact h.insert o.orderId rfl
  | @absent o _ hst _ =>
    simp only [Option.isSome_none, Bool.false_eq_true, if_false, shadowStep, hst]
    exact h.forget o.origOrderId
  | @cancelled o b' x _ hst _ hid _ hindex =>
    simp only [Option.isSome_none, Bool.false_eq_true, if_false, shadowStep, hst, hindex]
    exact (h.erase x.id).forget o.origOrderId
  | @amended o b' x _ hst hx hid he _ hindex =>
    have hside : x.entry.side = o.side := (hok hst _ _ (hid ▸ hl.target_eq hx he)).symm
    simp only [Option.isSome_none, Bool.false_eq_true, if_false, shadowStep, hst, hindex]
    exact ((h.erase x.id).forget o.origOrderId).insert o.orderId hside
  | @moved o b' x _ hst _ _ _ _ _ hindex =>
    simp only [Option.isSome_none, Bool.false_eq_true, if_false, shadowStep, hst, hindex]
    exact ((h.erase x.id).forget o.origOrderId).insert o.orderId rfl
  | @movedDuplicate o b' x what _ _ _ _ _ _ _ hindex =>
    rw [hindex]
    exact h.erase x.id
  | @filled t b' x _ _ _ _ _ _ hindex =>
    simp only [Option.isSome_none, Bool.false_eq_true, if_false, hindex]
    exact (h.erase x.id).of_entries fun _ _ _ _ => shadowStep_execution
  | @partFilled t b' x _ _ _ _ _ _ hindex =>
    simp only [Option.isSome_none, Bool.false_eq_true, if_false, hindex]
    exact h.of_entries fun _ _ _ _ => shadowStep_execution

/-- What the entries of a detector have to do with the events and the books. -/
structure Sided (p : LivePipeline P) (events : List (Event P)) (f : Str → Option ShadowEntry) : Prop where
  /-- An id is tracked on an instrument that has used it. -/
  used : ∀ id a i s n, f id = some (a, i, s, n) → ∃ e ∈ events, id ∈ e.usedIds ∧ e.instrumentId = i
  sides : ∀ i, SidesMatch (p.bookOf i).orderIndex i f

/-- An event that repeats the side keeps the detector's entries in step with the books' indices. -/
theorem Sided.process {events : List (Event P)} {L : List (Placed P)} {e : Event P} (h : Sided p events f)
    (hl : Layout (p.bookOf e.instrumentId) L) (hok : p.RepeatsSide e) :
    Sided (p.process e).1 (events ++ [e]) (if ((p.bookOf e.instrumentId).apply e).2.isSome then f else shadowStep f e) := by
  constructor
  · intro id a i s n hid
    have hold : ∀ n', f id = some (a, i, s, n') → ∃ e' ∈ events ++ [e], id ∈ e'.usedIds ∧ e'.instrumentId = i := by
      intro n' hn'
      obtain ⟨e', he', hused⟩ := h.used id a i s n' hn'
      exact ⟨e', List.mem_append_left _ he', hused⟩
    split at hid
    · exact hold n hid
    · rcases shadowStep_cases hid with ⟨n', hn'⟩ | hused
      · exact hold n' hn'
      · exact ⟨e, List.mem_append_right _ List.mem_cons_self, hused⟩
  · intro i
    by_cases hi : i = e.instrumentId
    · obtain ⟨L', ha, -⟩ := hl.apply e
      rw [hi, LivePipeline.process_bookOf_self]
      exact (h.sides e.instrumentId).applied hl hok ha
    · rw [LivePipeline.process_bookOf_other p hi]
      refine (h.sides i).of_entries ?_
      intro id a s n hid
      split at hid
      · exact ⟨n, hid⟩
      · exact (shadowStep_cases hid).resolve_right fun hused => hi hused.2.symm

/-! ## What a Cancel changes in the book -/

/-- The best price depends on the levels of its side only. -/
theorem OrderBook.bestPrice_congr {b b' : OrderBook P} {s : Side} (h : b'.levelsFor s = b.levelsFor s) :
    b'.bestPrice s = b.bestPrice s := by
  cases s with
  | buy => exact congrArg (fun levels : PriceLevels P => (levels.keys.sort (· ≤ ·)).getLast?) h
  | sell => exact congrArg (fun levels : PriceLevels P => (levels.keys.sort (· ≤ ·)).head?) h

/-- A Cancel leaves the side alone on which the order does not rest. -/
theorem OrderBook.bestPrice_apply_cancel {b : OrderBook P} {o : Order P} (hst : o.status = .cancelled) {s : Side}
    (hs : ∀ entry, b.orderIndex.lookup o.origOrderId = some entry → entry.side ≠ s) :
    (b.apply (.order o)).1.bestPrice s = b.bestPrice s := by
  rw [apply, applyOrder]
  split
  · rfl
  · simp only [hst, cancel]
    have htick : (b.tick o.timestampNs).levelsFor s = b.levelsFor s := by cases s <;> rfl
    cases he : (b.tick o.timestampNs).orderIndex.lookup o.origOrderId with
    | none => exact bestPrice_congr htick
    | some entry =>
      refine bestPrice_congr (Eq.trans ?_ htick)
      simp only [removeResting]
      split
      · rfl
      · have hlevels := fun levels => levelsFor_setLevels_of_ne (b.tick o.timestampNs) levels (hs entry he).symm
        cases s with
        | buy => exact hlevels _
        | sell => exact hlevels _

/-! ## What the scores read -/

namespace SpoofingLayeringDetector

variable [Double P] {d d' : SpoofingLayeringDetector P} {b b' : OrderBook P} {o : Order P} {t : TrackedOrder P}

/-- Scores that read the same are the same. -/
theorem handleCancel_congr (ht : d.tracked.lookup o.origOrderId = some t) (ht' : d'.tracked.lookup o.origOrderId = some t)
    (hconfig : d.config = d'.config) (hcounts : d.concurrentCountByKey = d'.concurrentCountByKey)
    (hrate : d.recentMoveRate t.instrumentId t.side.opposite = d'.recentMoveRate t.instrumentId t.side.opposite)
    (htypical : d.typicalConcurrent t = d'.typicalConcurrent t) (hprice : b.bestPrice t.side.opposite = b'.bestPrice t.side.opposite) :
    (d.handleCancel b o).2.map Alert.withoutSequence = (d'.handleCancel b' o).2.map Alert.withoutSequence := by
  have hmove : ∀ ns, d.moveScore t ns = d'.moveScore t ns := by
    intro ns
    rw [moveScore, moveScore, hrate, hconfig]
  -- erasing the entry changes neither
  have hmove' : ∀ ns, (d.eraseTracked o.origOrderId).1.moveScore t ns = (d'.eraseTracked o.origOrderId).1.moveScore t ns := by
    rw [eraseTracked_of_some ht, eraseTracked_of_some ht']
    exact hmove
  have htypical' : (d.eraseTracked o.origOrderId).1.typicalConcurrent t = (d'.eraseTracked o.origOrderId).1.typicalConcurrent t := by
    rw [eraseTracked_of_some ht, eraseTracked_of_some ht']
    exact htypical
  have hcount : (d.eraseTracked o.origOrderId).1.concurrentCountByKey = (d'.eraseTracked o.origOrderId).1.concurrentCountByKey := by
    rw [eraseTracked_of_some ht, eraseTracked_of_some ht', hcounts]
  have hconfig' : (d.eraseTracked o.origOrderId).1.config = (d'.eraseTracked o.origOrderId).1.config := by
    rw [eraseTracked_config, eraseTracked_config, hconfig]
  have hd : (d.eraseTracked o.origOrderId).2 = some t := by rw [eraseTracked_of_some ht]
  have hd' : (d'.eraseTracked o.origOrderId).2 = some t := by rw [eraseTracked_of_some ht']
  unfold handleCancel
  generalize d.eraseTracked o.origOrderId = r at *
  generalize d'.eraseTracked o.origOrderId = r' at *
  obtain ⟨e, _⟩ := r
  obtain ⟨e', _⟩ := r'
  subst hd hd'
  simp only at *
  split
  · rfl
  · rw [hmove', htypical', hconfig', hprice, countConcurrentSameAccountSameSide, countConcurrentSameAccountSameSide, hcount,
      apply_ite Prod.snd, apply_ite Prod.snd, apply_ite (List.map Alert.withoutSequence), apply_ite (List.map Alert.withoutSequence)]
    simp only [List.map_nil, List.map_cons, Alert.withoutSequence]

/-- The best price of the order's own side makes no difference to the scores. -/
theorem evaluate_cancel_congr (hst : o.status = .cancelled) (ht : d.tracked.lookup o.origOrderId = some t)
    (hi : t.instrumentId = o.instrumentId) (hprice : b.bestPrice t.side.opposite = b'.bestPrice t.side.opposite) :
    (d.evaluate b (.order o)).2.map Alert.withoutSequence = (d.evaluate b' (.order o)).2.map Alert.withoutSequence := by
  rw [evaluate_cancelled d b hst, evaluate_cancelled d b' hst]
  refine handleCancel_congr ht ht rfl rfl ?_ ?_ hprice
  · rw [recentMoveRate, recentMoveRate, hi, lookup_updateAmbient, lookup_updateAmbient, hprice]
    rfl
  · rw [typicalConcurrent, typicalConcurrent, hi, lookup_updateAmbient, lookup_updateAmbient]
    rfl

end SpoofingLayeringDetector

/-! ## Every run -/

section Run

variable [Double P] {config : SpoofingLayeringConfig P} {detectors : List (IDetector P)} {accounts : AccountRegistry} {k : ℕ}

/-- They are in step after every run whose Replaces repeat the side of the order they amend. -/
theorem sides_run (hk : detectors[k]? = some (SpoofingLayeringDetector.make config).object) (events : List (Event P))
    (hok : ∀ pre e, pre ++ [e] <+: events → (LivePipeline.run detectors accounts pre).RepeatsSide e) :
    ∃ d, (LivePipeline.run detectors accounts events).detectors[k]? = some (SpoofingLayeringDetector.object d) ∧
      Sided (LivePipeline.run detectors accounts events) events d.shadow := by
  have hinit : Sided (LivePipeline.run detectors accounts []) [] (SpoofingLayeringDetector.make config).shadow :=
    ⟨fun _ _ _ _ _ h => (nomatch h), fun _ _ _ _ _ _ h => (nomatch h)⟩
  refine LivePipeline.run_spoofing accounts (fun pre d => Sided (LivePipeline.run detectors accounts pre) pre d.shadow) hk hinit events ?_
  rintro pre e d hpre - h
  obtain ⟨L, hl⟩ : ∃ L, Layout ((LivePipeline.run detectors accounts pre).bookOf e.instrumentId) L := by
    rw [LivePipeline.run_bookOf]
    exact OrderBook.run_layout _ _
  rw [LivePipeline.run_concat, SpoofingLayeringDetector.shadow_ite]
  exact h.process hl (hok pre e hpre)

/-- In every run in which each order id is used on one instrument and each Replace carries the side of the order it amends, a Cancel
raises the same alerts, but for the sequence number, with the book before it and with the book after it. -/
theorem cancel_book_immaterial (hk : detectors[k]? = some (SpoofingLayeringDetector.make config).object) (events : List (Event P))
    (hids : ∀ e ∈ events, ∀ e' ∈ events, ∀ id ∈ e.usedIds, id ∈ e'.usedIds → e.instrumentId = e'.instrumentId)
    (hok : ∀ pre e, pre ++ [e] <+: events → (LivePipeline.run detectors accounts pre).RepeatsSide e) :
    ∀ pre o d, pre ++ [.order o] <+: events → o.status = .cancelled →
      (LivePipeline.run detectors accounts pre).detectors[k]? = some (SpoofingLayeringDetector.object d) →
      let book := (LivePipeline.run detectors accounts pre).bookOf o.instrumentId
      (d.evaluate book (.order o)).2.map Alert.withoutSequence =
        (d.evaluate (book.apply (.order o)).1 (.order o)).2.map Alert.withoutSequence := by
  intro pre o d hpre hst hd book
  obtain ⟨d', hd', h⟩ := sides_run hk pre fun pre' e hpre' => hok pre' e (hpre'.trans ((List.prefix_append _ _).trans hpre))
  obtain rfl := SpoofingLayeringDetector.object_injective (Option.some.inj (hd'.symm.trans hd))
  cases ht : d'.tracked.lookup o.origOrderId with
  | none =>
    have hnone : ∀ b, (d'.evaluate b (.order o)).2 = [] := by
      intro b
      rw [SpoofingLayeringDetector.evaluate_cancelled d' b hst, SpoofingLayeringDetector.handleCancel,
        SpoofingLayeringDetector.eraseTracked_of_none (d := d'.updateAmbient b o.instrumentId o.timestampNs) ht]
    rw [hnone, hnone]
  | some t =>
    have hentry : d'.shadow o.origOrderId = some (t.accountId, t.instrumentId, t.side, t.remainingQty) := by
      rw [SpoofingLayeringDetector.shadow, ht]
      rfl
    -- the order was tracked on the instrument of the Cancel
    obtain ⟨e, he, hused, hi⟩ := h.used _ _ _ _ _ hentry
    have hinstrument : t.instrumentId = o.instrumentId := by
      rw [← hi]
      refine hids e (hpre.subset (List.mem_append_left _ he)) (.order o) (hpre.subset (by simp)) o.origOrderId hused ?_
      simp [Event.usedIds, hst]
    refine SpoofingLayeringDetector.evaluate_cancel_congr hst ht hinstrument (OrderBook.bestPrice_apply_cancel hst ?_).symm
    intro entry hlookup
    rw [h.sides o.instrumentId _ _ _ _ entry (hinstrument ▸ hentry) hlookup]
    cases t.side <;> decide

end Run

/-- An order that is cancelled at once raises one alert with either book. -/
theorem cancel_book_immaterial_alert :
    let new := orderOn "X" "A" .new "" .buy 99 10
    let cancel := orderOn "X" "C" .cancelled "A" .buy 99 10
    let p := LivePipeline.run (P := ℚ) [(SpoofingLayeringDetector.make {}).object] .empty [.order new]
    ∃ d, p.detectors[0]? = some (SpoofingLayeringDetector.object d) ∧
      (d.evaluate (p.bookOf (ascii "X")) (.order cancel)).2.map Alert.withoutSequence =
        (d.evaluate ((p.bookOf (ascii "X")).apply (.order cancel)).1 (.order cancel)).2.map Alert.withoutSequence ∧
      (d.evaluate (p.bookOf (ascii "X")) (.order cancel)).2.map Alert.score = [2 / 3] := by
  intro new cancel p
  refine ⟨_, rfl, ?_, by decide +kernel⟩
  have hevents : ∀ e ∈ [Event.order new, .order cancel], e = .order new ∨ e = .order cancel := by simp
  refine cancel_book_immaterial (k := 0) rfl [.order new, .order cancel] ?_ ?_ [.order new] cancel _ (List.prefix_refl _) rfl rfl
  · intro e he e' he' id _ _
    rcases hevents e he with rfl | rfl <;> rcases hevents e' he' with rfl | rfl <;> rfl
  · intro pre e hpre
    rcases hevents e (hpre.subset (by simp)) with rfl | rfl <;> exact fun hst => nomatch hst

end TradeSurveillance
