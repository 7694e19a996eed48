import TradeSurveillance.Lemmas.OrderlyReplay
import TradeSurveillance.Lemmas.SpoofingView

/-!
# Resting orders in a replay in good order

The best price of a side is of an order that was placed on it and not cancelled (`Orderly.placed_of_bestPrice`), and there is one while
such an order is not ended (`Orderly.bestPrice_ne_none`). Until an order is ended, the spoofing detector keeps an entry of it with the
best price of the other side when it was placed (`Orderly.entry_of_placed`).
-/

namespace TradeSurveillance

variable {P : Type} [LinearOrder P]

/-! ## Best prices -/

namespace FlatBook

variable {f : FlatBook P} {x : FlatOrder P} {side : Side} {price : P}

/-- A price of a side is that of an order of the side. -/
theorem mem_prices : price ∈ f.prices side ↔ ∃ x ∈ f, x.side = side ∧ x.price = price := by
  simp [prices, and_assoc]

/-- The best price is that of an order. -/
theorem mem_of_bestPrice (h : f.view.bestPrice side = some price) : ∃ x ∈ f, x.side = side ∧ x.price = price := by
  cases side with
  | buy => exact mem_prices.1 (Finset.mem_of_max h)
  | sell => exact mem_prices.1 (Finset.mem_of_min h)

/-- With an order on a side there is a best price. -/
theorem bestPrice_ne_none (hx : x ∈ f) : f.view.bestPrice x.side ≠ none := by
  have hmem : x.price ∈ f.prices x.side := mem_prices.2 ⟨x, hx, rfl, rfl⟩
  intro hnone
  cases hside : x.side with
  | buy =>
    rw [hside] at hmem hnone
    obtain ⟨p, hp⟩ := Finset.max_of_mem hmem
    exact absurd (hnone.symm.trans hp) (Option.some_ne_none p).symm
  | sell =>
    rw [hside] at hmem hnone
    obtain ⟨p, hp⟩ := Finset.min_of_mem hmem
    exact absurd (hnone.symm.trans hp) (Option.some_ne_none p).symm

end FlatBook

namespace Orderly

variable {events pre post : List (Event P)} {n : Order P} {i : Str} {side : Side} {price : P} (detectors : List (IDetector P))
  (accounts : AccountRegistry)

omit [LinearOrder P] in
/-- No event comes twice. -/
theorem nodup (h : Orderly events) : events.Nodup := by
  refine h.cycles.nodup ?_
  intro e he
  cases e with
  | execution x => exact .inr ⟨_, rfl⟩
  | order o =>
    have hne := (h.kept o he).1
    cases hst : o.status with
    | new => exact .inl ⟨_, if_pos hst⟩
    | cancelled => exact .inr ⟨_, if_pos hst⟩
    | replaced => exact absurd hst hne

/-- The book of an instrument is the flat book of its events. -/
theorem view_bookOf (h : Orderly (pre ++ post)) (i : Str) :
    ((LivePipeline.run detectors accounts pre).bookOf i).view = (FlatBook.run (eventsOf i pre)).view := by
  obtain ⟨L, hL, -, hflat⟩ := run_flat (h.amendingRun i)
  rw [LivePipeline.run_bookOf, ← hflat]
  exact view_eq hL.toQueued

/-- The best price of a side is of an order placed on it, which is not cancelled. -/
theorem placed_of_bestPrice (h : Orderly (pre ++ post))
    (hbest : ((LivePipeline.run detectors accounts pre).bookOf i).bestPrice side = some price) :
    ∃ n, .order n ∈ pre ∧ n.status = .new ∧ n.instrumentId = i ∧ n.side = side ∧ n.price = price ∧
      ∀ c, .order c ∈ pre → c.instrumentId = i → c.status = .cancelled → c.origOrderId ≠ n.orderId := by
  have hsub : (eventsOf i pre).Sublist pre := List.filter_sublist
  have hview := congrFun (congrArg BookView.bestPrice (h.view_bookOf detectors accounts i)) side
  obtain ⟨y, hy, rfl, rfl⟩ := FlatBook.mem_of_bestPrice (hview.symm.trans hbest)
  obtain ⟨n, p, q, hevents, hst, hn, hq⟩ := FlatBook.placed_of_mem_run (fun o ho => h.of_append o (hsub.subset ho)) hy
  have hmem : .order n ∈ eventsOf i pre := hevents ▸ List.mem_append_right _ List.mem_cons_self
  refine ⟨n, hsub.subset hmem, hst, instrumentId_of_mem_eventsOf hmem, hn.side, hn.price, ?_⟩
  intro c hc hci hcst hid
  have hc : .order c ∈ p ++ .order n :: q := hevents ▸ List.mem_filter.2 ⟨hc, decide_eq_true hci⟩
  rcases List.mem_append.1 hc with hc | hc
  · have hpair : [.order c, .order n].Sublist (eventsOf i pre) := by
      rw [hevents]
      exact (List.singleton_sublist.2 hc).append (List.singleton_sublist.2 List.mem_cons_self)
    refine h.cycles.not_ends_of_sublist ((hpair.trans hsub).trans (List.sublist_append_left _ _)) (if_pos hst) ?_
    simp [Event.ends, hcst, hid]
  · rcases List.mem_cons.1 hc with heq | hc
    · cases heq
      rw [hst] at hcst
      cases hcst
    · exact hq c hc hcst hid

/-- An order that is not ended is on its side of the book. -/
theorem bestPrice_ne_none (h : Orderly (pre ++ post)) (hn : .order n ∈ pre) (hst : n.status = .new)
    (hends : ∀ e ∈ pre, e.ends ≠ some n.orderId) :
    ((LivePipeline.run detectors accounts pre).bookOf n.instrumentId).bestPrice n.side ≠ none := by
  have hsub : (eventsOf n.instrumentId pre).Sublist pre := List.filter_sublist
  have hview := congrFun (congrArg BookView.bestPrice (h.view_bookOf detectors accounts n.instrumentId)) n.side
  have honce := h.cycles.openedOnce
  rw [List.filterMap_append, List.nodup_append] at honce
  have hfind := FlatBook.run_find (fun o ho => h.of_append o (hsub.subset ho)) (honce.1.sublist (hsub.filterMap _))
    (List.mem_filter.2 ⟨hn, decide_eq_true rfl⟩) hst fun e he => hends e (hsub.subset he)
  intro hnone
  exact FlatBook.bestPrice_ne_none (List.mem_of_find?_eq_some hfind) (hview.symm.trans hnone)

/-- The book applies every event. -/
theorem applied {e : Event P} (h : Orderly (pre ++ e :: post)) :
    (((LivePipeline.run detectors accounts pre).bookOf e.instrumentId).apply e).2 = none := by
  have haccepted := accepted detectors accounts h
  rwa [LivePipeline.process_skipped, Option.isSome_eq_false_iff, Option.isNone_iff_eq_none] at haccepted

end Orderly

/-! ## Entries of the spoofing detector -/

namespace SpoofingLayeringDetector

variable [Double P] {d : SpoofingLayeringDetector P} {book : OrderBook P} {e : Event P} {o : Order P} {id id' : Str}

omit [LinearOrder P] in
theorem lookup_eraseTracked_of_ne (h : id ≠ id') : (d.eraseTracked id').1.tracked.lookup id = d.tracked.lookup id := by
  cases ht : d.tracked.lookup id' with
  | none => rw [eraseTracked_of_none ht]
  | some t =>
    rw [eraseTracked_of_some ht]
    exact Finmap.lookup_erase_ne h

/-- An event leaves the entry of an order that it neither opens nor ends. -/
theorem lookup_evaluate (he : ∀ o, e = .order o → o.status ≠ .replaced) (hopens : e.opens ≠ some id) (hends : e.ends ≠ some id) :
    (d.evaluate book e).1.tracked.lookup id = d.tracked.lookup id := by
  cases e with
  | execution x =>
    have hne : id ≠ x.orderId := fun heq => hends (congrArg some heq.symm)
    show ((d.updateAmbient book x.instrumentId x.timestampNs).handleExecution x).tracked.lookup id = _
    unfold handleExecution
    split
    · rfl
    · simp only
      split
      · rw [lookup_eraseTracked_of_ne hne]
        exact Finmap.lookup_insert_of_ne _ hne
      · exact Finmap.lookup_insert_of_ne _ hne
  | order o =>
    cases hst : o.status with
    | new =>
      have hne : id ≠ o.orderId := fun heq => hopens ((if_pos hst).trans (congrArg some heq.symm))
      rw [evaluate_new d book hst]
      exact Finmap.lookup_insert_of_ne _ hne
    | cancelled =>
      have hne : id ≠ o.origOrderId := fun heq => hends ((if_pos hst).trans (congrArg some heq.symm))
      rw [evaluate_cancelled d book hst, handleCancel_fst, lookup_eraseTracked_of_ne hne]
      rfl
    | replaced => exact absurd hst (he o rfl)

/-- A New makes an entry with the best price of the other side. -/
theorem lookup_evaluate_new (d : SpoofingLayeringDetector P) (book : OrderBook P) (hst : o.status = .new) :
    ∃ t, (d.evaluate book (.order o)).1.tracked.lookup o.orderId = some t ∧ t.side = o.side ∧
      t.oppositeBestAtPlacement = book.bestPrice o.side.opposite := by
  rw [evaluate_new d book hst]
  exact ⟨_, Finmap.lookup_insert _, rfl, rfl⟩

end SpoofingLayeringDetector

namespace Orderly

variable [Double P] {detectors : List (IDetector P)} {k : ℕ} {config : SpoofingLayeringConfig P} {pre mid post : List (Event P)}
  {n : Order P}

/-- Until an order is ended, there is an entry of it with the best price of the other side when it was placed. -/
theorem entry_of_placed (accounts : AccountRegistry) (hk : detectors[k]? = some (SpoofingLayeringDetector.make config).object)
    (h : Orderly (pre ++ .order n :: mid ++ post)) (hst : n.status = .new) (hends : ∀ e ∈ mid, e.ends ≠ some n.orderId) :
    ∃ (d : SpoofingLayeringDetector P) (t : TrackedOrder P),
      (LivePipeline.run detectors accounts (pre ++ .order n :: mid)).detectors[k]? = some d.object ∧ d.config = config ∧
      d.tracked.lookup n.orderId = some t ∧ t.side = n.side ∧ t.oppositeBestAtPlacement =
        ((LivePipeline.run detectors accounts (pre ++ [.order n])).bookOf n.instrumentId).bestPrice n.side.opposite := by
  have hrun := LivePipeline.run_spoofing accounts (fun l d => d.config = config ∧ ∀ m, l = pre ++ .order n :: m →
    ∃ t, d.tracked.lookup n.orderId = some t ∧ t.side = n.side ∧ t.oppositeBestAtPlacement =
      ((LivePipeline.run detectors accounts (pre ++ [.order n])).bookOf n.instrumentId).bestPrice n.side.opposite) hk
    ⟨rfl, fun m hm => absurd hm (by simp)⟩ (pre ++ .order n :: mid) ?_
  · obtain ⟨d, hd, hconfig, hentry⟩ := hrun
    obtain ⟨t, ht, hside, hbest⟩ := hentry mid rfl
    exact ⟨d, t, hd, hconfig, ht, hside, hbest⟩
  · intro l e d hl _ hI
    obtain ⟨hconfig, hentry⟩ := hI
    obtain ⟨rest, hrest⟩ := hl
    have hlast : Orderly (l ++ e :: (rest ++ post)) := by
      rw [← hrest] at h
      simpa using h
    rw [if_pos (hlast.applied detectors accounts)]
    refine ⟨(SpoofingLayeringDetector.evaluate_config _ _ _).trans hconfig, ?_⟩
    intro m hm
    rcases List.eq_nil_or_concat' m with rfl | ⟨m, a, rfl⟩
    · obtain ⟨rfl, heq⟩ := List.append_inj' hm rfl
      obtain rfl := List.singleton_injective heq
      obtain ⟨t, ht, hside, hbest⟩ := SpoofingLayeringDetector.lookup_evaluate_new d
        (((LivePipeline.run detectors accounts l).bookOf n.instrumentId).apply (.order n)).1 hst
      refine ⟨t, ht, hside, hbest.trans ?_⟩
      rw [LivePipeline.run_concat]
      exact congrArg (fun b => OrderBook.bestPrice b n.side.opposite) (LivePipeline.process_bookOf_self _ (.order n)).symm
    · rw [← List.cons_append, ← List.append_assoc] at hm
      obtain ⟨rfl, heq⟩ := List.append_inj' hm rfl
      obtain rfl := List.singleton_injective heq
      have hmem : e ∈ mid := by
        rw [List.append_assoc, List.append_assoc, List.append_cancel_left_eq, List.cons_append, List.cons.injEq] at hrest
        rw [← hrest.2]
        simp
      have hnew : Event.opens (.order n) = some n.orderId := if_pos hst
      have hopens : e.opens ≠ some n.orderId := fun ho =>
        (hlast.cycles.fresh ho (.order n) (List.mem_append_right _ List.mem_cons_self)).1 hnew
      have hkept : ∀ o, e = .order o → o.status ≠ .replaced := fun o ho =>
        (hlast.kept o (ho ▸ List.mem_append_right _ List.mem_cons_self)).1
      rw [SpoofingLayeringDetector.lookup_evaluate hkept hopens (hends e hmem)]
      exact hentry m rfl

end Orderly

end TradeSurveillance
