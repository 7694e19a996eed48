import TradeSurveillance.Lib.LifeCycle
import TradeSurveillance.Lemmas.PipelineBooks
import TradeSurveillance.Theorems.BookRefinement

/-!
# Replays in good order

`Orderly`: the events have no Replace, and are a stream of life cycles: a New opens its order id, a Cancel or an Execution ends it. An
order that is open rests in the book of its instrument with all its quantity (`FlatBook.run_find`), so no event is inconsistent
(`Orderly.accepted`).
-/

namespace TradeSurveillance

variable {P : Type}

namespace Event

/-- The order id of an event. -/
def orderId : Event P → Str
  | .order o => o.orderId
  | .execution x => x.orderId

/-- The order id that a New opens. -/
def opens : Event P → Option Str
  | .order o => if o.status = .new then some o.orderId else none
  | .execution _ => none

/-- The order id that a Cancel or an Execution ends. -/
def ends : Event P → Option Str
  | .order o => if o.status = .cancelled then some o.origOrderId else none
  | .execution x => some x.orderId

/-- What ends an order is of its instrument, and executes at most the order's quantity. -/
structure EndedBy (n e : Event P) : Prop where
  instrumentId : n.instrumentId = e.instrumentId
  qty : ∀ x, e = .execution x → x.qty ≤ n.qty

/-- The event that opens an order is a New with its id. -/
theorem opens_eq_some {e : Event P} {id : Str} (h : e.opens = some id) : ∃ o, e = .order o ∧ o.status = .new ∧ o.orderId = id := by
  cases e with
  | execution x => nomatch h
  | order o =>
    unfold opens at h
    simp only at h
    split_ifs at h with hst
    exact ⟨o, rfl, hst, Option.some.inj h⟩

end Event

structure Orderly (events : List (Event P)) : Prop where
  cycles : LifeCycle Event.opens Event.ends Event.EndedBy events
  kept : ∀ o, .order o ∈ events → o.status ≠ .replaced ∧ o.origOrderId = o.orderId

/-! ## The flat model -/

namespace FlatBook

variable {f : FlatBook P} {id id' : Str} {x : FlatOrder P}

/-- An order found is found with another behind it. -/
theorem find_append_of_some (h : f.find id = some x) (y : FlatOrder P) : find (f ++ [y]) id = some x := by
  unfold find at h ⊢
  rw [List.find?_append, h]
  rfl

/-- An order is found behind others when its id is new. -/
theorem find_append_self (y : FlatOrder P) (h : f.find y.orderId = none) : find (f ++ [y]) y.orderId = some y := by
  unfold find at h ⊢
  rw [List.find?_append, h]
  simp

/-- Deleting another id does not touch the order. -/
theorem find_delete_of_ne (h : id ≠ id') : (f.delete id').find id = f.find id := by
  unfold find delete
  rw [List.find?_filter]
  congr 1
  funext y
  by_cases hy : y.orderId = id
  · simp [hy, h]
  · simp [hy]

/-- Nor does rewriting the order of another id. -/
theorem find_rewrite_of_ne (h : id ≠ id') {g : FlatOrder P → FlatOrder P} (hg : ∀ y, (g y).orderId = y.orderId) :
    (f.rewrite id' g).find id = f.find id := by
  unfold find rewrite
  induction f with
  | nil => rfl
  | cons y f ih =>
    rw [List.map_cons, List.find?_cons, List.find?_cons, ih]
    by_cases hy : y.orderId = id'
    · have hne : ¬y.orderId = id := fun heq => h (heq.symm.trans hy)
      simp [hy, hg, Ne.symm h]
    · simp [hy]

/-- The orders have one id, side and price. -/
structure Same (x y : FlatOrder P) : Prop where
  orderId : x.orderId = y.orderId
  side : x.side = y.side
  price : x.price = y.price

/-- Rewriting keeps ids, sides and prices. -/
theorem mem_rewrite {g : FlatOrder P → FlatOrder P} {y : FlatOrder P} (h : y ∈ f.rewrite id g) (hg : ∀ y, Same y (g y)) :
    ∃ z ∈ f, Same z y := by
  obtain ⟨z, hz, rfl⟩ := List.mem_map.1 h
  refine ⟨z, hz, ?_⟩
  split_ifs
  · exact hg z
  · exact ⟨rfl, rfl, rfl⟩

variable [LinearOrder P]

/-- An order of the next list is one of the list that the event does not cancel, or new. -/
theorem mem_of_apply {f' : FlatBook P} {e : Event P} (he : ∀ o, e = .order o → o.status ≠ .replaced) (h : f.apply e = some f')
    {y : FlatOrder P} (hy : y ∈ f') :
    (∃ z ∈ f, Same z y ∧ ∀ o, e = .order o → o.status = .cancelled → o.origOrderId ≠ y.orderId) ∨
      ∃ n, e = .order n ∧ n.status = .new ∧ y = ofOrder n := by
  cases e with
  | order o =>
    unfold apply at h
    cases hst : o.status with
    | new =>
      simp only [hst] at h
      split_ifs at h
      obtain rfl := Option.some.inj h
      rcases List.mem_append.1 hy with hy | hy
      · refine .inl ⟨y, hy, ⟨rfl, rfl, rfl⟩, ?_⟩
        intro o' heq hst'
        cases heq
        rw [hst] at hst'
        cases hst'
      · exact .inr ⟨o, rfl, hst, List.mem_singleton.1 hy⟩
    | cancelled =>
      simp only [hst] at h
      obtain rfl := Option.some.inj h
      obtain ⟨hy, hne⟩ := List.mem_filter.1 hy
      refine .inl ⟨y, hy, ⟨rfl, rfl, rfl⟩, ?_⟩
      intro o' heq _
      cases heq
      exact fun hid => of_decide_eq_true hne hid.symm
    | replaced => exact absurd hst (he o rfl)
  | execution t =>
    unfold apply at h
    simp only at h
    split at h
    · nomatch h
    · split_ifs at h
      · obtain rfl := Option.some.inj h
        exact .inl ⟨y, List.mem_of_mem_filter hy, ⟨rfl, rfl, rfl⟩, fun o heq => by cases heq⟩
      · obtain rfl := Option.some.inj h
        obtain ⟨z, hz, hsame⟩ := mem_rewrite hy fun _ => ⟨rfl, rfl, rfl⟩
        exact .inl ⟨z, hz, hsame, fun o heq => by cases heq⟩

/-- An event leaves the orders that it does not end. -/
theorem find_of_apply {f' : FlatBook P} {e : Event P} (he : ∀ o, e = .order o → o.status ≠ .replaced) (h : f.apply e = some f')
    (hends : e.ends ≠ some id) (hfind : f.find id = some x) : f'.find id = some x := by
  cases e with
  | order o =>
    unfold apply at h
    cases hst : o.status with
    | new =>
      simp only [hst] at h
      split_ifs at h
      obtain rfl := Option.some.inj h
      exact find_append_of_some hfind _
    | cancelled =>
      simp only [hst] at h
      obtain rfl := Option.some.inj h
      have hne : id ≠ o.origOrderId := fun heq => hends (by simp [Event.ends, hst, heq])
      rw [find_delete_of_ne hne, hfind]
    | replaced => exact absurd hst (he o rfl)
  | execution t =>
    have hne : id ≠ t.orderId := fun heq => hends (by simp [Event.ends, heq])
    unfold apply at h
    simp only at h
    split at h
    · nomatch h
    · split_ifs at h
      · obtain rfl := Option.some.inj h
        rw [find_delete_of_ne hne, hfind]
      · obtain rfl := Option.some.inj h
        rw [find_rewrite_of_ne hne, hfind]
        exact fun _ => rfl

/-! ## Runs of the flat model -/

variable {events : List (Event P)}

/-- An order of a run was placed in it, and no Cancel since then names it. -/
theorem placed_of_mem_run (hkept : ∀ o, .order o ∈ events → o.status ≠ .replaced) {y : FlatOrder P} (hy : y ∈ run events) :
    ∃ n pre post, events = pre ++ .order n :: post ∧ n.status = .new ∧ Same (ofOrder n) y ∧
      ∀ c, .order c ∈ post → c.status = .cancelled → c.origOrderId ≠ n.orderId := by
  induction events using List.reverseRecOn generalizing y with
  | nil => nomatch hy
  | append_singleton events e ih =>
    have hkept' : ∀ o, .order o ∈ events → o.status ≠ .replaced := fun o ho => hkept o (List.mem_append_left _ ho)
    have he : ∀ o, e = .order o → o.status ≠ .replaced := fun o ho => hkept o (ho ▸ List.mem_append_right _ List.mem_cons_self)
    -- an order that rested before the event
    have hold : ∀ z ∈ run events, Same z y → (∀ o, e = .order o → o.status = .cancelled → o.origOrderId ≠ y.orderId) →
        ∃ n pre post, events ++ [e] = pre ++ .order n :: post ∧ n.status = .new ∧ Same (ofOrder n) y ∧
          ∀ c, .order c ∈ post → c.status = .cancelled → c.origOrderId ≠ n.orderId := by
      intro z hz hsame hcancel
      obtain ⟨n, pre, post, rfl, hst, hn, hpost⟩ := ih hkept' hz
      have hid : n.orderId = y.orderId := hn.orderId.trans hsame.orderId
      refine ⟨n, pre, post ++ [e], by rw [List.append_assoc, List.cons_append], hst,
        ⟨hid, hn.side.trans hsame.side, hn.price.trans hsame.price⟩, ?_⟩
      intro c hc hcst
      rcases List.mem_append.1 hc with hc | hc
      · exact hpost c hc hcst
      · rw [hid]
        exact hcancel c (List.mem_singleton.1 hc).symm hcst
    rw [run_concat] at hy
    cases h : (run events).apply e with
    | none =>
      rw [h, Option.getD_none] at hy
      refine hold y hy ⟨rfl, rfl, rfl⟩ ?_
      intro o ho hst
      subst ho
      unfold apply at h
      simp only [hst] at h
      cases h
    | some f' =>
      rw [h, Option.getD_some] at hy
      rcases mem_of_apply he h hy with ⟨z, hz, hsame, hcancel⟩ | ⟨n, rfl, hst, rfl⟩
      · exact hold z hz hsame hcancel
      · exact ⟨n, events, [], rfl, hst, ⟨rfl, rfl, rfl⟩, fun c hc => by cases hc⟩

/-- The orders of a run were opened in it. -/
theorem opened_of_mem_run (hkept : ∀ o, .order o ∈ events → o.status ≠ .replaced) {y : FlatOrder P} (hy : y ∈ run events) :
    ∃ e ∈ events, e.opens = some y.orderId := by
  obtain ⟨n, pre, post, rfl, hst, hn, -⟩ := placed_of_mem_run hkept hy
  refine ⟨.order n, List.mem_append_right _ List.mem_cons_self, ?_⟩
  rw [← hn.orderId]
  exact if_pos hst

/-- An id that no event opens is not in the book. -/
theorem find_run_eq_none (hkept : ∀ o, .order o ∈ events → o.status ≠ .replaced) (hopens : ∀ e ∈ events, e.opens ≠ some id) :
    (run events).find id = none := by
  refine List.find?_eq_none.2 fun y hy hid => ?_
  obtain ⟨e, he, ho⟩ := opened_of_mem_run hkept hy
  exact hopens e he (ho.trans (congrArg some (of_decide_eq_true hid)))

/-- An order that was opened once and not ended rests with all its quantity. -/
theorem run_find (hkept : ∀ o, .order o ∈ events → o.status ≠ .replaced) (honce : (events.filterMap Event.opens).Nodup) {n : Order P}
    (hn : .order n ∈ events) (hst : n.status = .new) (hends : ∀ e ∈ events, e.ends ≠ some n.orderId) :
    (run events).find n.orderId = some (ofOrder n) := by
  induction events using List.reverseRecOn with
  | nil => nomatch hn
  | append_singleton events e ih =>
    have hkept' : ∀ o, .order o ∈ events → o.status ≠ .replaced := fun o ho => hkept o (List.mem_append_left _ ho)
    have he : ∀ o, e = .order o → o.status ≠ .replaced := fun o ho => hkept o (ho ▸ List.mem_append_right _ List.mem_cons_self)
    rw [List.filterMap_append, List.nodup_append] at honce
    have hopens : Event.opens (.order n) = some n.orderId := if_pos hst
    rw [run_concat]
    rcases List.mem_append.1 hn with hn | hn
    · have hfind := ih hkept' honce.1 hn fun e' he' => hends e' (List.mem_append_left _ he')
      cases h : (run events).apply e with
      | none => exact hfind
      | some f' => exact find_of_apply he h (hends e (List.mem_append_right _ List.mem_cons_self)) hfind
    · obtain rfl := List.mem_singleton.1 hn
      have hnew : (run events).find n.orderId = none := by
        refine find_run_eq_none hkept' ?_
        intro e' he' ho
        refine honce.2.2 n.orderId (List.mem_filterMap.2 ⟨e', he', ho⟩) n.orderId ?_ rfl
        exact List.mem_filterMap.2 ⟨.order n, List.mem_cons_self, hopens⟩
      have happly : (run events).apply (.order n) = some (run events ++ [ofOrder n]) := by
        unfold apply
        simp [hst, hnew]
      rw [happly, Option.getD_some]
      exact find_append_self (ofOrder n) hnew

end FlatBook

/-! ## The pipeline -/

/-- An event that is not skipped is not counted. -/
theorem LivePipeline.process_not_skipped [LinearOrder P] {p : LivePipeline P} {e : Event P}
    (h : (p.process e).2.skippedInconsistent = false) : (p.process e).1.inconsistentEventsSkipped = p.inconsistentEventsSkipped := by
  rw [process_skipped, Option.isSome_eq_false_iff, Option.isNone_iff_eq_none] at h
  unfold process
  simp only [h]

namespace Orderly

variable {events pre post : List (Event P)} {e : Event P}

/-- There are no Replaces in the first part either. -/
theorem of_append (h : Orderly (pre ++ post)) : ∀ o, .order o ∈ pre → o.status ≠ .replaced :=
  fun o ho => (h.kept o (List.mem_append_left _ ho)).1

variable [LinearOrder P]

/-- What ends an order finds it open. -/
theorem find_open (h : Orderly (pre ++ e :: post)) {id : Str} (he : e.ends = some id) : ∃ n : Order P, .order n ∈ pre ∧
    n.status = .new ∧ n.orderId = id ∧ (Event.order n).EndedBy e ∧
    (FlatBook.run (eventsOf e.instrumentId pre)).find id = some (FlatBook.ofOrder n) := by
  obtain ⟨n', hn, hopens, hended⟩ := h.cycles.caused_before he
  obtain ⟨n, rfl, hst, rfl⟩ := Event.opens_eq_some hopens
  refine ⟨n, hn, hst, rfl, hended, ?_⟩
  have hsub : (eventsOf e.instrumentId pre).Sublist pre := List.filter_sublist
  refine FlatBook.run_find (fun o ho => h.of_append o (hsub.subset ho)) ?_ ?_ hst ?_
  · have honce := h.cycles.openedOnce
    rw [List.filterMap_append, List.nodup_append] at honce
    exact honce.1.sublist (hsub.filterMap _)
  · exact List.mem_filter.2 ⟨hn, decide_eq_true hended.instrumentId⟩
  · exact fun e' he' => h.cycles.not_ended_before he e' (hsub.subset he')

/-- The flat model rejects no event. -/
theorem flat_accepts (h : Orderly (pre ++ e :: post)) : (FlatBook.run (eventsOf e.instrumentId pre)).apply e ≠ none := by
  have hsub : (eventsOf e.instrumentId pre).Sublist pre := List.filter_sublist
  cases e with
  | order o =>
    unfold FlatBook.apply
    cases hst : o.status with
    | new =>
      have hnew : (FlatBook.run (eventsOf o.instrumentId pre)).find o.orderId = none := FlatBook.find_run_eq_none
        (fun o' ho' => h.of_append o' (hsub.subset ho')) fun e' he' => (h.cycles.fresh (if_pos hst) e' (hsub.subset he')).1
      simp [hst, Event.instrumentId, hnew]
    | cancelled => simp [hst]
    | replaced => exact absurd hst (h.kept o (List.mem_append_right _ List.mem_cons_self)).1
  | execution x =>
    obtain ⟨n, -, -, -, hended, hfind⟩ := h.find_open rfl
    have hqty : ¬x.qty > (FlatBook.ofOrder n).qty := not_lt.2 (hended.qty x rfl)
    unfold FlatBook.apply
    simp only [hfind, if_neg hqty]
    split_ifs <;> simp

/-- The events of an instrument amend its book. -/
theorem amendingRun (h : Orderly (pre ++ post)) (i : Str) : AmendingRun i (eventsOf i pre) := by
  intro p e' hp
  have hmem : e' ∈ eventsOf i pre := hp.subset (List.mem_append_right _ List.mem_cons_self)
  refine ⟨instrumentId_of_mem_eventsOf hmem, ?_⟩
  cases e' with
  | execution x => trivial
  | order o => exact fun hst => absurd hst (h.of_append o (List.mem_of_mem_filter hmem))

variable (detectors : List (IDetector P)) (accounts : AccountRegistry)

/-- No event is skipped as inconsistent. -/
theorem accepted (h : Orderly (pre ++ e :: post)) :
    ((LivePipeline.run detectors accounts pre).process e).2.skippedInconsistent = false := by
  obtain ⟨L, hL, hi, hflat⟩ := run_flat (h.amendingRun e.instrumentId)
  obtain ⟨L', ha, -⟩ := hL.apply e
  have hamends : (flat L).Amends e := by
    cases e with
    | execution x => trivial
    | order o => exact fun hst => absurd hst (h.kept o (List.mem_append_right _ List.mem_cons_self)).1
  have hiff := (flat_apply hL hi ha (by rw [OrderBook.run_instrumentId]) hamends).2
  rw [hflat] at hiff
  rw [LivePipeline.process_skipped, LivePipeline.run_bookOf]
  exact Bool.eq_false_iff.2 fun hthrown => h.flat_accepts (hiff.2 hthrown)

/-- The events of a replay are all counted as consistent. -/
theorem none_skipped (h : Orderly events) : (LivePipeline.run detectors accounts events).inconsistentEventsSkipped = 0 := by
  have hpart : ∀ pre post, events = pre ++ post → (LivePipeline.run detectors accounts pre).inconsistentEventsSkipped = 0 := by
    intro pre
    induction pre using List.reverseRecOn with
    | nil => exact fun _ _ => rfl
    | append_singleton pre e ih =>
      intro post hevents
      rw [List.append_assoc, List.singleton_append] at hevents
      rw [LivePipeline.run_concat, LivePipeline.process_not_skipped (accepted detectors accounts (hevents ▸ h))]
      exact ih _ hevents
  exact hpart events [] (List.append_nil _).symm

/-- An execution names a resting order with at least its quantity. -/
theorem target_of_execution {x : Execution P} (h : Orderly (pre ++ .execution x :: post)) :
    ∃ entry node, ((LivePipeline.run detectors accounts pre).bookOf x.instrumentId).target x.orderId = some (entry, node) ∧
      x.qty ≤ node.resting.qty := by
  obtain ⟨n, -, -, hid, hended, hfind⟩ := h.find_open rfl
  obtain ⟨L, hL, hi, hflat⟩ := run_flat (h.amendingRun x.instrumentId)
  rw [LivePipeline.run_bookOf]
  change (FlatBook.run (eventsOf x.instrumentId pre)).find x.orderId = _ at hfind
  rw [← hflat] at hfind
  obtain ⟨y, hy, hflaty⟩ := List.mem_map.1 (List.mem_of_find?_eq_some hfind)
  have hyid : y.id = x.orderId := (congrArg FlatOrder.orderId hflaty).trans hid
  refine ⟨y.entry, y.node, ?_, ?_⟩
  · rw [← hyid]
    exact hL.target_eq hy (hi y hy)
  · have hqty : y.flat.qty = n.qty := congrArg FlatOrder.qty hflaty
    exact (hended.qty x rfl).trans hqty.ge

end Orderly

end TradeSurveillance
