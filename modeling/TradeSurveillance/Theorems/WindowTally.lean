import TradeSurveillance.Lemmas.ScoringWindow

/-!
# What the scoring detector tallies

`currentWindow` is the tumbling window of a pair's orders, the one that opened it first. The detector's statistics are those of that
window (`tallies_run`) as long as no order falls into a window that was opened at timestamp 0: the detector takes such a window for one
that has not been opened.
-/

namespace TradeSurveillance.MlAnomalyDetector

variable {P : Type}

/-! ## Windows -/

/-- An order joins the window or opens another. -/
def windowStep (width : ℤ) (w : List (Order P)) (o : Order P) : List (Order P) :=
  match w with
  | [] => [o]
  | opener :: _ =>
    if o.timestampNs < opener.timestampNs ∨ o.timestampNs - opener.timestampNs > width then [o] else w ++ [o]

/-- The orders since the one that opened the window. -/
def currentWindow (width : ℤ) (orders : List (Order P)) : List (Order P) := orders.foldl (windowStep width) []

/-- The order falls into a window that was opened at timestamp 0. -/
def JoinsZero (width : ℤ) (w : List (Order P)) (o : Order P) : Prop :=
  ∃ opener, w.head? = some opener ∧ opener.timestampNs = 0 ∧ 0 ≤ o.timestampNs ∧ o.timestampNs ≤ width

/-- The number of New orders of a window. -/
def newCount (w : List (Order P)) : ℤ := (w.filter fun o => o.status = .new).length

/-- The sum of their quantities. -/
def newQty (w : List (Order P)) : ℤ := ((w.filter fun o => o.status = .new).map (·.qty)).sum

/-- The number of Cancels of a window. -/
def cancels (w : List (Order P)) : ℤ := (w.filter fun o => o.status = .cancelled).length

/-- The features are those of the orders of a window. -/
structure ExactFor [Double P] (w : List (Order P)) (features : Map Str P) : Prop where
  orderCount : features.lookup (ascii "order_count") = some (newCount w : P)
  totalQty : features.lookup (ascii "total_qty") = some (newQty w : P)
  avgQty : features.lookup (ascii "avg_qty") = some (if newCount w > 0 then (newQty w : P) / (newCount w : P) else 0.0)
  cancelRatio : features.lookup (ascii "cancel_ratio") = some (if newCount w > 0 then (cancels w : P) / (newCount w : P) else 0.0)

theorem currentWindow_concat (width : ℤ) (orders : List (Order P)) (o : Order P) :
    currentWindow width (orders ++ [o]) = windowStep width (currentWindow width orders) o := by
  rw [currentWindow, List.foldl_append]
  rfl

/-- A window is made of the orders that arrived. -/
theorem mem_of_mem_currentWindow {width : ℤ} {orders : List (Order P)} {o : Order P} (h : o ∈ currentWindow width orders) :
    o ∈ orders := by
  induction orders using List.reverseRecOn with
  | nil => exact h
  | append_singleton orders o' ih =>
    rw [currentWindow_concat] at h
    have hcases : o ∈ currentWindow width orders ∨ o = o' := by
      unfold windowStep at h
      split at h
      · exact .inr (List.mem_singleton.1 h)
      · split at h
        · exact .inr (List.mem_singleton.1 h)
        · exact (List.mem_append.1 h).imp_right List.mem_singleton.1
    rcases hcases with hold | rfl
    · exact List.mem_append_left _ (ih hold)
    · exact List.mem_append_right _ List.mem_cons_self

/-! ## Statistics -/

/-- The statistics count the orders of a window. -/
structure Tallies (stats : WindowStats) (w : List (Order P)) : Prop where
  orderCount : stats.orderCount = newCount w
  totalQty : stats.totalQty = wrap64 (newQty w)
  cancelCount : stats.cancelCount = cancels w

/-- A fresh window has no orders. -/
theorem Tallies.opened {start : ℤ} : Tallies { windowStartNs := start } ([] : List (Order P)) :=
  ⟨rfl, (wrap64_of_isInt64 (show IsInt64 0 by decide)).symm, rfl⟩

/-- The statistics with an order counted. -/
def counted (stats : WindowStats) (o : Order P) : WindowStats :=
  match o.status with
  | .new => { stats with
      orderCount := stats.orderCount + 1
      totalQty := wrap64 (stats.totalQty + o.qty) }
  | .cancelled => { stats with cancelCount := stats.cancelCount + 1 }
  | .replaced => stats

variable {config : MlAnomalyDetectorConfig} {stats : WindowStats} {w : List (Order P)} {o : Order P}

theorem tally_eq (config : MlAnomalyDetectorConfig) (stats : WindowStats) (o : Order P) : tally config stats o =
    counted (if Opens config stats o.timestampNs then { windowStartNs := o.timestampNs } else stats) o := rfl

@[simp] theorem counted_windowStartNs : (counted stats o).windowStartNs = stats.windowStartNs := by
  unfold counted
  split <;> rfl

theorem Tallies.counted (h : Tallies stats w) (o : Order P) : Tallies (counted stats o) (w ++ [o]) := by
  unfold MlAnomalyDetector.counted
  cases hst : o.status with
  | new => constructor <;> simp [newCount, newQty, cancels, hst, h.orderCount, h.totalQty, h.cancelCount]
  | cancelled => constructor <;> simp [newCount, newQty, cancels, hst, h.orderCount, h.totalQty, h.cancelCount]
  | replaced => constructor <;> simp [newCount, newQty, cancels, hst, h.orderCount, h.totalQty, h.cancelCount]

/-- The time at which a window was opened, 0 if there is none. -/
def start (w : List (Order P)) : ℤ := (w.head?.map (·.timestampNs)).getD 0

/-- The statistics follow the window, if no window was opened at timestamp 0 that the order falls into. -/
theorem Tallies.tally (h : Tallies stats w) (hstart : stats.windowStartNs = start w) (hzero : ¬JoinsZero config.windowDurationNs w o) :
    Tallies (tally config stats o) (windowStep config.windowDurationNs w o) ∧
      (MlAnomalyDetector.tally config stats o).windowStartNs = start (windowStep config.windowDurationNs w o) := by
  rw [tally_eq, counted_windowStartNs]
  have hopened : Tallies (MlAnomalyDetector.counted { windowStartNs := o.timestampNs } o) [o] :=
    Tallies.counted (w := []) .opened o
  cases w with
  | nil =>
    rw [if_pos (.inl hstart)]
    exact ⟨hopened, rfl⟩
  | cons opener rest =>
    have hstart : stats.windowStartNs = opener.timestampNs := hstart
    by_cases hopens : o.timestampNs < opener.timestampNs ∨ o.timestampNs - opener.timestampNs > config.windowDurationNs
    · rw [windowStep, if_pos hopens, if_pos (.inr (hstart ▸ hopens))]
      exact ⟨hopened, rfl⟩
    · have hjoins : ¬Opens config stats o.timestampNs := by
        rw [Opens, hstart]
        rintro (hz | hreopens)
        · rw [not_or, hz] at hopens
          exact hzero ⟨opener, rfl, hz, by omega, by omega⟩
        · exact hopens hreopens
      rw [windowStep, if_neg hopens, if_neg hjoins]
      exact ⟨h.counted o, hstart⟩

variable [Double P]

/-- What the features of a tally say, if the sum of the window is an `int64_t`. -/
theorem Tallies.exactFor (h : Tallies stats w) (hfits : IsInt64 (newQty w)) (config : MlAnomalyDetectorConfig) :
    ExactFor w (features config stats : Map Str P) := by
  obtain ⟨horder, hqty, hcancel⟩ := h
  rw [wrap64_of_isInt64 hfits] at hqty
  constructor
  · rw [features, Finmap.lookup_insert_of_ne _ (by decide), Finmap.lookup_insert_of_ne _ (by decide),
      Finmap.lookup_insert_of_ne _ (by decide), Finmap.lookup_insert_of_ne _ (by decide), Finmap.lookup_insert, horder]
  · rw [features, Finmap.lookup_insert_of_ne _ (by decide), Finmap.lookup_insert_of_ne _ (by decide),
      Finmap.lookup_insert_of_ne _ (by decide), Finmap.lookup_insert, hqty]
  · rw [features, Finmap.lookup_insert_of_ne _ (by decide), Finmap.lookup_insert_of_ne _ (by decide), Finmap.lookup_insert, horder,
      hqty]
  · rw [features, Finmap.lookup_insert_of_ne _ (by decide), Finmap.lookup_insert, horder, hcancel]

/-! ## Every run -/

/-- The detector after orders, each with its book. -/
def after (config : MlAnomalyDetectorConfig) (calls : List (OrderBook P × Order P)) : MlAnomalyDetector P :=
  calls.foldl (fun d c => (d.evaluate c.1 (.order c.2)).1) (make config)

/-- The window of the orders of some calls. -/
def windowOf (config : MlAnomalyDetectorConfig) (calls : List (OrderBook P × Order P)) : List (Order P) :=
  currentWindow config.windowDurationNs (calls.map Prod.snd)

variable {account instrument : Str} {calls : List (OrderBook P × Order P)}

theorem after_concat (config : MlAnomalyDetectorConfig) (calls : List (OrderBook P × Order P)) (c : OrderBook P × Order P) :
    after config (calls ++ [c]) = (after config calls).handleOrder c.2 c.1.snapshotSequence := by
  rw [after, List.foldl_append]
  rfl

/-- The detector keeps the window of the pair. -/
theorem tallies_run (config : MlAnomalyDetectorConfig) (hpair : ∀ c ∈ calls, c.2.accountId = account ∧ c.2.instrumentId = instrument)
    (hzero : ∀ pre c, pre ++ [c] <+: calls → ¬JoinsZero config.windowDurationNs (windowOf config pre) c.2) :
    (after config calls).config = config ∧
      let stats := ((after config calls).statsByKey.lookup (pairKey account instrument)).getD {}
      Tallies stats (windowOf config calls) ∧ stats.windowStartNs = start (windowOf config calls) := by
  induction calls using List.reverseRecOn with
  | nil => exact ⟨rfl, .opened, rfl⟩
  | append_singleton calls c ih =>
    obtain ⟨hconfig, htallies, hstart⟩ := ih (fun c' hc' => hpair c' (List.mem_append_left _ hc'))
      fun pre c' hpre => hzero pre c' (hpre.trans (List.prefix_append _ _))
    obtain ⟨rfl, rfl⟩ := hpair c (List.mem_append_right _ List.mem_cons_self)
    have hwindow : windowOf config (calls ++ [c]) = windowStep config.windowDurationNs (windowOf config calls) c.2 := by
      rw [windowOf, List.map_append, List.map_singleton, currentWindow_concat]
      rfl
    rw [after_concat, handleOrder_eq _ _ _ rfl, Finmap.lookup_insert, Option.getD_some, hconfig, hwindow]
    exact ⟨rfl, htallies.tally hstart (hzero calls c (List.prefix_refl _))⟩

/-- For orders of one pair none of which falls into a window opened at timestamp 0 or takes the sum of its window out of `int64_t`:
whatever is submitted with an order has the exact features of the window the order is in. -/
theorem window_tally_exact (config : MlAnomalyDetectorConfig) (account instrument : Str) (calls : List (OrderBook P × Order P))
    (hpair : ∀ c ∈ calls, c.2.accountId = account ∧ c.2.instrumentId = instrument)
    (hzero : ∀ pre c, pre ++ [c] <+: calls → ¬JoinsZero config.windowDurationNs (windowOf config pre) c.2)
    (hfits : ∀ pre c, pre ++ [c] <+: calls → IsInt64 (newQty (windowOf config (pre ++ [c])))) :
    ∀ pre c, pre ++ [c] <+: calls → (after config (pre ++ [c])).submitted = (after config pre).submitted ∨
      ∃ r, (after config (pre ++ [c])).submitted = (after config pre).submitted ++ [r] ∧
        ExactFor (windowOf config (pre ++ [c])) r.windowFeatures := by
  intro pre c hpre
  have hpair' : ∀ c' ∈ pre ++ [c], c'.2.accountId = account ∧ c'.2.instrumentId = instrument := fun c' hc' => hpair c' (hpre.subset hc')
  obtain ⟨hconfig, htallies, -⟩ := tallies_run config hpair' fun pre' c' hpre' => hzero pre' c' (hpre'.trans hpre)
  obtain ⟨rfl, rfl⟩ := hpair' c (List.mem_append_right _ List.mem_cons_self)
  rw [after_concat, handleOrder_eq _ _ _ rfl] at hconfig htallies ⊢
  rw [Finmap.lookup_insert, Option.getD_some] at htallies
  simp only
  split_ifs
  · exact .inr ⟨_, rfl, htallies.exactFor (hfits pre c hpre) _⟩
  · exact .inl (List.append_nil _)

/-! ## Runs on fixed inputs -/

/-- A New order of ten shares at a time, always of one pair. -/
def newOrderAt (timestampNs : ℤ) : OrderBook ℚ × Order ℚ :=
  (.make (ascii "X"), {
    orderId := []
    accountId := ascii "ACC"
    instrumentId := ascii "X"
    side := .buy
    price := 100
    qty := 10
    orderType := .limit
    timestampNs := timestampNs
    status := .new
    venue := []
    origOrderId := [] })

/-- A window opened at timestamp 1: what is submitted with the fifth order counts five. -/
theorem window_tally_exact_fifth :
    let calls := [1, 2, 3, 4].map newOrderAt ++ [newOrderAt 5]
    ∃ r, (after {} calls).submitted = [r] ∧ ExactFor (windowOf {} calls) r.windowFeatures := by
  intro calls
  have hcalls : ∀ c ∈ calls, c.2.accountId = ascii "ACC" ∧ c.2.instrumentId = ascii "X" ∧ c.2.timestampNs ≠ 0 := by
    decide +kernel
  have hfifth := window_tally_exact {} (ascii "ACC") (ascii "X") calls (fun c hc => ⟨(hcalls c hc).1, (hcalls c hc).2.1⟩) ?_ ?_
    ([1, 2, 3, 4].map newOrderAt) (newOrderAt 5) (List.prefix_refl _)
  · have hnone : (after {} ([1, 2, 3, 4].map newOrderAt)).submitted.length = 0 := by decide +kernel
    have hone : (after {} calls).submitted.length = 1 := by decide +kernel
    rw [List.eq_nil_of_length_eq_zero hnone] at hfifth
    rcases hfifth with hnil | hr
    · rw [hnil] at hone
      nomatch hone
    · exact hr
  · rintro pre c hpre ⟨opener, hopener, hts, -⟩
    obtain ⟨c', hc', rfl⟩ := List.mem_map.1 (mem_of_mem_currentWindow (List.mem_of_mem_head? hopener))
    exact (hcalls c' (hpre.subset (List.mem_append_left _ hc'))).2.2 hts
  · intro pre c hpre
    have hwindows : ∀ before ∈ calls.inits, IsInt64 (newQty (windowOf {} before)) := by decide +kernel
    exact hwindows _ ((List.mem_inits _ _).2 hpre)

/-- A window opened at timestamp 0 is opened again by the next order: what is submitted with the sixth counts five. -/
theorem zero_window_reopened :
    let calls := [0, 1, 2, 3, 4, 5].map newOrderAt
    newCount (windowOf {} calls) = 6 ∧ (after {} calls).submitted.map (fun r => r.windowFeatures.lookup (ascii "order_count")) = [some 5] ∧
      ∀ r ∈ (after {} calls).submitted, ¬ExactFor (windowOf {} calls) r.windowFeatures := by
  intro calls
  have hsix : newCount (windowOf {} calls) = 6 := by decide +kernel
  have hcount : (after {} calls).submitted.map (fun r => r.windowFeatures.lookup (ascii "order_count")) = [some 5] := by decide +kernel
  refine ⟨hsix, hcount, ?_⟩
  intro r hr hexact
  have hfive : r.windowFeatures.lookup (ascii "order_count") = some 5 := by
    have hmem := List.mem_map_of_mem (f := fun r : ScoringRequest ℚ => r.windowFeatures.lookup (ascii "order_count")) hr
    rw [hcount] at hmem
    exact List.mem_singleton.1 hmem
  rw [hexact.orderCount, hsix] at hfive
  exact absurd hfive (by decide +kernel)

end TradeSurveillance.MlAnomalyDetector
