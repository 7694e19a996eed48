import TradeSurveillance.Lemmas.OrderlyReplay
import TradeSurveillance.Lemmas.SimulatedOrders

/-!
# Generated sessions replay cleanly

Sorting by time, orders before executions, keeps the life cycles of the orders of a session (`sortedItems_cycles`), so the events it is
replayed as are in good order (`Orderly`), and the pipeline accepts each of them.
-/

namespace TradeSurveillance

open Harness Simulator

variable {P : Type}

/-! ## Items in the order of time -/

namespace Simulator

variable {out : ScenarioOutput P} {simulation : SimulationOutput P}

/-- The simulation has the orders and the executions of an output, each sorted by time. -/
structure SortedFrom (simulation : SimulationOutput P) (out : ScenarioOutput P) : Prop where
  orders : simulation.orders = StableSort.sortBy (·.timestampNs) out.orders
  executions : simulation.executions = StableSort.sortBy (·.timestampNs) out.executions

/-- Sorting keeps the life cycles, also where times are equal. -/
theorem SortedFrom.sortedItems_cycles (h : SortedFrom simulation out) (hout : LifeCycle Item.opens Item.ends Item.Follows out.items) :
    LifeCycle Item.opens Item.ends Item.Follows (sortedItems simulation) := by
  have hitems : simulation.orders.map Item.order ++ simulation.executions.map Item.execution =
      StableSort.sortBy Item.timestampNs (out.orders.map Item.order) ++
        StableSort.sortBy Item.timestampNs (out.executions.map Item.execution) := by
    rw [h.orders, h.executions, StableSort.sortBy_map, StableSort.sortBy_map]
    rfl
  unfold sortedItems
  rw [hitems]
  refine (hout.rearrange ?_ fun n e _ hne hsub => ?_).sort fun n e hne => hne.timestampNs
  · exact (StableSort.sortBy_perm _ _).append (StableSort.sortBy_perm _ _)
  · exact StableSort.sublist_sortBy_append _ hsub (by simp [hne.timestampNs])

end Simulator

/-! ## Events -/

namespace Harness

/-- An order of the list has a side under its id. -/
theorem lookup_sideByOrderId {orders : List (Simulator.Order P)} {o : Simulator.Order P} (ho : o ∈ orders) :
    ∃ side, (sideByOrderId orders).lookup o.orderId = some side := by
  unfold sideByOrderId
  induction orders using List.reverseRecOn with
  | nil => nomatch ho
  | append_singleton orders o' ih =>
    rw [List.foldl_append, List.foldl_cons, List.foldl_nil]
    by_cases hid : o.orderId = o'.orderId
    · exact ⟨_, by rw [hid]; exact Finmap.lookup_insert _⟩
    · rw [Finmap.lookup_insert_of_ne _ hid]
      rcases List.mem_append.1 ho with ho | ho
      · exact ih ho
      · exact absurd (congrArg Simulator.Order.orderId (List.mem_singleton.1 ho)) hid

/-- The event of an item whose order has a side. -/
def eventOf (sides : Map Str Side) : Item P → Event P
  | .order o => .order (toFixOrder o)
  | .execution x => .execution (toFixExecution x ((sides.lookup x.orderId).getD .buy))

variable {sides : Map Str Side}

/-- The event of an item opens what the item opens. -/
theorem eventOf_opens (a : Item P) : (eventOf sides a).opens = a.opens := by
  cases a with
  | execution x => rfl
  | order o => by_cases hst : o.status = .cancelled <;> simp [eventOf, Event.opens, Item.opens, toFixOrder, hst]

/-- It ends what the item ends. -/
theorem eventOf_ends (a : Item P) : (eventOf sides a).ends = a.ends := by
  cases a with
  | execution x => rfl
  | order o => by_cases hst : o.status = .cancelled <;> simp [eventOf, Event.ends, Item.ends, toFixOrder, hst]

/-- What follows an order as an item ends it as an event. -/
theorem eventOf_endedBy {n e : Item P} (h : n.Follows e) : (eventOf sides n).EndedBy (eventOf sides e) where
  instrumentId := by
    have hinst : ∀ a : Item P, (eventOf sides a).instrumentId = a.instrumentId := fun a => by cases a <;> rfl
    rw [hinst, hinst, h.instrumentId]
  qty := by
    intro x hx
    have hqty : (eventOf sides n).qty = n.qty := by cases n <;> rfl
    cases e with
    | order o => nomatch hx
    | execution x' =>
      cases hx
      rw [hqty]
      exact h.qty x' rfl

/-- Life cycles of orders are replayed in good order. -/
theorem orderly_map_eventOf {items : List (Item P)} (h : LifeCycle Item.opens Item.ends Item.Follows items) :
    Orderly (items.map (eventOf sides)) where
  cycles := h.map (fun a _ => eventOf_opens a) (fun a _ => eventOf_ends a) fun _ _ => eventOf_endedBy
  kept := by
    intro o ho
    obtain ⟨a, -, heq⟩ := List.mem_map.1 ho
    cases a with
    | execution x => nomatch heq
    | order o' =>
      cases heq
      refine ⟨?_, rfl⟩
      unfold toFixOrder
      simp only
      split_ifs <;> exact nofun

/-- Where every execution is of an order, no side is missing. -/
theorem toIngestionEvents_eq {simulation : SimulationOutput P} (h : LifeCycle Item.opens Item.ends Item.Follows (sortedItems simulation)) :
    toIngestionEvents simulation = .ok ((sortedItems simulation).map (eventOf (sideByOrderId simulation.orders))) := by
  refine mapM_eq_ok ?_
  intro a ha
  cases a with
  | order o => rfl
  | execution x =>
    obtain ⟨n, hn, -, hsub⟩ := h.caused _ ha x.orderId rfl
    cases n with
    | execution x' => nomatch hn
    | order o =>
      have hid : o.orderId = x.orderId := by
        unfold Item.opens at hn
        simp only at hn
        split_ifs at hn
        exact Option.some.inj hn
      have ho : o ∈ simulation.orders := by
        have hmem := hsub.subset List.mem_cons_self
        unfold sortedItems at hmem
        rw [StableSort.mem_sortBy] at hmem
        simpa using hmem
      obtain ⟨side, hside⟩ := lookup_sideByOrderId ho
      rw [hid] at hside
      simp only [toEvent, eventOf, hside, Option.getD_some]

end Harness

/-! ## The replay -/

/-- What it is for a replay to be clean, whatever the detectors and the accounts of the pipeline. -/
structure ReplaysCleanly [LinearOrder P] (detectors : List (IDetector P)) (accounts : AccountRegistry) (events : List (Event P)) :
    Prop where
  /-- No event is skipped as inconsistent, and none is counted as that. -/
  accepted : ∀ pre e post, events = pre ++ e :: post →
    ((LivePipeline.run detectors accounts pre).process e).2.skippedInconsistent = false
  none_skipped : (LivePipeline.run detectors accounts events).inconsistentEventsSkipped = 0
  /-- A New has an id that no event before it has. -/
  fresh : ∀ pre o post, events = pre ++ .order o :: post → o.status = .new → ∀ e ∈ pre, e.orderId ≠ o.orderId
  /-- A Cancel or an execution has the New of its order before it. -/
  caused : ∀ pre e post, events = pre ++ e :: post → (∀ o, e = .order o → o.status ≠ .new) →
    ∃ n, .order n ∈ pre ∧ n.status = .new ∧ n.orderId = e.orderId
  /-- An execution is of a resting order that has at least its quantity. -/
  resting : ∀ pre x post, events = pre ++ .execution x :: post → ∃ entry node,
    ((LivePipeline.run detectors accounts pre).bookOf x.instrumentId).target x.orderId = some (entry, node) ∧ x.qty ≤ node.resting.qty

namespace Orderly

variable {events : List (Event P)}

/-- The id of an event is opened or ended by it. -/
theorem opens_or_ends (h : Orderly events) {e : Event P} (he : e ∈ events) : e.opens = some e.orderId ∨ e.ends = some e.orderId := by
  cases e with
  | execution x => exact .inr rfl
  | order o =>
    obtain ⟨hne, hid⟩ := h.kept o he
    cases hst : o.status with
    | new => exact .inl (if_pos hst)
    | cancelled => exact .inr (by simp [Event.ends, Event.orderId, hst, hid])
    | replaced => exact absurd hst hne

/-- Events in life cycles replay cleanly, whatever the detectors. -/
theorem replaysCleanly [LinearOrder P] (h : Orderly events) (detectors : List (IDetector P)) (accounts : AccountRegistry) :
    ReplaysCleanly detectors accounts events where
  accepted := fun _ _ _ hevents => accepted detectors accounts (hevents ▸ h)
  none_skipped := h.none_skipped detectors accounts
  fresh := by
    rintro pre o post rfl hst e he hid
    have hfresh := h.cycles.fresh (if_pos hst) e he
    rcases h.opens_or_ends (List.mem_append_left _ he) with ho | ho
    · exact hfresh.1 (ho.trans (congrArg some hid))
    · exact hfresh.2 (ho.trans (congrArg some hid))
  caused := by
    rintro pre e post rfl hnew
    have hends : e.ends = some e.orderId := by
      rcases h.opens_or_ends (List.mem_append_right _ List.mem_cons_self) with ho | ho
      · obtain ⟨o, rfl, hst, -⟩ := Event.opens_eq_some ho
        exact absurd hst (hnew o rfl)
      · exact ho
    obtain ⟨n', hn, hopens, -⟩ := h.cycles.caused_before hends
    obtain ⟨n, rfl, hst, hid⟩ := Event.opens_eq_some hopens
    exact ⟨n, hn, hst, hid⟩
  resting := fun _ _ _ hevents => target_of_execution detectors accounts (hevents ▸ h)

end Orderly

namespace Simulator

section Replay

variable [Double P] [LinearOrder P]

/-- Each severity is between zero and one. -/
def SimulatorConfig.SeveritiesInRange (config : SimulatorConfig P) : Prop :=
  ∀ severity ∈ [config.washTrade.severity, config.spoofingLayering.severity, config.markingTheClose.severity,
    config.frontRunning.severity], 0.0 ≤ severity ∧ severity ≤ 1.0

variable [DoubleRounding P]

/-- A simulation is the sorted output of what was generated. -/
theorem sortedFrom_of_generateSimulation {hash : Str → ℕ} {config : SimulatorConfig P} {draws : SimulationDraws P}
    {simulation : SimulationOutput P} (h : generateSimulation hash config draws = some simulation) :
    ∃ r, generateEvents hash config draws = some r ∧ SortedFrom simulation r.1 := by
  obtain ⟨r, hevents, rfl⟩ := Option.map_eq_some_iff.1 h
  exact ⟨r, hevents, rfl, rfl⟩

variable [RoundedDouble P]

/-- A session that is generated, whatever is drawn, is replayed without an inconsistent event. -/
theorem generated_session_replays_cleanly {hash : Str → ℕ} {config : SimulatorConfig P} (hseverities : config.SeveritiesInRange)
    {draws : SimulationDraws P} {simulation : SimulationOutput P} (h : generateSimulation hash config draws = some simulation)
    (detectors : List (IDetector P)) (accounts : TradeSurveillance.AccountRegistry) :
    ∃ events, toIngestionEvents simulation = .ok events ∧ ReplaysCleanly detectors accounts events := by
  obtain ⟨r, hevents, hsorted⟩ := sortedFrom_of_generateSimulation h
  have hwash := hseverities config.washTrade.severity List.mem_cons_self
  have hspoofing := hseverities config.spoofingLayering.severity (List.mem_cons_of_mem _ List.mem_cons_self)
  have hissued := generateEvents_issued (between_severity hwash.1 hwash.2) (between_severity hspoofing.1 hspoofing.2) hevents
  have hcycles := hsorted.sortedItems_cycles hissued.cycles
  exact ⟨_, toIngestionEvents_eq hcycles, (orderly_map_eventOf hcycles).replaysCleanly detectors accounts⟩

end Replay

/-- One scenario of each kind, over 5 s of baseline. -/
def oneOfEach : SimulatorConfig ℚ where
  sessionDurationNs := 5000000000
  washTrade := { count := 1 }
  spoofingLayering := { count := 1 }
  markingTheClose := { count := 1 }
  frontRunning := { count := 1 }

/-- An order arrives each second: one is filled, one filled in part, one cancelled, and one left. -/
def eachOutcome : SimulationDraws ℚ :=
  let arrival : ℚ → ArrivalDraws ℚ := fun outcome => ⟨1, 0, 0, 0, 0, 0, 0, 1 / 2, 0, outcome, 0, 1, fun _ => 1, 0⟩
  { baseline := [arrival 0, arrival 0.7, arrival 0.8, arrival 1, arrival 0]
    washTrade := fun _ => ⟨0, 0, 0, ⟨0, 0, 0, 0, 0, 0⟩⟩
    spoofingLayering := fun _ => ⟨0, 0, 0, ⟨0, 0, 0, 0, 0, 0, fun _ => 0⟩⟩
    markingTheClose := fun _ => ⟨0, 0, 0, ⟨0, fun _ => 0, fun _ => 0⟩⟩
    frontRunning := fun _ => ⟨0, 0, 0, ⟨0, 0, 0, 0, 0, 0, 0, 0, 0, 0⟩⟩ }

/-- The session has an event for each of 31 orders and Cancels and 15 executions. -/
theorem generated_session_replays_cleanly_each : ∃ simulation events, generateSimulation (fun _ => 0) oneOfEach eachOutcome = some simulation ∧
    simulation.orders.length = 31 ∧ simulation.executions.length = 15 ∧ toIngestionEvents simulation = .ok events ∧
    ReplaysCleanly [] .empty events := by
  have hlength : (generateSimulation (fun _ => 0) oneOfEach eachOutcome).map (fun simulation =>
      (simulation.orders.length, simulation.executions.length)) = some (31, 15) := by
    decide +kernel
  obtain ⟨simulation, hsimulation, hlength⟩ := Option.map_eq_some_iff.1 hlength
  obtain ⟨horders, hexecutions⟩ := Prod.mk.inj hlength
  have hseverities : oneOfEach.SeveritiesInRange := by
    unfold SimulatorConfig.SeveritiesInRange oneOfEach
    decide +kernel
  obtain ⟨events, hevents, hclean⟩ := generated_session_replays_cleanly hseverities hsimulation [] .empty
  exact ⟨simulation, events, hsimulation, horders, hexecutions, hevents, hclean⟩

end Simulator

end TradeSurveillance
