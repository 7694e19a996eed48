import TradeSurveillance.Pipeline.LivePipeline
import TradeSurveillance.Lemmas.BookStep

/-!
# The books of a pipeline

Whatever the detectors do, the book of an instrument is the one its events alone make of a fresh book (`run_bookOf`), and there is
a book for an instrument exactly when an event of it was processed.
-/

namespace TradeSurveillance

variable {P : Type} [LinearOrder P]

/-- Every exception of a book is an `invalid_argument`: no iterator of a book dangles. -/
theorem OrderBook.run_thrown (i : Str) (events : List (Event P)) (e : Event P) {thrown : Thrown}
    (h : ((OrderBook.run i events).apply e).2 = some thrown) : ∃ what, thrown = .invalidArgument what := by
  obtain ⟨L, hL⟩ := OrderBook.run_layout i events
  obtain ⟨L', ha, -⟩ := hL.apply e
  rw [h] at ha
  generalize hb : ((OrderBook.run i events).apply e).1 = b' at ha
  cases ha <;> exact ⟨_, rfl⟩

/-- The events of an instrument. -/
def eventsOf (instrumentId : Str) (events : List (Event P)) : List (Event P) :=
  events.filter fun e => e.instrumentId = instrumentId

section EventsOf

omit [LinearOrder P]

theorem instrumentId_of_mem_eventsOf {i : Str} {events : List (Event P)} {e : Event P} (h : e ∈ eventsOf i events) :
    e.instrumentId = i :=
  of_decide_eq_true (List.mem_filter.1 h).2

theorem eventsOf_concat_self {i : Str} {e : Event P} (events : List (Event P)) (h : e.instrumentId = i) :
    eventsOf i (events ++ [e]) = eventsOf i events ++ [e] := by
  simp [eventsOf, List.filter_append, h]

theorem eventsOf_concat_other {i : Str} {e : Event P} (events : List (Event P)) (h : e.instrumentId ≠ i) :
    eventsOf i (events ++ [e]) = eventsOf i events := by
  simp [eventsOf, List.filter_append, h]

end EventsOf

namespace LivePipeline

variable (p : LivePipeline P)

/-! ## One event -/

/-- The books after an event, skipped or not. -/
theorem process_books (e : Event P) : (p.process e).1.books =
    p.books.insert e.instrumentId ((p.bookOf e.instrumentId).apply e).1 := by
  unfold process
  simp only
  split <;> rfl

@[simp] theorem process_accounts (e : Event P) : (p.process e).1.accounts = p.accounts := by
  unfold process
  simp only
  split <;> rfl

/-- The book of the event's instrument. -/
theorem process_bookOf_self (e : Event P) :
    (p.process e).1.bookOf e.instrumentId = ((p.bookOf e.instrumentId).apply e).1 := by
  rw [bookOf, bookFor, process_books, Finmap.lookup_insert]
  rfl

/-- The book of another instrument. -/
theorem process_bookOf_other {i : Str} {e : Event P} (h : i ≠ e.instrumentId) : (p.process e).1.bookOf i = p.bookOf i := by
  rw [bookOf, bookFor, process_books, Finmap.lookup_insert_of_ne _ h]
  rfl

/-- An event is skipped exactly when the book throws. -/
theorem process_skipped (e : Event P) :
    (p.process e).2.skippedInconsistent = ((p.bookOf e.instrumentId).apply e).2.isSome := by
  unfold process
  simp only
  split <;> rename_i h <;> rw [h] <;> rfl

/-- What a skipped event does besides the book. -/
theorem process_of_thrown {e : Event P} {thrown : Thrown} (h : ((p.bookOf e.instrumentId).apply e).2 = some thrown) :
    (p.process e).1.detectors = p.detectors ∧ (p.process e).2.alerts = [] ∧
      (p.process e).1.inconsistentEventsSkipped = p.inconsistentEventsSkipped + 1 := by
  unfold process
  simp only [h, and_self]

/-- What an event that is not skipped does besides the book. -/
theorem process_of_applied {e : Event P} (h : ((p.bookOf e.instrumentId).apply e).2 = none) :
    let steps := p.detectors.map fun d => d.step ((p.bookOf e.instrumentId).apply e).1 e p.accounts
    (p.process e).1.detectors = steps.map (·.1) ∧ (p.process e).2.alerts = steps.flatMap (·.2) := by
  unfold process
  simp only [h, and_self]

/-! ## A run -/

variable (detectors : List (IDetector P)) (accounts : AccountRegistry)

@[simp] theorem run_concat (events : List (Event P)) (e : Event P) :
    run detectors accounts (events ++ [e]) = ((run detectors accounts events).process e).1 := by
  simp only [run, List.foldl_append, List.foldl_cons, List.foldl_nil]

@[simp] theorem run_accounts (events : List (Event P)) : (run detectors accounts events).accounts = accounts := by
  induction events using List.reverseRecOn with
  | nil => rfl
  | append_singleton events e ih => rw [run_concat, process_accounts, ih]

/-- The book of an instrument is made by its events, whatever the detectors do. -/
theorem run_bookOf (events : List (Event P)) (i : Str) :
    (run detectors accounts events).bookOf i = OrderBook.run i (eventsOf i events) := by
  induction events using List.reverseRecOn with
  | nil => rfl
  | append_singleton events e ih =>
    rw [run_concat]
    by_cases hi : e.instrumentId = i
    · rw [eventsOf_concat_self events hi, OrderBook.run_concat, ← ih, ← hi, process_bookOf_self]
    · rw [eventsOf_concat_other events hi, ← ih, process_bookOf_other _ (Ne.symm hi)]

variable {detectors}

/-- What a detector of a pipeline is called with: events that were not skipped. Each event comes with a note. -/
theorem run_calls {α : Type} {k : ℕ} {d : IDetector P} (hk : detectors[k]? = some d) (events : List (α × Event P)) :
    ∃ calls : List (OrderBook P × α × Event P), (calls.map Prod.snd).Sublist events ∧
      (run detectors accounts (events.map Prod.snd)).detectors[k]? =
        some (calls.foldl (fun d c => (d.step c.1 c.2.2 accounts).1) d) := by
  induction events using List.reverseRecOn with
  | nil => exact ⟨[], .slnil, hk⟩
  | append_singleton events x ih =>
    obtain ⟨calls, hsub, hd⟩ := ih
    rw [List.map_append, List.map_singleton, run_concat]
    generalize hp : run detectors accounts (events.map Prod.snd) = p at hd ⊢
    cases happly : ((p.bookOf x.2.instrumentId).apply x.2).2 with
    | some thrown => exact ⟨calls, hsub.trans (List.sublist_append_left _ _), by rw [(p.process_of_thrown happly).1, hd]⟩
    | none =>
      refine ⟨calls ++ [(((p.bookOf x.2.instrumentId).apply x.2).1, x)], ?_, ?_⟩
      · rw [List.map_append]
        exact hsub.append (List.Sublist.refl _)
      · have haccounts : p.accounts = accounts := by rw [← hp, run_accounts]
        rw [(p.process_of_applied happly).1, List.getElem?_map, List.getElem?_map, hd, haccounts, List.foldl_append]
        rfl

end LivePipeline

end TradeSurveillance
