import Mathlib.Data.List.DropRight
import TradeSurveillance.Lemmas.ConsumerFold
import TradeSurveillance.Lemmas.LoopRun

/-!
# What the server shows of a book

The readers of a `LiveBookRegistry` take its lock between two events. `book_feed`: whatever the interleaving with the thread that
pushes, they see the last events of an instrument and the book these events made, and nothing of any other instrument.
-/

namespace TradeSurveillance

variable {P : Type}

/-! ## The last elements of a list -/

theorem rtake_rtake {α : Type} (l : List α) (m n : ℕ) : (l.rtake n).rtake m = l.rtake (min m n) := by
  simp only [List.rtake, List.length_drop, List.drop_drop]
  congr 1
  omega

/-- Where one more element joins the last ones, the last ones of these are the last ones of all. -/
theorem rtake_concat_rtake {α : Type} (l : List α) (x : α) (n : ℕ) : (l.rtake n ++ [x]).rtake n = (l ++ [x]).rtake n := by
  cases n with
  | zero => simp [List.rtake]
  | succ n => simp only [List.rtake_concat_succ, rtake_rtake, Nat.min_eq_left (Nat.le_succ n)]

/-! ## One event -/

namespace LiveBookRegistry

/-- The feed of an instrument. -/
def feedOf (r : LiveBookRegistry P) (instrumentId : Str) : List (BookEvent P) :=
  (r.recentEventsByInstrument.lookup instrumentId).getD []

/-- The recent events are the last ones of the feed, as many as are asked for. -/
theorem recentEvents_eq (r : LiveBookRegistry P) (instrumentId : Str) (limit : ℕ) :
    r.recentEvents instrumentId limit = (r.feedOf instrumentId).rtake limit := by
  simp only [recentEvents, feedOf, List.rtake]
  congr 1
  omega

@[simp] theorem toBookEvent_instrumentId (e : Event P) : (toBookEvent e).instrumentId = e.instrumentId := by cases e <;> rfl

/-- An event joins the feed of its instrument. -/
theorem feedOf_recordEvent (r : LiveBookRegistry P) (e : Event P) (i : Str) : (r.recordEvent e).feedOf i =
    if e.instrumentId = i then (r.feedOf i ++ [toBookEvent e]).rtake maxEventsPerInstrument else r.feedOf i := by
  unfold recordEvent feedOf
  simp only [toBookEvent_instrumentId]
  split
  case isTrue hi => rw [← hi, Finmap.lookup_insert, Option.getD_some, List.rtake, toBookEvent_instrumentId]
  case isFalse hi => rw [Finmap.lookup_insert_of_ne _ (Ne.symm hi)]

/-- The part of a registry that is like a `LiveConsumer`. -/
def consumer (r : LiveBookRegistry P) : LiveConsumer P := ⟨r.pipeline, r.alerts, r.eventsProcessed, r.eventsSkippedInconsistent⟩

/-- The registry does with an event what a `LiveConsumer` does. -/
theorem consumer_processOne [LinearOrder P] (r : LiveBookRegistry P) (e : Event P) :
    (r.processOne e).consumer = (r.consumer.processOne e).1 := by
  unfold processOne LiveConsumer.processOne
  cases h : (r.pipeline.process e).2.skippedInconsistent <;> simp [consumer, recordEvent, h]

/-- The feeds change by the event recorded only. -/
theorem feedOf_processOne [LinearOrder P] (r : LiveBookRegistry P) (e : Event P) (i : Str) :
    (r.processOne e).feedOf i = (r.recordEvent e).feedOf i := by
  unfold processOne
  simp only
  split <;> rfl

end LiveBookRegistry

/-! ## A run -/

variable [LinearOrder P]

/-- There is a book for an instrument from its first event on. -/
theorem LivePipeline.run_bookFor (detectors : List (IDetector P)) (accounts : AccountRegistry) (events : List (Event P)) (i : Str) :
    (run detectors accounts events).bookFor i =
      if eventsOf i events = [] then none else some (OrderBook.run i (eventsOf i events)) := by
  induction events using List.reverseRecOn with
  | nil => rfl
  | append_singleton events e ih =>
    rw [run_concat, bookFor, process_books]
    by_cases hi : e.instrumentId = i
    · rw [hi, Finmap.lookup_insert, run_bookOf, eventsOf_concat_self events hi, OrderBook.run_concat]
      simp
    · rw [Finmap.lookup_insert_of_ne _ (Ne.symm hi), eventsOf_concat_other events hi]
      exact ih

/-- The feed of an instrument after the events. -/
theorem LiveBookRegistry.feedOf_foldl (r : LiveBookRegistry P) (events : List (Event P)) (i : Str)
    (hr : r.feedOf i = []) : (events.foldl processOne r).feedOf i =
      ((eventsOf i events).map toBookEvent).rtake maxEventsPerInstrument := by
  induction events using List.reverseRecOn with
  | nil => simp [eventsOf, hr]
  | append_singleton events e ih =>
    rw [List.foldl_append, List.foldl_cons, List.foldl_nil, feedOf_processOne, feedOf_recordEvent, ih]
    split
    case isTrue hi => rw [eventsOf_concat_self events hi, List.map_append, List.map_singleton, rtake_concat_rtake]
    case isFalse hi => rw [eventsOf_concat_other events hi]

/-- What a registry shows after the events. -/
structure Feed (r : LiveBookRegistry P) (detectors : List (IDetector P)) (accounts : AccountRegistry) (events : List (Event P)) :
    Prop where
  recent : ∀ instrumentId limit, r.recentEvents instrumentId limit =
    ((eventsOf instrumentId events).map toBookEvent).rtake (min limit maxEventsPerInstrument)
  snapshot : ∀ instrumentId, r.snapshot instrumentId = if eventsOf instrumentId events = [] then none
    else some (OrderBook.run instrumentId (eventsOf instrumentId events)).snapshot
  alerts : r.alerts = (LivePipeline.make detectors accounts).alertsOf events
  counted : r.eventsProcessed = BitVec.ofNat 64 events.length ∧ r.eventsSkippedInconsistent =
    BitVec.ofNat 64 (((LivePipeline.make detectors accounts).trace events).countP (·.2.skippedInconsistent))

/-- The registry shows the feed of the events. -/
theorem LiveBookRegistry.feed_foldl (detectors : List (IDetector P)) (accounts : AccountRegistry) (events : List (Event P)) :
    Feed (events.foldl processOne (make (.make detectors accounts))) detectors accounts events := by
  generalize hr : events.foldl processOne (make (.make detectors accounts)) = r
  have hconsumer : r.consumer = events.foldl (fun c e => (c.processOne e).1) (.make (.make detectors accounts)) := by
    rw [← hr]
    exact (List.foldl_hom consumer fun r e => (consumer_processOne r e).symm).symm
  have hpipeline : r.pipeline = LivePipeline.run detectors accounts events := by
    rw [← hr]
    refine (List.foldl_hom LiveBookRegistry.pipeline fun r e => ?_).symm
    exact (congrArg LiveConsumer.pipeline ((r.consumer_processOne e).trans (LiveConsumer.processOne_eq _ _))).symm
  obtain ⟨halerts, hprocessed, hskipped⟩ := LiveConsumer.foldl_processOne (.make (.make detectors accounts)) events
  rw [← hconsumer] at halerts hprocessed hskipped
  refine ⟨fun i limit => ?_, fun i => ?_, halerts, hprocessed.trans (BitVec.zero_add _), hskipped.trans (BitVec.zero_add _)⟩
  · rw [recentEvents_eq, ← hr, feedOf_foldl _ events i rfl, rtake_rtake]
  · rw [snapshot, hpipeline, LivePipeline.run_bookFor, apply_ite (Option.map OrderBook.snapshot)]
    rfl

/-- Whatever the interleaving of the two threads, a reader that takes the lock sees the feed and the book of the events processed so
far. -/
theorem book_feed [Double P] {moved : Event P → Event P} {capacity : Word} {detectors : List (IDetector P)}
    {accounts : AccountRegistry} {s : ConsumerLoop (Event P) (LiveBookRegistry P)} {log : List (LoopEvent (Event P))}
    (hr : (LiveBookRegistry.run moved capacity (.make (.make detectors accounts))).Run s log) :
    Feed s.consumer detectors accounts (processed log) := by
  obtain ⟨units, hunits, hconsumer⟩ := run_consumer hr
  rw [hconsumer, foldl_zip_right hunits]
  exact LiveBookRegistry.feed_foldl detectors accounts _

/-- An order is pushed while the consumer is in its first call of `pop`, which finds nothing; the second returns it. -/
theorem book_feed_one : ∃ (s : ConsumerLoop (Event ℚ) (LiveBookRegistry ℚ)) (log : List (LoopEvent (Event ℚ))),
    processed log = [.order (Harness.toFixOrder bought)] ∧
    Feed s.consumer [WashTradeDetector.object] .empty (processed log) := by
  obtain ⟨s, log, hr, hp⟩ := Machine.run_of_exec
    (M := LiveBookRegistry.run id 2 (.make (.make [WashTradeDetector.object] .empty))) ⟨_, rfl, rfl⟩
    (.consumer false () :: .push (Event.order (Harness.toFixOrder bought)) :: List.replicate 2 (.consumer false ()) ++
      List.replicate 5 (.producer false) ++ List.replicate 8 (.consumer false ()))
    (p := fun q => decide (processed q.2 = [Event.order (Harness.toFixOrder bought)])) (by decide +kernel)
  exact ⟨s, log, of_decide_eq_true hp, book_feed hr⟩

end TradeSurveillance
