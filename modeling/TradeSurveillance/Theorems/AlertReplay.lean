import TradeSurveillance.Lemmas.AlertStamps
import TradeSurveillance.Theorems.AtomicRejection
import TradeSurveillance.Theorems.DurableLog

/-!
# Do alerts point to a book that the log reproduces?

An alert names the sequence number of the book it was raised on. The consumer's book counts the events that reach it, the log has
those that arrived: they differ as soon as the ring discards an event. `alerts_reproducible`: replaying the events of the alert's
instrument up to its sequence number gives the book the detector saw, along every run in which no event is delivered behind a discarded
one of its instrument, no Cancel names an order tracked on another instrument, and no sequence number wraps.
-/

namespace TradeSurveillance

variable {P : Type} [LinearOrder P]

/-! ## Replaying -/

namespace OrderBook

/-- Apply events in order, going on with the book as it is after a call that throws, until the sequence number is `n`. -/
def replayUntil (n : ℤ) : OrderBook P → List (Event P) → Option (OrderBook P)
  | b, [] => if b.snapshotSequence = n then some b else none
  | b, e :: events => if b.snapshotSequence = n then some b else replayUntil n (b.apply e).1 events

theorem replayUntil_self (b : OrderBook P) (events : List (Event P)) : replayUntil b.snapshotSequence b events = some b := by
  cases events <;> exact if_pos rfl

/-- Every event of the book's instrument counts. -/
theorem sequence_applyAll {b : OrderBook P} {events : List (Event P)} (h : ∀ e ∈ events, e.instrumentId = b.instrumentId) :
    (b.applyAll events).sequence = b.sequence + BitVec.ofNat 64 events.length := by
  induction events generalizing b with
  | nil => exact (BitVec.add_zero _).symm
  | cons e events ih =>
    have hstamp := congrArg Prod.snd (stamp_apply b e)
    rw [if_pos (h e List.mem_cons_self)] at hstamp
    have hrest : ∀ e' ∈ events, e'.instrumentId = (b.apply e).1.instrumentId := fun e' he' => by
      rw [apply_instrumentId]
      exact h e' (List.mem_cons_of_mem _ he')
    calc (b.applyAll (e :: events)).sequence
        = (b.apply e).1.sequence + BitVec.ofNat 64 events.length := ih hrest
      _ = b.sequence + 1 + BitVec.ofNat 64 events.length := congrArg (· + _) hstamp
      _ = b.sequence + BitVec.ofNat 64 (events.length + 1) := by
        rw [BitVec.add_assoc, BitVec.add_comm 1, ← Counter.ofNat_succ]

/-- The sequence number a book has after fewer than `2 ^ 64` events brings a replay to that book, whatever follows. -/
theorem replayUntil_applyAll {b : OrderBook P} {events : List (Event P)} (rest : List (Event P))
    (h : ∀ e ∈ events, e.instrumentId = b.instrumentId) (hlen : events.length < 2 ^ 64) :
    replayUntil (b.applyAll events).snapshotSequence b (events ++ rest) = some (b.applyAll events) := by
  induction events generalizing b with
  | nil => exact replayUntil_self b rest
  | cons e events ih =>
    have hne : b.snapshotSequence ≠ (b.applyAll (e :: events)).snapshotSequence := by
      intro heq
      have hseq := BitVec.toInt_inj.1 heq
      rw [sequence_applyAll h, BitVec.self_eq_add_right, ← BitVec.toNat_inj, BitVec.toNat_ofNat, Nat.mod_eq_of_lt hlen] at hseq
      exact absurd hseq (by simp)
    have hrest : ∀ e' ∈ events, e'.instrumentId = (b.apply e).1.instrumentId := fun e' he' => by
      rw [apply_instrumentId]
      exact h e' (List.mem_cons_of_mem _ he')
    rw [List.cons_append, replayUntil, if_neg hne]
    exact ih hrest (Nat.lt_of_succ_lt hlen)

end OrderBook

/-- The events of the alert's instrument, replayed up to the alert's sequence number, give a book in which the same orders rest as in
this one. -/
def Alert.Reproduces (alert : Alert P) (events : List (Event P)) (book : OrderBook P) : Prop :=
  ∃ n b, alert.bookSnapshotSequence = some n ∧
    (OrderBook.make alert.instrumentId).replayUntil n (eventsOf alert.instrumentId events) = some b ∧ book.SameResting b

/-! ## What is discarded ahead of an event -/

/-- The elements that the producer claimed before the consumer's last claim. -/
def RingHistory.discardedAhead {α : Type} (h : RingHistory α) : List α :=
  (((h.claims.rdropWhile fun t => t = .producer).zip h.published).filter fun p => decide (p.1 = .producer)).map (·.2)

section Shares

variable {α : Type} {q : α → Bool}

/-- Of the elements with a property that no discarded one has, the consumer's share has all up to a point. -/
theorem filter_share_isPrefix {c t : List Thread} {l : List α} (ht : ∀ x ∈ t, x = .producer)
    (hq : ∀ x ∈ ((c.zip l).filter fun p => decide (p.1 = Thread.producer)).map (·.2), q x = false) :
    ((((c ++ t).zip l).filter fun p => decide (p.1 = Thread.consumer)).map (·.2)).filter q <+: l.filter q := by
  induction c generalizing l with
  | nil =>
    have hnil : ((t.zip l).filter fun p => decide (p.1 = Thread.consumer)) = [] := by
      refine List.filter_eq_nil_iff.2 ?_
      intro p hp
      rw [ht p.1 (List.of_mem_zip hp).1]
      decide
    simp [hnil]
  | cons x c ih =>
    cases l with
    | nil => simp
    | cons y l =>
      cases x with
      | producer =>
        simp only [List.zip_cons_cons, List.filter_cons, decide_true, if_true, List.map_cons, List.forall_mem_cons] at hq
        have := ih hq.2
        simpa [hq.1] using this
      | consumer =>
        have := ih (l := l) (by simpa using hq)
        cases hy : q y <;> simpa [hy] using this

end Shares

/-! ## The condition and what holds under it -/

section Run

variable [Double P] {moved : Event P → Event P} {capacity : Word} {detectors : List (IDetector P)} {accounts : AccountRegistry}
  {s : LiveSystem P} {log : List (SystemEvent P)}

/-- What the steps of a run have to meet: every message is enqueued, and when `pop` returns an event, none of its instrument was
discarded ahead of it, the spoofing detectors track the order it cancels on its instrument, and the book's count does not wrap. -/
def Reproducible (s : LiveSystem P) (log : List (SystemEvent P)) : SystemAction P → Prop
  | .onEvent _ err => err = .noError
  | .consumer _ => ∀ e ∈ s.ring.consumer.inHand,
      (∀ x ∈ (RingHistory.ofLog (ringLog log)).discardedAhead, x.instrumentId ≠ e.instrumentId) ∧
        s.consumer.pipeline.TracksInstrument e ∧ (eventsOf e.instrumentId (popped (ringLog log))).length + 1 < 2 ^ 64
  | _ => True

/-- All that was pushed was enqueued. -/
theorem pushed_eq_enqueued (hr : (liveMachine moved (some .make) capacity detectors accounts).Reach Reproducible s log) :
    pushed (ringLog log) = enqueued log := by
  have hcalls : ∀ c ∈ calls log, c.2 = .noError := by
    induction hr with
    | init _ => exact fun c hc => absurd hc List.not_mem_nil
    | step _ hok hs ih =>
      rw [calls_append]
      refine List.forall_mem_append.2 ⟨ih, ?_⟩
      cases LiveSystem.step_took hs with
      | refused _ => exact List.forall_mem_singleton.2 hok
      | received _ _ _ _ =>
        rw [calls_received, calls_ring]
        exact List.forall_mem_singleton.2 hok
      | buffer _ _ _ => simp
      | returned _ _ _ _ => simp
  rw [run_pushed hr.run, enqueued]
  congr 1
  refine List.filter_congr ?_
  intro c hc
  rw [hcalls c hc]
  rfl

/-- What `pop` returned of an instrument, with the event it is about to return, is what was enqueued of it up to a point. -/
theorem delivered_isPrefix (hr : (liveMachine moved (some .make) capacity detectors accounts).Reach Reproducible s log) {e : Event P}
    (hand : s.ring.consumer.inHand = [e])
    (hahead : ∀ x ∈ (RingHistory.ofLog (ringLog log)).discardedAhead, x.instrumentId ≠ e.instrumentId) :
    eventsOf e.instrumentId (popped (ringLog log) ++ [e]) <+: eventsOf e.instrumentId (enqueued log) := by
  have hring := run_ring hr.run
  have htail : ∀ t ∈ (RingHistory.ofLog (ringLog log)).claims.rtakeWhile fun t => t = .producer, t = .producer := by
    intro t ht
    simpa using List.mem_rtakeWhile_imp ht
  have hshare := filter_share_isPrefix (l := (RingHistory.ofLog (ringLog log)).published)
    (c := (RingHistory.ofLog (ringLog log)).claims.rdropWhile fun t => t = .producer)
    (q := fun x : Event P => decide (x.instrumentId = e.instrumentId)) htail (fun x hx => decide_eq_false (hahead x hx))
  rw [List.rdropWhile_append_rtakeWhile] at hshare
  rw [← share_of_inHand hring hand, ← pushed_eq_enqueued hr, pushed_eq hring]
  refine hshare.trans ?_
  rw [eventsOf, List.filter_append]
  exact List.prefix_append _ _

/-- What is recorded of an event: its book is that of the first events enqueued of its instrument, and its alerts refer to it. -/
structure Recorded (log : List (SystemEvent P)) (e : Event P) (book : OrderBook P) (result : ProcessResult P) (pre : List (Event P)) :
    Prop where
  isPrefix : pre <+: eventsOf e.instrumentId (enqueued log)
  length : pre.length < 2 ^ 64
  book_eq : book = OrderBook.run e.instrumentId pre
  alerts : ∀ alert ∈ result.alerts, alert.RefersTo e.instrumentId book

omit [Double P] in
theorem Recorded.append {e : Event P} {book : OrderBook P} {result : ProcessResult P} {pre : List (Event P)}
    (h : Recorded log e book result pre) (out : List (SystemEvent P)) : Recorded (log ++ out) e book result pre := by
  refine ⟨h.isPrefix.trans ?_, h.length, h.book_eq, h.alerts⟩
  rw [enqueued_append, eventsOf, eventsOf, List.filter_append]
  exact List.prefix_append _ _

/-- Every event that was processed is recorded so. -/
theorem run_recorded (hd : ∀ d ∈ detectors, d.Provided)
    (hr : (liveMachine moved (some .make) capacity detectors accounts).Reach Reproducible s log) (e : Event P) (book : OrderBook P)
    (result : ProcessResult P) (h : .processed e book result ∈ log) : ∃ pre, Recorded log e book result pre := by
  induction hr with
  | init _ => exact absurd h List.not_mem_nil
  | @step s s' log out a hr hok hs ih =>
    rcases List.mem_append.1 h with hold | hnew
    · obtain ⟨pre, hpre⟩ := ih hold
      exact ⟨pre, hpre.append out⟩
    · cases LiveSystem.step_took hs with
      | refused _ => simp at hnew
      | received _ _ _ _ => simp at hnew
      | buffer _ _ _ => simp at hnew
      | @returned spurious ring out event _ hand _ _ =>
        simp only [List.mem_append, List.mem_map, reduceCtorEq, and_false, exists_false, List.mem_singleton, false_or,
          SystemEvent.processed.injEq] at hnew
        obtain ⟨rfl, rfl, rfl⟩ := hnew
        obtain ⟨hahead, htracks, hlen⟩ := hok e (by rw [hand]; exact List.mem_singleton_self e)
        have hpipeline := run_pipeline hr.run
        have hprovided := LivePipeline.run_detectors IDetector.Provided.step hd accounts (popped (ringLog log))
        rw [← hpipeline] at hprovided
        refine ⟨eventsOf e.instrumentId (popped (ringLog log) ++ [e]),
          .append ⟨delivered_isPrefix hr hand hahead, ?_, ?_, fun alert ha => ?_⟩ _⟩
        · rw [eventsOf_concat_self _ rfl, List.length_append]
          exact hlen
        · rw [LiveConsumer.processOne_pipeline, hpipeline, ← LivePipeline.run_concat, LivePipeline.run_bookOf]
        · rw [LiveConsumer.processOne_result] at ha
          rw [LiveConsumer.processOne_pipeline]
          exact LivePipeline.process_refersTo hprovided htracks ha

/-- Along every run whose steps meet the condition, the log holds the messages of the events in the order of their arrival, and every
alert points to a book that they reproduce. -/
theorem alerts_reproducible (hd : ∀ d ∈ detectors, d.Provided)
    (hr : (liveMachine moved (some .make) capacity detectors accounts).Reach Reproducible s log) :
    s.durable = (enqueued log).map encode ∧
      ∀ e book result, .processed e book result ∈ log → ∀ alert ∈ result.alerts, alert.Reproduces (enqueued log) book := by
  refine ⟨by rw [LiveSystem.durable, run_kafka hr.run], ?_⟩
  intro e book result hmem alert ha
  obtain ⟨pre, hrec⟩ := run_recorded hd hr e book result hmem
  obtain ⟨hinst, hseq⟩ := hrec.alerts alert ha
  obtain ⟨rest, hrest⟩ := hrec.isPrefix
  have hmake : ∀ x ∈ pre, x.instrumentId = (OrderBook.make (P := P) e.instrumentId).instrumentId := fun x hx =>
    instrumentId_of_mem_eventsOf (hrest ▸ List.mem_append_left rest hx)
  refine ⟨book.snapshotSequence, book, hseq, ?_, .refl book⟩
  rw [hinst, ← hrest, hrec.book_eq]
  exact OrderBook.replayUntil_applyAll rest hmake hrec.length

end Run

/-! ## Two runs -/

/-- Three events arrive at a buffer of two, so that the first is discarded; then the other two are delivered. -/
def threeIntoTwo (e₁ e₂ e₃ : Event ℚ) : List (SystemAction ℚ) :=
  .onEvent e₁ .noError :: List.replicate 5 (.producer false) ++ .onEvent e₂ .noError :: List.replicate 5 (.producer false) ++
    .onEvent e₃ .noError :: List.replicate 12 (.producer false) ++ .pop :: List.replicate 5 (.consumer false) ++
      .pop :: List.replicate 5 (.consumer false)

/-- The log ends with one alert, numbered 2, at whose number its book and the replay of the log differ in a level. -/
def misnumbers (log : List (SystemEvent ℚ)) : Bool :=
  match log.getLast? with
  | some (.processed _ book ⟨[alert], _⟩) => (∀ c ∈ calls log, c.2 = .noError) ∧
      alert.bookSnapshotSequence = some 2 ∧ book.qtyAtPrice .buy 100 = 3 ∧
      (((OrderBook.make alert.instrumentId).replayUntil 2 (eventsOf alert.instrumentId (enqueued log))).map
        fun b => b.qtyAtPrice .buy 100) = some 15
  | _ => false

/-- Orders A and B on one instrument, then a trade of B: A is discarded, and the alert on the trade names sequence number 2. In the
log, A and B are the first two events. -/
theorem discarded_order_misnumbers :
    ∃ s log, (liveMachine (P := ℚ) id (some .make) 2 [WashTradeDetector.object] .empty).Run s log ∧
      (∀ c ∈ calls log, c.2 = .noError) ∧ ∃ e book result alert, .processed e book result ∈ log ∧ alert ∈ result.alerts ∧
        ¬alert.Reproduces (enqueued log) book := by
  obtain ⟨s, log, hr, hp⟩ := Machine.run_of_exec
    (M := liveMachine (P := ℚ) id (some .make) 2 [WashTradeDetector.object] .empty) ⟨_, rfl, rfl⟩
    (threeIntoTwo (.order (orderOn "X" "A" .new "A" .buy 100 10)) (.order (orderOn "X" "B" .new "B" .buy 100 5))
      (.execution (selfTrade "X" "B" 100 2)))
    (p := fun q => misnumbers q.2) (by decide +kernel)
  refine ⟨s, log, hr, ?_⟩
  simp only [misnumbers] at hp
  split at hp
  · rename_i e book alert skipped hlast
    obtain ⟨hcalls, hseq, hqty, hreplay⟩ := of_decide_eq_true hp
    refine ⟨hcalls, e, book, _, alert, List.mem_of_getLast? hlast, List.mem_singleton_self alert, ?_⟩
    rintro ⟨n, b, hn, hb, hsame⟩
    obtain rfl : 2 = n := Option.some.inj (hseq.symm.trans hn)
    rw [hb, Option.map_some, Option.some.injEq, hsame.qtyAtPrice, hqty] at hreplay
    exact absurd hreplay (by decide)
  · cases hp

/-- The part of the condition that can be computed: all but what the spoofing detectors track. -/
def Reproducible.check [Double P] (s : LiveSystem P) (log : List (SystemEvent P)) : SystemAction P → Bool
  | .onEvent _ err => err = .noError
  | .consumer _ => ∀ e ∈ s.ring.consumer.inHand,
      (∀ x ∈ (RingHistory.ofLog (ringLog log)).discardedAhead, x.instrumentId ≠ e.instrumentId) ∧
        (eventsOf e.instrumentId (popped (ringLog log))).length + 1 < 2 ^ 64
  | _ => true

/-- The same with A on another instrument: A is discarded, and the log reproduces the book of the alert. -/
theorem alerts_reproducible_discarding :
    ∃ s log, (liveMachine (P := ℚ) id (some .make) 2 [WashTradeDetector.object] .empty).Reach Reproducible s log ∧
      ((RingHistory.ofLog (ringLog log)).discarded.length = 1 ∧ s.consumer.alerts.length = 1) ∧
      s.durable = (enqueued log).map encode ∧
        ∀ e book result, .processed e book result ∈ log → ∀ alert ∈ result.alerts, alert.Reproduces (enqueued log) book := by
  have hok : ∀ s log a, (liveMachine (P := ℚ) id (some .make) 2 [WashTradeDetector.object] .empty).Run s log →
      Reproducible.check s log a = true → Reproducible s log a := by
    intro s log a hr hcheck
    have hwash : ∀ d ∈ s.consumer.pipeline.detectors, d = WashTradeDetector.object := by
      rw [run_pipeline hr]
      exact LivePipeline.run_detectors (fun d _ _ _ hd => by rw [hd]; rfl) (fun d hd => List.mem_singleton.1 hd) _ _
    have hname : ascii "SpoofingLayeringDetector" ≠ ascii "WashTradeDetector" := by decide
    cases a with
    | onEvent _ err =>
      have herr : err = .noError := of_decide_eq_true hcheck
      exact herr
    | consumer _ =>
      intro e he
      obtain ⟨hahead, hlen⟩ := of_decide_eq_true hcheck e he
      exact ⟨hahead, fun d hd => absurd (congrArg IDetector.name (hwash _ hd)) hname, hlen⟩
    | _ => trivial
  obtain ⟨s, log, hr, hp⟩ := Machine.reach_of_execIf hok ⟨_, rfl, rfl⟩
    (threeIntoTwo (.order (orderOn "Y" "A" .new "A" .buy 100 10)) (.order (orderOn "X" "B" .new "B" .buy 100 5))
      (.execution (selfTrade "X" "B" 100 2)))
    (p := fun q => decide ((RingHistory.ofLog (ringLog q.2)).discarded.length = 1 ∧ q.1.consumer.alerts.length = 1))
    (by decide +kernel)
  exact ⟨s, log, hr, of_decide_eq_true hp,
    alerts_reproducible (fun d hd => by rw [List.mem_singleton.1 hd]; exact .washTrade) hr⟩

end TradeSurveillance
