import TradeSurveillance.Lemmas.AmbientTracker
import TradeSurveillance.Lib.RollingWindow
import TradeSurveillance.Lib.Unwinding
import TradeSurveillance.Theorems.BookIndex

/-!
# The ambient windows of the spoofing detector

The detector prunes its windows on every event of an instrument. As long as timestamps do not go back nothing that a later window needs
is lost (`follows_run`), so that a Cancel is scored with what the whole history has in the window. That is so for a Cancel on the
instrument of the order it names, whose trackers it has just pruned (`ambient_windows_exact`); a Cancel that names an order of another
instrument reads trackers of an earlier time (`foreign_cancel_reads_stale_window`).
-/

namespace TradeSurveillance.SpoofingLayeringDetector

variable {P : Type} [Double P] [LinearOrder P]

/-- The detector after a stream. -/
def after (config : SpoofingLayeringConfig P) (stream : Stream P) : SpoofingLayeringDetector P :=
  (Unwinding.run (fun d x => d.evaluate x.1 x.2) (make config) stream).1

/-- The detector that `handle_cancel` computes its scores with, for a Cancel that arrives after a stream. -/
def scoring (config : SpoofingLayeringConfig P) (stream : Stream P) (book : OrderBook P) (o : Order P) : SpoofingLayeringDetector P :=
  (((after config stream).updateAmbient book o.instrumentId o.timestampNs).eraseTracked o.origOrderId).1

/-- The timestamps of an instrument. -/
def clockOf {P : Type} (i : Str) (stream : Stream P) : List ℤ :=
  (stream.filter fun x => x.2.instrumentId = i).map fun x => x.2.timestampNs

/-! ## The history -/

/-- The last best price of a side that was not empty. -/
def lastKnown (i : Str) (s : Side) (stream : Stream P) : Option P :=
  ((stream.filter fun x => x.2.instrumentId = i).filterMap fun x => x.1.bestPrice s).getLast?

/-- The times at which the best price of a side differed from the last one known. -/
def moveHistory (i : Str) (s : Side) : Stream P → List ℤ :=
  RollingWindow.gather fun before x =>
    if x.2.instrumentId = i ∧ AmbientTracker.moved (lastKnown i s before) (x.1.bestPrice s) then [x.2.timestampNs] else []

/-- The samples that New and Replace record for a side. -/
def sampleHistory (config : SpoofingLayeringConfig P) (i : Str) (s : Side) : Stream P → List ConcurrentSample :=
  RollingWindow.gather fun before x => samplesOf (after config (before ++ [x])) i s x.2

/-- The mean of the counts, 0 if there are none. -/
def meanCount (samples : List ConcurrentSample) : P :=
  if samples.length > 0 then
    samples.foldl (fun sum s => sum + (s.concurrentCount : P)) 0.0 / ((samples.length : ℤ) : P)
  else 0.0

variable {config : SpoofingLayeringConfig P} {stream : Stream P} {i : Str} {s : Side} {now : ℤ}

/-- One more event is evaluated behind the others. -/
theorem after_concat (stream : Stream P) (x : OrderBook P × Event P) :
    after config (stream ++ [x]) = ((after config stream).evaluate x.1 x.2).1 := by
  rw [after, Unwinding.run_concat, after]

/-- The configuration stays. -/
theorem after_config (stream : Stream P) : (after config stream).config = config := by
  induction stream using List.reverseRecOn with
  | nil => rfl
  | append_singleton stream x ih => rw [after_concat, evaluate_config, ih]

omit [Double P] in
/-- The last known price after an event of the instrument is the new one, if there is one. -/
theorem lastKnown_concat {x : OrderBook P × Event P} (hx : x.2.instrumentId = i) :
    lastKnown i s (stream ++ [x]) = (x.1.bestPrice s).or (lastKnown i s stream) := by
  rw [lastKnown, List.filter_append, List.filter_cons_of_pos (by simpa using hx), List.filter_nil, List.filterMap_append,
    List.getLast?_append]
  refine congrArg (Option.or · _) ?_
  cases hprice : x.1.bestPrice s with
  | none =>
    have hnone : [x].filterMap (fun x => x.1.bestPrice s) = [] := List.filterMap_cons_none hprice
    rw [hnone, List.getLast?_nil]
  | some price =>
    have hsome : [x].filterMap (fun x => x.1.bestPrice s) = [price] := List.filterMap_cons_some hprice
    rw [hsome, List.getLast?_singleton]

omit [Double P] in
/-- Events of other instruments do not change it. -/
theorem lastKnown_concat_of_ne {x : OrderBook P × Event P} (hx : x.2.instrumentId ≠ i) :
    lastKnown i s (stream ++ [x]) = lastKnown i s stream := by
  rw [lastKnown, List.filter_append, List.filter_cons_of_neg (by simpa using hx), List.filter_nil, List.append_nil, lastKnown]

omit [Double P] in
/-- Moves of an instrument are at times of its events. -/
theorem moves_le (hpast : ∀ x ∈ stream, x.2.instrumentId = i → x.2.timestampNs ≤ now) : ∀ ts ∈ moveHistory i s stream, ts ≤ now := by
  refine RollingWindow.forall_mem_gather ?_
  intro before x hx ts hts
  rw [List.mem_ite_nil_right, List.mem_singleton] at hts
  obtain ⟨⟨hi, -⟩, rfl⟩ := hts
  exact hpast x hx hi

/-- No sample is later than the events. -/
theorem samples_le (hpast : ∀ x ∈ stream, x.2.instrumentId = i → x.2.timestampNs ≤ now) :
    ∀ sample ∈ sampleHistory config i s stream, sample.timestampNs ≤ now := by
  refine RollingWindow.forall_mem_gather ?_
  intro before x hx sample hsample
  obtain ⟨book, o | _⟩ := x
  · rw [samplesOf, List.mem_ite_nil_right, List.mem_singleton] at hsample
    obtain ⟨⟨-, hi, -⟩, rfl⟩ := hsample
    exact hpast _ hx hi
  · cases hsample

/-! ## Clocks -/

omit [Double P] [LinearOrder P] in
/-- The clock of a shorter stream runs forward too. -/
theorem clockOf_init {x : OrderBook P × Event P} (hclock : (clockOf i (stream ++ [x])).Pairwise (· ≤ ·)) :
    (clockOf i stream).Pairwise (· ≤ ·) := by
  rw [clockOf, List.filter_append, List.map_append, List.pairwise_append] at hclock
  exact hclock.1

omit [Double P] [LinearOrder P] in
/-- No event of the instrument is later than the last one. -/
theorem le_of_clockOf {x : OrderBook P × Event P} (hclock : (clockOf i (stream ++ [x])).Pairwise (· ≤ ·))
    (hx : x.2.instrumentId = i) : ∀ y ∈ stream ++ [x], y.2.instrumentId = i → y.2.timestampNs ≤ x.2.timestampNs := by
  intro y hy hyi
  rw [clockOf, List.filter_append, List.map_append, List.pairwise_append] at hclock
  rcases List.mem_append.1 hy with hy | hy
  · refine hclock.2.2 _ (List.mem_map_of_mem (List.mem_filter.2 ⟨hy, by simpa using hyi⟩)) _ ?_
    exact List.mem_map_of_mem (List.mem_filter.2 ⟨List.mem_cons_self, by simpa using hx⟩)
  · rw [List.mem_singleton.1 hy]

/-! ## Trackers that follow the history -/

/-- From a time on, the windows of a tracker are those of the history. -/
structure Follows (config : SpoofingLayeringConfig P) (stream : Stream P) (i : Str) (s : Side) (now : ℤ) (tracker : AmbientTracker P) :
    Prop where
  lastBestPrice : tracker.lastBestPrice = lastKnown i s stream
  moves : RollingWindow.Keeps id config.densityWindowNs now tracker.recentMoveTimestamps (moveHistory i s stream)
  samples : RollingWindow.Keeps ConcurrentSample.timestampNs config.densityWindowNs now tracker.recentConcurrentSamples
    (sampleHistory config i s stream)

variable {tracker : AmbientTracker P}

/-- What a tracker follows from a time on, it follows from a later one on. -/
theorem Follows.mono {now' : ℤ} (h : Follows config stream i s now tracker) (hle : now ≤ now') :
    Follows config stream i s now' tracker := ⟨h.lastBestPrice, h.moves.mono hle, h.samples.mono hle⟩

/-- What `update_ambient` makes of a tracker at an event of the instrument: the event's own sample is yet to come. -/
theorem Follows.observe {x : OrderBook P × Event P} (h : Follows config stream i s x.2.timestampNs tracker) (hx : x.2.instrumentId = i)
    (hpast : ∀ y ∈ stream ++ [x], y.2.instrumentId = i → y.2.timestampNs ≤ x.2.timestampNs) :
    let observed := tracker.observe config.densityWindowNs (x.1.bestPrice s) x.2.timestampNs
    observed.lastBestPrice = lastKnown i s (stream ++ [x]) ∧
      RollingWindow.Keeps id config.densityWindowNs x.2.timestampNs observed.recentMoveTimestamps (moveHistory i s (stream ++ [x])) ∧
      RollingWindow.Keeps ConcurrentSample.timestampNs config.densityWindowNs x.2.timestampNs observed.recentConcurrentSamples
        (sampleHistory config i s stream) := by
  intro observed
  refine ⟨?_, ?_, ?_⟩
  · rw [lastKnown_concat hx, ← h.lastBestPrice]
    rfl
  · have hmoves : observed.recentMoveTimestamps = RollingWindow.prune id config.densityWindowNs x.2.timestampNs
        (tracker.recentMoveTimestamps ++
          if x.2.instrumentId = i ∧ AmbientTracker.moved (lastKnown i s stream) (x.1.bestPrice s) then [x.2.timestampNs] else []) := by
      have hobserved : observed.recentMoveTimestamps = RollingWindow.prune id config.densityWindowNs x.2.timestampNs
        (if AmbientTracker.moved tracker.lastBestPrice (x.1.bestPrice s) then tracker.recentMoveTimestamps ++ [x.2.timestampNs]
          else tracker.recentMoveTimestamps) := rfl
      rw [hobserved, h.lastBestPrice]
      by_cases hmoved : AmbientTracker.moved (lastKnown i s stream) (x.1.bestPrice s) = true
      · rw [if_pos hmoved, if_pos ⟨hx, hmoved⟩]
      · rw [if_neg hmoved, if_neg fun h => hmoved h.2, List.append_nil]
    have hle := moves_le (s := s) hpast
    rw [moveHistory, RollingWindow.gather_concat] at hle ⊢
    rw [hmoves]
    exact (h.moves.append _).prune hle
  · exact h.samples.prune (samples_le fun y hy => hpast y (List.mem_append_left _ hy))

/-- The trackers of an instrument whose timestamps do not go back follow the history. -/
theorem follows_run (config : SpoofingLayeringConfig P) (stream : Stream P) (hclock : (clockOf i stream).Pairwise (· ≤ ·)) (s : Side) :
    ∀ now, (∀ x ∈ stream, x.2.instrumentId = i → x.2.timestampNs ≤ now) →
      Follows config stream i s now ((after config stream).ambient i s) := by
  induction stream using List.reverseRecOn with
  | nil => exact fun now _ => ⟨rfl, .refl now _, .refl now _⟩
  | append_singleton stream x ih =>
    intro now hnow
    have hbefore := clockOf_init hclock
    rw [after_concat]
    by_cases hx : x.2.instrumentId = i
    · have hpast := le_of_clockOf hclock hx
      obtain ⟨hprice, hmoves, hsamples⟩ := (ih hbefore _ fun y hy => hpast y (List.mem_append_left _ hy)).observe hx hpast
      subst hx
      rw [ambient_evaluate, after_config]
      refine Follows.mono ⟨hprice, hmoves, ?_⟩ (hnow x (List.mem_append_right _ List.mem_cons_self) rfl)
      rw [sampleHistory, RollingWindow.gather_concat, after_concat]
      exact hsamples.append _
    · obtain ⟨hprice, hmoves, hsamples⟩ := ih hbefore now fun y hy => hnow y (List.mem_append_left _ hy)
      rw [ambient_evaluate_of_ne _ _ hx]
      refine ⟨hprice.trans (lastKnown_concat_of_ne hx).symm, ?_, ?_⟩
      · rwa [moveHistory, RollingWindow.gather_concat, if_neg fun h => hx h.1, List.append_nil]
      · have hnone : samplesOf (after config (stream ++ [x])) i s x.2 = [] := by
          obtain ⟨book, o | _⟩ := x
          · exact if_neg fun h => hx h.2.1
          · rfl
        rwa [sampleHistory, RollingWindow.gather_concat, hnone, List.append_nil]

/-! ## What a Cancel is scored with -/

/-- What is retained after an event of an instrument is within the window. -/
theorem ambient_evaluate_near {d : SpoofingLayeringDetector P} (hwidth : 0 ≤ d.config.densityWindowNs) (book : OrderBook P) (e : Event P)
    (s : Side) : (∀ ts ∈ ((d.evaluate book e).1.ambient e.instrumentId s).recentMoveTimestamps,
        |e.timestampNs - ts| ≤ d.config.densityWindowNs) ∧
      ∀ sample ∈ ((d.evaluate book e).1.ambient e.instrumentId s).recentConcurrentSamples,
        |e.timestampNs - sample.timestampNs| ≤ d.config.densityWindowNs := by
  rw [ambient_evaluate]
  refine ⟨fun ts hts => (RollingWindow.mem_prune.1 hts).2, fun sample hsample => ?_⟩
  rcases List.mem_append.1 hsample with hold | hnew
  · exact (RollingWindow.mem_prune.1 hold).2
  · cases e with
    | execution _ => nomatch hnew
    | order o =>
      rw [samplesOf, List.mem_ite_nil_right, List.mem_singleton] at hnew
      obtain ⟨-, rfl⟩ := hnew
      rwa [Event.timestampNs, sub_self, abs_zero]

/-- A Cancel on the instrument of the order it names is scored with exactly the moves and samples of the history that are in the window,
if the instrument's timestamps do not go back. Whatever the timestamps, nothing outside the window is retained. -/
theorem ambient_windows_exact (config : SpoofingLayeringConfig P) :
    (∀ (stream : Stream P) (book : OrderBook P) (o : Order P) (t : TrackedOrder P), o.status = .cancelled →
      (clockOf o.instrumentId (stream ++ [(book, .order o)])).Pairwise (· ≤ ·) →
      (after config stream).tracked.lookup o.origOrderId = some t → t.instrumentId = o.instrumentId →
        ((scoring config stream book o).ambient t.instrumentId t.side.opposite).recentMoveTimestamps.length =
            ((moveHistory t.instrumentId t.side.opposite (stream ++ [(book, .order o)])).filter fun ts =>
              o.timestampNs - config.densityWindowNs ≤ ts ∧ ts ≤ o.timestampNs).length ∧
          (scoring config stream book o).typicalConcurrent t =
            meanCount (((sampleHistory config t.instrumentId t.side stream).filter fun sample =>
              o.timestampNs - config.densityWindowNs ≤ sample.timestampNs ∧ sample.timestampNs ≤ o.timestampNs).filter fun sample =>
                sample.accountId ≠ t.accountId)) ∧
    (0 ≤ config.densityWindowNs → ∀ (stream : Stream P) (book : OrderBook P) (e : Event P) (s : Side),
      (∀ ts ∈ ((after config (stream ++ [(book, e)])).ambient e.instrumentId s).recentMoveTimestamps,
          |e.timestampNs - ts| ≤ config.densityWindowNs) ∧
        ∀ sample ∈ ((after config (stream ++ [(book, e)])).ambient e.instrumentId s).recentConcurrentSamples,
          |e.timestampNs - sample.timestampNs| ≤ config.densityWindowNs) := by
  constructor
  · intro stream book o t _ hclock _ hi
    rw [hi]
    have hpast : ∀ x ∈ stream ++ [(book, Event.order o)], x.2.instrumentId = o.instrumentId → x.2.timestampNs ≤ o.timestampNs :=
      le_of_clockOf hclock rfl
    have hbefore : ∀ x ∈ stream, x.2.instrumentId = o.instrumentId → x.2.timestampNs ≤ o.timestampNs :=
      fun x hx => hpast x (List.mem_append_left _ hx)
    have hfollows := fun s => (follows_run config stream (clockOf_init hclock) s _ hbefore).observe (x := (book, .order o)) rfl hpast
    have hlookup : ∀ s, (scoring config stream book o).ambientByInstrumentSide.lookup (instrumentSideKey o.instrumentId s) =
        some (((after config stream).ambient o.instrumentId s).observe config.densityWindowNs (book.bestPrice s) o.timestampNs) := by
      intro s
      rw [scoring, eraseTracked_ambientByInstrumentSide, lookup_updateAmbient, after_config]
    constructor
    · obtain ⟨-, hmoves, -⟩ := hfollows t.side.opposite
      rw [ambient, hlookup, Option.getD_some]
      exact congrArg List.length (hmoves.prune_eq (moves_le hpast))
    · obtain ⟨-, -, hsamples⟩ := hfollows t.side
      have hwindow := hsamples.prune_eq (samples_le hbefore)
      rw [typicalConcurrent, hi, hlookup]
      exact congrArg (fun l => (meanCount (l.filter fun sample => sample.accountId ≠ t.accountId) : P)) hwindow
  · intro hwidth stream book e s
    rw [after_concat]
    have hnear := ambient_evaluate_near (d := after config stream) ((after_config stream).symm ▸ hwidth) book e s
    rwa [after_config] at hnear

/-! ## Runs on fixed inputs -/

/-- Events of one instrument, each with the book that has just applied it. -/
def withBook (book : OrderBook P) : List (Event P) → Stream P
  | [] => []
  | e :: events => ((book.apply e).1, e) :: withBook (book.apply e).1 events

/-- An order of an account at a time, in seconds. -/
def orderAt (instrumentId orderId : String) (status : OrderStatus) (origOrderId : String) (side : Side) (price : ℚ)
    (accountId : String) (seconds : ℤ) : Order ℚ :=
  { orderOn instrumentId orderId status origOrderId side price 10 with
    accountId := ascii accountId
    timestampNs := seconds * 1000000000 }

omit [LinearOrder P] in
/-- What an entry says is what the order that is tracked says. -/
theorem tracked_of_shadow {d : SpoofingLayeringDetector P} {j a : Str} {n : ℤ} (h : d.shadow j = some (a, i, s, n)) :
    ∃ t, d.tracked.lookup j = some t ∧ t.instrumentId = i ∧ t.side = s ∧ t.accountId = a := by
  obtain ⟨t, ht, hentry⟩ := Option.map_eq_some_iff.1 h
  simp only [TrackedOrder.entry, Prod.mk.injEq] at hentry
  obtain ⟨ha, hi, hs, -⟩ := hentry
  exact ⟨t, ht, hi, hs, ha⟩

/-- The only offer of `X` is replaced by a lower one at one second; then two accounts bid. -/
def twoBids : Stream ℚ := withBook (.make (ascii "X"))
  [.order (orderAt "X" "B" .new "" .sell 101 "MAKER" 0), .order (orderAt "X" "F" .cancelled "B" .sell 101 "MAKER" 0),
    .order (orderAt "X" "C" .new "" .sell 100 "MAKER" 1), .order (orderAt "X" "D" .new "" .buy 99 "OTHER" 2),
    .order (orderAt "X" "A" .new "" .buy 99 "ACC" 3)]

/-- A Cancel on its own instrument is scored with the one move and the one sample of another account. -/
theorem ambient_windows_exact_cancel :
    let cancel := orderAt "X" "E" .cancelled "A" .buy 99 "ACC" 4
    (∃ t, (after {} twoBids).tracked.lookup (ascii "A") = some t ∧
      ((scoring {} twoBids (.make (ascii "X")) cancel).ambient t.instrumentId t.side.opposite).recentMoveTimestamps.length = 1 ∧
      (scoring {} twoBids (.make (ascii "X")) cancel).typicalConcurrent t = 1) ∧
      ∀ ts ∈ ((after {} (twoBids ++ [(.make (ascii "X"), .order cancel)])).ambient (ascii "X") .sell).recentMoveTimestamps,
        |cancel.timestampNs - ts| ≤ 30000000000 := by
  intro cancel
  constructor
  · obtain ⟨t, ht, hi, hs, ha⟩ := tracked_of_shadow (d := after {} twoBids) (j := ascii "A") (a := ascii "ACC") (i := ascii "X")
      (s := .buy) (n := 10) (by decide +kernel)
    obtain ⟨hmoves, htypical⟩ := (ambient_windows_exact {}).1 twoBids (.make (ascii "X")) cancel t rfl (by decide +kernel) ht hi
    refine ⟨t, ht, ?_⟩
    rw [hmoves, htypical, hi, hs, ha]
    constructor
    · decide +kernel
    · decide +kernel
  · exact ((ambient_windows_exact {}).2 (by decide) twoBids (.make (ascii "X")) (.order cancel) .sell).1

/-- A bid of `X` after an old move of the offers there, and an offer of `Y`. -/
def bidAndOffer : Stream ℚ :=
  withBook (.make (ascii "X"))
      [.order (orderAt "X" "B" .new "" .sell 101 "MAKER" 0), .order (orderAt "X" "F" .cancelled "B" .sell 101 "MAKER" 0),
        .order (orderAt "X" "C" .new "" .sell 100 "MAKER" 1), .order (orderAt "X" "A" .new "" .buy 99 "ACC" 31)] ++
    withBook (.make (ascii "Y")) [.order (orderAt "Y" "D" .new "" .sell 200 "MAKER" 31)]

/-- A Cancel on another instrument is scored with a move that is 31 seconds old. -/
theorem foreign_cancel_reads_stale_window :
    let cancel := orderAt "Y" "E" .cancelled "A" .buy 99 "ACC" 32
    let book := ((OrderBook.make (ascii "Y")).apply (.order (orderAt "Y" "D" .new "" .sell 200 "MAKER" 31))).1
    let history := bidAndOffer ++ [((book.apply (.order cancel)).1, .order cancel)]
    (∀ x ∈ history, 0 ≤ x.2.timestampNs) ∧ (∀ i ∈ [ascii "X", ascii "Y"], (clockOf i history).Pairwise (· ≤ ·)) ∧
      (∃ t, (after {} bidAndOffer).tracked.lookup (ascii "A") = some t ∧ t.instrumentId = ascii "X" ∧
        ((scoring {} bidAndOffer book cancel).ambient t.instrumentId t.side.opposite).recentMoveTimestamps.length = 1 ∧
        (scoring {} bidAndOffer book cancel).moveScore t 1000000000 = 29 / 30) ∧
      (∀ i ∈ [ascii "X", ascii "Y"], ((moveHistory i .sell history).filter fun ts =>
        cancel.timestampNs - 30000000000 ≤ ts ∧ ts ≤ cancel.timestampNs) = []) ∧
      ((after {} bidAndOffer).evaluate (book.apply (.order cancel)).1 (.order cancel)).2.map Alert.score = [83 / 90] := by
  intro cancel book history
  obtain ⟨t, ht, hi, hs, -⟩ := tracked_of_shadow (d := after {} bidAndOffer) (j := ascii "A") (a := ascii "ACC") (i := ascii "X")
    (s := .buy) (n := 10) (by decide +kernel)
  refine ⟨by decide +kernel, by decide +kernel, ⟨t, ht, hi, ?_, ?_⟩, by decide +kernel, by decide +kernel⟩
  · rw [hi, hs]
    decide +kernel
  · rw [moveScore, hi, hs]
    decide +kernel

end TradeSurveillance.SpoofingLayeringDetector
