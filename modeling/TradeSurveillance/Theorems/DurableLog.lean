import TradeSurveillance.Lemmas.SystemRun
import TradeSurveillance.Theorems.BookIndex

/-!
# Is the log on Kafka complete?

`PipelineEventSink` publishes an event before it pushes it, so that the log has what the ring buffer discards. An exception of
`publish` leaves the sink before `push`; but `false`, the answer to a full queue, is not looked at and the event is pushed all the
same. `durable_complete_iff`: the log is complete along exactly the runs in which `produce` never finds its queue full.
-/

namespace TradeSurveillance

variable {P : Type} [Double P] [LinearOrder P]

/-- The durable log: the messages of the topic. -/
def LiveSystem.durable (s : LiveSystem P) : List Str :=
  match s.kafka with
  | none => []
  | some kafka => kafka.log

section Lists

variable {α : Type} {p q : α → Bool} {l : List α}

/-- A filter that keeps as many elements as a weaker one keeps the same. -/
theorem forall_of_length_filter_le (hpq : ∀ x ∈ l, p x = true → q x = true)
    (hlen : (l.filter q).length ≤ (l.filter p).length) : ∀ x ∈ l, q x = true → p x = true := by
  have hfilter : (l.filter q).filter p = l.filter p := by
    rw [List.filter_filter]
    refine List.filter_congr ?_
    intro x hx
    cases hp : p x
    · rfl
    · rw [hpq x hx hp]
      rfl
  have heq : (l.filter q).filter p = l.filter q := by
    refine List.filter_sublist.eq_of_length_le ?_
    rw [hfilter]
    exact hlen
  intro x hx hq
  exact List.filter_eq_self.1 heq x (List.mem_filter.2 ⟨hx, hq⟩)

end Lists

variable {moved : Event P → Event P} {capacity : Word} {detectors : List (IDetector P)} {accounts : AccountRegistry}
  {s : LiveSystem P} {log : List (SystemEvent P)}

/-- What a reclaim discards was pushed. -/
theorem discarded_sublist_pushed {α : Type} [Inhabited α] {moved : α → α} {s : RingState α} {log : List (RingEvent α)}
    (hr : (ringMachine moved capacity).Run s log) : (RingHistory.ofLog log).discarded.Sublist (pushed log) := by
  obtain ⟨k, gp, gc, -, -, -, hi⟩ := ring_invariant hr
  have hshare : (RingHistory.ofLog log).discarded.Sublist ((RingHistory.ofLog log).share .producer) := by
    rw [hi.share .producer]
    exact List.sublist_append_left _ _
  rw [pushed_eq hr]
  exact (hshare.trans (RingHistory.share_sublist _ _)).trans (List.sublist_append_left _ _)

/-- The log has every event that was pushed, in order, exactly when `produce` never found its queue full; it then has what the buffer
discarded. -/
theorem durable_complete_iff (hr : (liveMachine moved (some .make) capacity detectors accounts).Run s log) :
    (((pushed (ringLog log)).map encode).Sublist s.durable ↔ ∀ c ∈ calls log, c.2 ≠ .queueFull) ∧
      ((∀ c ∈ calls log, c.2 ≠ .queueFull) →
        ((RingHistory.ofLog (ringLog log)).discarded.map encode).Sublist s.durable) := by
  have hdurable : s.durable = (enqueued log).map encode := by rw [LiveSystem.durable, run_kafka hr]
  have hpushed := run_pushed hr
  have hnone : (∀ c ∈ calls log, c.2 ≠ .queueFull) ↔
      ∀ c ∈ calls log, (!c.2.throws) = true → decide (c.2 = .noError) = true := by
    refine forall₂_congr fun c _ => ?_
    cases c.2 <;> simp [ErrorCode.throws]
  have hcomplete : (∀ c ∈ calls log, c.2 ≠ .queueFull) → ((pushed (ringLog log)).map encode).Sublist s.durable := by
    intro hne
    have hfilter : (calls log).filter (fun c => !c.2.throws) = (calls log).filter fun c => decide (c.2 = .noError) := by
      refine List.filter_congr ?_
      intro c hc
      have h1 := hne c hc
      cases h2 : c.2 with
      | queueFull => exact absurd h2 h1
      | _ => rfl
    rw [hdurable, hpushed, hfilter]
    exact .refl _
  refine ⟨⟨fun hsub => ?_, hcomplete⟩, fun hne =>
    ((discarded_sublist_pushed (run_ring hr)).map _).trans (hcomplete hne)⟩
  rw [hnone]
  refine forall_of_length_filter_le (fun c _ hc => ?_) ?_
  · rw [of_decide_eq_true hc]
    rfl
  · have hlen := hsub.length_le
    rw [hdurable, hpushed, enqueued] at hlen
    simpa only [List.length_map] using hlen

/-- The third push into a buffer of two discards the first event; all three are in the log. -/
theorem durable_complete_discarding :
    ∃ s log, (liveMachine (P := ℚ) id (some .make) 2 [] .empty).Run s log ∧
      ((RingHistory.ofLog (ringLog log)).discarded.length = 1 ∧ ∀ c ∈ calls log, c.2 ≠ .queueFull) ∧
      ((((pushed (ringLog log)).map encode).Sublist s.durable ↔ ∀ c ∈ calls log, c.2 ≠ .queueFull) ∧
        ((∀ c ∈ calls log, c.2 ≠ .queueFull) →
          ((RingHistory.ofLog (ringLog log)).discarded.map encode).Sublist s.durable)) := by
  let order (id : String) : SystemAction ℚ := .onEvent (.order (orderOn "X" id .new id .buy 100 10)) .noError
  obtain ⟨s, log, hr, hp⟩ := Machine.run_of_exec (M := liveMachine (P := ℚ) id (some .make) 2 [] .empty) ⟨_, rfl, rfl⟩
    (order "A" :: List.replicate 5 (.producer false) ++ order "B" :: List.replicate 5 (.producer false) ++
      order "C" :: List.replicate 6 (.producer false))
    (p := fun q => decide ((RingHistory.ofLog (ringLog q.2)).discarded.length = 1 ∧ ∀ c ∈ calls q.2, c.2 ≠ .queueFull))
    (by decide +kernel)
  exact ⟨s, log, hr, of_decide_eq_true hp, durable_complete_iff hr⟩

/-- One order, received while the queue of `produce` is full: it is pushed, and the log is empty. -/
theorem queue_full_lost :
    ∃ s log, (liveMachine (P := ℚ) id (some .make) 2 [] .empty).Run s log ∧ (pushed (ringLog log)).length = 1 ∧
      s.durable = [] ∧ ¬((pushed (ringLog log)).map encode).Sublist s.durable := by
  obtain ⟨s, log, hr, hp⟩ := Machine.run_of_exec (M := liveMachine (P := ℚ) id (some .make) 2 [] .empty) ⟨_, rfl, rfl⟩
    [.onEvent (.order (orderOn "X" "A" .new "A" .buy 100 10)) .queueFull]
    (p := fun q => decide ((pushed (ringLog q.2)).length = 1 ∧ q.1.durable = [])) (by decide +kernel)
  obtain ⟨h1, h2⟩ := of_decide_eq_true hp
  refine ⟨s, log, hr, h1, h2, ?_⟩
  intro hsub
  have := hsub.length_le
  rw [h2, List.length_map, h1] at this
  exact absurd this (by decide)

end TradeSurveillance
