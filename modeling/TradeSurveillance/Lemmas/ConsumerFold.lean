import TradeSurveillance.Lib.Counter
import TradeSurveillance.Pipeline.LiveSystem
import TradeSurveillance.Theorems.LiveReplay

/-!
# A consumer after some events

What `process_one` makes of the events, one after the other, in terms of the results of the pipeline.
-/

namespace TradeSurveillance

variable {P : Type} [LinearOrder P]

namespace LivePipeline

/-- The alerts of the events, in the order they are raised. -/
def alertsOf (p : LivePipeline P) (events : List (Event P)) : List (Alert P) := (p.trace events).flatMap (·.2.alerts)

theorem alertsOf_cons (p : LivePipeline P) (e : Event P) (events : List (Event P)) :
    p.alertsOf (e :: events) = (p.process e).2.alerts ++ (p.process e).1.alertsOf events := rfl

end LivePipeline

namespace LiveConsumer

/-- What an event comes to in a consumer: the alerts of a skipped event are none. -/
theorem processOne_eq (c : LiveConsumer P) (e : Event P) :
    (c.processOne e).1 = {
      pipeline := (c.pipeline.process e).1
      alerts := c.alerts ++ (c.pipeline.process e).2.alerts
      eventsProcessed := c.eventsProcessed + 1
      eventsSkippedInconsistent := c.eventsSkippedInconsistent + if (c.pipeline.process e).2.skippedInconsistent then 1 else 0 } := by
  have hskipped := c.pipeline.process_skipped e
  unfold processOne
  cases ht : ((c.pipeline.bookOf e.instrumentId).apply e).2 with
  | none =>
    rw [ht] at hskipped
    simp [hskipped]
  | some thrown =>
    rw [ht] at hskipped
    simp [hskipped, (c.pipeline.process_of_thrown ht).2.1]

/-- The consumer after the events. -/
theorem foldl_processOne (c : LiveConsumer P) (events : List (Event P)) :
    let c' := events.foldl (fun c e => (c.processOne e).1) c
    c'.alerts = c.alerts ++ c.pipeline.alertsOf events ∧ c'.eventsProcessed = c.eventsProcessed + BitVec.ofNat 64 events.length ∧
      c'.eventsSkippedInconsistent =
        c.eventsSkippedInconsistent + BitVec.ofNat 64 ((c.pipeline.trace events).countP (·.2.skippedInconsistent)) := by
  induction events generalizing c with
  | nil => exact ⟨(List.append_nil _).symm, (BitVec.add_zero _).symm, (BitVec.add_zero _).symm⟩
  | cons e events ih =>
    obtain ⟨h1, h2, h3⟩ := ih (c.processOne e).1
    rw [processOne_eq] at h1 h2 h3
    simp only [List.foldl_cons]
    rw [processOne_eq]
    refine ⟨?_, ?_, ?_⟩
    · rw [h1, LivePipeline.alertsOf_cons, List.append_assoc]
    · rw [h2, List.length_cons, ← Counter.ofNat_succ, BitVec.add_assoc, BitVec.add_comm 1]
    · rw [h3, LivePipeline.trace, List.countP_cons]
      split
      · rw [← Counter.ofNat_succ, BitVec.add_assoc, BitVec.add_comm 1]
      · simp

end LiveConsumer

end TradeSurveillance
