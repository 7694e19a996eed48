import TradeSurveillance.Api.LiveBookRegistry
import TradeSurveillance.MlClient.ScoringWorker
import TradeSurveillance.Pipeline.LiveSystem

/-!
# `run`: pop until the flag is set and nothing is left

`LiveConsumer`, `LiveBookRegistry` and `MlScoringWorker` have the same loop. A consumer is what its `process_one` does to its
fields; the loop is a machine around the ring buffer, whose steps are those of the buffer, the load of the flag, and the store of the
flag by the thread of the producer.
-/

namespace TradeSurveillance

/-- Where `run` stands: in its first `pop`, before its load of the flag, in the `pop` after it saw the flag set, or returned. -/
inductive RunPc where
  | pop | loadFlag | lastPop | returned
  deriving DecidableEq, Repr

/-- What follows a `pop` that found nothing. -/
def RunPc.afterNothing : RunPc → RunPc
  | .pop => .loadFlag
  | .lastPop => .returned
  | pc => pc

/-- The buffer, the flag (`producer_done` or `stop_flag`), and the consumer in its loop. -/
structure ConsumerLoop (α : Type) (σ : Type*) where
  ring : RingState α
  flag : Bool
  pc : RunPc
  consumer : σ

/-- The actions: the producer's thread calls `push`, takes a step in it, or sets the flag; the consumer's thread takes a step.
`answer` is what the consumer's environment answers to `process_one`, where the step calls it. -/
inductive LoopAction (α ι : Type) where
  | push (item : α)
  | producer (spurious : Bool)
  | setFlag
  | consumer (spurious : Bool) (answer : ι)

/-- What a run can be seen to do. -/
inductive LoopEvent (α : Type) where
  | ring (event : RingEvent α)
  /-- A call of `process_one`. -/
  | processed (item : α)

/-- What `pop` returned in a step, where it did. -/
def popResult {α : Type} (out : List (RingEvent α)) : Option (Option α) :=
  out.findSome? fun | .popReturned x => some x | _ => none

namespace ConsumerLoop

variable {α ι : Type} {σ : Type*} (moved : α → α) (processOne : σ → ι → α → σ)

/-- A step of the consumer's thread in a `pop`: the call, an access, or the return and what `run` does with it. -/
def popStep (spurious : Bool) (answer : ι) (s : ConsumerLoop α σ) : Option (ConsumerLoop α σ × List (LoopEvent α)) :=
  match s.ring.consumer with
  | .idle => (s.ring.step moved .pop).map fun (ring, out) => ({ s with ring := ring }, out.map .ring)
  | .pop _ =>
    (s.ring.step moved (.consumer spurious)).map fun (ring, out) =>
      match popResult out with
      | none => ({ s with ring := ring }, out.map .ring)
      | some none => ({ s with ring := ring, pc := s.pc.afterNothing }, out.map .ring)
      | some (some item) =>
        ({ s with ring := ring, pc := .pop, consumer := processOne s.consumer answer item }, out.map .ring ++ [.processed item])

/-- One step. The producer sets the flag outside `push`, and calls `push` no more once it has set it. -/
def step (s : ConsumerLoop α σ) : LoopAction α ι → Option (ConsumerLoop α σ × List (LoopEvent α))
  | .push item =>
    if s.flag then none
    else (s.ring.step moved (.push item)).map fun (ring, out) => ({ s with ring := ring }, out.map .ring)
  | .producer spurious =>
    (s.ring.step moved (.producer spurious)).map fun (ring, out) => ({ s with ring := ring }, out.map .ring)
  | .setFlag =>
    match s.ring.producer with
    | .idle => some ({ s with flag := true }, [])
    | _ => none
  | .consumer spurious answer =>
    match s.pc with
    | .returned => none
    | .loadFlag => some ({ s with pc := if s.flag then .lastPop else .pop }, [])
    | .pop | .lastPop => s.popStep moved processOne spurious answer

end ConsumerLoop

/-- The machine of a consumer that runs on a new buffer of this capacity. -/
def loopMachine {α ι : Type} {σ : Type*} [Inhabited α] (moved : α → α) (processOne : σ → ι → α → σ) (capacity : Word) (consumer : σ) :
    Machine (ConsumerLoop α σ) (LoopAction α ι) (LoopEvent α) where
  init s := ∃ r, SpscRingBuffer.make capacity = .ok r ∧ s = ⟨⟨r, .idle, .idle⟩, false, .pop, consumer⟩
  step := ConsumerLoop.step moved processOne

/-! ## The three consumers -/

section Consumers

variable {P : Type} [Double P] [LinearOrder P]

/-- `LiveConsumer::run`. -/
def LiveConsumer.run (moved : Event P → Event P) (capacity : Word) (consumer : LiveConsumer P) :
    Machine (ConsumerLoop (Event P) (LiveConsumer P)) (LoopAction (Event P) Unit) (LoopEvent (Event P)) :=
  loopMachine moved (fun c _ event => (c.processOne event).1) capacity consumer

/-- `LiveBookRegistry::run`. -/
def LiveBookRegistry.run (moved : Event P → Event P) (capacity : Word) (registry : LiveBookRegistry P) :
    Machine (ConsumerLoop (Event P) (LiveBookRegistry P)) (LoopAction (Event P) Unit) (LoopEvent (Event P)) :=
  loopMachine moved (fun r _ event => r.processOne event) capacity registry

/-- A default-constructed request, which the cells of a new buffer hold. -/
instance : Inhabited (ScoringRequest P) where
  default := ⟨[], [], ∅, 0, 0⟩

/-- `MlScoringWorker::run`; `submit` is `push`. -/
def MlScoringWorker.run (moved : ScoringRequest P → ScoringRequest P) (worker : MlScoringWorker P) :
    Machine (ConsumerLoop (ScoringRequest P) (MlScoringWorker P))
      (LoopAction (ScoringRequest P) (Option (ScoringResult P))) (LoopEvent (ScoringRequest P)) :=
  loopMachine moved MlScoringWorker.processOne worker.config.queueCapacity worker

end Consumers

/-! ## What a log says -/

section Log

variable {α : Type}

/-- What happened in the buffer. -/
def bufferLog (log : List (LoopEvent α)) : List (RingEvent α) :=
  log.filterMap fun | .ring x => some x | _ => none

/-- The elements handed to `process_one`, in order. -/
def processed (log : List (LoopEvent α)) : List α :=
  log.filterMap fun | .processed x => some x | _ => none

/-- The elements a step hands to `process_one`, each with the answer it gets. -/
def LoopAction.answered {ι : Type} (a : LoopAction α ι) (out : List (LoopEvent α)) : List (α × ι) :=
  match a with
  | .consumer _ answer => (processed out).map (·, answer)
  | _ => []

/-- What happened in the buffer in one log behind another. -/
@[simp] theorem bufferLog_append (log out : List (LoopEvent α)) : bufferLog (log ++ out) = bufferLog log ++ bufferLog out :=
  List.filterMap_append

/-- What was processed in one log behind another. -/
@[simp] theorem processed_append (log out : List (LoopEvent α)) : processed (log ++ out) = processed log ++ processed out :=
  List.filterMap_append

/-- The events of the buffer are what happened in it. -/
@[simp] theorem bufferLog_ring (out : List (RingEvent α)) : bufferLog (out.map .ring) = out := by
  induction out with
  | nil => rfl
  | cons x out ih => exact congrArg (x :: ·) ih

/-- They process nothing. -/
@[simp] theorem processed_ring (out : List (RingEvent α)) : processed (out.map .ring) = [] := by
  induction out with
  | nil => rfl
  | cons x out ih => exact ih

@[simp] theorem bufferLog_processed (x : α) : bufferLog [.processed x] = [] := rfl

@[simp] theorem processed_processed (x : α) : processed [.processed x] = [x] := rfl

end Log

end TradeSurveillance
