import TradeSurveillance.Ingestion.RingBuffer

/-!
# What a step of the ring does

`step_took` says once what a step of either thread does, with the values it saw; what a run keeps is derived from it case by case.
-/

namespace TradeSurveillance

variable {α : Type} {moved : α → α}

/-- What a step of `try_claim_front` does. -/
inductive ClaimTook (moved : α → α) (t : Thread) (spurious : Bool) (r : SpscRingBuffer α) :
    ClaimPc α → SpscRingBuffer α → ClaimNext α → List (RingEvent α) → Prop where
  | loadHead : ClaimTook moved t spurious r .loadHead r (.pc (.loadSequence r.head)) []
  | seen {pos : Word} (hs : (r.cell pos).sequence = pos + 1) :
      ClaimTook moved t spurious r (.loadSequence pos) r (.pc (.exchange pos)) []
  | empty {pos : Word} (hs : (r.cell pos).sequence = pos) :
      ClaimTook moved t spurious r (.loadSequence pos) r (.returned none) []
  | stale {pos : Word} (h1 : (r.cell pos).sequence ≠ pos + 1) (h2 : (r.cell pos).sequence ≠ pos) :
      ClaimTook moved t spurious r (.loadSequence pos) r (.pc .loadHead) []
  | claimed {pos : Word} (hx : r.head = pos) :
      ClaimTook moved t spurious r (.exchange pos) { r with head := pos + 1 } (.pc (.moveOut pos)) [.claimed t]
  | failed {pos : Word} (hx : ¬(r.head = pos ∧ spurious = false)) :
      ClaimTook moved t spurious r (.exchange pos) r (.pc (.loadSequence r.head)) []
  | movedOut {pos : Word} :
      ClaimTook moved t spurious r (.moveOut pos) (r.setData pos (moved (r.cell pos).data))
        (.pc (.release pos (r.cell pos).data)) [.took t (r.cell pos).data]
  | released {pos : Word} {x : α} :
      ClaimTook moved t spurious r (.release pos x) (r.setSequence pos (pos + r.capacity)) (.returned (some x)) []

theorem claimStep_took (moved : α → α) (t : Thread) (spurious : Bool) (r : SpscRingBuffer α) (claim : ClaimPc α) :
    ClaimTook moved t spurious r claim (claimStep moved t spurious r claim).1 (claimStep moved t spurious r claim).2.1
      (claimStep moved t spurious r claim).2.2 := by
  cases claim with
  | loadHead => exact .loadHead
  | loadSequence pos =>
    simp only [claimStep]
    split_ifs with h1 h2
    · exact .seen h1
    · exact .empty h2
    · exact .stale h1 h2
  | exchange pos =>
    simp only [claimStep]
    split_ifs with hx
    · exact .claimed hx.1
    · exact .failed hx
  | moveOut pos => exact .movedOut
  | release pos x => exact .released

/-- What a step of the producer inside `push` does. -/
inductive ProducerTook (moved : α → α) (spurious : Bool) (r : SpscRingBuffer α) :
    ProducerPc α → SpscRingBuffer α → ProducerPc α → List (RingEvent α) → Prop where
  | loadTail {x : α} : ProducerTook moved spurious r (.loadTail x) r (.check ⟨x, r.tail, false⟩) []
  | vacated {l : PushLocals α} (hs : (r.cell l.pos).sequence = l.pos) :
      ProducerTook moved spurious r (.check l) r (.write l) []
  | full {l : PushLocals α} (hs : (r.cell l.pos).sequence ≠ l.pos) :
      ProducerTook moved spurious r (.check l) r (.reclaim l .loadHead) [.full]
  | claiming {l : PushLocals α} {claim claim' : ClaimPc α} {r' : SpscRingBuffer α} {out : List (RingEvent α)}
      (hc : ClaimTook moved .producer spurious r claim r' (.pc claim') out) :
      ProducerTook moved spurious r (.reclaim l claim) r' (.reclaim l claim') out
  | nothing {l : PushLocals α} {claim : ClaimPc α} {r' : SpscRingBuffer α} {out : List (RingEvent α)}
      (hc : ClaimTook moved .producer spurious r claim r' (.returned none) out) :
      ProducerTook moved spurious r (.reclaim l claim) r' (.check l) out
  | reclaimed {l : PushLocals α} {claim : ClaimPc α} {x : α} {r' : SpscRingBuffer α} {out : List (RingEvent α)}
      (hc : ClaimTook moved .producer spurious r claim r' (.returned (some x)) out) :
      ProducerTook moved spurious r (.reclaim l claim) r' (.countDrop l) out
  | countDrop {l : PushLocals α} :
      ProducerTook moved spurious r (.countDrop l) { r with dropped := r.dropped + 1 } (.check { l with dropped := true })
        [.dropCounted]
  | write {l : PushLocals α} : ProducerTook moved spurious r (.write l) (r.setData l.pos l.item) (.publish l) []
  | publish {l : PushLocals α} :
      ProducerTook moved spurious r (.publish l) (r.setSequence l.pos (l.pos + 1)) (.storeTail l)
        [.published (r.cell l.pos).data]
  | storeTail {l : PushLocals α} :
      ProducerTook moved spurious r (.storeTail l) { r with tail := l.pos + 1 } .idle [.pushReturned !l.dropped]

theorem producerStep_took {spurious : Bool} {r r' : SpscRingBuffer α} {p p' : ProducerPc α} {out : List (RingEvent α)}
    (hs : producerStep moved spurious r p = some (r', p', out)) : ProducerTook moved spurious r p r' p' out := by
  cases p with
  | idle => cases hs
  | loadTail x => cases hs; exact .loadTail
  | check l =>
    simp only [producerStep] at hs
    split_ifs at hs with h
    · cases hs; exact .vacated h
    · cases hs; exact .full h
  | reclaim l claim =>
    have hc := claimStep_took moved .producer spurious r claim
    simp only [producerStep] at hs
    split at hs <;> rename_i heq <;> rw [heq] at hc <;> cases hs
    · exact .claiming hc
    · exact .nothing hc
    · exact .reclaimed hc
  | countDrop l => cases hs; exact .countDrop
  | write l => cases hs; exact .write
  | publish l => cases hs; exact .publish
  | storeTail l => cases hs; exact .storeTail

/-- What a step of the consumer inside `pop` does. -/
inductive ConsumerTook (moved : α → α) (spurious : Bool) (r : SpscRingBuffer α) :
    ConsumerPc α → SpscRingBuffer α → ConsumerPc α → List (RingEvent α) → Prop where
  | claiming {claim claim' : ClaimPc α} {r' : SpscRingBuffer α} {out : List (RingEvent α)}
      (hc : ClaimTook moved .consumer spurious r claim r' (.pc claim') out) :
      ConsumerTook moved spurious r (.pop claim) r' (.pop claim') out
  | returned {claim : ClaimPc α} {x : Option α} {r' : SpscRingBuffer α} {out : List (RingEvent α)}
      (hc : ClaimTook moved .consumer spurious r claim r' (.returned x) out) :
      ConsumerTook moved spurious r (.pop claim) r' .idle (out ++ [.popReturned x])

theorem consumerStep_took {spurious : Bool} {r r' : SpscRingBuffer α} {c c' : ConsumerPc α} {out : List (RingEvent α)}
    (hs : consumerStep moved spurious r c = some (r', c', out)) : ConsumerTook moved spurious r c r' c' out := by
  cases c with
  | idle => cases hs
  | pop claim =>
    have hc := claimStep_took moved .consumer spurious r claim
    simp only [consumerStep] at hs
    split at hs <;> rename_i heq <;> rw [heq] at hc <;> cases hs
    · exact .claiming hc
    · exact .returned hc

namespace RingState

/-- What a step of the machine does. -/
inductive Took (moved : α → α) : RingState α → RingAction α → RingState α → List (RingEvent α) → Prop where
  | push {r : SpscRingBuffer α} {c : ConsumerPc α} {x : α} :
      Took moved ⟨r, .idle, c⟩ (.push x) ⟨r, .loadTail x, c⟩ [.pushCalled x]
  | pop {r : SpscRingBuffer α} {p : ProducerPc α} : Took moved ⟨r, p, .idle⟩ .pop ⟨r, p, .pop .loadHead⟩ [.popCalled]
  | producer {spurious : Bool} {r r' : SpscRingBuffer α} {p p' : ProducerPc α} {c : ConsumerPc α} {out : List (RingEvent α)}
      (hp : ProducerTook moved spurious r p r' p' out) : Took moved ⟨r, p, c⟩ (.producer spurious) ⟨r', p', c⟩ out
  | consumer {spurious : Bool} {r r' : SpscRingBuffer α} {p : ProducerPc α} {c c' : ConsumerPc α} {out : List (RingEvent α)}
      (hc : ConsumerTook moved spurious r c r' c' out) : Took moved ⟨r, p, c⟩ (.consumer spurious) ⟨r', p, c'⟩ out

theorem step_took {s s' : RingState α} {a : RingAction α} {out : List (RingEvent α)} (hs : s.step moved a = some (s', out)) :
    Took moved s a s' out := by
  obtain ⟨r, p, c⟩ := s
  cases a with
  | push x =>
    cases p with
    | idle => cases hs; exact .push
    | _ => cases hs
  | pop =>
    cases c with
    | idle => cases hs; exact .pop
    | _ => cases hs
  | producer spurious =>
    simp only [step, Option.map_eq_some_iff, Prod.exists] at hs
    obtain ⟨r', p', out', hp, hs⟩ := hs
    cases hs
    exact .producer (producerStep_took hp)
  | consumer spurious =>
    simp only [step, Option.map_eq_some_iff, Prod.exists] at hs
    obtain ⟨r', c', out', hc, hs⟩ := hs
    cases hs
    exact .consumer (consumerStep_took hc)

end RingState

end TradeSurveillance
