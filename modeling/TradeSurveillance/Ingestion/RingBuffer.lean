import TradeSurveillance.Basic
import TradeSurveillance.Lib.Machine

/-!
# `SpscRingBuffer`: one step for each atomic access

A producer thread runs calls of `push`, a consumer thread runs calls of `pop`; both take elements from the front through
`try_claim_front`. Every step of the machine is one access of the source to an atomic (`head_`, `tail_`, `dropped_`, a cell's
`sequence`) or one access to a cell's `data`, taken as sequentially consistent; what a thread computes between two accesses
belongs to the step before. A step emits an event where it is one a caller or the accounting can speak about.

`compare_exchange_weak` may fail although the values agree: the action of a step says whether it does so.
-/

namespace TradeSurveillance

/-- A cell of the ring: `sequence` says for which logical index the cell is vacated or published. -/
structure Cell (α : Type) where
  sequence : Word
  data : α

/-- The fields of `SpscRingBuffer`. `cells_` is indexed by words; only the indices up to `mask_` are ever read or written. -/
structure SpscRingBuffer (α : Type) where
  capacity : Word
  mask : Word
  cells : Word → Cell α
  head : Word
  tail : Word
  dropped : Word

namespace SpscRingBuffer

variable {α : Type}

/-- The constructor: it throws `std::invalid_argument` unless the capacity is a power of two of at least two. -/
def make [Inhabited α] (capacity : Word) : Except Str (SpscRingBuffer α) :=
  if capacity < 2 ∨ capacity &&& (capacity - 1) ≠ 0 then
    .error (ascii "SpscRingBuffer: capacity must be a power of two >= 2")
  else
    .ok { capacity := capacity, mask := capacity - 1, cells := fun i => ⟨i, default⟩, head := 0, tail := 0, dropped := 0 }

/-- `cells_[pos & mask_]`. -/
def cell (r : SpscRingBuffer α) (pos : Word) : Cell α := r.cells (pos &&& r.mask)

/-- Write `cells_[pos & mask_].sequence`. -/
def setSequence (r : SpscRingBuffer α) (pos seq : Word) : SpscRingBuffer α :=
  { r with cells := Function.update r.cells (pos &&& r.mask) { r.cell pos with sequence := seq } }

/-- Write `cells_[pos & mask_].data`. -/
def setData (r : SpscRingBuffer α) (pos : Word) (x : α) : SpscRingBuffer α :=
  { r with cells := Function.update r.cells (pos &&& r.mask) { r.cell pos with data := x } }

/-- `size_approx()`. -/
def sizeApprox (r : SpscRingBuffer α) : Word := r.tail - r.head

/-- The elements a consumer alone would find from position `pos` on, at most `n` of them: as long as the cell is published
for its position. -/
def contentsFrom (r : SpscRingBuffer α) : ℕ → Word → List α
  | 0, _ => []
  | n + 1, pos => if (r.cell pos).sequence = pos + 1 then (r.cell pos).data :: r.contentsFrom n (pos + 1) else []

/-- The elements in the buffer, oldest first. -/
def contents (r : SpscRingBuffer α) : List α := r.contentsFrom r.capacity.toNat r.head

end SpscRingBuffer

/-- The two threads. -/
inductive Thread where
  | producer | consumer
  deriving DecidableEq, Repr

/-- The thread on the other side. -/
def Thread.other : Thread → Thread
  | .producer => .consumer
  | .consumer => .producer

/-- What a run can be seen to do. -/
inductive RingEvent (α : Type) where
  | pushCalled (item : α)
  /-- `push` found the cell of its position not vacated. -/
  | full
  /-- `push` stored the sequence number that publishes the element. -/
  | published (item : α)
  | pushReturned (added : Bool)
  | popCalled
  | popReturned (out : Option α)
  /-- The compare-exchange of `try_claim_front` on `head_` succeeded. -/
  | claimed (by_ : Thread)
  /-- `out = std::move(cell.data)`. -/
  | took (by_ : Thread) (item : α)
  /-- `dropped_.fetch_add(1)`. -/
  | dropCounted

/-- Where a call of `try_claim_front` stands: the access it makes next, with its local `pos`. -/
inductive ClaimPc (α : Type) where
  | loadHead
  | loadSequence (pos : Word)
  | exchange (pos : Word)
  | moveOut (pos : Word)
  | release (pos : Word) (out : α)

/-- What a step of `try_claim_front` leads to: a next access, or the return, with the element where it returns true. -/
inductive ClaimNext (α : Type) where
  | pc (pc : ClaimPc α)
  | returned (out : Option α)

/-- The locals of a call of `push`. -/
structure PushLocals (α : Type) where
  item : α
  pos : Word
  dropped : Bool

/-- Where the producer stands: outside a call, or at the access of `push` it makes next. -/
inductive ProducerPc (α : Type) where
  | idle
  | loadTail (item : α)
  | check (l : PushLocals α)
  | reclaim (l : PushLocals α) (claim : ClaimPc α)
  | countDrop (l : PushLocals α)
  | write (l : PushLocals α)
  | publish (l : PushLocals α)
  | storeTail (l : PushLocals α)

/-- Where the consumer stands: outside a call, or in `pop`, which is `try_claim_front`. -/
inductive ConsumerPc (α : Type) where
  | idle
  | pop (claim : ClaimPc α)

/-- The buffer and the two threads. -/
structure RingState (α : Type) where
  ring : SpscRingBuffer α
  producer : ProducerPc α
  consumer : ConsumerPc α

/-- The actions: a thread enters a call, or takes its next step. `spurious`: where the step is a compare-exchange, it fails
although the values agree. -/
inductive RingAction (α : Type) where
  | push (item : α)
  | pop
  | producer (spurious : Bool)
  | consumer (spurious : Bool)

section Steps

variable {α : Type} (moved : α → α)

/-- One step of `try_claim_front`. `moved x` is what a cell holds after its element `x` was moved out of it. -/
def claimStep (t : Thread) (spurious : Bool) (r : SpscRingBuffer α) :
    ClaimPc α → SpscRingBuffer α × ClaimNext α × List (RingEvent α)
  | .loadHead => (r, .pc (.loadSequence r.head), [])
  | .loadSequence pos =>
    if (r.cell pos).sequence = pos + 1 then (r, .pc (.exchange pos), [])
    else if (r.cell pos).sequence = pos then (r, .returned none, [])
    else (r, .pc .loadHead, [])
  | .exchange pos =>
    -- a failed compare-exchange refreshes `pos` with the current `head_`
    if r.head = pos ∧ spurious = false then ({ r with head := pos + 1 }, .pc (.moveOut pos), [.claimed t])
    else (r, .pc (.loadSequence r.head), [])
  | .moveOut pos =>
    (r.setData pos (moved (r.cell pos).data), .pc (.release pos (r.cell pos).data), [.took t (r.cell pos).data])
  | .release pos out => (r.setSequence pos (pos + r.capacity), .returned (some out), [])

/-- One step of the producer inside `push`. -/
def producerStep (spurious : Bool) (r : SpscRingBuffer α) :
    ProducerPc α → Option (SpscRingBuffer α × ProducerPc α × List (RingEvent α))
  | .idle => none
  | .loadTail item => some (r, .check ⟨item, r.tail, false⟩, [])
  | .check l =>
    if (r.cell l.pos).sequence = l.pos then some (r, .write l, []) else some (r, .reclaim l .loadHead, [.full])
  | .reclaim l claim =>
    match claimStep moved .producer spurious r claim with
    | (r', .pc claim', out) => some (r', .reclaim l claim', out)
    | (r', .returned none, out) => some (r', .check l, out)
    | (r', .returned (some _), out) => some (r', .countDrop l, out)
  | .countDrop l => some ({ r with dropped := r.dropped + 1 }, .check { l with dropped := true }, [.dropCounted])
  | .write l => some (r.setData l.pos l.item, .publish l, [])
  | .publish l => some (r.setSequence l.pos (l.pos + 1), .storeTail l, [.published (r.cell l.pos).data])
  | .storeTail l => some ({ r with tail := l.pos + 1 }, .idle, [.pushReturned !l.dropped])

/-- One step of the consumer inside `pop`. -/
def consumerStep (spurious : Bool) (r : SpscRingBuffer α) :
    ConsumerPc α → Option (SpscRingBuffer α × ConsumerPc α × List (RingEvent α))
  | .idle => none
  | .pop claim =>
    match claimStep moved .consumer spurious r claim with
    | (r', .pc claim', out) => some (r', .pop claim', out)
    | (r', .returned out', out) => some (r', .idle, out ++ [.popReturned out'])

/-- One step of the machine. -/
def RingState.step (s : RingState α) : RingAction α → Option (RingState α × List (RingEvent α))
  | .push item =>
    match s.producer with
    | .idle => some ({ s with producer := .loadTail item }, [.pushCalled item])
    | _ => none
  | .pop =>
    match s.consumer with
    | .idle => some ({ s with consumer := .pop .loadHead }, [.popCalled])
    | _ => none
  | .producer spurious =>
    (producerStep moved spurious s.ring s.producer).map fun (r, pc, out) => ({ s with ring := r, producer := pc }, out)
  | .consumer spurious =>
    (consumerStep moved spurious s.ring s.consumer).map fun (r, pc, out) => ({ s with ring := r, consumer := pc }, out)

/-- The machine of a buffer constructed with this capacity, both threads outside a call. -/
def ringMachine [Inhabited α] (capacity : Word) : Machine (RingState α) (RingAction α) (RingEvent α) where
  init s := ∃ r, SpscRingBuffer.make capacity = .ok r ∧ s = ⟨r, .idle, .idle⟩
  step := RingState.step moved

end Steps

/-! ## What a log says -/

section Log

variable {α : Type}

/-- The element `pop` has moved out and not returned yet. -/
def ConsumerPc.inHand : ConsumerPc α → List α
  | .pop (.release _ out) => [out]
  | _ => []

/-- The elements `push` was called with, in order. -/
def pushed (log : List (RingEvent α)) : List α :=
  log.filterMap fun | .pushCalled x => some x | _ => none

/-- The elements `pop` returned, in order. -/
def popped (log : List (RingEvent α)) : List α :=
  log.filterMap fun | .popReturned out => out | _ => none

@[simp] theorem pushed_append (log out : List (RingEvent α)) : pushed (log ++ out) = pushed log ++ pushed out :=
  List.filterMap_append

@[simp] theorem popped_append (log out : List (RingEvent α)) : popped (log ++ out) = popped log ++ popped out :=
  List.filterMap_append

end Log

/-- What a run has done so far: the elements published, in order; which thread won each claim of the front element, in
order; the elements each thread moved out of a cell, in order; and how often `dropped_` was incremented. -/
structure RingHistory (α : Type) where
  published : List α
  claims : List Thread
  taken : Thread → List α
  counted : ℕ

namespace RingHistory

variable {α : Type}

/-- One more event. -/
def add (h : RingHistory α) : RingEvent α → RingHistory α
  | .published x => { h with published := h.published ++ [x] }
  | .claimed t => { h with claims := h.claims ++ [t] }
  | .took t x => { h with taken := Function.update h.taken t (h.taken t ++ [x]) }
  | .dropCounted => { h with counted := h.counted + 1 }
  | _ => h

/-- The history of a log. -/
def ofLog (log : List (RingEvent α)) : RingHistory α :=
  log.foldl add { published := [], claims := [], taken := fun _ => [], counted := 0 }

/-- The elements `pop` moved out, in the order it did. -/
def delivered (h : RingHistory α) : List α := h.taken .consumer

/-- The elements the reclaim of `push` moved out, in the order it did. -/
def discarded (h : RingHistory α) : List α := h.taken .producer

/-- The published elements that fall to a thread: the n-th claim takes the n-th published element. -/
def share (h : RingHistory α) (t : Thread) : List α :=
  ((h.claims.zip h.published).filter (fun p => decide (p.1 = t))).map (·.2)

@[simp] theorem ofLog_append (log out : List (RingEvent α)) : ofLog (log ++ out) = out.foldl add (ofLog log) := by
  simp [ofLog, List.foldl_append]

end RingHistory

end TradeSurveillance
