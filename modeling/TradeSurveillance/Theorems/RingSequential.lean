import TradeSurveillance.Lib.BoundedQueue
import TradeSurveillance.Theorems.RingAccounting
import TradeSurveillance.Theorems.RingProgress

/-!
# One call after the other

When the calls of `push` and `pop` do not overlap the ring is a queue that drops its oldest element (`ring_sequential`). A call alone
ends in one state, whichever of its compare-exchanges fail: the loop of `try_claim_front` comes back to where it was, and the loop of
`push` goes round once at most.
-/

namespace TradeSurveillance

open Counter

variable {α : Type}

/-! ## Calls -/

/-- A call; `out` is what the argument of `pop` holds before it. -/
inductive RingCall (α : Type) where
  | push (item : α)
  | pop (out : α)

/-- What a call returns; `out` is what the argument of `pop` holds after it. -/
inductive CallResult (α : Type) where
  | pushed (added : Bool)
  | popped (found : Bool) (out : α)
  deriving DecidableEq, Repr

namespace RingCall

/-- The thread enters the call. -/
def enter : RingCall α → RingAction α
  | .push item => .push item
  | .pop _ => .pop

/-- The thread takes a step in the call. -/
def next : RingCall α → Bool → RingAction α
  | .push _ => .producer
  | .pop _ => .consumer

/-- The call from its entry on, no other thread taking a step: steps at which a compare-exchange may fail spuriously, and after them
twelve at which it does not. -/
def actions (call : RingCall α) (spurious : List Bool) : List (RingAction α) :=
  call.enter :: (spurious ++ List.replicate 12 false).map call.next

/-- What the events of a call say about its result: `pop` returned, and `out` was written when an element was moved out. -/
def result (call : RingCall α) (log : List (RingEvent α)) : List (CallResult α) :=
  match call with
  | .push _ => log.filterMap fun | .pushReturned added => some (.pushed added) | _ => none
  | .pop out =>
    let written := log.filterMap fun | .took .consumer x => some x | _ => none
    log.filterMap fun | .popReturned x => some (.popped x.isSome (written.getLastD out)) | _ => none

/-- The call on a queue. -/
def apply {capacity : ℕ} [NeZero capacity] (call : RingCall α) (q : BoundedQueue α capacity) :
    CallResult α × BoundedQueue α capacity :=
  match call with
  | .push item => (.pushed (q.push item).1, (q.push item).2)
  | .pop out => (.popped q.pop.1.isSome (q.pop.1.getD out), q.pop.2)

end RingCall

/-- Calls one after the other, with the steps at which their compare-exchanges fail spuriously: the state after them and what they
returned. -/
def runCalls [Inhabited α] (moved : α → α) (capacity : Word) :
    RingState α → List (RingCall α × List Bool) → RingState α × List (CallResult α)
  | s, [] => (s, [])
  | s, (call, spurious) :: calls =>
    let (s', log) := (ringMachine moved capacity).attempts (s, []) (call.actions spurious)
    let (s'', results) := runCalls moved capacity s' calls
    (s'', call.result log ++ results)

/-- The same calls on a queue. -/
def queueCalls {capacity : ℕ} [NeZero capacity] :
    BoundedQueue α capacity → List (RingCall α) → BoundedQueue α capacity × List (CallResult α)
  | q, [] => (q, [])
  | q, call :: calls =>
    let (result, q') := call.apply q
    let (q'', results) := queueCalls q' calls
    (q'', result :: results)

/-- Both threads are outside a call and the ring holds what the queue does. -/
structure Represents (k : ℕ) (s : RingState α) (q : BoundedQueue α (2 ^ k)) : Prop where
  idle : s.producer = .idle ∧ s.consumer = .idle
  contents : s.ring.contents = q.elements
  size : s.ring.sizeApprox.toNat = q.elements.length
  /-- `dropped_count()` is a 64-bit word. -/
  dropped : s.ring.dropped = word q.removed

/-! ## The steps of a call -/

section Steps

variable [Inhabited α] {moved : α → α} {capacity : Word} {k gp gc n : ℕ} {r : SpscRingBuffer α} {h h' : RingHistory α}
  {s s₁ s₂ : RingState α} {act : Bool → RingAction α} {e : RingEvent α} {out : List (RingEvent α)} {l : PushLocals α}

/-- The steps of a call from a state on: they end with both threads outside a call, at latest `n` steps after the last spurious failure,
having emitted these events and made this history. -/
def Ends (moved : α → α) (capacity : Word) (k : ℕ) (act : Bool → RingAction α) (n : ℕ) (s : RingState α)
    (out : List (RingEvent α)) (h' : RingHistory α) : Prop :=
  ∃ r gp gc, (ringMachine moved capacity).Settles act n s ⟨r, .idle, .idle⟩ out ∧ RingInv k ⟨r, .idle, .idle⟩ h' gp gc

/-- A call that ends goes through one more step that shows nothing. -/
theorem Ends.silent (he : Ends moved capacity k act n s₁ out h') (hs : ∀ b, s.step moved (act b) = some (s₁, [])) :
    Ends moved capacity k act (n + 1) s out h' := by
  obtain ⟨r, gp, gc, hsettles, hi⟩ := he
  exact ⟨r, gp, gc, Machine.settles_step hs hsettles, hi⟩

/-- A call that ends goes through one more step that shows an event. -/
theorem Ends.emit (he : Ends moved capacity k act n s₁ out h') (hs : ∀ b, s.step moved (act b) = some (s₁, [e])) :
    Ends moved capacity k act (n + 1) s (e :: out) h' := by
  obtain ⟨r, gp, gc, hsettles, hi⟩ := he
  exact ⟨r, gp, gc, Machine.settles_step hs hsettles, hi⟩

/-- A compare-exchange that may fail goes back to the load before it. -/
theorem Ends.retry (he : Ends moved capacity k act n s₂ out h') (s₁ : RingState α) (hs : ∀ b, s.step moved (act b) = some (s₁, []))
    (hfail : s₁.step moved (act true) = some (s, [])) (hgo : s₁.step moved (act false) = some (s₂, [e])) :
    Ends moved capacity k act (n + 2) s (e :: out) h' := by
  obtain ⟨r, gp, gc, hsettles, hi⟩ := he
  exact ⟨r, gp, gc, Machine.settles_retry hs hfail hgo hsettles, hi⟩

/-- `push` writes and publishes its element. -/
theorem ends_write (hk : k ≤ 63) (hi : RingInv k ⟨r, .write l, .idle⟩ h gp gc) :
    Ends moved capacity k .producer 3 ⟨r, .write l, .idle⟩ [.published l.item, .pushReturned !l.dropped]
      (h.add (.published l.item)) := by
  have hdata : ((r.setData l.pos l.item).cell l.pos).data = l.item :=
    congrArg Cell.data (Function.update_self (l.pos &&& r.mask) _ r.cells)
  have hi2 := ((hi.write hk).publish hk).storeTail
  rw [hdata] at hi2
  have hidle : Ends moved capacity k .producer 0 _ [] (h.add (.published l.item)) :=
    ⟨_, gp, gc, Machine.settles_stop fun _ => rfl, hi2⟩
  have hstore : Ends moved capacity k .producer 1 ⟨(r.setData l.pos l.item).setSequence l.pos (l.pos + 1), .storeTail l, .idle⟩
      [.pushReturned !l.dropped] (h.add (.published l.item)) := hidle.emit fun _ => rfl
  have hpublish : Ends moved capacity k .producer 2 ⟨r.setData l.pos l.item, .publish l, .idle⟩
      [.published l.item, .pushReturned !l.dropped] (h.add (.published l.item)) := by
    refine hstore.emit ?_
    intro b
    simp only [RingState.step, producerStep, hdata, Option.map_some]
  exact hpublish.silent fun _ => rfl

/-- `push` finds its cell vacated. -/
theorem ends_vacated (moved : α → α) (capacity : Word) (hk1 : 1 ≤ k) (hk : k ≤ 63) (hi : RingInv k ⟨r, .check l, .idle⟩ h gp gc)
    (hroom : h.published.length < h.claims.length + 2 ^ k) :
    Ends moved capacity k .producer 4 ⟨r, .check l, .idle⟩ [.published l.item, .pushReturned !l.dropped]
      (h.add (.published l.item)) := by
  have hvacant : Vacant k (.idle : ConsumerPc α) h.published.length h.claims.length := ⟨hroom, fun _ hpos => by cases hpos⟩
  have hseq := (sequence_eq_iff_vacant hk1 hk hi).2 hvacant
  refine (ends_write hk (hi.checkVacated hk1 hk hseq)).silent ?_
  intro b
  simp only [RingState.step, producerStep, if_pos hseq, Option.map_some]

omit [Inhabited α] in
/-- At the front of a ring that is not empty the element is published. -/
theorem sequence_front {p : ProducerPc α} {c : ConsumerPc α} (hk : k ≤ 63) (hi : RingInv k ⟨r, p, c⟩ h gp gc)
    (hlt : h.claims.length < h.published.length) :
    (r.cell r.head).sequence = r.head + 1 ∧ h.published[h.claims.length]? = some (r.cell r.head).data := by
  have hcell : r.cell r.head = r.cells (slot 64 k h.claims.length) := by
    rw [hi.head, cell_word hi.mask (by omega)]
  rw [hcell]
  refine ⟨?_, hi.cells.unclaimed_data _ (Nat.le_refl _) hlt⟩
  rw [hi.cells.unclaimed _ (Nat.le_refl _) hlt, hi.head, ofNat_succ]

/-- The loop of `try_claim_front` in `push`, at the front. -/
theorem ends_reclaim (hseq : (r.cell r.head).sequence = r.head + 1)
    (he : Ends moved capacity k .producer n ⟨{ r with head := r.head + 1 }, .reclaim l (.moveOut r.head), .idle⟩ out h') :
    Ends moved capacity k .producer (n + 3) ⟨r, .reclaim l .loadHead, .idle⟩ (.claimed .producer :: out) h' := by
  have hclaim : Ends moved capacity k .producer (n + 2) ⟨r, .reclaim l (.loadSequence r.head), .idle⟩
      (.claimed .producer :: out) h' := by
    refine he.retry ⟨r, .reclaim l (.exchange r.head), .idle⟩ ?_ ?_ ?_
    · intro b
      simp only [RingState.step, producerStep, claimStep, if_pos hseq, Option.map_some]
    · simp [RingState.step, producerStep, claimStep]
    · simp [RingState.step, producerStep, claimStep]
  exact hclaim.silent fun _ => rfl

/-- The same loop in `pop`. -/
theorem ends_claim (hseq : (r.cell r.head).sequence = r.head + 1)
    (he : Ends moved capacity k .consumer n ⟨{ r with head := r.head + 1 }, .idle, .pop (.moveOut r.head)⟩ out h') :
    Ends moved capacity k .consumer (n + 3) ⟨r, .idle, .pop .loadHead⟩ (.claimed .consumer :: out) h' := by
  have hclaim : Ends moved capacity k .consumer (n + 2) ⟨r, .idle, .pop (.loadSequence r.head)⟩ (.claimed .consumer :: out) h' := by
    refine he.retry ⟨r, .idle, .pop (.exchange r.head)⟩ ?_ ?_ ?_
    · intro b
      simp only [RingState.step, consumerStep, claimStep, if_pos hseq, Option.map_some]
    · simp [RingState.step, consumerStep, claimStep]
    · simp [RingState.step, consumerStep, claimStep]
  exact hclaim.silent fun _ => rfl

/-- The history after a reclaim has claimed, moved out and counted the element `x`. -/
def RingHistory.reclaimed (h : RingHistory α) (x : α) : RingHistory α :=
  ((h.add (.claimed .producer)).add (.took .producer x)).add .dropCounted

/-- `push` finds its cell not vacated: the ring is full, and one reclaim makes room. -/
theorem ends_full (moved : α → α) (capacity : Word) (hk1 : 1 ≤ k) (hk : k ≤ 63) (hi : RingInv k ⟨r, .check l, .idle⟩ h gp gc)
    (hfull : h.published.length = h.claims.length + 2 ^ k) : ∃ x, h.published[h.claims.length]? = some x ∧
      Ends moved capacity k .producer 11 ⟨r, .check l, .idle⟩
        [.full, .claimed .producer, .took .producer x, .dropCounted, .published l.item, .pushReturned false]
        ((h.reclaimed x).add (.published l.item)) := by
  have hpos := Nat.two_pow_pos k
  have hne : (r.cell l.pos).sequence ≠ l.pos := by
    intro hseq
    have := ((sequence_eq_iff_vacant hk1 hk hi).1 hseq).1
    omega
  have hhead : RingInv k ⟨r, .reclaim l (.loadSequence r.head), .idle⟩ h h.claims.length gc :=
    (hi.checkFull hk hne).reclaimLoadHead rfl
  obtain ⟨hseq, hfront⟩ := sequence_front hk hhead (by omega)
  have hmove := ((hhead.reclaimSeen hk1 hk hseq).reclaimClaim hk rfl).reclaimMove moved hk
  have hdropped := (hmove.reclaimRelease hk).countDrop
  have hroom : (h.reclaimed (r.cell r.head).data).published.length < (h.reclaimed (r.cell r.head).data).claims.length + 2 ^ k := by
    simp only [RingHistory.reclaimed, RingHistory.add, List.length_append, List.length_singleton]
    omega
  refine ⟨_, hfront, ?_⟩
  have hcount := (ends_vacated moved capacity hk1 hk hdropped hroom).emit (s := ⟨_, .countDrop l, .idle⟩) fun _ => rfl
  have hrelease := hcount.silent (s := ⟨_, .reclaim l (.release r.head (r.cell r.head).data), .idle⟩) fun _ => rfl
  have htook := hrelease.emit (s := ⟨{ r with head := r.head + 1 }, .reclaim l (.moveOut r.head), .idle⟩) fun _ => rfl
  refine (ends_reclaim hseq htook).emit ?_
  intro b
  simp only [RingState.step, producerStep, if_neg hne, Option.map_some]

/-- `pop` takes the front element of a ring that is not empty. -/
theorem ends_pop (moved : α → α) (capacity : Word) (hk1 : 1 ≤ k) (hk : k ≤ 63) (hi : RingInv k ⟨r, .idle, .pop .loadHead⟩ h gp gc)
    (hlt : h.claims.length < h.published.length) : ∃ x, h.published[h.claims.length]? = some x ∧
      Ends moved capacity k .consumer 5 ⟨r, .idle, .pop .loadHead⟩ [.claimed .consumer, .took .consumer x, .popReturned (some x)]
        ((h.add (.claimed .consumer)).add (.took .consumer x)) := by
  have hhead : RingInv k ⟨r, .idle, .pop (.loadSequence r.head)⟩ h gp h.claims.length := hi.popLoadHead rfl
  obtain ⟨hseq, hfront⟩ := sequence_front hk hhead hlt
  obtain ⟨g, hseen⟩ := hhead.popSeen hk1 hk hseq
  have hreleased := ((hseen.popClaim hk1 rfl).popMove moved hk).popRelease hk
  refine ⟨_, hfront, ?_⟩
  have hidle : Ends moved capacity k .consumer 0 _ [] _ := ⟨_, _, _, Machine.settles_stop fun _ => rfl, hreleased⟩
  have hrelease := hidle.emit (s := ⟨_, .idle, .pop (.release r.head (r.cell r.head).data)⟩) fun _ => rfl
  have htook := hrelease.emit (s := ⟨{ r with head := r.head + 1 }, .idle, .pop (.moveOut r.head)⟩) fun _ => rfl
  exact ends_claim hseq htook

/-- `pop` finds the ring empty. -/
theorem ends_empty (moved : α → α) (capacity : Word) (hk1 : 1 ≤ k) (hk : k ≤ 63) (hi : RingInv k ⟨r, .idle, .pop .loadHead⟩ h gp gc)
    (hempty : h.published.length = h.claims.length) :
    Ends moved capacity k .consumer 2 ⟨r, .idle, .pop .loadHead⟩ [.popReturned none] h := by
  have hpos := Nat.two_pow_pos k
  have hhead : RingInv k ⟨r, .idle, .pop (.loadSequence r.head)⟩ h gp h.claims.length := hi.popLoadHead rfl
  have hseq : (r.cell r.head).sequence = r.head := by
    rw [hi.head, cell_word hi.mask (by omega), ← hempty]
    refine hi.cells.vacant _ (Nat.le_refl _) (by omega) ?_
    intro t i ht
    cases t <;> cases ht
  have hne : (r.cell r.head).sequence ≠ r.head + 1 := by
    rw [hseq, hi.head, ofNat_succ]
    exact ofNat_ne_succ (by omega)
  have hidle : Ends moved capacity k .consumer 0 _ [] h := ⟨_, _, _, Machine.settles_stop fun _ => rfl, hhead.popEmpty⟩
  have hload : Ends moved capacity k .consumer 1 ⟨r, .idle, .pop (.loadSequence r.head)⟩ [.popReturned none] h := by
    refine hidle.emit ?_
    intro b
    simp only [RingState.step, consumerStep, claimStep, if_neg hne, if_pos hseq, Option.map_some, List.nil_append]
  exact hload.silent fun _ => rfl

end Steps

/-! ## The queue of a history -/

/-- The ring between two calls, with a history of published and not claimed elements that are the queue's. -/
structure Holds (k : ℕ) (r : SpscRingBuffer α) (h : RingHistory α) (q : BoundedQueue α (2 ^ k)) : Prop where
  inv : ∃ gp gc, RingInv k ⟨r, .idle, .idle⟩ h gp gc
  elements : q.elements = h.published.drop h.claims.length
  removed : q.removed = h.counted

namespace Holds

variable {moved : α → α} {capacity : Word} {k : ℕ} {r : SpscRingBuffer α} {h : RingHistory α} {q : BoundedQueue α (2 ^ k)}

/-- The elements of the queue are those published and not claimed. -/
theorem length (hh : Holds k r h q) : h.claims.length + q.elements.length = h.published.length := by
  obtain ⟨gp, gc, hi⟩ := hh.inv
  have hle := hi.cells.claimed_le
  rw [hh.elements, List.length_drop]
  omega

/-- The queue is full when the ring is. -/
theorem full_iff (hh : Holds k r h q) : q.Full ↔ h.published.length = h.claims.length + 2 ^ k := by
  have hlen := hh.length
  have hfull : q.Full ↔ q.elements.length = 2 ^ k := Iff.rfl
  rw [hfull]
  omega

/-- `head_` and `tail_` are a turn of the ring apart at most. -/
theorem size (hk : k ≤ 63) (hh : Holds k r h q) : r.sizeApprox.toNat = q.elements.length := by
  obtain ⟨gp, gc, hi⟩ := hh.inv
  have h63 : 2 ^ k ≤ 2 ^ 63 := Nat.pow_le_pow_right (by omega) hk
  have hbound := q.bounded
  have htail : r.tail = word h.published.length := hi.producer
  have hhead : r.head = word h.claims.length := hi.head
  have hsub : r.sizeApprox = word q.elements.length := by
    rw [SpscRingBuffer.sizeApprox, htail, hhead, ← hh.length, word, BitVec.ofNat_add, BitVec.add_comm]
    exact BitVec.add_sub_cancel _ _
  rw [hsub, BitVec.toNat_ofNat, Nat.mod_eq_of_lt (by omega)]

/-- A ring between calls represents the queue. -/
theorem represents (hk1 : 1 ≤ k) (hk : k ≤ 63) (hh : Holds k r h q) : Represents k ⟨r, .idle, .idle⟩ q := by
  obtain ⟨gp, gc, hi⟩ := hh.inv
  refine ⟨⟨rfl, rfl⟩, ?_, hh.size hk, ?_⟩
  · rw [hh.elements]
    exact contents_eq hk1 hk hi
  · rw [hh.removed]
    exact hi.dropped

variable [Inhabited α]

/-- The steps of a call, with its entry. -/
theorem attempts_actions (call : RingCall α) {n : ℕ} {s : RingState α} {e : RingEvent α} {out : List (RingEvent α)}
    {h' : RingHistory α} (he : Ends moved capacity k call.next n s out h') (hn : n ≤ 12)
    (hs : RingState.step moved ⟨r, .idle, .idle⟩ call.enter = some (s, [e])) (spurious : List Bool) :
    ∃ r',
      (ringMachine moved capacity).attempts (⟨r, .idle, .idle⟩, []) (call.actions spurious) = (⟨r', .idle, .idle⟩, e :: out) ∧
      ∃ gp gc, RingInv k ⟨r', .idle, .idle⟩ h' gp gc := by
  obtain ⟨r', gp, gc, hsettles, hi⟩ := he
  refine ⟨r', ?_, gp, gc, hi⟩
  have hfirst : (ringMachine moved capacity).attempt (⟨r, .idle, .idle⟩, []) call.enter = (s, [e]) := Machine.attempt_some hs
  have hrest := hsettles spurious 12 [e] hn
  rw [RingCall.actions, Machine.attempts, List.foldl_cons, hfirst]
  exact hrest

/-- What a call does to the ring is what it does to the queue, and it returns the same. -/
def Matches (moved : α → α) (capacity : Word) (r : SpscRingBuffer α) (q : BoundedQueue α (2 ^ k)) (call : RingCall α)
    (spurious : List Bool) : Prop :=
  ∃ r' h' log,
    (ringMachine moved capacity).attempts (⟨r, .idle, .idle⟩, []) (call.actions spurious) = (⟨r', .idle, .idle⟩, log) ∧
    call.result log = [(call.apply q).1] ∧ Holds k r' h' (call.apply q).2

/-- A call of `push` matches the queue's. -/
theorem push_step (moved : α → α) (capacity : Word) (hk1 : 1 ≤ k) (hk : k ≤ 63) (hh : Holds k r h q) (item : α)
    (spurious : List Bool) : Matches moved capacity r q (.push item) spurious := by
  have hlen := hh.length
  obtain ⟨gp, gc, hi⟩ := hh.inv
  have hroom := hi.cells.room
  have hcheck := (hi.pushCall (x := item)).loadTail
  by_cases hfull : q.Full
  · obtain ⟨hadded, helements, hremoved⟩ := BoundedQueue.push_of_full item hfull
    obtain ⟨x, -, hends⟩ := ends_full moved capacity hk1 hk hcheck (hh.full_iff.1 hfull)
    obtain ⟨r', hrun, hinv⟩ := attempts_actions (.push item) (hends.silent fun _ => rfl) (Nat.le_refl 12) rfl spurious
    refine ⟨r', _, _, hrun, ?_, hinv, ?_, ?_⟩
    · rw [RingCall.apply, hadded]
      rfl
    · have hclaims : (h.claims ++ [Thread.producer]).length = h.claims.length + 1 := List.length_append
      have hle : h.claims.length + 1 ≤ h.published.length := by
        have hsize := hh.full_iff.1 hfull
        have hpos := Nat.two_pow_pos k
        omega
      simp only [RingCall.apply, helements, hh.elements, RingHistory.reclaimed, RingHistory.add, List.tail_drop, hclaims]
      exact (List.drop_append_of_le_length hle).symm
    · simp [RingCall.apply, hremoved, hh.removed, RingHistory.reclaimed, RingHistory.add]
  · obtain ⟨hadded, helements, hremoved⟩ := BoundedQueue.push_of_not_full item hfull
    rw [hh.full_iff] at hfull
    have hends := ends_vacated moved capacity hk1 hk hcheck (by omega)
    obtain ⟨r', hrun, hinv⟩ := attempts_actions (.push item) (hends.silent fun _ => rfl) (by omega) rfl spurious
    refine ⟨r', _, _, hrun, ?_, hinv, ?_, ?_⟩
    · rw [RingCall.apply, hadded]
      rfl
    · simp only [RingCall.apply, helements, hh.elements, RingHistory.add]
      exact (List.drop_append_of_le_length hi.cells.claimed_le).symm
    · simp [RingCall.apply, hremoved, hh.removed, RingHistory.add]

/-- A call of `pop` matches the queue's. -/
theorem pop_step (moved : α → α) (capacity : Word) (hk1 : 1 ≤ k) (hk : k ≤ 63) (hh : Holds k r h q) (out : α)
    (spurious : List Bool) : Matches moved capacity r q (.pop out) spurious := by
  have hlen := hh.length
  obtain ⟨gp, gc, hi⟩ := hh.inv
  have hentered := hi.popCall
  by_cases hempty : h.published.length = h.claims.length
  · have hends := ends_empty moved capacity hk1 hk hentered hempty
    obtain ⟨r', hrun, hinv⟩ := attempts_actions (.pop out) hends (by omega) rfl spurious
    have hnil : q.elements = [] := List.eq_nil_of_length_eq_zero (by omega)
    refine ⟨r', _, _, hrun, ?_, hinv, ?_, hh.removed⟩
    · simp only [RingCall.apply, BoundedQueue.pop, hnil]
      rfl
    · simp only [RingCall.apply, BoundedQueue.pop, hnil]
      exact (List.drop_eq_nil_of_le hempty.le).symm
  · have hle := hi.cells.claimed_le
    obtain ⟨x, hx, hends⟩ := ends_pop moved capacity hk1 hk hentered (by omega)
    obtain ⟨r', hrun, hinv⟩ := attempts_actions (.pop out) hends (by omega) rfl spurious
    have hfirst : q.elements.head? = some x := by rw [hh.elements, List.head?_drop, hx]
    refine ⟨r', _, _, hrun, ?_, hinv, ?_, hh.removed⟩
    · simp only [RingCall.apply, BoundedQueue.pop, hfirst]
      rfl
    · have hclaims : (h.claims ++ [Thread.consumer]).length = h.claims.length + 1 := List.length_append
      simp only [RingCall.apply, BoundedQueue.pop, hh.elements, RingHistory.add, List.tail_drop, hclaims]

end Holds

/-! ## Every sequence of calls -/

section Sequential

variable [Inhabited α] {k : ℕ}

/-- The calls lead the ring where they lead the queue. -/
theorem runCalls_eq (moved : α → α) (capacity : Word) (hk1 : 1 ≤ k) (hk : k ≤ 63) (calls : List (RingCall α × List Bool)) :
    ∀ {r : SpscRingBuffer α} {h : RingHistory α} {q : BoundedQueue α (2 ^ k)}, Holds k r h q →
      Represents k (runCalls moved capacity ⟨r, .idle, .idle⟩ calls).1 (queueCalls q (calls.map Prod.fst)).1 ∧
        (runCalls moved capacity ⟨r, .idle, .idle⟩ calls).2 = (queueCalls q (calls.map Prod.fst)).2 := by
  induction calls with
  | nil =>
    intro r h q hh
    exact ⟨hh.represents hk1 hk, rfl⟩
  | cons first calls ih =>
    intro r h q hh
    obtain ⟨call, spurious⟩ := first
    have hstep : Holds.Matches moved capacity r q call spurious := by
      cases call with
      | push item => exact hh.push_step moved capacity hk1 hk item spurious
      | pop out => exact hh.pop_step moved capacity hk1 hk out spurious
    obtain ⟨r', h', log, hrun, hresult, hh'⟩ := hstep
    obtain ⟨hrep, hresults⟩ := ih hh'
    simp only [runCalls, queueCalls, List.map_cons, hrun]
    refine ⟨hrep, ?_⟩
    rw [hresult, hresults, List.singleton_append]

/-- A new ring holds the empty queue. -/
theorem holds_make {r : SpscRingBuffer α} (hr : SpscRingBuffer.make (word (2 ^ k)) = .ok r) :
    Holds k r (.ofLog []) (.empty : BoundedQueue α (2 ^ k)) := by
  refine ⟨⟨0, 0, ?_⟩, rfl, rfl⟩
  simp only [SpscRingBuffer.make] at hr
  split at hr
  · cases hr
  · cases hr
    exact RingInv.init default

/-- Every sequence of complete calls, whichever compare-exchanges fail in each of them. -/
theorem ring_sequential (moved : α → α) (hk1 : 1 ≤ k) (hk : k ≤ 63) (calls : List (RingCall α × List Bool)) :
    ∃ r, SpscRingBuffer.make (word (2 ^ k)) = .ok r ∧
      Represents k (runCalls moved (word (2 ^ k)) ⟨r, .idle, .idle⟩ calls).1
        (queueCalls (.empty : BoundedQueue α (2 ^ k)) (calls.map Prod.fst)).1 ∧
      (runCalls moved (word (2 ^ k)) ⟨r, .idle, .idle⟩ calls).2 =
        (queueCalls (.empty : BoundedQueue α (2 ^ k)) (calls.map Prod.fst)).2 := by
  obtain ⟨r, hr⟩ := (make_ok_iff (α := α)).2 ⟨k, hk1, hk, rfl⟩
  obtain ⟨hrep, hresults⟩ := runCalls_eq moved (word (2 ^ k)) hk1 hk calls (holds_make hr)
  exact ⟨r, hr, hrep, hresults⟩

/-- Four elements are pushed into a ring of two cells, a compare-exchange failing in the third call, and three pops follow. -/
theorem ring_sequential_four : ∃ r, SpscRingBuffer.make (word (2 ^ 1)) = .ok r ∧
    Represents 1 (runCalls id (word (2 ^ 1)) ⟨r, .idle, .idle⟩
      [(.push 1, []), (.push 2, []), (.push 3, [false, false, false, false, true]), (.push 4, []), (.pop 0, []), (.pop 0, []),
        (.pop 0, [])]).1
      (queueCalls (.empty : BoundedQueue ℕ (2 ^ 1)) [.push 1, .push 2, .push 3, .push 4, .pop 0, .pop 0, .pop 0]).1 ∧
    (runCalls id (word (2 ^ 1)) ⟨r, .idle, .idle⟩
      [(.push 1, []), (.push 2, []), (.push 3, [false, false, false, false, true]), (.push 4, []), (.pop 0, []), (.pop 0, []),
        (.pop 0, [])]).2 =
      [.pushed true, .pushed true, .pushed false, .pushed false, .popped true 3, .popped true 4, .popped false 0] :=
  ring_sequential id (Nat.le_refl 1) (by decide)
    [(.push 1, []), (.push 2, []), (.push 3, [false, false, false, false, true]), (.push 4, []), (.pop 0, []), (.pop 0, []),
      (.pop 0, [])]

end Sequential

end TradeSurveillance
