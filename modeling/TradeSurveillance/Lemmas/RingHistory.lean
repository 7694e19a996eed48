import TradeSurveillance.Lemmas.RingStep

/-!
# What the log of a run of the ring says

The claims split the published elements between the two threads; what `push` was called with is published in order, and what the
consumer takes `pop` returns in order.
-/

namespace TradeSurveillance

open Counter

variable {α : Type}

/-! ## Shares partition the claimed elements -/

/-- The right side of a zip is as long as the left allows. -/
theorem map_snd_zip_take {β γ : Type} (l : List β) (r : List γ) : (l.zip r).map (·.2) = r.take l.length := by
  induction l generalizing r with
  | nil => simp
  | cons b l ih =>
    cases r with
    | nil => simp
    | cons c r => simp only [List.zip_cons_cons, List.map_cons, List.length_cons, List.take_succ_cons, ih r]

namespace RingHistory

variable (h : RingHistory α)

/-- The elements of a share come in push order. -/
theorem share_sublist (t : Thread) : (h.share t).Sublist h.published := by
  have h1 := (List.filter_sublist (p := fun p : Thread × α => decide (p.1 = t)) (l := h.claims.zip h.published)).map (·.2)
  rw [map_snd_zip_take] at h1
  exact h1.trans (List.take_sublist _ _)

/-- The two shares are what is claimed. -/
theorem shares_perm : (h.share .consumer ++ h.share .producer).Perm (h.published.take h.claims.length) := by
  have hp : (fun p : Thread × α => decide (p.1 = .producer)) = fun p => !decide (p.1 = .consumer) := by
    funext p
    cases p.1 <;> rfl
  rw [share, share, hp, ← List.map_append, ← map_snd_zip_take]
  exact (List.filter_append_perm _ _).map _

/-- A thread's share has one element for each of its claims. -/
theorem length_share (hle : h.claims.length ≤ h.published.length) (t : Thread) :
    (h.share t).length = h.claims.count t := by
  have hz := List.map_fst_zip hle
  rw [share, List.length_map, ← List.countP_eq_length_filter]
  conv_rhs => rw [← hz, List.count, List.countP_map]
  rfl

end RingHistory

/-! ## What `push` was called with and what `pop` returns -/

/-- The element of a call of `push` that is not published yet. -/
def ProducerPc.item : ProducerPc α → List α
  | .loadTail x => [x]
  | .check l | .reclaim l _ | .countDrop l | .write l | .publish l => [l.item]
  | .idle | .storeTail _ => []

section Calls

variable {moved : α → α} {k gp gc : ℕ} {h : RingHistory α}

variable {s s' : RingState α} {a : RingAction α} {t : Thread} {spurious : Bool} {r r' : SpscRingBuffer α} {claim : ClaimPc α}
  {next : ClaimNext α} {out : List (RingEvent α)}

/-- A step of `try_claim_front` is no call, publishes nothing, returns nothing to a caller of `pop` and takes nothing for the
other thread. -/
theorem ClaimTook.events (hc : ClaimTook moved t spurious r claim r' next out) (h : RingHistory α) :
    pushed out = [] ∧ popped out = [] ∧ (out.foldl RingHistory.add h).published = h.published ∧
      (out.foldl RingHistory.add h).taken t.other = h.taken t.other := by
  cases hc with
  | movedOut => exact ⟨rfl, rfl, rfl, Function.update_of_ne (by cases t <;> decide) _ _⟩
  | _ => exact ⟨rfl, rfl, rfl, rfl⟩

/-- Only an entry into `push` calls it. -/
theorem step_pushed (hs : s.step moved a = some (s', out)) : pushed out = match a with | .push x => [x] | _ => [] := by
  cases RingState.step_took hs with
  | push => rfl
  | pop => rfl
  | producer hp =>
    cases hp with
    | claiming hc => exact (hc.events (.ofLog [])).1
    | nothing hc => exact (hc.events (.ofLog [])).1
    | reclaimed hc => exact (hc.events (.ofLog [])).1
    | _ => rfl
  | consumer hc =>
    cases hc with
    | claiming hc => exact (hc.events (.ofLog [])).1
    | returned hc =>
      rw [pushed_append, (hc.events (.ofLog [])).1]
      rfl

/-- `push` publishes what it was called with. -/
theorem pushed_step (hk : k ≤ 63) (hi : RingInv k s h gp gc) (hs : s.step moved a = some (s', out)) :
    h.published ++ s.producer.item ++ pushed out = (out.foldl RingHistory.add h).published ++ s'.producer.item := by
  rw [step_pushed hs]
  cases RingState.step_took hs with
  | push => simp [ProducerPc.item, RingHistory.add]
  | pop => simp [RingHistory.add]
  | @producer spurious r r' p p' c out hp =>
    cases hp with
    | claiming hc => simp [(hc.events h).2.2.1, ProducerPc.item]
    | nothing hc => simp [(hc.events h).2.2.1, ProducerPc.item]
    | reclaimed hc => simp [(hc.events h).2.2.1, ProducerPc.item]
    | @publish l =>
      obtain ⟨-, hpos, -, -, hdata⟩ := hi.producer
      have hcell : (r.cell l.pos).data = l.item := by rw [hpos, cell_word hi.mask (by omega)]; exact hdata
      simp [ProducerPc.item, RingHistory.add, hcell]
    | _ => simp [ProducerPc.item, RingHistory.add]
  | consumer hc =>
    cases hc with
    | claiming hc => simp [(hc.events h).2.2.1]
    | returned hc => simp [(hc.events h).2.2.1, RingHistory.add]

/-- What a step of the producer emits changes nothing the consumer took. -/
theorem ProducerTook.taken {p p' : ProducerPc α} (hp : ProducerTook moved spurious r p r' p' out) (h : RingHistory α) :
    popped out = [] ∧ (out.foldl RingHistory.add h).taken .consumer = h.taken .consumer := by
  cases hp with
  | claiming hc => exact ⟨(hc.events h).2.1, (hc.events h).2.2.2⟩
  | nothing hc => exact ⟨(hc.events h).2.1, (hc.events h).2.2.2⟩
  | reclaimed hc => exact ⟨(hc.events h).2.1, (hc.events h).2.2.2⟩
  | _ => exact ⟨rfl, rfl⟩

/-- A step of the consumer returns from `pop` what it has in hand; no other step does. -/
theorem step_popped (hs : s.step moved a = some (s', out)) :
    popped out = match a with | .consumer _ => s.consumer.inHand | _ => [] := by
  cases RingState.step_took hs with
  | push => rfl
  | pop => rfl
  | producer hp => exact (hp.taken (.ofLog [])).1
  | consumer hc => cases hc with | claiming hc | returned hc => cases hc <;> rfl

/-- What the consumer moves out of a cell it holds in hand until it returns it. -/
theorem popped_step (h : RingHistory α) (hs : s.step moved a = some (s', out)) :
    ∃ xs, (out.foldl RingHistory.add h).taken .consumer = h.taken .consumer ++ xs ∧
      s.consumer.inHand ++ xs = popped out ++ s'.consumer.inHand := by
  rw [step_popped hs]
  cases RingState.step_took hs with
  | push => exact ⟨[], by simp [RingHistory.add], by simp⟩
  | pop => exact ⟨[], by simp [RingHistory.add], by simp [ConsumerPc.inHand]⟩
  | producer hp => exact ⟨[], by rw [(hp.taken h).2, List.append_nil], by simp⟩
  | @consumer spurious r r' p c c' out hc =>
    cases hc with
    | claiming hc =>
      cases hc with
      | @movedOut pos => exact ⟨[(r.cell pos).data], by simp [RingHistory.add], by simp [ConsumerPc.inHand]⟩
      | _ => exact ⟨[], by simp [RingHistory.add], by simp [ConsumerPc.inHand]⟩
    | returned hc =>
      cases hc with
      | _ => exact ⟨[], by simp [RingHistory.add], by simp [ConsumerPc.inHand]⟩

variable [Inhabited α] {capacity : Word} {s : RingState α} {log : List (RingEvent α)}

/-- The published elements are those `push` was called with, but for the one of the call in progress. -/
theorem pushed_eq (hr : (ringMachine moved capacity).Run s log) :
    pushed log = (RingHistory.ofLog log).published ++ s.producer.item := by
  induction hr with
  | init hs =>
    obtain ⟨r, -, rfl⟩ := hs
    rfl
  | step hr _ hs ih =>
    obtain ⟨k, gp, gc, -, hk, -, hi⟩ := ring_invariant hr
    rw [pushed_append, ih, RingHistory.ofLog_append, pushed_step hk hi hs]

/-- What the consumer took it returned, but for the element in hand. -/
theorem popped_eq (hr : (ringMachine moved capacity).Run s log) :
    popped log ++ s.consumer.inHand = (RingHistory.ofLog log).delivered := by
  induction hr with
  | init hs =>
    obtain ⟨r, -, rfl⟩ := hs
    rfl
  | step hr _ hs ih =>
    obtain ⟨xs, h1, h2⟩ := popped_step (.ofLog _) hs
    rw [RingHistory.ofLog_append, RingHistory.delivered, h1, popped_append, List.append_assoc, ← h2, ← List.append_assoc, ih]
    rfl

/-- The consumer's share of a run is what `pop` returned and what it has in hand, when it has something in hand. -/
theorem share_of_inHand (hr : (ringMachine moved capacity).Run s log) {x : α} (hx : s.consumer.inHand = [x]) :
    (RingHistory.ofLog log).share .consumer = popped log ++ [x] := by
  obtain ⟨k, gp, gc, -, -, -, hi⟩ := ring_invariant hr
  have hpending : pending s.producer s.consumer (RingHistory.ofLog log).published gp gc .consumer = [] := by
    unfold ConsumerPc.inHand at hx
    split at hx
    · rename_i heq
      rw [heq]
      rfl
    · cases hx
  rw [hi.share .consumer, hpending, List.append_nil, ← hx]
  exact (popped_eq hr).symm

end Calls

end TradeSurveillance
