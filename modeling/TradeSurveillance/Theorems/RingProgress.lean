import TradeSurveillance.Theorems.RingBackpressure

/-!
# Progress of `push`

`push` alone, from any state of any run: it returns, in a bounded number of steps once compare-exchanges stop failing spuriously,
exactly when it is not stuck (`push_alone_returns_iff`). It is stuck when the consumer is paused between its compare-exchange and its
sequence store on the element one turn before the one `push` is to write: then `push` reclaims whatever else the buffer holds
and never finds its cell vacated.
-/

namespace TradeSurveillance

open Counter

variable {α : Type}

/-! ## `push` alone -/

/-- The next step of the producer, if it is inside a call. -/
def RingState.pushStep (moved : α → α) (spurious : Bool) (s : RingState α) : RingState α :=
  match s.step moved (.producer spurious) with
  | some (s', _) => s'
  | none => s

/-- The next `n` steps of a call of `push`, the consumer taking none; `f i` says whether a compare-exchange at the `i`-th of them fails
spuriously. -/
def RingState.pushAlone (moved : α → α) (s : RingState α) : ℕ → (ℕ → Bool) → RingState α
  | 0, _ => s
  | n + 1, f => (s.pushStep moved (f 0)).pushAlone moved n (fun i => f (i + 1))

/-- `push` is in its loop, or before it. -/
def ProducerPc.inLoop : ProducerPc α → Bool
  | .loadTail _ | .check _ | .reclaim _ _ | .countDrop _ => true
  | _ => false

/-- `push` has not left its loop, and the consumer is paused between its compare-exchange and its sequence store on the element
one turn of the ring before the one `push` is to write. -/
def RingState.Stuck (s : RingState α) : Prop :=
  s.producer.inLoop = true ∧ ∃ pos, s.consumer.claimedPos = some pos ∧ pos + s.ring.capacity = s.ring.tail

section Stuck

variable {moved : α → α} {k gp gc : ℕ} {s : RingState α} {h : RingHistory α}

/-- The consumer does not take part in a step of the producer. -/
@[simp] theorem pushStep_consumer (spurious : Bool) (s : RingState α) :
    (s.pushStep moved spurious).consumer = s.consumer := by
  simp only [RingState.pushStep, RingState.step]
  cases producerStep moved spurious s.ring s.producer <;> rfl

/-- A step of the producer keeps the invariant. -/
theorem pushStep_inv (moved : α → α) (hk1 : 1 ≤ k) (hk : k ≤ 63) (hi : RingInv k s h gp gc) (spurious : Bool) :
    ∃ h' gp' gc', RingInv k (s.pushStep moved spurious) h' gp' gc' := by
  cases hs : s.step moved (.producer spurious) with
  | none => exact ⟨h, gp, gc, by rw [RingState.pushStep, hs]; exact hi⟩
  | some q =>
    obtain ⟨gp', gc', hi'⟩ := hi.step hk1 hk hs
    exact ⟨_, gp', gc', by rw [RingState.pushStep, hs]; exact hi'⟩

/-- A step of `try_claim_front` leaves `tail_` alone. -/
theorem ClaimTook.tail {t : Thread} {spurious : Bool} {r r' : SpscRingBuffer α} {claim : ClaimPc α} {next : ClaimNext α}
    {out : List (RingEvent α)} (hc : ClaimTook moved t spurious r claim r' next out) :
    r'.tail = r.tail ∧ r'.capacity = r.capacity := by
  cases hc <;> exact ⟨rfl, rfl⟩

/-- A step in the loop of `push` leaves `tail_` alone, and stays in the loop unless it finds the cell vacated. -/
theorem pushStep_loop (moved : α → α) (spurious : Bool) (hl : s.producer.inLoop = true) :
    (s.pushStep moved spurious).ring.tail = s.ring.tail ∧ (s.pushStep moved spurious).ring.capacity = s.ring.capacity ∧
      ((s.pushStep moved spurious).producer.inLoop = true ∨
        ∃ l, s.producer = .check l ∧ (s.ring.cell l.pos).sequence = l.pos) := by
  unfold RingState.pushStep
  cases hs : s.step moved (.producer spurious) with
  | none => exact ⟨rfl, rfl, Or.inl hl⟩
  | some q =>
    obtain ⟨s', out⟩ := q
    cases RingState.step_took hs with
    | producer hp =>
      cases hp with
      | @vacated l hv => exact ⟨rfl, rfl, Or.inr ⟨l, rfl, hv⟩⟩
      | claiming hc | nothing hc | reclaimed hc => exact ⟨hc.tail.1, hc.tail.2, Or.inl rfl⟩
      | loadTail | full | countDrop => exact ⟨rfl, rfl, Or.inl rfl⟩
      | write | publish | storeTail => cases hl

/-- A producer in its loop was there before its last step. -/
theorem inLoop_of_pushStep (spurious : Bool) (hl : (s.pushStep moved spurious).producer.inLoop = true) :
    s.producer.inLoop = true := by
  obtain ⟨r, p, c⟩ := s
  cases p with
  | idle => exact hl
  | write l => cases hl
  | publish l => cases hl
  | storeTail l => cases hl
  | _ => rfl

/-- In the loop of `push` the cell is not vacant exactly when the buffer is full or `push` is stuck. -/
theorem stuck_iff (hi : RingInv k s h gp gc) (hl : s.producer.inLoop = true) :
    s.Stuck ↔ h.published.length < h.claims.length + 2 ^ k ∧ ¬Vacant k s.consumer h.published.length h.claims.length := by
  obtain ⟨r, p, c⟩ := s
  have htail : r.tail = word h.published.length := by
    have hp := hi.producer
    cases p with
    | loadTail x => exact hp
    | check l => exact hp.1
    | reclaim l claim => exact hp.1
    | countDrop l => exact hp.1
    | _ => cases hl
  have hcap : r.capacity = word (2 ^ k) := hi.capacity
  simp only [RingState.Stuck, hl, true_and, htail, hcap, Vacant, not_and, not_forall, not_not, exists_prop]
  constructor
  · rintro ⟨pos, hpos, hw⟩
    refine ⟨?_, fun _ => ⟨pos, hpos, hw⟩⟩
    have hroom := hi.cells.room
    by_contra hlt
    rw [claimedPos_of_full hi (by omega)] at hpos
    cases hpos
  · rintro ⟨hlt, hv⟩
    exact hv hlt

/-- A stuck `push` stays stuck: it finds its cell not vacated however often it looks. -/
theorem RingState.Stuck.pushStep (hk1 : 1 ≤ k) (hk : k ≤ 63) (hi : RingInv k s h gp gc) (hs : s.Stuck) (spurious : Bool) :
    (s.pushStep moved spurious).Stuck := by
  obtain ⟨htail, hcap, hl⟩ := pushStep_loop moved spurious hs.1
  refine ⟨?_, ?_⟩
  · rcases hl with hl | ⟨l, hp, hseq⟩
    · exact hl
    · obtain ⟨r, p, c⟩ := s
      simp only at hp
      subst hp
      exact absurd ((sequence_eq_iff_vacant hk1 hk hi).1 hseq) ((stuck_iff hi rfl).1 hs).2
  · rw [pushStep_consumer, htail, hcap]
    exact hs.2

/-- A `push` that is not stuck does not become so by its own steps. -/
theorem not_stuck_pushStep (moved : α → α) (hs : ¬s.Stuck) (spurious : Bool) : ¬(s.pushStep moved spurious).Stuck := by
  rintro ⟨hl, hpos⟩
  have hl' := inLoop_of_pushStep spurious hl
  obtain ⟨htail, hcap, -⟩ := pushStep_loop moved spurious hl'
  rw [pushStep_consumer, htail, hcap] at hpos
  exact hs ⟨hl', hpos⟩

/-- A stuck `push` never returns. -/
theorem RingState.Stuck.pushAlone (hk1 : 1 ≤ k) (hk : k ≤ 63) (hi : RingInv k s h gp gc) (hs : s.Stuck) (f : ℕ → Bool) (n : ℕ) :
    (s.pushAlone moved n f).producer ≠ .idle := by
  induction n generalizing s h gp gc f with
  | zero =>
    intro hidle
    have hl := hs.1
    rw [show s.producer = .idle from hidle] at hl
    cases hl
  | succ n ih =>
    obtain ⟨h', gp', gc', hi'⟩ := pushStep_inv moved hk1 hk hi (f 0)
    exact ih hi' (hs.pushStep hk1 hk hi (f 0)) _

end Stuck

/-! ## A `push` that is not stuck returns -/

/-- Alone, without spurious failures, the call of `push` under way returns in at most `n` steps. -/
def RingState.ReturnsIn (moved : α → α) (n : ℕ) (s : RingState α) : Prop :=
  (s.pushAlone moved n fun _ => false).producer = .idle

section Returns

variable {moved : α → α} {k gp gc m n : ℕ} {s : RingState α} {h : RingHistory α} {r : SpscRingBuffer α} {c : ConsumerPc α}
  {l : PushLocals α} {pos : Word}

/-- A call that returns after one more step returns in one step more. -/
theorem returnsIn_succ (h : (s.pushStep moved false).ReturnsIn moved n) : s.ReturnsIn moved (n + 1) := h

/-- A call that returns in some steps returns in more. -/
theorem returnsIn_mono (hle : m ≤ n) (h : s.ReturnsIn moved m) : s.ReturnsIn moved n := by
  induction n generalizing s m with
  | zero =>
    obtain rfl : m = 0 := by omega
    exact h
  | succ n ih =>
    cases m with
    | zero =>
      have hidle : s.pushStep moved false = s := by
        obtain ⟨r, p, c⟩ := s
        cases show p = .idle from h
        rfl
      refine returnsIn_succ (ih (Nat.zero_le n) ?_)
      rw [hidle]
      exact h
    | succ m => exact returnsIn_succ (ih (by omega) h)

/-- What a step that leaves the loop leads to. -/
theorem returnsIn_write : (⟨r, .write l, c⟩ : RingState α).ReturnsIn moved 3 := rfl

/-- The step of the producer, without spurious failure. -/
theorem pushStep_eq {r' : SpscRingBuffer α} {p p' : ProducerPc α} {out : List (RingEvent α)}
    (hs : producerStep moved false r p = some (r', p', out)) :
    RingState.pushStep moved false ⟨r, p, c⟩ = ⟨r', p', c⟩ := by
  simp only [RingState.pushStep, RingState.step, hs, Option.map_some]

/-- A step of the producer brings its return one step nearer. -/
theorem returnsIn_step {r' : SpscRingBuffer α} {p p' : ProducerPc α} {out : List (RingEvent α)}
    (hs : producerStep moved false r p = some (r', p', out)) (h : (⟨r', p', c⟩ : RingState α).ReturnsIn moved n) :
    (⟨r, p, c⟩ : RingState α).ReturnsIn moved (n + 1) := by
  refine returnsIn_succ ?_
  rw [pushStep_eq hs]
  exact h

/-- A step of the producer does not get it stuck. -/
theorem not_stuck_step (moved : α → α) {r' : SpscRingBuffer α} {p p' : ProducerPc α} {out : List (RingEvent α)}
    (hs : producerStep moved false r p = some (r', p', out)) (h : ¬RingState.Stuck ⟨r, p, c⟩) :
    ¬RingState.Stuck ⟨r', p', c⟩ := by
  have hs' := not_stuck_pushStep moved h false
  rwa [pushStep_eq hs] at hs'

/-- With a vacant cell the call returns in four steps. -/
theorem returnsIn_vacant (hk1 : 1 ≤ k) (hk : k ≤ 63) (hi : RingInv k ⟨r, .check l, c⟩ h gp gc)
    (hv : Vacant k c h.published.length h.claims.length) : (⟨r, .check l, c⟩ : RingState α).ReturnsIn moved 4 := by
  have hseq := (sequence_eq_iff_vacant hk1 hk hi).2 hv
  have hs : producerStep moved false r (.check l) = some (r, .write l, []) := by simp only [producerStep, if_pos hseq]
  exact returnsIn_step hs returnsIn_write

/-- With room, what is not stuck finds its cell vacated. -/
theorem vacant_of_room {p : ProducerPc α} (hi : RingInv k ⟨r, p, c⟩ h gp gc) (hl : p.inLoop = true)
    (hs : ¬RingState.Stuck ⟨r, p, c⟩) (hroom : h.published.length < h.claims.length + 2 ^ k) :
    Vacant k c h.published.length h.claims.length := by
  rw [stuck_iff hi hl, not_and, not_not] at hs
  exact hs hroom

/-- A reclaim that has claimed an element has made room. -/
theorem returnsIn_release {x : α} (hk1 : 1 ≤ k) (hk : k ≤ 63) (hi : RingInv k ⟨r, .reclaim l (.release pos x), c⟩ h gp gc)
    (hs : ¬RingState.Stuck ⟨r, .reclaim l (.release pos x), c⟩) :
    (⟨r, .reclaim l (.release pos x), c⟩ : RingState α).ReturnsIn moved 6 := by
  have h1 := hi.cells.held_lt .producer gp rfl
  have h2 := hi.cells.held_room .producer gp rfl
  have hv := vacant_of_room hi rfl hs (by omega)
  have hi2 := (hi.reclaimRelease hk).countDrop
  exact returnsIn_step rfl (returnsIn_step rfl (returnsIn_vacant hk1 hk hi2 hv))

/-- From a compare-exchange that succeeds it returns in eight. -/
theorem returnsIn_exchange (hk1 : 1 ≤ k) (hk : k ≤ 63) (hi : RingInv k ⟨r, .reclaim l (.exchange pos), c⟩ h gp gc)
    (hs : ¬RingState.Stuck ⟨r, .reclaim l (.exchange pos), c⟩) (hx : r.head = pos) :
    (⟨r, .reclaim l (.exchange pos), c⟩ : RingState α).ReturnsIn moved 8 := by
  have hstep : producerStep moved false r (.reclaim l (.exchange pos)) =
      some ({ r with head := pos + 1 }, .reclaim l (.moveOut pos), [.claimed .producer]) := by
    rw [producerStep, claimStep, if_pos ⟨hx, rfl⟩]
  have hs2 := not_stuck_step moved (p := .reclaim l (.moveOut pos)) rfl (not_stuck_step moved hstep hs)
  have hi2 := (hi.reclaimClaim hk hx).reclaimMove moved hk
  exact returnsIn_step hstep (returnsIn_step rfl (returnsIn_release hk1 hk hi2 hs2))

/-- At the front: the element is published and claimed next, or the buffer is empty and the cell vacated. -/
theorem returnsIn_front (hk1 : 1 ≤ k) (hk : k ≤ 63) (hi : RingInv k ⟨r, .reclaim l (.loadSequence r.head), c⟩ h gp gc)
    (hs : ¬RingState.Stuck ⟨r, .reclaim l (.loadSequence r.head), c⟩) :
    (⟨r, .reclaim l (.loadSequence r.head), c⟩ : RingState α).ReturnsIn moved 9 := by
  have hle := hi.cells.claimed_le
  have hpos := Nat.two_pow_pos k
  have hcell : r.cell r.head = r.cells (slot 64 k h.claims.length) := by
    rw [hi.head, cell_word hi.mask (by omega)]
  by_cases hlt : h.claims.length < h.published.length
  · have hseq : (r.cell r.head).sequence = r.head + 1 := by
      rw [hcell, hi.cells.unclaimed _ (Nat.le_refl _) hlt, hi.head, ofNat_succ]
    have hstep : producerStep moved false r (.reclaim l (.loadSequence r.head)) =
        some (r, .reclaim l (.exchange r.head), []) := by
      simp only [producerStep, claimStep, if_pos hseq]
    exact returnsIn_step hstep (returnsIn_exchange hk1 hk (hi.reclaimSeen hk1 hk hseq) (not_stuck_step moved hstep hs) rfl)
  · have hL : h.published.length = h.claims.length := by omega
    have hv := vacant_of_room hi rfl hs (by omega)
    have hseq : (r.cell r.head).sequence = r.head := by
      have hn := (vacant_iff hk hi).1 hv
      rw [hcell, hi.head, ← hL]
      refine hi.cells.vacant _ (Nat.le_refl _) hv.1 (fun t i ht => ?_)
      cases t with
      | producer => cases ht
      | consumer => exact hn.2 i ht
    have hne : (r.cell r.head).sequence ≠ r.head + 1 := by
      rw [hseq, hi.head, ofNat_succ]
      exact ofNat_ne_succ (by omega)
    have hstep : producerStep moved false r (.reclaim l (.loadSequence r.head)) = some (r, .check l, []) := by
      simp only [producerStep, claimStep, if_neg hne, if_pos hseq]
    exact returnsIn_mono (by omega) (returnsIn_step hstep (returnsIn_vacant hk1 hk hi.reclaimEmpty hv))

/-- From the load of `head_` it returns in ten, unless it is stuck. -/
theorem returnsIn_loadHead (hk1 : 1 ≤ k) (hk : k ≤ 63) (hi : RingInv k ⟨r, .reclaim l .loadHead, c⟩ h gp gc)
    (hs : ¬RingState.Stuck ⟨r, .reclaim l .loadHead, c⟩) :
    (⟨r, .reclaim l .loadHead, c⟩ : RingState α).ReturnsIn moved 10 :=
  returnsIn_step rfl (returnsIn_front hk1 hk (hi.reclaimLoadHead rfl) (not_stuck_step moved rfl hs))

/-- A compare-exchange that fails refreshes the position. -/
theorem returnsIn_exchange_any (hk1 : 1 ≤ k) (hk : k ≤ 63) (hi : RingInv k ⟨r, .reclaim l (.exchange pos), c⟩ h gp gc)
    (hs : ¬RingState.Stuck ⟨r, .reclaim l (.exchange pos), c⟩) :
    (⟨r, .reclaim l (.exchange pos), c⟩ : RingState α).ReturnsIn moved 10 := by
  by_cases hx : r.head = pos
  · exact returnsIn_mono (by omega) (returnsIn_exchange hk1 hk hi hs hx)
  · have hstep : producerStep moved false r (.reclaim l (.exchange pos)) =
        some (r, .reclaim l (.loadSequence r.head), []) := by
      rw [producerStep, claimStep, if_neg fun hc => hx hc.1]
    exact returnsIn_step hstep (returnsIn_front hk1 hk (hi.reclaimLoadHead rfl) (not_stuck_step moved hstep hs))

/-- From the check of its cell it returns in eleven, unless it is stuck. -/
theorem returnsIn_check (hk1 : 1 ≤ k) (hk : k ≤ 63) (hi : RingInv k ⟨r, .check l, c⟩ h gp gc)
    (hs : ¬RingState.Stuck ⟨r, .check l, c⟩) : (⟨r, .check l, c⟩ : RingState α).ReturnsIn moved 11 := by
  by_cases hv : Vacant k c h.published.length h.claims.length
  · exact returnsIn_mono (by omega) (returnsIn_vacant hk1 hk hi hv)
  · have hseq := fun hseq => hv ((sequence_eq_iff_vacant hk1 hk hi).1 hseq)
    have hstep : producerStep moved false r (.check l) = some (r, .reclaim l .loadHead, [.full]) := by
      simp only [producerStep, if_neg hseq]
    exact returnsIn_step hstep (returnsIn_loadHead hk1 hk (hi.checkFull hk hseq) (not_stuck_step moved hstep hs))

/-- Alone and without spurious failures, a `push` that is not stuck returns in at most twelve steps. -/
theorem returnsIn_of_not_stuck (hk1 : 1 ≤ k) (hk : k ≤ 63) (hi : RingInv k s h gp gc) (hs : ¬s.Stuck) :
    s.ReturnsIn moved 12 := by
  obtain ⟨r, p, c⟩ := s
  cases p with
  | idle => exact returnsIn_mono (Nat.zero_le 12) rfl
  | loadTail x =>
    exact returnsIn_step rfl (returnsIn_check hk1 hk hi.loadTail (not_stuck_step moved rfl hs))
  | check l => exact returnsIn_mono (by omega) (returnsIn_check hk1 hk hi hs)
  | reclaim l claim =>
    cases claim with
    | loadHead => exact returnsIn_mono (by omega) (returnsIn_loadHead hk1 hk hi hs)
    | loadSequence pos =>
      by_cases h1 : (r.cell pos).sequence = pos + 1
      · have hstep : producerStep moved false r (.reclaim l (.loadSequence pos)) =
            some (r, .reclaim l (.exchange pos), []) := by
          simp only [producerStep, claimStep, if_pos h1]
        have hn : RingState.ReturnsIn moved 10 _ := returnsIn_exchange_any hk1 hk (hi.reclaimSeen hk1 hk h1) (not_stuck_step moved hstep hs)
        exact returnsIn_mono (by omega) (returnsIn_step hstep hn)
      · by_cases h2 : (r.cell pos).sequence = pos
        · have hstep : producerStep moved false r (.reclaim l (.loadSequence pos)) = some (r, .check l, []) := by
            simp only [producerStep, claimStep, if_neg h1, if_pos h2]
          exact returnsIn_step hstep (returnsIn_check hk1 hk hi.reclaimEmpty (not_stuck_step moved hstep hs))
        · have hstep : producerStep moved false r (.reclaim l (.loadSequence pos)) = some (r, .reclaim l .loadHead, []) := by
            simp only [producerStep, claimStep, if_neg h1, if_neg h2]
          have hn : RingState.ReturnsIn moved 10 _ := returnsIn_loadHead hk1 hk hi.reclaimStale (not_stuck_step moved hstep hs)
          exact returnsIn_mono (by omega) (returnsIn_step hstep hn)
    | exchange pos => exact returnsIn_mono (by omega) (returnsIn_exchange_any hk1 hk hi hs)
    | moveOut pos =>
      have hs' := not_stuck_step moved rfl hs
      exact returnsIn_mono (by omega) (returnsIn_step rfl (returnsIn_release hk1 hk (hi.reclaimMove moved hk) hs'))
    | release pos x => exact returnsIn_mono (by omega) (returnsIn_release hk1 hk hi hs)
  | countDrop l =>
    exact returnsIn_step rfl (returnsIn_check hk1 hk hi.countDrop (not_stuck_step moved rfl hs))
  | write l => exact returnsIn_mono (by omega) returnsIn_write
  | publish l => exact returnsIn_mono (show 2 ≤ 12 by omega) rfl
  | storeTail l => exact returnsIn_mono (show 1 ≤ 12 by omega) rfl

/-- The steps of the producer up to the last spurious failure, and then the rest. -/
theorem pushAlone_add (s : RingState α) (N n : ℕ) (f : ℕ → Bool) :
    s.pushAlone moved (N + n) f = (s.pushAlone moved N f).pushAlone moved n fun i => f (i + N) := by
  induction N generalizing s f with
  | zero => rw [Nat.zero_add]; rfl
  | succ N ih => rw [Nat.succ_add, RingState.pushAlone, ih, RingState.pushAlone]; rfl

/-- What is not stuck does not become stuck, and the invariant is kept. -/
theorem pushAlone_not_stuck (moved : α → α) (hk1 : 1 ≤ k) (hk : k ≤ 63) (hi : RingInv k s h gp gc) (hs : ¬s.Stuck) (N : ℕ) (f : ℕ → Bool) :
    (∃ h' gp' gc', RingInv k (s.pushAlone moved N f) h' gp' gc') ∧ ¬(s.pushAlone moved N f).Stuck := by
  induction N generalizing s h gp gc f with
  | zero => exact ⟨⟨h, gp, gc, hi⟩, hs⟩
  | succ N ih =>
    obtain ⟨h', gp', gc', hi'⟩ := pushStep_inv moved hk1 hk hi (f 0)
    exact ih hi' (not_stuck_pushStep moved hs (f 0)) _

end Returns

section PushAlone

variable [Inhabited α] {moved : α → α} {capacity : Word} {s : RingState α} {log : List (RingEvent α)}

/-- From any state of any run, with the consumer taking no further step: the call of `push` under way returns, in at most twelve
steps from where compare-exchanges stop failing spuriously, exactly when it is not stuck. -/
theorem push_alone_returns_iff (hr : (ringMachine moved capacity).Run s log) :
    (∀ f N, (∀ i, N ≤ i → f i = false) → ∃ n ≤ N + 12, (s.pushAlone moved n f).producer = .idle) ↔ ¬s.Stuck := by
  obtain ⟨k, gp, gc, hk1, hk, -, hi⟩ := ring_invariant hr
  constructor
  · intro hall hs
    obtain ⟨n, -, hn⟩ := hall (fun _ => false) 0 (fun _ _ => rfl)
    exact hs.pushAlone hk1 hk hi _ n hn
  · intro hs f N hf
    obtain ⟨⟨h', gp', gc', hi'⟩, hs'⟩ := pushAlone_not_stuck moved hk1 hk hi hs N f
    refine ⟨N + 12, Nat.le_refl _, ?_⟩
    rw [pushAlone_add, show (fun i => f (i + N)) = fun _ => false from funext fun i => hf _ (Nat.le_add_left _ _)]
    exact returnsIn_of_not_stuck hk1 hk hi' hs'

/-- With two elements in a buffer of two cells and the consumer outside `pop`, a third `push` is not stuck and returns. -/
theorem push_alone_returns_full : ∃ s log, (ringMachine (α := ℕ) id 2).Run s log ∧ s.producer.inLoop = true ∧
    ((∀ f N, (∀ i, N ≤ i → f i = false) → ∃ n ≤ N + 12, (s.pushAlone id n f).producer = .idle) ↔ ¬s.Stuck) := by
  obtain ⟨s, log, hr, hp⟩ := Machine.run_of_exec (M := ringMachine (α := ℕ) id 2) ⟨_, rfl, rfl⟩
    (.push 0 :: List.replicate 5 (.producer false) ++ .push 1 :: List.replicate 5 (.producer false) ++ [.push 2])
    (p := fun q => q.1.producer.inLoop) (by decide)
  exact ⟨s, log, hr, hp, push_alone_returns_iff hr⟩

/-- Two elements in a buffer of two cells; `pop` claims the first and pauses before it moves it out; the third `push` never
returns. -/
theorem push_alone_blocks : ∃ s log, (ringMachine (α := ℕ) id 2).Run s log ∧ s.producer.inLoop = true ∧
    ∀ f n, (s.pushAlone id n f).producer ≠ .idle := by
  obtain ⟨s, log, hr, hp⟩ := Machine.run_of_exec (M := ringMachine (α := ℕ) id 2) ⟨_, rfl, rfl⟩
    (.push 0 :: List.replicate 5 (.producer false) ++ .push 1 :: List.replicate 5 (.producer false) ++
      .pop :: List.replicate 3 (.consumer false) ++ [.push 2])
    (p := fun q => q.1.producer.inLoop && (q.1.consumer.claimedPos == some 0) && (q.1.ring.capacity == q.1.ring.tail))
    (by decide)
  simp only [Bool.and_eq_true, beq_iff_eq] at hp
  obtain ⟨⟨hloop, hpos⟩, htail⟩ := hp
  obtain ⟨k, gp, gc, hk1, hk, -, hi⟩ := ring_invariant hr
  have hs : s.Stuck := ⟨hloop, 0, hpos, by rw [← htail]; exact BitVec.zero_add _⟩
  exact ⟨s, log, hr, hloop, fun f n => hs.pushAlone hk1 hk hi f n⟩

end PushAlone

end TradeSurveillance
