import TradeSurveillance.Lemmas.RingHistory

/-!
# The accounting of the ring

`ring_accounting`: along every run of one producer and one consumer each published element is in the buffer, claimed by `pop`, or
discarded by a reclaim, exactly one of these and once; `pop` returns elements in push order; `dropped_` counts the completed
reclaims; and the two threads never touch the data of one cell.
-/

namespace TradeSurveillance

open Counter

variable {α : Type}

/-! ## What a state and a log say -/

/-- The element a call of `try_claim_front` has claimed and not moved out of its cell yet. -/
def ClaimPc.inFlight (r : SpscRingBuffer α) : ClaimPc α → List α
  | .moveOut pos => [(r.cell pos).data]
  | _ => []

/-- The element a thread has claimed and not moved out of its cell yet. -/
def RingState.inFlight (s : RingState α) : Thread → List α
  | .producer => match s.producer with
    | .reclaim _ claim => claim.inFlight s.ring
    | _ => []
  | .consumer => match s.consumer with
    | .pop claim => claim.inFlight s.ring
    | .idle => []

/-- The cell a call of `try_claim_front` has acquired by its compare-exchange and not released by its sequence store. -/
def ClaimPc.acquired (mask : Word) : ClaimPc α → Option Word
  | .moveOut pos | .release pos _ => some (pos &&& mask)
  | _ => none

/-- The cell a thread has acquired and not released: in `push` also the cell it saw vacated, until it is published. -/
def RingState.acquired (s : RingState α) : Thread → Option Word
  | .producer => match s.producer with
    | .reclaim _ claim => claim.acquired s.ring.mask
    | .write l | .publish l => some (l.pos &&& s.ring.mask)
    | _ => none
  | .consumer => match s.consumer with
    | .pop claim => claim.acquired s.ring.mask
    | .idle => none

/-- The cell whose data the next step of a thread reads or writes. -/
def RingState.touches (s : RingState α) : Thread → Option Word
  | .producer => match s.producer with
    | .reclaim _ (.moveOut pos) => some (pos &&& s.ring.mask)
    | .write l => some (l.pos &&& s.ring.mask)
    | _ => none
  | .consumer => match s.consumer with
    | .pop (.moveOut pos) => some (pos &&& s.ring.mask)
    | _ => none

/-- The thread that acts. -/
def RingAction.thread : RingAction α → Thread
  | .push _ | .producer _ => .producer
  | .pop | .consumer _ => .consumer

/-- The accounting of a state and the log of the run that led to it. -/
structure Accounted (moved : α → α) (s : RingState α) (log : List (RingEvent α)) : Prop where
  /-- What `push` was called with is published in order, but for the element of the call in progress. -/
  pushed : pushed log = (RingHistory.ofLog log).published ++ s.producer.item
  /-- What the buffer holds is what is published and not claimed. -/
  contents : s.ring.contents = (RingHistory.ofLog log).published.drop (RingHistory.ofLog log).claims.length
  /-- Each claim takes one published element, in order, and the thread that made it moves it out. -/
  share : ∀ t, (RingHistory.ofLog log).share t = (RingHistory.ofLog log).taken t ++ s.inFlight t
  /-- Every published element is in exactly one place. -/
  partition : ((RingHistory.ofLog log).delivered ++ s.inFlight .consumer ++ ((RingHistory.ofLog log).discarded ++
    s.inFlight .producer) ++ s.ring.contents).Perm (RingHistory.ofLog log).published
  /-- `pop` takes elements in push order. -/
  order : ((RingHistory.ofLog log).delivered ++ s.inFlight .consumer).Sublist (RingHistory.ofLog log).published
  /-- What `pop` takes it returns. -/
  returned : popped log ++ s.consumer.inHand = (RingHistory.ofLog log).delivered
  /-- `dropped_` counts the discarded elements, but for the reclaim that is not completed. -/
  dropped : ∃ n, s.ring.dropped = word n ∧
    n + s.producer.uncounted = ((RingHistory.ofLog log).discarded ++ s.inFlight .producer).length
  /-- A step changes the data of the cell its thread touches only. -/
  frame : ∀ a s' out, s.step moved a = some (s', out) → ∀ i, s.touches a.thread ≠ some i →
    (s'.ring.cells i).data = (s.ring.cells i).data
  /-- A thread touches the data of a cell it has acquired only. -/
  owned : ∀ t i, s.touches t = some i → s.acquired t = some i
  /-- No cell is acquired by both threads. -/
  exclusive : ∀ t i, s.acquired t = some i → s.acquired t.other ≠ some i

/-! ## The parts of the accounting that the invariant gives -/

section Parts

variable {k gp gc : ℕ} {s : RingState α} {h : RingHistory α}

/-- What the invariant calls pending is the element in the cell. -/
theorem inFlight_eq_pending (hk : k ≤ 63) (hi : RingInv k s h gp gc) (t : Thread) :
    s.inFlight t = pending s.producer s.consumer h.published gp gc t := by
  obtain ⟨r, p, c⟩ := s
  have hcell : ∀ g pos, pos = word g → h.published[g]? = some (r.cells (slot 64 k g)).data →
      [(r.cell pos).data] = (h.published[g]?).toList := by
    rintro g pos rfl hdata
    rw [hdata, cell_word hi.mask (by omega)]
    rfl
  cases t with
  | producer =>
    cases p with
    | reclaim l claim =>
      cases claim with
      | moveOut pos => exact hcell gp pos hi.producer.2.2.1 hi.producer.2.2.2
      | _ => rfl
    | _ => rfl
  | consumer =>
    cases c with
    | pop claim =>
      cases claim with
      | moveOut pos => exact hcell gc pos hi.consumer.1 hi.consumer.2
      | _ => rfl
    | idle => rfl

/-- From a position up to the next to be published, the cells hold the published elements, and then none. -/
theorem contentsFrom_eq (hk1 : 1 ≤ k) (hk : k ≤ 63) (hi : RingInv k s h gp gc) (n i : ℕ) (hH : h.claims.length ≤ i)
    (hle : i ≤ h.published.length) (hn : h.published.length ≤ i + n) :
    s.ring.contentsFrom n (word i) = h.published.drop i := by
  induction n generalizing i with
  | zero =>
    rw [List.drop_of_length_le (by omega)]
    rfl
  | succ n ih =>
    rw [SpscRingBuffer.contentsFrom, cell_word hi.mask (by omega), ofNat_succ]
    by_cases hlt : i < h.published.length
    · rw [if_pos (hi.cells.unclaimed i hH hlt), ih (i + 1) (by omega) (by omega) (by omega)]
      have hdata := hi.cells.unclaimed_data i hH hlt
      rw [List.getElem?_eq_getElem hlt, Option.some.injEq] at hdata
      rw [List.drop_eq_getElem_cons hlt, hdata]
    · rw [if_neg, List.drop_of_length_le (by omega)]
      intro hs
      obtain ⟨j, hj1, hj2, -, hjw⟩ := hi.cells.of_published hk1 (by omega) hs
      have := word_inj hk hjw (by omega) (by omega)
      omega

theorem contents_eq (hk1 : 1 ≤ k) (hk : k ≤ 63) (hi : RingInv k s h gp gc) :
    s.ring.contents = h.published.drop h.claims.length := by
  have h63 : 2 ^ k ≤ 2 ^ 63 := Nat.pow_le_pow_right (by omega) hk
  have hcap : (word (2 ^ k)).toNat = 2 ^ k := by rw [BitVec.toNat_ofNat, Nat.mod_eq_of_lt (by omega)]
  rw [SpscRingBuffer.contents, hi.capacity, hi.head, hcap]
  exact contentsFrom_eq hk1 hk hi _ _ (Nat.le_refl _) hi.cells.claimed_le hi.cells.room

/-- A thread touches the data of a cell it has acquired only. -/
theorem acquired_of_touches (s : RingState α) (t : Thread) (i : Word) (ht : s.touches t = some i) : s.acquired t = some i := by
  obtain ⟨r, p, c⟩ := s
  cases t with
  | producer =>
    cases p with
    | reclaim l claim => cases claim <;> first | exact ht | cases ht
    | write l => exact ht
    | _ => cases ht
  | consumer =>
    cases c with
    | pop claim => cases claim <;> first | exact ht | cases ht
    | idle => cases ht

/-- A step of `try_claim_front` changes the data of the cell it moves the element out of only. -/
theorem ClaimTook.data {moved : α → α} {t : Thread} {spurious : Bool} {r r' : SpscRingBuffer α} {claim : ClaimPc α}
    {next : ClaimNext α} {out : List (RingEvent α)} (hc : ClaimTook moved t spurious r claim r' next out) (i : Word)
    (hi : ∀ pos, claim = .moveOut pos → pos &&& r.mask ≠ i) : (r'.cells i).data = (r.cells i).data := by
  cases hc with
  | @movedOut pos =>
    simp only [SpscRingBuffer.setData]
    rw [Function.update_of_ne (Ne.symm (hi pos rfl))]
  | released => exact update_sequence_data _ _ _ _
  | _ => rfl

/-- A step changes the data of the cell its thread touches only. -/
theorem data_of_not_touched {moved : α → α} {s s' : RingState α} {a : RingAction α} {out : List (RingEvent α)}
    (hs : s.step moved a = some (s', out)) (i : Word) (hi : s.touches a.thread ≠ some i) :
    (s'.ring.cells i).data = (s.ring.cells i).data := by
  cases RingState.step_took hs with
  | push => rfl
  | pop => rfl
  | producer hp =>
    cases hp with
    | claiming hc | nothing hc | reclaimed hc => exact hc.data i fun pos hpos hpi => hi (by rw [hpos, ← hpi]; rfl)
    | write =>
      simp only [SpscRingBuffer.setData]
      rw [Function.update_of_ne]
      exact fun hpi => hi (congrArg some hpi.symm)
    | publish => exact update_sequence_data _ _ _ _
    | _ => rfl
  | consumer hc =>
    cases hc with
    | claiming hc | returned hc => exact hc.data i fun pos hpos hpi => hi (by rw [hpos, ← hpi]; rfl)

/-- The cells the consumer has acquired, and the producer by a claim, are those of the indices they hold. -/
theorem acquired_holding (hk : k ≤ 63) (hi : RingInv k s h gp gc) :
    s.acquired .consumer = (s.consumer.holding gc).map (slot 64 k) ∧
      (s.acquired .producer = (s.producer.holding gp).map (slot 64 k) ∨
        s.producer.holding gp = none ∧ s.acquired .producer = some (slot 64 k h.published.length) ∧
          ∀ i, s.consumer.holding gc = some i → i + 2 ^ k ≠ h.published.length) := by
  obtain ⟨r, p, c⟩ := s
  have hslot : ∀ g pos, pos = word g → some (pos &&& r.mask) = some (slot 64 k g) := by
    rintro g pos rfl
    rw [hi.mask, ofNat_and_mask (by omega)]
  constructor
  · cases c with
    | pop claim => cases claim <;> first | exact hslot gc _ hi.consumer.1 | rfl
    | idle => rfl
  · cases p with
    | reclaim l claim => cases claim <;> first | exact Or.inl (hslot gp _ hi.producer.2.2.1) | exact Or.inl rfl
    | write l => exact Or.inr ⟨rfl, hslot _ _ hi.producer.2.1, hi.producer.2.2.2⟩
    | publish l => exact Or.inr ⟨rfl, hslot _ _ hi.producer.2.1, hi.producer.2.2.2.1⟩
    | _ => exact Or.inl rfl

/-- No cell is acquired by both threads. -/
theorem acquired_exclusive (hk : k ≤ 63) (hi : RingInv k s h gp gc) (i : Word) (hp : s.acquired .producer = some i) :
    s.acquired .consumer ≠ some i := by
  obtain ⟨hc, hp'⟩ := acquired_holding hk hi
  intro hci
  rw [hc, Option.map_eq_some_iff] at hci
  obtain ⟨j, hj, rfl⟩ := hci
  rcases hp' with hp' | ⟨-, hp', hfree⟩
  · rw [hp', Option.map_eq_some_iff] at hp
    obtain ⟨g, hg, hgj⟩ := hp
    have hj' : holding s.producer s.consumer gp gc .consumer = some j := hj
    have hg' : holding s.producer s.consumer gp gc .producer = some g := hg
    exact hi.cells.slot_held_ne (by omega) hj' hg' (by decide) hgj
  · rw [hp', Option.some.injEq] at hp
    exact hi.slot_next_ne hk hfree hj hp.symm

end Parts

/-! ## The accounting -/

section Accounting

variable [Inhabited α] {moved : α → α} {capacity : Word} {s : RingState α} {log : List (RingEvent α)}

/-- Along every run of a buffer that could be constructed, every published element is accounted for. -/
theorem ring_accounting (hr : (ringMachine moved capacity).Run s log) : Accounted moved s log := by
  obtain ⟨k, gp, gc, hk1, hk, -, hi⟩ := ring_invariant hr
  have hshare : ∀ t, (RingHistory.ofLog log).share t = (RingHistory.ofLog log).taken t ++ s.inFlight t := fun t => by
    rw [hi.share t, inFlight_eq_pending hk hi t]
  have hcontents := contents_eq hk1 hk hi
  refine
    { pushed := pushed_eq hr
      contents := hcontents
      share := hshare
      partition := ?_
      order := ?_
      returned := popped_eq hr
      dropped := ⟨_, hi.dropped, ?_⟩
      frame := fun _ _ _ hs => data_of_not_touched hs
      owned := acquired_of_touches s
      exclusive := ?_ }
  · rw [RingHistory.delivered, RingHistory.discarded, ← hshare, ← hshare, hcontents]
    have hp := (RingHistory.ofLog log).shares_perm.append_right
      ((RingHistory.ofLog log).published.drop (RingHistory.ofLog log).claims.length)
    rwa [List.take_append_drop] at hp
  · rw [RingHistory.delivered, ← hshare]
    exact RingHistory.share_sublist _ _
  · rw [RingHistory.discarded, ← hshare, RingHistory.length_share _ hi.cells.claimed_le]
    exact hi.counted
  · intro t i ht ht'
    cases t with
    | producer => exact acquired_exclusive hk hi i ht ht'
    | consumer => exact acquired_exclusive hk hi i ht' ht

/-- In a full buffer of two cells a reclaim has moved the front element out and not released its cell, while the consumer is about
to claim the next one. -/
theorem ring_accounting_reclaim : ∃ s log, (ringMachine (α := ℕ) id 2).Run s log ∧ s.producer.uncounted = 1 ∧
    (RingHistory.ofLog log).discarded = [0] ∧ Accounted id s log := by
  obtain ⟨s, log, hr, hp⟩ := Machine.run_of_exec (M := ringMachine (α := ℕ) id 2) ⟨_, rfl, rfl⟩
    (.push 0 :: List.replicate 5 (.producer false) ++ .push 1 :: List.replicate 5 (.producer false) ++
      .push 2 :: List.replicate 6 (.producer false) ++ .pop :: List.replicate 2 (.consumer false))
    (p := fun q => decide (q.1.producer.uncounted = 1 ∧ (RingHistory.ofLog q.2).discarded = [0])) (by decide)
  obtain ⟨h1, h2⟩ := of_decide_eq_true hp
  exact ⟨s, log, hr, h1, h2, ring_accounting hr⟩

end Accounting

end TradeSurveillance
