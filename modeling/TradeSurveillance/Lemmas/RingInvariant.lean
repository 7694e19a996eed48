import TradeSurveillance.Lemmas.RingCells

/-!
# The invariant of the ring: both program counters, the counters and the cells

`RingInv k s h gp gc` relates a state to the history of its run. `gp` and `gc` are exact counts behind the local positions of
the two threads: the position a thread loaded, then the element it saw published, then the element it holds.

The producer's position is never stale by a whole turn: `tail_` does not move while it claims. The consumer's can be, so its
compare-exchange may succeed long after it read the cell; `ConsumerOk` says why the front element is published even then: once
`head_` has passed the element the consumer saw, it moves on only by reclaims of a full buffer.
-/

namespace TradeSurveillance

open Counter

variable {α : Type}

/-! ## What a thread holds -/

/-- The index whose cell a call of `try_claim_front` has acquired and not released. -/
def ClaimPc.holding (g : ℕ) : ClaimPc α → Option ℕ
  | .moveOut _ => some g
  | .release _ _ => some g
  | _ => none

/-- The index the reclaim of `push` holds. -/
def ProducerPc.holding (g : ℕ) : ProducerPc α → Option ℕ
  | .reclaim _ claim => claim.holding g
  | _ => none

/-- The index `pop` holds. -/
def ConsumerPc.holding (g : ℕ) : ConsumerPc α → Option ℕ
  | .pop claim => claim.holding g
  | .idle => none

/-- The indices the two threads hold. -/
def holding (p : ProducerPc α) (c : ConsumerPc α) (gp gc : ℕ) : Thread → Option ℕ
  | .producer => p.holding gp
  | .consumer => c.holding gc

/-- The call of `try_claim_front` has claimed nothing yet. -/
def ClaimPc.unclaimed : ClaimPc α → Bool
  | .loadHead | .loadSequence _ | .exchange _ => true
  | _ => false

/-- The producer is in a reclaim that has claimed nothing yet. -/
def ProducerPc.claiming : ProducerPc α → Bool
  | .reclaim _ claim => claim.unclaimed
  | _ => false

/-- An element claimed and still in its cell. -/
def ClaimPc.pending (published : List α) (g : ℕ) : ClaimPc α → List α
  | .moveOut _ => published[g]?.toList
  | _ => []

/-- The element a thread claimed and has not moved out of its cell yet. -/
def pending (p : ProducerPc α) (c : ConsumerPc α) (published : List α) (gp gc : ℕ) : Thread → List α
  | .producer => match p with
    | .reclaim _ claim => claim.pending published gp
    | _ => []
  | .consumer => match c with
    | .pop claim => claim.pending published gc
    | .idle => []

/-- The number of reclaims of the producer that are done or under way and not counted in `dropped_` yet. -/
def ProducerPc.uncounted : ProducerPc α → ℕ
  | .reclaim _ (.moveOut _) | .reclaim _ (.release _ _) | .countDrop _ => 1
  | _ => 0

/-! ## The invariant -/

/-- A call of `try_claim_front` in the producer. -/
def ProducerClaimOk (k : ℕ) (cells : Word → Cell α) (published : List α) (H g : ℕ) : ClaimPc α → Prop
  | .loadHead => True
  | .loadSequence pos => pos = word g ∧ g ≤ H ∧ published.length ≤ g + 2 ^ k
  | .exchange pos => pos = word g ∧ g < published.length ∧ published.length ≤ g + 2 ^ k
  | .moveOut pos => pos = word g ∧ published[g]? = some (cells (slot 64 k g)).data
  | .release pos out => pos = word g ∧ published[g]? = some out

/-- The producer. `held` is what the consumer holds. -/
def ProducerOk (k : ℕ) (cells : Word → Cell α) (published : List α) (H : ℕ) (tail : Word) (g : ℕ) (held : Option ℕ) :
    ProducerPc α → Prop
  | .idle | .loadTail _ => tail = word published.length
  | .check l | .countDrop l => tail = word published.length ∧ l.pos = word published.length
  | .reclaim l claim => tail = word published.length ∧ l.pos = word published.length ∧
      ProducerClaimOk k cells published H g claim
  | .write l => tail = word published.length ∧ l.pos = word published.length ∧ published.length < H + 2 ^ k ∧
      ∀ i, held = some i → i + 2 ^ k ≠ published.length
  | .publish l => tail = word published.length ∧ l.pos = word published.length ∧ published.length < H + 2 ^ k ∧
      (∀ i, held = some i → i + 2 ^ k ≠ published.length) ∧ (cells (slot 64 k published.length)).data = l.item
  | .storeTail l => ∃ n, published.length = n + 1 ∧ tail = word n ∧ l.pos = word n

/-- A call of `try_claim_front` in the consumer. `held` is what the producer holds, `claiming` says that it is in a reclaim that
has claimed nothing yet. -/
def ConsumerClaimOk (k : ℕ) (cells : Word → Cell α) (published : List α) (H g : ℕ) (held : Option ℕ) (claiming : Bool) :
    ClaimPc α → Prop
  | .loadHead => True
  | .loadSequence pos => pos = word g ∧ g ≤ H ∧ ∀ i, held = some i → H = i + 1 ∨ i < g
  | .exchange pos => pos = word g ∧ g < published.length ∧
      (g < H → claiming = true → published.length = H + 2 ^ k) ∧ (g + 1 < H → H + 2 ^ k ≤ published.length + 1)
  | .moveOut pos => pos = word g ∧ published[g]? = some (cells (slot 64 k g)).data
  | .release pos out => pos = word g ∧ published[g]? = some out

/-- The consumer. -/
def ConsumerOk (k : ℕ) (cells : Word → Cell α) (published : List α) (H g : ℕ) (held : Option ℕ) (claiming : Bool) :
    ConsumerPc α → Prop
  | .idle => True
  | .pop claim => ConsumerClaimOk k cells published H g held claiming claim

/-- The invariant. -/
structure RingInv (k : ℕ) (s : RingState α) (h : RingHistory α) (gp gc : ℕ) : Prop where
  capacity : s.ring.capacity = word (2 ^ k)
  mask : s.ring.mask = word (2 ^ k - 1)
  head : s.ring.head = word h.claims.length
  cells : CellsOk k s.ring.cells h.published h.claims.length (holding s.producer s.consumer gp gc)
  producer : ProducerOk k s.ring.cells h.published h.claims.length s.ring.tail gp (s.consumer.holding gc) s.producer
  consumer : ConsumerOk k s.ring.cells h.published h.claims.length gc (s.producer.holding gp) s.producer.claiming s.consumer
  share : ∀ t, h.share t = h.taken t ++ pending s.producer s.consumer h.published gp gc t
  dropped : s.ring.dropped = word h.counted
  counted : h.counted + s.producer.uncounted = h.claims.count .producer

/-! ## Shares -/

/-- Zipping with one more element on the left, where the right is longer. -/
theorem zip_concat_left {β γ : Type} (l : List β) (b : β) (r : List γ) (x : γ) (h : r[l.length]? = some x) :
    (l ++ [b]).zip r = l.zip r ++ [(b, x)] := by
  induction l generalizing r with
  | nil =>
    cases r with
    | nil => simp at h
    | cons c r =>
      simp only [List.length_nil, List.getElem?_cons_zero, Option.some.injEq] at h
      subst h
      simp
  | cons a l ih =>
    cases r with
    | nil => simp at h
    | cons c r =>
      simp only [List.length_cons, List.getElem?_cons_succ] at h
      simp only [List.cons_append, List.zip_cons_cons, ih r h]

/-- Zipping with one more element on the right, where the right is long enough already. -/
theorem zip_concat_right {β γ : Type} (l : List β) (r : List γ) (x : γ) (h : l.length ≤ r.length) :
    l.zip (r ++ [x]) = l.zip r := by
  induction l generalizing r with
  | nil => simp
  | cons a l ih =>
    cases r with
    | nil => simp at h
    | cons c r =>
      simp only [List.length_cons, Nat.add_le_add_iff_right] at h
      simp only [List.cons_append, List.zip_cons_cons, ih r h]

/-- A claim gives the front element to the thread that made it. -/
theorem share_claim {h : RingHistory α} {t : Thread} {x : α} (hx : h.published[h.claims.length]? = some x) (t' : Thread) :
    (h.add (.claimed t)).share t' = h.share t' ++ if t = t' then [x] else [] := by
  simp only [RingHistory.add, RingHistory.share, zip_concat_left _ _ _ _ hx, List.filter_append, List.map_append]
  by_cases htt : t = t' <;> simp [htt]

/-- A newly published element falls to no thread yet. -/
theorem share_publish {h : RingHistory α} {x : α} (hle : h.claims.length ≤ h.published.length) (t : Thread) :
    (h.add (.published x)).share t = h.share t := by
  simp only [RingHistory.add, RingHistory.share, zip_concat_right _ _ _ hle]

/-! ## Frames: what a step of one thread leaves alone in the other -/

section Frames

variable {k H g : ℕ} {cells cells' : Word → Cell α} {published : List α} {tail : Word} {held held' : Option ℕ}
  {claiming claiming' : Bool} {p : ProducerPc α} {c : ConsumerPc α}

@[simp] theorem update_sequence_data (cells : Word → Cell α) (i j q : Word) :
    (Function.update cells i { cells i with sequence := q } j).data = (cells j).data := by
  by_cases hji : j = i
  · subst hji; rw [Function.update_self]
  · rw [Function.update_of_ne hji]

/-- A claim of the consumer keeps the producer. -/
theorem ProducerOk.claim (h : ProducerOk k cells published H tail g none p) :
    ProducerOk k cells published (H + 1) tail g (some H) p := by
  cases p with
  | reclaim l claim =>
    obtain ⟨h1, h2, h3⟩ := h
    refine ⟨h1, h2, ?_⟩
    cases claim with
    | loadSequence pos => exact ⟨h3.1, Nat.le_succ_of_le h3.2.1, h3.2.2⟩
    | _ => exact h3
  | write l =>
    obtain ⟨h1, h2, h3, -⟩ := h
    refine ⟨h1, h2, by omega, ?_⟩
    intro i hi
    rw [Option.some.injEq] at hi
    omega
  | publish l =>
    obtain ⟨h1, h2, h3, -, h5⟩ := h
    refine ⟨h1, h2, by omega, fun i hi => ?_, h5⟩
    rw [Option.some.injEq] at hi
    omega
  | _ => exact h

/-- What the consumer does to the cell it holds keeps the producer. -/
theorem ProducerOk.frame (h : ProducerOk k cells published H tail g held p)
    (hdata : ∀ i, p.holding g = some i → (cells' (slot 64 k i)).data = (cells (slot 64 k i)).data)
    (hnext : published.length < H + 2 ^ k → (∀ i, held = some i → i + 2 ^ k ≠ published.length) →
      (cells' (slot 64 k published.length)).data = (cells (slot 64 k published.length)).data)
    (hheld : ∀ i, held' = some i → held = some i) : ProducerOk k cells' published H tail g held' p := by
  cases p with
  | reclaim l claim =>
    obtain ⟨h1, h2, h3⟩ := h
    refine ⟨h1, h2, ?_⟩
    cases claim with
    | moveOut pos => exact ⟨h3.1, by rw [hdata g rfl]; exact h3.2⟩
    | _ => exact h3
  | write l => exact ⟨h.1, h.2.1, h.2.2.1, fun i hi => h.2.2.2 i (hheld i hi)⟩
  | publish l =>
    obtain ⟨h1, h2, h3, h4, h5⟩ := h
    exact ⟨h1, h2, h3, fun i hi => h4 i (hheld i hi), by rw [hnext h3 h4]; exact h5⟩
  | _ => exact h

/-- A claim of the producer keeps the consumer: it takes an element the consumer did not see, or one of a full buffer. -/
theorem ConsumerOk.claim (h : ConsumerOk k cells published H g none true c) :
    ConsumerOk k cells published (H + 1) g (some H) false c := by
  cases c with
  | idle => trivial
  | pop claim =>
    cases claim with
    | loadSequence pos =>
      refine ⟨h.1, Nat.le_succ_of_le h.2.1, ?_⟩
      intro i hi
      rw [Option.some.injEq] at hi
      omega
    | exchange pos =>
      obtain ⟨h1, h2, h3, h4⟩ := h
      refine ⟨h1, h2, fun _ hc => (Bool.false_ne_true hc).elim, fun hg => ?_⟩
      have := h3 (by omega) rfl
      omega
    | _ => exact h

/-- What the producer does without claiming and publishing keeps the consumer, provided it starts a reclaim of a full buffer
only. -/
theorem ConsumerOk.frame (h : ConsumerOk k cells published H g held claiming c)
    (hdata : ∀ i, c.holding g = some i → (cells' (slot 64 k i)).data = (cells (slot 64 k i)).data)
    (hheld : ∀ i, held' = some i → held = some i)
    (hclaim : claiming' = true → claiming = true ∨ (c.holding g = none → published.length = H + 2 ^ k)) :
    ConsumerOk k cells' published H g held' claiming' c := by
  cases c with
  | idle => trivial
  | pop claim =>
    cases claim with
    | loadHead => trivial
    | loadSequence pos => exact ⟨h.1, h.2.1, fun i hi => h.2.2 i (hheld i hi)⟩
    | exchange pos =>
      obtain ⟨h1, h2, h3, h4⟩ := h
      refine ⟨h1, h2, fun hg hc => ?_, h4⟩
      rcases hclaim hc with hc' | hc'
      · exact h3 hg hc'
      · exact hc' rfl
    | moveOut pos => exact ⟨h.1, by rw [hdata g rfl]; exact h.2⟩
    | release pos out => exact h

/-- Publishing keeps the consumer. -/
theorem ConsumerOk.publish (h : ConsumerOk k cells published H g held claiming c) (x : α)
    (hdata : ∀ i, (cells' i).data = (cells i).data) (hlt : ∀ i, c.holding g = some i → i < published.length) :
    ConsumerOk k cells' (published ++ [x]) H g held false c := by
  have hget : ∀ y, c.holding g = some g → published[g]? = some y → (published ++ [x])[g]? = some y := by
    intro y hg hy
    rw [List.getElem?_append_left (hlt g hg)]
    exact hy
  cases c with
  | idle => trivial
  | pop claim =>
    cases claim with
    | loadHead => trivial
    | loadSequence pos => exact h
    | exchange pos =>
      obtain ⟨h1, h2, h3, h4⟩ := h
      refine ⟨h1, ?_, fun _ hc => (Bool.false_ne_true hc).elim, fun hg => ?_⟩
      · rw [List.length_append]; omega
      · have := h4 hg
        rw [List.length_append]; omega
    | moveOut pos =>
      refine ⟨h.1, hget _ rfl ?_⟩
      rw [hdata]
      exact h.2
    | release pos out => exact ⟨h.1, hget _ rfl h.2⟩

end Frames

/-! ## The buffer's cells at exact counts -/

section AtCounts

variable {k g : ℕ} {r : SpscRingBuffer α}

theorem cell_word (hm : r.mask = word (2 ^ k - 1)) (hk : k ≤ 64) : r.cell (word g) = r.cells (slot 64 k g) := by
  rw [SpscRingBuffer.cell, hm, ofNat_and_mask hk]

theorem setSequence_cells (hm : r.mask = word (2 ^ k - 1)) (hk : k ≤ 64) (q : Word) :
    (r.setSequence (word g) q).cells =
      Function.update r.cells (slot 64 k g) { r.cells (slot 64 k g) with sequence := q } := by
  rw [SpscRingBuffer.setSequence, cell_word hm hk, hm, ofNat_and_mask hk]

theorem setData_cells (hm : r.mask = word (2 ^ k - 1)) (hk : k ≤ 64) (x : α) :
    (r.setData (word g) x).cells = Function.update r.cells (slot 64 k g) { r.cells (slot 64 k g) with data := x } := by
  rw [SpscRingBuffer.setData, cell_word hm hk, hm, ofNat_and_mask hk]

end AtCounts

end TradeSurveillance
