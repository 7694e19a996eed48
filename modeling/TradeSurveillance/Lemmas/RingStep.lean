import TradeSurveillance.Lemmas.RingCases
import TradeSurveillance.Lemmas.RingInvariant

/-!
# Every step keeps the invariant of the ring

One lemma for each step of `push` and of `pop`; `RingInv.step` collects them, and `ring_invariant` is the invariant of every
run, for every capacity the constructor accepts.
-/

namespace TradeSurveillance

open Counter

variable {α : Type} {moved : α → α} {k gp gc : ℕ} {r : SpscRingBuffer α} {h : RingHistory α}

/-- In a ring of at most `2 ^ 63` cells two counts at most a turn of the ring apart are told apart by their counters. -/
theorem word_inj (hk : k ≤ 63) {m n : ℕ} (h : word m = word n) (h1 : m ≤ n + 2 ^ k) (h2 : n ≤ m + 2 ^ k) : m = n := by
  have hle : 2 ^ k ≤ 2 ^ 63 := Nat.pow_le_pow_right (by omega) hk
  exact ofNat_inj_of_near h (by omega) (by omega)

namespace RingInv

/-! ## The steps of the producer -/

section Producer

variable {c : ConsumerPc α} {l : PushLocals α} {pos : Word}

/-- `push` is called. -/
theorem pushCall {x : α} (hi : RingInv k ⟨r, .idle, c⟩ h gp gc) : RingInv k ⟨r, .loadTail x, c⟩ h gp gc :=
  ⟨hi.capacity, hi.mask, hi.head, hi.cells, hi.producer, hi.consumer, hi.share, hi.dropped, hi.counted⟩

/-- The producer loads `tail_`. -/
theorem loadTail {x : α} (hi : RingInv k ⟨r, .loadTail x, c⟩ h gp gc) :
    RingInv k ⟨r, .check ⟨x, r.tail, false⟩, c⟩ h gp gc :=
  ⟨hi.capacity, hi.mask, hi.head, hi.cells, ⟨hi.producer, hi.producer⟩, hi.consumer, hi.share, hi.dropped, hi.counted⟩

/-- A cell vacated for its position: the buffer is not full, and the consumer holds another cell. -/
theorem vacated_of_sequence (hk1 : 1 ≤ k) (hk : k ≤ 63) (hi : RingInv k ⟨r, .check l, c⟩ h gp gc)
    (hs : (r.cell l.pos).sequence = l.pos) :
    h.published.length < h.claims.length + 2 ^ k ∧ ∀ i, c.holding gc = some i → i + 2 ^ k ≠ h.published.length := by
  obtain ⟨-, hpos⟩ := hi.producer
  rw [hpos, cell_word hi.mask (by omega)] at hs
  obtain ⟨j, hj1, hj2, hj3, hjw⟩ := hi.cells.of_vacant hk1 (by omega) hs
  have hle := hi.cells.claimed_le
  have hj : j = h.published.length := word_inj hk hjw (by omega) (by omega)
  subst hj
  exact ⟨hj2, fun i hc => hj3 .consumer i hc⟩

/-- A cell not vacated for its position: the buffer is full, or the consumer holds that cell. -/
theorem full_of_sequence (hk : k ≤ 63) (hi : RingInv k ⟨r, .check l, c⟩ h gp gc)
    (hs : (r.cell l.pos).sequence ≠ l.pos) (hc : ∀ i, c.holding gc = some i → i + 2 ^ k ≠ h.published.length) :
    h.published.length = h.claims.length + 2 ^ k := by
  obtain ⟨-, hpos⟩ := hi.producer
  rw [hpos, cell_word hi.mask (by omega)] at hs
  by_contra hne
  have hroom := hi.cells.room
  refine hs (hi.cells.vacant _ (Nat.le_refl _) (by omega) (fun t i ht => ?_))
  cases t with
  | producer => cases ht
  | consumer => exact hc i ht

/-- The producer finds its cell vacated. -/
theorem checkVacated (hk1 : 1 ≤ k) (hk : k ≤ 63) (hi : RingInv k ⟨r, .check l, c⟩ h gp gc)
    (hs : (r.cell l.pos).sequence = l.pos) : RingInv k ⟨r, .write l, c⟩ h gp gc := by
  obtain ⟨hv, hfree⟩ := hi.vacated_of_sequence hk1 hk hs
  obtain ⟨htail, hpos⟩ := hi.producer
  exact ⟨hi.capacity, hi.mask, hi.head, hi.cells, ⟨htail, hpos, hv, hfree⟩, hi.consumer, hi.share, hi.dropped, hi.counted⟩

/-- The producer finds its cell taken and starts to drop the oldest item. -/
theorem checkFull (hk : k ≤ 63) (hi : RingInv k ⟨r, .check l, c⟩ h gp gc) (hs : (r.cell l.pos).sequence ≠ l.pos) :
    RingInv k ⟨r, .reclaim l .loadHead, c⟩ h gp gc := by
  obtain ⟨htail, hpos⟩ := hi.producer
  have hc : ConsumerOk k r.cells h.published h.claims.length gc none true c := hi.consumer.frame (fun _ _ => rfl) (fun _ hh => hh)
    (fun _ => Or.inr fun hn => hi.full_of_sequence hk hs (fun i hci => by rw [hn] at hci; cases hci))
  exact ⟨hi.capacity, hi.mask, hi.head, hi.cells, ⟨htail, hpos, trivial⟩, hc, hi.share, hi.dropped, hi.counted⟩

/-- Loading `head_`, at the start of `try_claim_front` or after a stale position, or by a failed compare-exchange. -/
theorem reclaimLoadHead {claim : ClaimPc α} (hclaim : claim.unclaimed = true)
    (hi : RingInv k ⟨r, .reclaim l claim, c⟩ h gp gc) :
    RingInv k ⟨r, .reclaim l (.loadSequence r.head), c⟩ h h.claims.length gc := by
  obtain ⟨htail, hpos, -⟩ := hi.producer
  have hok : ProducerClaimOk k r.cells h.published h.claims.length h.claims.length (.loadSequence r.head) :=
    ⟨hi.head, Nat.le_refl _, hi.cells.room⟩
  cases claim with
  | moveOut _ => cases hclaim
  | release _ _ => cases hclaim
  | _ =>
    exact ⟨hi.capacity, hi.mask, hi.head, hi.cells, ⟨htail, hpos, hok⟩, hi.consumer, hi.share, hi.dropped, hi.counted⟩

/-- While dropping, the producer finds a published cell at the head. -/
theorem reclaimSeen (hk1 : 1 ≤ k) (hk : k ≤ 63) (hi : RingInv k ⟨r, .reclaim l (.loadSequence pos), c⟩ h gp gc)
    (hs : (r.cell pos).sequence = pos + 1) : RingInv k ⟨r, .reclaim l (.exchange pos), c⟩ h gp gc := by
  obtain ⟨htail, hpos, hp, hle, hroom⟩ := hi.producer
  rw [hp, cell_word hi.mask (by omega), ofNat_succ] at hs
  obtain ⟨i, hi1, hi2, -, hiw⟩ := hi.cells.of_published hk1 (by omega) hs
  have hcl := hi.cells.claimed_le
  have hig : i = gp := word_inj hk hiw (by omega) (by omega)
  subst hig
  exact ⟨hi.capacity, hi.mask, hi.head, hi.cells, ⟨htail, hpos, hp, hi1, hi2⟩, hi.consumer, hi.share, hi.dropped,
    hi.counted⟩

/-- While dropping, it finds the ring empty and checks its cell again. -/
theorem reclaimEmpty (hi : RingInv k ⟨r, .reclaim l (.loadSequence pos), c⟩ h gp gc) :
    RingInv k ⟨r, .check l, c⟩ h gp gc := by
  obtain ⟨htail, hpos, -⟩ := hi.producer
  have hc : ConsumerOk k r.cells h.published h.claims.length gc none false c := hi.consumer.frame (fun _ _ => rfl) (fun _ hh => hh)
    (fun hf => (Bool.false_ne_true hf).elim)
  exact ⟨hi.capacity, hi.mask, hi.head, hi.cells, ⟨htail, hpos⟩, hc, hi.share, hi.dropped, hi.counted⟩

/-- While dropping, it finds that the head has moved on and loads it again. -/
theorem reclaimStale (hi : RingInv k ⟨r, .reclaim l (.loadSequence pos), c⟩ h gp gc) :
    RingInv k ⟨r, .reclaim l .loadHead, c⟩ h gp gc := by
  obtain ⟨htail, hpos, -⟩ := hi.producer
  exact ⟨hi.capacity, hi.mask, hi.head, hi.cells, ⟨htail, hpos, trivial⟩, hi.consumer, hi.share, hi.dropped, hi.counted⟩

/-- The position of a compare-exchange of the producer that succeeds is the front: `tail_` has not moved since it was loaded. -/
theorem reclaim_front (hk : k ≤ 63) (hi : RingInv k ⟨r, .reclaim l (.exchange pos), c⟩ h gp gc) (hx : r.head = pos) :
    gp = h.claims.length ∧ h.claims.length < h.published.length := by
  obtain ⟨-, -, hp, hlt, hroom⟩ := hi.producer
  have hcl := hi.cells.claimed_le
  have hcr := hi.cells.room
  have hw : word gp = word h.claims.length := hp.symm.trans (hx.symm.trans hi.head)
  have hgp := word_inj hk hw (by omega) (by omega)
  exact ⟨hgp, by omega⟩

/-- Its compare-exchange claims the cell at the head. -/
theorem reclaimClaim (hk : k ≤ 63) (hi : RingInv k ⟨r, .reclaim l (.exchange pos), c⟩ h gp gc) (hx : r.head = pos) :
    RingInv k ⟨{ r with head := pos + 1 }, .reclaim l (.moveOut pos), c⟩ (h.add (.claimed .producer)) gp gc := by
  obtain ⟨rfl, hlt⟩ := hi.reclaim_front hk hx
  obtain ⟨htail, hpos, hp, -, -⟩ := hi.producer
  have hdata := hi.cells.unclaimed_data _ (Nat.le_refl _) hlt
  have hcells := hi.cells.claim (t := .producer) hlt rfl
  have hheld : Function.update (holding (.reclaim l (.exchange pos)) c h.claims.length gc) .producer (some h.claims.length) =
      holding (.reclaim l (.moveOut pos)) c h.claims.length gc := by
    funext t
    cases t <;> rfl
  rw [hheld] at hcells
  have hlen : (h.add (.claimed .producer)).claims.length = h.claims.length + 1 := by simp [RingHistory.add]
  refine ⟨hi.capacity, hi.mask, ?_, ?_, ⟨htail, hpos, hp, hdata⟩, ?_, ?_, hi.dropped, ?_⟩
  · rw [hlen, hp]
    exact ofNat_succ
  · rw [hlen]
    exact hcells
  · rw [hlen]
    exact hi.consumer.claim
  · intro t
    rw [share_claim hdata, hi.share t]
    cases t with
    | producer => simp [pending, ClaimPc.pending, RingHistory.add, hdata]
    | consumer => simp [pending, RingHistory.add]
  · have hc := hi.counted
    simp only [ProducerPc.uncounted, RingHistory.add, List.count_append, List.count_singleton_self] at hc ⊢
    omega

/-- It moves the oldest item out. -/
theorem reclaimMove (moved : α → α) (hk : k ≤ 63) (hi : RingInv k ⟨r, .reclaim l (.moveOut pos), c⟩ h gp gc) :
    RingInv k ⟨r.setData pos (moved (r.cell pos).data), .reclaim l (.release pos (r.cell pos).data), c⟩
      (h.add (.took .producer (r.cell pos).data)) gp gc := by
  obtain ⟨htail, hpos, rfl, hdata⟩ := hi.producer
  have hheld : holding (.reclaim l (.moveOut (word gp))) c gp gc .producer = some gp := rfl
  have hcells := hi.cells.setData (fun i h1 h2 => hi.cells.slot_unclaimed_ne (by omega) hheld h1 h2)
    (moved (r.cell (word gp)).data)
  have hdata' : h.published[gp]? = some (r.cell (word gp)).data := by
    rw [cell_word hi.mask (by omega)]
    exact hdata
  refine ⟨hi.capacity, hi.mask, hi.head, ?_, ⟨htail, hpos, rfl, hdata'⟩, ?_, ?_, hi.dropped, hi.counted⟩
  · rw [setData_cells hi.mask (by omega)]
    exact hcells
  · rw [setData_cells hi.mask (by omega)]
    refine hi.consumer.frame (fun i hc => ?_) (fun _ hh => hh) (fun hf => (Bool.false_ne_true hf).elim)
    have hc' : holding (.reclaim l (.moveOut (word gp))) c gp gc .consumer = some i := hc
    have hne := hi.cells.slot_held_ne (by omega) hheld hc' (by decide)
    rw [Function.update_of_ne hne]
  · intro t
    have hsh := hi.share t
    cases t with
    | producer => simpa [pending, ClaimPc.pending, RingHistory.add, RingHistory.share, hdata'] using hsh
    | consumer => simpa [pending, RingHistory.add, RingHistory.share] using hsh

/-- It releases the cell of the dropped item. -/
theorem reclaimRelease {out : α} (hk : k ≤ 63) (hi : RingInv k ⟨r, .reclaim l (.release pos out), c⟩ h gp gc) :
    RingInv k ⟨r.setSequence pos (pos + r.capacity), .countDrop l, c⟩ h gp gc := by
  obtain ⟨htail, hpos, rfl, -⟩ := hi.producer
  have hheld : holding (.reclaim l (.release (word gp) out)) c gp gc .producer = some gp := rfl
  have hcells := hi.cells.release (by omega) hheld
  have hupd : Function.update (holding (.reclaim l (.release (word gp) out)) c gp gc) .producer none =
      holding (.countDrop l) c gp gc := by
    funext t
    cases t <;> rfl
  rw [hupd] at hcells
  have hseq : word gp + r.capacity = word (gp + 2 ^ k) := by
    rw [hi.capacity]
    exact (BitVec.ofNat_add gp (2 ^ k)).symm
  refine ⟨hi.capacity, hi.mask, hi.head, ?_, ⟨htail, hpos⟩, ?_, hi.share, hi.dropped, hi.counted⟩
  · rw [hseq, setSequence_cells hi.mask (by omega)]
    exact hcells
  · rw [setSequence_cells hi.mask (by omega)]
    exact hi.consumer.frame (fun i _ => update_sequence_data _ _ _ _) (fun _ hh => by cases hh)
      (fun hf => (Bool.false_ne_true hf).elim)

/-- It counts the drop. -/
theorem countDrop (hi : RingInv k ⟨r, .countDrop l, c⟩ h gp gc) :
    RingInv k ⟨{ r with dropped := r.dropped + 1 }, .check { l with dropped := true }, c⟩ (h.add .dropCounted) gp gc := by
  refine ⟨hi.capacity, hi.mask, hi.head, hi.cells, hi.producer, hi.consumer, hi.share, ?_, hi.counted⟩
  have hd := hi.dropped
  simp only at hd
  simp only [RingHistory.add, hd]
  exact ofNat_succ

/-- The cell of the next index is not the cell the consumer holds, when that one is not the index a turn before. -/
theorem slot_next_ne (hk : k ≤ 63) {p : ProducerPc α} {c : ConsumerPc α} (hi : RingInv k ⟨r, p, c⟩ h gp gc)
    (hfree : ∀ i, c.holding gc = some i → i + 2 ^ k ≠ h.published.length) {i : ℕ} (hc : c.holding gc = some i) :
    slot 64 k i ≠ slot 64 k h.published.length := by
  have hne := hfree i hc
  have hlt := hi.cells.held_lt .consumer i hc
  have hroom := hi.cells.held_room .consumer i hc
  have hle := hi.cells.claimed_le
  exact slot_ne (by omega) (by omega) (by omega) (by omega)

/-- It writes its item to the vacated cell. -/
theorem write (hk : k ≤ 63) (hi : RingInv k ⟨r, .write l, c⟩ h gp gc) :
    RingInv k ⟨r.setData l.pos l.item, .publish l, c⟩ h gp gc := by
  obtain ⟨htail, hpos, hv, hfree⟩ := hi.producer
  have hcells := hi.cells.setData (fun i h1 h2 => CellsOk.slot_unclaimed_ne_next (by omega) hv h1 h2) l.item
  have hset : (r.setData l.pos l.item).cells = Function.update r.cells (slot 64 k h.published.length)
      { r.cells (slot 64 k h.published.length) with data := l.item } := by
    rw [hpos]
    exact setData_cells hi.mask (by omega) l.item
  refine ⟨hi.capacity, hi.mask, hi.head, ?_, ⟨htail, hpos, hv, hfree, ?_⟩, ?_, hi.share, hi.dropped, hi.counted⟩
  · rw [hset]
    exact hcells
  · rw [hset, Function.update_self]
  · rw [hset]
    refine hi.consumer.frame (fun i hc => ?_) (fun _ hh => hh) (fun hf => (Bool.false_ne_true hf).elim)
    rw [Function.update_of_ne (hi.slot_next_ne hk hfree hc)]

/-- It publishes the item. -/
theorem publish (hk : k ≤ 63) (hi : RingInv k ⟨r, .publish l, c⟩ h gp gc) :
    RingInv k ⟨r.setSequence l.pos (l.pos + 1), .storeTail l, c⟩ (h.add (.published (r.cell l.pos).data)) gp gc := by
  obtain ⟨htail, hpos, hv, hfree, -⟩ := hi.producer
  have hle := hi.cells.claimed_le
  have hdata : (r.cell l.pos).data = (r.cells (slot 64 k h.published.length)).data := by
    rw [hpos, cell_word hi.mask (by omega)]
  have hset : (r.setSequence l.pos (l.pos + 1)).cells = Function.update r.cells (slot 64 k h.published.length)
      { r.cells (slot 64 k h.published.length) with sequence := word (h.published.length + 1) } := by
    rw [hpos, ofNat_succ]
    exact setSequence_cells hi.mask (by omega) _
  have hcells := hi.cells.publish (by omega) hv (fun t i ht => by
    cases t with
    | producer => cases ht
    | consumer => exact hfree i ht) hdata.symm
  have hlt : ∀ i, c.holding gc = some i → i < h.published.length := fun i hc =>
    (hi.cells.held_lt .consumer i hc).trans_le hle
  refine ⟨hi.capacity, hi.mask, hi.head, ?_, ⟨h.published.length, by simp [RingHistory.add], htail, hpos⟩, ?_, ?_,
    hi.dropped, hi.counted⟩
  · rw [hset]
    exact hcells
  · rw [hset]
    exact hi.consumer.publish _ (fun i => update_sequence_data _ _ _ _) hlt
  · intro t
    rw [share_publish hle, hi.share t]
    cases t with
    | producer => rfl
    | consumer =>
      cases c with
      | idle => rfl
      | pop claim =>
        cases claim with
        | moveOut pos =>
          simp only [pending, ClaimPc.pending, RingHistory.add]
          rw [List.getElem?_append_left (hlt gc rfl)]
        | _ => rfl

/-- It stores the new `tail_`. -/
theorem storeTail (hi : RingInv k ⟨r, .storeTail l, c⟩ h gp gc) :
    RingInv k ⟨{ r with tail := l.pos + 1 }, .idle, c⟩ h gp gc := by
  obtain ⟨n, hn, -, hpos⟩ := hi.producer
  refine ⟨hi.capacity, hi.mask, hi.head, hi.cells, ?_, hi.consumer, hi.share, hi.dropped, hi.counted⟩
  rw [ProducerOk, hn, hpos]
  exact ofNat_succ

end Producer

/-! ## The steps of the consumer -/

section Consumer

variable {p : ProducerPc α} {pos : Word}

/-- `pop` is called. -/
theorem popCall (hi : RingInv k ⟨r, p, .idle⟩ h gp gc) : RingInv k ⟨r, p, .pop .loadHead⟩ h gp gc :=
  ⟨hi.capacity, hi.mask, hi.head, hi.cells, hi.producer, trivial, hi.share, hi.dropped, hi.counted⟩

/-- Loading `head_`, at the start of `try_claim_front` or after a stale position, or by a failed compare-exchange. -/
theorem popLoadHead {claim : ClaimPc α} (hclaim : claim.unclaimed = true) (hi : RingInv k ⟨r, p, .pop claim⟩ h gp gc) :
    RingInv k ⟨r, p, .pop (.loadSequence r.head)⟩ h gp h.claims.length := by
  have hok : ConsumerClaimOk k r.cells h.published h.claims.length h.claims.length (p.holding gp) p.claiming
      (.loadSequence r.head) :=
    ⟨hi.head, Nat.le_refl _, fun i hp => Or.inr (hi.cells.held_lt .producer i hp)⟩
  cases claim with
  | moveOut _ => cases hclaim
  | release _ _ => cases hclaim
  | _ => exact ⟨hi.capacity, hi.mask, hi.head, hi.cells, hi.producer, hok, hi.share, hi.dropped, hi.counted⟩

/-- The consumer sees an element published: its count agrees with the position modulo `2 ^ 64`. -/
theorem popSeen (hk1 : 1 ≤ k) (hk : k ≤ 63) (hi : RingInv k ⟨r, p, .pop (.loadSequence pos)⟩ h gp gc)
    (hs : (r.cell pos).sequence = pos + 1) : ∃ g, RingInv k ⟨r, p, .pop (.exchange pos)⟩ h gp g := by
  obtain ⟨hp, hle, hheld⟩ := hi.consumer
  rw [hp, cell_word hi.mask (by omega), ofNat_succ] at hs
  obtain ⟨i, hi1, hi2, hi3, hiw⟩ := hi.cells.of_published hk1 (by omega) hs
  have hcl := hi.cells.claimed_le
  refine ⟨i, hi.capacity, hi.mask, hi.head, hi.cells, hi.producer, ⟨hp.trans hiw.symm, hi1, ?_, ?_⟩, hi.share, hi.dropped,
    hi.counted⟩
  · -- claimed and not released: the producer holds it, so it is not at the start of a reclaim
    intro hlt hc
    rcases hi3 with h3 | ⟨t, ht⟩
    · omega
    · cases t with
      | consumer => cases ht
      | producer =>
        cases p with
        | reclaim l claim => cases claim <;> cases hc <;> cases ht
        | _ => cases hc
  · intro hlt
    rcases hi3 with h3 | ⟨t, ht⟩
    · omega
    · cases t with
      | consumer => cases ht
      | producer =>
        -- the position was loaded after the producer's claim, so it cannot agree with the claimed count
        have hroom := hi.cells.held_room .producer i ht
        rcases hheld i ht with h4 | h4
        · omega
        · have := word_inj hk hiw (by omega) (by omega)
          omega

/-- The consumer finds the ring empty. -/
theorem popEmpty (hi : RingInv k ⟨r, p, .pop (.loadSequence pos)⟩ h gp gc) : RingInv k ⟨r, p, .idle⟩ h gp gc :=
  ⟨hi.capacity, hi.mask, hi.head, hi.cells, hi.producer, trivial, hi.share, hi.dropped, hi.counted⟩

/-- The consumer finds that the head has moved on and loads it again. -/
theorem popStale (hi : RingInv k ⟨r, p, .pop (.loadSequence pos)⟩ h gp gc) : RingInv k ⟨r, p, .pop .loadHead⟩ h gp gc :=
  ⟨hi.capacity, hi.mask, hi.head, hi.cells, hi.producer, trivial, hi.share, hi.dropped, hi.counted⟩

/-- When a compare-exchange of the consumer succeeds the front element is published, though the consumer may have seen another
one, whole turns of the counter ago: since it saw that one, `head_` moved on only while the buffer was full. -/
theorem pop_front (hk1 : 1 ≤ k) (hi : RingInv k ⟨r, p, .pop (.exchange pos)⟩ h gp gc)
    (hx : r.head = pos) : h.claims.length < h.published.length := by
  obtain ⟨hp, hlt, -, h4⟩ := hi.consumer
  have hw : word gc = word h.claims.length := hp.symm.trans (hx.symm.trans hi.head)
  have h2 : 2 ^ 1 ≤ 2 ^ k := Nat.pow_le_pow_right (by omega) hk1
  rcases Nat.lt_or_ge gc h.claims.length with hgt | hle
  · have := turn_le_of_ofNat_eq hw hgt
    have := h4 (by omega)
    omega
  · omega

/-- Its compare-exchange claims the cell at the head. -/
theorem popClaim (hk1 : 1 ≤ k) (hi : RingInv k ⟨r, p, .pop (.exchange pos)⟩ h gp gc) (hx : r.head = pos) :
    RingInv k ⟨{ r with head := pos + 1 }, p, .pop (.moveOut pos)⟩ (h.add (.claimed .consumer)) gp h.claims.length := by
  have hlt := hi.pop_front hk1 hx
  have hdata := hi.cells.unclaimed_data _ (Nat.le_refl _) hlt
  have hcells := hi.cells.claim (t := .consumer) hlt rfl
  have hheld : Function.update (holding p (.pop (.exchange pos)) gp gc) .consumer (some h.claims.length) =
      holding p (.pop (.moveOut pos)) gp h.claims.length := by
    funext t
    cases t <;> rfl
  rw [hheld] at hcells
  have hlen : (h.add (.claimed .consumer)).claims.length = h.claims.length + 1 := by simp [RingHistory.add]
  have hpos : pos = word h.claims.length := hx.symm.trans hi.head
  refine ⟨hi.capacity, hi.mask, ?_, ?_, ?_, ⟨hpos, hdata⟩, ?_, hi.dropped, ?_⟩
  · rw [hlen, hpos]
    exact ofNat_succ
  · rw [hlen]
    exact hcells
  · rw [hlen]
    exact hi.producer.claim
  · intro t
    rw [share_claim hdata, hi.share t]
    cases t with
    | producer => simp [pending, RingHistory.add]
    | consumer => simp [pending, ClaimPc.pending, RingHistory.add, hdata]
  · have hc := hi.counted
    simpa [RingHistory.add, List.count_append] using hc

/-- It moves the item out. -/
theorem popMove (moved : α → α) (hk : k ≤ 63) (hi : RingInv k ⟨r, p, .pop (.moveOut pos)⟩ h gp gc) :
    RingInv k ⟨r.setData pos (moved (r.cell pos).data), p, .pop (.release pos (r.cell pos).data)⟩
      (h.add (.took .consumer (r.cell pos).data)) gp gc := by
  obtain ⟨rfl, hdata⟩ := hi.consumer
  have hheld : holding p (.pop (.moveOut (word gc))) gp gc .consumer = some gc := rfl
  have hcells := hi.cells.setData (fun i h1 h2 => hi.cells.slot_unclaimed_ne (by omega) hheld h1 h2)
    (moved (r.cell (word gc)).data)
  have hdata' : h.published[gc]? = some (r.cell (word gc)).data := by
    rw [cell_word hi.mask (by omega)]
    exact hdata
  refine ⟨hi.capacity, hi.mask, hi.head, ?_, ?_, ⟨rfl, hdata'⟩, ?_, hi.dropped, hi.counted⟩
  · rw [setData_cells hi.mask (by omega)]
    exact hcells
  · rw [setData_cells hi.mask (by omega)]
    refine hi.producer.frame (fun i hp => ?_) (fun _ hfree => ?_) (fun _ hh => hh)
    · have hp' : holding p (.pop (.moveOut (word gc))) gp gc .producer = some i := hp
      rw [Function.update_of_ne (hi.cells.slot_held_ne (by omega) hheld hp' (by decide))]
    · rw [Function.update_of_ne (Ne.symm (hi.slot_next_ne hk hfree rfl))]
  · intro t
    have hsh := hi.share t
    cases t with
    | producer => simpa [pending, RingHistory.add, RingHistory.share] using hsh
    | consumer => simpa [pending, ClaimPc.pending, RingHistory.add, RingHistory.share, hdata'] using hsh

/-- It releases the cell. -/
theorem popRelease {out : α} (hk : k ≤ 63) (hi : RingInv k ⟨r, p, .pop (.release pos out)⟩ h gp gc) :
    RingInv k ⟨r.setSequence pos (pos + r.capacity), p, .idle⟩ h gp gc := by
  obtain ⟨rfl, -⟩ := hi.consumer
  have hheld : holding p (.pop (.release (word gc) out)) gp gc .consumer = some gc := rfl
  have hcells := hi.cells.release (by omega) hheld
  have hupd : Function.update (holding p (.pop (.release (word gc) out)) gp gc) .consumer none = holding p .idle gp gc := by
    funext t
    cases t <;> rfl
  rw [hupd] at hcells
  have hseq : word gc + r.capacity = word (gc + 2 ^ k) := by
    rw [hi.capacity]
    exact (BitVec.ofNat_add gc (2 ^ k)).symm
  refine ⟨hi.capacity, hi.mask, hi.head, ?_, ?_, trivial, hi.share, hi.dropped, hi.counted⟩
  · rw [hseq, setSequence_cells hi.mask (by omega)]
    exact hcells
  · rw [setSequence_cells hi.mask (by omega)]
    exact hi.producer.frame (fun i _ => update_sequence_data _ _ _ _) (fun _ _ => update_sequence_data _ _ _ _)
      (fun _ hh => by cases hh)

end Consumer

/-! ## Every step -/

/-- A step of `push` keeps the invariant. -/
theorem producer_step (hk1 : 1 ≤ k) (hk : k ≤ 63) {p p' : ProducerPc α} {c : ConsumerPc α} {r' : SpscRingBuffer α}
    {out : List (RingEvent α)} {spurious : Bool} (hi : RingInv k ⟨r, p, c⟩ h gp gc)
    (hs : ProducerTook moved spurious r p r' p' out) :
    ∃ gp', RingInv k ⟨r', p', c⟩ (out.foldl RingHistory.add h) gp' gc := by
  cases hs with
  | loadTail => exact ⟨gp, hi.loadTail⟩
  | vacated hs => exact ⟨gp, hi.checkVacated hk1 hk hs⟩
  | full hs => exact ⟨gp, hi.checkFull hk hs⟩
  | claiming hc =>
    cases hc with
    | loadHead => exact ⟨_, hi.reclaimLoadHead rfl⟩
    | seen hs => exact ⟨gp, hi.reclaimSeen hk1 hk hs⟩
    | stale => exact ⟨gp, hi.reclaimStale⟩
    | claimed hx => exact ⟨gp, hi.reclaimClaim hk hx⟩
    | failed => exact ⟨_, hi.reclaimLoadHead rfl⟩
    | movedOut => exact ⟨gp, hi.reclaimMove moved hk⟩
  | nothing hc =>
    cases hc with
    | empty => exact ⟨gp, hi.reclaimEmpty⟩
  | reclaimed hc =>
    cases hc with
    | released => exact ⟨gp, hi.reclaimRelease hk⟩
  | countDrop => exact ⟨gp, hi.countDrop⟩
  | write => exact ⟨gp, hi.write hk⟩
  | publish => exact ⟨gp, hi.publish hk⟩
  | storeTail => exact ⟨gp, hi.storeTail⟩

/-- A step of `pop` keeps the invariant. -/
theorem consumer_step (hk1 : 1 ≤ k) (hk : k ≤ 63) {p : ProducerPc α} {c c' : ConsumerPc α} {r' : SpscRingBuffer α}
    {out : List (RingEvent α)} {spurious : Bool} (hi : RingInv k ⟨r, p, c⟩ h gp gc)
    (hs : ConsumerTook moved spurious r c r' c' out) :
    ∃ gc', RingInv k ⟨r', p, c'⟩ (out.foldl RingHistory.add h) gp gc' := by
  cases hs with
  | claiming hc =>
    cases hc with
    | loadHead => exact ⟨_, hi.popLoadHead rfl⟩
    | seen hs => exact hi.popSeen hk1 hk hs
    | stale => exact ⟨gc, hi.popStale⟩
    | claimed hx => exact ⟨_, hi.popClaim hk1 hx⟩
    | failed => exact ⟨_, hi.popLoadHead rfl⟩
    | movedOut => exact ⟨gc, hi.popMove moved hk⟩
  | returned hc =>
    cases hc with
    | empty => exact ⟨gc, hi.popEmpty⟩
    | released => exact ⟨gc, hi.popRelease hk⟩

/-- Every step keeps the invariant. -/
theorem step (hk1 : 1 ≤ k) (hk : k ≤ 63) {s s' : RingState α} {a : RingAction α} {out : List (RingEvent α)}
    (hi : RingInv k s h gp gc) (hs : s.step moved a = some (s', out)) :
    ∃ gp' gc', RingInv k s' (out.foldl RingHistory.add h) gp' gc' := by
  cases RingState.step_took hs with
  | push => exact ⟨gp, gc, hi.pushCall⟩
  | pop => exact ⟨gp, gc, hi.popCall⟩
  | producer hp =>
    obtain ⟨gp', hi'⟩ := hi.producer_step hk1 hk hp
    exact ⟨gp', gc, hi'⟩
  | consumer hc => exact ⟨gp, hi.consumer_step hk1 hk hc⟩

/-- A new buffer. -/
theorem init (d : α) :
    RingInv k ⟨⟨word (2 ^ k), word (2 ^ k) - 1, fun i => ⟨i, d⟩, 0, 0, 0⟩, .idle, .idle⟩ (RingHistory.ofLog []) 0 0 where
  capacity := rfl
  mask := by
    have hpos := Nat.two_pow_pos k
    obtain ⟨n, hn⟩ : ∃ n, 2 ^ k = n + 1 := ⟨2 ^ k - 1, by omega⟩
    simp only [hn, Nat.add_sub_cancel]
    exact (congrArg (· - 1) ofNat_succ.symm).trans (BitVec.add_sub_cancel _ _)
  head := rfl
  cells := by
    have hheld : holding (.idle : ProducerPc α) .idle 0 0 = fun _ => none := by
      funext t
      cases t <;> rfl
    rw [hheld]
    exact CellsOk.init d
  producer := rfl
  consumer := trivial
  share := fun t => by cases t <;> rfl
  dropped := rfl
  counted := rfl

end RingInv

/-! ## Every run -/

/-- The constructor accepts the powers of two from `2` to `2 ^ 63`, and no other capacity. -/
theorem make_ok_iff [Inhabited α] {capacity : Word} :
    (∃ r : SpscRingBuffer α, SpscRingBuffer.make capacity = .ok r) ↔ ∃ k, 1 ≤ k ∧ k ≤ 63 ∧ capacity = word (2 ^ k) := by
  have hlt := capacity.isLt
  have h2 : capacity < 2 ↔ capacity.toNat < 2 := BitVec.lt_def
  simp only [SpscRingBuffer.make]
  constructor
  · rintro ⟨r, hr⟩
    split at hr
    · cases hr
    · rename_i hc
      rw [not_or, not_not, h2] at hc
      obtain ⟨hge, hand⟩ := hc
      have hne : capacity ≠ 0 := fun h0 => hge (by rw [h0]; decide)
      obtain ⟨k, hk⟩ := (and_sub_one_eq_zero_iff hne).1 hand
      have hk1 : k ≠ 0 := fun h0 => by rw [h0] at hk; omega
      have hk64 : k < 64 := (Nat.pow_lt_pow_iff_right (by omega)).1 (hk ▸ hlt)
      refine ⟨k, by omega, by omega, BitVec.eq_of_toNat_eq ?_⟩
      rw [BitVec.toNat_ofNat, ← hk, Nat.mod_eq_of_lt hlt]
  · rintro ⟨k, hk1, hk, hc⟩
    have h21 : 2 ^ 1 ≤ 2 ^ k := Nat.pow_le_pow_right (by omega) hk1
    have h263 : 2 ^ k ≤ 2 ^ 63 := Nat.pow_le_pow_right (by omega) hk
    have hn : capacity.toNat = 2 ^ k := by rw [hc, BitVec.toNat_ofNat, Nat.mod_eq_of_lt (by omega)]
    have hne : capacity ≠ 0 := fun h0 => by rw [h0, show (0 : Word).toNat = 0 from rfl] at hn; omega
    have hand := (and_sub_one_eq_zero_iff hne).2 ⟨k, hn⟩
    rw [if_neg (by rw [not_or, not_not, h2]; exact ⟨by omega, hand⟩)]
    exact ⟨_, rfl⟩

/-- The invariant holds along every run. -/
theorem ring_invariant [Inhabited α] {capacity : Word} {s : RingState α} {log : List (RingEvent α)}
    (hr : (ringMachine moved capacity).Run s log) :
    ∃ k gp gc, 1 ≤ k ∧ k ≤ 63 ∧ capacity = word (2 ^ k) ∧ RingInv k s (.ofLog log) gp gc := by
  refine hr.invariant (I := fun s log => ∃ k gp gc, 1 ≤ k ∧ k ≤ 63 ∧ capacity = word (2 ^ k) ∧
    RingInv k s (.ofLog log) gp gc) ?_ ?_
  · rintro s ⟨r, hr, rfl⟩
    obtain ⟨k, hk1, hk, rfl⟩ := make_ok_iff.1 ⟨r, hr⟩
    refine ⟨k, 0, 0, hk1, hk, rfl, ?_⟩
    simp only [SpscRingBuffer.make] at hr
    split at hr
    · cases hr
    · cases hr
      exact RingInv.init default
  · rintro s log a s' out ⟨k, gp, gc, hk1, hk, rfl, hi⟩ - hs
    obtain ⟨gp', gc', hi'⟩ := hi.step hk1 hk hs
    exact ⟨k, gp', gc', hk1, hk, rfl, by rw [RingHistory.ofLog_append]; exact hi'⟩

end TradeSurveillance
