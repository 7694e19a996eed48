import TradeSurveillance.Lemmas.RingHistory
import TradeSurveillance.Theorems.RingBackpressure

/-!
# A ring with room for everything

As long as no more elements were pushed than the buffer has cells, `push` finds the cell of its position vacated: nothing is discarded,
`pop` returns the elements in push order, and a call of `push` returns after five steps of its own thread, wherever the consumer stands.
-/

namespace TradeSurveillance

open Counter

variable {α : Type} {moved : α → α}

theorem toNat_ofNat_pow {k : ℕ} (hk : k ≤ 63) : (BitVec.ofNat 64 (2 ^ k)).toNat = 2 ^ k := by
  rw [BitVec.toNat_ofNat, Nat.mod_eq_of_lt (Nat.pow_lt_pow_right (by omega) (by omega))]

/-- A call of `push` that has discarded nothing and is about to discard nothing. -/
def ProducerPc.Undropping : ProducerPc α → Prop
  | .idle | .loadTail _ => True
  | .check l | .write l | .publish l | .storeTail l => l.dropped = false
  | .reclaim _ _ | .countDrop _ => False

/-- The steps its thread still takes in a call of `push` that discards nothing. -/
def ProducerPc.stepsLeft : ProducerPc α → ℕ
  | .loadTail _ => 5
  | .check _ => 4
  | .write _ => 3
  | .publish _ => 2
  | .storeTail _ => 1
  | _ => 0

/-- A run that has discarded nothing and whose producer is about to discard nothing. -/
structure Undropped (s : RingState α) (log : List (RingEvent α)) : Prop where
  producer : s.producer.Undropping
  claims : (RingHistory.ofLog log).claims.count .producer = 0
  returned : .pushReturned false ∉ log

/-- Every cell of the producer's position is vacant while fewer elements were published than there are cells. -/
theorem vacant_of_fits {k gp gc : ℕ} {r : SpscRingBuffer α} {l : PushLocals α} {c : ConsumerPc α} {h : RingHistory α} (hk1 : 1 ≤ k)
    (hk : k ≤ 63) (hi : RingInv k ⟨r, .check l, c⟩ h gp gc) (hfit : h.published.length < 2 ^ k) :
    (r.cell l.pos).sequence = l.pos := by
  rw [sequence_eq_iff_vacant hk1 hk hi, vacant_iff hk hi]
  exact ⟨by omega, fun i _ => by omega⟩

/-- A step of `try_claim_front` in the consumer claims for the consumer. -/
theorem ClaimTook.claims {spurious : Bool} {r r' : SpscRingBuffer α} {claim : ClaimPc α} {next : ClaimNext α} {out : List (RingEvent α)}
    (hc : ClaimTook moved .consumer spurious r claim r' next out) (h : RingHistory α) :
    (out.foldl RingHistory.add h).claims.count .producer = h.claims.count .producer ∧ .pushReturned false ∉ out := by
  cases hc with
  | claimed => exact ⟨by simp [RingHistory.add], by simp⟩
  | _ => exact ⟨rfl, by simp⟩

section Run

variable [Inhabited α] {capacity : Word} {s : RingState α} {log : List (RingEvent α)}

/-- In `check` the element of the call is pushed and not published. -/
theorem published_lt_of_check {r : SpscRingBuffer α} {l : PushLocals α} {c : ConsumerPc α}
    (hr : (ringMachine moved capacity).Run ⟨r, .check l, c⟩ log) :
    (RingHistory.ofLog log).published.length < (pushed log).length := by
  rw [pushed_eq hr, List.length_append]
  simp [ProducerPc.item]

theorem Undropped.step {s' : RingState α} {a : RingAction α} {out : List (RingEvent α)} (hr : (ringMachine moved capacity).Run s log)
    (hfit : (pushed log).length ≤ capacity.toNat) (hi : Undropped s log) (hs : s.step moved a = some (s', out)) :
    Undropped s' (log ++ out) := by
  obtain ⟨hp, hclaims, hret⟩ := hi
  cases RingState.step_took hs with
  | push =>
    exact ⟨trivial, by simpa [RingHistory.add] using hclaims, by simp [hret]⟩
  | pop => exact ⟨hp, by simpa [RingHistory.add] using hclaims, by simp [hret]⟩
  | consumer hc =>
    cases hc with
    | claiming hc =>
      obtain ⟨h1, h2⟩ := hc.claims (.ofLog log)
      exact ⟨hp, by rw [RingHistory.ofLog_append, h1, hclaims], by simp [hret, h2]⟩
    | returned hc =>
      obtain ⟨h1, h2⟩ := hc.claims (.ofLog log)
      refine ⟨hp, ?_, by simp [hret, h2]⟩
      rw [RingHistory.ofLog_append, List.foldl_append]
      exact h1.trans hclaims
  | producer htook =>
    cases htook with
    | loadTail => exact ⟨rfl, by simpa using hclaims, by simp [hret]⟩
    | vacated => exact ⟨hp, by simpa using hclaims, by simp [hret]⟩
    | @full l hfull =>
      -- the buffer is not full, so the cell was vacated
      obtain ⟨k, gp, gc, hk1, hk, hcap, hinv⟩ := ring_invariant hr
      have hlt := published_lt_of_check hr
      have hcapacity : capacity.toNat = 2 ^ k := by rw [hcap, toNat_ofNat_pow hk]
      exact absurd (vacant_of_fits hk1 hk hinv (by omega)) hfull
    | claiming => exact hp.elim
    | nothing => exact hp.elim
    | reclaimed => exact hp.elim
    | countDrop => exact hp.elim
    | write => exact ⟨hp, by simpa using hclaims, by simp [hret]⟩
    | publish => exact ⟨hp, by simpa [RingHistory.add] using hclaims, by simp [hret]⟩
    | @storeTail l =>
      have hl : l.dropped = false := hp
      exact ⟨trivial, by simpa [RingHistory.add] using hclaims, by simp [hret, hl]⟩

/-- A run in which no more elements were pushed than there are cells has discarded nothing. -/
theorem undropped_run (hr : (ringMachine moved capacity).Run s log) (hfit : (pushed log).length ≤ capacity.toNat) : Undropped s log := by
  induction hr with
  | init hs =>
    obtain ⟨r, -, rfl⟩ := hs
    exact ⟨trivial, rfl, by simp⟩
  | step hr _ hs ih =>
    rw [pushed_append, List.length_append] at hfit
    exact (ih (by omega)).step hr (by omega) hs

omit [Inhabited α] in
/-- Where only the consumer claims, its share is the front of what was published. -/
theorem share_prefix {h : RingHistory α} (hclaims : h.claims.count .producer = 0) : h.share .consumer <+: h.published := by
  have hall : ∀ p ∈ h.claims.zip h.published, decide (p.1 = Thread.consumer) = true := by
    intro p hp
    have hmem := (List.of_mem_zip hp).1
    cases hthread : p.1 with
    | consumer => rfl
    | producer => exact absurd (hthread ▸ hmem) (List.count_eq_zero.1 hclaims)
  rw [RingHistory.share, List.filter_eq_self.2 hall, map_snd_zip_take]
  exact List.take_prefix _ _

/-- What a run that discards nothing comes to. -/
structure Lossless (s : RingState α) (log : List (RingEvent α)) : Prop where
  dropped : s.ring.dropped = 0
  /-- Every call of `push` has returned true. -/
  returned : .pushReturned false ∉ log
  /-- `pop` has returned the elements in push order, none left out. -/
  fifo : popped log <+: pushed log
  /-- A call of `push` has a bounded number of steps of its own to go. -/
  waitFree : s.producer ≠ .idle → ∀ (moved : α → α) (spurious : Bool), ∃ s' out,
    s.step moved (.producer spurious) = some (s', out) ∧ s'.producer.stepsLeft + 1 = s.producer.stepsLeft

/-- A buffer to which no more elements are pushed than it has cells loses none of them, whatever the interleaving. -/
theorem lossless_of_fits (hr : (ringMachine moved capacity).Run s log) (hfit : (pushed log).length ≤ capacity.toNat) :
    Lossless s log := by
  obtain ⟨hp, hclaims, hret⟩ := undropped_run hr hfit
  obtain ⟨k, gp, gc, hk1, hk, hcap, hi⟩ := ring_invariant hr
  have hcounted : (RingHistory.ofLog log).counted = 0 := by have := hi.counted; omega
  refine ⟨by rw [hi.dropped, hcounted]; rfl, hret, ?_, fun hbusy moved spurious => ?_⟩
  · have hshare := hi.share .consumer
    have hpopped := popped_eq hr
    have hprefix := share_prefix hclaims
    rw [hshare, ← RingHistory.delivered, ← hpopped] at hprefix
    rw [pushed_eq hr]
    exact ((List.prefix_append _ _).trans ((List.prefix_append _ _).trans hprefix)).trans (List.prefix_append _ _)
  · obtain ⟨r, p, c⟩ := s
    have hcapacity : capacity.toNat = 2 ^ k := by rw [hcap, toNat_ofNat_pow hk]
    cases p with
    | idle => exact absurd rfl hbusy
    | reclaim l claim => exact hp.elim
    | countDrop l => exact hp.elim
    | check l =>
      have hlt := published_lt_of_check hr
      have hvacant := vacant_of_fits hk1 hk hi (by omega)
      exact ⟨_, _, by simp only [RingState.step, producerStep, hvacant, if_true]; rfl, rfl⟩
    | _ => exact ⟨_, _, rfl, rfl⟩

end Run

end TradeSurveillance
