import TradeSurveillance.Lemmas.RingStep

/-!
# The backpressure of the ring

What `push` discards from a full buffer, and from one that only looks full: a consumer paused between its compare-exchange and its
sequence store keeps the cell it claimed from being vacated, and `push`, which reads that cell alone, takes the buffer for full.
`drops_only_when_full_iff`: reclaims discard from a full buffer, one element for a call of `push`, exactly when the consumer
disturbed no reclaim.
-/

namespace TradeSurveillance

open Counter

variable {α : Type}

/-- The position of the cell a call of `try_claim_front` has claimed and not released. -/
def ClaimPc.claimedPos : ClaimPc α → Option Word
  | .moveOut pos | .release pos _ => some pos
  | _ => none

/-- The position of the cell `pop` has claimed and not released. -/
def ConsumerPc.claimedPos : ConsumerPc α → Option Word
  | .pop claim => claim.claimedPos
  | .idle => none

/-- The consumer holds no element that keeps the next cell of the producer from being vacated, and there is room. -/
def Vacant (k : ℕ) (c : ConsumerPc α) (L H : ℕ) : Prop :=
  L < H + 2 ^ k ∧ ∀ pos, c.claimedPos = some pos → pos + word (2 ^ k) ≠ word L

section Vacant

variable {k gp gc : ℕ} {r : SpscRingBuffer α} {p : ProducerPc α} {c : ConsumerPc α} {h : RingHistory α}

/-- The claimed position is that of the held index. -/
theorem claimedPos_eq (hi : RingInv k ⟨r, p, c⟩ h gp gc) : c.claimedPos = (c.holding gc).map word := by
  cases c with
  | idle => rfl
  | pop claim => cases claim <;> first | exact congrArg some hi.consumer.1 | rfl

theorem vacant_iff (hk : k ≤ 63) (hi : RingInv k ⟨r, p, c⟩ h gp gc) :
    Vacant k c h.published.length h.claims.length ↔
      h.published.length < h.claims.length + 2 ^ k ∧ ∀ i, c.holding gc = some i → i + 2 ^ k ≠ h.published.length := by
  rw [Vacant, claimedPos_eq hi]
  refine and_congr_right fun hlt => ⟨fun hv i hc hL => ?_, fun hv pos hc => ?_⟩
  · refine hv (word i) (by rw [hc]; rfl) ?_
    rw [← hL]
    exact (BitVec.ofNat_add i (2 ^ k)).symm
  · rw [Option.map_eq_some_iff] at hc
    obtain ⟨i, hc, rfl⟩ := hc
    intro hw
    rw [← BitVec.ofNat_add] at hw
    have h1 := hi.cells.held_lt .consumer i hc
    have h2 := hi.cells.held_room .consumer i hc
    have h3 := hi.cells.claimed_le
    have := word_inj hk hw (by omega) (by omega)
    exact hv i hc this

/-- `push` finds the cell of its position vacated exactly when it is vacant. -/
theorem sequence_eq_iff_vacant {l : PushLocals α} (hk1 : 1 ≤ k) (hk : k ≤ 63) (hi : RingInv k ⟨r, .check l, c⟩ h gp gc) :
    (r.cell l.pos).sequence = l.pos ↔ Vacant k c h.published.length h.claims.length := by
  rw [vacant_iff hk hi]
  refine ⟨hi.vacated_of_sequence hk1 hk, fun ⟨hlt, hv⟩ => ?_⟩
  by_contra hs
  have := hi.full_of_sequence hk hs hv
  omega

/-- When the buffer is full the consumer holds no cell. -/
theorem claimedPos_of_full (hi : RingInv k ⟨r, p, c⟩ h gp gc) (hfull : h.published.length = h.claims.length + 2 ^ k) :
    c.claimedPos = none := by
  rw [claimedPos_eq hi]
  cases hc : c.holding gc with
  | none => rfl
  | some i =>
    have h1 := hi.cells.held_lt .consumer i hc
    have h2 := hi.cells.held_room .consumer i hc
    omega

end Vacant

/-! ## What a log says about discards -/

/-- An element a reclaim claimed: how many elements were published and unclaimed then, and whether the consumer disturbed the
reclaim, that is, was between its compare-exchange and its sequence store when `push` found the cell not vacated, or claimed an
element after that. -/
structure Reclaimed where
  occupancy : ℕ
  disturbed : Bool

/-- What a run has discarded: `popping` says that the consumer is between its claim and its return, `disturbed` is that of the
reclaim under way, and `discards` counts for each call of `push` the elements it claimed, the latest call first. -/
structure DiscardAudit where
  published : ℕ
  claims : ℕ
  popping : Bool
  disturbed : Bool
  reclaims : List Reclaimed
  discards : List ℕ

namespace DiscardAudit

/-- One more event. -/
def add (a : DiscardAudit) : RingEvent α → DiscardAudit
  | .pushCalled _ => { a with discards := 0 :: a.discards }
  | .full => { a with disturbed := a.popping }
  | .published _ => { a with published := a.published + 1 }
  | .claimed .consumer => { a with claims := a.claims + 1, popping := true, disturbed := true }
  | .claimed .producer =>
    { a with
      claims := a.claims + 1
      reclaims := ⟨a.published - a.claims, a.disturbed⟩ :: a.reclaims
      discards := a.discards.modifyHead (· + 1) }
  | .popReturned _ => { a with popping := false }
  | _ => a

/-- The audit of a log. -/
def ofLog (log : List (RingEvent α)) : DiscardAudit := log.foldl add ⟨0, 0, false, false, [], []⟩

@[simp] theorem ofLog_append (log out : List (RingEvent α)) : ofLog (log ++ out) = out.foldl add (ofLog log) := by
  simp [ofLog, List.foldl_append]

/-- No reclaim was disturbed. -/
def Undisturbed (a : DiscardAudit) : Prop := ∀ e ∈ a.reclaims, e.disturbed = false

/-- Every reclaim discarded from a full buffer, and every call of `push` discarded one element at most. -/
def DropsOnlyWhenFull (capacity : Word) (a : DiscardAudit) : Prop :=
  (∀ e ∈ a.reclaims, e.occupancy = capacity.toNat) ∧ ∀ n ∈ a.discards, n ≤ 1

end DiscardAudit

/-- What the call of `push` under way has discarded, where no reclaim was disturbed: before a claim nothing, and after one the
next check finds the cell vacated. -/
def ProducerPc.discardsOk (vacant : Prop) (n : ℕ) : ProducerPc α → Prop
  | .loadTail _ => n = 0
  | .check _ | .countDrop _ => n = 0 ∨ vacant
  | .reclaim _ claim => if claim.unclaimed then n = 0 else vacant
  | _ => True

theorem ProducerPc.discardsOk_mono {vacant vacant' : Prop} {n : ℕ} (p : ProducerPc α) (hv : vacant → vacant')
    (hd : p.discardsOk vacant n) : p.discardsOk vacant' n := by
  cases p with
  | check l => exact hd.imp_right hv
  | countDrop l => exact hd.imp_right hv
  | reclaim l claim => cases claim <;> first | exact hd | exact hv hd
  | _ => exact hd

/-- The audit agrees with the state. -/
structure AuditOk (k : ℕ) (s : RingState α) (h : RingHistory α) (a : DiscardAudit) : Prop where
  published : a.published = h.published.length
  claims : a.claims = h.claims.length
  popping : a.popping = s.consumer.claimedPos.isSome
  claiming : s.producer.claiming = true → (a.disturbed = false ↔ h.published.length = h.claims.length + 2 ^ k)
  reclaims : ∀ e ∈ a.reclaims, e.disturbed = false ↔ e.occupancy = 2 ^ k
  discards : a.Undisturbed → (∀ n ∈ a.discards, n ≤ 1) ∧
    s.producer.discardsOk (Vacant k s.consumer h.published.length h.claims.length) (a.discards.headD 0)

namespace AuditOk

variable {moved : α → α} {k gp gc : ℕ} {r r' : SpscRingBuffer α} {p p' : ProducerPc α} {c c' : ConsumerPc α}
  {h : RingHistory α} {a : DiscardAudit} {spurious : Bool} {out : List (RingEvent α)}

/-- A step of the producer that emits nothing and stays before or in a reclaim that has claimed nothing. -/
theorem silent (ha : AuditOk k ⟨r, p, c⟩ h a) (hclaiming : p'.claiming = true → p.claiming = true)
    (hd : ∀ P n, p.discardsOk P n → p'.discardsOk P n) : AuditOk k ⟨r', p', c⟩ h a :=
  ⟨ha.published, ha.claims, ha.popping, fun hc => ha.claiming (hclaiming hc), ha.reclaims,
    fun hu => ⟨(ha.discards hu).1, hd _ _ (ha.discards hu).2⟩⟩

/-- A claim by the producer. If nothing disturbed it the buffer was full, and the next check finds the cell vacated. -/
theorem reclaimClaim {l : PushLocals α} {pos : Word} (hk : k ≤ 63) (hi : RingInv k ⟨r, .reclaim l (.exchange pos), c⟩ h gp gc)
    (ha : AuditOk k ⟨r, .reclaim l (.exchange pos), c⟩ h a) (hx : r.head = pos) :
    AuditOk k ⟨r', .reclaim l (.moveOut pos), c⟩ (h.add (.claimed .producer)) (a.add (.claimed (α := α) .producer)) := by
  obtain ⟨-, hlt⟩ := hi.reclaim_front hk hx
  have hclaiming := ha.claiming rfl
  have hp := ha.published
  have hc := ha.claims
  refine ⟨hp, ?_, ha.popping, (fun hc => by cases hc), ?_, fun hu => ⟨?_, ?_⟩⟩
  · simp [DiscardAudit.add, RingHistory.add, hc]
  · intro e he
    rcases List.mem_cons.1 he with rfl | he
    · simp only [hclaiming]
      omega
    · exact ha.reclaims e he
  · have hu' : a.Undisturbed := fun e he => hu e (List.mem_cons_of_mem _ he)
    obtain ⟨hle, hhead⟩ := ha.discards hu'
    have hhead : a.discards.headD 0 = 0 := hhead
    intro n hn
    simp only [DiscardAudit.add] at hn
    cases hd : a.discards with
    | nil => rw [hd] at hn; cases hn
    | cons m ms =>
      rw [hd, List.headD_cons] at hhead
      rw [hd, List.modifyHead_cons] at hn
      rcases List.mem_cons.1 hn with rfl | hn
      · omega
      · exact hle n (by rw [hd]; exact List.mem_cons_of_mem _ hn)
  · have hfull := hclaiming.1 (hu _ (List.mem_cons_self))
    refine ⟨?_, fun pos hpos => ?_⟩
    · simp only [RingHistory.add, List.length_append, List.length_singleton]
      omega
    · rw [claimedPos_of_full hi hfull] at hpos
      cases hpos

theorem producer_step (hk1 : 1 ≤ k) (hk : k ≤ 63) (hi : RingInv k ⟨r, p, c⟩ h gp gc) (ha : AuditOk k ⟨r, p, c⟩ h a)
    (hs : ProducerTook moved spurious r p r' p' out) :
    AuditOk k ⟨r', p', c⟩ (out.foldl RingHistory.add h) (out.foldl DiscardAudit.add a) := by
  cases hs with
  | loadTail => exact ha.silent (fun hc => by cases hc) (fun _ _ hd => Or.inl hd)
  | vacated => exact ha.silent (fun hc => by cases hc) (fun _ _ _ => trivial)
  | full hne =>
    have hnv := fun hv => hne ((sequence_eq_iff_vacant hk1 hk hi).2 hv)
    refine ⟨ha.published, ha.claims, ha.popping, fun _ => ?_, ha.reclaims, fun hu => ⟨(ha.discards hu).1, ?_⟩⟩
    · -- the cell is not vacated: the buffer is full, or the consumer holds it
      have hpop : a.popping = c.claimedPos.isSome := ha.popping
      simp only [List.foldl_cons, List.foldl_nil, DiscardAudit.add, RingHistory.add, hpop]
      constructor
      · intro hn
        rw [Option.isSome_eq_false_iff, Option.isNone_iff_eq_none] at hn
        by_contra hfull
        have hroom := hi.cells.room
        exact hnv ⟨by omega, fun pos hp => by rw [hn] at hp; cases hp⟩
      · intro hfull
        rw [claimedPos_of_full hi hfull]
        rfl
    · rcases (ha.discards hu).2 with h0 | hv
      · exact h0
      · exact (hnv hv).elim
  | claiming hc =>
    cases hc with
    | claimed hx => exact ha.reclaimClaim hk hi hx
    | movedOut => exact ⟨ha.published, ha.claims, ha.popping, (fun hc => by cases hc), ha.reclaims, ha.discards⟩
    | _ => exact ha.silent (fun _ => rfl) (fun _ _ hd => hd)
  | nothing hc =>
    cases hc with
    | empty => exact ha.silent (fun hc => by cases hc) (fun _ _ hd => Or.inl hd)
  | reclaimed hc =>
    cases hc with
    | released => exact ha.silent (fun hc => by cases hc) (fun _ _ hd => Or.inr hd)
  | countDrop => exact ⟨ha.published, ha.claims, ha.popping, (fun hc => by cases hc), ha.reclaims, ha.discards⟩
  | write => exact ha.silent (fun hc => by cases hc) (fun _ _ _ => trivial)
  | publish =>
    refine ⟨?_, ha.claims, ha.popping, (fun hc => by cases hc), ha.reclaims, fun hu => ⟨(ha.discards hu).1, trivial⟩⟩
    simpa [DiscardAudit.add, RingHistory.add] using ha.published
  | storeTail =>
    exact ⟨ha.published, ha.claims, ha.popping, (fun hc => by cases hc), ha.reclaims,
      fun hu => ⟨(ha.discards hu).1, trivial⟩⟩

/-- A claim by the consumer. -/
theorem popClaim {pos : Word} (hk : k ≤ 63) (hi : RingInv k ⟨r, p, .pop (.exchange pos)⟩ h gp gc)
    (ha : AuditOk k ⟨r, p, .pop (.exchange pos)⟩ h a) (hx : r.head = pos) :
    AuditOk k ⟨r', p, .pop (.moveOut pos)⟩ (h.add (.claimed .consumer)) (a.add (.claimed (α := α) .consumer)) := by
  have hroom := hi.cells.room
  have hcl := hi.cells.claimed_le
  have hlen : (h.add (.claimed .consumer)).claims.length = h.claims.length + 1 := by simp [RingHistory.add]
  refine ⟨ha.published, ?_, rfl, fun _ => ?_, ha.reclaims, fun hu => ⟨(ha.discards hu).1, ?_⟩⟩
  · rw [hlen, ← ha.claims]
    rfl
  · rw [hlen]
    simp only [DiscardAudit.add, RingHistory.add]
    exact ⟨(fun hf => by cases hf), fun hL => by omega⟩
  · have hv : Vacant k (.pop (.exchange pos) : ConsumerPc α) h.published.length h.claims.length →
        Vacant k (.pop (.moveOut pos) : ConsumerPc α) h.published.length (h.claims.length + 1) := by
      rintro ⟨hlt, -⟩
      refine ⟨by omega, ?_⟩
      intro q hq hw
      cases hq
      have hhead := hi.head
      simp only at hhead
      rw [← hx, hhead, ← BitVec.ofNat_add] at hw
      have := word_inj hk hw (by omega) (by omega)
      omega
    rw [hlen]
    exact p.discardsOk_mono hv (ha.discards hu).2

/-- A step of the consumer that emits nothing and claims nothing. -/
theorem quiet (ha : AuditOk k ⟨r, p, c⟩ h a) (hc : c'.claimedPos = c.claimedPos) : AuditOk k ⟨r', p, c'⟩ h a := by
  refine ⟨ha.published, ha.claims, ?_, ha.claiming, ha.reclaims, fun hu => ?_⟩
  · simp only [hc]
    exact ha.popping
  · simp only [Vacant, hc]
    exact ha.discards hu

/-- A return of `pop`. -/
theorem popReturn (x : Option α) (ha : AuditOk k ⟨r, p, c⟩ h a) :
    AuditOk k ⟨r', p, .idle⟩ h (a.add (.popReturned x)) := by
  refine ⟨ha.published, ha.claims, rfl, ha.claiming, ha.reclaims, fun hu => ⟨(ha.discards hu).1, ?_⟩⟩
  have hv : Vacant k c h.published.length h.claims.length →
      Vacant k (.idle : ConsumerPc α) h.published.length h.claims.length :=
    fun hv => ⟨hv.1, fun pos hp => by cases hp⟩
  exact p.discardsOk_mono hv (ha.discards hu).2

theorem consumer_step (hk : k ≤ 63) (hi : RingInv k ⟨r, p, c⟩ h gp gc) (ha : AuditOk k ⟨r, p, c⟩ h a)
    (hs : ConsumerTook moved spurious r c r' c' out) :
    AuditOk k ⟨r', p, c'⟩ (out.foldl RingHistory.add h) (out.foldl DiscardAudit.add a) := by
  cases hs with
  | claiming hc =>
    cases hc with
    | claimed hx => exact ha.popClaim hk hi hx
    | movedOut => exact ⟨ha.published, ha.claims, ha.popping, ha.claiming, ha.reclaims, ha.discards⟩
    | _ => exact ha.quiet rfl
  | returned hc =>
    cases hc with
    | empty => exact ha.popReturn none
    | @released pos x => exact ha.popReturn (some x)

/-- Every step keeps the audit in agreement with the state. -/
theorem step (hk1 : 1 ≤ k) (hk : k ≤ 63) {s s' : RingState α} {x : RingAction α} (hi : RingInv k s h gp gc)
    (ha : AuditOk k s h a) (hs : s.step moved x = some (s', out)) :
    AuditOk k s' (out.foldl RingHistory.add h) (out.foldl DiscardAudit.add a) := by
  cases RingState.step_took hs with
  | push =>
    refine ⟨ha.published, ha.claims, ha.popping, (fun hc => by cases hc), ha.reclaims, fun hu => ⟨fun n hn => ?_, rfl⟩⟩
    rcases List.mem_cons.1 hn with rfl | hn
    · exact Nat.zero_le 1
    · exact (ha.discards hu).1 n hn
  | pop => exact ha.quiet rfl
  | producer hp => exact ha.producer_step hk1 hk hi hp
  | consumer hc => exact ha.consumer_step hk hi hc

end AuditOk

section DropsOnlyWhenFull

variable [Inhabited α] {moved : α → α} {capacity : Word} {s : RingState α} {log : List (RingEvent α)}

/-- The audit agrees with the state along every run. -/
theorem audit_ok (hr : (ringMachine moved capacity).Run s log) :
    ∃ k gp gc, 1 ≤ k ∧ k ≤ 63 ∧ capacity = word (2 ^ k) ∧ RingInv k s (.ofLog log) gp gc ∧
      AuditOk k s (.ofLog log) (.ofLog log) := by
  refine hr.invariant (I := fun s log => ∃ k gp gc, 1 ≤ k ∧ k ≤ 63 ∧ capacity = word (2 ^ k) ∧
    RingInv k s (.ofLog log) gp gc ∧ AuditOk k s (.ofLog log) (.ofLog log)) ?_ ?_
  · intro s hs
    obtain ⟨k, gp, gc, hk1, hk, hcap, hi⟩ := ring_invariant (Machine.Reach.init hs)
    obtain ⟨r, -, rfl⟩ := hs
    exact ⟨k, gp, gc, hk1, hk, hcap, hi, rfl, rfl, rfl, nofun, nofun, fun _ => ⟨nofun, trivial⟩⟩
  · rintro s log a s' out ⟨k, gp, gc, hk1, hk, hcap, hi, ha⟩ - hs
    obtain ⟨gp', gc', hi'⟩ := hi.step hk1 hk hs
    refine ⟨k, gp', gc', hk1, hk, hcap, ?_, ?_⟩
    · rw [RingHistory.ofLog_append]
      exact hi'
    · rw [RingHistory.ofLog_append, DiscardAudit.ofLog_append]
      exact ha.step hk1 hk hi hs

/-- Along every run: each reclaim discards from a full buffer, and each call of `push` one element at most, exactly when the
consumer disturbed none of the reclaims. -/
theorem drops_only_when_full_iff (hr : (ringMachine moved capacity).Run s log) :
    (DiscardAudit.ofLog log).DropsOnlyWhenFull capacity ↔ (DiscardAudit.ofLog log).Undisturbed := by
  obtain ⟨k, gp, gc, hk1, hk, rfl, -, ha⟩ := audit_ok hr
  have h63 : 2 ^ k ≤ 2 ^ 63 := Nat.pow_le_pow_right (by omega) hk
  have hcap : (word (2 ^ k)).toNat = 2 ^ k := by rw [BitVec.toNat_ofNat, Nat.mod_eq_of_lt (by omega)]
  rw [DiscardAudit.DropsOnlyWhenFull, hcap]
  constructor
  · exact fun hd e he => (ha.reclaims e he).2 (hd.1 e he)
  · exact fun hu => ⟨fun e he => (ha.reclaims e he).1 (hu e he), (ha.discards hu).1⟩

/-- A full buffer of two cells, alone: one element is discarded, from a full buffer. -/
theorem drops_only_when_full_alone : ∃ s log, (ringMachine (α := ℕ) id 2).Run s log ∧
    (DiscardAudit.ofLog log).discards = [1, 0, 0] ∧
    ((DiscardAudit.ofLog log).DropsOnlyWhenFull 2 ↔ (DiscardAudit.ofLog log).Undisturbed) := by
  obtain ⟨s, log, hr, hp⟩ := Machine.run_of_exec (M := ringMachine (α := ℕ) id 2) ⟨_, rfl, rfl⟩
    (.push 0 :: List.replicate 5 (.producer false) ++ .push 1 :: List.replicate 5 (.producer false) ++
      .push 2 :: List.replicate 12 (.producer false))
    (p := fun q => decide ((DiscardAudit.ofLog q.2).discards = [1, 0, 0])) (by decide)
  exact ⟨s, log, hr, of_decide_eq_true hp, drops_only_when_full_iff hr⟩

/-- Two elements in a buffer of two cells; `pop` claims the first and pauses before it moves it out; the third `push` then discards
the second, though one element only is published and unclaimed. -/
theorem drop_below_capacity : ∃ s log, (ringMachine (α := ℕ) id 2).Run s log ∧
    ¬(DiscardAudit.ofLog log).DropsOnlyWhenFull 2 := by
  obtain ⟨s, log, hr, hp⟩ := Machine.run_of_exec (M := ringMachine (α := ℕ) id 2) ⟨_, rfl, rfl⟩
    (.push 0 :: List.replicate 5 (.producer false) ++ .push 1 :: List.replicate 5 (.producer false) ++
      .pop :: List.replicate 3 (.consumer false) ++ .push 2 :: List.replicate 6 (.producer false))
    (p := fun q => decide (∃ e ∈ (DiscardAudit.ofLog q.2).reclaims, e.occupancy = 1)) (by decide)
  obtain ⟨e, he, hocc⟩ := of_decide_eq_true hp
  refine ⟨s, log, hr, ?_⟩
  intro hd
  have := hd.1 e he
  rw [hocc] at this
  exact absurd this (by decide)

end DropsOnlyWhenFull

end TradeSurveillance
