import TradeSurveillance.Pipeline.ConsumerLoop
import TradeSurveillance.Theorems.RingAccounting

/-!
# Shutdown drains the buffer

The exit of `run` is decided by a `pop` that starts after the flag was seen set. By then the producer is outside `push` for good, so
the position that `pop` reads is the current `head_`, and a cell that is not published there is the end of what was pushed.
-/

namespace TradeSurveillance

open Counter

variable {α ι : Type} {σ : Type*} {moved : α → α} {processOne : σ → ι → α → σ}

/-! ## What a step of the loop does -/

/-- What a step of the loop does. -/
inductive ConsumerLoop.Took (moved : α → α) (processOne : σ → ι → α → σ) (s : ConsumerLoop α σ) :
    LoopAction α ι → ConsumerLoop α σ → List (LoopEvent α) → Prop where
  | push {item : α} {ring : RingState α} {out : List (RingEvent α)} (hf : s.flag = false)
      (hr : s.ring.step moved (.push item) = some (ring, out)) :
      Took moved processOne s (.push item) { s with ring := ring } (out.map .ring)
  | producer {spurious : Bool} {ring : RingState α} {out : List (RingEvent α)}
      (hr : s.ring.step moved (.producer spurious) = some (ring, out)) :
      Took moved processOne s (.producer spurious) { s with ring := ring } (out.map .ring)
  | setFlag (hp : s.ring.producer = .idle) : Took moved processOne s .setFlag { s with flag := true } []
  | loaded {spurious : Bool} {answer : ι} (hpc : s.pc = .loadFlag) :
      Took moved processOne s (.consumer spurious answer) { s with pc := if s.flag then .lastPop else .pop } []
  | called {spurious : Bool} {answer : ι} {ring : RingState α} {out : List (RingEvent α)}
      (hpc : s.pc = .pop ∨ s.pc = .lastPop) (hr : s.ring.step moved .pop = some (ring, out)) :
      Took moved processOne s (.consumer spurious answer) { s with ring := ring } (out.map .ring)
  | claiming {spurious : Bool} {answer : ι} {ring : RingState α} {out : List (RingEvent α)}
      (hpc : s.pc = .pop ∨ s.pc = .lastPop) (hr : s.ring.step moved (.consumer spurious) = some (ring, out))
      (hout : popResult out = none) :
      Took moved processOne s (.consumer spurious answer) { s with ring := ring } (out.map .ring)
  | nothing {spurious : Bool} {answer : ι} {ring : RingState α} {out : List (RingEvent α)}
      (hpc : s.pc = .pop ∨ s.pc = .lastPop) (hr : s.ring.step moved (.consumer spurious) = some (ring, out))
      (hout : popResult out = some none) :
      Took moved processOne s (.consumer spurious answer)
        { s with
          ring := ring
          pc := s.pc.afterNothing } (out.map .ring)
  | took {spurious : Bool} {answer : ι} {ring : RingState α} {out : List (RingEvent α)} {item : α}
      (hpc : s.pc = .pop ∨ s.pc = .lastPop) (hr : s.ring.step moved (.consumer spurious) = some (ring, out))
      (hout : popResult out = some (some item)) :
      Took moved processOne s (.consumer spurious answer)
        { s with
          ring := ring
          pc := .pop
          consumer := processOne s.consumer answer item } (out.map .ring ++ [.processed item])

namespace ConsumerLoop

variable {s s' : ConsumerLoop α σ} {a : LoopAction α ι} {out : List (LoopEvent α)}

theorem popStep_took {spurious : Bool} {answer : ι} (hpc : s.pc = .pop ∨ s.pc = .lastPop)
    (hs : s.popStep moved processOne spurious answer = some (s', out)) :
    Took moved processOne s (.consumer spurious answer) s' out := by
  unfold popStep at hs
  split at hs <;> simp only [Option.map_eq_some_iff, Prod.exists] at hs <;> obtain ⟨ring, out, hr, hs⟩ := hs
  · cases hs
    exact .called hpc hr
  · split at hs <;> rename_i hout <;> cases hs
    · exact .claiming hpc hr hout
    · exact .nothing hpc hr hout
    · exact .took hpc hr hout

theorem step_took (hs : s.step moved processOne a = some (s', out)) : Took moved processOne s a s' out := by
  cases a with
  | push item =>
    simp only [step, Option.ite_none_left_eq_some, Option.map_eq_some_iff, Prod.exists] at hs
    obtain ⟨hf, ring, out, hr, hs⟩ := hs
    cases hs
    exact .push (Bool.eq_false_of_not_eq_true hf) hr
  | producer spurious =>
    simp only [step, Option.map_eq_some_iff, Prod.exists] at hs
    obtain ⟨ring, out, hr, hs⟩ := hs
    cases hs
    exact .producer hr
  | setFlag =>
    simp only [step] at hs
    split at hs
    · rename_i hp
      cases hs
      exact .setFlag hp
    · cases hs
  | consumer spurious answer =>
    simp only [step] at hs
    cases hpc : s.pc with
    | returned => simp [hpc] at hs
    | loadFlag =>
      simp only [hpc] at hs
      cases hs
      exact .loaded hpc
    | pop => exact popStep_took (Or.inl hpc) (by simpa only [hpc] using hs)
    | lastPop => exact popStep_took (Or.inr hpc) (by simpa only [hpc] using hs)

end ConsumerLoop

/-! ## What `pop` returned in a step -/

theorem ClaimTook.popResult {t : Thread} {spurious : Bool} {r r' : SpscRingBuffer α} {claim : ClaimPc α} {next : ClaimNext α}
    {out : List (RingEvent α)} (hc : ClaimTook moved t spurious r claim r' next out) (rest : List (RingEvent α)) :
    popResult (out ++ rest) = TradeSurveillance.popResult rest := by
  cases hc <;> rfl

/-- A step of the consumer returns from `pop` what its events say. -/
theorem popResult_cases {spurious : Bool} {ring ring' : RingState α} {out : List (RingEvent α)}
    (hr : ring.step moved (.consumer spurious) = some (ring', out)) :
    (popResult out = none ∧ popped out = []) ∨ (popResult out = some none ∧ popped out = []) ∨
      ∃ item, popResult out = some (some item) ∧ popped out = [item] := by
  cases RingState.step_took hr with
  | consumer hc =>
    cases hc with
    | claiming hc =>
      have hout := hc.popResult []
      rw [List.append_nil] at hout
      exact Or.inl ⟨hout, (hc.events (.ofLog [])).2.1⟩
    | @returned _ x _ _ hc =>
      have hout := hc.popResult [.popReturned x]
      have hpop := (hc.events (.ofLog [])).2.1
      cases x with
      | none => exact Or.inr (Or.inl ⟨hout, by rw [popped_append, hpop]; rfl⟩)
      | some item => exact Or.inr (Or.inr ⟨item, hout, by rw [popped_append, hpop]; rfl⟩)

/-! ## The runs -/

section Run

variable [Inhabited α] {capacity : Word} {consumer : σ} {s : ConsumerLoop α σ} {log : List (LoopEvent α)}

/-- One more step in the buffer. -/
theorem ring_run_step {ring ring' : RingState α} {rlog out : List (RingEvent α)} {b : RingAction α}
    (h : (ringMachine moved capacity).Run ring rlog) (hr : ring.step moved b = some (ring', out)) :
    (ringMachine moved capacity).Run ring' (rlog ++ out) :=
  .step h trivial hr

/-- The buffer makes a run of its own. -/
theorem run_buffer (hr : (loopMachine moved processOne capacity consumer).Run s log) :
    (ringMachine moved capacity).Run s.ring (bufferLog log) := by
  induction hr with
  | init hs =>
    obtain ⟨r, hr, rfl⟩ := hs
    exact .init ⟨r, hr, rfl⟩
  | step _ _ hs ih =>
    rw [bufferLog_append]
    cases ConsumerLoop.step_took hs with
    | push hf hr | producer hr | called hpc hr | claiming hpc hr hout | nothing hpc hr hout =>
      rw [bufferLog_ring]
      exact ring_run_step ih hr
    | took hpc hr hout =>
      rw [bufferLog_append, bufferLog_ring, bufferLog_processed, List.append_nil]
      exact ring_run_step ih hr
    | setFlag | loaded => simpa [bufferLog] using ih

/-- What `pop` returned is handed to `process_one`. -/
theorem run_processed (hr : (loopMachine moved processOne capacity consumer).Run s log) :
    processed log = popped (bufferLog log) := by
  induction hr with
  | init hs => rfl
  | step _ _ hs ih =>
    rw [bufferLog_append, processed_append, popped_append, ih]
    cases ConsumerLoop.step_took hs with
    | push hf hr | producer hr | called hpc hr => rw [bufferLog_ring, processed_ring, step_popped hr]
    | claiming hpc hr hout | nothing hpc hr hout =>
      rw [bufferLog_ring, processed_ring]
      rcases popResult_cases hr with ⟨h1, h2⟩ | ⟨h1, h2⟩ | ⟨x, h1, h2⟩
      · rw [h2]
      · rw [h2]
      · rw [h1] at hout
        cases hout
    | took hpc hr hout =>
      rw [bufferLog_append, processed_append, bufferLog_ring, processed_ring]
      rcases popResult_cases hr with ⟨h1, h2⟩ | ⟨h1, h2⟩ | ⟨x, h1, h2⟩ <;> rw [h1] at hout <;> cases hout
      simp [h2]
    | setFlag | loaded => rfl

/-! ## Why the last `pop` decides -/

/-- What holds of every state of a run of the loop. -/
structure LoopInv (s : ConsumerLoop α σ) : Prop where
  /-- Once the flag is set the producer is outside `push`. -/
  quiet : s.flag = true → s.ring.producer = .idle
  /-- `run` is outside `pop` when it loads the flag and when it has returned. -/
  outside : s.pc = .loadFlag ∨ s.pc = .returned → s.ring.consumer = .idle
  /-- The flag was set before the last `pop`, and where that reads a cell it has the current `head_`. -/
  current : s.pc = .lastPop → s.flag = true ∧ ∀ pos, s.ring.consumer = .pop (.loadSequence pos) → s.ring.ring.head = pos
  drained : s.pc = .returned → s.flag = true ∧ s.ring.ring.contents = []

omit [Inhabited α] in
/-- Nothing is in a buffer whose front cell is not published. -/
theorem contents_of_vacant {r : SpscRingBuffer α} (h : (r.cell r.head).sequence = r.head) : r.contents = [] := by
  unfold SpscRingBuffer.contents
  cases r.capacity.toNat with
  | zero => rfl
  | succ n =>
    rw [SpscRingBuffer.contentsFrom, if_neg]
    rw [h]
    bv_omega

omit [Inhabited α] in
/-- The producer's steps are none while the flag is set. -/
theorem LoopInv.flag_of_producer {s : ConsumerLoop α σ} (hi : LoopInv s) {spurious : Bool} {ring : RingState α}
    {out : List (RingEvent α)} (hr : s.ring.step moved (.producer spurious) = some (ring, out)) : s.flag = false := by
  by_contra hf
  have hp := hi.quiet (Bool.eq_true_of_not_eq_false hf)
  simp [RingState.step, hp, producerStep] at hr

omit [Inhabited α] in
/-- A step of the last `pop` that goes on keeps its position current. -/
theorem ClaimTook.current {t : Thread} {spurious : Bool} {r r' : SpscRingBuffer α} {claim claim' : ClaimPc α}
    {out : List (RingEvent α)} (hc : ClaimTook moved t spurious r claim r' (.pc claim') out) :
    ∀ pos, claim' = .loadSequence pos → r'.head = pos := by
  rintro pos rfl
  cases hc <;> rfl

omit [Inhabited α] in
theorem LoopInv.step {s s' : ConsumerLoop α σ} {a : LoopAction α ι} {out : List (LoopEvent α)} (hi : LoopInv s)
    (hs : s.step moved processOne a = some (s', out)) : LoopInv s' := by
  cases ConsumerLoop.step_took hs with
  | push hf hr =>
    have hflag : ∀ {p : Prop}, s.flag = true → p := fun h => by simp [hf] at h
    obtain ⟨⟨r, p, c⟩, flag, pc, consumer⟩ := s
    cases RingState.step_took hr with
    | push => exact ⟨hflag, hi.outside, fun h => hflag (hi.current h).1, fun h => hflag (hi.drained h).1⟩
  | producer hr =>
    have hf := hi.flag_of_producer hr
    have hflag : ∀ {p : Prop}, s.flag = true → p := fun h => by simp [hf] at h
    obtain ⟨⟨r, p, c⟩, flag, pc, consumer⟩ := s
    cases RingState.step_took hr with
    | producer => exact ⟨hflag, hi.outside, fun h => hflag (hi.current h).1, fun h => hflag (hi.drained h).1⟩
  | setFlag hp =>
    exact ⟨fun _ => hp, hi.outside, fun h => ⟨rfl, (hi.current h).2⟩, fun h => ⟨rfl, (hi.drained h).2⟩⟩
  | loaded hpc =>
    have hc := hi.outside (Or.inl hpc)
    cases hf : s.flag with
    | false => exact ⟨by simp, by simp, by simp, by simp⟩
    | true => exact ⟨fun _ => hi.quiet hf, by simp, fun _ => ⟨rfl, by simp [hc]⟩, by simp⟩
  | called hpc hr =>
    obtain ⟨⟨r, p, c⟩, flag, pc, consumer⟩ := s
    cases RingState.step_took hr with
    | pop => exact ⟨hi.quiet, by rcases hpc with rfl | rfl <;> simp, fun h => ⟨(hi.current h).1, by simp⟩, hi.drained⟩
  | claiming hpc hr hout =>
    obtain ⟨⟨r, p, c⟩, flag, pc, consumer⟩ := s
    have hpop : pc ≠ .loadFlag ∧ pc ≠ .returned := by rcases hpc with rfl | rfl <;> simp
    cases RingState.step_took hr with
    | consumer hc =>
      cases hc with
      | claiming hc =>
        exact ⟨hi.quiet, fun h => (h.elim hpop.1 hpop.2).elim,
          fun h => ⟨(hi.current h).1, fun pos hpos => hc.current pos (by simpa using hpos)⟩, fun h => (hpop.2 h).elim⟩
      | returned hc =>
        rw [hc.popResult] at hout
        cases hout
  | nothing hpc hr hout =>
    obtain ⟨⟨r, p, c⟩, flag, pc, consumer⟩ := s
    cases RingState.step_took hr with
    | consumer hc =>
      cases hc with
      | claiming hc =>
        have := hc.popResult []
        rw [List.append_nil, hout] at this
        cases this
      | returned hc =>
        rw [hc.popResult] at hout
        cases hout
        refine ⟨hi.quiet, fun _ => rfl, by rcases hpc with rfl | rfl <;> simp [RunPc.afterNothing], fun h => ?_⟩
        rcases hpc with rfl | rfl
        · cases h
        · obtain ⟨hf, hcur⟩ := hi.current rfl
          refine ⟨hf, ?_⟩
          cases hc with
          | @empty pos hseq =>
            have hhead := hcur pos rfl
            simp only at hhead
            subst hhead
            exact contents_of_vacant hseq
  | took hpc hr hout =>
    obtain ⟨⟨r, p, c⟩, flag, pc, consumer⟩ := s
    cases RingState.step_took hr with
    | consumer hc => exact ⟨hi.quiet, by simp, by simp, by simp⟩

theorem loop_invariant (hr : (loopMachine moved processOne capacity consumer).Run s log) : LoopInv s := by
  refine hr.invariant (I := fun s _ => LoopInv s) ?_ fun _ _ _ _ _ hi _ hs => hi.step hs
  rintro _ ⟨r, -, rfl⟩
  exact ⟨by simp, by simp, by simp, by simp⟩

/-! ## The drain -/

/-- What the buffer and the log of a run come to when `run` has returned. -/
structure Drained (ring : RingState α) (log : List (LoopEvent α)) : Prop where
  empty : ring.ring.contents = [] ∧ ring.ring.sizeApprox = 0
  /-- `dropped_count()` is a 64-bit word. -/
  counted : ∃ dropped : ℕ, ring.ring.dropped = BitVec.ofNat 64 dropped ∧
    (processed log).length + dropped = (pushed (bufferLog log)).length
  order : (processed log).Sublist (pushed (bufferLog log))

/-- A consumer that returns from `run` has drained its buffer. -/
theorem drained_of_returned (hr : (loopMachine moved processOne capacity consumer).Run s log) (hpc : s.pc = .returned) :
    Drained s.ring log := by
  have hrun := run_buffer hr
  have hloop := loop_invariant hr
  obtain ⟨hflag, hempty⟩ := hloop.drained hpc
  have hp := hloop.quiet hflag
  have hc := hloop.outside (Or.inr hpc)
  obtain ⟨k, gp, gc, hk1, hk, -, hi⟩ := ring_invariant hrun
  generalize hh : RingHistory.ofLog (bufferLog log) = h at hi
  have hitem : s.ring.producer.item = [] := by rw [hp]; rfl
  have huncounted : s.ring.producer.uncounted = 0 := by rw [hp]; rfl
  have hhand : s.ring.consumer.inHand = [] := by rw [hc]; rfl
  have hpending : pending s.ring.producer s.ring.consumer h.published gp gc .consumer = [] := by rw [hc]; rfl
  -- neither thread is inside a call, so each share is what its thread took
  have hpushed := pushed_eq hrun
  have hpopped := popped_eq hrun
  have hshare := hi.share .consumer
  have hcounted := hi.counted
  have htail := hi.producer
  rw [hitem, List.append_nil, hh] at hpushed
  rw [hhand, List.append_nil, ← run_processed hr, hh, RingHistory.delivered] at hpopped
  rw [hpending, List.append_nil, ← hpopped] at hshare
  rw [huncounted, Nat.add_zero] at hcounted
  rw [hp] at htail
  have hclaims : h.claims.length = h.published.length := by
    have hcontents := contents_eq hk1 hk hi
    rw [hempty, eq_comm, List.drop_eq_nil_iff] at hcontents
    exact Nat.le_antisymm hi.cells.claimed_le hcontents
  refine ⟨⟨hempty, ?_⟩, ⟨h.counted, hi.dropped, ?_⟩, ?_⟩
  · rw [SpscRingBuffer.sizeApprox, hi.head, htail, hclaims]
    exact BitVec.sub_self _
  · have hlen := h.shares_perm.length_eq
    rw [List.length_append, h.length_share hi.cells.claimed_le .producer, ← hcounted, hclaims, List.take_length] at hlen
    rw [hpushed, ← hshare, hlen]
  · rw [hpushed, ← hshare]
    exact h.share_sublist _

end Run

/-- Whatever the interleaving of the producer's thread with the consumer's, when `run` returns the buffer is empty and every element
pushed was handed to `process_one`, in push order, or counted as dropped. -/
theorem shutdown_drains {P : Type} [Double P] [LinearOrder P] :
    (∀ (moved : Event P → Event P) (capacity : Word) (consumer : LiveConsumer P) s log,
      (consumer.run moved capacity).Run s log → s.pc = .returned → Drained s.ring log) ∧
    (∀ (moved : Event P → Event P) (capacity : Word) (registry : LiveBookRegistry P) s log,
      (registry.run moved capacity).Run s log → s.pc = .returned → Drained s.ring log) ∧
    (∀ (moved : ScoringRequest P → ScoringRequest P) (worker : MlScoringWorker P) s log,
      (worker.run moved).Run s log → s.pc = .returned → Drained s.ring log) :=
  ⟨fun _ _ _ _ _ hr hpc => drained_of_returned hr hpc, fun _ _ _ _ _ hr hpc => drained_of_returned hr hpc,
    fun _ _ _ _ hr hpc => drained_of_returned hr hpc⟩

/-- The worker on a buffer of two cells: three requests are submitted before it starts, the oldest is dropped, and the flag is set
between its last two calls of `pop`. -/
theorem shutdown_drains_worker : ∃ s log,
    ((MlScoringWorker.make { queueCapacity := 2 }).run (P := ℚ) id).Run s log ∧ s.ring.ring.dropped = 1 ∧
      (processed log).length = 2 ∧ Drained s.ring log := by
  obtain ⟨s, log, hr, hp⟩ := Machine.run_of_exec
    (M := (MlScoringWorker.make { queueCapacity := 2 }).run (P := ℚ) id) ⟨_, rfl, rfl⟩
    (.push default :: List.replicate 5 (.producer false) ++ .push default :: List.replicate 5 (.producer false) ++
      .push default :: List.replicate 12 (.producer false) ++ List.replicate 15 (.consumer false none) ++ .setFlag ::
      List.replicate 4 (.consumer false none))
    (p := fun q => decide (q.1.pc = .returned ∧ q.1.ring.ring.dropped = 1 ∧ (processed q.2).length = 2)) (by decide)
  obtain ⟨hpc, h1, h2⟩ := of_decide_eq_true hp
  exact ⟨s, log, hr, h1, h2, shutdown_drains.2.2 id _ s log hr hpc⟩

end TradeSurveillance
