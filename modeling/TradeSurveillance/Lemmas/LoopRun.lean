import TradeSurveillance.Theorems.RingLossless
import TradeSurveillance.Theorems.ShutdownDrain

/-!
# A run of the loop as a fold

The consumer of a loop is what `process_one` made of the elements handed to it, one after the other. On a buffer with room for
everything these are all the elements that were pushed.
-/

namespace TradeSurveillance

variable {α ι : Type} {σ : Type*} {moved : α → α} {processOne : σ → ι → α → σ} {s s' : ConsumerLoop α σ} {a : LoopAction α ι}
  {out : List (LoopEvent α)}

/-- The element an action calls `push` with. -/
def LoopAction.items : LoopAction α ι → List α
  | .push x => [x]
  | _ => []

namespace ConsumerLoop

/-- The elements a step pushes. -/
theorem step_pushed (hs : s.step moved processOne a = some (s', out)) : pushed (bufferLog out) = a.items := by
  cases step_took hs with
  | push hf hr | producer hr | called hpc hr | claiming hpc hr hout | nothing hpc hr hout =>
    rw [bufferLog_ring, TradeSurveillance.step_pushed hr]
    rfl
  | took hpc hr hout =>
    rw [bufferLog_append, bufferLog_ring, bufferLog_processed, List.append_nil, TradeSurveillance.step_pushed hr]
    rfl
  | setFlag | loaded => rfl

/-- What a step does to the consumer: nothing, or `process_one`, which the consumer's thread calls where it does not leave its loop. -/
inductive Handled (processOne : σ → ι → α → σ) (s s' : ConsumerLoop α σ) : LoopAction α ι → List α → Prop where
  | others {a : LoopAction α ι} (ha : ∀ spurious answer, a ≠ .consumer spurious answer) (hconsumer : s'.consumer = s.consumer)
      (hpc : s'.pc = s.pc) : Handled processOne s s' a []
  | kept {spurious : Bool} {answer : ι} (hconsumer : s'.consumer = s.consumer) : Handled processOne s s' (.consumer spurious answer) []
  | processed {spurious : Bool} {answer : ι} {item : α} (hconsumer : s'.consumer = processOne s.consumer answer item)
      (hpc : s'.pc = .pop) : Handled processOne s s' (.consumer spurious answer) [item]

theorem step_handled (hs : s.step moved processOne a = some (s', out)) : Handled processOne s s' a (processed out) := by
  cases step_took hs with
  | push hf hr =>
    rw [processed_ring]
    exact .others (by simp) rfl rfl
  | producer hr =>
    rw [processed_ring]
    exact .others (by simp) rfl rfl
  | setFlag => exact .others (by simp) rfl rfl
  | loaded => exact .kept rfl
  | called hpc hr =>
    rw [processed_ring]
    exact .kept rfl
  | claiming hpc hr hout =>
    rw [processed_ring]
    exact .kept rfl
  | nothing hpc hr hout =>
    rw [processed_ring]
    exact .kept rfl
  | took hpc hr hout =>
    rw [processed_append, processed_ring, processed_processed]
    exact .processed rfl rfl

/-- The consumer's thread takes no step once it has left its loop. -/
theorem pc_ne_returned {spurious : Bool} {answer : ι} (hs : s.step moved processOne (.consumer spurious answer) = some (s', out)) :
    s.pc ≠ .returned := by
  intro hpc
  simp [step, hpc] at hs

/-- A step relates the consumer to itself, or as `process_one` does. -/
theorem step_consumer {R : σ → σ → Prop} (hrefl : ∀ c, R c c) (hprocess : ∀ c answer item, R c (processOne c answer item))
    (hs : s.step moved processOne a = some (s', out)) : R s.consumer s'.consumer := by
  have hhandled := step_handled hs
  generalize processed out = items at hhandled
  cases hhandled with
  | others _ heq _ => exact heq ▸ hrefl _
  | kept heq => exact heq ▸ hrefl _
  | processed heq _ => exact heq ▸ hprocess _ _ _

/-- The loop that has been left stays left. It is left by a step of the consumer's thread that leaves the consumer as it is. -/
theorem step_returned (hs : s.step moved processOne a = some (s', out)) : (s.pc = .returned → s'.pc = .returned) ∧
    (s'.pc = .returned → s'.consumer = s.consumer ∧ (s.pc = .returned ∨ ∃ spurious answer, a = .consumer spurious answer)) := by
  have hhandled := step_handled hs
  generalize processed out = items at hhandled
  cases hhandled with
  | others _ heq hpc =>
    rw [hpc]
    exact ⟨id, fun h => ⟨heq, .inl h⟩⟩
  | @kept spurious answer heq => exact ⟨fun h => absurd h (pc_ne_returned hs), fun _ => ⟨heq, .inr ⟨spurious, answer, rfl⟩⟩⟩
  | processed _ hpc =>
    rw [hpc]
    exact ⟨fun h => absurd h (pc_ne_returned hs), nofun⟩

/-- The consumer is what `process_one` made of the elements and their answers. -/
theorem step_answered (hs : s.step moved processOne a = some (s', out)) : (a.answered out).map Prod.fst = processed out ∧
    s'.consumer = (a.answered out).foldl (fun c x => processOne c x.2 x.1) s.consumer := by
  have hhandled := step_handled hs
  unfold LoopAction.answered
  generalize processed out = items at hhandled
  cases hhandled with
  | @others a ha heq _ =>
    cases a with
    | consumer spurious answer => exact absurd rfl (ha spurious answer)
    | _ => exact ⟨rfl, heq⟩
  | kept heq => exact ⟨rfl, heq⟩
  | processed heq _ => exact ⟨rfl, heq⟩

end ConsumerLoop

variable [Inhabited α] {capacity : Word} {consumer : σ} {log : List (LoopEvent α)}

/-- The consumer after a run, with the answers `process_one` got. -/
theorem run_consumer (hr : (loopMachine moved processOne capacity consumer).Run s log) :
    ∃ answers : List ι, answers.length = (processed log).length ∧
      s.consumer = (answers.zip (processed log)).foldl (fun c x => processOne c x.1 x.2) consumer := by
  induction hr with
  | init hs =>
    obtain ⟨r, -, rfl⟩ := hs
    exact ⟨[], rfl, rfl⟩
  | step _ _ hs ih =>
    obtain ⟨answers, hlength, hconsumer⟩ := ih
    have hhandled := ConsumerLoop.step_handled hs
    generalize hout : processed _ = items at hhandled
    rw [processed_append, hout]
    cases hhandled with
    | others ha heq hpc => exact ⟨answers, by simpa using hlength, by rw [heq, List.append_nil, hconsumer]⟩
    | kept heq => exact ⟨answers, by simpa using hlength, by rw [heq, List.append_nil, hconsumer]⟩
    | @processed _ answer item heq hpc =>
      refine ⟨answers ++ [answer], by simp [hlength], ?_⟩
      rw [List.zip_append hlength, List.foldl_append, ← hconsumer]
      exact heq

omit [Inhabited α] in
/-- A loop that ignores its answers. -/
theorem foldl_zip_right {β γ : Type*} {f : γ → α → γ} {c : γ} {xs : List β} {ys : List α} (h : xs.length = ys.length) :
    (xs.zip ys).foldl (fun c x => f c x.2) c = ys.foldl f c := by
  rw [← List.foldl_map (f := Prod.snd), List.map_snd_zip h.ge]

/-- A loop that has returned has handed everything over, where no more was pushed than there are cells. -/
theorem loop_lossless (hr : (loopMachine moved processOne capacity consumer).Run s log) (hpc : s.pc = .returned)
    (hfit : (pushed (bufferLog log)).length ≤ capacity.toNat) :
    s.ring.ring.dropped = 0 ∧ processed log = pushed (bufferLog log) := by
  have hzero := (lossless_of_fits (run_buffer hr) hfit).dropped
  have hdrained := drained_of_returned hr hpc
  obtain ⟨dropped, hdropped, hlength⟩ := hdrained.counted
  refine ⟨hzero, hdrained.order.eq_of_length ?_⟩
  -- the counter has not gone round
  have hlt : dropped < 2 ^ 64 := by omega
  rw [hzero] at hdropped
  have hnat := congrArg BitVec.toNat hdropped
  rw [BitVec.toNat_ofNat, Nat.mod_eq_of_lt hlt] at hnat
  have hnone : dropped = 0 := hnat.symm
  omega

end TradeSurveillance
