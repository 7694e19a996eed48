import Mathlib.Data.List.Basic
import Mathlib.Data.List.Induction

/-!
# Machines: runs, invariants, runs whose steps meet a condition

A machine has states, actions and events: an action that is enabled in a state leads to one state and emits a list of events.
A run collects what its steps emit in a log. `Machine.Reach ok` holds of the states and logs of the runs whose every step
meets `ok`, a condition on the state before the step, the log so far and the action; with `ok` trivial these are all runs.
`Machine.Settles` says where a choice of actions ends that may fail finitely often.
-/

/-- A machine. An action that is not enabled has no step. -/
structure Machine (σ ι ε : Type*) where
  init : σ → Prop
  step : σ → ι → Option (σ × List ε)

namespace Machine

variable {σ ι ε : Type*}

/-- A state and the log of a run that reaches it, every step of the run meeting `ok`. -/
inductive Reach (M : Machine σ ι ε) (ok : σ → List ε → ι → Prop) : σ → List ε → Prop where
  | init {s : σ} : M.init s → Reach M ok s []
  | step {s s' : σ} {log out : List ε} {a : ι} :
      Reach M ok s log → ok s log a → M.step s a = some (s', out) → Reach M ok s' (log ++ out)

/-- A state and a log of some run, with no condition on the steps. -/
abbrev Run (M : Machine σ ι ε) : σ → List ε → Prop := M.Reach (fun _ _ _ => True)

variable {M : Machine σ ι ε} {ok : σ → List ε → ι → Prop}

/-- What holds at the start and is kept by every step that meets the condition holds along every run of such steps. -/
theorem Reach.invariant {I : σ → List ε → Prop} (h0 : ∀ s, M.init s → I s [])
    (hstep : ∀ s log a s' out, I s log → ok s log a → M.step s a = some (s', out) → I s' (log ++ out))
    {s : σ} {log : List ε} (h : M.Reach ok s log) : I s log := by
  induction h with
  | init hs => exact h0 _ hs
  | step _ hok hs ih => exact hstep _ _ _ _ _ ih hok hs

/-- A stronger condition on the steps leaves fewer runs. -/
theorem Reach.mono {ok' : σ → List ε → ι → Prop} (himp : ∀ s log a, ok s log a → ok' s log a) {s : σ} {log : List ε}
    (h : M.Reach ok s log) : M.Reach ok' s log := by
  induction h with
  | init hs => exact Reach.init hs
  | step _ hok hs ih => exact Reach.step ih (himp _ _ _ hok) hs

/-- A run whose steps meet a condition is a run. -/
theorem Reach.run {s : σ} {log : List ε} (h : M.Reach ok s log) : M.Run s log :=
  h.mono fun _ _ _ _ => trivial

/-- Take the actions of a list in order; `none` when one of them is not enabled. -/
def exec (M : Machine σ ι ε) : σ → List ε → List ι → Option (σ × List ε)
  | s, log, [] => some (s, log)
  | s, log, a :: as => (M.step s a).bind fun r => M.exec r.1 (log ++ r.2) as

/-- What a list of actions leads to from a state of a run is a state of a run. -/
theorem Run.exec {s s' : σ} {log log' : List ε} {as : List ι} (h : M.Run s log)
    (he : M.exec s log as = some (s', log')) : M.Run s' log' := by
  induction as generalizing s log with
  | nil =>
    simp only [Machine.exec, Option.some.injEq, Prod.mk.injEq] at he
    obtain ⟨rfl, rfl⟩ := he
    exact h
  | cons a as ih =>
    simp only [Machine.exec] at he
    cases hs : M.step s a with
    | none => simp [hs] at he
    | some r =>
      simp only [hs, Option.bind_some] at he
      exact ih (Reach.step h trivial hs) he

/-- A list of actions that can be taken from an initial state, with a check of where it ends, gives a run that ends there. -/
theorem run_of_exec {s₀ : σ} (h0 : M.init s₀) (as : List ι) {p : σ × List ε → Bool}
    (he : ((M.exec s₀ [] as).map p) = some true) : ∃ s log, M.Run s log ∧ p (s, log) = true := by
  cases hr : M.exec s₀ [] as with
  | none => simp [hr] at he
  | some r =>
    simp only [hr, Option.map_some, Option.some.injEq] at he
    exact ⟨r.1, r.2, Run.exec (Reach.init h0) hr, he⟩

/-- Take the actions of a list in order; `none` when one of them is not enabled or does not pass the check. -/
def execIf (M : Machine σ ι ε) (check : σ → List ε → ι → Bool) : σ → List ε → List ι → Option (σ × List ε)
  | s, log, [] => some (s, log)
  | s, log, a :: as => if check s log a then (M.step s a).bind fun r => M.execIf check r.1 (log ++ r.2) as else none

theorem Reach.execIf {check : σ → List ε → ι → Bool} (hok : ∀ s log a, M.Run s log → check s log a = true → ok s log a)
    {s s' : σ} {log log' : List ε} {as : List ι} (h : M.Reach ok s log) (he : M.execIf check s log as = some (s', log')) :
    M.Reach ok s' log' := by
  induction as generalizing s log with
  | nil =>
    simp only [Machine.execIf, Option.some.injEq, Prod.mk.injEq] at he
    obtain ⟨rfl, rfl⟩ := he
    exact h
  | cons a as ih =>
    simp only [Machine.execIf, Option.ite_none_right_eq_some, Option.bind_eq_some_iff] at he
    obtain ⟨hcheck, r, hs, he⟩ := he
    exact ih (Reach.step h (hok _ _ _ h.run hcheck) hs) he

/-- The same as `run_of_exec` where every action passes a check by which its step meets the condition. -/
theorem reach_of_execIf {check : σ → List ε → ι → Bool} (hok : ∀ s log a, M.Run s log → check s log a = true → ok s log a)
    {s₀ : σ} (h0 : M.init s₀) (as : List ι) {p : σ × List ε → Bool} (he : ((M.execIf check s₀ [] as).map p) = some true) :
    ∃ s log, M.Reach ok s log ∧ p (s, log) = true := by
  obtain ⟨r, hr, hp⟩ := Option.map_eq_some_iff.1 he
  exact ⟨r.1, r.2, Reach.execIf hok (Reach.init h0) hr, hp⟩

/-! ## Actions that may not be enabled -/

/-- Take an action if it is enabled. -/
def attempt (M : Machine σ ι ε) (r : σ × List ε) (a : ι) : σ × List ε :=
  match M.step r.1 a with
  | some (s, out) => (s, r.2 ++ out)
  | none => r

/-- Take the actions of a list that are enabled when it is their turn. -/
def attempts (M : Machine σ ι ε) (r : σ × List ε) (as : List ι) : σ × List ε := as.foldl M.attempt r

theorem attempt_some {s s' : σ} {log out : List ε} {a : ι} (h : M.step s a = some (s', out)) :
    M.attempt (s, log) a = (s', log ++ out) := by
  simp only [attempt, h]

theorem attempt_none {s : σ} {log : List ε} {a : ι} (h : M.step s a = none) : M.attempt (s, log) a = (s, log) := by
  simp only [attempt, h]

/-- What actions lead to from a state of a run, where they are enabled, is a state of a run. -/
theorem Run.attempts {r : σ × List ε} (h : M.Run r.1 r.2) (as : List ι) : M.Run (M.attempts r as).1 (M.attempts r as).2 := by
  induction as generalizing r with
  | nil => exact h
  | cons a as ih =>
    refine ih ?_
    cases hs : M.step r.1 a with
    | none =>
      rw [attempt_none hs]
      exact h
    | some r' =>
      rw [attempt_some hs]
      exact Reach.step h trivial hs

/-- The same as `run_of_exec` for actions of which those are taken that are enabled. -/
theorem run_of_attempts {s₀ : σ} (h0 : M.init s₀) (as : List ι) {p : σ × List ε → Bool} (he : p (M.attempts (s₀, []) as) = true) :
    ∃ s log, M.Run s log ∧ p (s, log) = true :=
  ⟨_, _, Run.attempts (r := (s₀, [])) (Reach.init h0) as, he⟩

/-- From a state, actions `act b` lead to one state and emit one list of events, and then none is enabled any more: however the first
`b` are chosen, at latest after `n` further actions `act false`. -/
def Settles (M : Machine σ ι ε) (act : Bool → ι) (n : ℕ) (s s' : σ) (out : List ε) : Prop :=
  ∀ (bs : List Bool) (m : ℕ) (log : List ε), n ≤ m →
    M.attempts (s, log) ((bs ++ List.replicate m false).map act) = (s', log ++ out)

section Settles

variable {act : Bool → ι} {n : ℕ} {s s₁ s₂ s' : σ} {out out₁ : List ε}

/-- No action is enabled. -/
theorem settles_stop (h : ∀ b, M.step s (act b) = none) : M.Settles act 0 s s [] := by
  have hstay : ∀ (bs : List Bool) (log : List ε), M.attempts (s, log) (bs.map act) = (s, log) := by
    intro bs log
    induction bs with
    | nil => rfl
    | cons b bs ih => rwa [List.map_cons, attempts, List.foldl_cons, attempt_none (h b), ← attempts]
  intro bs m log _
  rw [hstay, List.append_nil]

theorem attempts_cons {b : Bool} {bs : List Bool} {log : List ε} (h : M.step s (act b) = some (s₁, out₁)) :
    M.attempts (s, log) ((b :: bs).map act) = M.attempts (s₁, log ++ out₁) (bs.map act) := by
  rw [List.map_cons, attempts, List.foldl_cons, attempt_some h, ← attempts]

/-- A step that does not depend on the choice. -/
theorem settles_step (h : ∀ b, M.step s (act b) = some (s₁, out₁)) (hs : M.Settles act n s₁ s' out) :
    M.Settles act (n + 1) s s' (out₁ ++ out) := by
  intro bs m log hm
  cases bs with
  | nil =>
    obtain ⟨m, rfl⟩ : ∃ m', m = m' + 1 := ⟨m - 1, by omega⟩
    rw [List.nil_append, List.replicate_succ, attempts_cons (h false), ← List.append_assoc]
    exact hs [] m _ (by omega)
  | cons b bs =>
    rw [List.cons_append, attempts_cons (h b), ← List.append_assoc]
    exact hs bs m _ (by omega)

/-- Two steps that are repeated as long as the second is chosen to fail. -/
theorem settles_retry (h : ∀ b, M.step s (act b) = some (s₁, [])) (hfail : M.step s₁ (act true) = some (s, []))
    (hgo : M.step s₁ (act false) = some (s₂, out₁)) (hs : M.Settles act n s₂ s' out) :
    M.Settles act (n + 2) s s' (out₁ ++ out) := by
  intro bs
  induction bs using List.twoStepInduction with
  | nil =>
    intro m log hm
    obtain ⟨m, rfl⟩ : ∃ m', m = m' + 2 := ⟨m - 2, by omega⟩
    rw [List.nil_append, List.replicate_succ, List.replicate_succ, attempts_cons (h false), attempts_cons hgo, List.append_nil,
      ← List.append_assoc]
    exact hs [] m _ (by omega)
  | singleton b =>
    intro m log hm
    obtain ⟨m, rfl⟩ : ∃ m', m = m' + 1 := ⟨m - 1, by omega⟩
    rw [List.singleton_append, List.replicate_succ, attempts_cons (h b), attempts_cons hgo, List.append_nil, ← List.append_assoc]
    exact hs [] m _ (by omega)
  | cons_cons b b' bs ih _ =>
    intro m log hm
    rw [List.cons_append, List.cons_append, attempts_cons (h b), List.append_nil]
    cases b' with
    | true =>
      rw [attempts_cons hfail, List.append_nil]
      exact ih m log hm
    | false =>
      rw [attempts_cons hgo, ← List.append_assoc]
      exact hs bs m _ (by omega)

end Settles

end Machine
