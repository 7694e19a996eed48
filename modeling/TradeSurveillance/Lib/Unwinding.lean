import Mathlib.Data.List.Basic

/-!
# Runs with outputs, and unwinding

A system takes inputs one after another and emits a list of outputs for each. Some inputs are visible to an observer, as what `view`
makes of them; the outputs are those the observer sees. If there is a relation on states that hidden inputs keep on either side while
nothing is seen, and that visible inputs with one view keep with equal outputs, then what is seen of a run depends on the visible
inputs alone (`run_eq_of_view`).
-/

namespace Unwinding

variable {σ ε β ω : Type*}

/-- Take the inputs in order: the state reached, and the outputs. -/
def run (step : σ → ε → σ × List β) : σ → List ε → σ × List β
  | s, [] => (s, [])
  | s, e :: es => ((run step (step s e).1 es).1, (step s e).2 ++ (run step (step s e).1 es).2)

variable {step : σ → ε → σ × List β}

@[simp] theorem run_nil (s : σ) : run step s [] = (s, []) := rfl

theorem run_cons (s : σ) (e : ε) (es : List ε) :
    run step s (e :: es) = ((run step (step s e).1 es).1, (step s e).2 ++ (run step (step s e).1 es).2) := rfl

/-- Inputs in a row are taken in a row. -/
theorem run_append (s : σ) (es es' : List ε) :
    run step s (es ++ es') = ((run step (run step s es).1 es').1, (run step s es).2 ++ (run step (run step s es).1 es').2) := by
  induction es generalizing s with
  | nil => simp
  | cons e es ih => simp only [List.cons_append, run_cons, ih, List.append_assoc]

/-- One more input is taken behind the others. -/
theorem run_concat (s : σ) (es : List ε) (e : ε) :
    run step s (es ++ [e]) = ((step (run step s es).1 e).1, (run step s es).2 ++ (step (run step s es).1 e).2) := by
  rw [run_append, run_cons, run_nil, List.append_nil]

/-- What an observer must not be able to tell, of inputs that meet a condition. -/
structure Unwinds (step : σ → ε → σ × List β) (ok : ε → Prop) (view : ε → Option ω) (R : σ → σ → Prop) : Prop where
  symm : ∀ {s s'}, R s s' → R s' s
  /-- A hidden input is not noticed. -/
  hidden : ∀ {s s' e}, R s s' → ok e → view e = none → R (step s e).1 s' ∧ (step s e).2 = []
  /-- Inputs with one view are not told apart. -/
  visible : ∀ {s s' e e' w}, R s s' → ok e → ok e' → view e = some w → view e' = some w →
    R (step s e).1 (step s' e').1 ∧ (step s e).2 = (step s' e').2

variable {ok : ε → Prop} {view : ε → Option ω} {R : σ → σ → Prop}

/-- Hidden inputs are not noticed. -/
theorem run_hidden (h : Unwinds step ok view R) {s s' : σ} (hR : R s s') {es : List ε} (hok : ∀ e ∈ es, ok e)
    (hes : ∀ e ∈ es, view e = none) : R (run step s es).1 s' ∧ (run step s es).2 = [] := by
  induction es generalizing s with
  | nil => exact ⟨hR, rfl⟩
  | cons e es ih =>
    obtain ⟨hnext, hout⟩ := h.hidden hR (hok e List.mem_cons_self) (hes e List.mem_cons_self)
    obtain ⟨hrun, hout'⟩ := ih hnext (fun e' he' => hok e' (List.mem_cons_of_mem _ he'))
      fun e' he' => hes e' (List.mem_cons_of_mem _ he')
    exact ⟨hrun, by rw [run_cons, hout, hout', List.append_nil]⟩

/-- What is seen of a run depends on the visible inputs alone. -/
theorem run_eq_of_view (h : Unwinds step ok view R) {s s' : σ} (hR : R s s') {es es' : List ε} (hok : ∀ e ∈ es, ok e)
    (hok' : ∀ e ∈ es', ok e) (hview : es.filterMap view = es'.filterMap view) :
    R (run step s es).1 (run step s' es').1 ∧ (run step s es).2 = (run step s' es').2 := by
  induction es generalizing s s' es' with
  | nil =>
    have hes' : ∀ e ∈ es', view e = none := List.filterMap_eq_nil_iff.1 hview.symm
    obtain ⟨hrun, hout⟩ := run_hidden h (h.symm hR) hok' hes'
    exact ⟨h.symm hrun, hout.symm⟩
  | cons e es ih =>
    have he := hok e List.mem_cons_self
    have hrest' := fun e' he' => hok e' (List.mem_cons_of_mem e he')
    cases hv : view e with
    | none =>
      rw [List.filterMap_cons_none hv] at hview
      obtain ⟨hnext, hout⟩ := h.hidden hR he hv
      obtain ⟨hrun, hout'⟩ := ih hnext hrest' hok' hview
      exact ⟨hrun, by rw [run_cons, hout, List.nil_append, hout']⟩
    | some w =>
      rw [List.filterMap_cons_some hv] at hview
      obtain ⟨hidden, e', rest, rfl, hnone, hv', hrest⟩ := List.filterMap_eq_cons_iff.1 hview.symm
      have hokhidden : ∀ e ∈ hidden, ok e := fun e he => hok' e (List.mem_append_left _ he)
      have hoke' : ok e' := hok' e' (List.mem_append_right _ List.mem_cons_self)
      have hokrest : ∀ e ∈ rest, ok e := fun e he => hok' e (List.mem_append_right _ (List.mem_cons_of_mem _ he))
      obtain ⟨hbefore, hout⟩ := run_hidden h (h.symm hR) hokhidden hnone
      obtain ⟨hnext, heq⟩ := h.visible (h.symm hbefore) he hoke' hv hv'
      obtain ⟨hrun, hout'⟩ := ih hnext hrest' hokrest hrest.symm
      rw [run_append, run_cons, run_cons, hout, List.nil_append, heq, hout']
      exact ⟨hrun, rfl⟩

end Unwinding
