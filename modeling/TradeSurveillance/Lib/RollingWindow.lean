import Mathlib.Algebra.Order.Group.Int
import Mathlib.Algebra.Order.Group.Unbundled.Abs
import Mathlib.Data.List.Induction

/-!
# Rolling windows

A window is a list of elements with times. Pruning drops the elements further than a width from a given time, before it or after it, so
that times may also go back. `survivors` says what is left of a list of elements that were pushed one after another, each push pruning
by the new element's time. Where times do not go back nothing is lost by pruning early: a pruned list keeps everything that a later
window holds of the whole history (`Keeps`). The history may be of what each input adds to those before it (`gather`).
-/

namespace RollingWindow

variable {α : Type*} (time : α → ℤ) (width : ℤ)

/-- The elements within the width of a time. -/
def prune (now : ℤ) (l : List α) : List α := l.filter fun x => |now - time x| ≤ width

/-- Prune by the time of an element and append it. -/
def push (l : List α) (x : α) : List α := prune time width (time x) l ++ [x]

/-- The elements from which no later one is further than the width. -/
def survivors : List α → List α
  | [] => []
  | x :: rest => if ∀ y ∈ rest, |time y - time x| ≤ width then x :: survivors rest else survivors rest

variable {time width} {now now' : ℤ} {l history : List α} {x : α}

/-- What stays when a list is pruned. -/
theorem mem_prune : x ∈ prune time width now l ↔ x ∈ l ∧ |now - time x| ≤ width := by
  simp [prune]

/-- An element inside the window stays. -/
theorem prune_cons_of_pos (h : |now - time x| ≤ width) : prune time width now (x :: l) = x :: prune time width now l :=
  List.filter_cons_of_pos (by simpa using h)

/-- An element outside goes. -/
theorem prune_cons_of_neg (h : ¬|now - time x| ≤ width) : prune time width now (x :: l) = prune time width now l :=
  List.filter_cons_of_neg (by simpa using h)

/-- Pruning goes element by element. -/
theorem prune_append (now : ℤ) (l l' : List α) :
    prune time width now (l ++ l') = prune time width now l ++ prune time width now l' :=
  List.filter_append ..

/-- Pruning twice at a time is pruning once. -/
theorem prune_prune (now : ℤ) (l : List α) : prune time width now (prune time width now l) = prune time width now l := by
  rw [prune, prune, List.filter_filter]
  exact List.filter_congr fun x _ => Bool.and_self _

/-! ## Pushing -/

/-- Survivors are elements, in their order. -/
theorem survivors_sublist (l : List α) : (survivors time width l).Sublist l := by
  induction l with
  | nil => exact .slnil
  | cons x rest ih =>
    rw [survivors]
    split
    · exact ih.cons_cons x
    · exact ih.cons x

/-- The survivors with one more element are pushed to. -/
theorem survivors_concat (l : List α) (y : α) : survivors time width (l ++ [y]) = push time width (survivors time width l) y := by
  induction l with
  | nil => simp [survivors, push, prune]
  | cons x rest ih =>
    have hlast : (∀ z ∈ rest ++ [y], |time z - time x| ≤ width) ↔
        (∀ z ∈ rest, |time z - time x| ≤ width) ∧ |time y - time x| ≤ width := by
      constructor
      · intro h
        exact ⟨fun z hz => h z (List.mem_append_left _ hz), h y (List.mem_append_right _ List.mem_cons_self)⟩
      · rintro ⟨hrest, hy⟩ z hz
        rcases List.mem_append.1 hz with hz | hz
        · exact hrest z hz
        · rwa [List.mem_singleton.1 hz]
    rw [List.cons_append, survivors, survivors, ih]
    by_cases hrest : ∀ z ∈ rest, |time z - time x| ≤ width
    · rw [if_pos hrest]
      by_cases hy : |time y - time x| ≤ width
      · rw [if_pos (hlast.2 ⟨hrest, hy⟩), push, push, prune_cons_of_pos hy, List.cons_append]
      · rw [if_neg fun h => hy (hlast.1 h).2, push, push, prune_cons_of_neg hy]
    · rw [if_neg hrest, if_neg fun h => hrest (hlast.1 h).1]

/-- Survivors of an image are images of survivors. -/
theorem survivors_map {β : Type*} (f : β → α) (l : List β) :
    survivors time width (l.map f) = (survivors (time ∘ f) width l).map f := by
  induction l with
  | nil => rfl
  | cons x rest ih => simp only [List.map_cons, survivors, List.forall_mem_map, Function.comp_apply, ih, apply_ite (List.map f)]

/-- Of the elements that meet a condition none is lost exactly when nothing later is too far from one of them. -/
theorem filter_survivors_eq_iff {p : α → Bool} : (survivors time width l).filter p = l.filter p ↔
    l.Pairwise fun x y => p x = true → |time y - time x| ≤ width := by
  induction l with
  | nil => exact iff_of_true rfl .nil
  | cons a rest ih =>
    rw [List.pairwise_cons, ← ih, survivors]
    by_cases hfar : ∀ y ∈ rest, |time y - time a| ≤ width
    · rw [if_pos hfar, and_iff_right fun y hy _ => hfar y hy]
      cases hp : p a with
      | true => rw [List.filter_cons_of_pos hp, List.filter_cons_of_pos hp, List.cons_inj_right]
      | false => simp [hp]
    · rw [if_neg hfar]
      cases hp : p a with
      | true =>
        refine iff_of_false (fun heq => ?_) fun h => hfar fun y hy => h.1 y hy rfl
        have hle := ((survivors_sublist rest : (survivors time width rest).Sublist rest).filter p).length_le
        rw [heq, List.filter_cons_of_pos hp, List.length_cons] at hle
        omega
      | false => simp [hp]

/-! ## Times that do not go back -/

/-- From a time on, windows of the list are windows of the history. -/
def Keeps (time : α → ℤ) (width now : ℤ) (l history : List α) : Prop :=
  ∀ later, now ≤ later → prune time width later l = prune time width later history

/-- A list keeps its own windows. -/
theorem Keeps.refl (now : ℤ) (l : List α) : Keeps time width now l l := fun _ _ => rfl

/-- What is kept from a time on is kept from a later one on. -/
theorem Keeps.mono (h : Keeps time width now l history) (hle : now ≤ now') : Keeps time width now' l history :=
  fun later hlater => h later (hle.trans hlater)

/-- The same may be appended to both. -/
theorem Keeps.append (h : Keeps time width now l history) (new : List α) : Keeps time width now (l ++ new) (history ++ new) := by
  intro later hlater
  rw [prune_append, prune_append, h later hlater]

/-- What is too old stays too old. -/
theorem Keeps.prune (h : Keeps time width now l history) (hpast : ∀ x ∈ history, time x ≤ now) :
    Keeps time width now (prune time width now l) history := by
  intro later hlater
  rw [h now le_rfl, RollingWindow.prune, RollingWindow.prune, List.filter_filter]
  refine List.filter_congr ?_
  intro x hx
  have hx' := hpast x hx
  rw [abs_of_nonneg (by omega), abs_of_nonneg (by omega), ← Bool.decide_and]
  refine decide_eq_decide.2 ⟨fun h => h.1, fun h => ⟨h, by omega⟩⟩

/-- From a time on, windows reach no further than the time. -/
theorem prune_eq_filter (hpast : ∀ x ∈ l, time x ≤ now) :
    prune time width now l = l.filter fun x => now - width ≤ time x ∧ time x ≤ now := by
  refine List.filter_congr fun x hx => decide_eq_decide.2 ?_
  have hx' := hpast x hx
  rw [abs_of_nonneg (by omega), and_iff_left hx']
  exact ⟨fun h => by omega, fun h => by omega⟩

/-- A pruned list that keeps a history is the history's window. -/
theorem Keeps.prune_eq (h : Keeps time width now (RollingWindow.prune time width now l) history)
    (hpast : ∀ x ∈ history, time x ≤ now) : RollingWindow.prune time width now l =
      history.filter fun x => now - width ≤ time x ∧ time x ≤ now := by
  rw [← prune_eq_filter hpast, ← h now le_rfl, prune_prune]

/-! ## Histories -/

section Gather

variable {ε : Type*} (f : List ε → ε → List α)

/-- What each input adds, seen after those before it. -/
def gatherFrom : List ε → List ε → List α
  | _, [] => []
  | before, x :: rest => f before x ++ gatherFrom (before ++ [x]) rest

def gather (inputs : List ε) : List α := gatherFrom f [] inputs

/-- What inputs in a row add. -/
theorem gatherFrom_append (before inputs inputs' : List ε) :
    gatherFrom f before (inputs ++ inputs') = gatherFrom f before inputs ++ gatherFrom f (before ++ inputs) inputs' := by
  induction inputs generalizing before with
  | nil => rw [List.append_nil, List.nil_append, gatherFrom, List.nil_append]
  | cons x rest ih => rw [List.cons_append, gatherFrom, gatherFrom, ih, List.append_assoc, List.append_assoc, List.singleton_append]

/-- What one more input adds. -/
theorem gather_concat (inputs : List ε) (x : ε) : gather f (inputs ++ [x]) = gather f inputs ++ f inputs x := by
  rw [gather, gatherFrom_append, gatherFrom, gatherFrom, List.append_nil, List.nil_append]
  rfl

variable {f}

/-- What is gathered was added by one of the inputs. -/
theorem forall_mem_gather {q : α → Prop} {inputs : List ε} (h : ∀ before, ∀ x ∈ inputs, ∀ y ∈ f before x, q y) :
    ∀ y ∈ gather f inputs, q y := by
  induction inputs using List.reverseRecOn with
  | nil => exact fun y hy => nomatch hy
  | append_singleton inputs x ih =>
    intro y hy
    rw [gather_concat] at hy
    rcases List.mem_append.1 hy with hy | hy
    · exact ih (fun before x' hx' => h before x' (List.mem_append_left _ hx')) y hy
    · exact h inputs x (List.mem_append_right _ List.mem_cons_self) y hy

end Gather

end RollingWindow
