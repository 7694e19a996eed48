import Mathlib.Data.List.Induction

/-!
# Interleavings

Two threads append to one list. What the list comes to is an interleaving of what either appended, and a reader that looks only at
entries of one thread sees them in that thread's order.
-/

/-- The first list is an interleaving of the other two. -/
inductive Interleaving {α : Type*} : List α → List α → List α → Prop where
  | nil : Interleaving [] [] []
  | left {l a b : List α} (h : Interleaving l a b) (x : α) : Interleaving (l ++ [x]) (a ++ [x]) b
  | right {l a b : List α} (h : Interleaving l a b) (x : α) : Interleaving (l ++ [x]) a (b ++ [x])

namespace Interleaving

variable {α : Type*} {l a b : List α}

theorem symm (h : Interleaving l a b) : Interleaving l b a := by
  induction h with
  | nil => exact .nil
  | left _ x ih => exact ih.right x
  | right _ x ih => exact ih.left x

/-- One appended all it had before the other began. -/
theorem append (a b : List α) : Interleaving (a ++ b) a b := by
  induction b using List.reverseRecOn with
  | nil =>
    rw [List.append_nil]
    induction a using List.reverseRecOn with
    | nil => exact .nil
    | append_singleton a x ih => exact ih.left x
  | append_singleton b x ih =>
    rw [← List.append_assoc]
    exact ih.right x

theorem perm (h : Interleaving l a b) : l.Perm (a ++ b) := by
  induction h with
  | nil => exact .refl _
  | left _ x ih =>
    refine (ih.append_right [x]).trans ?_
    rw [List.append_assoc, List.append_assoc]
    exact List.perm_append_comm.append_left _
  | right _ x ih =>
    rw [← List.append_assoc]
    exact ih.append_right [x]

theorem mem_iff (h : Interleaving l a b) {x : α} : x ∈ l ↔ x ∈ a ∨ x ∈ b := by
  rw [h.perm.mem_iff, List.mem_append]

/-- The entries with a property are an interleaving of those of either list. -/
theorem filter (h : Interleaving l a b) (p : α → Bool) : Interleaving (l.filter p) (a.filter p) (b.filter p) := by
  induction h with
  | nil => exact .nil
  | left _ x ih =>
    rw [List.filter_append, List.filter_append]
    cases hp : p x with
    | false => simpa [hp] using ih
    | true => simpa [hp] using ih.left x
  | right _ x ih =>
    rw [List.filter_append, List.filter_append]
    cases hp : p x with
    | false => simpa [hp] using ih
    | true => simpa [hp] using ih.right x

/-- One of the two appended nothing. -/
theorem eq_left (h : Interleaving l a []) : l = a := by
  generalize hb : ([] : List α) = b at h
  induction h with
  | nil => rfl
  | left _ x ih => rw [ih hb]
  | right _ x _ => exact absurd hb.symm (List.append_ne_nil_of_right_ne_nil _ (List.cons_ne_nil _ _))

/-- The entries with a property that one list has alone stand in its order. -/
theorem filter_eq (h : Interleaving l a b) {p : α → Bool} (hb : ∀ x ∈ b, p x = false) : l.filter p = a.filter p := by
  have hnone : b.filter p = [] := List.filter_eq_nil_iff.2 fun x hx => by simp [hb x hx]
  have hf := h.filter p
  rw [hnone] at hf
  exact hf.eq_left

end Interleaving
