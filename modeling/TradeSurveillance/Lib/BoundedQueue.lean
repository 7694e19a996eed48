import Mathlib.Algebra.GroupWithZero.Nat
import Mathlib.Data.List.Basic

/-!
# Queues that drop their oldest element

A queue of at most `capacity` elements: pushing onto a full one removes the oldest element first, and the removals are counted.
-/

/-- The elements, oldest first, and how many were removed by a push. -/
structure BoundedQueue (α : Type*) (capacity : ℕ) where
  elements : List α
  removed : ℕ
  bounded : elements.length ≤ capacity

namespace BoundedQueue

variable {α : Type*} {capacity : ℕ}

/-- The empty queue. -/
def empty : BoundedQueue α capacity := ⟨[], 0, Nat.zero_le _⟩

def Full (q : BoundedQueue α capacity) : Prop := q.elements.length = capacity

instance (q : BoundedQueue α capacity) : Decidable q.Full := inferInstanceAs (Decidable (_ = _))

theorem length_push_full [NeZero capacity] {q : BoundedQueue α capacity} (h : q.Full) (x : α) :
    (q.elements.tail ++ [x]).length ≤ capacity := by
  have hpos := Nat.pos_of_neZero capacity
  have hfull : q.elements.length = capacity := h
  rw [List.length_append, List.length_tail, List.length_singleton]
  omega

theorem length_push {q : BoundedQueue α capacity} (h : ¬q.Full) (x : α) : (q.elements ++ [x]).length ≤ capacity := by
  rw [List.length_append, List.length_singleton]
  exact Nat.lt_of_le_of_ne q.bounded h

/-- Add an element; the result says whether none was removed. -/
def push [NeZero capacity] (q : BoundedQueue α capacity) (x : α) : Bool × BoundedQueue α capacity :=
  if h : q.Full then (false, ⟨q.elements.tail ++ [x], q.removed + 1, length_push_full h x⟩)
  else (true, ⟨q.elements ++ [x], q.removed, length_push h x⟩)

theorem length_pop (q : BoundedQueue α capacity) : q.elements.tail.length ≤ capacity := by
  rw [List.length_tail]
  exact Nat.le_trans (Nat.sub_le _ 1) q.bounded

/-- Take the oldest element, if there is one. -/
def pop (q : BoundedQueue α capacity) : Option α × BoundedQueue α capacity :=
  (q.elements.head?, ⟨q.elements.tail, q.removed, length_pop q⟩)

section Push

variable [NeZero capacity] {q : BoundedQueue α capacity} (x : α)

/-- Pushing to a full queue removes the oldest element. -/
theorem push_of_full (h : q.Full) :
    (q.push x).1 = false ∧ (q.push x).2.elements = q.elements.tail ++ [x] ∧ (q.push x).2.removed = q.removed + 1 := by
  rw [push, dif_pos h]
  exact ⟨rfl, rfl, rfl⟩

/-- Pushing to any other does not. -/
theorem push_of_not_full (h : ¬q.Full) :
    (q.push x).1 = true ∧ (q.push x).2.elements = q.elements ++ [x] ∧ (q.push x).2.removed = q.removed := by
  rw [push, dif_neg h]
  exact ⟨rfl, rfl, rfl⟩

end Push

end BoundedQueue
