import Mathlib.Algebra.BigOperators.Group.List.Basic
import Mathlib.Algebra.CharZero.Defs
import Mathlib.Algebra.Order.BigOperators.Group.List
import Mathlib.Tactic.FieldSimp
import Mathlib.Tactic.Ring

/-!
# The average of a list and the squares of the deviations from it

How both change with one value more: the average moves by a part of the new deviation, and the squares grow by the product of the
deviations from the old and from the new average.
-/

namespace Moments

section Field

variable {F : Type*} [Field F]

/-- The average; that of no values is `0`. -/
def average (xs : List F) : F := xs.sum / xs.length

/-- The sum of the squares of the deviations from the average. -/
def squares (xs : List F) : F := (xs.map fun x => (x - average xs) ^ 2).sum

/-- The average of nothing is zero. -/
theorem average_nil : average ([] : List F) = 0 := by simp [average]

/-- So is the sum of squares. -/
theorem squares_nil : squares ([] : List F) = 0 := rfl

/-- The average does not depend on the order. -/
theorem average_perm {xs ys : List F} (h : xs.Perm ys) : average xs = average ys := by
  rw [average, average, h.sum_eq, h.length_eq]

/-- Nor does the sum of squares. -/
theorem squares_perm {xs ys : List F} (h : xs.Perm ys) : squares xs = squares ys := by
  rw [squares, squares, average_perm h]
  exact (h.map _).sum_eq

/-- The squares of the deviations from one number, by those from another. -/
theorem sum_sq_sub (xs : List F) (a m : F) : (xs.map fun x => (x - m) ^ 2).sum =
    (xs.map fun x => (x - a) ^ 2).sum + 2 * (a - m) * (xs.sum - xs.length * a) + xs.length * (a - m) ^ 2 := by
  induction xs with
  | nil => simp
  | cons x xs ih =>
    simp only [List.map_cons, List.sum_cons, List.length_cons, ih]
    push_cast
    ring

variable [CharZero F]

/-- The average times the number is the sum. -/
theorem length_mul_average (xs : List F) : xs.length * average xs = xs.sum := by
  cases xs with
  | nil => simp
  | cons x xs => exact mul_div_cancel₀ _ (Nat.cast_ne_zero.2 (Nat.succ_ne_zero _))

/-- The deviations from the average cancel, so that from any other number the squares are greater. -/
theorem sum_sq_sub_eq (xs : List F) (m : F) :
    (xs.map fun x => (x - m) ^ 2).sum = squares xs + xs.length * (average xs - m) ^ 2 := by
  rw [sum_sq_sub xs (average xs) m, length_mul_average, sub_self, mul_zero, add_zero, squares]

/-- The average with one more number, from the one before. -/
theorem average_concat (xs : List F) (x : F) : average (xs ++ [x]) = average xs + (x - average xs) / (xs.length + 1 : ℕ) := by
  have hn : ((xs.length + 1 : ℕ) : F) ≠ 0 := Nat.cast_ne_zero.2 (Nat.succ_ne_zero _)
  have hsum := length_mul_average xs
  rw [average, List.sum_append, List.sum_singleton, List.length_append, List.length_singleton, ← hsum]
  field_simp
  push_cast
  ring

/-- The sum of squares with one more number, from the one before. -/
theorem squares_concat (xs : List F) (x : F) :
    squares (xs ++ [x]) = squares xs + (x - average xs) * (x - average (xs ++ [x])) := by
  have hn : ((xs.length + 1 : ℕ) : F) ≠ 0 := Nat.cast_ne_zero.2 (Nat.succ_ne_zero _)
  have hsplit : squares (xs ++ [x]) =
      squares xs + xs.length * (average xs - average (xs ++ [x])) ^ 2 + (x - average (xs ++ [x])) ^ 2 := by
    rw [← sum_sq_sub_eq, squares, List.map_append, List.sum_append]
    simp
  rw [hsplit, average_concat]
  push_cast at hn ⊢
  field_simp
  ring

end Field

section Ordered

variable {F : Type*} [Field F] [LinearOrder F] [IsStrictOrderedRing F]

/-- A sum of squares is not negative. -/
theorem squares_nonneg (xs : List F) : 0 ≤ squares xs := by
  refine List.sum_nonneg ?_
  intro y hy
  obtain ⟨x, -, rfl⟩ := List.mem_map.1 hy
  exact sq_nonneg _

end Ordered

end Moments
