import Mathlib.Data.List.Infix
import Mathlib.Data.List.Range

/-!
# Paging through a list

A list is read in pages of one length. The pages of a list that stays as it is make up the list (`flatMap_page`). Where it grows at the
front between two requests, an element only moves backward, so a reader who goes on to the last page has met it (`browse_complete`).
-/

namespace Paging

variable {α : Type*}

/-- The page behind the first `k`, each of length `n`. -/
def page (n k : ℕ) (l : List α) : List α := (l.drop (n * k)).take n

theorem page_map {β : Type*} (n k : ℕ) (f : α → β) (l : List α) : page n k (l.map f) = (page n k l).map f := by
  rw [page, page, List.map_take, List.map_drop]

/-- What stands between the first and the last index of a page is on it. -/
theorem mem_page {n k i : ℕ} {l : List α} {a : α} (hi : l[i]? = some a) (hfirst : n * k ≤ i) (hlast : i < n * (k + 1)) : a ∈ page n k l := by
  refine List.mem_of_getElem? (i := i - n * k) ?_
  rw [Nat.mul_succ] at hlast
  rw [page, List.getElem?_take_of_lt (by omega), List.getElem?_drop, Nat.add_sub_cancel' hfirst, hi]

/-- The first pages are the front of the list. -/
theorem flatMap_page (n m : ℕ) (l : List α) : (List.range m).flatMap (fun k => page n k l) = l.take (n * m) := by
  induction m with
  | zero => rfl
  | succ m ih =>
    rw [List.range_succ, List.flatMap_append, ih, List.flatMap_singleton, page, Nat.mul_succ, List.take_add]

/-- As many pages as the list fills are the list. -/
theorem flatMap_page_eq {n m : ℕ} {l : List α} (h : l.length ≤ n * m) : (List.range m).flatMap (fun k => page n k l) = l := by
  rw [flatMap_page, List.take_of_length_le h]

/-- An element that the pages up to now did not show stands behind them. -/
theorem shown_or_behind {n m : ℕ} {lists : ℕ → List α} (hgrows : ∀ k < m, lists k <:+ lists (k + 1)) {a : α} (ha : a ∈ lists 0) :
    (∃ k ≤ m, a ∈ page n k (lists k)) ∨ ∃ i, (lists m)[i]? = some a ∧ n * (m + 1) ≤ i := by
  induction m with
  | zero =>
    obtain ⟨i, hi⟩ := List.mem_iff_getElem?.1 ha
    rcases Nat.lt_or_ge i (n * (0 + 1)) with hlast | hbehind
    · exact .inl ⟨0, le_refl _, mem_page hi (Nat.zero_le _) hlast⟩
    · exact .inr ⟨i, hi, hbehind⟩
  | succ m ih =>
    rcases ih fun k hk => hgrows k (Nat.lt_succ_of_lt hk) with ⟨k, hk, hshown⟩ | ⟨i, hi, hbehind⟩
    · exact .inl ⟨k, Nat.le_succ_of_le hk, hshown⟩
    · -- it moved backward by what the list grew
      obtain ⟨new, hnew⟩ := hgrows m (Nat.lt_succ_self m)
      have hmoved : (lists (m + 1))[new.length + i]? = some a := by
        rw [← hnew, List.getElem?_append_right (Nat.le_add_right _ _), Nat.add_sub_cancel_left, hi]
      have hfirst : n * (m + 1) ≤ new.length + i := hbehind.trans (Nat.le_add_left _ _)
      rcases Nat.lt_or_ge (new.length + i) (n * (m + 1 + 1)) with hlast | hbehind
      · exact .inl ⟨m + 1, le_refl _, mem_page hmoved hfirst hlast⟩
      · exact .inr ⟨new.length + i, hmoved, hbehind⟩

/-- Who reads page by page up to the last has met every element that was there at first. -/
theorem browse_complete {n m : ℕ} {lists : ℕ → List α} (hgrows : ∀ k < m, lists k <:+ lists (k + 1))
    (hlast : (lists m).length ≤ n * (m + 1)) {a : α} (ha : a ∈ lists 0) : ∃ k ≤ m, a ∈ page n k (lists k) := by
  rcases shown_or_behind (n := n) hgrows ha with hshown | ⟨i, hi, hbehind⟩
  · exact hshown
  · obtain ⟨hlt, -⟩ := List.getElem?_eq_some_iff.1 hi
    omega

end Paging
