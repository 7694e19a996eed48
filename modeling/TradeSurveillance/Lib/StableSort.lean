import Mathlib.Data.List.Sort

/-!
# Stable sorting by a key

A stable sort puts a list in the order of its keys and leaves elements with one key in the order they were in. There is one result, so
insertion gives what every such sort does.
-/

namespace StableSort

variable {α K : Type*} [LinearOrder K]

/-- Sort by a key. -/
def sortBy (key : α → K) (l : List α) : List α := l.insertionSort fun a b => key a ≤ key b

variable (key : α → K)

theorem sortBy_perm (l : List α) : (sortBy key l).Perm l := List.perm_insertionSort _ l

@[simp] theorem mem_sortBy {l : List α} {a : α} : a ∈ sortBy key l ↔ a ∈ l := List.mem_insertionSort _

@[simp] theorem length_sortBy (l : List α) : (sortBy key l).length = l.length := List.length_insertionSort _ l

/-- The result is in the order of the keys. -/
theorem sortBy_pairwise (l : List α) : (sortBy key l).Pairwise fun a b => key a ≤ key b := by
  have : Std.Total fun a b : α => key a ≤ key b := ⟨fun a b => le_total (key a) (key b)⟩
  have : IsTrans α fun a b => key a ≤ key b := ⟨fun a b c => le_trans⟩
  exact List.pairwise_insertionSort _ l

/-- What was in the order of the keys is still in the order it was in. -/
theorem sublist_sortBy {l c : List α} (hc : c.Sublist l) (hkey : c.Pairwise fun a b => key a ≤ key b) :
    c.Sublist (sortBy key l) := by
  have : Std.Total fun a b : α => key a ≤ key b := ⟨fun a b => le_total (key a) (key b)⟩
  have : IsTrans α fun a b => key a ≤ key b := ⟨fun a b c => le_trans⟩
  exact List.sublist_insertionSort hkey hc

/-- Of two elements the one with the lesser key comes first. -/
theorem pair_sublist_sortBy {l : List α} {a b : α} (ha : a ∈ l) (hb : b ∈ l) (hlt : key a < key b) : [a, b].Sublist (sortBy key l) := by
  obtain ⟨p, q, hsplit⟩ := List.append_of_mem ((mem_sortBy key).2 hb)
  have hsorted := sortBy_pairwise key l
  have ha := (mem_sortBy key).2 ha
  rw [hsplit] at ha hsorted ⊢
  have hright := (List.pairwise_cons.1 (List.pairwise_append.1 hsorted).2.1).1
  rcases List.mem_append.1 ha with ha | ha
  · exact (List.singleton_sublist.2 ha).append (List.singleton_sublist.2 List.mem_cons_self)
  · rcases List.mem_cons.1 ha with rfl | ha
    · exact absurd hlt (lt_irrefl _)
    · exact absurd (hright a ha) (not_le.2 hlt)

/-- Sorting two parts of a list first. -/
theorem sublist_sortBy_append {l m c : List α} (hc : c.Sublist (l ++ m)) (hkey : c.Pairwise fun a b => key a ≤ key b) :
    c.Sublist (sortBy key l ++ sortBy key m) := by
  obtain ⟨c₁, c₂, rfl, h₁, h₂⟩ := List.sublist_append_iff.1 hc
  rw [List.pairwise_append] at hkey
  exact (sublist_sortBy key h₁ hkey.1).append (sublist_sortBy key h₂ hkey.2.1)

/-- Sorting the images of a function. -/
theorem sortBy_map {β : Type*} (f : β → α) (l : List β) : sortBy key (l.map f) = (sortBy (fun b => key (f b)) l).map f :=
  (List.map_insertionSort _ _ f l fun _ _ _ _ => Iff.rfl).symm

end StableSort
