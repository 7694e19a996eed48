import Mathlib.Data.Finset.Card
import Mathlib.Logic.Function.Basic
import Mathlib.Logic.Relation

/-!
# Forests of parents, and the partition they stand for

A disjoint-set forest without ranks: every element that is not a root has a parent. `Represents` says that the parents lead from every
element to its representative; compressing a path keeps the representatives, and linking two roots merges two classes. `Classes` says
that two elements have one representative exactly when a relation connects them; a merge adds the pair to the relation.
-/

namespace Forest

variable {α : Type*}

/-- From an element the parents lead to a root in so many steps. -/
inductive Climbs (parent : α → Option α) : ℕ → α → α → Prop where
  | root {a : α} : parent a = none → Climbs parent 0 a a
  | step {a b r : α} {n : ℕ} : parent a = some b → Climbs parent n b r → Climbs parent (n + 1) a r

variable {parent : α → Option α} {rep : α → α} {a b r r' x y : α} {n m : ℕ}

namespace Climbs

/-- The climb ends at a root. -/
theorem parent_root (h : Climbs parent n a r) : parent r = none := by
  induction h with
  | root h => exact h
  | step _ _ ih => exact ih

/-- The climb has one length and one root. -/
theorem unique (h : Climbs parent n a r) (h' : Climbs parent m a r') : n = m ∧ r = r' := by
  induction h generalizing m with
  | root hroot =>
    cases h' with
    | root _ => exact ⟨rfl, rfl⟩
    | step hstep _ => simp [hroot] at hstep
  | step hstep _ ih =>
    cases h' with
    | root hroot => simp [hroot] at hstep
    | step hstep' hrest =>
      obtain rfl : _ = _ := Option.some.inj (hstep.symm.trans hstep')
      obtain ⟨rfl, rfl⟩ := ih hrest
      exact ⟨rfl, rfl⟩

/-- The elements passed on the way are that many: they are at different distances from the root. -/
theorem exists_path [DecidableEq α] (h : Climbs parent n a r) :
    ∃ S : Finset α, S.card = n ∧ ∀ x ∈ S, (parent x).isSome ∧ ∃ k ≤ n, Climbs parent k x r := by
  induction h with
  | root _ => exact ⟨∅, rfl, fun x hx => absurd hx (Finset.notMem_empty x)⟩
  | @step a b r n hstep hrest ih =>
    obtain ⟨S, hcard, hS⟩ := ih
    have ha : a ∉ S := by
      intro hmem
      obtain ⟨-, k, hk, hclimb⟩ := hS a hmem
      have hlen := (hclimb.unique (.step hstep hrest)).1
      omega
    refine ⟨insert a S, by rw [Finset.card_insert_of_notMem ha, hcard], ?_⟩
    intro x hx
    rcases Finset.mem_insert.1 hx with rfl | hx
    · exact ⟨by rw [hstep]; rfl, n + 1, le_refl _, .step hstep hrest⟩
    · obtain ⟨hx', k, hk, hclimb⟩ := hS x hx
      exact ⟨hx', k, Nat.le_succ_of_le hk, hclimb⟩

/-- The climb is no longer than there are elements with a parent. -/
theorem le_card [DecidableEq α] (h : Climbs parent n a r) {keys : Finset α} (hkeys : ∀ x, (parent x).isSome → x ∈ keys) :
    n ≤ keys.card := by
  obtain ⟨S, rfl, hS⟩ := h.exists_path
  exact Finset.card_le_card fun x hx => hkeys x (hS x hx).1

end Climbs

/-! ## Representatives -/

/-- The parents lead from every element to its representative. -/
def Represents (parent : α → Option α) (rep : α → α) : Prop := ∀ a, ∃ n, Climbs parent n a (rep a)

/-- Every element from which `x` is represented gets the representative of `y`. -/
def merge [DecidableEq α] (rep : α → α) (x y z : α) : α := if rep z = rep x then rep y else rep z

namespace Represents

/-- The representative is a root. -/
theorem parent_rep (h : Represents parent rep) (a : α) : parent (rep a) = none := (h a).choose_spec.parent_root

/-- The climb ends at the representative. -/
theorem eq_rep (h : Represents parent rep) (hc : Climbs parent n a r) : r = rep a := (hc.unique (h a).choose_spec).2

/-- Who is passed on the way is further from the root than what comes next. -/
theorem climbs_of_transGen (h : Represents parent rep) (hab : Relation.TransGen (fun x y => parent x = some y) a b)
    (hb : Climbs parent n b (rep b)) : ∃ m > n, Climbs parent m a (rep a) := by
  induction hab using Relation.TransGen.head_induction_on with
  | single hstep =>
    have hclimb := Climbs.step hstep hb
    exact ⟨n + 1, Nat.lt_succ_self n, h.eq_rep hclimb ▸ hclimb⟩
  | head hstep _ ih =>
    obtain ⟨m, hm, hclimb⟩ := ih
    have hclimb' := Climbs.step hstep hclimb
    exact ⟨m + 1, Nat.lt_succ_of_lt hm, h.eq_rep hclimb' ▸ hclimb'⟩

/-- The parents lead nowhere in a circle. -/
theorem acyclic (h : Represents parent rep) (a : α) : ¬Relation.TransGen (fun x y => parent x = some y) a a := by
  intro hcycle
  obtain ⟨n, hn⟩ := h a
  obtain ⟨m, hm, hclimb⟩ := h.climbs_of_transGen hcycle hn
  exact absurd (hn.unique hclimb).1 (Nat.ne_of_lt hm)

/-- A root represents itself. -/
theorem rep_of_root (h : Represents parent rep) (ha : parent a = none) : rep a = a := (h.eq_rep (.root ha)).symm

/-- An element and its parent have one representative. -/
theorem rep_of_step (h : Represents parent rep) (ha : parent a = some b) : rep a = rep b := by
  obtain ⟨n, hn⟩ := h b
  exact (h.eq_rep (.step ha hn)).symm

variable [DecidableEq α]

/-- An element may point to its representative at once. -/
theorem compress (h : Represents parent rep) (ha : rep a ≠ a) : Represents (Function.update parent a (some (rep a))) rep := by
  intro x
  obtain ⟨n, hn⟩ := h x
  generalize hr : rep x = r at hn
  induction hn with
  | root hroot =>
    refine ⟨0, .root ?_⟩
    rwa [Function.update_of_ne]
    rintro rfl
    exact ha hr
  | @step z b r n hstep hrest ih =>
    by_cases hz : z = a
    · subst hz
      rw [← hr]
      refine ⟨1, .step (Function.update_self ..) (.root ?_)⟩
      rw [Function.update_of_ne ha]
      exact h.parent_rep z
    · obtain ⟨k, hk⟩ := ih ((h.rep_of_step hstep).symm.trans hr)
      exact ⟨k + 1, .step (by rwa [Function.update_of_ne hz]) hk⟩

/-- A root may point to another root. -/
theorem link (h : Represents parent rep) (hne : rep x ≠ rep y) :
    Represents (Function.update parent (rep x) (some (rep y))) (merge rep x y) := by
  have hy : Climbs (Function.update parent (rep x) (some (rep y))) 0 (rep y) (rep y) := by
    refine .root ?_
    rw [Function.update_of_ne hne.symm]
    exact h.parent_rep y
  intro z
  obtain ⟨n, hn⟩ := h z
  generalize hr : rep z = r at hn
  induction hn with
  | @root z hroot =>
    by_cases hz : z = rep x
    · refine ⟨1, ?_⟩
      rw [merge, if_pos (hr.trans hz), hz]
      exact .step (Function.update_self ..) hy
    · refine ⟨0, ?_⟩
      rw [merge, hr, if_neg hz]
      exact .root (by rwa [Function.update_of_ne hz])
  | @step z b r n hstep hrest ih =>
    have hb := h.rep_of_step hstep
    obtain ⟨k, hk⟩ := ih (hb.symm.trans hr)
    have hz : z ≠ rep x := by
      rintro rfl
      simp [h.parent_rep] at hstep
    have hmerge : merge rep x y z = merge rep x y b := by rw [merge, merge, hb]
    exact ⟨k + 1, .step (by rwa [Function.update_of_ne hz]) (hmerge ▸ hk)⟩

end Represents

/-! ## Classes -/

/-- Two elements have one representative exactly when the relation connects them. -/
def Classes (rep : α → α) (E : α → α → Prop) : Prop := ∀ a b, rep a = rep b ↔ Relation.EqvGen E a b

/-- Merging trees that are one changes nothing. -/
theorem merge_of_eq [DecidableEq α] (h : rep x = rep y) : merge rep x y = rep := by
  funext z
  rw [merge, ← h, ite_eq_right_iff]
  exact Eq.symm

namespace Classes

variable {E E' : α → α → Prop}

/-- A relation and another that connect the same elements have the same classes. -/
theorem congr (h : Classes rep E) (hE : ∀ a b, E a b → Relation.EqvGen E' a b) (hE' : ∀ a b, E' a b → Relation.EqvGen E a b) :
    Classes rep E' := by
  intro a b
  rw [h a b]
  exact ⟨Relation.EqvGen.eqvGen_le hE a b, Relation.EqvGen.eqvGen_le hE' a b⟩

/-- A merge connects what it merges, and nothing else. -/
theorem merge [DecidableEq α] (h : Classes rep E) (x y : α) : Classes (merge rep x y) fun a b => E a b ∨ (a = x ∧ b = y) := by
  have hold : ∀ {a b}, rep a = rep b → Relation.EqvGen (fun a b => E a b ∨ (a = x ∧ b = y)) a b := fun hab =>
    Relation.EqvGen.mono (fun _ _ => Or.inl) _ _ ((h _ _).1 hab)
  have hnew : Relation.EqvGen (fun a b => E a b ∨ (a = x ∧ b = y)) x y := .rel _ _ (.inr ⟨rfl, rfl⟩)
  have hof : ∀ {a b}, rep a = rep b → Forest.merge rep x y a = Forest.merge rep x y b := by
    intro a b hab
    rw [Forest.merge, Forest.merge, hab]
  intro a b
  constructor
  · intro hab
    unfold Forest.merge at hab
    split_ifs at hab with hax hbx hbx
    · exact hold (hax.trans hbx.symm)
    · exact .trans _ _ _ (hold hax) (.trans _ _ _ hnew (hold hab))
    · exact .trans _ _ _ (hold hab) (.trans _ _ _ (.symm _ _ hnew) (.symm _ _ (hold hbx)))
    · exact hold hab
  · intro hab
    induction hab with
    | rel a b hab =>
      rcases hab with hab | ⟨rfl, rfl⟩
      · exact hof ((h a b).2 (.rel a b hab))
      · unfold Forest.merge
        rw [if_pos rfl, ite_self]
    | refl a => rfl
    | symm a b _ ih => exact ih.symm
    | trans a b c _ _ ih₁ ih₂ => exact ih₁.trans ih₂

end Classes

end Forest
