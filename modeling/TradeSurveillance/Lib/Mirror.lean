import Mathlib.Data.Set.Insert
import Mathlib.Logic.Function.Basic

/-!
# A partial function that mirrors a set of items

Items have a key and a value. A partial function from keys to values mirrors a set of items when it is defined at exactly the keys of
the set's items, with their values: then items of one key have one value. Adding an item of a new key and removing the only item of
a key are assignments to the function.
-/

variable {X K V : Type*}

/-- The function is defined at exactly the keys of the items, with their values. -/
def Mirrors (key : X → K) (value : X → V) (f : K → Option V) (M : Set X) : Prop :=
  ∀ k v, f k = some v ↔ ∃ x ∈ M, key x = k ∧ value x = v

namespace Mirrors

variable {key : X → K} {value : X → V} {f : K → Option V} {M : Set X} {x y z : X} {k : K}

theorem empty (key : X → K) (value : X → V) : Mirrors key value (fun _ => none) ∅ := by
  intro k v
  simp

theorem of_mem (h : Mirrors key value f M) (hx : x ∈ M) : f (key x) = some (value x) := (h _ _).2 ⟨x, hx, rfl, rfl⟩

/-- Items of one key have one value. -/
theorem value_eq (h : Mirrors key value f M) (hx : x ∈ M) (hy : y ∈ M) (hk : key x = key y) : value x = value y := by
  have hfx := h.of_mem hx
  rw [hk, h.of_mem hy, Option.some.injEq] at hfx
  exact hfx.symm

/-- The function is undefined at the keys of no item. -/
theorem eq_none (h : Mirrors key value f M) (hk : ∀ x ∈ M, key x ≠ k) : f k = none := by
  rw [Option.eq_none_iff_forall_ne_some]
  intro v hv
  obtain ⟨x, hx, hxk, -⟩ := (h k v).1 hv
  exact hk x hx hxk

variable [DecidableEq K]

/-- An item of a new key comes. -/
theorem insert (h : Mirrors key value f M) (hz : ∀ x ∈ M, key x ≠ key z) :
    Mirrors key value (Function.update f (key z) (some (value z))) (insert z M) := by
  intro k v
  by_cases hk : k = key z
  · rw [hk, Function.update_self, Option.some.injEq]
    constructor
    · intro hv
      exact ⟨z, Set.mem_insert _ _, rfl, hv⟩
    · rintro ⟨x, hx, hxz, hv⟩
      rcases Set.mem_insert_iff.1 hx with rfl | hx
      · exact hv
      · exact absurd hxz (hz x hx)
  · rw [Function.update_of_ne hk, h k v]
    constructor
    · rintro ⟨x, hx, hxk, hv⟩
      exact ⟨x, Set.mem_insert_of_mem _ hx, hxk, hv⟩
    · rintro ⟨x, hx, hxk, hv⟩
      rcases Set.mem_insert_iff.1 hx with rfl | hx
      · exact absurd hxk.symm hk
      · exact ⟨x, hx, hxk, hv⟩

/-- The only item of a key goes. -/
theorem remove (h : Mirrors key value f M) (hu : ∀ y ∈ M, key y = key x → y = x) :
    Mirrors key value (Function.update f (key x) none) (M \ {x}) := by
  intro k v
  by_cases hk : k = key x
  · rw [hk, Function.update_self]
    constructor
    · intro hv
      nomatch hv
    · rintro ⟨y, hy, hyk, -⟩
      exact absurd (hu y hy.1 hyk) hy.2
  · rw [Function.update_of_ne hk, h k v]
    constructor
    · rintro ⟨y, hy, hyk, hv⟩
      exact ⟨y, ⟨hy, fun hyx => hk (by rw [← hyk, hyx])⟩, hyk, hv⟩
    · rintro ⟨y, hy, hyk, hv⟩
      exact ⟨y, hy.1, hyk, hv⟩

/-- Undefining the function where it is undefined. -/
theorem remove_absent (h : Mirrors key value f M) (hk : ∀ x ∈ M, key x ≠ k) : Mirrors key value (Function.update f k none) M := by
  rw [← h.eq_none hk, Function.update_eq_self]
  exact h

end Mirrors
