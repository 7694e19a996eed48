import Mathlib.Data.Finmap

/-!
# Maps with related values

Two maps are related when they have the same keys and related values under each of them. Inserting related values, erasing a key and
looking one up keep the relation, so two runs that keep their maps in step never have to be compared key by key.
-/

variable {K V V' : Type*}

/-- The same keys, and related values under each. -/
def RelatedMaps [DecidableEq K] (R : V → V' → Prop) (m : Finmap fun _ : K => V) (m' : Finmap fun _ : K => V') : Prop :=
  ∀ key, Option.Rel R (m.lookup key) (m'.lookup key)

namespace RelatedMaps

variable [DecidableEq K] {R : V → V' → Prop} {m : Finmap fun _ : K => V} {m' : Finmap fun _ : K => V'} {v : V} {v' : V'}

/-- Empty maps are related. -/
theorem empty : RelatedMaps R (∅ : Finmap fun _ : K => V) (∅ : Finmap fun _ : K => V') := by
  intro key
  rw [Finmap.lookup_empty, Finmap.lookup_empty]
  exact .none

/-- So are maps after insertions of related values. -/
theorem insert (h : RelatedMaps R m m') (hv : R v v') (key : K) : RelatedMaps R (m.insert key v) (m'.insert key v') := by
  intro other
  by_cases hkey : other = key
  · subst hkey
    rw [Finmap.lookup_insert, Finmap.lookup_insert]
    exact .some hv
  · rw [Finmap.lookup_insert_of_ne _ hkey, Finmap.lookup_insert_of_ne _ hkey]
    exact h other

/-- So are maps after an erasure. -/
theorem erase (h : RelatedMaps R m m') (key : K) : RelatedMaps R (m.erase key) (m'.erase key) := by
  intro other
  by_cases hkey : other = key
  · subst hkey
    rw [Finmap.lookup_erase, Finmap.lookup_erase]
    exact .none
  · rw [Finmap.lookup_erase_ne hkey, Finmap.lookup_erase_ne hkey]
    exact h other

/-- What is found under a key, or a default. -/
theorem getD (h : RelatedMaps R m m') {d : V} {d' : V'} (hd : R d d') (key : K) : R ((m.lookup key).getD d) ((m'.lookup key).getD d') := by
  have hkey := h key
  cases hl : m.lookup key <;> cases hl' : m'.lookup key <;> rw [hl, hl'] at hkey <;> cases hkey
  · exact hd
  · assumption

/-- Nothing is found in either map, or related values are. -/
theorem lookup_cases (h : RelatedMaps R m m') (key : K) : (m.lookup key = none ∧ m'.lookup key = none) ∨
    ∃ v v', m.lookup key = some v ∧ m'.lookup key = some v' ∧ R v v' := by
  have hkey := h key
  cases hl : m.lookup key <;> cases hl' : m'.lookup key <;> rw [hl, hl'] at hkey <;> cases hkey
  · exact .inl ⟨rfl, rfl⟩
  · exact .inr ⟨_, _, rfl, rfl, by assumption⟩

/-- Related maps have the same keys. -/
theorem keys_eq (h : RelatedMaps R m m') : m.keys = m'.keys := by
  refine Finset.ext fun key => ?_
  rw [Finmap.mem_keys, Finmap.mem_keys, Finmap.mem_iff, Finmap.mem_iff]
  rcases h.lookup_cases key with ⟨hl, hl'⟩ | ⟨v, v', hl, hl', -⟩
  · simp [hl, hl']
  · simp [hl, hl']

end RelatedMaps
