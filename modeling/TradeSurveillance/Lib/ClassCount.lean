import Mathlib.Data.Finmap

/-!
# Counting the entries of a map by class

The values of a finite map fall into classes. `count` is the number of entries of a class; an entry that comes or goes changes the
count of its own class by one and no other. The classes may be lumped together: the count of a lump is at least that of any two of them.
-/

namespace ClassCount

variable {K V C D : Type*} [DecidableEq K] [DecidableEq C] [DecidableEq D]

/-- The keys whose values are in a class. -/
def keysIn (cls : V → C) (m : Finmap fun _ : K => V) (c : C) : Finset K := m.keys.filter fun k => (m.lookup k).map cls = some c

/-- The number of entries of a class. -/
def count (cls : V → C) (m : Finmap fun _ : K => V) (c : C) : ℕ := (keysIn cls m c).card

variable {cls : V → C} {m : Finmap fun _ : K => V} {k : K} {v v' : V} {c c' : C}

/-- A key is in a class when its value is. -/
theorem mem_keysIn : k ∈ keysIn cls m c ↔ (m.lookup k).map cls = some c := by
  rw [keysIn, Finset.mem_filter, Finmap.mem_keys, and_iff_right_of_imp]
  intro h
  obtain ⟨v, hv, -⟩ := Option.map_eq_some_iff.1 h
  exact Finmap.mem_of_lookup_eq_some hv

theorem count_empty (cls : V → C) (c : C) : count cls (∅ : Finmap fun _ : K => V) c = 0 := by
  rw [count, Finset.card_eq_zero, Finset.eq_empty_iff_forall_notMem]
  intro k hk
  rw [mem_keysIn, Finmap.lookup_empty] at hk
  cases hk

/-- An entry counts for its class. -/
theorem count_pos (cls : V → C) (h : m.lookup k = some v) : 0 < count cls m (cls v) :=
  Finset.card_pos.2 ⟨k, mem_keysIn.2 (by rw [h]; rfl)⟩

/-- Erasing a key takes it out of its class. -/
theorem keysIn_erase (k : K) (c : C) : keysIn cls (m.erase k) c = (keysIn cls m c).erase k := by
  ext k'
  rw [Finset.mem_erase, mem_keysIn, mem_keysIn]
  by_cases hk : k' = k
  · subst hk
    simp [Finmap.lookup_erase]
  · rw [Finmap.lookup_erase_ne hk, and_iff_right hk]

/-- Inserting a value puts its key into the value's class and takes it out of any other. -/
theorem keysIn_insert (k : K) (v : V) (c : C) :
    keysIn cls (m.insert k v) c = if cls v = c then insert k (keysIn cls m c) else (keysIn cls m c).erase k := by
  ext k'
  rw [mem_keysIn]
  by_cases hk : k' = k
  · subst hk
    rw [Finmap.lookup_insert, Option.map_some, Option.some.injEq]
    split_ifs with hc
    · exact iff_of_true hc (Finset.mem_insert_self ..)
    · exact iff_of_false hc fun h => (Finset.mem_erase.1 h).1 rfl
  · rw [Finmap.lookup_insert_of_ne _ hk]
    split_ifs with hc
    · rw [Finset.mem_insert, or_iff_right hk, mem_keysIn]
    · rw [Finset.mem_erase, and_iff_right hk, mem_keysIn]

/-- Erasing an entry takes one from the count of its class. -/
theorem count_erase (cls : V → C) (h : m.lookup k = some v) (c : C) :
    count cls (m.erase k) c + (if cls v = c then 1 else 0) = count cls m c := by
  rw [count, count, keysIn_erase]
  have hk : k ∈ keysIn cls m c ↔ cls v = c := by rw [mem_keysIn, h, Option.map_some, Option.some.injEq]
  split_ifs with hc
  · exact Finset.card_erase_add_one (hk.2 hc)
  · rw [Finset.erase_eq_of_notMem (mt hk.1 hc), add_zero]

/-- Inserting under a new key adds one to the count of the value's class. -/
theorem count_insert (cls : V → C) (h : m.lookup k = none) (v : V) (c : C) :
    count cls (m.insert k v) c = count cls m c + if cls v = c then 1 else 0 := by
  have hk : k ∉ keysIn cls m c := by
    rw [mem_keysIn, h]
    exact Option.not_mem_none _
  rw [count, count, keysIn_insert]
  split_ifs with hc
  · exact Finset.card_insert_of_notMem hk
  · rw [Finset.erase_eq_of_notMem hk, add_zero]

/-- An entry is overwritten. -/
theorem count_insert_of_lookup (cls : V → C) (h : m.lookup k = some v) (v' : V) (c : C) :
    count cls (m.insert k v') c + (if cls v = c then 1 else 0) = count cls m c + if cls v' = c then 1 else 0 := by
  have herase := count_erase cls h c
  have hinsert := count_insert cls (Finmap.lookup_erase (a := k) (s := m)) v' c
  have hover : (m.erase k).insert k v' = m.insert k v' := by
    refine Finmap.ext_lookup ?_
    intro k'
    by_cases hk : k' = k
    · rw [hk, Finmap.lookup_insert, Finmap.lookup_insert]
    · rw [Finmap.lookup_insert_of_ne _ hk, Finmap.lookup_insert_of_ne _ hk, Finmap.lookup_erase_ne hk]
  rw [hover] at hinsert
  omega

/-- An entry is overwritten by one of its class. -/
theorem count_insert_of_class (cls : V → C) (h : m.lookup k = some v) (hcls : cls v' = cls v) (c : C) :
    count cls (m.insert k v') c = count cls m c := by
  have hover := count_insert_of_lookup cls h v' c
  rw [hcls] at hover
  omega

/-- Two classes of one lump. -/
theorem count_add_le (cls : V → C) (m : Finmap fun _ : K => V) (lump : C → D) (hne : c ≠ c') (h : lump c = lump c') :
    count cls m c + count cls m c' ≤ count (lump ∘ cls) m (lump c) := by
  have hsub : ∀ {c''}, lump c'' = lump c → keysIn cls m c'' ⊆ keysIn (lump ∘ cls) m (lump c) := by
    intro c'' hc k hk
    rw [mem_keysIn] at hk ⊢
    obtain ⟨v, hv, hvc⟩ := Option.map_eq_some_iff.1 hk
    rw [hv, Option.map_some, Function.comp_apply, hvc, hc]
  have hdisjoint : Disjoint (keysIn cls m c) (keysIn cls m c') := by
    refine Finset.disjoint_left.2 fun k hk hk' => hne ?_
    rw [mem_keysIn] at hk hk'
    exact Option.some.inj (hk.symm.trans hk')
  rw [count, count, count, ← Finset.card_union_of_disjoint hdisjoint]
  exact Finset.card_le_card (Finset.union_subset (hsub rfl) (hsub h.symm))

end ClassCount
