import TradeSurveillance.Lib.StableSort
import Mathlib.Data.List.Nodup

/-!
# Life cycles in a stream

An element of a stream may open a key, and may end one. In a stream of life cycles no key is opened twice or ended twice, and what ends
a key comes after what opened it and is related to that. Streams of life cycles with different keys may be merged in any way
(`LifeCycle.merge`), and may be sorted by times that grow from the opening to the end (`LifeCycle.sort`).
-/

variable {α β K : Type*}

section Pairs

variable {pre post : List α} {a b : α}

/-- What comes before an element is on the left of it. -/
theorem mem_left_of_sublist (hb : b ∉ post) (h : [a, b].Sublist (pre ++ b :: post)) : a ∈ pre := by
  obtain ⟨l₁, l₂, heq, h₁, h₂⟩ := List.sublist_append_iff.1 h
  cases l₁ with
  | nil =>
    -- the pair would be in `b :: post`, so its second element in `post`
    rw [List.nil_append] at heq
    rw [← heq] at h₂
    exact absurd (h₂.tail.subset List.mem_cons_self) hb
  | cons c l₁ =>
    obtain ⟨rfl, -⟩ := List.cons.inj heq
    exact h₁.subset List.mem_cons_self

/-- What comes after it is not. -/
theorem not_mem_left_of_sublist (hnodup : (pre ++ b :: post).Nodup) (h : [b, a].Sublist (pre ++ b :: post)) : a ∉ pre ++ [b] := by
  intro ha
  rcases List.mem_append.1 ha with ha | ha
  · rw [List.nodup_append] at hnodup
    have hb : b ∉ pre := fun hb => hnodup.2.2 b hb b List.mem_cons_self rfl
    obtain ⟨l₁, l₂, heq, h₁, h₂⟩ := List.sublist_append_iff.1 h
    cases l₁ with
    | nil =>
      rw [List.nil_append] at heq
      rw [← heq] at h₂
      exact hnodup.2.2 a ha a (h₂.subset (List.mem_cons_of_mem _ List.mem_cons_self)) rfl
    | cons c l₁ =>
      obtain ⟨rfl, -⟩ := List.cons.inj heq
      exact hb (h₁.subset List.mem_cons_self)
  · rw [List.mem_singleton.1 ha] at h
    exact List.nodup_iff_sublist.1 hnodup b h

end Pairs

structure LifeCycle (opens ends : α → Option K) (R : α → α → Prop) (l : List α) : Prop where
  openedOnce : (l.filterMap opens).Nodup
  endedOnce : (l.filterMap ends).Nodup
  caused : ∀ e ∈ l, ∀ k, ends e = some k → ∃ n, opens n = some k ∧ R n e ∧ [n, e].Sublist l

namespace LifeCycle

variable {opens ends : α → Option K} {R : α → α → Prop} {l m u pre post : List α} {n e : α} {k : K}

/-! ## Building streams -/

theorem nil : LifeCycle opens ends R [] where
  openedOnce := List.nodup_nil
  endedOnce := List.nodup_nil
  caused := fun _ he => nomatch he

/-- An element that opens a key. -/
theorem opening (hn : opens n = some k) (hends : ends n = none) : LifeCycle opens ends R [n] where
  openedOnce := by simp [hn]
  endedOnce := by simp [hends]
  caused := by
    intro e he k' hk
    rw [List.mem_singleton.1 he, hends] at hk
    nomatch hk

/-- A life cycle from the opening to the end. -/
theorem whole (hn : opens n = some k) (hends : ends n = none) (hopens : opens e = none) (he : ends e = some k) (hR : R n e) :
    LifeCycle opens ends R [n, e] where
  openedOnce := by simp [hn, hopens]
  endedOnce := by simp [hends, he]
  caused := by
    intro e' he' k' hk
    rcases List.mem_pair.1 he' with rfl | rfl
    · rw [hends] at hk
      nomatch hk
    · obtain rfl : k = k' := Option.some.inj (he.symm.trans hk)
      exact ⟨n, hn, hR, List.Sublist.refl _⟩

/-- A key that is ended was opened. -/
theorem opened_of_ended (h : LifeCycle opens ends R l) (hk : k ∈ l.filterMap ends) : k ∈ l.filterMap opens := by
  obtain ⟨e, he, hek⟩ := List.mem_filterMap.1 hk
  obtain ⟨n, hn, -, hsub⟩ := h.caused e he k hek
  exact List.mem_filterMap.2 ⟨n, hsub.subset List.mem_cons_self, hn⟩

/-- Two streams without a common key, interleaved in any way. -/
theorem merge (hl : LifeCycle opens ends R l) (hm : LifeCycle opens ends R m) (hlu : l.Sublist u) (hmu : m.Sublist u)
    (hu : u.Perm (l ++ m)) (hdisjoint : ∀ k ∈ l.filterMap opens, k ∉ m.filterMap opens) : LifeCycle opens ends R u where
  openedOnce := by
    rw [(hu.filterMap opens).nodup_iff, List.filterMap_append, List.nodup_append]
    refine ⟨hl.openedOnce, hm.openedOnce, fun k hk k' hk' heq => hdisjoint k hk (heq ▸ hk')⟩
  endedOnce := by
    rw [(hu.filterMap ends).nodup_iff, List.filterMap_append, List.nodup_append]
    refine ⟨hl.endedOnce, hm.endedOnce, ?_⟩
    intro k hk k' hk' heq
    exact hdisjoint k (hl.opened_of_ended hk) (heq ▸ hm.opened_of_ended hk')
  caused := by
    intro e he k hk
    rcases List.mem_append.1 (hu.mem_iff.1 he) with he | he
    · obtain ⟨n, hn, hR, hsub⟩ := hl.caused e he k hk
      exact ⟨n, hn, hR, hsub.trans hlu⟩
    · obtain ⟨n, hn, hR, hsub⟩ := hm.caused e he k hk
      exact ⟨n, hn, hR, hsub.trans hmu⟩

/-- Another order of the stream in which no related pair is turned around. -/
theorem rearrange (h : LifeCycle opens ends R l) (hu : u.Perm l)
    (hpairs : ∀ n e, (opens n).isSome → R n e → [n, e].Sublist l → [n, e].Sublist u) : LifeCycle opens ends R u where
  openedOnce := (hu.filterMap opens).nodup_iff.2 h.openedOnce
  endedOnce := (hu.filterMap ends).nodup_iff.2 h.endedOnce
  caused := by
    intro e he k hk
    obtain ⟨n, hn, hR, hsub⟩ := h.caused e (hu.mem_iff.1 he) k hk
    exact ⟨n, hn, hR, hpairs n e (Option.isSome_of_eq_some hn) hR hsub⟩

theorem sort {T : Type*} [LinearOrder T] {time : α → T} (h : LifeCycle opens ends R l) (hR : ∀ n e, R n e → time n ≤ time e) :
    LifeCycle opens ends R (StableSort.sortBy time l) :=
  h.rearrange (StableSort.sortBy_perm time l) fun n e _ hne hsub => StableSort.sublist_sortBy time hsub (by simp [hR n e hne])

/-- The stream seen through a function. -/
theorem map {opens' ends' : β → Option K} {R' : β → β → Prop} {f : α → β} (h : LifeCycle opens ends R l)
    (hopens : ∀ a ∈ l, opens' (f a) = opens a) (hends : ∀ a ∈ l, ends' (f a) = ends a) (hR : ∀ n e, R n e → R' (f n) (f e)) :
    LifeCycle opens' ends' R' (l.map f) where
  openedOnce := by
    have heq : l.filterMap (opens' ∘ f) = l.filterMap opens := List.filterMap_congr hopens
    rw [List.filterMap_map, heq]
    exact h.openedOnce
  endedOnce := by
    have heq : l.filterMap (ends' ∘ f) = l.filterMap ends := List.filterMap_congr hends
    rw [List.filterMap_map, heq]
    exact h.endedOnce
  caused := by
    intro e he k hk
    obtain ⟨a, ha, rfl⟩ := List.mem_map.1 he
    obtain ⟨n, hn, hna, hsub⟩ := h.caused a ha k ((hends a ha).symm.trans hk)
    exact ⟨f n, (hopens n (hsub.subset List.mem_cons_self)).trans hn, hR n a hna, hsub.map f⟩

/-! ## A point of the stream -/

/-- Nothing before an end ends the key. -/
theorem not_ended_before (h : LifeCycle opens ends R (pre ++ e :: post)) (he : ends e = some k) : ∀ a ∈ pre, ends a ≠ some k := by
  intro a ha hak
  have hnodup := h.endedOnce
  rw [List.filterMap_append, List.filterMap_cons_some he, List.nodup_append] at hnodup
  exact hnodup.2.2 k (List.mem_filterMap.2 ⟨a, ha, hak⟩) k List.mem_cons_self rfl

/-- The opening is before the end. -/
theorem caused_before (h : LifeCycle opens ends R (pre ++ e :: post)) (he : ends e = some k) : ∃ n ∈ pre, opens n = some k ∧ R n e := by
  obtain ⟨n, hn, hR, hsub⟩ := h.caused e (List.mem_append_right _ List.mem_cons_self) k he
  refine ⟨n, ?_, hn, hR⟩
  have hlast : e ∉ post := by
    intro hmem
    have hnodup := h.endedOnce
    rw [List.filterMap_append, List.filterMap_cons_some he, List.nodup_append, List.nodup_cons] at hnodup
    exact hnodup.2.1.1 (List.mem_filterMap.2 ⟨e, hmem, he⟩)
  exact mem_left_of_sublist hlast hsub

/-- Nothing before an opening is about the key. -/
theorem fresh (h : LifeCycle opens ends R (pre ++ n :: post)) (hn : opens n = some k) :
    ∀ a ∈ pre, opens a ≠ some k ∧ ends a ≠ some k := by
  have hopens : ∀ a ∈ pre, opens a ≠ some k := by
    intro a ha hak
    have hnodup := h.openedOnce
    rw [List.filterMap_append, List.filterMap_cons_some hn, List.nodup_append] at hnodup
    exact hnodup.2.2 k (List.mem_filterMap.2 ⟨a, ha, hak⟩) k List.mem_cons_self rfl
  intro a ha
  refine ⟨hopens a ha, ?_⟩
  intro hak
  obtain ⟨p, q, rfl⟩ := List.append_of_mem ha
  rw [List.append_assoc, List.cons_append] at h
  obtain ⟨n', hn', hk', -⟩ := h.caused_before hak
  exact hopens n' (List.mem_append_left _ hn') hk'

/-- What comes before an opening does not end the key. -/
theorem not_ends_of_sublist (h : LifeCycle opens ends R l) (hsub : [e, n].Sublist l) (hn : opens n = some k) : ends e ≠ some k := by
  obtain ⟨p, q, rfl⟩ := List.append_of_mem (hsub.subset (List.mem_cons_of_mem _ List.mem_cons_self))
  have hlast : n ∉ q := by
    intro hmem
    have hnodup := h.openedOnce
    rw [List.filterMap_append, List.filterMap_cons_some hn, List.nodup_append, List.nodup_cons] at hnodup
    exact hnodup.2.1.1 (List.mem_filterMap.2 ⟨n, hmem, hn⟩)
  exact (h.fresh hn e (mem_left_of_sublist hlast hsub)).2

/-- One element ends a key. -/
theorem eq_of_ends {a b : α} (h : LifeCycle opens ends R l) (ha : a ∈ l) (hb : b ∈ l) (hak : ends a = some k) (hbk : ends b = some k) :
    a = b := by
  obtain ⟨p, q, rfl⟩ := List.append_of_mem ha
  rcases List.mem_append.1 hb with hb | hb
  · exact absurd hbk (h.not_ended_before hak b hb)
  · rcases List.mem_cons.1 hb with rfl | hb
    · rfl
    · obtain ⟨p', q', rfl⟩ := List.append_of_mem hb
      rw [← List.cons_append, ← List.append_assoc] at h
      exact absurd hak (h.not_ended_before hbk a (List.mem_append_right _ List.mem_cons_self))

/-- A stream of openings and ends has no element twice. -/
theorem nodup (h : LifeCycle opens ends R l) (hkey : ∀ a ∈ l, (∃ k, opens a = some k) ∨ ∃ k, ends a = some k) : l.Nodup := by
  refine List.nodup_iff_sublist.2 fun a hsub => ?_
  rcases hkey a (hsub.subset List.mem_cons_self) with ⟨k, hk⟩ | ⟨k, hk⟩
  · have hpair := hsub.filterMap opens
    rw [List.filterMap_cons_some hk, List.filterMap_cons_some hk] at hpair
    exact List.nodup_iff_sublist.1 h.openedOnce k hpair
  · have hpair := hsub.filterMap ends
    rw [List.filterMap_cons_some hk, List.filterMap_cons_some hk] at hpair
    exact List.nodup_iff_sublist.1 h.endedOnce k hpair

end LifeCycle
