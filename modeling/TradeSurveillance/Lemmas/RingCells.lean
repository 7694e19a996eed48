import TradeSurveillance.Ingestion.RingBuffer
import TradeSurveillance.Lib.Counter

/-!
# The cells of the ring, in exact counts

`CellsOk k cells published H held` says what the `2 ^ k` cells hold when the elements `published` were published, the first
`H` of them were claimed, and each thread `t` holds the cell of the claimed index `held t` that it has not released yet. The
operations of the two threads on the cells are five: claim the front, move an element out, release a cell, write an element
and publish it; each has one lemma here.
-/

namespace TradeSurveillance

open Counter

/-- The counter of an exact count. -/
abbrev word (n : ℕ) : Word := BitVec.ofNat 64 n

/-- What the cells hold. -/
structure CellsOk {α : Type} (k : ℕ) (cells : Word → Cell α) (published : List α) (H : ℕ)
    (held : Thread → Option ℕ) : Prop where
  claimed_le : H ≤ published.length
  room : published.length ≤ H + 2 ^ k
  held_lt : ∀ t i, held t = some i → i < H
  held_room : ∀ t i, held t = some i → published.length ≤ i + 2 ^ k
  held_ne : ∀ i, held .producer = some i → held .consumer ≠ some i
  unclaimed : ∀ i, H ≤ i → i < published.length → (cells (slot 64 k i)).sequence = word (i + 1)
  unclaimed_data : ∀ i, H ≤ i → i < published.length → published[i]? = some (cells (slot 64 k i)).data
  held_seq : ∀ t i, held t = some i → (cells (slot 64 k i)).sequence = word (i + 1)
  vacant : ∀ j, published.length ≤ j → j < H + 2 ^ k → (∀ t i, held t = some i → i + 2 ^ k ≠ j) →
    (cells (slot 64 k j)).sequence = word j

namespace CellsOk

variable {α : Type} {k H g : ℕ} {cells : Word → Cell α} {published : List α} {held : Thread → Option ℕ} {t : Thread}

/-- The cells of a new buffer. -/
theorem init (d : α) : CellsOk k (fun i : Word => (⟨i, d⟩ : Cell α)) [] 0 (fun _ => none) where
  claimed_le := Nat.le_refl 0
  room := by simp
  held_lt := by simp
  held_room := by simp
  held_ne := by simp
  unclaimed := by simp
  unclaimed_data := by simp
  held_seq := by simp
  vacant := by
    intro j _ hj _
    rw [slot, Nat.mod_eq_of_lt (by omega)]

/-- Indices held by two threads are different. -/
theorem held_inj (h : CellsOk k cells published H held) {t' : Thread} {i j : ℕ} (hi : held t = some i)
    (hj : held t' = some j) (hne : t ≠ t') : i ≠ j := by
  intro hij
  subst hij
  cases t <;> cases t'
  · exact hne rfl
  · exact h.held_ne i hi hj
  · exact h.held_ne i hj hi
  · exact hne rfl

/-! ## What a thread reads in a cell -/

/-- A cell is vacated for an index still to be published, or published for one that is not released. -/
theorem sequence_cases (h : CellsOk k cells published H held) (p : ℕ) :
    (∃ j, published.length ≤ j ∧ j < H + 2 ^ k ∧ (∀ t i, held t = some i → i + 2 ^ k ≠ j) ∧ j % 2 ^ k = p % 2 ^ k ∧
        (cells (slot 64 k p)).sequence = word j) ∨
      ∃ i, i < published.length ∧ published.length ≤ i + 2 ^ k ∧ (H ≤ i ∨ ∃ t, held t = some i) ∧
        i % 2 ^ k = p % 2 ^ k ∧ (cells (slot 64 k p)).sequence = word (i + 1) := by
  have hpos := Nat.two_pow_pos k
  -- the index of this cell in the window of the next `2 ^ k` indices to be published
  obtain ⟨j, hj1, hj2, hjp⟩ : ∃ j, published.length ≤ j ∧ j < published.length + 2 ^ k ∧ j % 2 ^ k = p % 2 ^ k := by
    refine ⟨published.length + (p + 2 ^ k * published.length - published.length) % 2 ^ k, by omega, ?_, ?_⟩
    · have := Nat.mod_lt (p + 2 ^ k * published.length - published.length) hpos
      omega
    · have hle : published.length ≤ 2 ^ k * published.length := Nat.le_mul_of_pos_left _ hpos
      rw [Nat.add_mod_mod, show published.length + (p + 2 ^ k * published.length - published.length) =
        p + 2 ^ k * published.length by omega, Nat.add_mul_mod_self_left]
  have hslot : slot 64 k p = slot 64 k j := by rw [slot, slot, hjp]
  rw [hslot]
  by_cases hv : j < H + 2 ^ k ∧ ∀ t i, held t = some i → i + 2 ^ k ≠ j
  · exact Or.inl ⟨j, hj1, hv.1, hv.2, hjp, h.vacant j hj1 hv.1 hv.2⟩
  · right
    by_cases hlt : j < H + 2 ^ k
    · obtain ⟨t, i, hi, rfl⟩ : ∃ t i, held t = some i ∧ i + 2 ^ k = j := by
        by_contra hn
        exact hv ⟨hlt, fun t i hi hij => hn ⟨t, i, hi, hij⟩⟩
      refine ⟨i, by omega, by omega, Or.inr ⟨t, hi⟩, ?_, ?_⟩
      · rw [← hjp, Nat.add_mod_right]
      · rw [slot_add_turn]
        exact h.held_seq t i hi
    · obtain ⟨i, rfl⟩ : ∃ i, i + 2 ^ k = j := ⟨j - 2 ^ k, by omega⟩
      refine ⟨i, by omega, by omega, Or.inl (by omega), ?_, ?_⟩
      · rw [← hjp, Nat.add_mod_right]
      · rw [slot_add_turn]
        exact h.unclaimed i (by omega) (by omega)

/-- A thread that reads a cell as published for its position reads the number of an element that is not released, and whose
index agrees with the position modulo `2 ^ 64`. -/
theorem of_published (h : CellsOk k cells published H held) (hk1 : 1 ≤ k) (hk : k ≤ 64) {p : ℕ}
    (hp : (cells (slot 64 k p)).sequence = word (p + 1)) :
    ∃ i, i < published.length ∧ published.length ≤ i + 2 ^ k ∧ (H ≤ i ∨ ∃ t, held t = some i) ∧ word i = word p := by
  have h2 : 2 ^ 1 ≤ 2 ^ k := Nat.pow_le_pow_right (by omega) hk1
  rcases h.sequence_cases p with ⟨j, -, -, -, hjp, hj⟩ | ⟨i, hi1, hi2, hi3, hip, hi⟩
  · have hjp' := mod_eq_of_ofNat_eq hk (hj.symm.trans hp)
    have := add_le_of_mod_eq (hjp.symm.trans hjp') (Nat.lt_succ_self p)
    omega
  · exact ⟨i, hi1, hi2, hi3, ofNat_of_succ (hi.symm.trans hp)⟩

/-- A thread that reads a cell as vacated for its position reads the number of an index still to be published, which agrees
with the position modulo `2 ^ 64`. -/
theorem of_vacant (h : CellsOk k cells published H held) (hk1 : 1 ≤ k) (hk : k ≤ 64) {p : ℕ}
    (hp : (cells (slot 64 k p)).sequence = word p) :
    ∃ j, published.length ≤ j ∧ j < H + 2 ^ k ∧ (∀ t i, held t = some i → i + 2 ^ k ≠ j) ∧ word j = word p := by
  have h2 : 2 ^ 1 ≤ 2 ^ k := Nat.pow_le_pow_right (by omega) hk1
  rcases h.sequence_cases p with ⟨j, hj1, hj2, hj3, -, hj⟩ | ⟨i, -, -, -, hip, hi⟩
  · exact ⟨j, hj1, hj2, hj3, hj.symm.trans hp⟩
  · have hip' := mod_eq_of_ofNat_eq hk (hi.symm.trans hp)
    have := add_le_of_mod_eq (hip.trans hip'.symm) (Nat.lt_succ_self i)
    omega

/-! ## The five operations -/

/-- A thread claims the front element. -/
theorem claim (h : CellsOk k cells published H held) (hlt : H < published.length) (ht : held t = none) :
    CellsOk k cells published (H + 1) (Function.update held t (some H)) where
  claimed_le := hlt
  room := by have := h.room; omega
  held_lt := by
    intro t' i hi
    by_cases htt : t' = t
    · subst htt
      simp only [Function.update_self, Option.some.injEq] at hi
      omega
    · rw [Function.update_of_ne htt] at hi
      have := h.held_lt t' i hi
      omega
  held_room := by
    intro t' i hi
    by_cases htt : t' = t
    · subst htt
      simp only [Function.update_self, Option.some.injEq] at hi
      have := h.room
      omega
    · rw [Function.update_of_ne htt] at hi
      exact h.held_room t' i hi
  held_ne := by
    intro i hp hc
    cases t
    · simp only [Function.update_self, Option.some.injEq] at hp
      rw [Function.update_of_ne (by decide)] at hc
      have := h.held_lt _ _ hc
      omega
    · simp only [Function.update_self, Option.some.injEq] at hc
      rw [Function.update_of_ne (by decide)] at hp
      have := h.held_lt _ _ hp
      omega
  unclaimed := fun i h1 h2 => h.unclaimed i (by omega) h2
  unclaimed_data := fun i h1 h2 => h.unclaimed_data i (by omega) h2
  held_seq := by
    intro t' i hi
    by_cases htt : t' = t
    · subst htt
      simp only [Function.update_self, Option.some.injEq] at hi
      subst hi
      exact h.unclaimed H (Nat.le_refl H) hlt
    · rw [Function.update_of_ne htt] at hi
      exact h.held_seq t' i hi
  vacant := by
    intro j h1 h2 h3
    have hne := h3 t H (Function.update_self t (some H) held)
    refine h.vacant j h1 (by omega) (fun t' i hi => h3 t' i ?_)
    rw [Function.update_of_ne]
    · exact hi
    · intro htt
      rw [htt, ht] at hi
      cases hi

/-- Changing the data of a cell that is not the cell of an unclaimed element leaves the cells as they should be. -/
theorem setData (h : CellsOk k cells published H held)
    (hg : ∀ i, H ≤ i → i < published.length → slot 64 k i ≠ slot 64 k g) (x : α) :
    CellsOk k (Function.update cells (slot 64 k g) { cells (slot 64 k g) with data := x }) published H held := by
  have hseq : ∀ i, (Function.update cells (slot 64 k g) { cells (slot 64 k g) with data := x } i).sequence =
      (cells i).sequence := by
    intro i
    by_cases hi : i = slot 64 k g
    · subst hi; rw [Function.update_self]
    · rw [Function.update_of_ne hi]
  refine { h with unclaimed := ?_, unclaimed_data := ?_, held_seq := ?_, vacant := ?_ }
  · intro i h1 h2
    rw [hseq]
    exact h.unclaimed i h1 h2
  · intro i h1 h2
    rw [Function.update_of_ne (hg i h1 h2)]
    exact h.unclaimed_data i h1 h2
  · intro t i hi
    rw [hseq]
    exact h.held_seq t i hi
  · intro j h1 h2 h3
    rw [hseq]
    exact h.vacant j h1 h2 h3

/-- The cell of a held index is not the cell of an unclaimed element. -/
theorem slot_unclaimed_ne (h : CellsOk k cells published H held) (hk : k ≤ 64) (hg : held t = some g) {i : ℕ}
    (h1 : H ≤ i) (h2 : i < published.length) : slot 64 k i ≠ slot 64 k g := by
  have hlt := h.held_lt t g hg
  have hroom := h.held_room t g hg
  exact slot_ne hk (by omega) (by omega) (by omega)

/-- The cells of two held indices are different. -/
theorem slot_held_ne (h : CellsOk k cells published H held) (hk : k ≤ 64) {t' : Thread} {i : ℕ} (hg : held t = some g)
    (hi : held t' = some i) (hne : t ≠ t') : slot 64 k i ≠ slot 64 k g := by
  have hig := h.held_inj hg hi hne
  have h1 := h.held_lt t g hg
  have h2 := h.held_lt t' i hi
  have h3 := h.held_room t g hg
  have h4 := h.held_room t' i hi
  have h5 := h.claimed_le
  exact slot_ne hk (Ne.symm hig) (by omega) (by omega)

/-- A thread releases the cell it holds for the next turn of the ring. -/
theorem release (h : CellsOk k cells published H held) (hk : k ≤ 64) (hg : held t = some g) :
    CellsOk k (Function.update cells (slot 64 k g) { cells (slot 64 k g) with sequence := word (g + 2 ^ k) })
      published H (Function.update held t none) := by
  have hlt := h.held_lt t g hg
  have hroom := h.held_room t g hg
  have hle := h.claimed_le
  have hback : ∀ {t' i}, Function.update held t none t' = some i → t' ≠ t ∧ held t' = some i := by
    intro t' i hi
    by_cases htt : t' = t
    · subst htt
      rw [Function.update_self] at hi
      cases hi
    · rw [Function.update_of_ne htt] at hi
      exact ⟨htt, hi⟩
  refine { h with
    held_lt := ?_
    held_room := ?_
    held_ne := ?_
    unclaimed := ?_
    unclaimed_data := ?_
    held_seq := ?_
    vacant := ?_ }
  · intro t' i hi
    exact h.held_lt t' i (hback hi).2
  · intro t' i hi
    exact h.held_room t' i (hback hi).2
  · intro i hp hc
    exact h.held_ne i (hback hp).2 (hback hc).2
  · intro i h1 h2
    rw [Function.update_of_ne (h.slot_unclaimed_ne hk hg h1 h2)]
    exact h.unclaimed i h1 h2
  · intro i h1 h2
    rw [Function.update_of_ne (h.slot_unclaimed_ne hk hg h1 h2)]
    exact h.unclaimed_data i h1 h2
  · intro t' i hi
    obtain ⟨htt, hi'⟩ := hback hi
    rw [Function.update_of_ne (h.slot_held_ne hk hg hi' (Ne.symm htt))]
    exact h.held_seq t' i hi'
  · intro j h1 h2 h3
    by_cases hj : j = g + 2 ^ k
    · subst hj
      rw [slot_add_turn, Function.update_self]
    · have hslot : slot 64 k j ≠ slot 64 k g := by
        rw [← slot_add_turn (n := g)]
        exact slot_ne hk hj (by omega) (by omega)
      rw [Function.update_of_ne hslot]
      refine h.vacant j h1 h2 (fun t' i hi => ?_)
      by_cases htt : t' = t
      · subst htt
        rw [hg, Option.some.injEq] at hi
        omega
      · exact h3 t' i (by rw [Function.update_of_ne htt]; exact hi)

/-- The cell of the next index to be published, when it is vacated, is not the cell of an unclaimed element. -/
theorem slot_unclaimed_ne_next (hk : k ≤ 64) (hv : published.length < H + 2 ^ k) {i : ℕ} (h1 : H ≤ i) (h2 : i < published.length) :
    slot 64 k i ≠ slot 64 k published.length :=
  slot_ne hk (by omega) (by omega) (by omega)

/-- The producer publishes the element it wrote into a vacated cell. -/
theorem publish (h : CellsOk k cells published H held) (hk : k ≤ 64) (hv : published.length < H + 2 ^ k)
    (hfree : ∀ t i, held t = some i → i + 2 ^ k ≠ published.length) {x : α}
    (hx : (cells (slot 64 k published.length)).data = x) :
    CellsOk k (Function.update cells (slot 64 k published.length)
        { cells (slot 64 k published.length) with sequence := word (published.length + 1) })
      (published ++ [x]) H held := by
  have hle := h.claimed_le
  have hlen : (published ++ [x]).length = published.length + 1 := by simp
  refine
    { held_lt := h.held_lt
      held_ne := h.held_ne
      claimed_le := ?_
      room := ?_
      held_room := ?_
      unclaimed := ?_
      unclaimed_data := ?_
      held_seq := ?_
      vacant := ?_ }
  · omega
  · omega
  · intro t i hi
    have h1 := h.held_room t i hi
    have h2 := hfree t i hi
    omega
  · intro i h1 h2
    by_cases hi : i = published.length
    · subst hi
      rw [Function.update_self]
    · rw [Function.update_of_ne (slot_unclaimed_ne_next hk hv h1 (by omega))]
      exact h.unclaimed i h1 (by omega)
  · intro i h1 h2
    by_cases hi : i = published.length
    · subst hi
      rw [Function.update_self, List.getElem?_concat_length, hx]
    · have hi' : i < published.length := by omega
      rw [Function.update_of_ne (slot_unclaimed_ne_next hk hv h1 hi'), List.getElem?_append_left hi']
      exact h.unclaimed_data i h1 hi'
  · intro t i hi
    have h1 := h.held_room t i hi
    have h2 := hfree t i hi
    have h3 := h.held_lt t i hi
    rw [Function.update_of_ne (slot_ne hk (by omega) (by omega) (by omega))]
    exact h.held_seq t i hi
  · intro j h1 h2 h3
    rw [Function.update_of_ne (slot_ne hk (by omega) (by omega) (by omega))]
    exact h.vacant j (by omega) h2 h3

end CellsOk

end TradeSurveillance
