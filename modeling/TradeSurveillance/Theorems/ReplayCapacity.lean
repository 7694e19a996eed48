import TradeSurveillance.Harness.KafkaReplay
import TradeSurveillance.Theorems.RingLossless

/-!
# The buffer of a replay

`ring_buffer_capacity_for` gives a power of two that the buffer accepts and that has room for the whole session.
-/

namespace TradeSurveillance

open Harness

/-- The loop ends with a capacity that is large enough. -/
theorem le_of_doubleUntil {n capacity capacity' : Word} {turns : ℕ} (h : doubleUntil n turns capacity = some capacity') :
    n ≤ capacity' := by
  induction turns generalizing capacity with
  | zero => cases h
  | succ turns ih =>
    rw [doubleUntil] at h
    split at h
    case isTrue => exact ih h
    case isFalse hle =>
      cases h
      exact BitVec.not_lt.1 hle

/-- From a power of two the loop goes to the first one that is large enough. -/
theorem doubleUntil_pow {n : Word} (hn : n.toNat ≤ 2 ^ 63) (turns k : ℕ) (hk : k ≤ 63) (hturns : 63 < k + turns) :
    ∃ j, k ≤ j ∧ j ≤ 63 ∧ doubleUntil n turns (BitVec.ofNat 64 (2 ^ k)) = some (BitVec.ofNat 64 (2 ^ j)) ∧ n.toNat ≤ 2 ^ j ∧
      (k < j → 2 ^ (j - 1) < n.toNat) := by
  induction turns generalizing k with
  | zero => omega
  | succ turns ih =>
    rw [doubleUntil]
    by_cases hlt : BitVec.ofNat 64 (2 ^ k) < n
    · have hnat : 2 ^ k < n.toNat := by
        have hlt := BitVec.lt_def.1 hlt
        rwa [toNat_ofNat_pow hk] at hlt
      have hk63 : k < 63 := (Nat.pow_lt_pow_iff_right (by omega)).1 (lt_of_lt_of_le hnat hn)
      have hdouble : BitVec.ofNat 64 (2 ^ k) * 2 = BitVec.ofNat 64 (2 ^ (k + 1)) := by
        rw [Nat.pow_succ, BitVec.ofNat_mul]
        rfl
      obtain ⟨j, hj1, hj2, heq, hle, hleast⟩ := ih (k + 1) (by omega) (by omega)
      refine ⟨j, by omega, hj2, by rw [if_pos hlt, hdouble, heq], hle, fun _ => ?_⟩
      rcases Nat.lt_or_ge (k + 1) j with hj | hj
      · exact hleast hj
      · have hjk : j - 1 = k := by omega
        rwa [hjk]
    · refine ⟨k, le_refl _, hk, by rw [if_neg hlt], ?_, by omega⟩
      have hle := BitVec.le_def.1 (BitVec.not_lt.1 hlt)
      rwa [toNat_ofNat_pow hk] at hle

/-- What the capacity for a number of elements is, and what a run on a buffer of this capacity comes to. -/
structure Roomy (n capacity : Word) : Prop where
  capacityFor : ringBufferCapacityFor n = some capacity
  room : n.toNat ≤ capacity.toNat ∧ 1024 ≤ capacity.toNat
  least : capacity.toNat = 1024 ∨ capacity.toNat < 2 * n.toNat
  accepted : ∀ {α : Type} [Inhabited α], ∃ r : SpscRingBuffer α, SpscRingBuffer.make capacity = .ok r
  lossless : ∀ {α : Type} [Inhabited α] (moved : α → α) (s : RingState α) (log : List (RingEvent α)),
    (ringMachine moved capacity).Run s log → (pushed log).length ≤ n.toNat → Lossless s log

/-- For up to `2 ^ 63` elements there is a buffer, less than twice as large as it has to be, that loses none of them and in which no
call of `push` waits for the consumer, in whatever order the two threads take their steps. -/
theorem roomy_capacity {n : Word} (hn : n.toNat ≤ 2 ^ 63) : ∃ capacity, Roomy n capacity := by
  obtain ⟨j, hj1, hj2, heq, hle, hleast⟩ := doubleUntil_pow hn 55 10 (by omega) (by omega)
  have hfloor : 2 ^ 10 ≤ 2 ^ j := Nat.pow_le_pow_right (by omega) hj1
  refine ⟨BitVec.ofNat 64 (2 ^ j), heq, ?_, ?_, make_ok_iff.2 ⟨j, by omega, hj2, rfl⟩, fun moved s log hr hlog => ?_⟩
  · rw [toNat_ofNat_pow hj2]
    exact ⟨hle, hfloor⟩
  · rw [toNat_ofNat_pow hj2]
    rcases Nat.eq_or_lt_of_le hj1 with hj | hj
    · exact Or.inl (by rw [← hj]; rfl)
    · refine Or.inr ?_
      have hlt := hleast hj
      have hsucc : 2 ^ j = 2 * 2 ^ (j - 1) := by
        rw [← Nat.pow_succ', Nat.succ_eq_add_one, Nat.sub_add_cancel (by omega)]
      omega
  · exact lossless_of_fits hr (by rw [toNat_ofNat_pow hj2]; omega)

/-- A session of five thousand events. -/
theorem roomy_capacity_session : ∃ capacity, Roomy 5000 capacity := roomy_capacity (by decide)

end TradeSurveillance
