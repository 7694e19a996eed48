import Mathlib.Data.Nat.ModEq
import Mathlib.Tactic.Ring

/-!
# Wrapping counters and the slots of a ring of `2 ^ k` cells

A counter of `w` bits that is only ever incremented is `BitVec.ofNat w n` for the exact count `n`. Two exact counts that are
less than `2 ^ w` apart are equal when their counters are (`ofNat_inj_of_near`); the slot of a count in a ring of `2 ^ k` cells
is the counter masked with `2 ^ k - 1`, and counts less than `2 ^ k` apart have different slots.
-/

namespace Counter

variable {w k m n : ℕ}

theorem ofNat_eq_iff : BitVec.ofNat w m = BitVec.ofNat w n ↔ m % 2 ^ w = n % 2 ^ w := by
  rw [← BitVec.toNat_inj, BitVec.toNat_ofNat, BitVec.toNat_ofNat]

/-- Incrementing a counter. -/
theorem ofNat_succ : BitVec.ofNat w n + 1 = BitVec.ofNat w (n + 1) := by
  rw [BitVec.ofNat_add]
  rfl

/-- Counters that agree after an increment agreed before it. -/
theorem ofNat_of_succ (h : BitVec.ofNat w (m + 1) = BitVec.ofNat w (n + 1)) : BitVec.ofNat w m = BitVec.ofNat w n := by
  rw [ofNat_eq_iff] at h ⊢
  exact Nat.ModEq.add_right_cancel' 1 h

/-- Two different numbers with the same remainder are at least the modulus apart. -/
theorem add_le_of_mod_eq {N : ℕ} (h : m % N = n % N) (hlt : m < n) : m + N ≤ n := by
  have hd : N ∣ n - m := (Nat.modEq_iff_dvd' hlt.le).1 h
  have := Nat.le_of_dvd (by omega) hd
  omega

/-- Exact counts whose counters agree and that are less than a whole turn apart are equal. -/
theorem ofNat_inj_of_near (h : BitVec.ofNat w m = BitVec.ofNat w n) (h1 : m < n + 2 ^ w) (h2 : n < m + 2 ^ w) : m = n := by
  rw [ofNat_eq_iff] at h
  rcases Nat.lt_trichotomy m n with hlt | heq | hgt
  · have := add_le_of_mod_eq h hlt
    omega
  · exact heq
  · have := add_le_of_mod_eq h.symm hgt
    omega

/-- An increment changes a counter. -/
theorem ofNat_ne_succ (hw : 0 < w) : BitVec.ofNat w n ≠ BitVec.ofNat w (n + 1) := by
  have hpow := Nat.one_lt_two_pow hw.ne'
  intro h
  have heq := ofNat_inj_of_near h (by omega) (by omega)
  omega

/-- Exact counts whose counters agree are equal or at least a whole turn apart. -/
theorem turn_le_of_ofNat_eq (h : BitVec.ofNat w m = BitVec.ofNat w n) (hlt : m < n) : m + 2 ^ w ≤ n :=
  add_le_of_mod_eq (ofNat_eq_iff.1 h) hlt

/-- The slot of a count in a ring of `2 ^ k` cells. -/
def slot (w k n : ℕ) : BitVec w := BitVec.ofNat w (n % 2 ^ k)

/-- Masking a counter gives the slot of its count. -/
theorem ofNat_and_mask (hk : k ≤ w) : BitVec.ofNat w n &&& BitVec.ofNat w (2 ^ k - 1) = slot w k n := by
  have hdvd : 2 ^ k ∣ 2 ^ w := Nat.pow_dvd_pow 2 hk
  have hle : 2 ^ k ≤ 2 ^ w := Nat.le_of_dvd (Nat.two_pow_pos w) hdvd
  have hpos := Nat.two_pow_pos k
  have hmask : (2 ^ k - 1) % 2 ^ w = 2 ^ k - 1 := Nat.mod_eq_of_lt (by omega)
  have hslot : n % 2 ^ k % 2 ^ w = n % 2 ^ k := Nat.mod_eq_of_lt (by have := Nat.mod_lt n hpos; omega)
  apply BitVec.eq_of_toNat_eq
  rw [BitVec.toNat_and, BitVec.toNat_ofNat, BitVec.toNat_ofNat, slot, BitVec.toNat_ofNat, hmask, hslot,
    Nat.and_two_pow_sub_one_eq_mod, Nat.mod_mod_of_dvd _ hdvd]

theorem slot_eq_iff (hk : k ≤ w) : slot w k m = slot w k n ↔ m % 2 ^ k = n % 2 ^ k := by
  have hle : 2 ^ k ≤ 2 ^ w := Nat.pow_le_pow_right (by omega) hk
  have hm : m % 2 ^ k % 2 ^ w = m % 2 ^ k := Nat.mod_eq_of_lt ((Nat.mod_lt m (Nat.two_pow_pos k)).trans_le hle)
  have hn : n % 2 ^ k % 2 ^ w = n % 2 ^ k := Nat.mod_eq_of_lt ((Nat.mod_lt n (Nat.two_pow_pos k)).trans_le hle)
  rw [slot, slot, ofNat_eq_iff, hm, hn]

/-- A whole turn of the ring comes back to the same slot. -/
@[simp] theorem slot_add_turn : slot w k (n + 2 ^ k) = slot w k n := by
  rw [slot, slot, Nat.add_mod_right]

/-- Different counts in one window of `2 ^ k` have different slots. -/
theorem slot_ne (hk : k ≤ w) (hne : m ≠ n) (h1 : m < n + 2 ^ k) (h2 : n < m + 2 ^ k) : slot w k m ≠ slot w k n := by
  intro h
  rw [slot_eq_iff hk] at h
  rcases Nat.lt_or_gt_of_ne hne with hlt | hgt
  · have := add_le_of_mod_eq h hlt
    omega
  · have := add_le_of_mod_eq h.symm hgt
    omega

/-- Counts whose counters agree have the same slot. -/
theorem mod_eq_of_ofNat_eq (hk : k ≤ w) (h : BitVec.ofNat w m = BitVec.ofNat w n) : m % 2 ^ k = n % 2 ^ k := by
  have hdvd : 2 ^ k ∣ 2 ^ w := Nat.pow_dvd_pow 2 hk
  rw [← Nat.mod_mod_of_dvd m hdvd, ← Nat.mod_mod_of_dvd n hdvd, ofNat_eq_iff.1 h]

/-- The test of the source for a power of two: a word and its predecessor share no bit. -/
theorem and_sub_one_eq_zero_iff {x : BitVec w} (hx : x ≠ 0) : x &&& (x - 1) = 0 ↔ ∃ k, x.toNat = 2 ^ k := by
  have hpos : x.toNat ≠ 0 := fun h0 => hx (BitVec.eq_of_toNat_eq h0)
  have hlt := x.isLt
  have hw : 1 ≤ w := by
    by_contra hw
    have : 2 ^ w = 1 := by rw [show w = 0 by omega, Nat.pow_zero]
    omega
  have hone : (1 : BitVec w).toNat = 1 := Nat.mod_eq_of_lt (Nat.one_lt_two_pow (by omega))
  have hle : 1 ≤ x := by rw [BitVec.le_def, hone]; omega
  have hsub : (x - 1).toNat = x.toNat - 1 := by rw [BitVec.toNat_sub_of_le hle, hone]
  rw [← BitVec.toNat_inj, BitVec.toNat_and, hsub]
  exact Nat.and_sub_one_eq_zero_iff_isPowerOfTwo hpos

end Counter
