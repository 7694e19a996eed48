import Mathlib.Algebra.Ring.Int.Defs
import Mathlib.Data.Finmap

/-!
# The source's basic types

Strings are sequences of bytes, 64-bit integers wrap, and hash maps are finite maps: where a function depends on the order in which
the source iterates over one, the order is an argument.
-/

namespace TradeSurveillance

/-- `std::string`: a sequence of bytes. -/
abbrev Str := List UInt8

instance : LawfulBEq Str := inferInstance

/-- A literal of the source: every literal modelled is ASCII, one byte for each character. -/
def ascii (s : String) : Str := s.toList.map (fun c => c.toNat.toUInt8)

/-- `std::size_t` and `std::uint64_t`: 64-bit words, wrapping. -/
abbrev Word := BitVec 64

/-- The values of `int64_t`. -/
def IsInt64 (z : ℤ) : Prop := -2 ^ 63 ≤ z ∧ z < 2 ^ 63

instance (z : ℤ) : Decidable (IsInt64 z) := inferInstanceAs (Decidable (_ ∧ _))

/-- What an `int64_t` holds of an exact result: signed overflow, which the source leaves undefined, wraps, as on the machines it is
built for. -/
def wrap64 (z : ℤ) : ℤ := z.bmod (2 ^ 64)

/-- `total += z` for each element of a list, from 0. -/
def sum64 (l : List ℤ) : ℤ := l.foldl (fun total z => wrap64 (total + z)) 0

/-- `std::unordered_map` and, where the order of the keys is not read, `std::map`. -/
abbrev Map (K V : Type) := Finmap (fun _ : K => V)

/-- `std::exception` as far as the program distinguishes it, with its text. -/
inductive Exception where
  | invalidArgument (what : Str)
  | outOfRange (what : Str)
  | runtimeError (what : Str)
  deriving DecidableEq, Repr

/-! ## Sums of 64 bits -/

/-- A wrapped result is an `int64_t`. -/
theorem isInt64_wrap64 (z : ℤ) : IsInt64 (wrap64 z) := by
  have hlow : -((2 ^ 64 : ℕ) / 2 : ℤ) ≤ z.bmod (2 ^ 64) := Int.le_bmod (by decide)
  have hhigh : z.bmod (2 ^ 64) < ((2 ^ 64 : ℕ) + 1) / 2 := Int.bmod_lt (by decide)
  unfold wrap64 IsInt64
  omega

/-- What fits is kept. -/
theorem wrap64_of_isInt64 {z : ℤ} (h : IsInt64 z) : wrap64 z = z := by
  unfold IsInt64 at h
  refine Int.bmod_eq_of_le ?_ ?_
  · omega
  · omega

/-- A result too large by less than a turn comes out negative. -/
theorem wrap64_of_ge {z : ℤ} (hlow : 2 ^ 63 ≤ z) (hhigh : z < 2 ^ 64) : wrap64 z < 0 := by
  have hturn : (z - (2 ^ 64 : ℕ)).bmod (2 ^ 64) = z.bmod (2 ^ 64) := Int.sub_bmod_right _ _
  have hfits : wrap64 (z - (2 ^ 64 : ℕ)) = z - (2 ^ 64 : ℕ) := wrap64_of_isInt64 ⟨by omega, by omega⟩
  rw [wrap64, ← hturn, ← wrap64, hfits]
  omega

/-- It makes no difference whether a summand was wrapped before. -/
@[simp] theorem wrap64_add_left (a b : ℤ) : wrap64 (wrap64 a + b) = wrap64 (a + b) := Int.bmod_add_bmod

/-- A loop of additions wraps as often as it likes: the total is the exact sum wrapped once. -/
theorem foldl_wrap64 (a : ℤ) (l : List ℤ) :
    l.foldl (fun total z => wrap64 (total + z)) (wrap64 a) = wrap64 (a + l.sum) := by
  induction l generalizing a with
  | nil => rw [List.foldl_nil, List.sum_nil, Int.add_zero]
  | cons z l ih => rw [List.foldl_cons, wrap64_add_left, ih, List.sum_cons, Int.add_assoc]

theorem sum64_eq (l : List ℤ) : sum64 l = wrap64 l.sum := by
  have hsum := foldl_wrap64 0 l
  rwa [Int.zero_add] at hsum

/-- A sum that fits is exact, whatever its parts were. -/
theorem sum64_of_isInt64 {l : List ℤ} (h : IsInt64 l.sum) : sum64 l = l.sum := by rw [sum64_eq, wrap64_of_isInt64 h]

/-! ## Exceptions -/

/-- What throws nothing has a result that the rest goes on from. -/
theorem bind_eq_ok {α β : Type} {r : Except Exception α} {k : α → Except Exception β} {b : β} (h : r >>= k = .ok b) :
    ∃ a, r = .ok a ∧ k a = .ok b := by
  cases r with
  | error e => cases h
  | ok a => exact ⟨a, rfl, h⟩

/-- A conversion that throws for no element. -/
theorem mapM_eq_ok {α β : Type} {f : α → Except Exception β} {g : α → β} {l : List α} (h : ∀ a ∈ l, f a = .ok (g a)) :
    l.mapM f = .ok (l.map g) := by
  induction l with
  | nil => rfl
  | cons a l ih =>
    rw [List.mapM_cons, h a List.mem_cons_self, ih fun b hb => h b (List.mem_cons_of_mem _ hb)]
    rfl

end TradeSurveillance
