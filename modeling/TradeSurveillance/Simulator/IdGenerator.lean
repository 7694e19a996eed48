import TradeSurveillance.Basic
import TradeSurveillance.Lib.Decimal

/-!
# `IdGenerator`: ids from a counter
-/

namespace TradeSurveillance.Simulator

structure IdGenerator where
  idPrefix : Str
  counter : ℕ := 1
  deriving DecidableEq, Repr

namespace IdGenerator

/-- The id of a value of the counter; a number of more than six digits is written in full. -/
def format (idPrefix : Str) (counter : ℕ) : Str := idPrefix ++ ascii "-" ++ Decimal.padded 6 counter

/-- `next`. -/
def next (g : IdGenerator) : Str × IdGenerator := (format g.idPrefix g.counter, { g with counter := g.counter + 1 })

theorem format_inj {idPrefix : Str} {m n : ℕ} (h : format idPrefix m = format idPrefix n) : m = n := by
  have hpadded : Decimal.padded 6 m = Decimal.padded 6 n := List.append_cancel_left h
  rw [← Decimal.value_padded 6 m, hpadded, Decimal.value_padded]

theorem format_ne_nil (idPrefix : Str) (n : ℕ) : format idPrefix n ≠ [] := by
  have hdash : ascii "-" = [45] := rfl
  simp [format, hdash]

/-- The id is of a value that the counter is past. -/
def Given (g : IdGenerator) (id : Str) : Prop := ∃ n < g.counter, id = format g.idPrefix n

variable {g : IdGenerator} {id : Str}

theorem given_next (g : IdGenerator) : g.next.2.Given g.next.1 := ⟨g.counter, Nat.lt_succ_self _, rfl⟩

theorem Given.next (h : g.Given id) : g.next.2.Given id := by
  obtain ⟨n, hn, hid⟩ := h
  exact ⟨n, Nat.lt_succ_of_lt hn, hid⟩

/-- The next id is a new one. -/
theorem not_given_next (g : IdGenerator) : ¬g.Given g.next.1 := by
  rintro ⟨n, hn, hid⟩
  exact hn.ne (format_inj hid).symm

end IdGenerator

/-- The two generators that the parts of a session share. -/
structure IdGenerators where
  order : IdGenerator := { idPrefix := ascii "ORD" }
  trade : IdGenerator := { idPrefix := ascii "EXE" }
  deriving DecidableEq, Repr

namespace IdGenerators

/-- `order_id_gen.next()`. -/
def nextOrder (g : IdGenerators) : Str × IdGenerators := (g.order.next.1, { g with order := g.order.next.2 })

/-- `trade_id_gen.next()`. -/
def nextTrade (g : IdGenerators) : Str × IdGenerators := (g.trade.next.1, { g with trade := g.trade.next.2 })

end IdGenerators

end TradeSurveillance.Simulator
