import TradeSurveillance.Basic

/-!
# `db/alert_store`: text arrays

The array literals of the columns `account_ids` and `order_ids`. The source scans a literal by an index; here the scanner holds the text
from the index up to the final brace.
-/

namespace TradeSurveillance.AlertStore

/-! ## Encoding -/

/-- A character between the quotes. -/
def escapeChar (c : UInt8) : Str := if c = 34 ∨ c = 92 then [92, c] else [c]

/-- An element between its quotes. -/
def quoteElement (item : Str) : Str := 34 :: (item.flatMap escapeChar ++ [34])

/-- `to_pg_text_array`. -/
def toPgTextArray (items : List Str) : Str := 123 :: (List.intercalate [44] (items.map quoteElement) ++ [125])

/-! ## Decoding -/

/-- The inner loop of a quoted element, from behind its opening quote: the element, and the text behind its closing quote. A backslash
at the end of the text, which has no character to escape, stands for itself. -/
def quotedElement : Str → Str × Str
  | [] => ([], [])
  | [c] => if c = 34 then ([], []) else ([c], [])
  | c :: next :: text =>
    if c = 34 then ([], next :: text)
    else if c = 92 then (next :: (quotedElement text).1, (quotedElement text).2)
    else (c :: (quotedElement (next :: text)).1, (quotedElement (next :: text)).2)

theorem length_quotedElement_le (text : Str) : (quotedElement text).2.length ≤ text.length := by
  fun_induction quotedElement text with
  | case1 => exact le_rfl
  | case2 => exact Nat.zero_le _
  | case3 => exact Nat.zero_le _
  | case4 => exact Nat.le_succ _
  | case5 _ _ _ ih => exact ih.trans (by simp only [List.length_cons]; omega)
  | case6 _ _ _ _ _ ih => exact ih.trans (Nat.le_succ _)

theorem length_dropWhile_le (c : UInt8) (text : Str) (h : c ≠ 44) : ((c :: text).dropWhile (· ≠ 44)).length ≤ text.length := by
  rw [List.dropWhile_cons_of_pos (by simpa using h)]
  exact (List.dropWhile_sublist _).length_le

/-- The loop over the elements. -/
def elements : Str → List Str
  | [] => []
  | c :: text =>
    if c = 44 then elements text
    else if c = 34 then (quotedElement text).1 :: elements (quotedElement text).2
    else (c :: text).takeWhile (· ≠ 44) :: elements ((c :: text).dropWhile (· ≠ 44))
termination_by text => text.length
decreasing_by
  · exact Nat.lt_succ_self _
  · exact Nat.lt_succ_of_le (length_quotedElement_le text)
  · exact Nat.lt_succ_of_le (length_dropWhile_le c text ‹_›)

/-- `from_pg_text_array`. -/
def fromPgTextArray (text : Str) : List Str :=
  if text.length < 2 ∨ text.head? ≠ some 123 ∨ text.getLast? ≠ some 125 then [] else elements text.tail.dropLast

end TradeSurveillance.AlertStore
