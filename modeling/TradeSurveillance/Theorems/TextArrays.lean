import TradeSurveillance.Db.AlertStore

/-!
# Text arrays are read as they were stored

Postgres may return an element as it was written, between quotes, or bare. Both kinds of element end where the text behind them is empty
or begins with a comma, so a literal is read element by element (`elements_element`).
-/

namespace TradeSurveillance.AlertStore

/-- The white space of an array literal. -/
def isArraySpace (c : UInt8) : Bool := c = 32 ∨ 9 ≤ c ∧ c ≤ 13

/-- A letter in lower case. -/
def toLower (c : UInt8) : UInt8 := if 65 ≤ c ∧ c ≤ 90 then c + 32 else c

/-- `array_out` may leave an element without quotes: it is not empty, has no brace, comma, quote, backslash or white space, and is not
`NULL` in any case. -/
structure Bare (item : Str) : Prop where
  ne_nil : item ≠ []
  plain : ∀ c ∈ item, c ∉ ascii "{},\"\\" ∧ isArraySpace c = false
  ne_null : item.map toLower ≠ ascii "null"

/-- An element of a literal that Postgres returns. -/
inductive Element where
  | quoted (item : Str)
  | bare (item : Str) (h : Bare item)

/-- The string an element stands for. -/
def Element.item : Element → Str
  | .quoted item => item
  | .bare item _ => item

/-- How an element is written. -/
def Element.text : Element → Str
  | .quoted item => quoteElement item
  | .bare item _ => item

/-- An array literal. -/
def literal (es : List Element) : Str := 123 :: (List.intercalate [44] (es.map Element.text) ++ [125])

/-- What is stored has every element between quotes. -/
theorem literal_quoted (items : List Str) : literal (items.map .quoted) = toPgTextArray items := by
  rw [literal, toPgTextArray, List.map_map]
  rfl

/-! ## Elements -/

/-- The text behind an element. -/
def Ends (rest : Str) : Prop := rest = [] ∨ rest.head? = some 44

/-- The closing quote is found behind what was escaped, whatever it is. -/
theorem quotedElement_escaped (item rest : Str) : quotedElement (item.flatMap escapeChar ++ 34 :: rest) = (item, rest) := by
  induction item with
  | nil => cases rest <;> rfl
  | cons c item ih =>
    rw [List.flatMap_cons, List.append_assoc]
    have hne : item.flatMap escapeChar ++ 34 :: rest ≠ [] := by simp
    generalize item.flatMap escapeChar ++ 34 :: rest = text at ih hne
    unfold escapeChar
    split_ifs with hc
    · show quotedElement (92 :: c :: text) = _
      rw [quotedElement, if_neg (by decide), if_pos rfl, ih]
    · -- an ordinary character, with at least the closing quote behind it
      cases text with
      | nil => exact absurd rfl hne
      | cons next text =>
        rw [not_or] at hc
        show quotedElement (c :: next :: text) = _
        rw [quotedElement, if_neg hc.1, if_neg hc.2, ih]

theorem elements_quoted (item rest : Str) : elements (quoteElement item ++ rest) = item :: elements rest := by
  show elements (34 :: ((item.flatMap escapeChar ++ [34]) ++ rest)) = _
  rw [elements, if_neg (by decide), if_pos rfl, List.append_assoc, List.singleton_append, quotedElement_escaped]

theorem elements_bare {item rest : Str} (h : Bare item) (hrest : Ends rest) : elements (item ++ rest) = item :: elements rest := by
  have hcomma : ∀ c ∈ item, decide (c ≠ 44) = true := by
    intro c hc
    refine decide_eq_true ?_
    rintro rfl
    exact (h.plain 44 hc).1 (by decide)
  have htake : (item ++ rest).takeWhile (· ≠ 44) = item ∧ (item ++ rest).dropWhile (· ≠ 44) = rest := by
    rw [List.takeWhile_append_of_pos hcomma, List.dropWhile_append_of_pos hcomma]
    rcases hrest with rfl | hrest
    · exact ⟨List.append_nil _, rfl⟩
    · obtain ⟨rest, rfl⟩ := List.head?_eq_some_iff.1 hrest
      rw [List.takeWhile_cons_of_neg (by decide), List.dropWhile_cons_of_neg (by decide), List.append_nil]
      exact ⟨rfl, rfl⟩
  cases item with
  | nil => exact absurd rfl h.ne_nil
  | cons c item =>
    have hquote : c ≠ 34 := by
      rintro rfl
      exact (h.plain 34 List.mem_cons_self).1 (by decide)
    have hne : c ≠ 44 := by
      rintro rfl
      exact (h.plain 44 List.mem_cons_self).1 (by decide)
    rw [List.cons_append] at htake ⊢
    rw [elements, if_neg hne, if_neg hquote, htake.1, htake.2]

/-- An element is read to its end. -/
theorem elements_element (e : Element) {rest : Str} (hrest : Ends rest) : elements (e.text ++ rest) = e.item :: elements rest := by
  cases e with
  | quoted item => exact elements_quoted item rest
  | bare item h => exact elements_bare h hrest

/-! ## Literals -/

/-- By induction on the elements: what follows each is empty or a comma. -/
theorem elements_intercalate (es : List Element) : elements (List.intercalate [44] (es.map Element.text)) = es.map Element.item := by
  induction es with
  | nil =>
    show elements [] = []
    rw [elements]
  | cons e es ih =>
    cases es with
    | nil =>
      have hone := elements_element e (.inl rfl)
      rw [elements, List.append_nil] at hone
      rw [List.map_singleton, List.map_singleton, List.intercalate_singleton, hone]
    | cons e' es =>
      rw [List.map_cons, List.map_cons, List.intercalate_cons_cons, List.append_assoc, ← List.map_cons]
      rw [elements_element e (.inr rfl), List.singleton_append, elements, if_pos rfl, ih]
      rfl

/-- A literal is read as its elements, however each is written; in particular what is stored is read back. -/
theorem fromPgTextArray_literal : (∀ es : List Element, fromPgTextArray (literal es) = es.map Element.item) ∧
    ∀ items : List Str, fromPgTextArray (toPgTextArray items) = items := by
  have hread : ∀ es : List Element, fromPgTextArray (literal es) = es.map Element.item := by
    intro es
    have hlast : (literal es).getLast? = some 125 := by
      rw [literal, ← List.cons_append]
      exact List.getLast?_concat
    have hbrace : ¬((literal es).length < 2 ∨ (literal es).head? ≠ some 123 ∨ (literal es).getLast? ≠ some 125) := by
      rw [hlast]
      simp [literal]
    rw [fromPgTextArray, if_neg hbrace, literal, List.tail_cons, List.dropLast_concat, elements_intercalate]
  refine ⟨hread, ?_⟩
  intro items
  rw [← literal_quoted, hread, List.map_map]
  exact List.map_id items

end TradeSurveillance.AlertStore
