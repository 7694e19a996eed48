import TradeSurveillance.Lib.JsonString
import Mathlib.Data.List.Infix

/-!
# Searching a text for a word

The first occurrence of a word in a text, the run of characters of a kind that a text begins with, and where a word between quotes can
occur in a text that has escaped strings in it: every quote in the body of one follows a backslash, so that such an occurrence begins
where a string does or ends where one ends.
-/

namespace Search

variable {α : Type*} [DecidableEq α]

/-- What is behind the first occurrence of a word in a text. -/
def behind (word : List α) : List α → Option (List α)
  | [] => if word = [] then some [] else none
  | c :: text => if word <+: c :: text then some ((c :: text).drop word.length) else behind word text

variable {word pre text rest : List α} {a c : α}

theorem behind_append (word rest : List α) : behind word (word ++ rest) = some rest := by
  cases h : word ++ rest with
  | nil =>
    obtain ⟨rfl, rfl⟩ := List.append_eq_nil_iff.1 h
    rfl
  | cons c text =>
    rw [← h, show word ++ rest = c :: text from h, behind, if_pos ⟨rest, h⟩, ← h, List.drop_left]

theorem behind_cons (h : ¬word <+: c :: text) : behind word (c :: text) = behind word text := if_neg h

/-- No occurrence begins before the first letter of the word. -/
theorem behind_skip (h : a ∉ pre) : behind (a :: word) (pre ++ text) = behind (a :: word) text := by
  induction pre with
  | nil => rfl
  | cons c pre ih =>
    have hc : ¬a :: word <+: c :: (pre ++ text) := by
      intro hbegins
      obtain rfl : a = c := (List.cons_prefix_cons.1 hbegins).1
      exact h List.mem_cons_self
    rw [List.cons_append, behind_cons hc, ih fun hmem => h (List.mem_cons_of_mem _ hmem)]

/-! ## Runs -/

section Runs

variable {p : α → Bool} {a a' x x' : List α}

omit [DecidableEq α] in
theorem takeWhile_run (ha : ∀ c ∈ a, p c = true) (hx : ∀ c ∈ x.head?, p c = false) : (a ++ x).takeWhile p = a := by
  rw [List.takeWhile_append_of_pos ha]
  cases x with
  | nil => rw [List.takeWhile_nil, List.append_nil]
  | cons c x => rw [List.takeWhile_cons_of_neg (by simp [hx c rfl]), List.append_nil]

omit [DecidableEq α] in
/-- A text is split in one way into a run of characters of a kind and what does not begin with one. -/
theorem run_unique (ha : ∀ c ∈ a, p c = true) (ha' : ∀ c ∈ a', p c = true) (hx : ∀ c ∈ x.head?, p c = false)
    (hx' : ∀ c ∈ x'.head?, p c = false) (h : a ++ x = a' ++ x') : a = a' ∧ x = x' := by
  obtain rfl : a = a' := by rw [← takeWhile_run ha hx, h, takeWhile_run ha' hx']
  exact ⟨rfl, List.append_cancel_left h⟩

end Runs

end Search

namespace JsonString

open Search

/-- A word between quotes. -/
def quoted (word : List UInt8) : List UInt8 := quote :: (word ++ [quote])

/-- A word in which nothing is escaped. -/
structure Plain (word : List UInt8) : Prop where
  quote : JsonString.quote ∉ word
  backslash : JsonString.backslash ∉ word

variable {word v rest : List UInt8}

theorem Plain.tail {c : UInt8} (h : Plain (c :: word)) : Plain word :=
  ⟨fun hmem => h.quote (List.mem_cons_of_mem _ hmem), fun hmem => h.backslash (List.mem_cons_of_mem _ hmem)⟩

theorem Plain.isBody (h : Plain word) : IsBody word := by
  induction word with
  | nil => exact isBody_nil
  | cons c word ih =>
    refine (ih h.tail).cons ?_ ?_
    · rintro rfl
      exact h.quote List.mem_cons_self
    · rintro rfl
      exact h.backslash List.mem_cons_self

/-- A word that goes on to a quote in an escaped string is the whole of it. -/
theorem escape_eq_of_prefix (h : Plain word) (hbegins : word ++ [quote] <+: escape v ++ quote :: rest) : escape v = word := by
  induction v generalizing word with
  | nil =>
    cases word with
    | nil => rfl
    | cons w word =>
      obtain rfl : w = quote := (List.cons_prefix_cons.1 hbegins).1
      exact absurd List.mem_cons_self h.quote
  | cons c v ih =>
    rcases escapeChar_cases c with ⟨hc, -, hchar⟩ | ⟨letter, hchar, -⟩
    · rw [escape_cons, hchar] at hbegins ⊢
      cases word with
      | nil => exact absurd (List.cons_prefix_cons.1 hbegins).1.symm hc
      | cons w word =>
        obtain ⟨rfl, htail⟩ := List.cons_prefix_cons.1 hbegins
        rw [List.singleton_append, ih h.tail htail]
    · rw [escape_cons, hchar] at hbegins
      cases word with
      | nil => exact absurd (List.cons_prefix_cons.1 hbegins).1 (by decide)
      | cons w word =>
        obtain rfl : w = backslash := (List.cons_prefix_cons.1 hbegins).1
        exact absurd List.mem_cons_self h.backslash

/-- At a quote inside or before an escaped string: either the rest of the string is the word, or no occurrence begins here. -/
theorem behind_quoted_cons (h : Plain word) (v rest : List UInt8) :
    behind (quoted word) (quote :: (escape v ++ quote :: rest)) = some rest ∨
      behind (quoted word) (quote :: (escape v ++ quote :: rest)) = behind (quoted word) (escape v ++ quote :: rest) := by
  by_cases hbegins : quoted word <+: quote :: (escape v ++ quote :: rest)
  · have hword := escape_eq_of_prefix h (List.cons_prefix_cons.1 hbegins).2
    have htext : quote :: (escape v ++ quote :: rest) = quoted word ++ rest := by simp [hword, quoted]
    rw [htext, behind_append]
    exact .inl rfl
  · exact .inr (behind_cons hbegins)

/-- A search that enters an escaped string leaves it at its closing quote. -/
theorem behind_quoted_body (h : Plain word) (v rest : List UInt8) :
    behind (quoted word) (escape v ++ quote :: rest) = some rest ∨
      behind (quoted word) (escape v ++ quote :: rest) = behind (quoted word) (quote :: rest) := by
  induction v with
  | nil => exact .inr rfl
  | cons c v ih =>
    rw [escape_cons, List.append_assoc]
    rcases escapeChar_cases c with ⟨hc, -, hchar⟩ | ⟨letter, hchar, -⟩
    · rw [hchar, quoted, behind_skip (by simpa using hc.symm)]
      exact ih
    · rw [hchar, show [backslash, letter] = [backslash] ++ [letter] from rfl, List.append_assoc, quoted, behind_skip (by decide)]
      by_cases hletter : letter = quote
      · -- an escaped quote: an occurrence may begin here, with all of the string behind it
        rw [← quoted, hletter, List.singleton_append]
        rcases behind_quoted_cons h v rest with hfound | hskip
        · exact .inl hfound
        · rw [hskip]
          exact ih
      · rw [behind_skip (by simpa using Ne.symm hletter)]
        exact ih

/-- A search for a word between quotes that comes to an escaped string finds the word at its end or goes on from its closing quote. -/
theorem behind_quoted_string (h : Plain word) (v rest : List UInt8) :
    behind (quoted word) (quote :: (escape v ++ quote :: rest)) = some rest ∨
      behind (quoted word) (quote :: (escape v ++ quote :: rest)) = behind (quoted word) (quote :: rest) := by
  rcases behind_quoted_cons h v rest with hfound | hskip
  · exact .inl hfound
  · rw [hskip]
    exact behind_quoted_body h v rest

end JsonString
