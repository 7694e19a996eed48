import Mathlib.Data.List.Basic

/-!
# Patterns of texts and groups

A pattern is a row of texts and groups, and is matched against a whole line: of what a group may take, the longest is tried first and the
others behind it, as a backtracking matcher of regular expressions does. A match is of values that make the line (`matchPieces_eq`). Where
no value has the character that ends its group, what was put into the pattern is what is read from it, if each group takes its value
(`matchPieces_fill`).
-/

namespace LinePattern

variable {α : Type*} [DecidableEq α]

/-- A piece of a pattern: a text, or a group with the values it takes. -/
inductive Piece (α : Type*) where
  | text (t : List α)
  | group (takes : List α → Bool)

/-- The values of the groups, where the pattern matches the whole line. -/
def matchPieces : List (Piece α) → List α → Option (List (List α))
  | [], line => if line = [] then some [] else none
  | .text t :: pieces, line => if t <+: line then matchPieces pieces (line.drop t.length) else none
  | .group takes :: pieces, line =>
    (List.range (line.length + 1)).reverse.findSome? fun n =>
      if takes (line.take n) then (matchPieces pieces (line.drop n)).map (line.take n :: ·) else none

/-- The line with values in the place of the groups. -/
def fill : List (Piece α) → List (List α) → List α
  | .text t :: pieces, values => t ++ fill pieces values
  | .group _ :: pieces, value :: values => value ++ fill pieces values
  | _, _ => []

/-- Every group takes its value. -/
def fits : List (Piece α) → List (List α) → Bool
  | .text _ :: pieces, values => fits pieces values
  | .group takes :: pieces, value :: values => takes value && fits pieces values
  | [], [] => true
  | _, _ => false

/-- Every group stands before the end, or before a text whose first character is in no value that it takes, and not in its own. -/
inductive Delimited : List (Piece α) → List (List α) → Prop where
  | nil : Delimited [] []
  | text (t : List α) {pieces : List (Piece α)} {values : List (List α)} (h : Delimited pieces values) :
      Delimited (.text t :: pieces) values
  | last (takes : List α → Bool) (value : List α) : Delimited [.group takes] [value]
  | group {takes : List α → Bool} {value : List α} {d : α} {t : List α} {pieces : List (Piece α)} {values : List (List α)}
      (hvalue : d ∉ value) (htakes : ∀ other, takes other = true → d ∉ other) (h : Delimited pieces values) :
      Delimited (.group takes :: .text (d :: t) :: pieces) (value :: values)

/-- What is matched is the line, and each value is one its group takes. -/
theorem matchPieces_eq {pieces : List (Piece α)} {line : List α} {values : List (List α)} (h : matchPieces pieces line = some values) :
    line = fill pieces values ∧ fits pieces values = true := by
  induction pieces generalizing line values with
  | nil =>
    simp only [matchPieces, Option.ite_none_right_eq_some, Option.some.injEq] at h
    obtain ⟨rfl, rfl⟩ := h
    exact ⟨rfl, rfl⟩
  | cons piece pieces ih =>
    cases piece with
    | text t =>
      simp only [matchPieces, Option.ite_none_right_eq_some] at h
      obtain ⟨⟨rest, rfl⟩, h⟩ := h
      rw [List.drop_left] at h
      obtain ⟨hrest, hfits⟩ := ih h
      exact ⟨by rw [fill, ← hrest], hfits⟩
    | group takes =>
      obtain ⟨n, -, hn⟩ := List.exists_of_findSome?_eq_some h
      simp only [Option.ite_none_right_eq_some, Option.map_eq_some_iff] at hn
      obtain ⟨htakes, others, hothers, rfl⟩ := hn
      obtain ⟨hrest, hfits⟩ := ih hothers
      refine ⟨?_, ?_⟩
      · rw [fill, ← hrest, List.take_append_drop]
      · rw [fits, htakes, hfits]
        rfl

theorem matchPieces_text (t : List α) (pieces : List (Piece α)) (line : List α) :
    matchPieces (.text t :: pieces) (t ++ line) = matchPieces pieces line := by
  rw [matchPieces, if_pos (List.prefix_append _ _), List.drop_left]

omit [DecidableEq α] in
theorem Delimited.before {takes : List α → Bool} {value t : List α} {pieces : List (Piece α)} {values : List (List α)} (d : α)
    (ht : t.head? = some d) (hvalue : d ∉ value) (htakes : ∀ other, takes other = true → d ∉ other) (h : Delimited pieces values) :
    Delimited (.group takes :: .text t :: pieces) (value :: values) := by
  cases t with
  | nil => cases ht
  | cons b t =>
    obtain rfl : b = d := Option.some.inj ht
    exact .group hvalue htakes h

/-- A search where only one place can answer. -/
theorem findSome?_only {β γ : Type*} {l : List β} {f : β → Option γ} {b : β} (hb : b ∈ l) (hother : ∀ x ∈ l, x ≠ b → f x = none) :
    l.findSome? f = f b := by
  induction l with
  | nil => cases hb
  | cons x l ih =>
    have hrest : ∀ y ∈ l, y ≠ b → f y = none := fun y hy => hother y (List.mem_cons_of_mem x hy)
    by_cases hx : x = b
    · subst hx
      cases hfx : f x with
      | some c => rw [List.findSome?_cons, hfx]
      | none =>
        rw [List.findSome?_cons, hfx, List.findSome?_eq_none_iff]
        intro y hy
        by_cases hyx : y = x
        · rw [hyx, hfx]
        · exact hrest y hy hyx
    · rw [List.findSome?_cons, hother x List.mem_cons_self hx]
      rcases List.mem_cons.1 hb with rfl | hb
      · exact absurd rfl hx
      · exact ih hb hrest

/-- A group at the end takes all that is left. -/
theorem matchPieces_last (takes : List α → Bool) (value : List α) :
    matchPieces [.group takes] value = if takes value then some [value] else none := by
  rw [matchPieces, findSome?_only (b := value.length) (List.mem_reverse.2 (List.mem_range.2 (Nat.lt_succ_self _)))]
  · rw [List.take_length, List.drop_length]
    rfl
  · intro n hn hne
    have hlt : n < value.length := Nat.lt_of_le_of_ne (Nat.lt_succ_iff.1 (List.mem_range.1 (List.mem_reverse.1 hn))) hne
    have hleft : value.drop n ≠ [] := fun h => absurd (List.drop_eq_nil_iff.1 h) (Nat.not_le.2 hlt)
    rw [matchPieces, if_neg hleft, Option.map_none, ite_self]

/-- A group takes what stands before the character that ends it, and no more and no less. -/
theorem matchPieces_group {takes : List α → Bool} {value : List α} {d : α} {t : List α} {pieces : List (Piece α)} {line : List α}
    (hvalue : d ∉ value) (htakes : ∀ other, takes other = true → d ∉ other) :
    matchPieces (.group takes :: .text (d :: t) :: pieces) (value ++ (d :: t ++ line)) =
      if takes value then (matchPieces pieces line).map (value :: ·) else none := by
  rw [matchPieces, findSome?_only (b := value.length)]
  · rw [List.take_left, List.drop_left, matchPieces_text]
  · refine List.mem_reverse.2 (List.mem_range.2 ?_)
    rw [List.length_append]
    omega
  · intro n hn hne
    rcases Nat.lt_or_ge n value.length with hlt | hge
    · -- the text would have to begin inside the value
      have hdrop : (value ++ (d :: t ++ line)).drop n = value[n] :: (value.drop (n + 1) ++ (d :: t ++ line)) := by
        rw [List.drop_append_of_le_length (Nat.le_of_lt hlt), List.drop_eq_getElem_cons hlt, List.cons_append]
      have hdiffers : ¬ d :: t <+: (value ++ (d :: t ++ line)).drop n := by
        rw [hdrop]
        intro hprefix
        rw [(List.cons_prefix_cons.1 hprefix).1] at hvalue
        exact hvalue (List.getElem_mem hlt)
      rw [matchPieces, if_neg hdiffers, Option.map_none, ite_self]
    · -- the group would take the character that ends it
      have hends : d ∈ (value ++ (d :: t ++ line)).take n := by
        obtain ⟨k, rfl⟩ : ∃ k, n = value.length + (k + 1) := ⟨n - value.length - 1, by omega⟩
        rw [List.take_length_add_append, List.cons_append, List.take_succ_cons]
        exact List.mem_append_right _ List.mem_cons_self
      exact if_neg fun h => htakes _ h hends

/-- What was put into a pattern is read from it, if its groups take it. -/
theorem matchPieces_fill {pieces : List (Piece α)} {values : List (List α)} (h : Delimited pieces values) :
    matchPieces pieces (fill pieces values) = if fits pieces values then some values else none := by
  induction h with
  | nil => rfl
  | text t h ih =>
    rw [fill, matchPieces_text, ih]
    rfl
  | last takes value =>
    have hfill : fill [.group takes] [value] = value := List.append_nil value
    rw [hfill, matchPieces_last, fits, fits, Bool.and_true]
  | @group takes value d t pieces values hvalue htakes h ih =>
    rw [fill, fill, matchPieces_group hvalue htakes, ih, fits, fits]
    cases takes value <;> cases fits pieces values <;> rfl

end LinePattern
