import Mathlib.Data.List.Basic

/-!
# Escaped strings

A string between quotes, in which quotes, backslashes and newlines are escaped by a backslash; a backslash before anything else
stands for itself.
-/

namespace JsonString

def quote : UInt8 := 34
def backslash : UInt8 := 92
def newline : UInt8 := 10

/-- What a newline is escaped to, behind the backslash. -/
def letterN : UInt8 := 110

/-- Escape a character. -/
def escapeChar (c : UInt8) : List UInt8 :=
  if c = quote then [backslash, quote]
  else if c = backslash then [backslash, backslash]
  else if c = newline then [backslash, letterN]
  else [c]

/-- Escape a string. -/
def escape (s : List UInt8) : List UInt8 := s.flatMap escapeChar

/-- Read an escaped string up to the quote that ends it, or to the end of the text: the string, and the rest of the text. -/
def unescape : List UInt8 → List UInt8 × List UInt8
  | [] => ([], [])
  | [c] => if c = quote then ([], [c]) else ([c], [])
  | c :: next :: text =>
    if c = quote then ([], c :: next :: text)
    else if c = backslash ∧ next = quote then (quote :: (unescape text).1, (unescape text).2)
    else if c = backslash ∧ next = backslash then (backslash :: (unescape text).1, (unescape text).2)
    else if c = backslash ∧ next = letterN then (newline :: (unescape text).1, (unescape text).2)
    else (c :: (unescape (next :: text)).1, (unescape (next :: text)).2)

/-- What the text between two quotes stands for. -/
def read (body : List UInt8) : List UInt8 := (unescape (body ++ [quote])).1

/-- Text that a quote behind it ends. -/
def IsBody (body : List UInt8) : Prop := ∀ rest, unescape (body ++ quote :: rest) = (read body, quote :: rest)

theorem escape_cons (c : UInt8) (s : List UInt8) : escape (c :: s) = escapeChar c ++ escape s := List.flatMap_cons

/-- A character stands for itself, or a backslash and another character stand for it. -/
theorem escapeChar_cases (c : UInt8) : (c ≠ quote ∧ c ≠ backslash ∧ escapeChar c = [c]) ∨
    ∃ letter, escapeChar c = [backslash, letter] ∧ (letter, c) ∈ [(quote, quote), (backslash, backslash), (letterN, newline)] := by
  unfold escapeChar
  split_ifs with hquote hbackslash hnewline
  · exact .inr ⟨quote, rfl, by simp [hquote]⟩
  · exact .inr ⟨backslash, rfl, by simp [hbackslash]⟩
  · exact .inr ⟨letterN, rfl, by simp [hnewline]⟩
  · exact .inl ⟨hquote, hbackslash, rfl⟩

/-- Reading undoes escaping: the string ends at the quote behind it, whatever is in it. -/
theorem unescape_escape (s rest : List UInt8) : unescape (escape s ++ quote :: rest) = (s, quote :: rest) := by
  induction s with
  | nil => cases rest <;> rfl
  | cons c s ih =>
    have hne : escape s ++ quote :: rest ≠ [] := by simp
    rw [escape_cons, List.append_assoc]
    generalize escape s ++ quote :: rest = text at ih hne
    unfold escapeChar
    split
    · rename_i hc
      rw [List.cons_append, List.singleton_append, unescape, ih, hc]
      rfl
    · rename_i hquote
      split
      · rename_i hc
        rw [List.cons_append, List.singleton_append, unescape, ih, hc]
        rfl
      · rename_i hbackslash
        split
        · rename_i hc
          rw [List.cons_append, List.singleton_append, unescape, ih, hc]
          rfl
        · -- an ordinary character, with at least the quote behind it
          rw [List.singleton_append]
          cases text with
          | nil => exact absurd rfl hne
          | cons next text =>
            rw [unescape, if_neg hquote, if_neg (by simp [hbackslash]), if_neg (by simp [hbackslash]),
              if_neg (by simp [hbackslash]), ih]

/-! ## Bodies -/

section Bodies

variable {body body' text rest rest' : List UInt8} {c next : UInt8}

theorem isBody_of_unescape (out : List UInt8) (h : ∀ rest, unescape (body ++ quote :: rest) = (out, quote :: rest)) : IsBody body := by
  intro rest
  rw [read, h [], h rest]

theorem isBody_nil : IsBody [] := by
  intro rest
  cases rest <;> rfl

/-- A character other than a quote and a backslash. -/
theorem IsBody.cons (hquote : c ≠ quote) (hbackslash : c ≠ backslash) (h : IsBody body) : IsBody (c :: body) := by
  refine isBody_of_unescape (c :: read body) ?_
  intro rest
  have hbody := h rest
  obtain ⟨b, text, htext⟩ : ∃ b text, body ++ quote :: rest = b :: text := List.exists_cons_of_ne_nil (by simp)
  rw [List.cons_append]
  rw [htext] at hbody ⊢
  rw [unescape, if_neg hquote, if_neg (by simp [hbackslash]), if_neg (by simp [hbackslash]), if_neg (by simp [hbackslash]), hbody]

/-- A backslash and what it escapes. -/
theorem IsBody.escape (hnext : next = quote ∨ next = backslash ∨ next = letterN) (h : IsBody body) :
    IsBody (backslash :: next :: body) := by
  refine isBody_of_unescape ((if next = letterN then newline else next) :: read body) ?_
  intro rest
  rw [List.cons_append, List.cons_append, unescape, h rest]
  rcases hnext with rfl | rfl | rfl <;> rfl

/-- A backslash that escapes nothing. -/
theorem IsBody.backslash (hquote : next ≠ quote) (hbackslash : next ≠ backslash) (hn : next ≠ letterN) (h : IsBody (next :: body)) :
    IsBody (backslash :: next :: body) := by
  refine isBody_of_unescape (JsonString.backslash :: read (next :: body)) ?_
  intro rest
  have hbody := h rest
  rw [List.cons_append] at hbody ⊢
  rw [List.cons_append, unescape, if_neg (by decide), if_neg (by simp [hquote]), if_neg (by simp [hbackslash]), if_neg (by simp [hn]),
    hbody]

/-- What is read up to a quote is a body. -/
theorem exists_body {out : List UInt8} (h : unescape text = (out, quote :: rest)) :
    ∃ body, text = body ++ quote :: rest ∧ IsBody body ∧ read body = out := by
  have hgoal : ∃ body, text = body ++ quote :: rest ∧ IsBody body := by
    fun_induction unescape text generalizing out with
    | case1 => cases h
    | case2 =>
      cases h
      exact ⟨[], rfl, isBody_nil⟩
    | case3 => cases h
    | case4 =>
      cases h
      exact ⟨[], rfl, isBody_nil⟩
    | case5 c next text hc hpair ih =>
      obtain ⟨rfl, rfl⟩ := hpair
      obtain ⟨-, hrest⟩ := Prod.mk.inj h
      obtain ⟨body, rfl, hbody⟩ := ih (Prod.ext rfl hrest)
      exact ⟨_, rfl, hbody.escape (.inl rfl)⟩
    | case6 c next text hc hpair hpair' ih =>
      obtain ⟨rfl, rfl⟩ := hpair'
      obtain ⟨-, hrest⟩ := Prod.mk.inj h
      obtain ⟨body, rfl, hbody⟩ := ih (Prod.ext rfl hrest)
      exact ⟨_, rfl, hbody.escape (.inr (.inl rfl))⟩
    | case7 c next text hc hpair hpair' hpair'' ih =>
      obtain ⟨rfl, rfl⟩ := hpair''
      obtain ⟨-, hrest⟩ := Prod.mk.inj h
      obtain ⟨body, rfl, hbody⟩ := ih (Prod.ext rfl hrest)
      exact ⟨_, rfl, hbody.escape (.inr (.inr rfl))⟩
    | case8 c next text hc hpair hpair' hpair'' ih =>
      obtain ⟨-, hrest⟩ := Prod.mk.inj h
      obtain ⟨body, htext, hbody⟩ := ih (Prod.ext rfl hrest)
      refine ⟨c :: body, by rw [htext, List.cons_append], ?_⟩
      by_cases hbackslash : c = JsonString.backslash
      · subst hbackslash
        cases body with
        | nil => exact absurd ⟨rfl, (List.cons.inj htext).1⟩ hpair
        | cons b body =>
          obtain ⟨rfl, -⟩ := List.cons.inj htext
          exact hbody.backslash (fun hn => hpair ⟨rfl, hn⟩) (fun hn => hpair' ⟨rfl, hn⟩) fun hn => hpair'' ⟨rfl, hn⟩
      · exact hbody.cons hc hbackslash
  obtain ⟨body, rfl, hbody⟩ := hgoal
  refine ⟨body, rfl, hbody, ?_⟩
  rw [hbody rest] at h
  exact (Prod.mk.inj h).1

/-- Where what is read needs no escape, it is the text. -/
theorem eq_append_of_unescape (h : ∀ b ∈ (unescape text).1, b ≠ quote ∧ b ≠ backslash ∧ b ≠ newline) :
    text = (unescape text).1 ++ (unescape text).2 := by
  fun_induction unescape text with
  | case1 => rfl
  | case2 => rfl
  | case3 => rfl
  | case4 => rfl
  | case5 => exact absurd rfl (h quote List.mem_cons_self).1
  | case6 => exact absurd rfl (h JsonString.backslash List.mem_cons_self).2.1
  | case7 => exact absurd rfl (h newline List.mem_cons_self).2.2
  | case8 _ _ _ _ _ _ _ ih => exact congrArg (List.cons _) (ih fun b hb => h b (List.mem_cons_of_mem _ hb))

theorem IsBody.read_eq (hbody : IsBody body) (h : ∀ b ∈ read body, b ≠ quote ∧ b ≠ JsonString.backslash ∧ b ≠ newline) : read body = body := by
  have htext : body ++ [quote] = _ := eq_append_of_unescape h
  rw [hbody []] at htext
  exact (List.append_cancel_right htext).symm

/-- Reading ends at a quote or with the text. -/
theorem unescape_rest (text : List UInt8) : (unescape text).2 = [] ∨ ∃ rest, (unescape text).2 = quote :: rest := by
  fun_induction unescape text with
  | case1 => exact .inl rfl
  | case2 => exact .inr ⟨[], rfl⟩
  | case3 => exact .inl rfl
  | case4 => exact .inr ⟨_, rfl⟩
  | case5 _ _ _ _ _ ih => exact ih
  | case6 _ _ _ _ _ _ ih => exact ih
  | case7 _ _ _ _ _ _ _ ih => exact ih
  | case8 _ _ _ _ _ _ _ ih => exact ih

/-- A text has one body. -/
theorem IsBody.unique (h : IsBody body) (h' : IsBody body') (htext : body ++ quote :: rest = body' ++ quote :: rest') :
    body = body' ∧ rest = rest' := by
  have hread := h rest
  rw [htext, h' rest'] at hread
  obtain rfl : rest' = rest := (List.cons.inj (Prod.mk.inj hread).2).2
  exact ⟨List.append_cancel_right htext, rfl⟩

end Bodies

end JsonString
