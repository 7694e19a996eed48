import TradeSurveillance.Lib.JsonText

/-!
# Printing JSON

`print` writes a value without white space. A value with numbers for its literals and characters for its strings is read back from what
is printed, and nothing else is (`isJson_print_iff`).
-/

namespace JsonText

open JsonGrammar (IsNumber)
open JsonString (escape)

mutual

/-- The text of a value. -/
def print : Json → List UInt8
  | .null => [110, 117, 108, 108]
  | .bool true => [116, 114, 117, 101]
  | .bool false => [102, 97, 108, 115, 101]
  | .number literal => literal
  | .string s => 34 :: (escape s ++ [34])
  | .array items => 91 :: printItems items
  | .object members => 123 :: printMembers members

/-- The items of an array and its closing bracket. -/
def printItems : List Json → List UInt8
  | [] => [93]
  | v :: items => print v ++ (if items.isEmpty then [93] else 44 :: printItems items)

/-- The members of an object and its closing brace. -/
def printMembers : List (List UInt8 × Json) → List UInt8
  | [] => [125]
  | member :: members => printMember member ++ (if members.isEmpty then [125] else 44 :: printMembers members)

/-- A key, a colon and a value. -/
def printMember : List UInt8 × Json → List UInt8
  | (key, v) => 34 :: (escape key ++ 34 :: 58 :: print v)

end

/-- The literals are numbers, and the strings have no character that JSON leaves out. -/
inductive Valid : Json → Prop where
  | null : Valid .null
  | bool (b : Bool) : Valid (.bool b)
  | number {literal : List UInt8} (h : IsNumber literal) : Valid (.number literal)
  | string {s : List UInt8} (h : Printable s) : Valid (.string s)
  | array {items : List Json} (h : ∀ v ∈ items, Valid v) : Valid (.array items)
  | object {members : List (List UInt8 × Json)} (hkeys : ∀ m ∈ members, Printable m.1) (h : ∀ m ∈ members, Valid m.2) :
    Valid (.object members)

/-- Nothing of a number comes next. -/
def Ends (text : List UInt8) : Prop := ∀ b ∈ text.head?, Decimal.isNumeric b = false

section Print

variable {text tail rest : List UInt8} {v v' : Json} {c d : UInt8}

/-- A number ends at the end of the text. -/
theorem Ends.nil : Ends [] := by
  intro b hb
  cases hb

/-- A number ends at a character that no numeral has. -/
theorem ends_cons (hc : Decimal.isNumeric c = false) : Ends (c :: text) := by
  intro b hb
  rwa [← Option.some.inj hb]

/-- A number ends at white space. -/
theorem ends_spaces {after : List UInt8} (hafter : Spaces after) (h : Ends rest) : Ends (after ++ rest) := by
  cases after with
  | nil => exact h
  | cons w after => exact ends_cons (not_isNumeric_of_isSpace (hafter w List.mem_cons_self))

/-- What comes behind an item of an array or a member of an object. -/
def isEnd (c : UInt8) : Bool := c = 44 || c = 93 || c = 125

/-- What comes behind an item is neither numeric nor white space. -/
theorem ends_of_isEnd (hc : isEnd c = true) : Decimal.isNumeric c = false ∧ isSpace c = false := by
  simp only [isEnd, Bool.or_eq_true, decide_eq_true_eq] at hc
  rcases hc with (rfl | rfl) | rfl <;> exact ⟨rfl, rfl⟩

/-- What is printed begins with no space, and does not close an array. -/
theorem print_head (h : Valid v) : ∃ b text, print v = b :: text ∧ isSpace b = false ∧ b ≠ 93 := by
  cases h with
  | null => exact ⟨_, _, by rw [print], rfl, by decide⟩
  | bool b => cases b <;> exact ⟨_, _, by rw [print], rfl, by decide⟩
  | string h => exact ⟨_, _, by rw [print], rfl, by decide⟩
  | array h => exact ⟨_, _, by rw [print], rfl, by decide⟩
  | object hkeys h => exact ⟨_, _, by rw [print], rfl, by decide⟩
  | number h =>
    obtain ⟨b, digits, rfl, hb⟩ := head_of_isNumber h
    refine ⟨b, digits, by rw [print], ?_, ?_⟩
    · cases hspace : isSpace b with
      | false => rfl
      | true => rw [not_isNumeric_of_isSpace hspace] at hb; cases hb
    · rintro rfl
      exact absurd hb (by decide)

/-! ## Words -/

/-- The words of JSON, and what they stand for. -/
def words : List (List UInt8 × Json) :=
  [([110, 117, 108, 108], .null), ([116, 114, 117, 101], .bool true), ([102, 97, 108, 115, 101], .bool false)]

/-- What begins with a letter is a word. -/
theorem value_word (h : Value (c :: text) v rest) (hnumeric : Decimal.isNumeric c = false) (hopen : c ≠ 34 ∧ c ≠ 91 ∧ c ≠ 123) :
    ∃ word, (word, v) ∈ words ∧ c :: text = word ++ rest := by
  generalize htext : c :: text = text' at h
  cases h with
  | null rest => exact ⟨_, by simp [words], rfl⟩
  | litTrue rest => exact ⟨_, by simp [words], rfl⟩
  | litFalse rest => exact ⟨_, by simp [words], rfl⟩
  | number rest h =>
    obtain ⟨b, digits, rfl, hb⟩ := head_of_isNumber h
    rw [(List.cons.inj htext).1, hb] at hnumeric
    cases hnumeric
  | string => exact absurd (List.cons.inj htext).1 hopen.1
  | emptyArray | array => exact absurd (List.cons.inj htext).1 hopen.2.1
  | emptyObject | object => exact absurd (List.cons.inj htext).1 hopen.2.2

/-- A word stands for its value only. -/
theorem value_word_iff {word : List UInt8} (hword : (word, v) ∈ words) : Value (word ++ text) v' rest ↔ v' = v ∧ rest = text := by
  simp only [words, List.mem_cons, Prod.mk.injEq, List.not_mem_nil, or_false] at hword
  constructor
  · intro h
    have hread : ∃ word', (word', v') ∈ words ∧ word ++ text = word' ++ rest := by
      rcases hword with ⟨rfl, -⟩ | ⟨rfl, -⟩ | ⟨rfl, -⟩ <;> exact value_word h rfl (by decide)
    obtain ⟨word', hword', heq⟩ := hread
    simp only [words, List.mem_cons, Prod.mk.injEq, List.not_mem_nil, or_false] at hword'
    rcases hword with ⟨rfl, rfl⟩ | ⟨rfl, rfl⟩ | ⟨rfl, rfl⟩ <;> rcases hword' with ⟨rfl, rfl⟩ | ⟨rfl, rfl⟩ | ⟨rfl, rfl⟩ <;> simp_all
  · rintro ⟨rfl, rfl⟩
    rcases hword with ⟨rfl, rfl⟩ | ⟨rfl, rfl⟩ | ⟨rfl, rfl⟩
    · exact .null _
    · exact .litTrue _
    · exact .litFalse _

/-- A value that opens with a bracket is an array. -/
theorem value_array_iff : Value (91 :: text) v rest ↔ (∃ ws, Spaces ws ∧ text = ws ++ 93 :: rest ∧ v = .array []) ∨
    ∃ items, v = .array items ∧ Items text items rest := by
  constructor
  · intro h
    generalize htext : 91 :: text = text' at h
    cases h with
    | emptyArray rest hws => exact .inl ⟨_, hws, (List.cons.inj htext).2, rfl⟩
    | array h =>
      obtain ⟨-, rfl⟩ := List.cons.inj htext
      exact .inr ⟨_, rfl, h⟩
    | number rest h =>
      obtain ⟨b, digits, rfl, hb⟩ := head_of_isNumber h
      obtain ⟨rfl, -⟩ := List.cons.inj htext
      exact absurd hb (by decide)
    | null | litTrue | litFalse | emptyObject | object | string => simp at htext
  · rintro (⟨ws, hws, rfl, rfl⟩ | ⟨items, rfl, h⟩)
    · exact .emptyArray rest hws
    · exact .array h

/-- A number ends where nothing of a number comes next. -/
theorem value_number_iff {literal : List UInt8} (hliteral : IsNumber literal) (htail : Ends tail) (hrest : Ends rest) :
    Value (literal ++ tail) v rest ↔ v = .number literal ∧ rest = tail := by
  constructor
  · intro h
    obtain ⟨literal', hliteral', rfl, heq⟩ := value_number h hliteral rfl
    obtain ⟨rfl, rfl⟩ := Search.run_unique hliteral.isNumeric.2 hliteral'.isNumeric.2 htail hrest heq
    exact ⟨rfl, rfl⟩
  · rintro ⟨rfl, rfl⟩
    exact .number _ hliteral

/-! ## What is read is what was printed -/

/-- The value `v` is read where it is printed, and nothing else. -/
def ReadBack (v : Json) : Prop :=
  ∀ (tail rest : List UInt8) (v' : Json), Ends tail → Ends rest → (Value (print v ++ tail) v' rest ↔ v' = v ∧ rest = tail)

/-- An item is read back from its print. -/
theorem item_print_iff (hvalid : Valid v) (h : ReadBack v) (hc : isEnd c = true) (hd : isEnd d = true) :
    Item (print v ++ c :: tail) v' (d :: rest) ↔ v' = v ∧ d :: rest = c :: tail := by
  obtain ⟨hcnumeric, hcspace⟩ := ends_of_isEnd hc
  obtain ⟨hdnumeric, hdspace⟩ := ends_of_isEnd hd
  have hread : ∀ {after : List UInt8}, Spaces after → (Value (print v ++ c :: tail) v' (after ++ d :: rest) ↔
      v' = v ∧ after ++ d :: rest = c :: tail) := fun hafter => h _ _ _ (ends_cons hcnumeric) (ends_spaces hafter (ends_cons hdnumeric))
  obtain ⟨b, text, hprint, hspace, -⟩ := print_head hvalid
  rw [hprint, List.cons_append, item_iff hspace, ← List.cons_append, ← hprint]
  constructor
  · rintro ⟨after, hafter, hvalue⟩
    obtain ⟨rfl, heq⟩ := (hread hafter).1 hvalue
    exact ⟨rfl, (hafter.eq_nil hcspace heq).2⟩
  · rintro ⟨rfl, heq⟩
    exact ⟨[], List.forall_mem_nil _, (hread (List.forall_mem_nil _)).2 ⟨rfl, heq⟩⟩

/-- Items are one, or one and a comma and more. -/
theorem items_iff {items : List Json} : Items text items rest ↔
    (∃ v, items = [v] ∧ Item text v (93 :: rest)) ∨
      ∃ v text' items', items = v :: items' ∧ Item text v (44 :: text') ∧ Items text' items' rest := by
  constructor
  · intro h
    cases h with
    | last h => exact .inl ⟨_, rfl, h⟩
    | more h hrest => exact .inr ⟨_, _, _, rfl, h, hrest⟩
  · rintro (⟨v, rfl, h⟩ | ⟨v, text', items', rfl, h, hrest⟩)
    · exact .last h
    · exact .more h hrest

/-- Items are read back from their print. -/
theorem items_print_iff {items items' : List Json} (hne : items ≠ []) (hvalid : ∀ v ∈ items, Valid v)
    (h : ∀ v ∈ items, ReadBack v) : Items (printItems items ++ tail) items' rest ↔ items' = items ∧ rest = tail := by
  induction items generalizing items' with
  | nil => exact absurd rfl hne
  | cons v items ih =>
    rw [printItems, items_iff]
    have hv := hvalid v List.mem_cons_self
    have hread := h v List.mem_cons_self
    cases items with
    | nil =>
      simp only [List.isEmpty_nil, if_true, List.append_assoc, List.cons_append, List.nil_append]
      constructor
      · rintro (⟨w, rfl, hitem⟩ | ⟨w, text', items', rfl, hitem, -⟩)
        · obtain ⟨rfl, heq⟩ := (item_print_iff hv hread rfl rfl).1 hitem
          exact ⟨rfl, (List.cons.inj heq).2⟩
        · obtain ⟨-, heq⟩ := (item_print_iff hv hread rfl rfl).1 hitem
          exact absurd (List.cons.inj heq).1 (by decide)
      · rintro ⟨rfl, rfl⟩
        exact .inl ⟨v, rfl, (item_print_iff hv hread rfl rfl).2 ⟨rfl, rfl⟩⟩
    | cons w items =>
      have hrest : ∀ {items' : List Json}, Items (printItems (w :: items) ++ tail) items' rest ↔ items' = w :: items ∧ rest = tail :=
        ih (List.cons_ne_nil _ _) (fun v hv => hvalid v (List.mem_cons_of_mem _ hv)) (fun v hv => h v (List.mem_cons_of_mem _ hv))
      simp only [List.isEmpty_cons, Bool.false_eq_true, if_false, List.append_assoc, List.cons_append]
      constructor
      · rintro (⟨x, rfl, hitem⟩ | ⟨x, text', items', rfl, hitem, hitems⟩)
        · obtain ⟨-, heq⟩ := (item_print_iff hv hread rfl rfl).1 hitem
          exact absurd (List.cons.inj heq).1 (by decide)
        · obtain ⟨rfl, heq⟩ := (item_print_iff hv hread rfl rfl).1 hitem
          obtain ⟨-, rfl⟩ := List.cons.inj heq
          obtain ⟨rfl, rfl⟩ := hrest.1 hitems
          exact ⟨rfl, rfl⟩
      · rintro ⟨rfl, rfl⟩
        exact .inr ⟨v, _, _, rfl, (item_print_iff hv hread rfl rfl).2 ⟨rfl, rfl⟩, hrest.2 ⟨rfl, rfl⟩⟩

/-- A member is read back from its print. -/
theorem member_print_iff {key key' : List UInt8} (hkey : Printable key) (hvalid : Valid v) (h : ReadBack v) (hc : isEnd c = true)
    (hd : isEnd d = true) :
    KeyValue (printMember (key, v) ++ c :: tail) key' v' (d :: rest) ↔ key' = key ∧ v' = v ∧ d :: rest = c :: tail := by
  rw [printMember, List.cons_append, List.append_assoc, List.cons_append, List.cons_append, member_iff,
    item_print_iff hvalid h hc hd]
  exact ⟨fun h => h.2, fun h => ⟨hkey, h⟩⟩

/-- Members are read back from their print. -/
theorem members_print_iff {members members' : List (List UInt8 × Json)} (hne : members ≠ []) (hkeys : ∀ m ∈ members, Printable m.1)
    (hvalid : ∀ m ∈ members, Valid m.2) (h : ∀ m ∈ members, ReadBack m.2) :
    Members (printMembers members ++ tail) members' rest ↔ members' = members ∧ rest = tail := by
  induction members generalizing members' with
  | nil => exact absurd rfl hne
  | cons m members ih =>
    obtain ⟨key, v⟩ := m
    rw [printMembers, members_iff]
    have hkey := hkeys (key, v) List.mem_cons_self
    have hv := hvalid (key, v) List.mem_cons_self
    have hread := h (key, v) List.mem_cons_self
    cases members with
    | nil =>
      simp only [List.isEmpty_nil, if_true, List.append_assoc, List.cons_append, List.nil_append]
      constructor
      · rintro (⟨key', w, rfl, hmember⟩ | ⟨key', w, text', members', rfl, hmember, -⟩)
        · obtain ⟨rfl, rfl, heq⟩ := (member_print_iff hkey hv hread rfl rfl).1 hmember
          exact ⟨rfl, (List.cons.inj heq).2⟩
        · obtain ⟨-, -, heq⟩ := (member_print_iff hkey hv hread rfl rfl).1 hmember
          exact absurd (List.cons.inj heq).1 (by decide)
      · rintro ⟨rfl, rfl⟩
        exact .inl ⟨key, v, rfl, (member_print_iff hkey hv hread rfl rfl).2 ⟨rfl, rfl, rfl⟩⟩
    | cons m' members =>
      have hrest : ∀ {members' : List (List UInt8 × Json)},
          Members (printMembers (m' :: members) ++ tail) members' rest ↔ members' = m' :: members ∧ rest = tail :=
        ih (List.cons_ne_nil _ _) (fun m hm => hkeys m (List.mem_cons_of_mem _ hm)) (fun m hm => hvalid m (List.mem_cons_of_mem _ hm))
          (fun m hm => h m (List.mem_cons_of_mem _ hm))
      simp only [List.isEmpty_cons, Bool.false_eq_true, if_false, List.append_assoc, List.cons_append]
      constructor
      · rintro (⟨key', w, rfl, hmember⟩ | ⟨key', w, text', members', rfl, hmember, hmembers⟩)
        · obtain ⟨-, -, heq⟩ := (member_print_iff hkey hv hread rfl rfl).1 hmember
          exact absurd (List.cons.inj heq).1 (by decide)
        · obtain ⟨rfl, rfl, heq⟩ := (member_print_iff hkey hv hread rfl rfl).1 hmember
          obtain ⟨-, rfl⟩ := List.cons.inj heq
          obtain ⟨rfl, rfl⟩ := hrest.1 hmembers
          exact ⟨rfl, rfl⟩
      · rintro ⟨rfl, rfl⟩
        exact .inr ⟨key, v, _, _, rfl, (member_print_iff hkey hv hread rfl rfl).2 ⟨rfl, rfl, rfl⟩, hrest.2 ⟨rfl, rfl⟩⟩

/-- Members begin with a quote. -/
theorem printMembers_cons (m : List UInt8 × Json) (members : List (List UInt8 × Json)) :
    ∃ text, printMembers (m :: members) = 34 :: text := by
  obtain ⟨key, v⟩ := m
  rw [printMembers, printMember]
  exact ⟨_, rfl⟩

/-- An array is closed where no item begins. -/
theorem not_items_close {items : List Json} : ¬ Items (93 :: text) items rest := by
  have hitem : ∀ {v rest}, ¬ Item (93 :: text) v rest := by
    intro v rest h
    obtain ⟨after, -, hvalue⟩ := (item_iff rfl).1 h
    obtain ⟨word, hword, heq⟩ := value_word hvalue rfl (by decide)
    simp only [words, List.mem_cons, Prod.mk.injEq, List.not_mem_nil, or_false] at hword
    rcases hword with ⟨rfl, -⟩ | ⟨rfl, -⟩ | ⟨rfl, -⟩ <;> simp at heq
  intro h
  cases h with
  | last h => exact hitem h
  | more h _ => exact hitem h

/-- By induction on the value: the parts of an array or an object are read back. -/
theorem Valid.readBack (h : Valid v) : ReadBack v := by
  induction h with
  | null =>
    intro tail rest v' _ _
    rw [print]
    exact value_word_iff (by simp [words])
  | bool b =>
    intro tail rest v' _ _
    cases b with
    | true =>
      rw [print]
      exact value_word_iff (by simp [words])
    | false =>
      rw [print]
      exact value_word_iff (by simp [words])
  | number h =>
    intro tail rest v' htail hrest
    rw [print]
    exact value_number_iff h htail hrest
  | @string s h =>
    intro tail rest v' _ _
    rw [print, List.cons_append, List.append_assoc, List.singleton_append, value_string_iff]
    constructor
    · rintro ⟨value, rfl, hchars⟩
      obtain ⟨-, rfl, heq⟩ := chars_escape_iff.1 hchars
      exact ⟨rfl, heq⟩
    · rintro ⟨rfl, rfl⟩
      exact ⟨s, rfl, chars_escape h _⟩
  | @array items hvalid ih =>
    intro tail rest v' _ _
    rw [print, List.cons_append, value_array_iff]
    cases items with
    | nil =>
      rw [printItems, List.singleton_append]
      constructor
      · rintro (⟨ws, hws, heq, rfl⟩ | ⟨items, -, hitems⟩)
        · exact ⟨rfl, (List.cons.inj (hws.eq_nil rfl heq.symm).2).2⟩
        · exact absurd hitems not_items_close
      · rintro ⟨rfl, rfl⟩
        exact .inl ⟨[], List.forall_mem_nil _, rfl, rfl⟩
    | cons v items =>
      obtain ⟨b, text, hprint, hspace, hopen⟩ := print_head (hvalid v List.mem_cons_self)
      have hitems : ∀ {items'}, Items (printItems (v :: items) ++ tail) items' rest ↔ items' = v :: items ∧ rest = tail :=
        items_print_iff (List.cons_ne_nil _ _) hvalid ih
      constructor
      · rintro (⟨ws, hws, heq, -⟩ | ⟨items', rfl, hread⟩)
        · rw [printItems, hprint] at heq
          exact absurd (List.cons.inj (hws.eq_nil hspace heq.symm).2).1.symm hopen
        · obtain ⟨rfl, rfl⟩ := hitems.1 hread
          exact ⟨rfl, rfl⟩
      · rintro ⟨rfl, rfl⟩
        exact .inr ⟨_, rfl, hitems.2 ⟨rfl, rfl⟩⟩
  | @object members hkeys hvalid ih =>
    intro tail rest v' _ _
    rw [print, List.cons_append, value_object_iff]
    cases members with
    | nil =>
      rw [printMembers, List.singleton_append]
      constructor
      · rintro (⟨ws, hws, heq, rfl⟩ | ⟨members, -, hmembers⟩)
        · exact ⟨rfl, (List.cons.inj (hws.eq_nil rfl heq.symm).2).2⟩
        · exact absurd (quote_of_members rfl hmembers) (by decide)
      · rintro ⟨rfl, rfl⟩
        exact .inl ⟨[], List.forall_mem_nil _, rfl, rfl⟩
    | cons m members =>
      obtain ⟨text, hprint⟩ := printMembers_cons m members
      have hmembers : ∀ {members'},
          Members (printMembers (m :: members) ++ tail) members' rest ↔ members' = m :: members ∧ rest = tail :=
        members_print_iff (List.cons_ne_nil _ _) hkeys hvalid ih
      constructor
      · rintro (⟨ws, hws, heq, -⟩ | ⟨members', rfl, hread⟩)
        · rw [hprint] at heq
          exact absurd (List.cons.inj (hws.eq_nil rfl heq.symm).2).1 (by decide)
        · obtain ⟨rfl, rfl⟩ := hmembers.1 hread
          exact ⟨rfl, rfl⟩
      · rintro ⟨rfl, rfl⟩
        exact .inr ⟨_, rfl, hmembers.2 ⟨rfl, rfl⟩⟩

/-- What is printed is JSON and stands for its value only. -/
theorem isJson_print_iff (h : Valid v) : IsJson (print v) v' ↔ v' = v := by
  obtain ⟨b, text, hprint, hspace, -⟩ := print_head h
  have hread : ∀ {after : List UInt8}, Spaces after → (Value (print v) v' (after ++ []) ↔ v' = v ∧ after ++ [] = []) := by
    intro after hafter
    have hend := h.readBack [] (after ++ []) v' Ends.nil (ends_spaces hafter Ends.nil)
    rwa [List.append_nil] at hend
  unfold IsJson
  rw [hprint, item_iff hspace, ← hprint]
  constructor
  · rintro ⟨after, hafter, hvalue⟩
    exact ((hread hafter).1 hvalue).1
  · rintro rfl
    exact ⟨[], List.forall_mem_nil _, (hread (List.forall_mem_nil _)).2 ⟨rfl, rfl⟩⟩

end Print

end JsonText
