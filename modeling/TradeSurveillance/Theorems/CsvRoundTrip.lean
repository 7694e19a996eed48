import TradeSurveillance.Simulator.Serialization.CsvWriter
import TradeSurveillance.Theorems.LabeledJson

/-!
# The labelled dataset as CSV

`csv_round_trip_iff`: what the writer prints is read back exactly when no string has a newline in it. A line is read back whatever
commas, quotes and carriage returns its fields hold; but the reader splits the text into lines before it looks at quotes, so that a
field with a newline ends its line early, with too few columns.
-/

namespace TradeSurveillance.Simulator

/-! ## Fields -/

/-- The text of fields, separated by commas. -/
def joinFields : List Str → Str
  | [] => []
  | [f] => csvEscape f
  | f :: g :: fs => csvEscape f ++ 44 :: joinFields (g :: fs)

/-- What a text is up to its first newline. -/
def firstLine (text : Str) : Str := text.takeWhile (· ≠ 10)

/-- A field that is not quoted. -/
def Plain (f : Str) : Prop := 44 ∉ f ∧ 34 ∉ f ∧ 10 ∉ f

instance (f : Str) : Decidable (Plain f) := inferInstanceAs (Decidable (_ ∧ _))

/-- What doubles the quotes of a field. -/
def doubleQuotes (f : Str) : Str := f.flatMap fun c => if c = 34 then [34, 34] else [c]

/-- A plain field is written as it is. -/
theorem csvEscape_plain {f : Str} (h : Plain f) : csvEscape f = f := by
  simp [csvEscape, h.1, h.2.1, h.2.2]

/-- Any other is written between quotes, its quotes doubled. -/
theorem csvEscape_quoted {f : Str} (h : ¬Plain f) : csvEscape f = 34 :: (doubleQuotes f ++ [34]) := by
  have hf : 44 ∈ f ∨ 34 ∈ f ∨ 10 ∈ f := by
    by_contra hf
    simp only [not_or] at hf
    exact h hf
  simp [csvEscape, hf, doubleQuotes]

/-- Doubling goes character by character. -/
theorem doubleQuotes_cons (c : UInt8) (f : Str) : doubleQuotes (c :: f) = (if c = 34 then [34, 34] else [c]) ++ doubleQuotes f :=
  List.flatMap_cons

/-- Doubling the quotes neither adds nor removes a newline. -/
theorem newline_mem_doubleQuotes {f : Str} : 10 ∈ doubleQuotes f ↔ 10 ∈ f := by
  simp only [doubleQuotes, List.mem_flatMap]
  constructor
  · rintro ⟨c, hc, h⟩
    split at h
    · simp at h
    · rw [List.mem_singleton.1 h]
      exact hc
  · intro h
    exact ⟨10, h, by simp⟩

/-- Nor does escaping a field. -/
theorem newline_mem_csvEscape {f : Str} : 10 ∈ csvEscape f ↔ 10 ∈ f := by
  by_cases h : Plain f
  · rw [csvEscape_plain h]
  · rw [csvEscape_quoted h]
    simp [newline_mem_doubleQuotes]

/-- A quoted field ends at its closing quote, with a comma or nothing behind it. -/
theorem readQuoted_doubleQuotes (f rest : Str) (hrest : rest = [] ∨ ∃ r, rest = 44 :: r) :
    readQuoted (doubleQuotes f ++ 34 :: rest) = (f, rest) := by
  induction f with
  | nil => rcases hrest with rfl | ⟨r, rfl⟩ <;> rfl
  | cons c f ih =>
    rw [doubleQuotes_cons]
    split
    · rename_i hc
      subst hc
      simp only [List.cons_append, List.nil_append, readQuoted, if_true, ih]
    · rename_i hc
      cases htext : doubleQuotes f ++ 34 :: rest with
      | nil => simp at htext
      | cons next text =>
        rw [htext] at ih
        simp only [List.cons_append, List.nil_append, htext, readQuoted, hc, if_false, ih]

/-- A quoted field without its closing quote is the rest of the line. -/
theorem readQuoted_open (f : Str) : readQuoted (doubleQuotes f) = (f, []) := by
  induction f with
  | nil => rfl
  | cons c f ih =>
    rw [doubleQuotes_cons]
    split
    · rename_i hc
      subst hc
      simp only [List.cons_append, List.nil_append, readQuoted, if_true, ih]
    · rename_i hc
      cases htext : doubleQuotes f with
      | nil =>
        rw [htext] at ih
        cases ih
        simp [readQuoted, hc]
      | cons next text =>
        rw [htext] at ih
        simp only [List.cons_append, List.nil_append, readQuoted, hc, if_false, ih]

/-- A field that does not open with a quote runs to the next comma. -/
theorem readField_bare {line : Str} (h : line.head? ≠ some 34) :
    readField line = (line.takeWhile (· ≠ 44), line.dropWhile (· ≠ 44)) := by
  unfold readField
  split
  · simp at h
  · rfl

/-- A field is read back, with a comma or nothing behind it. -/
theorem readField_csvEscape (f rest : Str) (hrest : rest = [] ∨ ∃ r, rest = 44 :: r) :
    readField (csvEscape f ++ rest) = (f, rest) := by
  by_cases h : Plain f
  · rw [csvEscape_plain h, readField_bare]
    · have hf : ∀ c ∈ f, decide (c ≠ 44) = true := fun c hc => decide_eq_true fun hc44 => h.1 (hc44 ▸ hc)
      rw [List.takeWhile_append_of_pos hf, List.dropWhile_append_of_pos hf]
      rcases hrest with rfl | ⟨r, rfl⟩ <;> simp
    · cases f with
      | nil => rcases hrest with rfl | ⟨r, rfl⟩ <;> simp
      | cons c f =>
        intro hc
        exact h.2.1 (by simp at hc; simp [hc])
  · rw [csvEscape_quoted h, List.cons_append, List.append_assoc, List.singleton_append]
    exact readQuoted_doubleQuotes f rest hrest

/-! ## Lines -/

/-- There is at most one field more than characters. -/
theorem length_le_joinFields (fs : List Str) : fs.length ≤ (joinFields fs).length + 1 := by
  induction fs with
  | nil => exact Nat.zero_le _
  | cons f fs ih =>
    cases fs with
    | nil => simp
    | cons g fs =>
      simp only [joinFields, List.length_append, List.length_cons] at ih ⊢
      omega

/-- The fields of a line are read back from their text. -/
theorem parseCsvFields_joinFields (fs : List Str) (hne : fs ≠ []) (fuel : ℕ) (hfuel : fs.length ≤ fuel + 1) :
    parseCsvFields fuel (joinFields fs) = fs := by
  induction fs generalizing fuel with
  | nil => exact absurd rfl hne
  | cons f fs ih =>
    cases fs with
    | nil =>
      have hread := readField_csvEscape f [] (Or.inl rfl)
      rw [List.append_nil] at hread
      cases fuel <;> simp only [joinFields, parseCsvFields, hread]
    | cons g fs =>
      obtain ⟨fuel, rfl⟩ : ∃ n, fuel = n + 1 := ⟨fuel - 1, by simp at hfuel; omega⟩
      have hread := readField_csvEscape f (44 :: joinFields (g :: fs)) (Or.inr ⟨_, rfl⟩)
      simp only [joinFields, parseCsvFields, hread]
      rw [ih (List.cons_ne_nil _ _) fuel (by simpa using hfuel)]

/-- A line is read back. -/
theorem parseCsvLine_joinFields (fs : List Str) (hne : fs ≠ []) : parseCsvLine (joinFields fs) = fs :=
  parseCsvFields_joinFields fs hne _ (length_le_joinFields fs)

/-- The first line runs through a text without newline. -/
theorem firstLine_append {a rest : Str} (h : 10 ∉ a) : firstLine (a ++ rest) = a ++ firstLine rest :=
  List.takeWhile_append_of_pos fun _ hc => decide_eq_true fun hc10 => h (hc10 ▸ hc)

/-- What is behind a newline does not matter. -/
theorem firstLine_append_newline (a rest : Str) : firstLine (a ++ 10 :: rest) = firstLine a := by
  induction a with
  | nil => simp [firstLine]
  | cons c a ih =>
    unfold firstLine at ih ⊢
    rw [List.cons_append, List.takeWhile_cons, List.takeWhile_cons, ih]

/-- A field with a newline leaves its opening quote and what is before the newline. -/
theorem firstLine_csvEscape {f : Str} (h : 10 ∈ f) (rest : Str) :
    firstLine (csvEscape f ++ rest) = 34 :: doubleQuotes (firstLine f) := by
  have hplain : ¬Plain f := fun hp => hp.2.2 h
  have hdouble : ∀ rest, firstLine (doubleQuotes f ++ rest) = doubleQuotes (firstLine f) := by
    clear hplain
    induction f with
    | nil => nomatch h
    | cons c f ih =>
      intro rest
      by_cases hc : c = 10
      · subst hc
        simp [firstLine, doubleQuotes]
      · have hf : 10 ∈ f := (List.mem_cons.1 h).resolve_left (Ne.symm hc)
        have hline : firstLine (c :: f) = c :: firstLine f := List.takeWhile_cons_of_pos (by simpa using hc)
        rw [doubleQuotes_cons, hline, doubleQuotes_cons, List.append_assoc, firstLine_append, ih hf]
        split
        · decide
        · simpa using Ne.symm hc
  rw [csvEscape_quoted hplain, List.cons_append, List.append_assoc]
  exact (List.takeWhile_cons_of_pos (by decide)).trans (congrArg (34 :: ·) (hdouble _))

/-- Where a field before the last has a newline, the first line has too few fields. -/
theorem parseCsvFields_firstLine (fs : List Str) (hbad : ∃ f ∈ fs.dropLast, 10 ∈ f) (fuel : ℕ)
    (hfuel : (firstLine (joinFields fs)).length ≤ fuel) :
    (parseCsvFields fuel (firstLine (joinFields fs))).length < fs.length := by
  induction fs generalizing fuel with
  | nil => simp at hbad
  | cons f fs ih =>
    cases fs with
    | nil => simp at hbad
    | cons g fs =>
      by_cases hf : 10 ∈ f
      · have hread : readField (34 :: doubleQuotes (firstLine f)) = (firstLine f, []) := readQuoted_open _
        rw [joinFields, firstLine_csvEscape hf]
        cases fuel <;> simp [parseCsvFields, hread]
      · have hline : firstLine (joinFields (f :: g :: fs)) = csvEscape f ++ 44 :: firstLine (joinFields (g :: fs)) := by
          rw [joinFields, firstLine_append (fun h => hf (newline_mem_csvEscape.1 h))]
          rfl
        rw [hline, List.length_append, List.length_cons] at hfuel
        obtain ⟨fuel, rfl⟩ : ∃ n, fuel = n + 1 := ⟨fuel - 1, by omega⟩
        have hread := readField_csvEscape f (44 :: firstLine (joinFields (g :: fs))) (Or.inr ⟨_, rfl⟩)
        have hbad' : ∃ f ∈ (g :: fs).dropLast, 10 ∈ f := by
          obtain ⟨f', hmem, hnl⟩ := hbad
          rw [List.dropLast_cons_of_ne_nil (List.cons_ne_nil _ _)] at hmem
          rcases List.mem_cons.1 hmem with rfl | hmem
          · exact absurd hnl hf
          · exact ⟨f', hmem, hnl⟩
        rw [hline]
        simp only [parseCsvFields, hread, List.length_cons]
        exact Nat.succ_lt_succ (ih hbad' fuel (by omega))

/-! ## Texts -/

/-- A line of a text. -/
theorem getlines_append {line : Str} (h : 10 ∉ line) (rest : Str) : getlines (line ++ 10 :: rest) = line :: getlines rest := by
  induction line with
  | nil => simp [getlines]
  | cons c line ih =>
    have hc : c ≠ 10 := fun hc => h (hc ▸ List.mem_cons_self)
    rw [List.cons_append, getlines, if_neg hc, ih fun hm => h (List.mem_cons_of_mem _ hm)]

/-- The first line of a text that has a newline. -/
theorem getlines_firstLine {text : Str} (h : 10 ∈ text) : ∃ lines, getlines text = firstLine text :: lines := by
  obtain ⟨line, rest, rfl, hline⟩ := List.eq_append_cons_of_mem h
  have hfirst : firstLine (line ++ 10 :: rest) = line := by
    rw [firstLine_append hline]
    simp [firstLine]
  exact ⟨_, by rw [getlines_append hline, hfirst]⟩

section Rows

variable {α : Type} {fields : α → List Str} {row : α → Str} {read : Str → Except Exception α} {n : ℕ}

/-- A line of at least two fields is not empty, nor is what is before its first newline. -/
theorem firstLine_ne_nil {fs : List Str} (h : 2 ≤ fs.length) : firstLine (joinFields fs) ≠ [] := by
  match fs with
  | [] | [_] => simp at h
  | f :: g :: fs =>
    by_cases hf : 10 ∈ f
    · rw [joinFields, firstLine_csvEscape hf]
      exact List.cons_ne_nil _ _
    · rw [joinFields, firstLine_append fun h => hf (newline_mem_csvEscape.1 h)]
      simp [firstLine]

/-- Joining the fields adds no newline. -/
theorem newline_mem_joinFields {fs : List Str} : 10 ∈ joinFields fs ↔ ∃ f ∈ fs, 10 ∈ f := by
  induction fs with
  | nil => simp [joinFields]
  | cons f fs ih =>
    cases fs with
    | nil => simp [joinFields, newline_mem_csvEscape]
    | cons g fs =>
      rw [joinFields, List.mem_append, newline_mem_csvEscape, List.mem_cons, ih]
      simp

/-- A row without newlines is a line of its own. -/
theorem splitLines_row {fs : List Str} (hlen : 2 ≤ fs.length) (h : ∀ f ∈ fs, 10 ∉ f) (rest : Str) :
    splitLines (joinFields fs ++ 10 :: rest) = joinFields fs :: splitLines rest := by
  have hnl : 10 ∉ joinFields fs := by
    rw [newline_mem_joinFields]
    rintro ⟨f, hf, hf10⟩
    exact h f hf hf10
  have hne : joinFields fs ≠ [] := by
    intro hnil
    apply firstLine_ne_nil hlen
    rw [hnil]
    rfl
  rw [splitLines, getlines_append hnl, List.filter_cons_of_pos (by simpa using hne)]
  rfl

/-- Where a field before the last has a newline, the text's first line has too few columns. -/
theorem splitLines_broken_row {fs : List Str} (hlen : 2 ≤ fs.length) (hbad : ∃ f ∈ fs.dropLast, 10 ∈ f) (rest : Str) :
    ∃ line lines, splitLines (joinFields fs ++ 10 :: rest) = line :: lines ∧ (parseCsvLine line).length ≠ fs.length := by
  obtain ⟨lines, hlines⟩ := getlines_firstLine (show 10 ∈ joinFields fs ++ 10 :: rest by simp)
  rw [firstLine_append_newline] at hlines
  have hshort := parseCsvFields_firstLine fs hbad _ (Nat.le_refl _)
  have hsplit : splitLines (joinFields fs ++ 10 :: rest) = firstLine (joinFields fs) :: lines.filter (· ≠ []) := by
    rw [splitLines, hlines, List.filter_cons_of_pos (by simpa using firstLine_ne_nil hlen)]
  exact ⟨_, _, hsplit, hshort.ne⟩

/-- Rows are read back exactly when no field has a newline, where the last field of a row never has one. -/
theorem rows_iff (xs : List α) (hrow : ∀ x, row x = joinFields (fields x) ++ [10]) (hlen : ∀ x, (fields x).length = n)
    (hn : 2 ≤ n) (hlast : ∀ x, ∀ f ∈ fields x, 10 ∈ f → f ∈ (fields x).dropLast)
    (hread : ∀ x ∈ xs, ∀ line, parseCsvLine line = fields x → read line = .ok x)
    (hcolumns : ∀ line, (parseCsvLine line).length ≠ n → ∃ e, read line = .error e) :
    (splitLines (xs.flatMap row)).mapM read = .ok xs ↔ ∀ x ∈ xs, ∀ f ∈ fields x, 10 ∉ f := by
  induction xs with
  | nil => simp [splitLines, getlines, pure, Except.pure]
  | cons x xs ih =>
    have htext : (x :: xs).flatMap row = joinFields (fields x) ++ 10 :: xs.flatMap row := by
      rw [List.flatMap_cons, hrow, List.append_assoc]
      rfl
    have hx2 : 2 ≤ (fields x).length := (hlen x).symm ▸ hn
    rw [htext]
    by_cases hx : ∀ f ∈ fields x, 10 ∉ f
    · have hne : fields x ≠ [] := List.length_pos_iff.1 (by omega)
      rw [splitLines_row hx2 hx, List.mapM_cons, hread x List.mem_cons_self _ (parseCsvLine_joinFields _ hne), ok_bind]
      rw [List.forall_mem_cons, ← ih fun y hy => hread y (List.mem_cons_of_mem _ hy)]
      cases (splitLines (xs.flatMap row)).mapM read with
      | error e => simp [bind, Except.bind]
      | ok ys =>
        constructor
        · intro h
          cases h
          exact ⟨hx, rfl⟩
        · rintro ⟨-, h⟩
          cases h
          rfl
    · obtain ⟨f, hf, hf10⟩ : ∃ f ∈ fields x, 10 ∈ f := by
        by_contra hnone
        exact hx fun f hf hf10 => hnone ⟨f, hf, hf10⟩
      -- the first call of `read` throws
      obtain ⟨line, lines, hlines, hshort⟩ := splitLines_broken_row hx2 ⟨f, hlast x f hf hf10, hf10⟩ (xs.flatMap row)
      rw [hlen] at hshort
      obtain ⟨e, he⟩ := hcolumns line hshort
      rw [hlines, List.mapM_cons, he]
      constructor
      · intro h
        cases h
      · intro h
        exact absurd hf10 (h x List.mem_cons_self f hf)

/-- The header is skipped. -/
theorem splitLines_header {header : Str} (h : header.dropLast ≠ [] ∧ 10 ∉ header.dropLast ∧ header = header.dropLast ++ [10])
    (rest : Str) : (splitLines (header ++ rest)).tail = splitLines rest := by
  obtain ⟨hne, hnl, heq⟩ := h
  rw [heq, List.append_assoc, List.singleton_append, splitLines, getlines_append hnl,
    List.filter_cons_of_pos (by simpa using hne)]
  rfl

/-- Of the fields of a row, one with a newline is not the last, where that has none. -/
theorem newline_mem_dropLast {fs : List Str} {last f : Str} (hlast : 10 ∉ last) (hf : f ∈ fs ++ [last]) (hnl : 10 ∈ f) :
    f ∈ (fs ++ [last]).dropLast := by
  rw [List.dropLast_concat]
  rcases List.mem_append.1 hf with hf | hf
  · exact hf
  · exact absurd (List.mem_singleton.1 hf ▸ hnl) hlast

end Rows

/-! ## Orders and executions -/

section Dataset

variable {P : Type} [Double P]

/-- The fields of an order's row. -/
def orderFields (order : Order P) : List Str :=
  [order.orderId, order.accountId, order.instrumentId, order.side.toString, Double.printFixed 8 order.price,
    Decimal.ofInt order.qty, order.orderType.toString, Decimal.ofInt order.timestampNs, order.status.toString, order.venue,
    order.groundTruthLabel.pattern.toString, order.groundTruthLabel.scenarioId,
    Double.printFixed 8 order.groundTruthLabel.severity]

/-- The fields of an execution's row. -/
def executionFields (execution : Execution P) : List Str :=
  [execution.tradeId, execution.orderId, execution.accountId, execution.instrumentId, Double.printFixed 8 execution.price,
    Decimal.ofInt execution.qty, Decimal.ofInt execution.timestampNs, execution.counterpartyAccountId, execution.venue,
    execution.groundTruthLabel.pattern.toString, execution.groundTruthLabel.scenarioId,
    Double.printFixed 8 execution.groundTruthLabel.severity]

/-- The strings of an order. -/
def Order.strings (order : Order P) : List Str :=
  [order.orderId, order.accountId, order.instrumentId, order.venue, order.groundTruthLabel.scenarioId]

/-- The strings of an execution. -/
def Execution.strings (execution : Execution P) : List Str :=
  [execution.tradeId, execution.orderId, execution.accountId, execution.instrumentId, execution.counterpartyAccountId,
    execution.venue, execution.groundTruthLabel.scenarioId]

omit [Double P] in
/-- A numeral is plain. -/
theorem plain_of_numeric {text : Str} (h : ∀ b ∈ text, Decimal.isNumeric b = true) : Plain text :=
  ⟨fun hb => absurd (h _ hb) (by decide), fun hb => absurd (h _ hb) (by decide), fun hb => absurd (h _ hb) (by decide)⟩

omit [Double P] in
/-- So is an integer. -/
theorem plain_ofInt (z : ℤ) : Plain (Decimal.ofInt z) := plain_of_numeric fun _ hb => Decimal.isNumeric_of_mem_ofInt hb

/-- So is a double with a fixed number of decimals. -/
theorem plain_printFixed (digits : ℕ) (x : P) : Plain (Double.printFixed digits x) := by
  have hsign : Plain (Double.sign x) := by
    unfold Double.sign
    split
    · exact of_decide_eq_true rfl
    · exact ⟨List.not_mem_nil, List.not_mem_nil, List.not_mem_nil⟩
  have hrest : Plain (if Double.isFinite x then Decimal.fixed digits (Double.magnitude x) else ascii "inf") := by
    split
    · exact plain_of_numeric fun _ hb => Decimal.isNumeric_of_mem_fixed hb
    · exact of_decide_eq_true rfl
  simp only [Plain, Double.printFixed, List.mem_append, not_or]
  exact ⟨⟨hsign.1, hrest.1⟩, ⟨hsign.2.1, hrest.2.1⟩, ⟨hsign.2.2, hrest.2.2⟩⟩

omit [Double P] in
/-- So are the names of sides, types, statuses and patterns. -/
theorem plain_texts (side : Side) (type : OrderType) (status : OrderStatus) (pattern : AbusePattern) :
    Plain side.toString ∧ Plain type.toString ∧ Plain status.toString ∧ Plain pattern.toString := by
  refine ⟨?_, ?_, ?_, ?_⟩
  · cases side <;> exact of_decide_eq_true rfl
  · cases type <;> exact of_decide_eq_true rfl
  · cases status <;> exact of_decide_eq_true rfl
  · cases pattern <;> exact of_decide_eq_true rfl

/-- The row of an order is its fields and a newline. -/
theorem orderRow_eq (order : Order P) : orderRow order = joinFields (orderFields order) ++ [10] := by
  obtain ⟨hside, htype, hstatus, hpattern⟩ :=
    plain_texts order.side order.orderType order.status order.groundTruthLabel.pattern
  have hc : ascii "," = [44] := rfl
  have hn : ascii "\n" = [10] := rfl
  unfold orderRow
  simp only [orderFields, joinFields, csvEscape_plain hside, csvEscape_plain htype, csvEscape_plain hstatus,
    csvEscape_plain hpattern, csvEscape_plain (plain_ofInt _), csvEscape_plain (plain_printFixed _ _), hc, hn,
    List.append_assoc, List.cons_append, List.nil_append]

/-- The row of an execution is its fields and a newline. -/
theorem executionRow_eq (execution : Execution P) :
    executionRow execution = joinFields (executionFields execution) ++ [10] := by
  have hpattern := (plain_texts .buy .limit .new execution.groundTruthLabel.pattern).2.2.2
  have hc : ascii "," = [44] := rfl
  have hn : ascii "\n" = [10] := rfl
  unfold executionRow
  simp only [executionFields, joinFields, csvEscape_plain hpattern, csvEscape_plain (plain_ofInt _),
    csvEscape_plain (plain_printFixed _ _), hc, hn, List.append_assoc, List.cons_append, List.nil_append]

/-- An order whose numbers are those of the source's types and whose price and severity are read back from eight decimals. -/
structure Order.Exact (order : Order P) : Prop where
  price : Double.stod (Double.printFixed 8 order.price) = .ok order.price
  severity : Double.stod (Double.printFixed 8 order.groundTruthLabel.severity) = .ok order.groundTruthLabel.severity
  qty : IsInt64 order.qty
  timestampNs : IsInt64 order.timestampNs

/-- The same of an execution. -/
structure Execution.Exact (execution : Execution P) : Prop where
  price : Double.stod (Double.printFixed 8 execution.price) = .ok execution.price
  severity : Double.stod (Double.printFixed 8 execution.groundTruthLabel.severity) = .ok execution.groundTruthLabel.severity
  qty : IsInt64 execution.qty
  timestampNs : IsInt64 execution.timestampNs

/-- An order is read back from its fields. -/
theorem parseOrderLine_fields {order : Order P} (ho : order.Exact) {line : Str} (h : parseCsvLine line = orderFields order) :
    parseOrderLine line = .ok order := by
  unfold parseOrderLine
  rw [h]
  simp only [orderFields, sideFromString_toString, orderTypeFromString_toString, orderStatusFromString_toString,
    abusePatternFromString_toString, ho.price, ho.severity, stoll_ofInt ho.qty, stoll_ofInt ho.timestampNs, ok_bind]

/-- An execution is read back from its fields. -/
theorem parseExecutionLine_fields {execution : Execution P} (hx : execution.Exact) {line : Str}
    (h : parseCsvLine line = executionFields execution) : parseExecutionLine line = .ok execution := by
  unfold parseExecutionLine
  rw [h]
  simp only [executionFields, abusePatternFromString_toString, hx.price, hx.severity, stoll_ofInt hx.qty,
    stoll_ofInt hx.timestampNs, ok_bind]

/-- A line without thirteen columns is no order. -/
theorem parseOrderLine_columns {line : Str} (h : (parseCsvLine line).length ≠ 13) :
    ∃ e, (parseOrderLine line : Except Exception (Order P)) = .error e := by
  unfold parseOrderLine
  split
  · rename_i heq
    rw [heq] at h
    exact absurd rfl h
  · exact ⟨_, rfl⟩

/-- A line without twelve columns is no execution. -/
theorem parseExecutionLine_columns {line : Str} (h : (parseCsvLine line).length ≠ 12) :
    ∃ e, (parseExecutionLine line : Except Exception (Execution P)) = .error e := by
  unfold parseExecutionLine
  split
  · rename_i heq
    rw [heq] at h
    exact absurd rfl h
  · exact ⟨_, rfl⟩

/-- The last field of an order is not a string. -/
theorem orderFields_last (order : Order P) : ∀ f ∈ orderFields order, 10 ∈ f → f ∈ (orderFields order).dropLast := by
  have hsplit : orderFields order = (orderFields order).dropLast ++ [Double.printFixed 8 order.groundTruthLabel.severity] := rfl
  rw [hsplit]
  intro f hf hnl
  exact newline_mem_dropLast (plain_printFixed _ _).2.2 hf hnl

/-- The last field of an execution has no newline. -/
theorem executionFields_last (execution : Execution P) :
    ∀ f ∈ executionFields execution, 10 ∈ f → f ∈ (executionFields execution).dropLast := by
  have hsplit : executionFields execution =
    (executionFields execution).dropLast ++ [Double.printFixed 8 execution.groundTruthLabel.severity] := rfl
  rw [hsplit]
  intro f hf hnl
  exact newline_mem_dropLast (plain_printFixed _ _).2.2 hf hnl

/-- Only the strings of an order can have a newline. -/
theorem newline_orderFields (order : Order P) :
    (∀ f ∈ orderFields order, 10 ∉ f) ↔ ∀ s ∈ order.strings, 10 ∉ s := by
  obtain ⟨hside, htype, hstatus, hpattern⟩ :=
    plain_texts order.side order.orderType order.status order.groundTruthLabel.pattern
  simp only [orderFields, Order.strings, List.forall_mem_cons, hside.2.2, htype.2.2, hstatus.2.2, hpattern.2.2,
    (plain_ofInt _).2.2, (plain_printFixed _ _).2.2, not_false_eq_true, true_and]

/-- A newline in a field of an execution is one in its strings. -/
theorem newline_executionFields (execution : Execution P) :
    (∀ f ∈ executionFields execution, 10 ∉ f) ↔ ∀ s ∈ execution.strings, 10 ∉ s := by
  have hpattern := (plain_texts .buy .limit .new execution.groundTruthLabel.pattern).2.2.2
  simp only [executionFields, Execution.strings, List.forall_mem_cons, hpattern.2.2, (plain_ofInt _).2.2,
    (plain_printFixed _ _).2.2, not_false_eq_true, true_and]

/-- Orders are read back exactly when no string of theirs has a newline. -/
theorem parseOrdersCsv_iff (orders : List (Order P)) (ho : ∀ o ∈ orders, o.Exact) :
    parseOrdersCsv (ordersToCsv orders) = .ok orders ↔ ∀ o ∈ orders, ∀ s ∈ o.strings, 10 ∉ s := by
  have hlines : (splitLines (ordersToCsv orders)).tail = splitLines (orders.flatMap orderRow) :=
    splitLines_header (by decide +kernel) _
  rw [parseOrdersCsv, hlines, rows_iff (n := 13) orders orderRow_eq (fun _ => rfl) (by omega) orderFields_last
    (fun o hmem line => parseOrderLine_fields (ho o hmem)) fun line => parseOrderLine_columns]
  exact forall₂_congr fun o _ => newline_orderFields o

/-- Executions are read back exactly when no string of theirs has a newline. -/
theorem parseExecutionsCsv_iff (executions : List (Execution P)) (hx : ∀ x ∈ executions, x.Exact) :
    parseExecutionsCsv (executionsToCsv executions) = .ok executions ↔ ∀ x ∈ executions, ∀ s ∈ x.strings, 10 ∉ s := by
  have hlines : (splitLines (executionsToCsv executions)).tail = splitLines (executions.flatMap executionRow) :=
    splitLines_header (by decide +kernel) _
  rw [parseExecutionsCsv, hlines, rows_iff (n := 12) executions executionRow_eq (fun _ => rfl) (by omega) executionFields_last
    (fun x hmem line => parseExecutionLine_fields (hx x hmem)) fun line => parseExecutionLine_columns]
  exact forall₂_congr fun x _ => newline_executionFields x

/-- What was written is read back exactly when no string has a newline in it, whatever else the strings hold. -/
theorem csv_round_trip_iff (orders : List (Order P)) (executions : List (Execution P)) (ho : ∀ o ∈ orders, o.Exact)
    (hx : ∀ x ∈ executions, x.Exact) :
    (parseOrdersCsv (ordersToCsv orders) = .ok orders ↔ ∀ o ∈ orders, ∀ s ∈ o.strings, 10 ∉ s) ∧
      (parseExecutionsCsv (executionsToCsv executions) = .ok executions ↔ ∀ x ∈ executions, ∀ s ∈ x.strings, 10 ∉ s) :=
  ⟨parseOrdersCsv_iff orders ho, parseExecutionsCsv_iff executions hx⟩

/-- An order with a venue of one newline. -/
def newlineOrder : Order ℚ where
  orderId := ascii "O-1"
  accountId := ascii "A"
  instrumentId := ascii "X"
  side := .buy
  price := 5 / 2
  qty := 10
  orderType := .limit
  timestampNs := 1
  status := .new
  venue := [10]
  groundTruthLabel := .default

/-- Its line is cut at the newline. -/
theorem csv_newline_lost : newlineOrder.Exact ∧ parseOrdersCsv (ordersToCsv [newlineOrder]) ≠ .ok [newlineOrder] ∧
    parseOrdersCsv (P := ℚ) (ordersToCsv [newlineOrder]) =
      .error (.runtimeError (ascii "parse_orders_csv: expected 13 columns, got 10")) := by
  have hparse : parseOrdersCsv (P := ℚ) (ordersToCsv [newlineOrder]) =
    .error (.runtimeError (ascii "parse_orders_csv: expected 13 columns, got 10")) := by decide +kernel
  refine ⟨⟨by decide +kernel, by decide +kernel, by decide, by decide⟩, ?_, hparse⟩
  rw [hparse]
  nofun

/-- An order and an execution whose strings hold commas, quotes and carriage returns, or nothing. -/
theorem csv_round_trip_quoted :
    let order : Order ℚ := { newlineOrder with
      accountId := ascii "\",\"\r"
      venue := [] }
    let execution : Execution ℚ := ⟨ascii "T", [], ascii ",,", ascii "\"", 1 / 8, -2 ^ 63, 0, ascii "a\rb", [], .default⟩
    parseOrdersCsv (ordersToCsv [order, order]) = .ok [order, order] ∧
      parseExecutionsCsv (executionsToCsv [execution]) = .ok [execution] := by
  intro order execution
  have ho : order.Exact := ⟨by decide +kernel, by decide +kernel, by decide, by decide⟩
  have hx : execution.Exact := ⟨by decide +kernel, by decide +kernel, by decide, by decide⟩
  obtain ⟨h1, h2⟩ := csv_round_trip_iff [order, order] [execution] (by simp [ho]) (by simp [hx])
  exact ⟨h1.2 (by decide), h2.2 (by decide)⟩

end Dataset

end TradeSurveillance.Simulator
