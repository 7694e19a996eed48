import TradeSurveillance.Lemmas.RecordText
import TradeSurveillance.MlClient.MlJson

/-!
# Scoring responses are read correctly whatever the version string

A member is found by a search for its quoted key. Inside an escaped string the key can only occur as the end of the string, and then the
next colon is still that of the member.
-/

namespace TradeSurveillance.MlJson

open Search
open JsonString (Plain quoted escape)

/-! ## Responses -/

/-- What is looked for: nothing in it is escaped, and it does not begin with what stands between tokens. -/
structure IsKey (key : Str) : Prop where
  plain : Plain key
  colon : 58 ∉ key
  head : ∃ c ∈ key.head?, Decimal.isSpace c = false ∧ c ≠ 44 ∧ c ≠ 58

/-- The white space around the tokens of a member. -/
structure Spaced (m : RawMember) : Prop where
  before : Blank m.before
  afterKey : Blank m.afterKey
  afterColon : Blank m.afterColon
  after : Blank m.after

/-- A member with white space around its tokens, whose value is a string with escapes, or a number. -/
structure IsMember (m : RawMember) : Prop where
  spaced : Spaced m
  key : IsKey m.key
  string : m.quoted = true → ∃ s, m.value = escape s
  number : m.quoted = false → JsonGrammar.IsNumber m.value

/-- The member `anomaly_score`. -/
structure IsScore (literal : Str) (m : RawMember) : Prop where
  spaced : Spaced m
  key : m.key = ascii "anomaly_score"
  quoted : m.quoted = false
  value : m.value = literal
  number : JsonGrammar.IsNumber literal

/-- The member `model_version`. -/
structure IsVersion (version : Str) (m : RawMember) : Prop where
  spaced : Spaced m
  key : m.key = ascii "model_version"
  quoted : m.quoted = true
  value : m.value = escape version

/-- A flat object with the two members, in either order. -/
def IsResponse (literal version body : Str) : Prop :=
  ∃ (lead trail : Str) (score modelVersion : RawMember) (members : List RawMember), Blank lead ∧ Blank trail ∧
    IsScore literal score ∧ IsVersion version modelVersion ∧ (members = [score, modelVersion] ∨ members = [modelVersion, score]) ∧
    body = lead ++ 123 :: (joinMembers members ++ 125 :: trail)

/-! ## Searching for a member -/

variable {key lead tail text : Str} {m n : RawMember} {c : UInt8}

/-- White space holds no other character. -/
theorem notMem_of_blank {ws : Str} (h : Blank ws) (hc : Decimal.isSpace c = false) : c ∉ ws := by
  intro hmem
  rw [h c hmem] at hc
  cases hc

/-- From a closing quote the search goes on behind the next comma or colon. -/
theorem behind_gap (hkey : IsKey key) {ws : Str} (hws : Blank ws) (hc : c = 44 ∨ c = 58) :
    behind (quoted key) (34 :: (ws ++ c :: text)) = behind (quoted key) text := by
  have hspecial : Decimal.isSpace c = false ∧ c ≠ 34 := by
    rcases hc with rfl | rfl
    · exact ⟨rfl, by decide⟩
    · exact ⟨rfl, by decide⟩
  have hskip : (34 : UInt8) ∉ ws ++ [c] := by
    simp [notMem_of_blank hws (rfl : Decimal.isSpace 34 = false), hspecial.2.symm]
  have hbegins : ¬quoted key <+: 34 :: (ws ++ c :: text) := by
    intro h
    obtain ⟨k, hk, hspace, hcomma, hcolon⟩ := hkey.head
    obtain ⟨word, rfl⟩ : ∃ word, key = k :: word := List.head?_eq_some_iff.1 hk
    have h := (List.cons_prefix_cons.1 h).2
    cases ws with
    | nil =>
      obtain rfl : k = c := (List.cons_prefix_cons.1 h).1
      rcases hc with hc | hc
      · exact hcomma hc
      · exact hcolon hc
    | cons w ws =>
      obtain rfl : k = w := (List.cons_prefix_cons.1 h).1
      rw [hws k List.mem_cons_self] at hspace
      cases hspace
  rw [behind_cons hbegins, show ws ++ c :: text = (ws ++ [c]) ++ text by simp]
  exact behind_skip hskip

/-- A member's own key is found, whatever stands before the member, if there is no quote in it. -/
theorem behind_key (hm : IsMember m) (hlead : 34 ∉ lead) : behind (quoted m.key) (lead ++ m.text ++ text) =
    some (m.afterKey ++ 58 :: (m.afterColon ++ (m.valueText ++ m.after ++ text))) := by
  have hbefore : 34 ∉ lead ++ m.before := by
    rw [List.mem_append, not_or]
    exact ⟨hlead, notMem_of_blank hm.spaced.before rfl⟩
  have htext : lead ++ m.text ++ text = (lead ++ m.before) ++
      (quoted m.key ++ (m.afterKey ++ 58 :: (m.afterColon ++ (m.valueText ++ m.after ++ text)))) := by
    simp [RawMember.text, RawMember.front, quoted, JsonString.quote]
  rw [htext]
  exact (behind_skip hbefore).trans (behind_append _ _)

/-- A search for another key comes to the member's value. -/
theorem behind_other (hkey : IsKey key) (hm : IsMember m) (hne : m.key ≠ key) (hlead : 34 ∉ lead) :
    behind (quoted key) (lead ++ m.text ++ text) = behind (quoted key) (m.valueText ++ m.after ++ text) := by
  have hbefore : 34 ∉ lead ++ m.before := by
    rw [List.mem_append, not_or]
    exact ⟨hlead, notMem_of_blank hm.spaced.before rfl⟩
  have htext : lead ++ m.text ++ text = (lead ++ m.before) ++
      34 :: (m.key ++ 34 :: (m.afterKey ++ 58 :: (m.afterColon ++ (m.valueText ++ m.after ++ text)))) := by
    simp [RawMember.text, RawMember.front]
  have hbegins : ∀ rest, ¬quoted key <+: 34 :: (m.key ++ 34 :: rest) := by
    intro rest h
    obtain ⟨after, h⟩ := (List.cons_prefix_cons.1 h).2
    have hfree : ∀ {word}, IsKey word → ∀ b ∈ word, decide (b ≠ 34) = true := by
      intro word hword b hb
      refine decide_eq_true ?_
      rintro rfl
      exact hword.plain.quote hb
    have hquote : ∀ after : Str, ∀ b ∈ (34 :: after).head?, decide (b ≠ 34) = false := by
      intro after b hb
      obtain rfl : 34 = b := Option.some.inj hb
      rfl
    rw [List.append_assoc] at h
    exact hne (run_unique (hfree hkey) (hfree hm.key) (hquote after) (hquote rest) h).1.symm
  calc behind (quoted key) (lead ++ m.text ++ text)
      = behind (quoted key) (34 :: (m.key ++ 34 :: (m.afterKey ++ 58 :: (m.afterColon ++ (m.valueText ++ m.after ++ text))))) := by
        rw [htext]
        exact behind_skip hbefore
    _ = behind (quoted key) (34 :: (m.afterKey ++ 58 :: (m.afterColon ++ (m.valueText ++ m.after ++ text)))) := by
        rw [behind_cons (hbegins _)]
        exact behind_skip hm.key.plain.quote
    _ = behind (quoted key) (m.afterColon ++ (m.valueText ++ m.after ++ text)) := behind_gap hkey hm.spaced.afterKey (.inr rfl)
    _ = behind (quoted key) (m.valueText ++ m.after ++ text) := behind_skip (notMem_of_blank hm.spaced.afterColon rfl)

/-- A value is left behind the comma after it, but for a string that ends with the key. -/
theorem behind_value (hkey : IsKey key) (hm : IsMember m) (text : Str) :
    behind (quoted key) (m.valueText ++ m.after ++ 44 :: text) = some (m.after ++ 44 :: text) ∨
      behind (quoted key) (m.valueText ++ m.after ++ 44 :: text) = behind (quoted key) text := by
  unfold RawMember.valueText
  cases hquoted : m.quoted with
  | true =>
    obtain ⟨s, hs⟩ := hm.string hquoted
    have htext : (if true = true then 34 :: (m.value ++ [34]) else m.value) ++ m.after ++ 44 :: text =
        34 :: (escape s ++ 34 :: (m.after ++ 44 :: text)) := by
      simp [hs]
    rw [htext]
    rcases JsonString.behind_quoted_string hkey.plain s (m.after ++ 44 :: text) with hfound | hskip
    · exact .inl hfound
    · refine .inr (Eq.trans hskip ?_)
      exact behind_gap hkey hm.spaced.after (.inl rfl)
  | false =>
    have hvalue : (34 : UInt8) ∉ m.value := by
      intro hmem
      exact absurd ((hm.number hquoted).isNumeric.2 34 hmem) (by decide)
    have hskip : (34 : UInt8) ∉ m.value ++ m.after ++ [44] := by
      simp [hvalue, notMem_of_blank hm.spaced.after (rfl : Decimal.isSpace 34 = false)]
    have htext : (if false = true then 34 :: (m.value ++ [34]) else m.value) ++ m.after ++ 44 :: text =
        (m.value ++ m.after ++ [44]) ++ text := by
      simp
    rw [htext]
    exact .inr (behind_skip hskip)

/-! ## Reading a member -/

/-- From the next colon the value is read. -/
theorem map_behind_colon {gap ws value : Str} (hgap : 58 ∉ gap) (hws : Blank ws) (hvalue : ∀ c ∈ value.head?, Decimal.isSpace c = false) :
    (behind [58] (gap ++ 58 :: (ws ++ value))).map (List.dropWhile Decimal.isSpace) = some value := by
  rw [behind_skip hgap, show (58 :: (ws ++ value) : Str) = [58] ++ (ws ++ value) from rfl, behind_append, Option.map_some,
    List.dropWhile_append_of_pos hws]
  cases value with
  | nil => rfl
  | cons c value => rw [List.dropWhile_cons_of_neg (by simp [hvalue c rfl])]

/-- The parser of records can take such a member apart. -/
theorem IsMember.scans (hm : IsMember m) : m.Scans where
  before := hm.spaced.before
  key := hm.key.plain.isBody
  afterKey := hm.spaced.afterKey
  afterColon := hm.spaced.afterColon
  string hquoted := by
    obtain ⟨s, hs⟩ := hm.string hquoted
    exact hs ▸ JsonString.isBody_of_unescape s (JsonString.unescape_escape s)
  number hquoted := (hm.number hquoted).isNumeric
  after := hm.spaced.after

/-- The first member with the key is found. -/
theorem findValueStart_first (hm : IsMember m) (hlead : 34 ∉ lead) (text : Str) :
    findValueStart (lead ++ m.text ++ text) m.key = some (m.valueText ++ m.after ++ text) := by
  have hvalue : ∀ c ∈ (m.valueText ++ m.after ++ text).head?, Decimal.isSpace c = false := by
    rw [List.append_assoc]
    exact hm.scans.head_value_not_space
  rw [findValueStart, behind_key hm hlead]
  exact map_behind_colon (notMem_of_blank hm.spaced.afterKey rfl) hm.spaced.afterColon hvalue

/-- The second member is found behind the first, or at the end of the first one's value: the next colon is the same. -/
theorem findValueStart_second (hm : IsMember m) (hn : IsMember n) (hne : m.key ≠ n.key) (hlead : 34 ∉ lead) (text : Str) :
    findValueStart (lead ++ m.text ++ 44 :: (n.text ++ text)) n.key = some (n.valueText ++ n.after ++ text) := by
  rw [findValueStart, behind_other hn.key hm hne hlead]
  rcases behind_value hn.key hm (n.text ++ text) with hfound | hskip
  · have hvalue : ∀ c ∈ (n.valueText ++ n.after ++ text).head?, Decimal.isSpace c = false := by
      rw [List.append_assoc]
      exact hn.scans.head_value_not_space
    have hgap : 58 ∉ m.after ++ 44 :: (n.before ++ 34 :: (n.key ++ 34 :: n.afterKey)) := by
      simp [notMem_of_blank hm.spaced.after (rfl : Decimal.isSpace 58 = false), hn.key.colon,
        notMem_of_blank hn.spaced.before (rfl : Decimal.isSpace 58 = false),
        notMem_of_blank hn.spaced.afterKey (rfl : Decimal.isSpace 58 = false)]
    have htext : m.after ++ 44 :: (n.text ++ text) = (m.after ++ 44 :: (n.before ++ 34 :: (n.key ++ 34 :: n.afterKey))) ++
        58 :: (n.afterColon ++ (n.valueText ++ n.after ++ text)) := by
      simp [RawMember.text, RawMember.front]
    rw [hfound, htext]
    exact map_behind_colon hgap hn.spaced.afterColon hvalue
  · have hfirst : findValueStart (n.text ++ text) n.key = _ := findValueStart_first hn List.not_mem_nil text
    rw [findValueStart] at hfirst
    rw [hskip]
    exact hfirst

/-- A version is extracted from its member. -/
theorem extractStringField_eq {body version : Str} (hstart : findValueStart body key = some (m.valueText ++ m.after ++ text))
    (hm : IsVersion version m) : extractStringField body key = some version := by
  have hvalue : m.valueText ++ m.after ++ text = 34 :: (escape version ++ 34 :: (m.after ++ text)) := by
    simp [RawMember.valueText, hm.quoted, hm.value]
  have hunescape := JsonString.unescape_escape version (m.after ++ text)
  rw [JsonString.quote] at hunescape
  rw [extractStringField, hstart, hvalue]
  simp [hunescape]

variable {P : Type} [Double P] {x : P}

/-- A score is extracted from its member. -/
theorem extractNumberField_eq {body literal : Str} (hstart : findValueStart body key = some (m.valueText ++ m.after ++ c :: text))
    (hc : c = 44 ∨ c = 125) (hm : IsScore literal m) (hscans : m.Scans) (hstod : Double.stod literal = .ok x) :
    extractNumberField body key = some x := by
  have hvalue : m.valueText = literal := by simp [RawMember.valueText, hm.quoted, hm.value]
  have htake : (literal ++ m.after ++ c :: text).takeWhile Decimal.isNumeric = literal := by
    rw [List.append_assoc]
    exact takeWhile_run hm.number.isNumeric.2 (hscans.head_after_not_numeric ⟨c, rfl, hc⟩)
  rw [extractNumberField, hstart, hvalue]
  simp only [htake, if_neg hm.number.isNumeric.1, hstod]

/-! ## Every response -/

/-- `anomaly_score` can be looked for. -/
theorem isKey_score : IsKey (ascii "anomaly_score") := ⟨⟨by decide, by decide⟩, by decide, 97, rfl, rfl, by decide, by decide⟩

/-- So can `model_version`. -/
theorem isKey_version : IsKey (ascii "model_version") := ⟨⟨by decide, by decide⟩, by decide, 109, rfl, rfl, by decide, by decide⟩

variable {literal version : Str}

/-- The member of the score is a member. -/
theorem IsScore.isMember (h : IsScore literal m) : IsMember m where
  spaced := h.spaced
  key := h.key ▸ isKey_score
  string hquoted := absurd (h.quoted.symm.trans hquoted) Bool.false_ne_true
  number _ := h.value ▸ h.number

/-- So is the member of the version. -/
theorem IsVersion.isMember (h : IsVersion version m) : IsMember m where
  spaced := h.spaced
  key := h.key ▸ isKey_version
  string _ := ⟨version, h.value⟩
  number hquoted := absurd (hquoted.symm.trans h.quoted) Bool.false_ne_true

/-- The score and the version are read, whatever the version is, and whichever comes first. -/
theorem decode_response {body : Str} (hresponse : IsResponse literal version body) (hstod : Double.stod literal = .ok x) :
    decodeScoringResponse body = some ⟨x, version⟩ := by
  obtain ⟨lead, trail, m, n, members, hlead, -, hm, hn, hmembers, rfl⟩ := hresponse
  have hquote : (34 : UInt8) ∉ lead ++ [123] := by
    simp [notMem_of_blank hlead (rfl : Decimal.isSpace 34 = false)]
  have hne : m.key ≠ n.key := by
    rw [hm.key, hn.key]
    decide
  have hjoin : ∀ a b : RawMember, lead ++ 123 :: (joinMembers [a, b] ++ 125 :: trail) =
      (lead ++ [123]) ++ a.text ++ 44 :: (b.text ++ 125 :: trail) := by
    intro a b
    simp [joinMembers, List.intercalate]
  have hread : ∀ body, extractNumberField body m.key = some x → extractStringField body n.key = some version →
      decodeScoringResponse body = some ⟨x, version⟩ := by
    intro body hnumber hstring
    rw [hm.key] at hnumber
    rw [hn.key] at hstring
    rw [decodeScoringResponse, hnumber, hstring]
  rcases hmembers with rfl | rfl
  · rw [hjoin]
    have hfirst := findValueStart_first hm.isMember hquote (44 :: (n.text ++ 125 :: trail))
    have hsecond := findValueStart_second hm.isMember hn.isMember hne hquote (125 :: trail)
    exact hread _ (extractNumberField_eq hfirst (.inl rfl) hm hm.isMember.scans hstod) (extractStringField_eq hsecond hn)
  · rw [hjoin]
    have hfirst := findValueStart_first hn.isMember hquote (44 :: (m.text ++ 125 :: trail))
    have hsecond := findValueStart_second hn.isMember hm.isMember hne.symm hquote (125 :: trail)
    exact hread _ (extractNumberField_eq hsecond (.inr rfl) hm hm.isMember.scans hstod) (extractStringField_eq hfirst hn)

/-- A version that is a quote and the other key, in front of it: the search for the key ends at the version's closing quote. -/
theorem decode_response_key_in_version :
    decodeScoringResponse (ascii "\x7b\"model_version\": \"\\\"anomaly_score\", \"anomaly_score\": 0.73\x7d") =
      some (⟨0.73, ascii "\"anomaly_score"⟩ : ScoringResult ℚ) := by
  have hnil : Blank [] := List.forall_mem_nil _
  have hspace : Blank [32] := List.forall_mem_singleton.2 rfl
  have hdigits : ∀ n, JsonGrammar.Digits (Decimal.ofNat n) := JsonGrammar.digits_ofNat
  have hint : JsonGrammar.IsInt [48] 0 := ⟨false, [48], ⟨rfl, hdigits 0, fun _ => rfl⟩, rfl⟩
  have hfraction : JsonGrammar.IsFraction (ascii ".73") := .inr ⟨ascii "73", ⟨List.cons_ne_nil _ _, List.all_eq_true.1 rfl⟩, rfl⟩
  have hread : Decimal.readRat (ascii "0.73") = some 0.73 := by decide +kernel
  have hscore : IsScore (ascii "0.73") ⟨[32], ascii "anomaly_score", [], [32], false, ascii "0.73", []⟩ :=
    ⟨⟨hspace, hnil, hspace, hnil⟩, rfl, rfl, rfl, 0, [48], ascii ".73", [], hint, hfraction, .inl rfl, rfl⟩
  have hversion : IsVersion (ascii "\"anomaly_score")
      ⟨[], ascii "model_version", [], [32], true, ascii "\\\"anomaly_score", []⟩ := ⟨⟨hnil, hnil, hspace, hnil⟩, rfl, rfl, rfl⟩
  exact decode_response ⟨[], [], _, _, _, hnil, hnil, hscore, hversion, .inr rfl, rfl⟩ (by simp only [Double.stod, hread])

end TradeSurveillance.MlJson
