import TradeSurveillance.Lib.JsonText
import TradeSurveillance.MlClient.MlJson

/-!
# Of which scoring requests the text is JSON

The encoder escapes quotes, backslashes and newlines, and writes every other control character as it is, which JSON does not allow. A
request is read back from its text exactly if there are no such characters in its strings (`encode_valid_iff`).
-/

namespace TradeSurveillance.MlJson

open JsonText
open JsonString (escape)

variable {P : Type} [Double P]

/-! ## Requests and values -/

/-- The strings of a request have no control characters but newlines. -/
structure Sendable (request : ScoringRequest P) : Prop where
  accountId : Printable request.accountId
  instrumentId : Printable request.instrumentId
  features : ∀ name x, request.windowFeatures.lookup name = some x → Printable name

/-- The features are finite and `std::stod` reads them back from their seventeen digits. -/
def ReadBack (request : ScoringRequest P) : Prop :=
  ∀ name x, request.windowFeatures.lookup name = some x → Double.isFinite x = true ∧ Double.stod (Double.print17 x) = .ok x

/-- The value is the request: the two names, and each feature once, as a number that is read as the feature's value. -/
def OfRequest (request : ScoringRequest P) (v : Json) : Prop :=
  ∃ features, v = .object [(ascii "account_id", .string request.accountId), (ascii "instrument_id", .string request.instrumentId),
      (ascii "window_features", .object features)] ∧
    (features.map Prod.fst).Nodup ∧
    (∀ m ∈ features, ∃ literal x, m.2 = .number literal ∧ Double.stod literal = .ok x ∧ request.windowFeatures.lookup m.1 = some x) ∧
    ∀ name x, request.windowFeatures.lookup name = some x → ∃ literal, (name, .number literal) ∈ features ∧ Double.stod literal = .ok x

/-- Every conforming parser accepts the text and finds the request in it. -/
def Delivered (text : Str) (request : ScoringRequest P) : Prop :=
  ∀ parse, Conforming parse → ∃ v, parse text = some v ∧ OfRequest request v

/-! ## Features -/

/-- A feature as it is printed. -/
def printed (f : Str × P) : Str × Json := (f.1, .number (Double.print17 f.2))

variable {f : Str × P} {fs : List (Str × P)} {c d : UInt8} {tail rest key : Str} {v : Json} {members : List (Str × Json)}

/-- A finite double is printed as a number of JSON. -/
theorem isNumber_print17 {x : P} (h : Double.isFinite x = true) : JsonGrammar.IsNumber (Double.print17 x) := by
  have hsign : Double.sign x = if Double.signBit x then [45] else [] := rfl
  rw [Double.print17, h, if_pos rfl, hsign]
  exact JsonGrammar.isNumber_general _ _ _

/-- A feature is read back from its text. -/
theorem member_feature_iff (hf : Double.isFinite f.2 = true) (hc : c = 44 ∨ c = 125) (hd : d = 44 ∨ d = 125) :
    KeyValue (featureText f ++ c :: tail) key v (d :: rest) ↔ Printable f.1 ∧ (key, v) = printed f ∧ d :: rest = c :: tail := by
  have htext : featureText f ++ c :: tail = 34 :: (escape f.1 ++ 34 :: 58 :: (Double.print17 f.2 ++ c :: tail)) := by
    have hquote : ascii "\"" = [34] := rfl
    have hcolon : ascii "\":" = [34, 58] := rfl
    simp [featureText, hquote, hcolon, escapeJsonString]
  rw [htext, member_iff, item_number_iff (isNumber_print17 hf) hc hd, printed, Prod.mk.injEq, and_assoc]

/-- So are features with commas between them. -/
theorem members_features_iff (hfinite : ∀ g ∈ f :: fs, Double.isFinite g.2 = true) :
    Members ((ascii ",").intercalate ((f :: fs).map featureText) ++ 125 :: tail) members rest ↔
      (∀ g ∈ f :: fs, Printable g.1) ∧ members = (f :: fs).map printed ∧ rest = tail := by
  have hf := hfinite f List.mem_cons_self
  rw [members_iff]
  induction fs generalizing f members with
  | nil =>
    have htext : (ascii ",").intercalate ([f].map featureText) = featureText f := by simp [List.intercalate]
    rw [htext]
    constructor
    · rintro (⟨key, v, rfl, h⟩ | ⟨key, v, text', members', rfl, h, -⟩)
      · obtain ⟨hname, hmember, hrest⟩ := (member_feature_iff hf (.inr rfl) (.inr rfl)).1 h
        exact ⟨fun g hg => (List.mem_singleton.1 hg).symm ▸ hname, by rw [hmember]; rfl, (List.cons.inj hrest).2⟩
      · obtain ⟨-, -, hrest⟩ := (member_feature_iff hf (.inr rfl) (.inl rfl)).1 h
        simp at hrest
    · rintro ⟨hname, rfl, rfl⟩
      exact .inl ⟨_, _, rfl, (member_feature_iff hf (.inr rfl) (.inr rfl)).2 ⟨hname f List.mem_cons_self, rfl, rfl⟩⟩
  | cons g fs ih =>
    have htext : (ascii ",").intercalate ((f :: g :: fs).map featureText) ++ 125 :: tail =
        featureText f ++ 44 :: ((ascii ",").intercalate ((g :: fs).map featureText) ++ 125 :: tail) := by
      have hcomma : ascii "," = [44] := rfl
      simp [List.intercalate, hcomma]
    have hfs : ∀ h ∈ g :: fs, Double.isFinite h.2 = true := fun h hh => hfinite h (List.mem_cons_of_mem _ hh)
    rw [htext]
    constructor
    · rintro (⟨key, v, rfl, h⟩ | ⟨key, v, text', members', rfl, h, hrest⟩)
      · obtain ⟨-, -, hrest⟩ := (member_feature_iff hf (.inl rfl) (.inr rfl)).1 h
        simp at hrest
      · obtain ⟨hname, hmember, htext'⟩ := (member_feature_iff hf (.inl rfl) (.inl rfl)).1 h
        rw [(List.cons.inj htext').2, members_iff] at hrest
        obtain ⟨hnames, rfl, rfl⟩ := (ih hfs (hfs g List.mem_cons_self)).1 hrest
        exact ⟨List.forall_mem_cons.2 ⟨hname, hnames⟩, by rw [hmember]; rfl, rfl⟩
    · rintro ⟨hnames, rfl, rfl⟩
      obtain ⟨hname, hnames⟩ := List.forall_mem_cons.1 hnames
      refine .inr ⟨_, _, _, _, rfl, (member_feature_iff hf (.inl rfl) (.inl rfl)).2 ⟨hname, rfl, rfl⟩, members_iff.2 ?_⟩
      exact (ih hfs (hfs g List.mem_cons_self)).2 ⟨hnames, rfl, rfl⟩

/-- The object of the features. -/
theorem value_features_iff (hfinite : ∀ g ∈ fs, Double.isFinite g.2 = true) :
    Value (123 :: ((ascii ",").intercalate (fs.map featureText) ++ 125 :: tail)) v rest ↔
      (∀ g ∈ fs, Printable g.1) ∧ v = .object (fs.map printed) ∧ rest = tail := by
  rw [value_object_iff]
  cases fs with
  | nil =>
    constructor
    · rintro (⟨ws, hws, heq, rfl⟩ | ⟨members, rfl, h⟩)
      · obtain ⟨-, heq⟩ := hws.eq_nil rfl heq.symm
        exact ⟨List.forall_mem_nil _, rfl, (List.cons.inj heq).2⟩
      · exact absurd (quote_of_members rfl h) (by decide)
    · rintro ⟨-, rfl, rfl⟩
      exact .inl ⟨[], List.forall_mem_nil _, rfl, rfl⟩
  | cons f fs =>
    constructor
    · rintro (⟨ws, hws, heq, rfl⟩ | ⟨members, rfl, h⟩)
      · obtain ⟨text, htext⟩ : ∃ text, (ascii ",").intercalate ((f :: fs).map featureText) = 34 :: text := by
          cases fs with
          | nil => exact ⟨_, List.append_nil _⟩
          | cons g fs => exact ⟨_, rfl⟩
        rw [htext] at heq
        exact absurd (List.cons.inj (hws.eq_nil rfl heq.symm).2).1 (by decide)
      · obtain ⟨hnames, rfl, hrest⟩ := (members_features_iff hfinite).1 h
        exact ⟨hnames, rfl, hrest⟩
    · rintro ⟨hnames, rfl, rfl⟩
      exact .inr ⟨_, rfl, (members_features_iff hfinite).2 ⟨hnames, rfl, rfl⟩⟩

/-- The last member of a request, and the end of the text. -/
theorem members_last_iff {name : Str} (hfinite : ∀ g ∈ fs, Double.isFinite g.2 = true) :
    Members (34 :: (escape name ++ 34 :: 58 :: 123 :: ((ascii ",").intercalate (fs.map featureText) ++ 125 :: [125]))) members rest ↔
      Printable name ∧ (∀ g ∈ fs, Printable g.1) ∧ members = [(name, .object (fs.map printed))] ∧ rest = [] := by
  have hvalue : ∀ {d rest v}, Item (123 :: ((ascii ",").intercalate (fs.map featureText) ++ 125 :: [125])) v (d :: rest) →
      (∀ g ∈ fs, Printable g.1) ∧ v = .object (fs.map printed) ∧ d :: rest = [125] := by
    intro d rest v h
    obtain ⟨after, hafter, h⟩ := (item_iff rfl).1 h
    obtain ⟨hnames, rfl, heq⟩ := (value_features_iff hfinite).1 h
    exact ⟨hnames, rfl, (hafter.eq_nil rfl heq).2⟩
  rw [members_iff]
  constructor
  · rintro (⟨key, v, rfl, h⟩ | ⟨key, v, text', members', rfl, h, -⟩)
    · obtain ⟨hname, rfl, hitem⟩ := member_iff.1 h
      obtain ⟨hnames, rfl, heq⟩ := hvalue hitem
      exact ⟨hname, hnames, rfl, (List.cons.inj heq).2⟩
    · obtain ⟨-, -, hitem⟩ := member_iff.1 h
      obtain ⟨-, -, heq⟩ := hvalue hitem
      simp at heq
  · rintro ⟨hname, hnames, rfl, rfl⟩
    refine .inl ⟨name, _, rfl, member_iff.2 ⟨hname, rfl, (item_iff rfl).2 ⟨[], List.forall_mem_nil _, ?_⟩⟩⟩
    exact (value_features_iff hfinite).2 ⟨hnames, rfl, rfl⟩

/-! ## Requests -/

variable {order : FeatureOrder P} {request : ScoringRequest P}

/-- What the text of a request stands for. -/
def valueOf (order : FeatureOrder P) (request : ScoringRequest P) : Json :=
  .object [(ascii "account_id", .string request.accountId), (ascii "instrument_id", .string request.instrumentId),
    (ascii "window_features", .object ((order.iterate request.windowFeatures).map printed))]

/-- The request as it is written, member by member. -/
theorem encode_eq (order : FeatureOrder P) (request : ScoringRequest P) : encodeScoringRequest order request =
    123 :: 34 :: (escape (ascii "account_id") ++ 34 :: 58 :: 34 :: (escape request.accountId ++ 34 :: 44 ::
      34 :: (escape (ascii "instrument_id") ++ 34 :: 58 :: 34 :: (escape request.instrumentId ++ 34 :: 44 ::
      34 :: (escape (ascii "window_features") ++ 34 :: 58 :: 123 ::
        ((ascii ",").intercalate ((order.iterate request.windowFeatures).map featureText) ++ 125 :: [125])))))) := by
  have hopen : ascii "\x7b\"account_id\":\"" = 123 :: 34 :: (escape (ascii "account_id") ++ [34, 58, 34]) := rfl
  have hinstrument : ascii "\"instrument_id\":\"" = 34 :: (escape (ascii "instrument_id") ++ [34, 58, 34]) := rfl
  have hfeatures : ascii "\"window_features\":\x7b" = 34 :: (escape (ascii "window_features") ++ [34, 58, 123]) := rfl
  have hcomma : ascii "\"," = [34, 44] := rfl
  have hclose : ascii "\x7d\x7d" = [125, 125] := rfl
  rw [encodeScoringRequest, hopen, hinstrument, hfeatures, hcomma, hclose]
  simp [escapeJsonString]

omit [Double P] in
/-- Whether a request is sendable does not depend on the order of the features. -/
theorem sendable_iff (order : FeatureOrder P) : Sendable request ↔ Printable request.accountId ∧ Printable request.instrumentId ∧
    ∀ g ∈ order.iterate request.windowFeatures, Printable g.1 := by
  constructor
  · rintro ⟨haccount, hinstrument, hfeatures⟩
    exact ⟨haccount, hinstrument, fun g hg => hfeatures g.1 g.2 ((order.mem_iff _ _ _).1 hg)⟩
  · rintro ⟨haccount, hinstrument, hfeatures⟩
    exact ⟨haccount, hinstrument, fun name x h => hfeatures (name, x) ((order.mem_iff _ _ _).2 h)⟩

/-- The text is JSON exactly if the request is sendable, and stands for nothing but the request. -/
theorem isJson_encode_iff (hread : ReadBack request) :
    IsJson (encodeScoringRequest order request) v ↔ Sendable request ∧ v = valueOf order request := by
  have hfinite : ∀ g ∈ order.iterate request.windowFeatures, Double.isFinite g.2 = true :=
    fun g hg => (hread g.1 g.2 ((order.mem_iff _ _ _).1 hg)).1
  rw [IsJson, encode_eq, item_iff rfl, sendable_iff order]
  constructor
  · rintro ⟨after, hafter, hvalue⟩
    rcases value_object_iff.1 hvalue with ⟨ws, hws, heq, rfl⟩ | ⟨members, rfl, hmembers⟩
    · exact absurd (List.cons.inj (hws.eq_nil rfl heq.symm).2).1 (by decide)
    · obtain ⟨-, haccount, members₁, rfl, hmembers₁⟩ := members_string_iff.1 hmembers
      obtain ⟨-, hinstrument, members₂, rfl, hmembers₂⟩ := members_string_iff.1 hmembers₁
      obtain ⟨-, hnames, rfl, -⟩ := (members_last_iff hfinite).1 hmembers₂
      exact ⟨⟨haccount, hinstrument, hnames⟩, rfl⟩
  · rintro ⟨⟨haccount, hinstrument, hnames⟩, rfl⟩
    refine ⟨[], List.forall_mem_nil _, value_object_iff.2 (.inr ⟨_, rfl, ?_⟩)⟩
    refine members_string_iff.2 ⟨printable_of_ascii rfl, haccount, _, rfl, ?_⟩
    refine members_string_iff.2 ⟨printable_of_ascii rfl, hinstrument, _, rfl, ?_⟩
    exact (members_last_iff hfinite).2 ⟨printable_of_ascii rfl, hnames, rfl, rfl⟩

/-- The value of a request whose features are read back is the request. -/
theorem ofRequest_valueOf (order : FeatureOrder P) (hread : ReadBack request) : OfRequest request (valueOf order request) := by
  refine ⟨_, rfl, ?_, ?_, ?_⟩
  · rw [List.map_map]
    exact order.nodup request.windowFeatures
  · intro m hm
    obtain ⟨g, hg, rfl⟩ := List.mem_map.1 hm
    have hlookup := (order.mem_iff _ _ _).1 hg
    exact ⟨_, g.2, rfl, (hread _ _ hlookup).2, hlookup⟩
  · intro name x hlookup
    exact ⟨_, List.mem_map.2 ⟨(name, x), (order.mem_iff _ _ _).2 hlookup, rfl⟩, (hread _ _ hlookup).2⟩

/-- A sendable request is delivered, in whatever order the features come. -/
theorem delivered_of_sendable (hread : ReadBack request) (h : Sendable request) :
    Delivered (encodeScoringRequest order request) request := by
  intro parse hparse
  obtain ⟨v, hv, hparsed⟩ := hparse _ ⟨_, (isJson_encode_iff hread).2 ⟨h, rfl⟩⟩
  obtain ⟨-, rfl⟩ := (isJson_encode_iff hread).1 hv
  exact ⟨_, hparsed, ofRequest_valueOf order hread⟩

/-- A parser may accept nothing but JSON. -/
theorem sendable_of_delivered (hread : ReadBack request) (h : Delivered (encodeScoringRequest order request) request) :
    Sendable request := by
  classical
  let strict : Str → Option Json := fun text => if h : ∃ v, IsJson text v then some h.choose else none
  have hstrict : Conforming strict := fun text h => ⟨h.choose, h.choose_spec, dif_pos h⟩
  obtain ⟨v, hv, -⟩ := h strict hstrict
  by_cases hjson : ∃ v, IsJson (encodeScoringRequest order request) v
  · obtain ⟨v, hjson⟩ := hjson
    exact ((isJson_encode_iff hread).1 hjson).1
  · rw [show strict _ = none from dif_neg hjson] at hv
    cases hv

/-- For every order of the features: the request reaches every conforming parser exactly if it is sendable. -/
theorem encode_valid_iff (order : FeatureOrder P) (request : ScoringRequest P) (hread : ReadBack request) :
    Delivered (encodeScoringRequest order request) request ↔ Sendable request :=
  ⟨sendable_of_delivered hread, delivered_of_sendable hread⟩

/-! ## Two requests -/

omit [Double P] in
/-- There is an order in which the features can come. -/
theorem exists_featureOrder : Nonempty (FeatureOrder P) := by
  refine ⟨⟨fun m => m.entries.toList.map fun e => (e.1, e.2), fun m => ?_, fun m name x => ?_⟩⟩
  · have hkeys : (m.entries.toList.map Sigma.fst).Nodup := by
      rw [← Multiset.coe_nodup, ← Multiset.map_coe, Multiset.coe_toList]
      exact m.nodupKeys.nodup_keys
    rw [List.map_map]
    exact hkeys
  · rw [Finmap.lookup_eq_some_iff]
    simp

/-- Quotes and newlines are no obstacle. -/
theorem encode_valid_quoted : ∃ (order : FeatureOrder ℚ) (request : ScoringRequest ℚ), request.accountId = ascii "ACC \"1\"\n" ∧
    request.windowFeatures.lookup (ascii "order_count") = some 25 ∧ Delivered (encodeScoringRequest order request) request := by
  obtain ⟨order⟩ : Nonempty (FeatureOrder ℚ) := exists_featureOrder
  have hlookup : ∀ name x, (Finmap.insert (ascii "order_count") 25 ∅ : Map Str ℚ).lookup name = some x →
      name = ascii "order_count" ∧ x = 25 := by
    intro name x h
    by_cases hname : name = ascii "order_count"
    · rw [hname, Finmap.lookup_insert] at h
      exact ⟨hname, (Option.some.inj h).symm⟩
    · rw [Finmap.lookup_insert_of_ne _ hname, Finmap.lookup_empty] at h
      cases h
  have hread : ReadBack (⟨ascii "ACC \"1\"\n", ascii "ACME", Finmap.insert (ascii "order_count") 25 ∅, 0, 0⟩ : ScoringRequest ℚ) := by
    intro name x h
    obtain ⟨-, rfl⟩ := hlookup name x h
    have hprint : Decimal.readRat (Double.print17 (25 : ℚ)) = some 25 := by decide +kernel
    exact ⟨rfl, by simp only [Double.stod, hprint]⟩
  refine ⟨order, _, rfl, Finmap.lookup_insert _, (encode_valid_iff order _ hread).2 ⟨?_, ?_, fun name x h => ?_⟩⟩
  · exact printable_of_ascii rfl
  · exact printable_of_ascii rfl
  · obtain ⟨rfl, -⟩ := hlookup name x h
    exact printable_of_ascii rfl

/-- A tab in the name of an account. -/
theorem encode_invalid_tab : ¬∀ (order : FeatureOrder ℚ) (request : ScoringRequest ℚ), (∀ b ∈ request.accountId, b.toNat < 128) →
    (∀ b ∈ request.instrumentId, b.toNat < 128) → ReadBack request → Delivered (encodeScoringRequest order request) request := by
  intro h
  obtain ⟨order⟩ : Nonempty (FeatureOrder ℚ) := exists_featureOrder
  have hread : ReadBack (⟨ascii "ACC\t1", ascii "ACME", ∅, 0, 0⟩ : ScoringRequest ℚ) := by
    intro name x hx
    rw [Finmap.lookup_empty] at hx
    cases hx
  have hascii : ∀ s : Str, s.all (fun b => b.toNat < 128) = true → ∀ b ∈ s, b.toNat < 128 :=
    fun s hs b hb => of_decide_eq_true (List.all_eq_true.1 hs b hb)
  have hsendable := sendable_of_delivered hread (h order _ (hascii _ rfl) (hascii _ rfl) hread)
  have hcontrol := hsendable.accountId.control 9 (by decide)
  simp at hcontrol

end TradeSurveillance.MlJson
