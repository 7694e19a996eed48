import TradeSurveillance.Api.AlertRoutes
import TradeSurveillance.Harness.JsonOutput
import TradeSurveillance.Lib.JsonPrint

/-!
# The report of an evaluation, from the harness to the dashboard

The text the harness writes is JSON and stands for one value only: the counts as they are, the rates as they are printed, `null` for a rate
that is not defined. The server hands on that value, whatever else is in the directory.
-/

namespace TradeSurveillance.Harness

open JsonText (Json Valid Printable)

/-! ## What the writers write -/

/-- `field` adds a member to the buffer, behind a comma when it is not the first. -/
theorem field_buf (w : JsonWriter) (m : Str × Json) :
    (w.field m.1 (JsonText.print m.2)).buf = w.buf ++ (if w.first then [] else [44]) ++ JsonText.printMember m := by
  obtain ⟨key, v⟩ := m
  rw [JsonText.printMember, JsonWriter.field]
  simp [jsonString, jsonEscape, ascii]

/-- The fields behind the first one. -/
theorem foldl_field {w : JsonWriter} (h : w.first = false) (members : List (Str × Json)) :
    ((members.map fun m => (m.1, JsonText.print m.2)).foldl (fun w f => w.field f.1 f.2) w).str =
      w.buf ++ if members.isEmpty then [125] else 44 :: JsonText.printMembers members := by
  induction members generalizing w with
  | nil => rfl
  | cons m members ih =>
    rw [List.map_cons, List.foldl_cons, ih rfl, field_buf, h, JsonText.printMembers]
    simp

/-- A writer writes the members of an object. -/
theorem writeFields_print (members : List (Str × Json)) :
    writeFields (members.map fun m => (m.1, JsonText.print m.2)) = JsonText.print (.object members) := by
  cases members with
  | nil => simp [writeFields, JsonWriter.str, JsonText.print, JsonText.printMembers, ascii]
  | cons m members =>
    rw [writeFields, List.map_cons, List.foldl_cons, foldl_field rfl, field_buf, JsonText.print, JsonText.printMembers]
    simp [ascii]

/-- Printed members with commas between them, closed, are the members of an object. -/
theorem intercalate_printMember {members : List (Str × Json)} (h : members ≠ []) :
    (ascii ",").intercalate (members.map JsonText.printMember) ++ [125] = JsonText.printMembers members := by
  induction members with
  | nil => exact absurd rfl h
  | cons m members ih =>
    cases members with
    | nil => simp [JsonText.printMembers]
    | cons m' members =>
      rw [JsonText.printMembers, ← ih (List.cons_ne_nil _ _), List.map_cons, List.map_cons, List.intercalate_cons_cons]
      simp [ascii]

/-- `write_array` prints the array of the values. -/
theorem writeArray_print (items : List Json) : writeArray (items.map JsonText.print) = JsonText.print (.array items) := by
  have hitems : ∀ {items : List Json}, items ≠ [] →
      (ascii ",").intercalate (items.map JsonText.print) ++ [93] = JsonText.printItems items := by
    intro items h
    induction items with
    | nil => exact absurd rfl h
    | cons v items ih =>
      cases items with
      | nil => simp [JsonText.printItems]
      | cons v' items =>
        rw [JsonText.printItems, ← ih (List.cons_ne_nil _ _), List.map_cons, List.map_cons, List.intercalate_cons_cons]
        simp [ascii]
  rw [writeArray, JsonText.print]
  cases items with
  | nil => simp [JsonText.printItems, ascii]
  | cons v items =>
    rw [← hitems (List.cons_ne_nil v items)]
    simp [ascii]

/-! ## Numbers -/

section Values

variable {P : Type} [Double P]

/-- A number that is finite and fits into the buffer, or NaN. -/
def Printed : WithNaN P → Prop
  | .nan => True
  | .number x => Double.isFinite x = true ∧ (Double.toString x).length ≤ 31

instance (x : WithNaN P) : Decidable (Printed x) :=
  match x with
  | .nan => isTrue trivial
  | .number x => inferInstanceAs (Decidable (Double.isFinite x = true ∧ (Double.toString x).length ≤ 31))

/-- What stands for a number. -/
def numberValue : WithNaN P → Json
  | .nan => .null
  | .number x => .number (Double.toString x)

/-- A finite double is printed as a number of JSON. -/
theorem isNumber_toString {x : P} (h : Double.isFinite x = true) : JsonGrammar.IsNumber (Double.toString x) := by
  rw [Double.toString, if_pos h]
  exact JsonGrammar.isNumber_fixed (Double.signBit x) 6 _

/-- `json_number` prints the number, or `null` for NaN. -/
theorem jsonNumber_print {x : WithNaN P} (h : Printed x) : jsonNumber x = JsonText.print (numberValue x) := by
  cases x with
  | nan =>
    rw [numberValue, JsonText.print]
    rfl
  | number x => rw [jsonNumber, numberValue, JsonText.print, List.take_of_length_le h.2]

/-- What it prints is a value of JSON. -/
theorem numberValue_valid {x : WithNaN P} (h : Printed x) : Valid (numberValue x) := by
  cases x with
  | nan => exact .null
  | number x => exact .number (isNumber_toString h.1)

/-! ## The value of a report -/

variable [LinearOrder P]

/-- The numbers of an entry are printed. -/
def JsonDetectorEntry.NumbersPrinted (entry : JsonDetectorEntry P) : Prop :=
  Printed (.number entry.threshold) ∧ Printed (entry.matrix.precision P) ∧ Printed (entry.matrix.recall P) ∧ Printed (entry.matrix.f1 P)

instance (entry : JsonDetectorEntry P) : Decidable entry.NumbersPrinted := inferInstanceAs (Decidable (_ ∧ _ ∧ _ ∧ _))

/-- The recall of a rule; every entry of the report has one. -/
def JsonSeverityGradientEntry.recallOf (entry : JsonSeverityGradientEntry P) (spec : DetectorSpec) : WithNaN P :=
  (entry.recallByDetector.lookup spec.detectorName).getD .nan

def JsonSeverityGradientEntry.NumbersPrinted (entry : JsonSeverityGradientEntry P) : Prop :=
  Printed (.number entry.severity) ∧ ∀ spec ∈ patternAwareDetectorSpecs, Printed (entry.recallOf spec)

instance (entry : JsonSeverityGradientEntry P) : Decidable entry.NumbersPrinted := inferInstanceAs (Decidable (_ ∧ _))

/-- The numbers of a report are finite, and none is cut. -/
def EvaluationReport.NumbersPrinted (report : EvaluationReport P) : Prop :=
  (∀ entry ∈ report.detectors ++ report.mlAnomalySweep, entry.NumbersPrinted) ∧ ∀ entry ∈ report.severityGradient, entry.NumbersPrinted

instance (report : EvaluationReport P) : Decidable report.NumbersPrinted := inferInstanceAs (Decidable (_ ∧ _))

def detectorValue (entry : JsonDetectorEntry P) : Json := .object [
  (ascii "name", .string entry.name),
  (ascii "target_pattern", .string entry.targetPattern),
  (ascii "threshold", numberValue (.number entry.threshold)),
  (ascii "tp", .number (Decimal.ofNat entry.matrix.tp)),
  (ascii "fp", .number (Decimal.ofNat entry.matrix.fp)),
  (ascii "fn", .number (Decimal.ofNat entry.matrix.fn)),
  (ascii "tn", .number (Decimal.ofNat entry.matrix.tn)),
  (ascii "precision", numberValue (entry.matrix.precision P)),
  (ascii "recall", numberValue (entry.matrix.recall P)),
  (ascii "f1", numberValue (entry.matrix.f1 P))]

/-- The recalls of the rules. -/
def recallMembers (entry : JsonSeverityGradientEntry P) : List (Str × Json) :=
  patternAwareDetectorSpecs.map fun spec => (spec.detectorName, numberValue (entry.recallOf spec))

def severityValue (entry : JsonSeverityGradientEntry P) : Json := .object [
  (ascii "severity", numberValue (.number entry.severity)),
  (ascii "recall_by_detector", .object (recallMembers entry))]

omit [Double P] [LinearOrder P] in
def replayIntegrityValue (run : EvalRun P) : Json := .object [
  (ascii "orders", .number (Decimal.ofInt run.simulation.orders.length)),
  (ascii "executions", .number (Decimal.ofInt run.simulation.executions.length)),
  (ascii "total_events_published", .number (Decimal.ofInt run.replay.eventsTotal)),
  (ascii "replayed_from_kafka", .number (Decimal.ofInt run.replay.eventsReplayedFromKafka)),
  (ascii "events_processed", .number (Decimal.ofInt run.replay.eventsProcessed.toInt)),
  (ascii "events_skipped_inconsistent", .number (Decimal.ofInt run.replay.eventsSkippedInconsistent.toInt)),
  (ascii "ring_buffer_dropped", .number (Decimal.ofInt run.replay.ringBufferDropped.toInt))]

/-- The severities of the gradient. -/
def severitiesValue : Json :=
  .array [.number (ascii "0.1"), .number (ascii "0.3"), .number (ascii "0.5"), .number (ascii "0.7"), .number (ascii "0.9")]

/-- What the text of a report stands for. -/
def EvaluationReport.value (report : EvaluationReport P) (nowEpochNs : ℤ) : Json := .object [
  (ascii "generated_at_unix_ns", .number (Decimal.ofInt nowEpochNs)),
  (ascii "replay_integrity", replayIntegrityValue report.run),
  (ascii "detectors", .array (report.detectors.map detectorValue)),
  (ascii "ml_anomaly_sweep", .array (report.mlAnomalySweep.map detectorValue)),
  (ascii "severity_gradient_severities", severitiesValue),
  (ascii "severity_gradient", .array (report.severityGradient.map severityValue))]

/-! ## What is written is what the values print -/

/-- `json_string` prints the string. -/
theorem jsonString_print (s : Str) : jsonString s = JsonText.print (.string s) := by
  rw [JsonText.print]
  simp [jsonString, jsonEscape, ascii]

/-- A number is printed as its literal. -/
theorem number_print (literal : Str) : JsonText.print (.number literal) = literal := by rw [JsonText.print]

/-- `detector_json` prints the value of the entry. -/
theorem detectorJson_print {entry : JsonDetectorEntry P} (h : entry.NumbersPrinted) :
    detectorJson entry = JsonText.print (detectorValue entry) := by
  obtain ⟨hthreshold, hprecision, hrecall, hf1⟩ := h
  rw [detectorValue, ← writeFields_print, detectorJson]
  simp only [List.map_cons, List.map_nil, ← jsonString_print, number_print, ← jsonNumber_print hthreshold,
    ← jsonNumber_print hprecision, ← jsonNumber_print hrecall, ← jsonNumber_print hf1]

omit [Double P] [LinearOrder P] in
/-- `replay_integrity_json` prints the value of the counters. -/
theorem replayIntegrityJson_print (run : EvalRun P) : replayIntegrityJson run = JsonText.print (replayIntegrityValue run) := by
  rw [replayIntegrityValue, ← writeFields_print, replayIntegrityJson]
  simp only [List.map_cons, List.map_nil, number_print]

omit [LinearOrder P] in
/-- No `at` throws where every rule has its recall. -/
theorem severityJson_print {entry : JsonSeverityGradientEntry P} (h : entry.NumbersPrinted)
    (hrecalls : ∀ spec ∈ patternAwareDetectorSpecs, ∃ value, entry.recallByDetector.lookup spec.detectorName = some value) :
    severityJson entry = .ok (JsonText.print (severityValue entry)) := by
  have hmembers : (patternAwareDetectorSpecs.mapM fun spec => do
      return jsonString spec.detectorName ++ ascii ":" ++ jsonNumber (← recallAt entry spec.detectorName)) =
      .ok ((recallMembers entry).map JsonText.printMember) := by
    rw [recallMembers, List.map_map]
    refine mapM_eq_ok fun spec hspec => ?_
    obtain ⟨value, hrecall⟩ := hrecalls spec hspec
    have hprinted := h.2 spec hspec
    rw [JsonSeverityGradientEntry.recallOf, hrecall, Option.getD_some] at hprinted
    rw [recallAt, hrecall, Function.comp_apply, JsonSeverityGradientEntry.recallOf, hrecall, Option.getD_some, JsonText.printMember,
      ← jsonNumber_print hprinted]
    simp [jsonString, jsonEscape, ascii, bind, Except.bind, pure, Except.pure]
  have hobject : ascii "\x7b" ++ (ascii ",").intercalate ((recallMembers entry).map JsonText.printMember) ++ ascii "\x7d" =
      JsonText.print (.object (recallMembers entry)) := by
    rw [JsonText.print, ← intercalate_printMember (show recallMembers entry ≠ [] from List.cons_ne_nil _ _)]
    simp [ascii]
  rw [severityJson, hmembers, severityValue, ← writeFields_print]
  simp only [List.map_cons, List.map_nil, ← jsonNumber_print h.1, ← hobject]
  rfl

/-- The severities are printed as the literal of the source. -/
theorem severitiesValue_print : JsonText.print severitiesValue = ascii "[0.1,0.3,0.5,0.7,0.9]" := by
  rw [severitiesValue]
  simp only [JsonText.print, JsonText.printItems]
  rfl

/-- `evaluation_json` prints the value of the report, when every entry of the gradient has a recall for every rule. -/
theorem evaluationJson_print {report : EvaluationReport P} (h : report.NumbersPrinted)
    (hrecalls : ∀ entry ∈ report.severityGradient, ∀ spec ∈ patternAwareDetectorSpecs,
      ∃ value, entry.recallByDetector.lookup spec.detectorName = some value) (nowEpochNs : ℤ) :
    evaluationJson nowEpochNs report = .ok (JsonText.print (report.value nowEpochNs)) := by
  have hseverity : report.severityGradient.mapM severityJson = .ok ((report.severityGradient.map severityValue).map JsonText.print) := by
    rw [List.map_map]
    exact mapM_eq_ok fun entry hentry => severityJson_print (h.2 entry hentry) (hrecalls entry hentry)
  have hentries : ∀ entries : List (JsonDetectorEntry P), (∀ entry ∈ entries, entry.NumbersPrinted) →
      writeArray (entries.map detectorJson) = JsonText.print (.array (entries.map detectorValue)) := by
    intro entries hentries
    rw [← writeArray_print, List.map_map]
    exact congrArg writeArray (List.map_congr_left fun entry hentry => detectorJson_print (hentries entry hentry))
  rw [evaluationJson, hseverity, EvaluationReport.value, ← writeFields_print]
  simp only [List.map_cons, List.map_nil, number_print, ← replayIntegrityJson_print, severitiesValue_print, ← writeArray_print,
    ← hentries report.detectors fun entry he => h.1 entry (List.mem_append_left _ he),
    ← hentries report.mlAnomalySweep fun entry he => h.1 entry (List.mem_append_right _ he)]
  rfl

/-! ## The values are valid -/

omit [Double P] [LinearOrder P] in
/-- Keys of ASCII without control characters are strings of JSON. -/
theorem keys_printable {members : List (Str × Json)}
    (h : (members.all fun m => m.1.all fun b => b.toNat < 128 && (32 ≤ b.toNat || b = 10)) = true) :
    ∀ m ∈ members, Printable m.1 := fun m hm => JsonText.printable_of_ascii (List.all_eq_true.1 h m hm)

/-- The names of an entry are strings of JSON. -/
def JsonDetectorEntry.Named (entry : JsonDetectorEntry P) : Prop := Printable entry.name ∧ Printable entry.targetPattern

/-- The value of an entry is one of JSON. -/
theorem detectorValue_valid {entry : JsonDetectorEntry P} (hnamed : entry.Named) (h : entry.NumbersPrinted) :
    Valid (detectorValue entry) := by
  obtain ⟨hthreshold, hprecision, hrecall, hf1⟩ := h
  have hcount : ∀ n, Valid (.number (Decimal.ofNat n)) := fun n => .number (JsonGrammar.isNumber_ofNat n)
  refine .object (keys_printable rfl) ?_
  simp only [List.forall_mem_cons, List.not_mem_nil, false_implies, implies_true, and_true]
  exact ⟨.string hnamed.1, .string hnamed.2, numberValue_valid hthreshold, hcount _, hcount _, hcount _, hcount _,
    numberValue_valid hprecision, numberValue_valid hrecall, numberValue_valid hf1⟩

omit [LinearOrder P] in
/-- So is that of an entry of the gradient. -/
theorem severityValue_valid {entry : JsonSeverityGradientEntry P} (h : entry.NumbersPrinted) : Valid (severityValue entry) := by
  refine .object (keys_printable rfl) ?_
  simp only [List.forall_mem_cons, List.not_mem_nil, false_implies, implies_true, and_true]
  refine ⟨numberValue_valid h.1, .object (keys_printable rfl) fun m hm => ?_⟩
  obtain ⟨spec, hspec, rfl⟩ := List.mem_map.1 hm
  exact numberValue_valid (h.2 spec hspec)

omit [Double P] [LinearOrder P] in
/-- So is that of the counters. -/
theorem replayIntegrityValue_valid (run : EvalRun P) : Valid (replayIntegrityValue run) := by
  have hcount : ∀ z, Valid (.number (Decimal.ofInt z)) := fun z => .number (JsonGrammar.isNumber_ofInt z)
  refine .object (keys_printable rfl) ?_
  simp only [List.forall_mem_cons, List.not_mem_nil, false_implies, implies_true, and_true]
  exact ⟨hcount _, hcount _, hcount _, hcount _, hcount _, hcount _, hcount _⟩

omit [Double P] [LinearOrder P] in
/-- Tenths are printed as `%f` with one digit prints them. -/
theorem severitiesValue_valid : Valid severitiesValue := by
  have htenth : ∀ n : ℕ, Valid (.number (Decimal.fixed 1 (n / 10))) := fun n => .number (JsonGrammar.isNumber_fixed false 1 _)
  refine .array ?_
  simp only [List.forall_mem_cons, List.not_mem_nil, false_implies, implies_true, and_true]
  have h1 : ascii "0.1" = Decimal.fixed 1 ((1 : ℕ) / 10) := by decide +kernel
  have h3 : ascii "0.3" = Decimal.fixed 1 ((3 : ℕ) / 10) := by decide +kernel
  have h5 : ascii "0.5" = Decimal.fixed 1 ((5 : ℕ) / 10) := by decide +kernel
  have h7 : ascii "0.7" = Decimal.fixed 1 ((7 : ℕ) / 10) := by decide +kernel
  have h9 : ascii "0.9" = Decimal.fixed 1 ((9 : ℕ) / 10) := by decide +kernel
  rw [h1, h3, h5, h7, h9]
  exact ⟨htenth 1, htenth 3, htenth 5, htenth 7, htenth 9⟩

/-- So is that of the report. -/
theorem value_valid {report : EvaluationReport P} (hnamed : ∀ entry ∈ report.detectors ++ report.mlAnomalySweep, entry.Named)
    (h : report.NumbersPrinted) (nowEpochNs : ℤ) : Valid (report.value nowEpochNs) := by
  have hentries : ∀ entries : List (JsonDetectorEntry P), (∀ entry ∈ entries, entry ∈ report.detectors ++ report.mlAnomalySweep) →
      Valid (.array (entries.map detectorValue)) := by
    intro entries hentries
    refine .array fun v hv => ?_
    obtain ⟨entry, hentry, rfl⟩ := List.mem_map.1 hv
    exact detectorValue_valid (hnamed entry (hentries entry hentry)) (h.1 entry (hentries entry hentry))
  refine .object (keys_printable rfl) ?_
  simp only [List.forall_mem_cons, List.not_mem_nil, false_implies, implies_true, and_true]
  refine ⟨.number (JsonGrammar.isNumber_ofInt _), replayIntegrityValue_valid _, hentries _ fun _ => List.mem_append_left _,
    hentries _ fun _ => List.mem_append_right _, severitiesValue_valid, .array fun v hv => ?_⟩
  obtain ⟨entry, hentry, rfl⟩ := List.mem_map.1 hv
  exact severityValue_valid (h.2 entry hentry)

/-! ## The report is made -/

omit [Double P] [LinearOrder P] in
/-- A map over a list succeeds with a property of all results when it does at every item. -/
theorem exists_mapM_ok {α β : Type} {f : α → Except Exception β} {Q : β → Prop} {l : List α}
    (h : ∀ a ∈ l, ∃ b, f a = .ok b ∧ Q b) : ∃ bs, l.mapM f = .ok bs ∧ ∀ b ∈ bs, Q b := by
  induction l with
  | nil => exact ⟨[], rfl, List.forall_mem_nil _⟩
  | cons a l ih =>
    obtain ⟨b, hb, hQ⟩ := h a List.mem_cons_self
    obtain ⟨bs, hbs, hall⟩ := ih fun a ha => h a (List.mem_cons_of_mem _ ha)
    refine ⟨b :: bs, ?_, List.forall_mem_cons.2 ⟨hQ, hall⟩⟩
    rw [List.mapM_cons, hb, hbs]
    rfl

omit [Double P] [LinearOrder P] in
/-- Every rule has a universe. -/
theorem detectorUniverseKind_spec : ∀ spec ∈ patternAwareDetectorSpecs, ∃ kind, detectorUniverseKind spec.detectorName = .ok kind := by
  simp only [patternAwareDetectorSpecs, List.forall_mem_cons, List.not_mem_nil, false_implies, implies_true, and_true]
  exact ⟨⟨_, rfl⟩, ⟨_, rfl⟩, ⟨_, rfl⟩, ⟨_, rfl⟩⟩

omit [Double P] [LinearOrder P] in
/-- The names of the rules and of their patterns are strings of JSON. -/
theorem printable_spec : ∀ spec ∈ patternAwareDetectorSpecs, Printable spec.detectorName ∧ Printable spec.targetPattern.toString := by
  have hall : (patternAwareDetectorSpecs.all fun spec => (spec.detectorName ++ spec.targetPattern.toString).all
      fun b => b.toNat < 128 && (32 ≤ b.toNat || b = 10)) = true := by decide
  intro spec hspec
  have h := List.all_eq_true.1 hall spec hspec
  rw [List.all_append, Bool.and_eq_true] at h
  exact ⟨JsonText.printable_of_ascii h.1, JsonText.printable_of_ascii h.2⟩

omit [Double P] in
/-- The matrix of a rule is always computed. -/
theorem specMatrix_ok (run : EvalRun P) (scoreThreshold : P) {spec : DetectorSpec} (h : spec ∈ patternAwareDetectorSpecs) :
    ∃ matrix, specMatrix run spec scoreThreshold = .ok matrix := by
  obtain ⟨kind, hkind⟩ := detectorUniverseKind_spec spec h
  rw [specMatrix, hkind]
  exact ⟨_, rfl⟩

/-- The entries at the operating point are always computed, with the names of the rules. -/
theorem operatingEntries_ok (run : EvalRun P) : ∃ entries, operatingEntries run = .ok entries ∧ ∀ entry ∈ entries, entry.Named := by
  refine exists_mapM_ok fun spec hspec => ?_
  have hspec := List.mem_of_mem_filter hspec
  obtain ⟨matrix, hmatrix⟩ := specMatrix_ok run 0.5 hspec
  rw [hmatrix]
  exact ⟨_, rfl, printable_spec spec hspec⟩

/-- So are those of the threshold sweep. -/
theorem sweepEntries_ok (run : EvalRun P) : ∃ entries, sweepEntries run = .ok entries ∧ ∀ entry ∈ entries, entry.Named := by
  have hspecs : ∀ spec ∈ patternAwareDetectorSpecs.filter (·.detectorName = ascii "MarkingTheCloseDetector"),
      ∃ entries : List (JsonDetectorEntry P), (do
        let u := selectUniverse run.universes (← detectorUniverseKind spec.detectorName)
        let sweep := thresholdSweep run.replay.alerts spec.detectorName u.eventIds (positiveIdsFor u spec.targetPattern)
          sweepThresholds
        return (sweep.filter fun point => near point.threshold 0.4).map fun point =>
          ⟨spec.detectorName, spec.targetPattern.toString, 0.4, point.matrix⟩ : Except Exception _) = .ok entries ∧
        ∀ entry ∈ entries, entry.Named := by
    intro spec hspec
    have hspec := List.mem_of_mem_filter hspec
    obtain ⟨kind, hkind⟩ := detectorUniverseKind_spec spec hspec
    rw [hkind]
    refine ⟨_, rfl, fun entry hentry => ?_⟩
    obtain ⟨point, -, rfl⟩ := List.mem_map.1 hentry
    exact printable_spec spec hspec
  obtain ⟨entries, hentries, hnamed⟩ := exists_mapM_ok hspecs
  refine ⟨entries.flatten, ?_, fun entry hentry => ?_⟩
  · rw [sweepEntries, hentries]
    rfl
  · obtain ⟨l, hl, hentry⟩ := List.mem_flatten.1 hentry
    exact hnamed l hl entry hentry

omit [Double P] [LinearOrder P] in
/-- An entry of the learned detector has its name. -/
theorem mlEntry_named (threshold : P) (point : SweepPoint P) : (mlEntry threshold point).Named :=
  ⟨JsonText.printable_of_ascii rfl, JsonText.printable_of_ascii rfl⟩

/-- All entries of the report are computed. -/
theorem jsonDetectors_ok (run : EvalRun P) : ∃ entries, jsonDetectors run = .ok entries ∧ ∀ entry ∈ entries, entry.Named := by
  obtain ⟨operating, hoperating, hnamed⟩ := operatingEntries_ok run
  obtain ⟨sweep, hsweep, hnamed'⟩ := sweepEntries_ok run
  rw [jsonDetectors, hoperating, hsweep]
  refine ⟨_, rfl, fun entry hentry => ?_⟩
  simp only [List.mem_append, List.mem_singleton] at hentry
  rcases hentry with ((hentry | rfl) | hentry) | hentry
  · exact hnamed entry hentry
  · exact ⟨JsonText.printable_of_ascii rfl, JsonText.printable_of_ascii rfl⟩
  · exact hnamed' entry hentry
  · obtain ⟨point, -, rfl⟩ := List.mem_map.1 hentry
    exact mlEntry_named _ point

/-- Every rule gets its recall, and keeps one. -/
theorem foldlM_recalls (run : EvalRun P) {specs : List DetectorSpec} (hspecs : ∀ spec ∈ specs, spec ∈ patternAwareDetectorSpecs)
    (recalls : Map Str (WithNaN P)) : ∃ recalls', specs.foldlM (fun recalls spec => do
      return recalls.insert spec.detectorName ((← specMatrix run spec 0.5).recall P)) recalls = (.ok recalls' : Except Exception _) ∧
      ∀ name, (∃ value, recalls.lookup name = some value) ∨ name ∈ specs.map (·.detectorName) →
        ∃ value, recalls'.lookup name = some value := by
  induction specs generalizing recalls with
  | nil =>
    refine ⟨recalls, rfl, fun name h => ?_⟩
    rcases h with h | h
    · exact h
    · cases h
  | cons spec specs ih =>
    obtain ⟨matrix, hmatrix⟩ := specMatrix_ok run 0.5 (hspecs spec List.mem_cons_self)
    obtain ⟨recalls', hrecalls', hlookup⟩ := ih (fun spec h => hspecs spec (List.mem_cons_of_mem _ h))
      (recalls.insert spec.detectorName (matrix.recall P))
    refine ⟨recalls', ?_, fun name h => hlookup name ?_⟩
    · rw [List.foldlM_cons, hmatrix]
      exact hrecalls'
    · by_cases hname : name = spec.detectorName
      · exact .inl ⟨_, by rw [hname, Finmap.lookup_insert]⟩
      · rcases h with ⟨value, h⟩ | h
        · exact .inl ⟨value, by rw [Finmap.lookup_insert_of_ne _ hname, h]⟩
        · exact .inr (List.mem_of_ne_of_mem hname h)

/-- An entry of the gradient has a recall for every rule. -/
theorem severityEntry_ok (severity : P) (run : EvalRun P) : ∃ entry, severityEntry severity run = .ok entry ∧
    ∀ spec ∈ patternAwareDetectorSpecs, ∃ value, entry.recallByDetector.lookup spec.detectorName = some value := by
  obtain ⟨recalls, hrecalls, hlookup⟩ := foldlM_recalls run (fun _ h => h) ∅
  rw [severityEntry, hrecalls]
  exact ⟨_, rfl, fun spec hspec => hlookup _ (.inr (List.mem_map_of_mem hspec))⟩

/-- Collecting the report throws nothing, and every entry has what its text reads. -/
theorem evaluationReport_ok (run : EvalRun P) (gradient : List (P × EvalRun P)) :
    ∃ report, evaluationReport run gradient = .ok report ∧
      (∀ entry ∈ report.detectors ++ report.mlAnomalySweep, entry.Named) ∧
      ∀ entry ∈ report.severityGradient, ∀ spec ∈ patternAwareDetectorSpecs,
        ∃ value, entry.recallByDetector.lookup spec.detectorName = some value := by
  obtain ⟨detectors, hdetectors, hnamed⟩ := jsonDetectors_ok run
  obtain ⟨severityGradient, hgradient, hrecalls⟩ := exists_mapM_ok fun x (_ : x ∈ gradient) => severityEntry_ok x.1 x.2
  rw [evaluationReport, hdetectors, hgradient]
  refine ⟨_, rfl, fun entry hentry => ?_, hrecalls⟩
  rcases List.mem_append.1 hentry with hentry | hentry
  · exact hnamed entry hentry
  · obtain ⟨point, -, rfl⟩ := List.mem_map.1 hentry
    exact mlEntry_named _ point

/-! ## The server -/

section Server

variable {readFile : Str → Option Str} {load : Str → Option Json} {dir : Str}

omit [Double P] [LinearOrder P] in
/-- A member that no later file replaces stays in the body. -/
theorem lookup_of_mergeSnapshots {key : Str} {snapshots : List (Str × Str)} {out body : Map Str Json}
    (hkey : ∀ snapshot ∈ snapshots, snapshot.1.take (snapshot.1.length - 5) ≠ key)
    (h : Api.mergeSnapshots readFile load dir snapshots out = .ok body) : body.lookup key = out.lookup key := by
  induction snapshots generalizing out with
  | nil =>
    cases h
    rfl
  | cons snapshot snapshots ih =>
    obtain ⟨filename, regenHint⟩ := snapshot
    unfold Api.mergeSnapshots at h
    simp only at h
    split at h
    · cases h
    · split at h
      · cases h
      · rw [ih (fun snapshot hs => hkey snapshot (List.mem_cons_of_mem _ hs)) h,
          Finmap.lookup_insert_of_ne _ (hkey _ List.mem_cons_self).symm]

omit [Double P] [LinearOrder P] in
/-- A file that is there and is parsed is merged. -/
theorem mergeSnapshots_cons {filename regenHint text : Str} {v : Json} {snapshots : List (Str × Str)} {out : Map Str Json}
    (hread : readFile (dir ++ ascii "/" ++ filename) = some text) (hload : load text = some v) :
    Api.mergeSnapshots readFile load dir ((filename, regenHint) :: snapshots) out =
      Api.mergeSnapshots readFile load dir snapshots (out.insert (filename.take (filename.length - 5)) v) := by
  rw [Api.mergeSnapshots]
  simp only [hread, hload]

end Server

/-- The server hands on this value for the file of the evaluation: it is in every body, and the body is answered when the other two
files are there and are JSON. -/
structure Served (readFile : Str → Option Str) (load : Str → Option Json) (dir : Str) (value : Json) : Prop where
  member : ∀ body, Api.evaluation readFile load dir = .ok body → body.lookup (ascii "evaluation") = some value
  body : ∀ sarao sweep v v', readFile (dir ++ ascii "/" ++ ascii "sarao.json") = some sarao →
    readFile (dir ++ ascii "/" ++ ascii "spoofing_rate_sweep.json") = some sweep → load sarao = some v → load sweep = some v' →
    Api.evaluation readFile load dir = .ok
      (((∅ : Map Str Json).insert (ascii "evaluation") value).insert (ascii "sarao") v |>.insert (ascii "spoofing_rate_sweep") v')

omit [Double P] [LinearOrder P] in
/-- A file that is loaded is handed on. -/
theorem served_of_load {readFile : Str → Option Str} {load : Str → Option Json} {dir text : Str} {value : Json}
    (hread : readFile (dir ++ ascii "/" ++ ascii "evaluation.json") = some text) (hload : load text = some value) :
    Served readFile load dir value := by
  have hname : (ascii "evaluation.json").take ((ascii "evaluation.json").length - 5) = ascii "evaluation" := by decide
  have hsarao : (ascii "sarao.json").take ((ascii "sarao.json").length - 5) = ascii "sarao" := by decide
  have hsweep : (ascii "spoofing_rate_sweep.json").take ((ascii "spoofing_rate_sweep.json").length - 5) =
      ascii "spoofing_rate_sweep" := by decide
  refine ⟨fun body h => ?_, fun sarao sweep v v' hr hr' hl hl' => ?_⟩
  · rw [Api.evaluation, Api.evaluationSnapshots, mergeSnapshots_cons hread hload, hname] at h
    rw [lookup_of_mergeSnapshots (by simp only [List.forall_mem_cons, hsarao, hsweep]; decide) h, Finmap.lookup_insert]
  · rw [Api.evaluation, Api.evaluationSnapshots, mergeSnapshots_cons hread hload, hname, mergeSnapshots_cons hr hl, hsarao,
      mergeSnapshots_cons hr' hl', hsweep]
    rfl

/-- Whatever was replayed, the report is collected; where its numbers are printed it is written as JSON that stands for its value alone,
and the server hands on that value. -/
theorem evaluation_snapshot (run : EvalRun P) (gradient : List (P × EvalRun P)) :
    ∃ report, evaluationReport run gradient = .ok report ∧ (report.NumbersPrinted → ∀ nowEpochNs : ℤ,
      ∃ text, evaluationJson nowEpochNs report = .ok text ∧ (∀ v, JsonText.IsJson text v ↔ v = report.value nowEpochNs) ∧
        ∀ (readFile : Str → Option Str) (load : Str → Option Json) (dir : Str), JsonText.Conforming load →
          readFile (dir ++ ascii "/" ++ ascii "evaluation.json") = some text →
          Served readFile load dir (report.value nowEpochNs)) := by
  obtain ⟨report, hreport, hnamed, hrecalls⟩ := evaluationReport_ok run gradient
  refine ⟨report, hreport, fun hnumbers nowEpochNs => ?_⟩
  have hjson : ∀ v, JsonText.IsJson (JsonText.print (report.value nowEpochNs)) v ↔ v = report.value nowEpochNs :=
    fun v => JsonText.isJson_print_iff (value_valid hnamed hnumbers nowEpochNs)
  refine ⟨_, evaluationJson_print hnumbers hrecalls nowEpochNs, hjson, fun readFile load dir hload hread => ?_⟩
  obtain ⟨v, hv, hloaded⟩ := hload _ ⟨_, (hjson _).2 rfl⟩
  rw [(hjson v).1 hv] at hloaded
  exact served_of_load hread hloaded

end Values

/-- A session of one order, of which one window was scored. -/
def scoredOnce : EvalRun ℚ where
  simulation := ⟨[], [], [⟨ascii "O", ascii "A", ascii "X", .buy, 100, 10, .limit, 0, .new, ascii "V", ⟨.washTrade, ascii "S", 1⟩⟩], []⟩
  replay := ⟨[MlScoringWorker.alertOf ⟨ascii "A", ascii "X", ∅, 0, 0⟩ ⟨4 / 5, ascii "v1"⟩], 1, 1, 1, 0, 0⟩

/-- The rules have no rates here, and the window is counted at every threshold. -/
theorem evaluation_snapshot_scoredOnce : ∃ (report : EvaluationReport ℚ) (text : Str),
    evaluationReport scoredOnce [(1 / 10, scoredOnce)] = .ok report ∧ report.mlAnomalySweep.length = 11 ∧
      evaluationJson 0 report = .ok text ∧ ∀ v, JsonText.IsJson text v ↔ v = report.value 0 := by
  obtain ⟨report, hreport, hwritten⟩ := evaluation_snapshot scoredOnce [(1 / 10, scoredOnce)]
  have hall : ((evaluationReport scoredOnce [(1 / 10, scoredOnce)]).toOption.all fun report =>
      decide (report.NumbersPrinted ∧ report.mlAnomalySweep.length = 11)) = true := by decide +kernel
  rw [hreport] at hall
  obtain ⟨hnumbers, hlength⟩ := of_decide_eq_true hall
  obtain ⟨text, htext, hjson, -⟩ := hwritten hnumbers 0
  exact ⟨report, text, hreport, hlength, htext, hjson⟩

end TradeSurveillance.Harness
