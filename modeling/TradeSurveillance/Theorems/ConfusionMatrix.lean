import TradeSurveillance.Harness.Evaluation

/-!
# The counts of a confusion matrix

The ids predicted and the positive ids are both drawn from the universe, whichever the detector's is, so the four counts split it. What
is predicted is a set of ids of the universe that shrinks as the threshold grows, and the alerts are read for that set only.
-/

namespace TradeSurveillance.Harness

/-! ## Universes -/

namespace DetectorUniverse

/-- The ids of every pattern are ids of the universe. -/
def Sound (u : DetectorUniverse) : Prop := ∀ pattern, u.ids pattern ⊆ u.eventIds

theorem sound_empty : empty.Sound := by
  intro pattern id hid
  rw [ids, empty, Finmap.lookup_empty] at hid
  exact absurd hid (Finset.notMem_empty id)

theorem Sound.add {u : DetectorUniverse} (h : u.Sound) (id : Str) (pattern : Simulator.AbusePattern) :
    (u.add id pattern).Sound := by
  intro q x hx
  rw [ids, DetectorUniverse.add] at hx
  by_cases hq : q = pattern
  · subst hq
    rw [Finmap.lookup_insert, Option.getD_some] at hx
    exact Finset.insert_subset_insert id (h q) hx
  · rw [Finmap.lookup_insert_of_ne _ hq] at hx
    exact Finset.mem_insert_of_mem (h q hx)

end DetectorUniverse

variable {P : Type}

/-- The ids of every universe that is built. -/
theorem sound_buildUniverses (simulation : Simulator.SimulationOutput P) (kind : UniverseKind) :
    (selectUniverse (buildUniverses simulation) kind).Sound := by
  have hexecutions : ∀ (xs : List (Simulator.Execution P)) (universes : Universes), (∀ kind, (selectUniverse universes kind).Sound) →
      ∀ kind, (selectUniverse (xs.foldl Universes.addExecution universes) kind).Sound := by
    intro xs
    induction xs with
    | nil => exact fun _ h => h
    | cons x xs ih =>
      intro universes h
      refine ih _ ?_
      rintro (_ | _ | _)
      · exact h .newOrder
      · exact h .cancelOrder
      · exact (h .execution).add _ _
  have horders : ∀ (os : List (Simulator.Order P)) (universes : Universes), (∀ kind, (selectUniverse universes kind).Sound) →
      ∀ kind, (selectUniverse (os.foldl Universes.addOrder universes) kind).Sound := by
    intro os
    induction os with
    | nil => exact fun _ h => h
    | cons o os ih =>
      intro universes h
      refine ih _ ?_
      unfold Universes.addOrder
      cases o.status with
      | new =>
        rintro (_ | _ | _)
        · exact (h .newOrder).add _ _
        · exact h .cancelOrder
        · exact h .execution
      | cancelled =>
        rintro (_ | _ | _)
        · exact h .newOrder
        · exact (h .cancelOrder).add _ _
        · exact h .execution
      | replaced => exact h
  refine hexecutions _ _ (horders _ _ ?_) kind
  rintro (_ | _ | _) <;> exact DetectorUniverse.sound_empty

/-- What the positive ids of a universe are taken from: one pattern, or every pattern but the baseline's. -/
inductive PositiveKind where
  | pattern (target : Simulator.AbusePattern)
  | anyAbuse

/-- The positive ids. -/
def positiveIds (u : DetectorUniverse) : PositiveKind → Finset Str
  | .pattern target => positiveIdsFor u target
  | .anyAbuse => anyAbuseIds u

theorem positiveIds_subset {u : DetectorUniverse} (h : u.Sound) (kind : PositiveKind) :
    positiveIds u kind ⊆ u.eventIds := by
  cases kind with
  | pattern target => exact h target
  | anyAbuse => exact Finset.biUnion_subset.2 fun pattern _ => h pattern

/-! ## Predictions -/

section Predictions

variable {D : Type} [LT D] [DecidableLT D] {alerts alerts' : List (Alert D)} {detectorName : Str} {threshold : D}
  {universeIds predicted positives : Finset Str} {id : Str}

/-- An alert of the detector that reaches the threshold names an id. -/
def Names (detectorName : Str) (threshold : D) (id : Str) (alert : Alert D) : Prop :=
  alert.detectorName = detectorName ∧ ¬alert.score < threshold ∧ id ∈ alert.orderIds

theorem mem_addPredicted {alert : Alert D} :
    id ∈ addPredicted detectorName threshold universeIds predicted alert ↔
      id ∈ predicted ∨ id ∈ universeIds ∧ Names detectorName threshold id alert := by
  have hids : ∀ (ids : List Str) (predicted : Finset Str),
      id ∈ ids.foldl (fun predicted id => if id ∈ universeIds then insert id predicted else predicted) predicted ↔
        id ∈ predicted ∨ id ∈ universeIds ∧ id ∈ ids := by
    intro ids
    induction ids with
    | nil => simp
    | cons x ids ih =>
      intro predicted
      rw [List.foldl_cons, ih, List.mem_cons]
      split_ifs with hx
      · rw [Finset.mem_insert]
        grind
      · grind
  unfold addPredicted Names
  split_ifs with hname hscore
  · simp [hname]
  · simp [hscore]
  · rw [hids]
    simp [not_not.1 hname, hscore]

/-- The ids predicted. -/
theorem mem_predicted : id ∈ alerts.foldl (addPredicted detectorName threshold universeIds) predicted ↔
    id ∈ predicted ∨ id ∈ universeIds ∧ ∃ alert ∈ alerts, Names detectorName threshold id alert := by
  induction alerts generalizing predicted with
  | nil => simp
  | cons alert alerts ih =>
    rw [List.foldl_cons, ih, mem_addPredicted, List.exists_mem_cons_iff]
    grind

end Predictions

/-! ## Counts -/

/-- An alert with the ids of a universe only. -/
def restrict {D : Type} (universeIds : Finset Str) (alert : Alert D) : Alert D :=
  { alert with orderIds := alert.orderIds.filter (· ∈ universeIds) }

/-- The scores of a detector add up over a universe with these positive ids. -/
structure AddsUp (P : Type) [LinearOrder P] (detectorName : Str) (universeIds positiveIds : Finset Str) : Prop where
  partition : ∀ (alerts : List (Alert (WithNaN P))) (threshold : WithNaN P),
    let m := computeConfusionMatrix alerts detectorName threshold universeIds positiveIds
    m.tp + m.fp + m.fn + m.tn = universeIds.card ∧ m.tp + m.fn = positiveIds.card
  antitone : ∀ (alerts : List (Alert (WithNaN P))) (low high : WithNaN P), low ≤ high →
    (computeConfusionMatrix alerts detectorName high universeIds positiveIds).tp ≤
        (computeConfusionMatrix alerts detectorName low universeIds positiveIds).tp ∧
      (computeConfusionMatrix alerts detectorName high universeIds positiveIds).fp ≤
        (computeConfusionMatrix alerts detectorName low universeIds positiveIds).fp
  sweep : ∀ (alerts : List (Alert (WithNaN P))) (thresholds : List (WithNaN P)), thresholds.Pairwise (· ≤ ·) →
    (thresholdSweep alerts detectorName universeIds positiveIds thresholds).Pairwise fun p q =>
      q.matrix.tp ≤ p.matrix.tp ∧ q.matrix.fp ≤ p.matrix.fp
  /-- The order of the alerts, repeated alerts and ids outside the universe make no difference. -/
  congr : ∀ (alerts alerts' : List (Alert (WithNaN P))) (threshold : WithNaN P),
    (∀ alert, alert ∈ alerts.map (restrict universeIds) ↔ alert ∈ alerts'.map (restrict universeIds)) →
    computeConfusionMatrix alerts detectorName threshold universeIds positiveIds =
      computeConfusionMatrix alerts' detectorName threshold universeIds positiveIds

/-- Two sets split a set that has them both. -/
theorem card_split {α : Type*} [DecidableEq α] {u p q : Finset α} (hp : p ⊆ u) (hq : q ⊆ u) :
    (q.filter (· ∈ p)).card + (q.filter (· ∉ p)).card + (p.filter (· ∉ q)).card + (u.filter fun a => a ∉ p ∧ a ∉ q).card = u.card ∧
      (q.filter (· ∈ p)).card + (p.filter (· ∉ q)).card = p.card := by
  have hinter : p.filter (· ∈ q) = q.filter (· ∈ p) := by
    ext a
    simp only [Finset.mem_filter]
    exact and_comm
  have houtside : u.filter (fun a => a ∉ p ∧ a ∉ q) = u \ (p ∪ q) := by
    ext a
    simp
  have hcard := Finset.card_sdiff_add_card_eq_card (Finset.union_subset hp hq)
  have hunion : (p.filter (· ∉ q)).card + q.card = (p ∪ q).card := by
    rw [Finset.filter_notMem_eq_sdiff, Finset.card_sdiff_add_card]
  have hsplit_p := Finset.card_filter_add_card_filter_not (s := p) (· ∈ q)
  have hsplit_q := Finset.card_filter_add_card_filter_not (s := q) (· ∈ p)
  rw [hinter] at hsplit_p
  rw [houtside]
  omega

section Counts

variable {D : Type} [LT D] [DecidableLT D] {alerts alerts' : List (Alert D)} {detectorName : Str} {threshold low high : D}
  {universeIds positives : Finset Str}

/-- The counts split the universe, and the positive ids. -/
theorem counts_partition (h : positives ⊆ universeIds) :
    let m := computeConfusionMatrix alerts detectorName threshold universeIds positives
    m.tp + m.fp + m.fn + m.tn = universeIds.card ∧ m.tp + m.fn = positives.card := by
  have hsub : alerts.foldl (addPredicted detectorName threshold universeIds) ∅ ⊆ universeIds := by
    intro id hid
    rcases mem_predicted.1 hid with hid | hid
    · exact absurd hid (Finset.notMem_empty id)
    · exact hid.1
  exact card_split h hsub

/-- A threshold that more scores are below predicts less. -/
theorem counts_antitone (h : ∀ score : D, score < low → score < high) :
    (computeConfusionMatrix alerts detectorName high universeIds positives).tp ≤
        (computeConfusionMatrix alerts detectorName low universeIds positives).tp ∧
      (computeConfusionMatrix alerts detectorName high universeIds positives).fp ≤
        (computeConfusionMatrix alerts detectorName low universeIds positives).fp := by
  have hsub : alerts.foldl (addPredicted detectorName high universeIds) ∅ ⊆
      alerts.foldl (addPredicted detectorName low universeIds) ∅ := by
    intro id hid
    rcases mem_predicted.1 hid with hid | ⟨hid, alert, halert, hname, hscore, horder⟩
    · exact absurd hid (Finset.notMem_empty id)
    · exact mem_predicted.2 (.inr ⟨hid, alert, halert, hname, fun hlow => hscore (h _ hlow), horder⟩)
  exact ⟨Finset.card_le_card (Finset.filter_subset_filter _ hsub), Finset.card_le_card (Finset.filter_subset_filter _ hsub)⟩

omit [DecidableLT D] in
theorem names_restrict {id : Str} (hid : id ∈ universeIds) {alert : Alert D} :
    Names detectorName threshold id (restrict universeIds alert) ↔ Names detectorName threshold id alert := by
  unfold Names restrict
  simp [hid]

/-- The counts are those of the alerts that occur, with the ids of the universe only. -/
theorem counts_congr (h : ∀ alert, alert ∈ alerts.map (restrict universeIds) ↔ alert ∈ alerts'.map (restrict universeIds)) :
    computeConfusionMatrix alerts detectorName threshold universeIds positives =
      computeConfusionMatrix alerts' detectorName threshold universeIds positives := by
  have hnames : ∀ {alerts : List (Alert D)} {id : Str}, id ∈ universeIds →
      ((∃ alert ∈ alerts, Names detectorName threshold id alert) ↔
        ∃ alert ∈ alerts.map (restrict universeIds), Names detectorName threshold id alert) := by
    intro alerts id hid
    constructor
    · rintro ⟨alert, halert, hname⟩
      exact ⟨_, List.mem_map_of_mem halert, (names_restrict hid).2 hname⟩
    · rintro ⟨_, hmem, hname⟩
      obtain ⟨alert, halert, rfl⟩ := List.mem_map.1 hmem
      exact ⟨alert, halert, (names_restrict hid).1 hname⟩
  have hpredicted : alerts.foldl (addPredicted detectorName threshold universeIds) ∅ =
      alerts'.foldl (addPredicted detectorName threshold universeIds) ∅ := by
    ext id
    rw [mem_predicted, mem_predicted]
    refine or_congr Iff.rfl (and_congr_right ?_)
    intro hid
    exact (hnames hid).trans ((exists_congr fun alert => and_congr_left' (h alert)).trans (hnames hid).symm)
  unfold computeConfusionMatrix
  rw [hpredicted]

end Counts

/-- The scores of every detector add up over every universe of a simulation, with the ids of any pattern, or of all abuse, as positive
ones. -/
theorem scores_add_up [LinearOrder P] {Q : Type} (simulation : Simulator.SimulationOutput Q) (kind : UniverseKind) (positive : PositiveKind)
    (detectorName : Str) :
    AddsUp P detectorName (selectUniverse (buildUniverses simulation) kind).eventIds
      (positiveIds (selectUniverse (buildUniverses simulation) kind) positive) where
  partition _ _ := counts_partition (positiveIds_subset (sound_buildUniverses simulation kind) positive)
  antitone _ _ _ h := counts_antitone fun _ hlow => WithNaN.lt_of_lt_of_le hlow h
  sweep _ _ h := List.pairwise_map.2 (h.imp fun hle => counts_antitone fun _ hlow => WithNaN.lt_of_lt_of_le hlow hle)
  congr _ _ _ h := counts_congr h

end TradeSurveillance.Harness
