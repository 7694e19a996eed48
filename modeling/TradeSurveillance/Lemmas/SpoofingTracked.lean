import TradeSurveillance.Detectors.SpoofingLayering
import TradeSurveillance.Lemmas.PipelineBooks

/-!
# What an event does to `tracked_`

The scores, the ambient trackers and the book play no part in it: `shadow` is what the map says of each order id, and
`shadow_evaluate` that an event changes it by `shadowStep`. `run_spoofing` is the induction over the events of a pipeline that holds
such a detector.
-/

namespace TradeSurveillance

variable {P : Type}

/-- What an entry says of a resting order: its account, instrument, side and remaining quantity. -/
abbrev ShadowEntry := Str × Str × Side × ℤ

def TrackedOrder.entry (t : TrackedOrder P) : ShadowEntry := (t.accountId, t.instrumentId, t.side, t.remainingQty)

/-- What the entry made for a message says. -/
def Order.shadowEntry (o : Order P) : ShadowEntry := (o.accountId, o.instrumentId, o.side, o.qty)

/-- What an event does to the entries. -/
def shadowStep (f : Str → Option ShadowEntry) : Event P → Str → Option ShadowEntry
  | .order o => match o.status with
    | .new => Function.update f o.orderId (some o.shadowEntry)
    | .cancelled => Function.update f o.origOrderId none
    | .replaced => Function.update (Function.update f o.origOrderId none) o.orderId (some o.shadowEntry)
  | .execution t => match f t.orderId with
    | none => f
    | some (account, instrument, side, qty) =>
      let remaining := wrap64 (qty - t.qty)
      Function.update f t.orderId (if remaining ≤ 0 then none else some (account, instrument, side, remaining))

namespace SpoofingLayeringDetector

variable [Double P]

/-- The entries of `tracked_`. -/
def shadow (d : SpoofingLayeringDetector P) (orderId : Str) : Option ShadowEntry := (d.tracked.lookup orderId).map TrackedOrder.entry

/-- Storing an entry stores what it says. -/
theorem shadow_insert {d d' : SpoofingLayeringDetector P} {id : Str} {t : TrackedOrder P} (h : d'.tracked = d.tracked.insert id t) :
    d'.shadow = Function.update d.shadow id (some t.entry) := by
  funext id'
  unfold shadow
  by_cases hid : id' = id
  · rw [h, hid, Finmap.lookup_insert, Function.update_self]
    rfl
  · rw [h, Finmap.lookup_insert_of_ne _ hid, Function.update_of_ne hid]

/-- Erasing an entry erases what it says. -/
theorem shadow_erase {d d' : SpoofingLayeringDetector P} {id : Str} (h : d'.tracked = d.tracked.erase id) :
    d'.shadow = Function.update d.shadow id none := by
  funext id'
  unfold shadow
  by_cases hid : id' = id
  · rw [h, hid, Finmap.lookup_erase, Function.update_self]
    rfl
  · rw [h, Finmap.lookup_erase_ne hid, Function.update_of_ne hid]

/-- What the entries say depends on the entries only. -/
theorem shadow_congr {d d' : SpoofingLayeringDetector P} (h : d'.tracked = d.tracked) : d'.shadow = d.shadow := by
  unfold shadow
  rw [h]

/-- What is erased was tracked. -/
theorem lookup_of_eraseTracked {d d' : SpoofingLayeringDetector P} {id : Str} {tracked : TrackedOrder P}
    (h : d.eraseTracked id = (d', some tracked)) : d.tracked.lookup id = some tracked := by
  unfold eraseTracked at h
  split at h
  · cases h
  · rename_i hl
    cases h
    exact hl

/-- `erase_tracked` erases the entry of the id. -/
theorem shadow_eraseTracked (d : SpoofingLayeringDetector P) (id : Str) :
    (d.eraseTracked id).1.shadow = Function.update d.shadow id none := by
  unfold eraseTracked
  split
  · rename_i hnone
    have hid : d.shadow id = none := by
      unfold shadow
      rw [hnone]
      rfl
    rw [← hid, Function.update_eq_self]
  · exact shadow_erase rfl

/-- An execution does to the entries what the shadow does. -/
theorem shadow_handleExecution (d : SpoofingLayeringDetector P) (t : Execution P) :
    (d.handleExecution t).shadow = shadowStep d.shadow (.execution t) := by
  unfold handleExecution
  simp only [shadowStep]
  split
  · rename_i hnone
    have hid : d.shadow t.orderId = none := by
      unfold shadow
      rw [hnone]
      rfl
    rw [hid]
  · rename_i tracked hsome
    have hid : d.shadow t.orderId =
        some (tracked.accountId, tracked.instrumentId, tracked.side, tracked.remainingQty) := by
      unfold shadow
      rw [hsome]
      rfl
    rw [hid]
    simp only
    split
    · rw [shadow_eraseTracked, shadow_insert rfl, Function.update_idem]
    · rw [shadow_insert rfl]
      rfl

variable [LinearOrder P] (d : SpoofingLayeringDetector P) (book : OrderBook P)

/-- The ambient update leaves the entries alone. -/
theorem shadow_updateAmbient (instrumentId : Str) (ts : ℤ) : (d.updateAmbient book instrumentId ts).shadow = d.shadow :=
  shadow_congr rfl

/-- `track_new` makes the entry of its message. -/
theorem shadow_trackNew (o : Order P) :
    (d.trackNew book o).shadow = Function.update d.shadow o.orderId (some o.shadowEntry) := by
  have htracked : ∃ t, (d.trackNew book o).tracked = d.tracked.insert o.orderId t ∧ t.entry = o.shadowEntry := ⟨_, rfl, rfl⟩
  obtain ⟨t, ht, he⟩ := htracked
  rw [← he]
  exact shadow_insert ht

/-- A Replace erases the old entry and makes the new one. -/
theorem shadow_handleReplace (o : Order P) : (d.handleReplace book o).shadow =
    Function.update (Function.update d.shadow o.origOrderId none) o.orderId (some o.shadowEntry) := by
  rw [handleReplace, shadow_trackNew, shadow_eraseTracked]

/-- Whatever the scores, a Cancel only erases the entry it names. -/
theorem handleCancel_fst (o : Order P) : (d.handleCancel book o).1 = (d.eraseTracked o.origOrderId).1 := by
  unfold handleCancel
  split
  · rename_i heq
    rw [heq]
  · rename_i heq
    rw [heq]
    simp only [apply_ite Prod.fst, ite_self]

/-- A Cancel erases the entry of the id it cancels. -/
theorem shadow_handleCancel (o : Order P) :
    (d.handleCancel book o).1.shadow = Function.update d.shadow o.origOrderId none := by
  rw [handleCancel_fst, shadow_eraseTracked]

/-- What an event does to the entries. -/
theorem shadow_evaluate (e : Event P) : (d.evaluate book e).1.shadow = shadowStep d.shadow e := by
  unfold evaluate
  cases e with
  | order o =>
    simp only [shadowStep]
    cases hst : o.status with
    | new => rw [shadow_trackNew, shadow_updateAmbient]
    | cancelled => rw [shadow_handleCancel, shadow_updateAmbient]
    | replaced => rw [shadow_handleReplace, shadow_updateAmbient]
  | execution t =>
    simp only [shadow_handleExecution, shadow_updateAmbient]

/-- A pipeline calls its detectors when the book has thrown nothing. -/
theorem shadow_ite (e : Event P) (thrown : Option Thrown) : (if thrown = none then (d.evaluate book e).1 else d).shadow =
    if thrown.isSome then d.shadow else shadowStep d.shadow e := by
  cases thrown with
  | none => exact shadow_evaluate d book e
  | some _ => rfl

/-- The object determines the detector. -/
theorem object_injective {d d' : SpoofingLayeringDetector P} (h : d.object = d'.object) : d = d' := by
  simp only [object, IDetector.mk.injEq, heq_eq_eq, true_and] at h
  exact h.1

end SpoofingLayeringDetector

/-! ## A detector of a pipeline -/

namespace LivePipeline

variable [Double P] [LinearOrder P] {k : ℕ} {d : SpoofingLayeringDetector P}

/-- In a pipeline the detector evaluates the events that the book applied, and no others. -/
theorem process_spoofing {p : LivePipeline P} (hd : p.detectors[k]? = some d.object) (e : Event P) :
    (p.process e).1.detectors[k]? = some (if ((p.bookOf e.instrumentId).apply e).2 = none then
      (d.evaluate ((p.bookOf e.instrumentId).apply e).1 e).1 else d).object := by
  rcases ht : ((p.bookOf e.instrumentId).apply e).2 with _ | thrown
  · rw [(p.process_of_applied ht).1, List.getElem?_map, List.getElem?_map, hd]
    rfl
  · rw [(p.process_of_thrown ht).1, hd]
    rfl

/-- What every event of a run keeps of the detector at a place, and of the events before it, holds after the run. -/
theorem run_spoofing {detectors : List (IDetector P)} (accounts : AccountRegistry)
    (I : List (Event P) → SpoofingLayeringDetector P → Prop) (hk : detectors[k]? = some d.object) (hinit : I [] d) (events : List (Event P))
    (hstep : ∀ pre e d, pre ++ [e] <+: events → (run detectors accounts pre).detectors[k]? = some d.object → I pre d →
      I (pre ++ [e]) (if (((run detectors accounts pre).bookOf e.instrumentId).apply e).2 = none then
        (d.evaluate (((run detectors accounts pre).bookOf e.instrumentId).apply e).1 e).1 else d)) :
    ∃ d, (run detectors accounts events).detectors[k]? = some d.object ∧ I events d := by
  induction events using List.reverseRecOn with
  | nil => exact ⟨d, hk, hinit⟩
  | append_singleton events e ih =>
    obtain ⟨d', hd', h⟩ := ih fun pre e' d' hpre => hstep pre e' d' (hpre.trans (List.prefix_append _ _))
    rw [run_concat]
    exact ⟨_, process_spoofing hd' e, hstep events e d' (List.prefix_refl _) hd' h⟩

end LivePipeline

end TradeSurveillance
