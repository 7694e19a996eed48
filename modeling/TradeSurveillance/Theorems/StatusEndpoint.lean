import TradeSurveillance.Api.AlertRoutes
import TradeSurveillance.Theorems.AlertPersistence
import TradeSurveillance.Theorems.CodecRoundTrip

/-!
# Changing a status over HTTP

The handler updates the status in one transaction and fetches the alert in another, and other threads may call the store in between. The
program deletes no row, so what it fetches is there (`status_endpoint`), unless that transaction fails; the change stands then.
-/

namespace TradeSurveillance.Api

open AlertStore

variable {P : Type} {pg : Postgres} {t : AlertTable P}

/-- What `PATCH /api/alerts/<id>/status` does, behind some calls to the store. -/
structure StatusEndpoint (pg : Postgres) (pre : List (StoreCall P × Answer)) : Prop where
  /-- Once the status is updated there is an alert to answer with, whatever is called before it is fetched: its status is the last one
  given. Where the second transaction throws, so does the handler, and the alert has that status all the same. -/
  answered : ∀ alertIdText body answer after id,
    patchStatus pg (tableAfter pg pre) alertIdText body answer = (after, .updated id) → ∃ newStatus, body = .status newStatus ∧
      ∃ stored, getAlert pg (tableAfter pg pre) id = some stored ∧ ∀ between,
        getAlert pg (after.after pg between) id = some { stored with status := between.foldl (latest id) newStatus } ∧
        ∀ answer', patchAnswer pg (after.after pg between) id answer' =
          some ((answer'.result ()).map fun _ => .ok { stored with status := between.foldl (latest id) newStatus })
  /-- The text of an id that is stored, with a status the schema allows, is not refused where the database does its part. -/
  accepted : ∀ id stored newStatus gap, IsInt64 id → getAlert pg (tableAfter pg pre) id = some stored → newStatus ∈ allowedStatuses →
    (patchStatus pg (tableAfter pg pre) (Decimal.ofInt id) (.status newStatus) (.done gap)).2 = .updated id
  /-- What is returned in front of the fetch is a 400 and changes nothing, unless the connection was lost over a commit. -/
  refused : ∀ alertIdText body answer after response,
    patchStatus pg (tableAfter pg pre) alertIdText body answer = (after, .returned response) →
      (∃ message, response = .error 400 message) ∧ (after = tableAfter pg pre ∨ ∃ gap what, answer = .inDoubt gap what)
  /-- What is thrown there is thrown by the body, and changes nothing. -/
  thrown : ∀ alertIdText body answer after what,
    patchStatus pg (tableAfter pg pre) alertIdText body answer = (after, .threw what) → body = .throws what ∧ after = tableAfter pg pre

/-! ## The text of an id -/

theorem unread_ofInt (z : ℤ) : unread (Decimal.ofInt z) = [] := by
  have hdigits : (Decimal.readSign (Decimal.ofInt z)).2 = Decimal.ofNat z.natAbs := by
    unfold Decimal.ofInt
    split
    · rfl
    · rw [Decimal.readSign_ofNat]
  rw [unread, Decimal.dropWhile_isSpace_of_isNumeric fun _ hb => Decimal.isNumeric_of_mem_ofInt hb, hdigits]
  exact List.dropWhile_eq_nil_iff.2 fun _ hb => Decimal.isDigit_of_mem_ofNat hb

theorem parseId_ofInt {z : ℤ} (hz : IsInt64 z) : parseId (Decimal.ofInt z) = some z := by
  rw [parseId, stoll_ofInt hz]
  exact if_pos (unread_ofInt z)

/-! ## The update -/

/-- An id is handed on only by an update that returned. -/
theorem patchStatus_updated {alertIdText : Str} {body : PatchBody} {answer : Answer} {after : AlertTable P} {id : ℤ}
    (h : patchStatus pg t alertIdText body answer = (after, .updated id)) :
    ∃ newStatus, body = .status newStatus ∧ updateAlertStatus pg t id newStatus answer = (after, .ok ()) := by
  unfold patchStatus at h
  split at h
  · cases h
  · cases h
  · cases h
  · rename_i alertId newStatus hid
    split at h
    · rename_i t' hupdate
      cases h
      exact ⟨newStatus, rfl, hupdate⟩
    · cases h

/-- An update that throws changes nothing, unless the connection was lost over its commit. -/
theorem updateAlertStatus_error {id : ℤ} {newStatus : Str} {answer : Answer} {after : AlertTable P} {e : Exception}
    (h : updateAlertStatus pg t id newStatus answer = (after, .error e)) : after = t ∨ ∃ gap what, answer = .inDoubt gap what := by
  cases answer with
  | failed what =>
    cases h
    exact .inl rfl
  | inDoubt gap what => exact .inr ⟨gap, what, rfl⟩
  | done gap =>
    unfold updateAlertStatus at h
    simp only at h
    split_ifs at h
    · cases h
      exact .inl rfl
    · cases h
    · cases h
      exact .inl rfl

/-- What is returned is a 400. -/
theorem patchStatus_returned {alertIdText : Str} {body : PatchBody} {answer : Answer} {after : AlertTable P}
    {response : Response (StoredAlert P)} (h : patchStatus pg t alertIdText body answer = (after, .returned response)) :
    (∃ message, response = .error 400 message) ∧ (after = t ∨ ∃ gap what, answer = .inDoubt gap what) := by
  unfold patchStatus at h
  split at h
  · cases h
    exact ⟨⟨_, rfl⟩, .inl rfl⟩
  · cases h
  · cases h
    exact ⟨⟨_, rfl⟩, .inl rfl⟩
  · split at h
    · cases h
    · rename_i t' e hupdate
      cases h
      exact ⟨⟨_, rfl⟩, updateAlertStatus_error hupdate⟩

/-- Only the body throws. -/
theorem patchStatus_threw {alertIdText : Str} {body : PatchBody} {answer : Answer} {after : AlertTable P} {what : Exception}
    (h : patchStatus pg t alertIdText body answer = (after, .threw what)) : body = .throws what ∧ after = t := by
  unfold patchStatus at h
  split at h
  · cases h
  · cases h
    exact ⟨rfl, rfl⟩
  · cases h
  · split at h <;> cases h

/-- An update of a row with a status that is allowed returns. -/
theorem updateAlertStatus_done {row : AlertRow P} {newStatus : Str} (gap : ℕ) (hrow : row ∈ t.rows) (hallowed : newStatus ∈ allowedStatuses) :
    updateAlertStatus pg t row.alertId newStatus (.done gap) = (setStatus t row.alertId newStatus, .ok ()) := by
  have hfound : t.rows.any (fun other => decide (other.alertId = row.alertId)) = true :=
    List.any_eq_true.2 ⟨row, hrow, decide_eq_true rfl⟩
  simp only [updateAlertStatus, hfound, Bool.not_true, Bool.false_eq_true, if_false, not_not.2 hallowed]
  rfl

/-! ## The endpoint -/

/-- The handler never fetches in vain, and refuses without a change. -/
theorem status_endpoint (hpg : pg.Documented) (pre : List (StoreCall P × Answer)) : StatusEndpoint pg pre where
  answered := by
    intro alertIdText body answer after id h
    obtain ⟨newStatus, hstatus, hupdate⟩ := patchStatus_updated h
    refine ⟨newStatus, hstatus, ?_⟩
    have hafter : after = (tableAfter pg pre).call pg (.updateAlertStatus id newStatus, answer) := (congrArg Prod.fst hupdate).symm
    have hfound : ∀ between, ∃ stored, getAlert pg (tableAfter pg pre) id = some stored ∧
        getAlert pg (tableAfter pg (pre ++ (.updateAlertStatus id newStatus, answer) :: between)) id =
          some { stored with status := between.foldl (latest id) newStatus } :=
      fun between => updated_after hpg (congrArg Prod.snd hupdate)
    obtain ⟨stored, hstored, -⟩ := hfound []
    refine ⟨stored, hstored, ?_⟩
    intro between
    obtain ⟨same, hsame, hnow⟩ := hfound between
    rw [hstored] at hsame
    obtain rfl := Option.some.inj hsame
    rw [tableAfter_append] at hnow
    have hnow : getAlert pg (after.after pg between) id = some { stored with status := between.foldl (latest id) newStatus } := by
      rw [hafter]
      exact hnow
    refine ⟨hnow, fun answer' => ?_⟩
    rw [patchAnswer, hnow]
    cases answer'.result () <;> rfl
  accepted := by
    intro id stored newStatus gap hid hstored hallowed
    rw [getAlert_eq] at hstored
    obtain ⟨row, hrow, -⟩ := Option.map_eq_some_iff.1 hstored
    obtain rfl := alertId_of_rowOf hrow
    simp only [patchStatus, parseId_ofInt hid, updateAlertStatus_done gap (List.mem_of_find?_eq_some hrow) hallowed]
  refused := by
    intro alertIdText body answer after response h
    exact patchStatus_returned h
  thrown := by
    intro alertIdText body answer after what h
    exact patchStatus_threw h

/-- Over a table with one alert. -/
theorem status_endpoint_one : StatusEndpoint quotingPostgres
    ([(.insertAlert ⟨ascii "wash_trade", 1, ascii "EQ1", [ascii "ACC-1"], [], 5, 9, ascii "{}", none, none⟩, .done 0)] :
      List (StoreCall ℕ × Answer)) :=
  status_endpoint quotingPostgres_documented _

end TradeSurveillance.Api
