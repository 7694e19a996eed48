import TradeSurveillance.Db.AlertTable
import TradeSurveillance.Theorems.TextArrays

/-!
# What the alert store keeps

Whatever is called, from whatever thread, and however the database answers, a call leaves the table as it is, adds a row with a greater
id than any before, or gives one row a status that the schema allows (`call_cases`); `truncate_all` takes the rows, not the ids. So until
then an alert is found under the id it was given, field by field, with the status it was last given (`alert_store_persistent`).
-/

namespace TradeSurveillance.AlertStore

variable {P : Type}

/-! ## Arrays -/

/-- Postgres reads array literals, and writes them, as it documents. -/
structure Postgres.Documented (pg : Postgres) : Prop where
  arrayIn : ∀ es : List Element, pg.arrayIn (literal es) = some (es.map Element.item)
  arrayOut : ∀ items, ∃ es : List Element, es.map Element.item = items ∧ pg.arrayOut items = literal es

/-- What stands between the braces. -/
theorem fromPgTextArray_braces (inner : Str) : fromPgTextArray (123 :: (inner ++ [125])) = elements inner := by
  have hlast : (123 :: (inner ++ [125]) : Str).getLast? = some 125 := by
    rw [← List.cons_append]
    exact List.getLast?_concat
  unfold fromPgTextArray
  rw [hlast]
  simp

variable {pg : Postgres} (hpg : pg.Documented)

include hpg

/-- Postgres reads the array literal of the program as the items. -/
theorem arrayIn_toPgTextArray (items : List Str) : pg.arrayIn (toPgTextArray items) = some items := by
  rw [← literal_quoted, hpg.arrayIn, List.map_map]
  exact congrArg some (List.map_id items)

/-- The program reads the array literal of Postgres as the items. -/
theorem fromPgTextArray_arrayOut (items : List Str) : fromPgTextArray (pg.arrayOut items) = items := by
  obtain ⟨es, hitems, hout⟩ := hpg.arrayOut items
  rw [hout, literal, fromPgTextArray_braces, elements_intercalate, hitems]

/-- The columns of a row are read back as they were given. -/
theorem storedAlert_newRow (id : ℤ) (alert : Alert P) (status : Str) :
    storedAlert pg { newRow id alert alert.accountIds alert.orderIds with status := status } = ⟨id, alert, status⟩ := by
  unfold storedAlert newRow
  simp only [fromPgTextArray_arrayOut hpg]

/-! ## One call -/

section Call

variable {t : AlertTable P}

/-- An insertion that stands adds one row under the next id and returns that id. -/
theorem insertAlert_stands {alert : Alert P} {answer : Answer} (h : answer.stands = true) : insertAlert pg t alert answer =
    (⟨t.rows ++ [newRow (nextId t answer) alert alert.accountIds alert.orderIds], nextId t answer⟩, answer.result (nextId t answer)) := by
  unfold insertAlert
  rw [arrayIn_toPgTextArray hpg, arrayIn_toPgTextArray hpg]
  cases answer with
  | done gap => rfl
  | failed what => cases h
  | inDoubt gap what => rfl

/-- An id is returned only if the row stands. -/
theorem insertAlert_ok {alert : Alert P} {answer : Answer} {id : ℤ} (h : (insertAlert pg t alert answer).2 = .ok id) :
    answer.stands = true ∧ id = nextId t answer := by
  cases answer with
  | done gap =>
    rw [insertAlert_stands hpg rfl] at h
    exact ⟨rfl, (Except.ok.inj h).symm⟩
  | failed what => cases h
  | inDoubt gap what =>
    rw [insertAlert_stands hpg rfl] at h
    cases h

omit hpg in
/-- What a call may do to the table. -/
inductive Effect (t : AlertTable P) (c : StoreCall P × Answer) : AlertTable P → Prop where
  | unchanged (hinsert : ∀ alert, c.1 = .insertAlert alert → c.2.stands = false)
      (hupdate : ∀ id status, c.1 = .updateAlertStatus id status → c.2.stands = true → status ∉ allowedStatuses) : Effect t c t
  | inserted (alert : Alert P) (hcall : c.1 = .insertAlert alert) (hstands : c.2.stands = true) :
      Effect t c ⟨t.rows ++ [newRow (nextId t c.2) alert alert.accountIds alert.orderIds], nextId t c.2⟩
  | updated (id : ℤ) (status : Str) (hcall : c.1 = .updateAlertStatus id status) (hstands : c.2.stands = true)
      (hallowed : status ∈ allowedStatuses) : Effect t c (setStatus t id status)

omit hpg in
/-- Where no row has the id, the statement changes none. -/
theorem setStatus_absent {id : ℤ} (status : Str) (h : t.rows.any (·.alertId = id) = false) : setStatus t id status = t := by
  have hne : ∀ row ∈ t.rows, row.alertId ≠ id := by
    intro row hrow
    exact of_decide_eq_false (Bool.eq_false_of_not_eq_true (List.any_eq_false.1 h row hrow))
  have hrows : t.rows.map (fun row => if row.alertId = id then { row with status := status } else row) = t.rows :=
    (List.map_congr_left fun row hrow => if_neg (hne row hrow)).trans (List.map_id' _)
  unfold setStatus
  rw [hrows]

omit hpg in
/-- An update that stands and is allowed sets the status, and any other leaves the table as it is. -/
theorem updateAlertStatus_stands {id : ℤ} {status : Str} {answer : Answer} (h : answer.stands = true) :
    (updateAlertStatus pg t id status answer).1 = if status ∈ allowedStatuses then setStatus t id status else t := by
  have hbody : (updateAlertStatus pg t id status answer).1 = (if !t.rows.any (·.alertId = id) then t
      else if status ∉ allowedStatuses then t else setStatus t id status) := by
    cases answer with
    | failed what => cases h
    | done gap => simp only [updateAlertStatus]; split_ifs <;> rfl
    | inDoubt gap what => simp only [updateAlertStatus]; split_ifs <;> rfl
  rw [hbody]
  cases hany : t.rows.any (·.alertId = id) with
  | true => by_cases hallowed : status ∈ allowedStatuses <;> simp [hallowed]
  | false => simp [setStatus_absent status hany]

omit hpg in
/-- A status is returned for only if it was given to a row. -/
theorem updateAlertStatus_ok {id : ℤ} {status : Str} {answer : Answer} (h : (updateAlertStatus pg t id status answer).2 = .ok ()) :
    answer.stands = true ∧ (∃ row ∈ t.rows, row.alertId = id) ∧ status ∈ allowedStatuses := by
  cases answer with
  | failed what => cases h
  | inDoubt gap what =>
    simp only [updateAlertStatus, Answer.result] at h
    split_ifs at h
  | done gap =>
    simp only [updateAlertStatus] at h
    split_ifs at h with habsent hrefused
    · rw [Bool.not_eq_true', Bool.not_eq_false] at habsent
      obtain ⟨row, hrow, hid⟩ := List.any_eq_true.1 habsent
      exact ⟨rfl, ⟨row, hrow, of_decide_eq_true hid⟩, hrefused⟩

/-- Every call has one of the effects. -/
theorem call_cases (c : StoreCall P × Answer) : Effect t c (t.call pg c) := by
  obtain ⟨call, answer⟩ := c
  cases hstands : answer.stands with
  | false =>
    -- nothing was done
    have hfailed : AlertTable.call pg t (call, answer) = t := by
      cases answer with
      | failed what => cases call <;> rfl
      | done gap => cases hstands
      | inDoubt gap what => cases hstands
    rw [hfailed]
    exact .unchanged (fun _ _ => hstands) (fun _ _ _ h => absurd (hstands.symm.trans h) Bool.false_ne_true)
  | true =>
    cases call with
    | insertAlert alert =>
      have hcall : AlertTable.call pg t (.insertAlert alert, answer) = _ := congrArg Prod.fst (insertAlert_stands hpg hstands)
      rw [hcall]
      exact .inserted alert rfl hstands
    | updateAlertStatus id status =>
      have hcall : AlertTable.call pg t (.updateAlertStatus id status, answer) = _ := updateAlertStatus_stands hstands
      rw [hcall]
      by_cases hallowed : status ∈ allowedStatuses
      · rw [if_pos hallowed]
        exact .updated id status rfl hstands hallowed
      · rw [if_neg hallowed]
        refine .unchanged ?_ ?_
        · intro alert h
          cases h
        · intro id' status' h _
          cases h
          exact hallowed

end Call

/-! ## Ids -/

section Ids

variable {t t' : AlertTable P} {c : StoreCall P × Answer}

omit hpg

/-- The ids increase, up to the last value of the sequence. -/
structure Ordered (t : AlertTable P) : Prop where
  increasing : t.rows.Pairwise fun earlier later => earlier.alertId < later.alertId
  bounded : ∀ row ∈ t.rows, row.alertId ≤ t.sequence

/-- The next id is new. -/
theorem sequence_lt_nextId (answer : Answer) : t.sequence < nextId t answer := by
  unfold nextId
  omega

/-- Every effect keeps the ids increasing. -/
theorem Effect.ordered (heffect : Effect t c t') (h : Ordered t) : Ordered t' := by
  rcases heffect with _ | ⟨alert, -, -⟩ | ⟨id, status, -, -, -⟩
  · exact h
  · refine ⟨?_, ?_⟩
    · refine List.pairwise_append.2 ⟨h.increasing, List.pairwise_singleton _ _, ?_⟩
      intro row hrow new hnew
      rw [List.mem_singleton.1 hnew]
      exact (h.bounded row hrow).trans_lt (sequence_lt_nextId _)
    · intro row hrow
      rcases List.mem_append.1 hrow with hold | hnew
      · exact (h.bounded row hold).trans (sequence_lt_nextId _).le
      · rw [List.mem_singleton.1 hnew]
        exact le_refl _
  · have hid : ∀ row : AlertRow P, (if row.alertId = id then { row with status := status } else row).alertId = row.alertId := by
      intro row
      split_ifs <;> rfl
    refine ⟨?_, ?_⟩
    · refine List.pairwise_map.2 (h.increasing.imp ?_)
      intro earlier later hlt
      rwa [hid, hid]
    · intro row hrow
      obtain ⟨old, hold, rfl⟩ := List.mem_map.1 hrow
      rw [hid]
      exact h.bounded old hold

end Ids

/-! ## The row of an id -/

section Rows

variable {t t' : AlertTable P} {c : StoreCall P × Answer} {id : ℤ}

omit hpg

/-- The row has the id. -/
def hasId (id : ℤ) (row : AlertRow P) : Bool := row.alertId = id

/-- `hasId` compares the id. -/
@[simp] theorem hasId_eq_true {row : AlertRow P} : hasId id row = true ↔ row.alertId = id := decide_eq_true_iff

/-- The row of an id. -/
def rowOf (t : AlertTable P) (id : ℤ) : Option (AlertRow P) := t.rows.find? (hasId id)

/-- The status of an id behind a call. -/
def latest (id : ℤ) (status : Str) (c : StoreCall P × Answer) : Str :=
  match c.1 with
  | .insertAlert _ => status
  | .updateAlertStatus id' newStatus => if c.2.stands = true ∧ id' = id ∧ newStatus ∈ allowedStatuses then newStatus else status

/-- The row of an id behind some calls. -/
def AlertRow.behind (row : AlertRow P) (post : List (StoreCall P × Answer)) : AlertRow P :=
  { row with status := post.foldl (latest row.alertId) row.status }

/-- The status behind an update. -/
theorem latest_update {id' : ℤ} {status newStatus : Str} (hcall : c.1 = .updateAlertStatus id' newStatus) : latest id status c =
    if c.2.stands = true ∧ id' = id ∧ newStatus ∈ allowedStatuses then newStatus else status := by
  rw [latest, hcall]

/-- `get_alert` reads the row of the id. -/
theorem getAlert_eq (pg : Postgres) (t : AlertTable P) (id : ℤ) : getAlert pg t id = (rowOf t id).map (storedAlert pg) := by
  rw [getAlert, rowsToStoredAlerts, List.head?_map, List.head?_filter]
  rfl

/-- The row of an id has the id. -/
theorem alertId_of_rowOf {row : AlertRow P} (h : rowOf t id = some row) : row.alertId = id := hasId_eq_true.1 (List.find?_some h)

/-- An id that the sequence has not reached has no row. -/
theorem rowOf_eq_none (h : Ordered t) (hid : t.sequence < id) : rowOf t id = none := by
  refine List.find?_eq_none.2 ?_
  intro row hrow heq
  have hle := h.bounded row hrow
  rw [hasId_eq_true.1 heq] at hle
  omega

/-- The row of an id is there once it is inserted. -/
theorem rowOf_inserted (h : Ordered t) (alert : Alert P) (accountIds orderIds : List Str) (answer : Answer) :
    rowOf ⟨t.rows ++ [newRow (nextId t answer) alert accountIds orderIds], nextId t answer⟩ (nextId t answer) =
      some (newRow (nextId t answer) alert accountIds orderIds) := by
  have hnone := rowOf_eq_none h (sequence_lt_nextId answer)
  rw [rowOf] at hnone ⊢
  rw [List.find?_append, hnone, Option.none_or]
  exact List.find?_cons_of_pos (hasId_eq_true.2 rfl)

/-- A call gives a row that was there its next status, and does no more to it. -/
theorem Effect.rowOf_eq (heffect : Effect t c t') (hid : id ≤ t.sequence) : rowOf t' id = (rowOf t id).map (·.behind [c]) := by
  rcases heffect with ⟨hinsert, hupdate⟩ | ⟨alert, hcall, -⟩ | ⟨id', status, hcall, hstands, hallowed⟩
  · -- nothing that stands names the row
    have hbehind : ∀ row : AlertRow P, row.behind [c] = row := by
      intro row
      have hlatest : latest row.alertId row.status c = row.status := by
        unfold latest
        split
        · rfl
        · rename_i id' status hcall
          exact if_neg fun h => hupdate id' status hcall h.1 h.2.2
      show { row with status := latest row.alertId row.status c } = row
      rw [hlatest]
    simp only [hbehind, Option.map_id']
  · -- the new row has another id
    have hbehind : ∀ row : AlertRow P, row.behind [c] = row := by
      intro row
      show { row with status := latest row.alertId row.status c } = row
      rw [latest, hcall]
    have hne : ¬ hasId id (newRow (nextId t c.2) alert alert.accountIds alert.orderIds) = true := by
      intro h
      have hlt := sequence_lt_nextId (t := t) c.2
      rw [show nextId t c.2 = id from hasId_eq_true.1 h] at hlt
      omega
    simp only [hbehind, Option.map_id', rowOf]
    rw [List.find?_append, List.find?_cons_of_neg hne, List.find?_nil, Option.or_none]
  · have hbehind : ∀ row : AlertRow P, row.behind [c] = if row.alertId = id' then { row with status := status } else row := by
      intro row
      show { row with status := latest row.alertId row.status c } = _
      rw [latest_update hcall]
      by_cases hrow : row.alertId = id'
      · rw [if_pos hrow, if_pos ⟨hstands, hrow.symm, hallowed⟩]
      · rw [if_neg hrow, if_neg fun h => hrow h.2.1.symm]
    have hsame : (hasId id ∘ fun row : AlertRow P => if row.alertId = id' then { row with status := status } else row) = hasId id := by
      funext row
      rw [Function.comp_apply]
      split_ifs <;> rfl
    rw [rowOf, setStatus, List.find?_map, hsame]
    exact congrArg (Option.map · _) (funext fun row => (hbehind row).symm)

end Rows

/-! ## Histories -/

section Histories

variable {t : AlertTable P} {id : ℤ}

omit hpg in
/-- The empty table has no ids. -/
theorem ordered_empty : Ordered (AlertTable.empty : AlertTable P) where
  increasing := List.Pairwise.nil
  bounded := by
    intro row hrow
    cases hrow

omit hpg in
/-- Calls in a row are one call after the other. -/
theorem after_append (pre post : List (StoreCall P × Answer)) : t.after pg (pre ++ post) = (t.after pg pre).after pg post :=
  List.foldl_append

/-- A history of calls keeps the ids increasing. -/
theorem ordered_after (h : Ordered t) (history : List (StoreCall P × Answer)) : Ordered (t.after pg history) := by
  induction history generalizing t with
  | nil => exact h
  | cons c history ih => exact ih ((call_cases hpg c).ordered h)

omit hpg in
/-- No effect takes the sequence back. -/
theorem Effect.sequence_le {t' : AlertTable P} {c : StoreCall P × Answer} (heffect : Effect t c t') : t.sequence ≤ t'.sequence := by
  rcases heffect with _ | _ | _
  · exact le_refl _
  · exact (sequence_lt_nextId _).le
  · exact le_refl _

/-- A row that was there is there after any calls, with the last of the statuses it was given. -/
theorem rowOf_after (hid : id ≤ t.sequence) (post : List (StoreCall P × Answer)) :
    rowOf (t.after pg post) id = (rowOf t id).map (·.behind post) := by
  induction post generalizing t with
  | nil =>
    have hbehind : ∀ row : AlertRow P, row.behind [] = row := fun _ => rfl
    simp only [hbehind, Option.map_id']
    rfl
  | cons c post ih =>
    have heffect := call_cases hpg c (t := t)
    show rowOf ((t.call pg c).after pg post) id = _
    rw [ih (hid.trans heffect.sequence_le), heffect.rowOf_eq hid, Option.map_map]
    rfl

omit hpg in
/-- A row behind calls in a row is the row behind one call after the other. -/
theorem AlertRow.behind_append (row : AlertRow P) (earlier later : List (StoreCall P × Answer)) :
    row.behind (earlier ++ later) = (row.behind earlier).behind later := by
  unfold AlertRow.behind
  rw [List.foldl_append]

end Histories

/-! ## Histories with truncations -/

section Truncation

variable {t : AlertTable P} {id : ℤ} {c : TableCall P × Answer}

omit hpg

/-- The call takes all rows. -/
def truncates (c : TableCall P × Answer) : Bool :=
  match c.1 with
  | .call _ => false
  | .truncateAll => c.2.stands

/-- The program's calls in a history. -/
def programCalls (history : List (TableCall P × Answer)) : List (StoreCall P × Answer) :=
  history.filterMap fun c => match c.1 with
    | .call call => some (call, c.2)
    | .truncateAll => none

/-- The program's calls of two histories in a row. -/
theorem programCalls_append (earlier later : List (TableCall P × Answer)) :
    programCalls (earlier ++ later) = programCalls earlier ++ programCalls later := List.filterMap_append

/-- What a call of any method does: it is one of the program's, it takes all rows, or it does nothing. -/
theorem anyCall_cases (pg : Postgres) (t : AlertTable P) (c : TableCall P × Answer) :
    (∃ call, c.1 = .call call ∧ t.anyCall pg c = t.call pg (call, c.2)) ∨
      c.1 = .truncateAll ∧ truncates c = true ∧ t.anyCall pg c = { t with rows := [] } ∨
      c.1 = .truncateAll ∧ truncates c = false ∧ t.anyCall pg c = t := by
  obtain ⟨call, answer⟩ := c
  cases call with
  | call call => exact .inl ⟨call, rfl, rfl⟩
  | truncateAll =>
    cases answer with
    | failed what => exact .inr (.inr ⟨rfl, rfl, rfl⟩)
    | done gap => exact .inr (.inl ⟨rfl, rfl, rfl⟩)
    | inDoubt gap what => exact .inr (.inl ⟨rfl, rfl, rfl⟩)

/-- Calls of any of the methods in a row are one call after the other. -/
theorem afterAll_append (pre post : List (TableCall P × Answer)) : t.afterAll pg (pre ++ post) = (t.afterAll pg pre).afterAll pg post :=
  List.foldl_append

include hpg in
/-- No call takes the sequence back. -/
theorem sequence_le_anyCall (c : TableCall P × Answer) : t.sequence ≤ (t.anyCall pg c).sequence := by
  rcases anyCall_cases pg t c with ⟨call, -, heq⟩ | ⟨-, -, heq⟩ | ⟨-, -, heq⟩
  · rw [heq]
    exact (call_cases hpg _).sequence_le
  · rw [heq]
  · rw [heq]

include hpg in
/-- No history of calls takes the sequence back. -/
theorem sequence_le_afterAll (history : List (TableCall P × Answer)) : t.sequence ≤ (t.afterAll pg history).sequence := by
  induction history generalizing t with
  | nil => exact le_refl _
  | cons c history ih => exact (sequence_le_anyCall hpg c).trans ih

include hpg in
/-- The ids increase behind calls of any of the methods. -/
theorem ordered_afterAll (h : Ordered t) (history : List (TableCall P × Answer)) : Ordered (t.afterAll pg history) := by
  induction history generalizing t with
  | nil => exact h
  | cons c history ih =>
    refine ih ?_
    rcases anyCall_cases pg t c with ⟨call, -, heq⟩ | ⟨-, -, heq⟩ | ⟨-, -, heq⟩
    · rw [heq]
      exact (call_cases hpg _).ordered h
    · rw [heq]
      exact ⟨.nil, by simp⟩
    · rwa [heq]

include hpg in
/-- A row that was there is there until the rows are taken, with the last of the statuses it was given. -/
theorem rowOf_afterAll (hid : id ≤ t.sequence) (post : List (TableCall P × Answer)) : rowOf (t.afterAll pg post) id =
    if post.any truncates then none else (rowOf t id).map (·.behind (programCalls post)) := by
  induction post generalizing t with
  | nil =>
    have hbehind : ∀ row : AlertRow P, row.behind [] = row := fun _ => rfl
    simp only [programCalls, List.filterMap_nil, hbehind, Option.map_id']
    rfl
  | cons c post ih =>
    show rowOf ((t.anyCall pg c).afterAll pg post) id = _
    rw [ih (hid.trans (sequence_le_anyCall hpg c))]
    rcases anyCall_cases pg t c with ⟨call, hcall, heq⟩ | ⟨hcall, htruncates, heq⟩ | ⟨hcall, htruncates, heq⟩
    · have htruncates : truncates c = false := by rw [truncates, hcall]
      have hcalls : programCalls (c :: post) = (call, c.2) :: programCalls post := by
        rw [programCalls, List.filterMap_cons, hcall]
        rfl
      rw [heq, (call_cases hpg (call, c.2)).rowOf_eq hid, List.any_cons, htruncates, Bool.false_or, hcalls, Option.map_map]
      rfl
    · -- the rows are gone, whatever comes behind
      rw [heq, List.any_cons, htruncates, Bool.true_or, if_pos rfl]
      split <;> rfl
    · have hcalls : programCalls (c :: post) = programCalls post := by
        rw [programCalls, List.filterMap_cons, hcall]
        rfl
      rw [heq, List.any_cons, htruncates, Bool.false_or, hcalls]

include hpg in
/-- Every row was inserted by a call that stands, behind the last truncation. -/
theorem rowOf_origin (history : List (TableCall P × Answer)) {row : AlertRow P}
    (h : rowOf (AlertTable.empty.afterAll pg history) id = some row) : ∃ pre alert answer post,
      history = pre ++ (.call (.insertAlert alert), answer) :: post ∧ answer.stands = true ∧ post.any truncates = false ∧
      row = (newRow id alert alert.accountIds alert.orderIds).behind (programCalls post) := by
  induction history using List.reverseRecOn generalizing row with
  | nil => cases h
  | append_singleton history c ih =>
    have hordered := ordered_afterAll hpg (ordered_empty (P := P)) history
    rw [afterAll_append] at h
    by_cases hid : id ≤ (AlertTable.empty.afterAll pg history).sequence
    · rw [rowOf_afterAll hpg hid, Option.ite_none_left_eq_some] at h
      obtain ⟨hlast, h⟩ := h
      obtain ⟨old, hold, rfl⟩ := Option.map_eq_some_iff.1 h
      obtain ⟨pre, alert, answer, post, rfl, hstands, hkept, rfl⟩ := ih hold
      refine ⟨pre, alert, answer, post ++ [c], ?_, hstands, ?_, ?_⟩
      · rw [List.append_assoc, List.cons_append]
      · rw [List.any_append, hkept, Bool.false_or]
        exact Bool.eq_false_of_not_eq_true hlast
      · rw [programCalls_append]
        exact (AlertRow.behind_append _ _ _).symm
    · -- the row is the one that the call inserted
      have hbeyond := not_le.1 hid
      have hnone := rowOf_eq_none hordered hbeyond
      change rowOf ((AlertTable.empty.afterAll pg history).anyCall pg c) id = some row at h
      rcases anyCall_cases pg (AlertTable.empty.afterAll pg history) c with ⟨call, hcall, heq⟩ | ⟨-, -, heq⟩ | ⟨-, -, heq⟩
      · rw [heq] at h
        have heffect := call_cases hpg (call, c.2) (t := AlertTable.empty.afterAll pg history)
        generalize (AlertTable.empty.afterAll pg history).call pg (call, c.2) = t' at heffect h
        rcases heffect with _ | ⟨alert, hinsert, hstands⟩ | ⟨id', status, hupdate, hstands, hallowed⟩
        · rw [hnone] at h
          cases h
        · rw [rowOf] at h hnone
          rw [List.find?_append, hnone, Option.none_or] at h
          have hrow := List.mem_singleton.1 (List.mem_of_find?_eq_some h)
          have hid' : nextId (AlertTable.empty.afterAll pg history) c.2 = id :=
            (congrArg AlertRow.alertId hrow).symm.trans (hasId_eq_true.1 (List.find?_some h))
          refine ⟨history, alert, c.2, [], ?_, hstands, rfl, ?_⟩
          · rw [← show call = .insertAlert alert from hinsert, ← hcall]
          · rw [hrow, hid']
            rfl
        · rw [rowOf_eq_none ((Effect.updated id' status hupdate hstands hallowed).ordered hordered) hbeyond] at h
          cases h
      · rw [heq] at h
        cases h
      · rw [heq, hnone] at h
        cases h

end Truncation

/-! ## Lists of alerts -/

section Listed

variable {t : AlertTable P} {id : ℤ}

omit hpg

/-- A list of the stored alerts with a property, in the order in which they were inserted. -/
structure ListsAlerts (pg : Postgres) (t : AlertTable P) (p : StoredAlert P → Prop) (listed : List (StoredAlert P)) : Prop where
  increasing : listed.Pairwise fun earlier later => earlier.alertId < later.alertId
  mem_iff : ∀ stored, stored ∈ listed ↔ getAlert pg t stored.alertId = some stored ∧ p stored

/-- A row of the table is the row of its id. -/
theorem rowOf_eq_some (h : Ordered t) {row : AlertRow P} (hrow : row ∈ t.rows) : rowOf t row.alertId = some row := by
  have hinjective : ∀ other ∈ t.rows, other.alertId = row.alertId → other = row := by
    intro other hother heq
    have hnodup : (t.rows.map (·.alertId)).Nodup := List.pairwise_map.2 (h.increasing.imp ne_of_lt)
    exact List.inj_on_of_nodup_map hnodup hother hrow heq
  obtain ⟨other, hother⟩ : ∃ other, rowOf t row.alertId = some other :=
    Option.isSome_iff_exists.1 (List.find?_isSome.2 ⟨row, hrow, hasId_eq_true.2 rfl⟩)
  rw [hother, hinjective other (List.mem_of_find?_eq_some hother) (alertId_of_rowOf hother)]

/-- The rows that a `WHERE` keeps. -/
theorem lists_filter (h : Ordered t) {keeps : AlertRow P → Bool} {p : StoredAlert P → Prop}
    (hkeeps : ∀ row, keeps row = true ↔ p (storedAlert pg row)) : ListsAlerts pg t p (rowsToStoredAlerts pg (t.rows.filter keeps)) := by
  refine ⟨?_, ?_⟩
  · exact List.pairwise_map.2 (h.increasing.filter keeps)
  · intro stored
    rw [rowsToStoredAlerts, List.mem_map, getAlert_eq]
    refine ⟨?_, ?_⟩
    · rintro ⟨row, hrow, rfl⟩
      obtain ⟨hrow, hp⟩ := List.mem_filter.1 hrow
      refine ⟨?_, (hkeeps row).1 hp⟩
      show (rowOf t row.alertId).map (storedAlert pg) = _
      rw [rowOf_eq_some h hrow]
      rfl
    · rintro ⟨hstored, hp⟩
      obtain ⟨row, hrow, rfl⟩ := Option.map_eq_some_iff.1 hstored
      exact ⟨row, List.mem_filter.2 ⟨List.mem_of_find?_eq_some hrow, (hkeeps row).2 hp⟩, rfl⟩

/-- Rows in the order of insertion are in the order of their ids. -/
theorem byAlertId_eq {rows : List (AlertRow P)} (h : rows.Pairwise fun earlier later => earlier.alertId < later.alertId) :
    byAlertId rows = rows := by
  have hsub : rows.Sublist (byAlertId rows) := StableSort.sublist_sortBy _ (List.Sublist.refl rows) (h.imp le_of_lt)
  exact (hsub.eq_of_length (StableSort.length_sortBy _ rows).symm).symm

end Listed

/-! ## What the store keeps -/

section Persistence

omit hpg

/-- The table behind some calls to a store whose table was empty. -/
def tableAfter (pg : Postgres) (history : List (StoreCall P × Answer)) : AlertTable P := AlertTable.empty.after pg history

/-- A table behind calls in a row, from the empty one. -/
theorem tableAfter_append (pg : Postgres) (pre post : List (StoreCall P × Answer)) :
    tableAfter pg (pre ++ post) = (tableAfter pg pre).after pg post := after_append pre post

/-- The status of an alert that was inserted in front of some calls. -/
def statusAfter (id : ℤ) (post : List (StoreCall P × Answer)) : Str := post.foldl (latest id) (ascii "OPEN")

/-- An alert is always in one of the four statuses. -/
theorem statusAfter_allowed (id : ℤ) (post : List (StoreCall P × Answer)) : statusAfter id post ∈ allowedStatuses := by
  induction post using List.reverseRecOn with
  | nil => exact List.mem_cons_self
  | append_singleton post c ih =>
    rw [statusAfter, List.foldl_append]
    show latest id (statusAfter id post) c ∈ allowedStatuses
    unfold latest
    split
    · exact ih
    · split_ifs with h
      · exact h.2.2
      · exact ih

/-- The table behind calls of any of the methods to a store whose table was empty. -/
def storeAfter (pg : Postgres) (history : List (TableCall P × Answer)) : AlertTable P := AlertTable.empty.afterAll pg history

/-- The same with calls of any of the methods. -/
theorem storeAfter_append (pg : Postgres) (pre post : List (TableCall P × Answer)) :
    storeAfter pg (pre ++ post) = (storeAfter pg pre).afterAll pg post := afterAll_append pre post

/-- What a store answers behind a history of calls. -/
structure Persistent (pg : Postgres) (history : List (TableCall P × Answer)) : Prop where
  /-- An alert is found under the id that its call returned, with the status it was last given, until the table is truncated. -/
  found : ∀ pre alert answer post id, history = pre ++ (.call (.insertAlert alert), answer) :: post →
    (insertAlert pg (storeAfter pg pre) alert answer).2 = .ok id →
      getAlert pg (storeAfter pg history) id =
        if post.any truncates then none else some ⟨id, alert, statusAfter id (programCalls post)⟩
  /-- That id is greater than every one before it, truncated or not. -/
  fresh : ∀ pre alert answer post id, history = pre ++ (.call (.insertAlert alert), answer) :: post →
    (insertAlert pg (storeAfter pg pre) alert answer).2 = .ok id →
      ∀ front earlier stored, front <+: pre → getAlert pg (storeAfter pg front) earlier = some stored → earlier < id
  /-- A status whose call returned is that of the alert until it is given another, and nothing else of the alert changes. -/
  updated : ∀ pre id status answer post, history = pre ++ (.call (.updateAlertStatus id status), answer) :: post →
    (updateAlertStatus pg (storeAfter pg pre) id status answer).2 = .ok () → ∃ stored, getAlert pg (storeAfter pg pre) id = some stored ∧
      getAlert pg (storeAfter pg history) id =
        if post.any truncates then none else some { stored with status := (programCalls post).foldl (latest id) status }
  /-- What is found was inserted and not truncated since, and its status is one that the schema allows. -/
  origin : ∀ id stored, getAlert pg (storeAfter pg history) id = some stored → stored.status ∈ allowedStatuses ∧
    ∃ pre alert answer post, history = pre ++ (.call (.insertAlert alert), answer) :: post ∧ answer.stands = true ∧
      post.any truncates = false ∧ stored = ⟨id, alert, statusAfter id (programCalls post)⟩
  /-- The alerts of an account. -/
  byAccount : ∀ accountId, ListsAlerts pg (storeAfter pg history) (fun stored => accountId ∈ stored.alert.accountIds)
    (queryAlertsByAccount pg (storeAfter pg history) accountId)
  /-- The alerts of a detector. -/
  byDetector : ∀ detectorName, ListsAlerts pg (storeAfter pg history) (fun stored => stored.alert.detectorName = detectorName)
    (queryAlertsByDetector pg (storeAfter pg history) detectorName)

end Persistence

/-- The ids of a table reached by the program's calls increase. -/
theorem ordered_tableAfter (history : List (StoreCall P × Answer)) : Ordered (tableAfter pg history) :=
  ordered_after hpg ordered_empty history

/-- The row of an insert that returned. -/
theorem rowOf_insertAlert {t : AlertTable P} (hordered : Ordered t) {alert : Alert P} {answer : Answer} {id : ℤ}
    (h : (insertAlert pg t alert answer).2 = .ok id) : (t.call pg (.insertAlert alert, answer)).sequence = id ∧
      rowOf (t.call pg (.insertAlert alert, answer)) id = some (newRow id alert alert.accountIds alert.orderIds) := by
  obtain ⟨hstands, rfl⟩ := insertAlert_ok hpg h
  have hcall : t.call pg (.insertAlert alert, answer) = _ := congrArg Prod.fst (insertAlert_stands hpg hstands)
  rw [hcall]
  exact ⟨rfl, rowOf_inserted hordered alert alert.accountIds alert.orderIds answer⟩

/-- The row of an update that returned, before and behind it. -/
theorem rowOf_updateAlertStatus {t : AlertTable P} (hordered : Ordered t) {id : ℤ} {status : Str} {answer : Answer}
    (h : (updateAlertStatus pg t id status answer).2 = .ok ()) : id ≤ t.sequence ∧ ∃ row, rowOf t id = some row ∧ row.alertId = id ∧
      rowOf (t.call pg (.updateAlertStatus id status, answer)) id = some { row with status := status } := by
  obtain ⟨hstands, ⟨row, hrow, rfl⟩, hallowed⟩ := updateAlertStatus_ok h
  have hfound := rowOf_eq_some hordered hrow
  have hreached := hordered.bounded row hrow
  refine ⟨hreached, row, hfound, rfl, ?_⟩
  rw [(call_cases hpg _).rowOf_eq hreached, hfound, Option.map_some]
  show some { row with status := latest row.alertId row.status ((.updateAlertStatus row.alertId status, answer) : StoreCall P × Answer) } = _
  rw [latest_update rfl, if_pos ⟨hstands, rfl, hallowed⟩]

/-- A status that the program has given, behind more of its calls. -/
theorem updated_after {pre post : List (StoreCall P × Answer)} {id : ℤ} {status : Str} {answer : Answer}
    (h : (updateAlertStatus pg (tableAfter pg pre) id status answer).2 = .ok ()) :
    ∃ stored, getAlert pg (tableAfter pg pre) id = some stored ∧
      getAlert pg (tableAfter pg (pre ++ (.updateAlertStatus id status, answer) :: post)) id =
        some { stored with status := post.foldl (latest id) status } := by
  obtain ⟨hreached, row, hrow, hid, hupdated⟩ := rowOf_updateAlertStatus hpg (ordered_tableAfter hpg pre) h
  have hafter : tableAfter pg (pre ++ (.updateAlertStatus id status, answer) :: post) =
      ((tableAfter pg pre).call pg (.updateAlertStatus id status, answer)).after pg post := tableAfter_append _ _ _
  refine ⟨storedAlert pg row, ?_, ?_⟩
  · rw [getAlert_eq, hrow]
    rfl
  · rw [getAlert_eq, hafter, rowOf_after hpg (hreached.trans (call_cases hpg _).sequence_le), hupdated, Option.map_some, Option.map_some]
    unfold AlertRow.behind storedAlert
    rw [← hid]

/-- So do those of one reached by calls of any of the methods. -/
theorem ordered_storeAfter (history : List (TableCall P × Answer)) : Ordered (storeAfter pg history) :=
  ordered_afterAll hpg ordered_empty history

/-- Whatever is called, and however the database answers, what was stored is kept. -/
theorem alert_store_persistent (history : List (TableCall P × Answer)) : Persistent pg history where
  found := by
    rintro pre alert answer post id rfl h
    obtain ⟨hsequence, hrow⟩ := rowOf_insertAlert hpg (ordered_storeAfter hpg pre) h
    have hafter : storeAfter pg (pre ++ (.call (.insertAlert alert), answer) :: post) =
        ((storeAfter pg pre).call pg (.insertAlert alert, answer)).afterAll pg post := storeAfter_append _ _ _
    rw [getAlert_eq, hafter, rowOf_afterAll hpg hsequence.ge, hrow]
    split
    · rfl
    · exact congrArg some (storedAlert_newRow hpg _ _ _)
  fresh := by
    rintro pre alert answer post id rfl h front earlier stored ⟨back, rfl⟩ hearlier
    obtain ⟨-, rfl⟩ := insertAlert_ok hpg h
    rw [getAlert_eq] at hearlier
    obtain ⟨row, hrow, -⟩ := Option.map_eq_some_iff.1 hearlier
    have hle := (ordered_storeAfter hpg front).bounded row (List.mem_of_find?_eq_some hrow)
    rw [alertId_of_rowOf hrow] at hle
    have hlater : (storeAfter pg front).sequence ≤ (storeAfter pg (front ++ back)).sequence := by
      rw [storeAfter_append]
      exact sequence_le_afterAll hpg back
    exact (hle.trans hlater).trans_lt (sequence_lt_nextId _)
  updated := by
    rintro pre id status answer post rfl h
    obtain ⟨hreached, row, hrow, hid, hupdated⟩ := rowOf_updateAlertStatus hpg (ordered_storeAfter hpg pre) h
    have hafter : storeAfter pg (pre ++ (.call (.updateAlertStatus id status), answer) :: post) =
        ((storeAfter pg pre).call pg (.updateAlertStatus id status, answer)).afterAll pg post := storeAfter_append _ _ _
    refine ⟨storedAlert pg row, ?_, ?_⟩
    · rw [getAlert_eq, hrow]
      rfl
    · rw [getAlert_eq, hafter, rowOf_afterAll hpg (hreached.trans (call_cases hpg _).sequence_le), hupdated]
      split
      · rfl
      · rw [Option.map_some, Option.map_some]
        unfold AlertRow.behind storedAlert
        rw [← hid]
  origin := by
    intro id stored h
    rw [getAlert_eq] at h
    obtain ⟨row, hrow, rfl⟩ := Option.map_eq_some_iff.1 h
    obtain ⟨pre, alert, answer, post, rfl, hstands, hkept, rfl⟩ := rowOf_origin hpg history hrow
    exact ⟨statusAfter_allowed id (programCalls post), pre, alert, answer, post, rfl, hstands, hkept, storedAlert_newRow hpg _ _ _⟩
  byAccount := by
    intro accountId
    have hordered := ordered_storeAfter hpg history
    rw [queryAlertsByAccount, byAlertId_eq (hordered.increasing.filter _)]
    refine lists_filter hordered ?_
    intro row
    rw [decide_eq_true_iff, storedAlert, fromPgTextArray_arrayOut hpg]
  byDetector := by
    intro detectorName
    have hordered := ordered_storeAfter hpg history
    rw [queryAlertsByDetector, byAlertId_eq (hordered.increasing.filter _)]
    refine lists_filter hordered ?_
    intro row
    exact decide_eq_true_iff

/-- A Postgres that writes every element between quotes. -/
def quotingPostgres : Postgres where
  arrayIn := fun text => some (fromPgTextArray text)
  arrayOut := toPgTextArray
  what
    | .malformedArray => ascii "malformed array literal"
    | .checkViolation => ascii "new row for relation \"alerts\" violates check constraint \"alerts_status_check\""
    | .negativeLimit => ascii "LIMIT must not be negative"
    | .negativeOffset => ascii "OFFSET must not be negative"

omit hpg in
/-- A Postgres that quotes every element is one of those documented. -/
theorem quotingPostgres_documented : quotingPostgres.Documented where
  arrayIn := by
    intro es
    show some (fromPgTextArray (literal es)) = _
    rw [literal, fromPgTextArray_braces, elements_intercalate]
  arrayOut := by
    intro items
    refine ⟨items.map .quoted, ?_, (literal_quoted items).symm⟩
    rw [List.map_map]
    exact List.map_id items

omit hpg in
/-- An alert is inserted, closed and truncated, and the next gets the id that follows. -/
theorem alert_store_persistent_closed : Persistent quotingPostgres
    ([(.call (.insertAlert ⟨ascii "wash_trade", 1, ascii "EQ1", [ascii "ACC-1", ascii "ACC\"2"], [], 5, 9, ascii "{}", none, none⟩),
        .done 0),
      (.call (.updateAlertStatus 1 (ascii "CLOSED")), .done 0), (.call (.updateAlertStatus 2 (ascii "CLOSED")), .failed (ascii "lost")),
      (.truncateAll, .done 0),
      (.call (.insertAlert ⟨ascii "wash_trade", 1, ascii "EQ1", [ascii "ACC-1"], [], 5, 9, [], none, none⟩), .done 0)] :
      List (TableCall ℕ × Answer)) :=
  alert_store_persistent quotingPostgres_documented _

end TradeSurveillance.AlertStore
