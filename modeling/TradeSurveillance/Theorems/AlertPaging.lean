import TradeSurveillance.Api.AlertRoutes
import TradeSurveillance.Lib.Paging
import TradeSurveillance.Theorems.AlertPersistence

/-!
# Paging through the alerts

The list shows the newest alerts first, a page at a time, and alerts keep coming while an analyst reads. A new alert moves the others
backward, so going on to the last page shows every alert that was there at first (`alerts_paged`).
-/

namespace TradeSurveillance.Api

open AlertStore

variable {P : Type} {pg : Postgres} {t t' : AlertTable P} {detectorName : Option Str}

/-! ## One page -/

/-- The rows of a detector, or of all. -/
def listed (t : AlertTable P) (detectorName : Option Str) : List (AlertRow P) := t.rows.filter (matchesFilter detectorName none)

/-- A 32-bit integer is read back from its numeral. -/
theorem stoi_ofInt {z : ℤ} (hz : IsInt32 z) : stoi (Decimal.ofInt z) = .ok z := by
  rw [stoi, Decimal.readInt_ofInt]
  exact if_pos hz

/-- A page from `1` on, if its offset is an `int`. -/
theorem alertsPage_eq (hordered : Ordered t) {k : ℕ} (hk : IsInt32 (k * pageSize : ℕ)) :
    alertsPage pg t (pageParams (k + 1) detectorName) =
      .ok ⟨rowsToStoredAlerts pg (Paging.page pageSize k (listed t detectorName).reverse), (listed t detectorName).length⟩ := by
  have hoffset : stoi (Decimal.ofInt ((k + 1 - 1) * pageSize : ℕ)) = .ok ((k * pageSize : ℕ) : ℤ) := by
    rw [Nat.add_sub_cancel, stoi_ofInt hk]
  have hlimit : stoi (Decimal.ofInt pageSize) = .ok (pageSize : ℤ) := stoi_ofInt (by decide)
  have hsorted : byAlertId (listed t detectorName) = listed t detectorName := byAlertId_eq (hordered.increasing.filter _)
  have hwindow : AlertStore.window pg (listed t detectorName) pageSize (k * pageSize : ℕ) =
      .ok (Paging.page pageSize k (listed t detectorName).reverse) := by
    rw [AlertStore.window, if_neg (by omega), if_neg (by decide), hsorted, Int.toNat_natCast, Paging.page, Nat.mul_comm]
    rfl
  have hpage : listAlertsPaginated pg t detectorName none pageSize (k * pageSize : ℕ) =
      .ok ⟨rowsToStoredAlerts pg (Paging.page pageSize k (listed t detectorName).reverse), (listed t detectorName).length⟩ :=
    congrArg (Except.map fun page => (⟨rowsToStoredAlerts pg page, (listed t detectorName).length⟩ : PaginatedAlerts P)) hwindow
  have hanswer : (do
      let limit ← (.ok (pageSize : ℤ) : Except Exception ℤ)
      let offset ← (.ok ((k * pageSize : ℕ) : ℤ) : Except Exception ℤ)
      listAlertsPaginated pg t detectorName none limit offset) = _ := hpage
  unfold alertsPage pageParams
  simp only [hoffset, hlimit, hanswer]

/-! ## The list grows at the front -/

/-- A call may add an alert at the end of the list, and takes none off. -/
theorem listed_effect {c : StoreCall P × Answer} (heffect : Effect t c t') :
    (listed t detectorName).map (·.alertId) <+: (listed t' detectorName).map (·.alertId) := by
  rcases heffect with _ | ⟨alert, -, -⟩ | ⟨id, status, -, -, -⟩
  · exact List.prefix_refl _
  · rw [listed, listed, List.filter_append, List.map_append]
    exact List.prefix_append _ _
  · have hkept : (matchesFilter detectorName none ∘ fun row : AlertRow P => if row.alertId = id then { row with status := status } else row) =
        matchesFilter detectorName none := by
      funext row
      rw [Function.comp_apply]
      split_ifs <;> rfl
    have hids : ((fun row : AlertRow P => row.alertId) ∘ fun row => if row.alertId = id then { row with status := status } else row) =
        fun row => row.alertId := by
      funext row
      rw [Function.comp_apply]
      split_ifs <;> rfl
    rw [listed, listed, setStatus, List.filter_map, List.map_map, hkept, hids]

/-- So may calls in a row. -/
theorem listed_after (hpg : pg.Documented) (post : List (StoreCall P × Answer)) :
    (listed t detectorName).map (·.alertId) <+: (listed (t.after pg post) detectorName).map (·.alertId) := by
  induction post generalizing t with
  | nil => exact List.prefix_refl _
  | cons c post ih => exact (listed_effect (call_cases hpg c)).trans ih

/-! ## All pages -/

/-- The alerts of a detector, or of all. -/
def ofDetector (detectorName : Option Str) (stored : StoredAlert P) : Prop := ∀ name ∈ detectorName, stored.alert.detectorName = name

/-- What paging through the alerts shows. -/
structure Paged (pg : Postgres) (P : Type) (detectorName : Option Str) : Prop where
  /-- The pages of a table that stays as it is show every alert once, the newest first. -/
  partition : ∀ history : List (StoreCall P × Answer), ∃ all, ListsAlerts pg (tableAfter pg history) (ofDetector detectorName) all ∧
    (all.length < 2 ^ 31 → ∃ pages : List (PaginatedAlerts P),
      (List.range (totalPages all.length)).map (fun k => alertsPage pg (tableAfter pg history) (pageParams (k + 1) detectorName)) =
        pages.map .ok ∧
      pages.flatMap (·.alerts) = all.reverse ∧ ∀ page ∈ pages, page.totalCount = all.length)
  /-- Whatever is called between two pages, who reads up to the last page is shown every alert that was there at the first. -/
  complete : ∀ (histories : ℕ → List (StoreCall P × Answer)) (pages : ℕ → PaginatedAlerts P) (m : ℕ),
    (∀ k < m, histories k <+: histories (k + 1)) →
    (∀ k ≤ m, alertsPage pg (tableAfter pg (histories k)) (pageParams (k + 1) detectorName) = .ok (pages k)) →
    totalPages (pages m).totalCount ≤ m + 1 →
    ∀ id stored, getAlert pg (tableAfter pg (histories 0)) id = some stored → ofDetector detectorName stored →
      ∃ k ≤ m, ∃ shown ∈ (pages k).alerts, shown.alertId = id ∧ shown.alert = stored.alert

/-- The pages hold all alerts. -/
theorem le_totalPages (totalCount : ℕ) : totalCount ≤ pageSize * totalPages totalCount := by
  unfold totalPages pageSize
  omega

/-- No page begins behind the last alert. -/
theorem offset_lt {totalCount k : ℕ} (hk : k < totalPages totalCount) : k * pageSize ≤ totalCount := by
  unfold totalPages pageSize at *
  omega

/-- The filter takes the alerts of the detector. -/
theorem matchesFilter_iff {row : AlertRow P} : matchesFilter detectorName none row = true ↔ ofDetector detectorName (storedAlert pg row) := by
  cases detectorName <;> simp [matchesFilter, ofDetector, storedAlert]

variable (hpg : pg.Documented)

include hpg

/-- The pages of a table that stays as it is are a partition of its alerts. -/
theorem paged_partition (history : List (StoreCall P × Answer)) : ∃ all, ListsAlerts pg (tableAfter pg history) (ofDetector detectorName) all ∧
    (all.length < 2 ^ 31 → ∃ pages : List (PaginatedAlerts P),
      (List.range (totalPages all.length)).map (fun k => alertsPage pg (tableAfter pg history) (pageParams (k + 1) detectorName)) =
        pages.map .ok ∧
      pages.flatMap (·.alerts) = all.reverse ∧ ∀ page ∈ pages, page.totalCount = all.length) := by
  have hordered := ordered_tableAfter hpg history
  set rows := listed (tableAfter pg history) detectorName with hrows
  have hlength : (rowsToStoredAlerts pg rows).length = rows.length := List.length_map _
  refine ⟨rowsToStoredAlerts pg rows, lists_filter hordered fun row => matchesFilter_iff, ?_⟩
  rw [hlength]
  intro hlt
  refine ⟨(List.range (totalPages rows.length)).map fun k => ⟨rowsToStoredAlerts pg (Paging.page pageSize k rows.reverse), rows.length⟩, ?_, ?_, ?_⟩
  · rw [List.map_map]
    refine List.map_congr_left ?_
    intro k hk
    have hoffset := offset_lt (List.mem_range.1 hk)
    refine alertsPage_eq hordered ⟨?_, ?_⟩
    · omega
    · omega
  · have hpages : ∀ k, rowsToStoredAlerts pg (Paging.page pageSize k rows.reverse) =
        Paging.page pageSize k (rowsToStoredAlerts pg rows).reverse := by
      intro k
      rw [rowsToStoredAlerts, rowsToStoredAlerts, ← List.map_reverse, Paging.page_map]
    have hfits : (rowsToStoredAlerts pg rows).reverse.length ≤ pageSize * totalPages rows.length := by
      rw [List.length_reverse, hlength]
      exact le_totalPages _
    rw [List.flatMap_map]
    simp only [hpages]
    exact Paging.flatMap_page_eq hfits
  · intro page hpage
    obtain ⟨k, -, rfl⟩ := List.mem_map.1 hpage
    rfl

omit hpg in
/-- A page is answered only if its offset is an `int`. -/
theorem isInt32_of_alertsPage {k : ℕ} {page : PaginatedAlerts P} (h : alertsPage pg t (pageParams (k + 1) detectorName) = .ok page) :
    IsInt32 (k * pageSize : ℕ) := by
  by_contra hout
  have hoffset : stoi (Decimal.ofInt ((k + 1 - 1) * pageSize : ℕ)) = .error (.outOfRange (ascii "stoi")) := by
    rw [Nat.add_sub_cancel, stoi, Decimal.readInt_ofInt]
    exact if_neg hout
  have hlimit : stoi (Decimal.ofInt pageSize) = .ok (pageSize : ℤ) := stoi_ofInt (by decide)
  unfold alertsPage pageParams at h
  simp only [hoffset, hlimit] at h
  cases h

omit hpg in
/-- A history that grows has its first state as a prefix. -/
theorem histories_prefix {α : Type} {histories : ℕ → List α} {m : ℕ} (hgrow : ∀ k < m, histories k <+: histories (k + 1)) {k : ℕ}
    (hk : k ≤ m) : histories 0 <+: histories k := by
  induction k with
  | zero => exact List.prefix_refl _
  | succ k ih => exact (ih (Nat.le_of_succ_le hk)).trans (hgrow k hk)

/-- Pages read while alerts arrive show every alert that was there first. -/
theorem paged_complete {histories : ℕ → List (StoreCall P × Answer)} {pages : ℕ → PaginatedAlerts P} {m : ℕ}
    (hgrow : ∀ k < m, histories k <+: histories (k + 1))
    (hpages : ∀ k ≤ m, alertsPage pg (tableAfter pg (histories k)) (pageParams (k + 1) detectorName) = .ok (pages k))
    (hlast : totalPages (pages m).totalCount ≤ m + 1) {id : ℤ} {stored : StoredAlert P}
    (hstored : getAlert pg (tableAfter pg (histories 0)) id = some stored) (hdetector : ofDetector detectorName stored) :
    ∃ k ≤ m, ∃ shown ∈ (pages k).alerts, shown.alertId = id ∧ shown.alert = stored.alert := by
  set lists : ℕ → List ℤ := fun k => ((listed (tableAfter pg (histories k)) detectorName).map (·.alertId)).reverse with hlists
  have hgrows : ∀ k < m, lists k <:+ lists (k + 1) := by
    intro k hk
    obtain ⟨post, hpost⟩ := hgrow k hk
    rw [hlists]
    show List.reverse _ <:+ List.reverse _
    rw [List.reverse_suffix, ← hpost, tableAfter_append]
    exact listed_after hpg post
  have hpage : ∀ k ≤ m, pages k = ⟨rowsToStoredAlerts pg (Paging.page pageSize k (listed (tableAfter pg (histories k)) detectorName).reverse),
      (listed (tableAfter pg (histories k)) detectorName).length⟩ := by
    intro k hk
    have hanswer := hpages k hk
    rw [alertsPage_eq (ordered_tableAfter hpg _) (isInt32_of_alertsPage hanswer)] at hanswer
    exact (Response.ok.inj hanswer).symm
  have hfits : (lists m).length ≤ pageSize * (m + 1) := by
    rw [hpage m (le_refl m)] at hlast
    rw [hlists, List.length_reverse, List.length_map]
    exact (le_totalPages _).trans (Nat.mul_le_mul_left _ hlast)
  rw [getAlert_eq] at hstored
  obtain ⟨row, hrow, rfl⟩ := Option.map_eq_some_iff.1 hstored
  have hid : id ∈ lists 0 := by
    refine List.mem_reverse.2 (List.mem_map.2 ⟨row, ?_, alertId_of_rowOf hrow⟩)
    exact List.mem_filter.2 ⟨List.mem_of_find?_eq_some hrow, matchesFilter_iff.2 hdetector⟩
  obtain ⟨k, hk, hshown⟩ := Paging.browse_complete hgrows hfits hid
  rw [hlists] at hshown
  change id ∈ Paging.page pageSize k ((listed _ _).map _).reverse at hshown
  rw [← List.map_reverse, Paging.page_map] at hshown
  obtain ⟨shown, hshown, hsame⟩ := List.mem_map.1 hshown
  refine ⟨k, hk, storedAlert pg shown, ?_, hsame, ?_⟩
  · rw [hpage k hk]
    exact List.mem_map.2 ⟨shown, hshown, rfl⟩
  · -- the row is the one of the first request, whatever its status is by now
    obtain ⟨post, hpost⟩ := histories_prefix hgrow hk
    have hmem : shown ∈ (tableAfter pg (histories k)).rows :=
      (List.mem_filter.1 (List.mem_reverse.1 (List.mem_of_mem_drop (List.mem_of_mem_take hshown)))).1
    have hnow := rowOf_eq_some (ordered_tableAfter hpg (histories k)) hmem
    have hreached : id ≤ (tableAfter pg (histories 0)).sequence := by
      rw [← alertId_of_rowOf hrow]
      exact (ordered_tableAfter hpg (histories 0)).bounded row (List.mem_of_find?_eq_some hrow)
    rw [hsame, ← hpost, tableAfter_append, rowOf_after hpg hreached, hrow, Option.map_some] at hnow
    rw [← Option.some.inj hnow]
    rfl

/-- Paging shows what is there. -/
theorem alerts_paged : Paged pg P detectorName where
  partition := paged_partition hpg
  complete := by
    intro histories pages m hgrow hpages hlast id stored hstored hdetector
    exact paged_complete hpg hgrow hpages hlast hstored hdetector

omit hpg in
/-- The wash trades, as a Postgres that quotes every element lists them. -/
theorem alerts_paged_washTrade : Paged quotingPostgres ℕ (some (ascii "wash_trade")) := alerts_paged quotingPostgres_documented

end TradeSurveillance.Api
