import TradeSurveillance.Lemmas.SpoofingView
import TradeSurveillance.Lib.ClassCount
import TradeSurveillance.Theorems.ShadowBook

/-!
# The concurrency index of the spoofing detector

`concurrent_count_by_key_` is meant to count the entries of `tracked_` for each account, instrument and side. It never falls short of
that (`Covers`). It is exact along a run exactly as long as no accepted New or Replace takes an order id that is tracked already or has
a bar in its account or instrument (`concurrency_index_iff`).
-/

namespace TradeSurveillance

open ClassCount

variable {P : Type}

/-! ## Keys and entries -/

/-- What the index counts an entry under. -/
def TrackedOrder.triple (t : TrackedOrder P) : Str × Str × Side := (t.accountId, t.instrumentId, t.side)

def Order.triple (o : Order P) : Str × Str × Side := (o.accountId, o.instrumentId, o.side)

/-- `concurrency_key` of a triple. -/
def tripleKey (c : Str × Str × Side) : Str := concurrencyKey c.1 c.2.1 c.2.2

/-- No other triple has its key. -/
def Unambiguous (c : Str × Str × Side) : Prop := 124 ∉ c.1 ∧ 124 ∉ c.2.1

instance (c : Str × Str × Side) : Decidable (Unambiguous c) := inferInstanceAs (Decidable (_ ∧ _))

/-- The key of a triple is the account, a bar and the key of the rest. -/
theorem tripleKey_eq (a i : Str) (s : Side) : tripleKey (a, i, s) = a ++ 124 :: instrumentSideKey i s := by
  have hbar : ascii "|" = [124] := rfl
  simp [tripleKey, concurrencyKey, instrumentSideKey, hbar]

/-- An unambiguous triple shares its key with no other. -/
theorem tripleKey_inj {c c' : Str × Str × Side} (hc : Unambiguous c) (h : tripleKey c = tripleKey c') : c = c' := by
  obtain ⟨a, i, s⟩ := c
  obtain ⟨b, j, t⟩ := c'
  -- a key has two bars and those of the account and the instrument
  have hcount : ∀ (a i : Str) (s : Side), (tripleKey (a, i, s)).count 124 = a.count 124 + i.count 124 + 2 := by
    intro a i s
    have hbar : (ascii "|").count 124 = 1 := rfl
    have hside : s.key.count 124 = 0 := by cases s <;> rfl
    simp only [tripleKey, concurrencyKey, List.count_append, hbar, hside]
    omega
  have hbars := congrArg (List.count 124) h
  rw [hcount, hcount, List.count_eq_zero.2 hc.1, List.count_eq_zero.2 hc.2] at hbars
  have hb : 124 ∉ b := List.count_eq_zero.1 (by omega)
  obtain ⟨rfl, rfl, rfl⟩ := concurrencyKey_inj hc.1 hb h
  rfl

/-- An ambiguous one shares its key with another. -/
theorem exists_tripleKey_eq {c : Str × Str × Side} (hc : ¬Unambiguous c) : ∃ c', c ≠ c' ∧ tripleKey c = tripleKey c' := by
  obtain ⟨a, i, s⟩ := c
  have hbar : ascii "|" = [124] := rfl
  have hlen : ∀ {a b i j : Str}, a.length ≠ b.length → (a, i, s) ≠ (b, j, s) := fun hne heq => hne (congrArg (·.1.length) heq)
  rw [Unambiguous, not_and_or, not_not, not_not] at hc
  rcases hc with h | h
  · obtain ⟨x, y, rfl⟩ := List.append_of_mem h
    exact ⟨(x, y ++ 124 :: i, s), hlen (by simp), by simp [tripleKey_eq, instrumentSideKey]⟩
  · obtain ⟨x, y, rfl⟩ := List.append_of_mem h
    exact ⟨(a ++ 124 :: x, y, s), hlen (by simp), by simp [tripleKey_eq, instrumentSideKey]⟩

namespace SpoofingLayeringDetector

variable [Double P] {d d' : SpoofingLayeringDetector P}

/-- The number of entries of an account, an instrument and a side. -/
def entries (d : SpoofingLayeringDetector P) (c : Str × Str × Side) : ℕ := count TrackedOrder.triple d.tracked c

/-- What the index holds under a key. -/
def countAt (d : SpoofingLayeringDetector P) (key : Str) : ℤ := (d.concurrentCountByKey.lookup key).getD 0

/-- The index is that of the entries. -/
def Exact (d : SpoofingLayeringDetector P) : Prop :=
  ∀ account instrument side, d.countConcurrentSameAccountSameSide account instrument side = d.entries (account, instrument, side)

/-- Under every key the index holds at least the number of entries that have it. -/
def Covers (d : SpoofingLayeringDetector P) : Prop :=
  ∀ key, (count (tripleKey ∘ TrackedOrder.triple) d.tracked key : ℤ) ≤ d.countAt key

/-- An exact index holds the number of entries under the key of every triple. -/
theorem Exact.countAt (h : d.Exact) (c : Str × Str × Side) : d.countAt (tripleKey c) = d.entries c := h c.1 c.2.1 c.2.2

/-- An index that does so is exact. -/
theorem exact_of_countAt (h : ∀ c, d.countAt (tripleKey c) = d.entries c) : d.Exact := fun a i s => h (a, i, s)

/-- The trackers play no part in it. -/
theorem exact_congr (ht : d'.tracked = d.tracked) (hc : d'.concurrentCountByKey = d.concurrentCountByKey) : d'.Exact ↔ d.Exact := by
  simp only [Exact, countConcurrentSameAccountSameSide, entries, ht, hc]

/-- Covering depends on the entries and the counts only. -/
theorem covers_congr (ht : d'.tracked = d.tracked) (hc : d'.concurrentCountByKey = d.concurrentCountByKey) :
    d'.Covers ↔ d.Covers := by
  simp only [Covers, countAt, ht, hc]

/-- Where the index is exact, the triples of entries have keys of their own. -/
theorem Exact.unambiguous (h : d.Exact) (hcovers : d.Covers) {id : Str} {t : TrackedOrder P} (ht : d.tracked.lookup id = some t) :
    Unambiguous t.triple := by
  by_contra hc
  obtain ⟨c', hne, hkey⟩ := exists_tripleKey_eq hc
  have hsum := count_add_le TrackedOrder.triple d.tracked tripleKey hne hkey
  have hle := hcovers (tripleKey t.triple)
  have hthis := h.countAt t.triple
  have hother := h.countAt c'
  have hpos := count_pos TrackedOrder.triple ht
  rw [← hkey] at hother
  unfold entries at hthis hother
  omega

/-! ## Entries erased -/

/-- `uncount` takes one from a count, which does not fall below zero. -/
theorem getD_lookup_uncount (counts : Map Str ℤ) (key k : Str) : ((uncount counts key).lookup k).getD 0 =
    if k = key then max 0 ((counts.lookup k).getD 0 - 1) else (counts.lookup k).getD 0 := by
  split_ifs with hk
  · subst hk
    unfold uncount
    cases hl : counts.lookup k with
    | none =>
      simp only [hl]
      rfl
    | some n =>
      simp only [Option.getD_some]
      split_ifs with hn
      · rw [Finmap.lookup_erase, Option.getD_none, max_eq_left hn]
      · rw [Finmap.lookup_insert, Option.getD_some, max_eq_right (by omega)]
  · rw [lookup_uncount_of_ne _ hk]

/-- Erasing an entry takes one from the count of its key. -/
theorem countAt_eraseTracked {id : Str} {t : TrackedOrder P} (ht : d.tracked.lookup id = some t) (key : Str) :
    (d.eraseTracked id).1.countAt key = if key = tripleKey t.triple then max 0 (d.countAt key - 1) else d.countAt key := by
  rw [eraseTracked_of_some ht]
  exact getD_lookup_uncount _ _ _

/-- Erasing an id keeps the index covering. -/
theorem Covers.eraseTracked (h : d.Covers) (id : Str) : (d.eraseTracked id).1.Covers := by
  cases ht : d.tracked.lookup id with
  | none => rwa [eraseTracked_of_none ht]
  | some t =>
    intro key
    have herase := count_erase (tripleKey ∘ TrackedOrder.triple) ht key
    have hle := h key
    rw [countAt_eraseTracked ht, eraseTracked_of_some ht]
    simp only [Function.comp_apply, eq_comm (a := tripleKey t.triple)] at herase
    split_ifs at herase ⊢ with hkey <;> simp only <;> omega

/-- Erasing an id keeps an exact index exact. -/
theorem Exact.eraseTracked (h : d.Exact) (hcovers : d.Covers) (id : Str) : (d.eraseTracked id).1.Exact := by
  cases ht : d.tracked.lookup id with
  | none => rwa [eraseTracked_of_none ht]
  | some t =>
    refine exact_of_countAt ?_
    intro c
    have herase := count_erase TrackedOrder.triple ht c
    have hc := h.countAt c
    have hkey : tripleKey c = tripleKey t.triple ↔ t.triple = c :=
      ⟨fun heq => tripleKey_inj (h.unambiguous hcovers ht) heq.symm, fun heq => heq ▸ rfl⟩
    rw [countAt_eraseTracked ht, hc, eraseTracked_of_some ht]
    unfold entries
    simp only [hkey] at herase ⊢
    split_ifs at herase ⊢ with hcls <;> omega

/-- An id is not tracked after an erasure when it is the erased one or was not tracked before. -/
theorem notMem_eraseTracked {id id' : Str} : id' ∉ (d.eraseTracked id).1.tracked ↔ id' = id ∨ id' ∉ d.tracked := by
  cases ht : d.tracked.lookup id with
  | none =>
    rw [eraseTracked_of_none ht]
    refine ⟨Or.inr, ?_⟩
    rintro (rfl | h)
    · exact Finmap.lookup_eq_none.1 ht
    · exact h
  | some t =>
    rw [eraseTracked_of_some ht]
    simp only [Finmap.mem_erase, not_and_or, not_not, ne_eq]

/-! ## Entries made -/

section TrackNew

variable [LinearOrder P] {book : OrderBook P} {o : Order P}

/-- `track_new` makes one entry, of the order's triple. -/
theorem trackNew_tracked (d : SpoofingLayeringDetector P) (book : OrderBook P) (o : Order P) :
    ∃ t, (d.trackNew book o).tracked = d.tracked.insert o.orderId t ∧ t.triple = o.triple := ⟨_, rfl, rfl⟩

/-- `track_new` adds one to the count of the order's key. -/
theorem countAt_trackNew (d : SpoofingLayeringDetector P) (key : Str) :
    (d.trackNew book o).countAt key = d.countAt key + if tripleKey o.triple = key then 1 else 0 := by
  have hcounts : (d.trackNew book o).concurrentCountByKey =
      d.concurrentCountByKey.insert (tripleKey o.triple) (d.countAt (tripleKey o.triple) + 1) := rfl
  rw [countAt, hcounts]
  split_ifs with hkey
  · rw [← hkey, Finmap.lookup_insert, Option.getD_some]
  · rw [Finmap.lookup_insert_of_ne _ (Ne.symm hkey), add_zero, countAt]

/-- `track_new` keeps the index covering, also when it makes the entry over another. -/
theorem Covers.trackNew (h : d.Covers) : (d.trackNew book o).Covers := by
  intro key
  obtain ⟨t, ht, htriple⟩ := trackNew_tracked d book o
  have hle := h key
  rw [countAt_trackNew, ht]
  cases hl : d.tracked.lookup o.orderId with
  | none =>
    rw [count_insert _ hl, Function.comp_apply, htriple]
    split_ifs <;> omega
  | some t' =>
    have hover := count_insert_of_lookup (tripleKey ∘ TrackedOrder.triple) hl t key
    rw [Function.comp_apply, Function.comp_apply, htriple] at hover
    split_ifs at hover ⊢ <;> omega

/-- A new entry is counted exactly when its id was not tracked and its key is its own. -/
theorem exact_trackNew_iff (h : d.Exact) (hcovers : d.Covers) :
    (d.trackNew book o).Exact ↔ o.orderId ∉ d.tracked ∧ Unambiguous o.triple := by
  obtain ⟨t, ht, htriple⟩ := trackNew_tracked d book o
  constructor
  · intro h'
    constructor
    · -- the overwritten entry is still counted
      intro hmem
      obtain ⟨t', hl⟩ := Finmap.mem_iff.1 hmem
      have hover := count_insert_of_lookup TrackedOrder.triple hl t t'.triple
      have hbefore := h.countAt t'.triple
      have hafter := h'.countAt t'.triple
      rw [countAt_trackNew, entries, ht] at hafter
      rw [htriple, if_pos rfl] at hover
      unfold entries at hbefore
      by_cases htt : o.triple = t'.triple
      · rw [if_pos htt] at hover
        rw [if_pos (congrArg tripleKey htt)] at hafter
        omega
      · rw [if_neg htt] at hover
        split_ifs at hafter <;> omega
    · have hlookup : (d.trackNew book o).tracked.lookup o.orderId = some t := by rw [ht, Finmap.lookup_insert]
      exact htriple ▸ h'.unambiguous hcovers.trackNew hlookup
  · rintro ⟨hmem, hclear⟩
    refine exact_of_countAt ?_
    intro c
    have hinsert := count_insert TrackedOrder.triple (Finmap.lookup_eq_none.2 hmem) t c
    have hkey : tripleKey o.triple = tripleKey c ↔ o.triple = c := ⟨tripleKey_inj hclear, congrArg tripleKey⟩
    have hc := h.countAt c
    rw [countAt_trackNew, hc, entries, entries, ht, hinsert, htriple]
    simp only [hkey, Nat.cast_add, Nat.cast_ite, Nat.cast_one, Nat.cast_zero]

end TrackNew

/-! ## Fills -/

/-- The detector with another remaining quantity in an entry. -/
def fill (d : SpoofingLayeringDetector P) (id : Str) (t : TrackedOrder P) (qty : ℤ) : SpoofingLayeringDetector P :=
  { d with tracked := d.tracked.insert id { t with remainingQty := qty } }

omit [Double P] in
/-- A fill does not move an entry to another triple. -/
theorem triple_fill (t : TrackedOrder P) (qty : ℤ) : ({ t with remainingQty := qty } : TrackedOrder P).triple = t.triple := rfl

/-- A fill keeps the index covering. -/
theorem Covers.fill (h : d.Covers) {id : Str} {t : TrackedOrder P} (ht : d.tracked.lookup id = some t) (qty : ℤ) :
    (d.fill id t qty).Covers := by
  intro key
  have hcount : count (tripleKey ∘ TrackedOrder.triple) (d.fill id t qty).tracked key =
      count (tripleKey ∘ TrackedOrder.triple) d.tracked key :=
    count_insert_of_class _ ht (congrArg tripleKey (triple_fill t qty)) key
  rw [hcount]
  exact h key

/-- A fill keeps an exact index exact. -/
theorem Exact.fill (h : d.Exact) {id : Str} {t : TrackedOrder P} (ht : d.tracked.lookup id = some t) (qty : ℤ) :
    (d.fill id t qty).Exact := by
  intro a i s
  have hcount : (d.fill id t qty).entries (a, i, s) = d.entries (a, i, s) :=
    count_insert_of_class _ ht (triple_fill t qty) _
  rw [hcount]
  exact h a i s

/-- An Execution leaves the detector alone, fills an entry, or fills and erases it. -/
theorem handleExecution_cases (d : SpoofingLayeringDetector P) (x : Execution P) : d.handleExecution x = d ∨
    ∃ t qty, d.tracked.lookup x.orderId = some t ∧
      (d.handleExecution x = d.fill x.orderId t qty ∨ d.handleExecution x = ((d.fill x.orderId t qty).eraseTracked x.orderId).1) := by
  unfold handleExecution
  cases ht : d.tracked.lookup x.orderId with
  | none => exact .inl rfl
  | some t =>
    refine .inr ⟨t, wrap64 (t.remainingQty - x.qty), rfl, ?_⟩
    simp only
    split_ifs
    · exact .inr rfl
    · exact .inl rfl

/-- An Execution keeps the index covering. -/
theorem Covers.handleExecution (h : d.Covers) (x : Execution P) : (d.handleExecution x).Covers := by
  rcases d.handleExecution_cases x with heq | ⟨t, qty, ht, heq | heq⟩
  · rwa [heq]
  · rw [heq]
    exact h.fill ht qty
  · rw [heq]
    exact (h.fill ht qty).eraseTracked _

/-- An Execution keeps an exact index exact. -/
theorem Exact.handleExecution (h : d.Exact) (hcovers : d.Covers) (x : Execution P) : (d.handleExecution x).Exact := by
  rcases d.handleExecution_cases x with heq | ⟨t, qty, ht, heq | heq⟩
  · rwa [heq]
  · rw [heq]
    exact h.fill ht qty
  · rw [heq]
    exact (h.fill ht qty).eraseTracked (hcovers.fill ht qty) _

/-! ## Events -/

/-- An event that makes no entry over another and none with an ambiguous key. -/
def KeepsIndex (d : SpoofingLayeringDetector P) : Event P → Prop
  | .order o => match o.status with
    | .new => o.orderId ∉ d.tracked ∧ Unambiguous o.triple
    | .cancelled => True
    | .replaced => (o.orderId = o.origOrderId ∨ o.orderId ∉ d.tracked) ∧ Unambiguous o.triple
  | .execution _ => True

variable [LinearOrder P]

/-- The ambient update keeps the index covering. -/
theorem Covers.updateAmbient (h : d.Covers) (book : OrderBook P) (i : Str) (ts : ℤ) : (d.updateAmbient book i ts).Covers :=
  (covers_congr rfl rfl).2 h

/-- The ambient update keeps an exact index exact. -/
theorem Exact.updateAmbient (h : d.Exact) (book : OrderBook P) (i : Str) (ts : ℤ) : (d.updateAmbient book i ts).Exact :=
  (exact_congr rfl rfl).2 h

/-- Every event keeps the index covering. -/
theorem Covers.evaluate (h : d.Covers) (book : OrderBook P) (e : Event P) : (d.evaluate book e).1.Covers := by
  unfold SpoofingLayeringDetector.evaluate
  cases e with
  | execution x => exact (h.updateAmbient book x.instrumentId x.timestampNs).handleExecution x
  | order o =>
    have hambient := h.updateAmbient book o.instrumentId o.timestampNs
    cases hst : o.status with
    | new =>
      simp only [hst]
      exact hambient.trackNew
    | cancelled =>
      simp only [hst, handleCancel_fst]
      exact hambient.eraseTracked o.origOrderId
    | replaced =>
      simp only [hst, handleReplace]
      exact (hambient.eraseTracked o.origOrderId).trackNew

/-- What an event does to an exact index. -/
theorem exact_evaluate_iff (h : d.Exact) (hcovers : d.Covers) (book : OrderBook P) (e : Event P) :
    (d.evaluate book e).1.Exact ↔ d.KeepsIndex e := by
  unfold evaluate
  cases e with
  | execution x =>
    exact iff_of_true ((h.updateAmbient book x.instrumentId x.timestampNs).handleExecution (hcovers.updateAmbient book _ _) x) trivial
  | order o =>
    have hambient := h.updateAmbient book o.instrumentId o.timestampNs
    have hcovers' := hcovers.updateAmbient book o.instrumentId o.timestampNs
    cases hst : o.status with
    | new =>
      simp only [KeepsIndex, hst]
      exact exact_trackNew_iff hambient hcovers'
    | cancelled =>
      simp only [KeepsIndex, hst, iff_true, handleCancel_fst]
      exact hambient.eraseTracked hcovers' o.origOrderId
    | replaced =>
      simp only [KeepsIndex, hst]
      rw [handleReplace, exact_trackNew_iff (hambient.eraseTracked hcovers' o.origOrderId) (hcovers'.eraseTracked o.origOrderId),
        notMem_eraseTracked]
      exact Iff.rfl

omit [LinearOrder P] in
/-- The index of a new detector is exact. -/
theorem exact_make (config : SpoofingLayeringConfig P) : (make config).Exact ∧ (make config).Covers := by
  constructor
  · intro a i s
    rw [entries, make, count_empty]
    rfl
  · intro key
    rw [make, count_empty]
    exact le_refl 0

end SpoofingLayeringDetector

/-! ## Every run -/

variable [Double P] [LinearOrder P]

section Run

variable {config : SpoofingLayeringConfig P} {detectors : List (IDetector P)} {accounts : AccountRegistry} {k : ℕ}

/-- In a run of the pipeline the detector's index covers the entries. -/
theorem run_covers (accounts : AccountRegistry) (hk : detectors[k]? = some (SpoofingLayeringDetector.make config).object) (events : List (Event P)) :
    ∃ d, (LivePipeline.run detectors accounts events).detectors[k]? = some (SpoofingLayeringDetector.object d) ∧ d.Covers := by
  refine LivePipeline.run_spoofing accounts (fun _ d => d.Covers) hk (SpoofingLayeringDetector.exact_make config).2 events ?_
  rintro pre e d - - hcovers
  split_ifs
  · exact hcovers.evaluate _ e
  · exact hcovers

/-- After every event of a run the index is exact, exactly when each event that a book accepts makes no entry over another and none with
an ambiguous key. -/
theorem concurrency_index_iff (hk : detectors[k]? = some (SpoofingLayeringDetector.make config).object) (events : List (Event P)) :
    (∀ pre, pre <+: events → ∃ d, (LivePipeline.run detectors accounts pre).detectors[k]? =
        some (SpoofingLayeringDetector.object d) ∧ d.Exact) ↔
      ∀ pre e d, pre ++ [e] <+: events →
        (LivePipeline.run detectors accounts pre).detectors[k]? = some (SpoofingLayeringDetector.object d) →
          (((LivePipeline.run detectors accounts pre).bookOf e.instrumentId).apply e).2 = none → d.KeepsIndex e := by
  constructor
  · intro hexact pre e d hpre hd happlied
    obtain ⟨d₁, hd₁, hbefore⟩ := hexact pre ((List.prefix_append pre [e]).trans hpre)
    obtain ⟨d₂, hd₂, hafter⟩ := hexact _ hpre
    obtain ⟨d₃, hd₃, hcovers⟩ := run_covers accounts hk pre
    have heq : ∀ {d'}, (LivePipeline.run detectors accounts pre).detectors[k]? = some (SpoofingLayeringDetector.object d') → d' = d :=
      fun hd' => SpoofingLayeringDetector.object_injective (Option.some.inj (hd'.symm.trans hd))
    rw [heq hd₁] at hbefore
    rw [heq hd₃] at hcovers
    rw [LivePipeline.run_concat, LivePipeline.process_spoofing hd, if_pos happlied] at hd₂
    rw [← SpoofingLayeringDetector.object_injective (Option.some.inj hd₂)] at hafter
    exact (SpoofingLayeringDetector.exact_evaluate_iff hbefore hcovers _ e).1 hafter
  · intro hkeeps pre hpre
    have hrun := LivePipeline.run_spoofing accounts (fun _ d => d.Exact ∧ d.Covers) hk (SpoofingLayeringDetector.exact_make config) pre
      fun pre' e d hpre' hd h => by
        obtain ⟨hexact, hcovers⟩ := h
        split_ifs with happlied
        · have hkept := hkeeps pre' e d (hpre'.trans hpre) hd happlied
          exact ⟨(SpoofingLayeringDetector.exact_evaluate_iff hexact hcovers _ e).2 hkept, hcovers.evaluate _ e⟩
        · exact ⟨hexact, hcovers⟩
    obtain ⟨d, hd, hexact, -⟩ := hrun
    exact ⟨d, hd, hexact⟩

end Run

/-- An order is placed and cancelled. -/
theorem concurrency_index_cancelled :
    let new : Event ℚ := .order (orderOn "X" "A" .new "A" .buy 100 10)
    let cancel : Event ℚ := .order (orderOn "X" "C" .cancelled "A" .buy 100 10)
    ∀ pre, pre <+: [new, cancel] → ∃ d, (LivePipeline.run [(SpoofingLayeringDetector.make {}).object] .empty pre).detectors[0]? =
      some (SpoofingLayeringDetector.object d) ∧ d.Exact := by
  intro new cancel
  refine (concurrency_index_iff rfl [new, cancel]).2 ?_
  rintro pre e d ⟨post, hpost⟩ hd -
  rcases pre with _ | ⟨a, _ | ⟨b, pre⟩⟩
  · obtain ⟨rfl, -⟩ := List.cons.inj hpost
    rw [← SpoofingLayeringDetector.object_injective (Option.some.inj hd)]
    exact ⟨Finmap.notMem_empty, by decide +kernel⟩
  · obtain ⟨rfl, htail⟩ := List.cons.inj hpost
    obtain ⟨rfl, -⟩ := List.cons.inj htail
    exact trivial
  · simp at hpost

/-- Two instruments use one order id: the index goes on counting the entry that was overwritten. -/
theorem overwritten_entry_counted :
    let p := LivePipeline.run (P := ℚ) [(SpoofingLayeringDetector.make {}).object] .empty
      [.order (orderOn "X" "A" .new "A" .buy 100 10), .order (orderOn "Y" "A" .new "A" .buy 100 10)]
    ∃ d, p.detectors[0]? = some (SpoofingLayeringDetector.object d) ∧ p.inconsistentEventsSkipped = 0 ∧
      d.countConcurrentSameAccountSameSide (ascii "ACC") (ascii "X") .buy = 1 ∧ d.entries (ascii "ACC", ascii "X", .buy) = 0 ∧
      ¬d.Exact := by
  refine ⟨_, rfl, by decide +kernel, by decide +kernel, by decide +kernel, ?_⟩
  intro hexact
  exact absurd (hexact (ascii "ACC") (ascii "X") .buy) (by decide +kernel)

end TradeSurveillance
