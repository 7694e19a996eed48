import TradeSurveillance.Lemmas.SpoofingTracked

/-!
# What one instrument sees of the spoofing detector

`Agree`: two detectors cannot be told apart by the events of an instrument. An event of another instrument leads to a detector that
agrees with the one before it; an event of the instrument keeps two detectors in agreement and makes them raise the same alerts. Of the
ids, `own` are those the instrument uses.
-/

namespace TradeSurveillance

variable {P : Type}

/-! ## Keys -/

/-- What stands before the first bar, and what after it. -/
theorem append_bar_inj {x y z w : Str} (hx : 124 ∉ x) (hy : 124 ∉ y) (h : x ++ 124 :: z = y ++ 124 :: w) : x = y ∧ z = w := by
  induction x generalizing y with
  | nil =>
    cases y with
    | nil => exact ⟨rfl, (List.cons.inj h).2⟩
    | cons b y => exact absurd (List.mem_cons.2 (.inl (List.cons.inj h).1)) hy
  | cons a x ih =>
    cases y with
    | nil => exact absurd (List.mem_cons.2 (.inl (List.cons.inj h).1.symm)) hx
    | cons b y =>
      obtain ⟨rfl, htail⟩ := List.cons.inj h
      obtain ⟨rfl, hzw⟩ := ih (fun hm => hx (List.mem_cons_of_mem _ hm)) (fun hm => hy (List.mem_cons_of_mem _ hm)) htail
      exact ⟨rfl, hzw⟩

/-- A key ends in a bar and a letter. -/
theorem instrumentSideKey_inj {i j : Str} {s t : Side} (h : instrumentSideKey i s = instrumentSideKey j t) : i = j ∧ s = t := by
  have hkey : ∀ s : Side, s.key.length = 1 := by rintro (_ | _) <;> rfl
  unfold instrumentSideKey at h
  obtain ⟨hij, hst⟩ := List.append_inj' h (by rw [hkey, hkey])
  refine ⟨(List.append_inj' hij rfl).1, ?_⟩
  cases s <;> cases t <;> first | rfl | exact absurd hst (by decide)

/-- A key begins with an account and a bar. -/
theorem concurrencyKey_inj {a b i j : Str} {s t : Side} (ha : 124 ∉ a) (hb : 124 ∉ b)
    (h : concurrencyKey a i s = concurrencyKey b j t) : a = b ∧ i = j ∧ s = t := by
  have hsplit : ∀ (a i : Str) s, concurrencyKey a i s = a ++ 124 :: instrumentSideKey i s := by
    intro a i s
    have hbar : ascii "|" = [124] := rfl
    simp [concurrencyKey, instrumentSideKey, hbar]
  rw [hsplit, hsplit] at h
  obtain ⟨rfl, hrest⟩ := append_bar_inj ha hb h
  exact ⟨rfl, instrumentSideKey_inj hrest⟩

/-! ## Events -/

/-- The order ids the books and the detector read of an event. -/
def Event.usedIds : Event P → List Str
  | .order o => match o.status with
    | .new => [o.orderId]
    | .cancelled => [o.origOrderId]
    | .replaced => [o.origOrderId, o.orderId]
  | .execution x => [x.orderId]

/-- The account the detector tracks an order under. -/
def Event.accounts : Event P → List Str
  | .order o => [o.accountId]
  | .execution _ => []

/-- The account has no bar in it, and the ids are the instrument's own exactly when the event is the instrument's. -/
structure Event.Fits (X : Str) (own : Str → Prop) (e : Event P) : Prop where
  account : ∀ a ∈ e.accounts, 124 ∉ a
  ids : ∀ id ∈ e.usedIds, own id ↔ e.instrumentId = X

/-! ## Agreement -/

namespace SpoofingLayeringDetector

variable [Double P] {X : Str} {own : Str → Prop} {d d' d'' : SpoofingLayeringDetector P}

/-- The events of an instrument cannot tell two detectors apart. -/
structure Agree (X : Str) (own : Str → Prop) (d d' : SpoofingLayeringDetector P) : Prop where
  config : d.config = d'.config
  tracked : ∀ id, own id → d.tracked.lookup id = d'.tracked.lookup id
  ambient : ∀ side, d.ambientByInstrumentSide.lookup (instrumentSideKey X side) =
    d'.ambientByInstrumentSide.lookup (instrumentSideKey X side)
  counts : ∀ account side, 124 ∉ account → d.concurrentCountByKey.lookup (concurrencyKey account X side) =
    d'.concurrentCountByKey.lookup (concurrencyKey account X side)

/-- Of the orders tracked, those on the instrument have its ids. -/
structure Owned (X : Str) (own : Str → Prop) (d : SpoofingLayeringDetector P) : Prop where
  account : ∀ id t, d.tracked.lookup id = some t → 124 ∉ t.accountId
  ids : ∀ id t, d.tracked.lookup id = some t → (own id ↔ t.instrumentId = X)

/-- Every state agrees with itself. -/
theorem Agree.refl (d : SpoofingLayeringDetector P) : Agree X own d d := ⟨rfl, fun _ _ => rfl, fun _ => rfl, fun _ _ _ => rfl⟩

/-- Agreement is symmetric. -/
theorem Agree.symm (h : Agree X own d d') : Agree X own d' d where
  config := h.config.symm
  tracked id hid := (h.tracked id hid).symm
  ambient side := (h.ambient side).symm
  counts account side ha := (h.counts account side ha).symm

/-- Agreement is transitive. -/
theorem Agree.trans (h : Agree X own d d') (h' : Agree X own d' d'') : Agree X own d d'' where
  config := h.config.trans h'.config
  tracked id hid := (h.tracked id hid).trans (h'.tracked id hid)
  ambient side := (h.ambient side).trans (h'.ambient side)
  counts account side ha := (h.counts account side ha).trans (h'.counts account side ha)

/-- Ownership reads the tracked orders only. -/
theorem Owned.congr (h : Owned X own d) (heq : d'.tracked = d.tracked) : Owned X own d' := ⟨heq ▸ h.account, heq ▸ h.ids⟩

/-! ### What agreeing detectors read -/

/-- Agreeing states hold the same ambient tracker for each side of `X`. -/
theorem Agree.ambient_eq (h : Agree X own d d') (side : Side) : d.ambient X side = d'.ambient X side := by
  unfold SpoofingLayeringDetector.ambient
  rw [h.ambient]

/-- Agreeing states count the same concurrent orders of an account on `X`, where the account's name has no `|`. -/
theorem Agree.countConcurrent (h : Agree X own d d') {account : Str} (ha : 124 ∉ account) (side : Side) :
    d.countConcurrentSameAccountSameSide account X side = d'.countConcurrentSameAccountSameSide account X side := by
  unfold countConcurrentSameAccountSameSide
  rw [h.counts _ _ ha]

/-- Agreeing states give the same recent rate of moves on `X`. -/
theorem Agree.recentMoveRate (h : Agree X own d d') (side : Side) : d.recentMoveRate X side = d'.recentMoveRate X side := by
  unfold SpoofingLayeringDetector.recentMoveRate
  rw [h.ambient, h.config]

/-- Agreeing states give an order on `X` the same move score. -/
theorem Agree.moveScore (h : Agree X own d d') {t : TrackedOrder P} (ht : t.instrumentId = X) (ns : ℤ) [LinearOrder P] :
    d.moveScore t ns = d'.moveScore t ns := by
  unfold SpoofingLayeringDetector.moveScore
  rw [ht, h.recentMoveRate, h.config]

/-- Agreeing states hold the same typical concurrency for an order on `X`. -/
theorem Agree.typicalConcurrent (h : Agree X own d d') {t : TrackedOrder P} (ht : t.instrumentId = X) :
    d.typicalConcurrent t = d'.typicalConcurrent t := by
  unfold SpoofingLayeringDetector.typicalConcurrent
  rw [ht, h.ambient]

/-! ### Trackers -/

/-- A tracker of another instrument is not read. -/
theorem setAmbient_other {i : Str} (hi : i ≠ X) (d : SpoofingLayeringDetector P) (side : Side) (tracker : AmbientTracker P) :
    Agree X own (d.setAmbient i side tracker) d where
  config := rfl
  tracked _ _ := rfl
  ambient _ := Finmap.lookup_insert_of_ne _ fun h => hi (instrumentSideKey_inj h).1.symm
  counts _ _ _ := rfl

/-- Storing the same tracker for a side of `X` keeps two states in agreement. -/
theorem Agree.setAmbient (h : Agree X own d d') (side : Side) (tracker : AmbientTracker P) :
    Agree X own (d.setAmbient X side tracker) (d'.setAmbient X side tracker) where
  config := h.config
  tracked := h.tracked
  ambient side' := by
    unfold SpoofingLayeringDetector.setAmbient
    by_cases hkey : instrumentSideKey X side' = instrumentSideKey X side
    · rw [hkey, Finmap.lookup_insert, Finmap.lookup_insert]
    · rw [Finmap.lookup_insert_of_ne _ hkey, Finmap.lookup_insert_of_ne _ hkey, h.ambient]
  counts := h.counts

section UpdateAmbient

variable [LinearOrder P] (book : OrderBook P) (ts : ℤ)

/-- An ambient update of another instrument is not seen from `X`. -/
theorem updateAmbient_other {i : Str} (hi : i ≠ X) (d : SpoofingLayeringDetector P) :
    Agree X own (d.updateAmbient book i ts) d :=
  (setAmbient_other hi _ _ _).trans (setAmbient_other hi _ _ _)

/-- The ambient update of a side of `X` keeps two states in agreement. -/
theorem Agree.updateAmbientSide (h : Agree X own d d') (side : Side) :
    Agree X own (d.updateAmbientSide book X ts side) (d'.updateAmbientSide book X ts side) := by
  unfold SpoofingLayeringDetector.updateAmbientSide
  simp only [h.ambient_eq, h.config]
  exact h.setAmbient _ _

/-- The ambient update of `X` keeps two states in agreement. -/
theorem Agree.updateAmbient (h : Agree X own d d') : Agree X own (d.updateAmbient book X ts) (d'.updateAmbient book X ts) :=
  (h.updateAmbientSide book ts _).updateAmbientSide book ts _

/-- Ambient updates do not touch the tracked orders, so ownership stays. -/
theorem Owned.updateAmbient (h : Owned X own d) (i : Str) : Owned X own (d.updateAmbient book i ts) := h.congr rfl

end UpdateAmbient

/-! ### Maps that agree at a key -/

section Maps

variable {V : Type} {m m' : Map Str V} {k : Str}

/-- Two maps with the same value at `k` have the same value there after the same insertion. -/
theorem lookup_insert_congr (h : m.lookup k = m'.lookup k) (key : Str) (v : V) :
    (m.insert key v).lookup k = (m'.insert key v).lookup k := by
  by_cases hk : k = key
  · rw [hk, Finmap.lookup_insert, Finmap.lookup_insert]
  · rw [Finmap.lookup_insert_of_ne _ hk, Finmap.lookup_insert_of_ne _ hk, h]

/-- Likewise after the same erasure. -/
theorem lookup_erase_congr (h : m.lookup k = m'.lookup k) (key : Str) : (m.erase key).lookup k = (m'.erase key).lookup k := by
  by_cases hk : k = key
  · rw [hk, Finmap.lookup_erase, Finmap.lookup_erase]
  · rw [Finmap.lookup_erase_ne hk, Finmap.lookup_erase_ne hk, h]

/-- What `erase_tracked` does to the counts. -/
def uncount (counts : Map Str ℤ) (key : Str) : Map Str ℤ :=
  match counts.lookup key with
  | none => counts
  | some count => if count - 1 ≤ 0 then counts.erase key else counts.insert key (count - 1)

/-- Decrementing one key's count leaves the others as they were. -/
theorem lookup_uncount_of_ne (counts : Map Str ℤ) {key k : Str} (h : k ≠ key) : (uncount counts key).lookup k = counts.lookup k := by
  unfold uncount
  split
  · rfl
  · split
    · exact Finmap.lookup_erase_ne h
    · exact Finmap.lookup_insert_of_ne _ h

/-- Decrementing the same key in two maps that agree there and at `k` leaves them agreeing at `k`. -/
theorem lookup_uncount_congr {counts counts' : Map Str ℤ} {key k : Str} (hkey : counts.lookup key = counts'.lookup key)
    (h : counts.lookup k = counts'.lookup k) : (uncount counts key).lookup k = (uncount counts' key).lookup k := by
  unfold uncount
  rw [hkey]
  split
  · exact h
  · split
    · exact lookup_erase_congr h key
    · exact lookup_insert_congr h key _

end Maps

/-! ### Orders tracked -/

/-- Erasing an id that is not tracked changes nothing. -/
theorem eraseTracked_of_none {id : Str} (h : d.tracked.lookup id = none) : d.eraseTracked id = (d, none) := by
  unfold eraseTracked
  rw [h]

/-- What erasing a tracked id changes, and the order it hands back. -/
theorem eraseTracked_of_some {id : Str} {t : TrackedOrder P} (h : d.tracked.lookup id = some t) :
    d.eraseTracked id = ({ d with
      tracked := d.tracked.erase id
      concurrentCountByKey := uncount d.concurrentCountByKey (concurrencyKey t.accountId t.instrumentId t.side) }, some t) := by
  unfold eraseTracked
  rw [h]
  rfl

/-- An order of another instrument is erased unnoticed. -/
theorem Owned.eraseTracked_other (h : Owned X own d) {id : Str} (hid : ¬own id) : Agree X own (d.eraseTracked id).1 d := by
  cases ht : d.tracked.lookup id with
  | none =>
    rw [eraseTracked_of_none ht]
    exact .refl d
  | some t =>
    have hX : t.instrumentId ≠ X := fun hX => hid ((h.ids id t ht).2 hX)
    rw [eraseTracked_of_some ht]
    refine ⟨rfl, fun id' hown => Finmap.lookup_erase_ne fun heq => hid (heq ▸ hown), fun _ => rfl, fun account side ha => ?_⟩
    exact lookup_uncount_of_ne _ fun heq => hX (concurrencyKey_inj ha (h.account id t ht) heq).2.1.symm

/-- Erasing an id of `X` in two agreeing states keeps them in agreement and hands back the same order. -/
theorem Agree.eraseTracked (h : Agree X own d d') (ho : Owned X own d) {id : Str} (hid : own id) :
    Agree X own (d.eraseTracked id).1 (d'.eraseTracked id).1 ∧ (d.eraseTracked id).2 = (d'.eraseTracked id).2 := by
  have hlookup := h.tracked id hid
  cases ht : d.tracked.lookup id with
  | none =>
    rw [eraseTracked_of_none ht, eraseTracked_of_none (hlookup.symm.trans ht)]
    exact ⟨h, rfl⟩
  | some t =>
    rw [eraseTracked_of_some ht, eraseTracked_of_some (hlookup.symm.trans ht)]
    refine ⟨⟨h.config, fun id' hown => lookup_erase_congr (h.tracked id' hown) id, h.ambient, fun account side ha => ?_⟩, rfl⟩
    have hX : t.instrumentId = X := (ho.ids id t ht).1 hid
    refine lookup_uncount_congr ?_ (h.counts _ _ ha)
    rw [hX]
    exact h.counts _ _ (ho.account id t ht)

/-- Erasing an id keeps ownership. -/
theorem Owned.eraseTracked (h : Owned X own d) (id : Str) : Owned X own (d.eraseTracked id).1 := by
  cases ht : d.tracked.lookup id with
  | none =>
    rw [eraseTracked_of_none ht]
    exact h
  | some t =>
    rw [eraseTracked_of_some ht]
    have hold : ∀ id' t', (d.tracked.erase id).lookup id' = some t' → d.tracked.lookup id' = some t' := by
      intro id' t' ht'
      by_cases hid : id' = id
      · rw [hid, Finmap.lookup_erase] at ht'
        nomatch ht'
      · rwa [Finmap.lookup_erase_ne hid] at ht'
    exact ⟨fun id' t' ht' => h.account id' t' (hold id' t' ht'), fun id' t' ht' => h.ids id' t' (hold id' t' ht')⟩

/-- An entry is made or assigned to. -/
theorem Owned.insert (h : Owned X own d) {id : Str} {t : TrackedOrder P} (ha : 124 ∉ t.accountId)
    (hid : own id ↔ t.instrumentId = X) (heq : d'.tracked = d.tracked.insert id t) : Owned X own d' := by
  have hcases : ∀ id' t', d'.tracked.lookup id' = some t' → (id' = id ∧ t' = t) ∨ d.tracked.lookup id' = some t' := by
    intro id' t' ht'
    rw [heq] at ht'
    by_cases hid : id' = id
    · rw [hid, Finmap.lookup_insert] at ht'
      exact .inl ⟨hid, (Option.some.inj ht').symm⟩
    · rw [Finmap.lookup_insert_of_ne _ hid] at ht'
      exact .inr ht'
  constructor
  · intro id' t' ht'
    rcases hcases id' t' ht' with ⟨-, rfl⟩ | hold
    · exact ha
    · exact h.account id' t' hold
  · intro id' t' ht'
    rcases hcases id' t' ht' with ⟨rfl, rfl⟩ | hold
    · exact hid
    · exact h.ids id' t' hold

/-- Lowering the remaining quantity of a tracked order keeps ownership. -/
theorem Owned.fill (h : Owned X own d) {id : Str} {t : TrackedOrder P} (ht : d.tracked.lookup id = some t) {qty : ℤ}
    (heq : d'.tracked = d.tracked.insert id { t with remainingQty := qty }) : Owned X own d' :=
  h.insert (t := { t with remainingQty := qty }) (h.account id t ht) (h.ids id t ht) heq

section Handlers

variable [LinearOrder P] {book : OrderBook P} {o : Order P}

/-- Tracking an order whose id is owned exactly when it is on `X` keeps ownership. -/
theorem Owned.trackNew (h : Owned X own d) (ha : 124 ∉ o.accountId) (hid : own o.orderId ↔ o.instrumentId = X) :
    Owned X own (d.trackNew book o) := by
  have htracked : ∃ t, (d.trackNew book o).tracked = d.tracked.insert o.orderId t ∧ t.accountId = o.accountId ∧
    t.instrumentId = o.instrumentId := ⟨_, rfl, rfl, rfl⟩
  obtain ⟨t, ht, haccount, hinstrument⟩ := htracked
  exact h.insert (haccount ▸ ha) (hinstrument ▸ hid) ht

/-- Tracking an order of another instrument is not seen from `X`. -/
theorem trackNew_other (d : SpoofingLayeringDetector P) (ha : 124 ∉ o.accountId) (hi : o.instrumentId ≠ X) (hid : ¬own o.orderId) :
    Agree X own (d.trackNew book o) d := by
  unfold trackNew
  refine (setAmbient_other hi _ _ _).trans ⟨rfl, fun id hown => ?_, fun _ => rfl, fun account side haccount => ?_⟩
  · exact Finmap.lookup_insert_of_ne _ fun h => hid (h ▸ hown)
  · exact Finmap.lookup_insert_of_ne _ fun h => hi (concurrencyKey_inj haccount ha h).2.1.symm

/-- Tracking the same order of `X` keeps two states in agreement. -/
theorem Agree.trackNew (h : Agree X own d d') (ha : 124 ∉ o.accountId) (hi : o.instrumentId = X) :
    Agree X own (d.trackNew book o) (d'.trackNew book o) := by
  subst hi
  have hentry : ∀ t n, Agree o.instrumentId own
      { d with
        tracked := d.tracked.insert o.orderId t
        concurrentCountByKey := d.concurrentCountByKey.insert (concurrencyKey o.accountId o.instrumentId o.side) n }
      { d' with
        tracked := d'.tracked.insert o.orderId t
        concurrentCountByKey := d'.concurrentCountByKey.insert (concurrencyKey o.accountId o.instrumentId o.side) n } := by
    intro t n
    exact ⟨h.config, fun id hown => lookup_insert_congr (h.tracked id hown) _ _, h.ambient,
      fun account side haccount => lookup_insert_congr (h.counts _ _ haccount) _ _⟩
  unfold SpoofingLayeringDetector.trackNew
  simp only [h.counts _ _ ha]
  rw [(hentry _ _).ambient_eq]
  exact (hentry _ _).setAmbient _ _

omit [LinearOrder P] in
/-- An Execution keeps ownership. -/
theorem Owned.handleExecution (h : Owned X own d) (x : Execution P) : Owned X own (d.handleExecution x) := by
  unfold SpoofingLayeringDetector.handleExecution
  split
  · exact h
  · rename_i t ht
    simp only
    split
    · exact (h.fill ht rfl).eraseTracked _
    · exact h.fill ht rfl

omit [LinearOrder P] in
/-- An Execution against an id that `X` does not own is not seen from `X`. -/
theorem Owned.handleExecution_other (h : Owned X own d) {x : Execution P} (hid : ¬own x.orderId) :
    Agree X own (d.handleExecution x) d := by
  unfold SpoofingLayeringDetector.handleExecution
  split
  · exact .refl d
  · rename_i t ht
    have hagree : Agree X own { d with
        tracked := d.tracked.insert x.orderId { t with remainingQty := wrap64 (t.remainingQty - x.qty) } } d :=
      ⟨rfl, fun id hown => Finmap.lookup_insert_of_ne _ fun heq => hid (heq ▸ hown), fun _ => rfl, fun _ _ _ => rfl⟩
    simp only
    split
    · exact ((h.fill ht rfl).eraseTracked_other hid).trans hagree
    · exact hagree

omit [LinearOrder P] in
/-- An Execution against an id of `X` keeps two states in agreement. -/
theorem Agree.handleExecution (h : Agree X own d d') (ho : Owned X own d) {x : Execution P} (hid : own x.orderId) :
    Agree X own (d.handleExecution x) (d'.handleExecution x) := by
  unfold SpoofingLayeringDetector.handleExecution
  rw [h.tracked _ hid]
  split
  · exact h
  · rename_i t ht
    have ht : d.tracked.lookup x.orderId = some t := (h.tracked _ hid).trans ht
    have hagree : Agree X own
        { d with tracked := d.tracked.insert x.orderId { t with remainingQty := wrap64 (t.remainingQty - x.qty) } }
        { d' with tracked := d'.tracked.insert x.orderId { t with remainingQty := wrap64 (t.remainingQty - x.qty) } } :=
      ⟨h.config, fun id hown => lookup_insert_congr (h.tracked id hown) _ _, h.ambient, h.counts⟩
    simp only
    split
    · exact (hagree.eraseTracked (ho.fill ht rfl) hid).1
    · exact hagree

/-- An alert for another instrument. -/
theorem Owned.handleCancel_other (h : Owned X own d) (hid : ¬own o.origOrderId) :
    ∀ a ∈ (d.handleCancel book o).2, a.instrumentId ≠ X := by
  intro a ha
  unfold handleCancel at ha
  split at ha
  · nomatch ha
  · rename_i d' t heq
    simp only [apply_ite Prod.snd, List.mem_ite_nil_left, List.mem_singleton] at ha
    obtain ⟨-, -, rfl⟩ := ha
    exact fun hX => hid ((h.ids _ t (lookup_of_eraseTracked heq)).2 hX)

/-- A Cancel of the instrument is scored alike. -/
theorem Agree.handleCancel (h : Agree X own d d') (ho : Owned X own d) (hid : own o.origOrderId) :
    (d.handleCancel book o).2 = (d'.handleCancel book o).2 := by
  obtain ⟨herase, hresult⟩ := h.eraseTracked ho hid
  cases ht : d.tracked.lookup o.origOrderId with
  | none =>
    unfold SpoofingLayeringDetector.handleCancel
    rw [eraseTracked_of_none ht, eraseTracked_of_none ((h.tracked _ hid).symm.trans ht)]
  | some t =>
    have hX : t.instrumentId = X := (ho.ids _ t ht).1 hid
    have ha := ho.account _ t ht
    subst hX
    have hscore := herase.moveScore (t := t) rfl
    have htypical := herase.typicalConcurrent (t := t) rfl
    have hcount := herase.countConcurrent ha t.side
    have hconfig := herase.config
    have hd := eraseTracked_of_some ht
    have hd' := eraseTracked_of_some ((h.tracked _ hid).symm.trans ht)
    unfold SpoofingLayeringDetector.handleCancel
    generalize d.eraseTracked o.origOrderId = r at *
    generalize d'.eraseTracked o.origOrderId = r' at *
    subst hd hd'
    simp only at *
    split
    · rfl
    · rw [hscore, htypical, hcount, hconfig, apply_ite Prod.snd, apply_ite Prod.snd]

/-! ### Events -/

/-- `evaluate` of a New order: the ambient update, then tracking. -/
theorem evaluate_new (d : SpoofingLayeringDetector P) (book : OrderBook P) (hst : o.status = .new) :
    d.evaluate book (.order o) = ((d.updateAmbient book o.instrumentId o.timestampNs).trackNew book o, []) := by
  unfold evaluate
  simp only [hst]

/-- `evaluate` of a Cancel: the ambient update, then `handleCancel`. -/
theorem evaluate_cancelled (d : SpoofingLayeringDetector P) (book : OrderBook P) (hst : o.status = .cancelled) :
    d.evaluate book (.order o) = (d.updateAmbient book o.instrumentId o.timestampNs).handleCancel book o := by
  unfold evaluate
  simp only [hst]

/-- `evaluate` of a Replace: the ambient update, the erasure of the old id, then tracking. -/
theorem evaluate_replaced (d : SpoofingLayeringDetector P) (book : OrderBook P) (hst : o.status = .replaced) :
    d.evaluate book (.order o) = (((d.updateAmbient book o.instrumentId o.timestampNs).eraseTracked o.origOrderId).1.trackNew
      book o, []) := by
  unfold evaluate handleReplace
  simp only [hst]

omit [LinearOrder P] in
/-- Erasing an id leaves the configuration alone. -/
theorem eraseTracked_config (d : SpoofingLayeringDetector P) (id : Str) : (d.eraseTracked id).1.config = d.config := by
  unfold eraseTracked
  split <;> rfl

/-- No event changes the configuration. -/
theorem evaluate_config (d : SpoofingLayeringDetector P) (book : OrderBook P) (e : Event P) : (d.evaluate book e).1.config = d.config := by
  cases e with
  | execution x =>
    show ((d.updateAmbient book x.instrumentId x.timestampNs).handleExecution x).config = d.config
    unfold handleExecution
    split
    · rfl
    · simp only
      split
      · exact eraseTracked_config _ _
      · rfl
  | order o =>
    cases hst : o.status with
    | new =>
      rw [evaluate_new d book hst]
      rfl
    | cancelled =>
      rw [evaluate_cancelled d book hst, handleCancel_fst]
      exact eraseTracked_config _ _
    | replaced =>
      rw [evaluate_replaced d book hst]
      exact eraseTracked_config _ _

/-- An event keeps the ids of tracked orders with their instruments. -/
theorem Owned.evaluate (h : Owned X own d) {e : Event P} (he : e.Fits X own) (book : OrderBook P) :
    Owned X own (d.evaluate book e).1 := by
  cases e with
  | execution x => exact (h.updateAmbient _ _ _).handleExecution x
  | order o =>
    have ha := he.account o.accountId (List.mem_singleton_self _)
    have hambient := h.updateAmbient book o.timestampNs o.instrumentId
    cases hst : o.status with
    | new =>
      rw [evaluate_new d book hst]
      exact hambient.trackNew ha (he.ids _ (by simp [Event.usedIds, hst]))
    | cancelled =>
      rw [evaluate_cancelled d book hst, handleCancel_fst]
      exact hambient.eraseTracked _
    | replaced =>
      rw [evaluate_replaced d book hst]
      exact (hambient.eraseTracked _).trackNew ha (he.ids _ (by simp [Event.usedIds, hst]))

/-- An event of another instrument leads to a detector that agrees with the one before, and its alerts are not for the instrument. -/
theorem Owned.evaluate_other (h : Owned X own d) {e : Event P} (he : e.Fits X own) (hX : e.instrumentId ≠ X)
    (book : OrderBook P) :
    Agree X own (d.evaluate book e).1 d ∧ ∀ a ∈ (d.evaluate book e).2, a.instrumentId ≠ X := by
  have hids : ∀ id ∈ e.usedIds, ¬own id := fun id hid hown => hX ((he.ids id hid).1 hown)
  cases e with
  | execution x =>
    refine ⟨?_, fun a ha => nomatch ha⟩
    exact ((h.updateAmbient _ _ _).handleExecution_other (hids _ (List.mem_singleton_self _))).trans
      (updateAmbient_other book x.timestampNs hX d)
  | order o =>
    have ha := he.account o.accountId (List.mem_singleton_self _)
    have hambient : Agree X own (d.updateAmbient book o.instrumentId o.timestampNs) d := updateAmbient_other book _ hX d
    have howned := h.updateAmbient book o.timestampNs o.instrumentId
    cases hst : o.status with
    | new =>
      rw [evaluate_new d book hst]
      exact ⟨(trackNew_other _ ha hX (hids _ (by simp [Event.usedIds, hst]))).trans hambient, fun a ha => nomatch ha⟩
    | cancelled =>
      have hid := hids o.origOrderId (by simp [Event.usedIds, hst])
      rw [evaluate_cancelled d book hst, handleCancel_fst]
      exact ⟨(howned.eraseTracked_other hid).trans hambient, howned.handleCancel_other hid⟩
    | replaced =>
      have horig := hids o.origOrderId (by simp [Event.usedIds, hst])
      rw [evaluate_replaced d book hst]
      refine ⟨?_, fun a ha => nomatch ha⟩
      exact (trackNew_other _ ha hX (hids _ (by simp [Event.usedIds, hst]))).trans ((howned.eraseTracked_other horig).trans hambient)

/-- An event of the instrument keeps two detectors in agreement, and they raise the same alerts. -/
theorem Agree.evaluate (h : Agree X own d d') (ho : Owned X own d) {e : Event P} (he : e.Fits X own) (hX : e.instrumentId = X)
    (book : OrderBook P) :
    Agree X own (d.evaluate book e).1 (d'.evaluate book e).1 ∧ (d.evaluate book e).2 = (d'.evaluate book e).2 := by
  have hids : ∀ id ∈ e.usedIds, own id := fun id hid => (he.ids id hid).2 hX
  subst hX
  cases e with
  | execution x =>
    exact ⟨(h.updateAmbient _ _).handleExecution (ho.updateAmbient _ _ _) (hids _ (List.mem_singleton_self _)), rfl⟩
  | order o =>
    have ha := he.account o.accountId (List.mem_singleton_self _)
    have hambient := h.updateAmbient book o.timestampNs
    have howned := ho.updateAmbient book o.timestampNs o.instrumentId
    cases hst : o.status with
    | new =>
      rw [evaluate_new d book hst, evaluate_new d' book hst]
      exact ⟨hambient.trackNew ha rfl, rfl⟩
    | cancelled =>
      have hid := hids o.origOrderId (by simp [Event.usedIds, hst])
      rw [evaluate_cancelled d book hst, evaluate_cancelled d' book hst, handleCancel_fst, handleCancel_fst]
      exact ⟨(hambient.eraseTracked howned hid).1, hambient.handleCancel howned hid⟩
    | replaced =>
      have hid := hids o.origOrderId (by simp [Event.usedIds, hst])
      rw [evaluate_replaced d book hst, evaluate_replaced d' book hst]
      exact ⟨(hambient.eraseTracked howned hid).1.trackNew ha rfl, rfl⟩

end Handlers

end SpoofingLayeringDetector

end TradeSurveillance
