import Mathlib.Algebra.Order.BigOperators.Group.List
import TradeSurveillance.Lemmas.SpoofingView
import TradeSurveillance.Theorems.ClosingGroups

/-!
# The volume of a group at the close

Volumes are kept by account and added up over the group when it is checked. An execution between two accounts of the group is counted
for both: `closing_volume_sound_iff` says that these are the executions for which an alert is wrong, as long as the volume of the
instrument's window is an `int64_t`.
-/

namespace TradeSurveillance

/-! ## Counting by account -/

/-- Where no element belongs to two owners, what they own one after another is what is owned. -/
theorem flatMap_filter_perm {α β : Type*} {owners : List β} {xs : List α} {owns : β → α → Bool}
    (h : owners.Pairwise fun m m' => ∀ x ∈ xs, owns m x = true → owns m' x = false) :
    (owners.flatMap fun m => xs.filter (owns m)).Perm (xs.filter fun x => owners.any fun m => owns m x) := by
  induction owners with
  | nil => simp
  | cons m owners ih =>
    obtain ⟨hm, hrest⟩ := List.pairwise_cons.1 h
    rw [List.flatMap_cons]
    refine ((ih hrest).append_left _).trans ?_
    refine List.Perm.trans (.of_eq ?_) (List.filter_append_perm (owns m) _)
    rw [List.filter_filter, List.filter_filter]
    refine congr_arg₂ _ (List.filter_congr fun x _ => ?_) (List.filter_congr fun x hx => ?_)
    · cases hmx : owns m x <;> simp [hmx]
    · cases hmx : owns m x with
      | false => simp [hmx]
      | true =>
        rw [Bool.not_true, Bool.false_and, List.any_eq_false]
        intro m' hm'
        rw [hm m' hm' x hx hmx]
        exact Bool.false_ne_true

/-- What two elements of a list both yield is there at least twice. -/
theorem two_le_count_flatMap {α β : Type*} [BEq α] [LawfulBEq α] [DecidableEq β] {l : List β} {f : β → List α} {b c : β} {x : α}
    (hb : b ∈ l) (hc : c ∈ l) (hne : b ≠ c) (hxb : x ∈ f b) (hxc : x ∈ f c) : 2 ≤ (l.flatMap f).count x := by
  have hc' : c ∈ l.erase b := (List.mem_erase_of_ne hne.symm).2 hc
  have hperm : l.Perm (b :: c :: (l.erase b).erase c) := (List.perm_cons_erase hb).trans ((List.perm_cons_erase hc').cons b)
  rw [(hperm.flatMap_right f).count_eq, List.flatMap_cons, List.flatMap_cons, List.count_append, List.count_append]
  have hxb' := List.count_pos_iff.2 hxb
  have hxc' := List.count_pos_iff.2 hxc
  omega

namespace MarkingTheCloseDetector

variable {P : Type} [Double P]

/-- An event that is an execution in the window before the close of its instrument. -/
def windowExecution (config : MarkingTheCloseConfig P) : OrderBook P × Event P → Option (Execution P)
  | (_, .order _) => none
  | (_, .execution x) => if inWindow config x then some x else none

/-- The executions in the windows, of all instruments. -/
def windowExecutions (config : MarkingTheCloseConfig P) (stream : Stream P) : List (Execution P) :=
  stream.filterMap (windowExecution config)

omit [Double P] in
/-- Keys of instruments without a bar are those of one instrument and account. -/
theorem keyFor_inj {i j a b : Str} (hi : 124 ∉ i) (hj : 124 ∉ j) (h : keyFor i a = keyFor j b) : i = j ∧ a = b := by
  have hbar : ascii "|" = [124] := rfl
  simp only [keyFor, hbar, List.append_assoc, List.singleton_append] at h
  exact append_bar_inj hi hj h

/-- An execution of an instrument that has an account on one of its sides. -/
def owns (i a : Str) (x : Execution P) : Bool := x.instrumentId = i ∧ a ∈ sides x

omit [Double P] in
/-- An execution of an account is of the instrument and has it on a side. -/
theorem owns_iff {i a : Str} {x : Execution P} : owns i a x = true ↔ x.instrumentId = i ∧ a ∈ sides x := decide_eq_true_iff

/-! ## The volumes kept -/

/-- The volumes are those of the executions, in 64 bits. -/
structure Tallied (xs : List (Execution P)) (d : MarkingTheCloseDetector P) : Prop where
  total : ∀ i, (d.totalWindowQty.lookup i).getD 0 = wrap64 ((xs.filter fun x => x.instrumentId = i).map (·.qty)).sum
  qty : ∀ i a, 124 ∉ i → d.windowQty i a = wrap64 ((xs.filter (owns i a)).map (·.qty)).sum
  tradeIds : ∀ i a, 124 ∉ i → d.tradeIds i a = (xs.filter (owns i a)).map (·.tradeId)

variable {d : MarkingTheCloseDetector P} {xs : List (Execution P)} {x : Execution P}

/-- Crediting an account adds the quantity to its volume, in 64 bits. -/
theorem windowQty_credit {i a b : Str} (hx : 124 ∉ x.instrumentId) (hi : 124 ∉ i) :
    (d.credit x b).windowQty i a =
      if x.instrumentId = i ∧ a = b then wrap64 (d.windowQty i a + x.qty) else d.windowQty i a := by
  unfold windowQty credit
  split_ifs with h
  · obtain ⟨rfl, rfl⟩ := h
    rw [Finmap.lookup_insert]
    rfl
  · rw [Finmap.lookup_insert_of_ne _ fun heq => h ((keyFor_inj hi hx heq).imp Eq.symm id)]

/-- Crediting an account adds the trade id to its trades. -/
theorem tradeIds_credit {i a b : Str} (hx : 124 ∉ x.instrumentId) (hi : 124 ∉ i) :
    (d.credit x b).tradeIds i a = d.tradeIds i a ++ if x.instrumentId = i ∧ a = b then [x.tradeId] else [] := by
  unfold tradeIds credit
  split_ifs with h
  · obtain ⟨rfl, rfl⟩ := h
    rw [Finmap.lookup_insert]
    rfl
  · rw [Finmap.lookup_insert_of_ne _ fun heq => h ((keyFor_inj hi hx heq).imp Eq.symm id), List.append_nil]

/-- Crediting accounts one after another credits each of them, and changes no total. -/
theorem foldl_credit {as : List Str} (has : as.Nodup) (hx : 124 ∉ x.instrumentId) :
    (as.foldl (fun d a => d.credit x a) d).totalWindowQty = d.totalWindowQty ∧ ∀ i a, 124 ∉ i →
      (as.foldl (fun d a => d.credit x a) d).windowQty i a =
        (if x.instrumentId = i ∧ a ∈ as then wrap64 (d.windowQty i a + x.qty) else d.windowQty i a) ∧
      (as.foldl (fun d a => d.credit x a) d).tradeIds i a =
        d.tradeIds i a ++ if x.instrumentId = i ∧ a ∈ as then [x.tradeId] else [] := by
  induction as generalizing d with
  | nil => simp
  | cons b as ih =>
    obtain ⟨hb, has⟩ := List.nodup_cons.1 has
    obtain ⟨htotal, hcredits⟩ := ih (d := d.credit x b) has
    refine ⟨htotal, ?_⟩
    intro i a hi
    obtain ⟨hqty, hids⟩ := hcredits i a hi
    rw [List.foldl_cons, hqty, hids, windowQty_credit hx hi, tradeIds_credit hx hi]
    by_cases hab : a = b
    · subst hab
      simp [hb]
    · simp [hab]

/-- A trade counted keeps the volumes those of the executions. -/
theorem Tallied.counted (h : Tallied xs d) (hx : 124 ∉ x.instrumentId) : Tallied (xs ++ [x]) (d.counted x) := by
  obtain ⟨htotal, hcredits⟩ := foldl_credit (nodup_sides x) hx (d := { d with
    totalWindowQty :=
      d.totalWindowQty.insert x.instrumentId (wrap64 ((d.totalWindowQty.lookup x.instrumentId).getD 0 + x.qty)) })
  refine ⟨fun i => ?_, fun i a hi => ?_, fun i a hi => ?_⟩
  · rw [MarkingTheCloseDetector.counted, htotal, List.filter_append, List.map_append, List.sum_append]
    by_cases hxi : x.instrumentId = i
    · subst hxi
      rw [Finmap.lookup_insert, Option.getD_some, h.total, wrap64_add_left]
      simp
    · rw [Finmap.lookup_insert_of_ne _ (Ne.symm hxi)]
      simp [hxi, h.total]
  · rw [MarkingTheCloseDetector.counted, (hcredits i a hi).1, List.filter_append, List.map_append, List.sum_append]
    have hold := h.qty i a hi
    unfold windowQty at hold
    by_cases hxi : x.instrumentId = i ∧ a ∈ sides x
    · rw [if_pos hxi, List.filter_cons_of_pos (owns_iff.2 hxi)]
      simp [windowQty, hold]
    · rw [if_neg hxi, List.filter_cons_of_neg (mt owns_iff.1 hxi)]
      simp [windowQty, hold]
  · rw [MarkingTheCloseDetector.counted, (hcredits i a hi).2, List.filter_append, List.map_append, ← h.tradeIds i a hi]
    by_cases hxi : x.instrumentId = i ∧ a ∈ sides x
    · rw [if_pos hxi, List.filter_cons_of_pos (owns_iff.2 hxi)]
      simp [MarkingTheCloseDetector.tradeIds]
    · rw [if_neg hxi, List.filter_cons_of_neg (mt owns_iff.1 hxi)]
      simp [MarkingTheCloseDetector.tradeIds]

/-! ## Runs -/

variable [LinearOrder P] {accounts : AccountRegistry}

/-- What a series of checks leaves alone, and the accounts seen after it. -/
theorem CheckedAll.frame {i : Str} {as : List Str} {r : MarkingTheCloseDetector P × List (Alert P)}
    (h : CheckedAll accounts i d as r) (hd : Grouped accounts d.allAccountsSeen d.groupParent) :
    Grouped accounts r.1.allAccountsSeen r.1.groupParent ∧ r.1 = { d with
      groupParent := r.1.groupParent, allAccountsSeen := as.foldl register d.allAccountsSeen, alerted := r.1.alerted } := by
  induction h with
  | nil d => exact ⟨hd, rfl⟩
  | cons hfirst _ ih =>
    obtain ⟨hgrouped, hrest⟩ := ih hfirst.grouped
    refine ⟨hgrouped, ?_⟩
    cases hfirst with
    | silent => exact hrest
    | fired => exact hrest

/-- Which check an alert comes from. -/
theorem CheckedAll.fired {i : Str} {as : List Str} {r : MarkingTheCloseDetector P × List (Alert P)} {alert : Alert P}
    (h : CheckedAll accounts i d as r) (halert : alert ∈ r.2) : ∃ before a, before ++ [a] <+: as ∧ alert.instrumentId = i ∧
      IsGroup accounts (register (before.foldl register d.allAccountsSeen) a) a alert.accountIds ∧
      ¬d.shareOf i alert.accountIds < d.config.concentrationThreshold ∧
      alert.orderIds = alert.accountIds.flatMap (d.tradeIds i) := by
  induction h with
  | nil d => nomatch halert
  | @cons d d₁ d₂ a as alert' alerts hfirst _ ih =>
    rcases List.mem_append.1 halert with halert | halert
    · cases hfirst with
      | silent => nomatch halert
      | fired _ hgroup _ hshare hinstrument horderIds =>
        obtain rfl : alert = _ := by simpa using halert
        exact ⟨[], a, List.prefix_iff_eq_append.2 rfl, hinstrument, hgroup, hshare, horderIds⟩
    · obtain ⟨before, b, hprefix, hinstrument, hgroup, hshare, horderIds⟩ := ih halert
      have hprefix' : a :: before ++ [b] <+: a :: as := (List.prefix_cons_inj a).2 hprefix
      cases hfirst with
      | silent => exact ⟨a :: before, b, hprefix', hinstrument, hgroup, hshare, horderIds⟩
      | fired => exact ⟨a :: before, b, hprefix', hinstrument, hgroup, hshare, horderIds⟩

/-- What the detector knows after a stream. -/
structure Remembers (config : MarkingTheCloseConfig P) (accounts : AccountRegistry) (xs : List (Execution P))
    (d : MarkingTheCloseDetector P) : Prop where
  config : d.config = config
  nodup : d.allAccountsSeen.Nodup
  grouped : Grouped accounts d.allAccountsSeen d.groupParent
  seen : ∀ a, a ∈ d.allAccountsSeen ↔ a ∈ xs.flatMap sides
  tallied : Tallied xs d

omit [LinearOrder P] in
/-- One more event may be one more execution in the window. -/
theorem windowExecutions_concat {config : MarkingTheCloseConfig P} (stream : Stream P) (y : OrderBook P × Event P) :
    windowExecutions config (stream ++ [y]) = windowExecutions config stream ++ (windowExecution config y).toList := by
  cases hy : windowExecution config y <;> simp [windowExecutions, hy]

/-- One event keeps what the detector remembers. -/
theorem Remembers.evaluate {config : MarkingTheCloseConfig P} {stream : Stream P}
    (h : Remembers config accounts (windowExecutions config stream) d) (y : OrderBook P × Event P)
    (hbar : ∀ x ∈ windowExecution config y, 124 ∉ x.instrumentId) :
    Remembers config accounts (windowExecutions config (stream ++ [y])) (d.evaluate y.1 y.2 accounts).1 := by
  rw [windowExecutions_concat]
  obtain ⟨book, o | x⟩ := y
  · simpa [windowExecution, MarkingTheCloseDetector.evaluate] using h
  · cases hx : inWindow config x with
    | false => simpa [windowExecution, hx, evaluate_of_not_inWindow book (h.config ▸ hx)] using h
    | true =>
      have hwindow : windowExecution config (book, .execution x) = some x := by simp [windowExecution, hx]
      obtain ⟨hgrouped, hframe⟩ := (evaluate_of_inWindow book h.grouped h.nodup (h.config ▸ hx)).frame (by simpa using h.grouped)
      have htallied := h.tallied.counted (hbar x hwindow)
      rw [hwindow, Option.toList_some]
      refine ⟨?_, ?_, hgrouped, fun a => ?_, ?_⟩
      · rw [hframe]
        simpa using h.config
      · rw [hframe]
        exact nodup_foldl_register (by simpa using h.nodup)
      · rw [hframe]
        simp [mem_foldl_register, h.seen]
      · rw [hframe]
        exact ⟨htallied.total, htallied.qty, htallied.tradeIds⟩

/-- After a stream the detector remembers its executions in the windows. -/
theorem knows_run (config : MarkingTheCloseConfig P) (order : HashOrder) (accounts : AccountRegistry) (stream : Stream P)
    (hbar : ∀ x ∈ windowExecutions config stream, 124 ∉ x.instrumentId) :
    Remembers config accounts (windowExecutions config stream) (run config order accounts stream).1 := by
  induction stream using List.reverseRecOn with
  | nil =>
    have hr := reported_run config order accounts []
    exact ⟨rfl, hr.seen, hr.grouped, fun a => Iff.rfl, fun i => rfl, fun i a _ => rfl, fun i a _ => rfl⟩
  | append_singleton stream y ih =>
    rw [windowExecutions_concat] at hbar
    rw [run_concat]
    exact (ih fun x hx => hbar x (List.mem_append_left _ hx)).evaluate y fun x hx =>
      hbar x (List.mem_append_right _ (Option.mem_toList.2 hx))

/-! ## Alerts -/

/-- The executions of an alert's instrument that have one of its accounts on a side. -/
def touching (xs : List (Execution P)) (alert : Alert P) : List (Execution P) :=
  xs.filter fun x => alert.accountIds.any fun a => owns alert.instrumentId a x

/-- The volume of an alert's accounts is at least the configured part of the window's, and the alert names each of their trades once. -/
def Sound (config : MarkingTheCloseConfig P) (xs : List (Execution P)) (alert : Alert P) : Prop :=
  ¬((((touching xs alert).map (·.qty)).sum : ℤ) : P) / (((xs.filter fun x => x.instrumentId = alert.instrumentId).map (·.qty)).sum : ℤ) <
      config.concentrationThreshold ∧
    ∀ x ∈ touching xs alert, alert.orderIds.count x.tradeId = 1

instance (config : MarkingTheCloseConfig P) (xs : List (Execution P)) (alert : Alert P) : Decidable (Sound config xs alert) :=
  inferInstanceAs (Decidable (_ ∧ _))

/-- The execution is between two accounts of a group. -/
def Internal (group : Str → Prop) (x : Execution P) : Prop := ∃ b ∈ sides x, ∃ c ∈ sides x, b ≠ c ∧ group b ∧ group c

omit [Double P] [LinearOrder P] in
/-- Part of a window has no more volume than the window. -/
theorem sum_qty_le_of_sublist {ys zs : List (Execution P)} (h : ys.Sublist zs) (hpos : ∀ x ∈ zs, 0 < x.qty) :
    (ys.map (·.qty)).sum ≤ (zs.map (·.qty)).sum := by
  refine List.Sublist.sum_le_sum (h.map _) ?_
  intro q hq
  obtain ⟨x, hx, rfl⟩ := List.mem_map.1 hq
  exact (hpos x hx).le

omit [Double P] [LinearOrder P] in
/-- The volume of part of a window is an `int64_t` if that of the window is. -/
theorem isInt64_of_sublist {ys zs : List (Execution P)} (h : ys.Sublist zs) (hpos : ∀ x ∈ zs, 0 < x.qty)
    (hfits : IsInt64 (zs.map (·.qty)).sum) : IsInt64 (ys.map (·.qty)).sum := by
  have hnil := sum_qty_le_of_sublist ys.nil_sublist fun x hx => hpos x (h.subset hx)
  rw [List.map_nil, List.sum_nil] at hnil
  exact ⟨by omega, (sum_qty_le_of_sublist h hpos).trans_lt hfits.2⟩

/-- An alert is sound exactly when no execution is between two of its accounts. -/
theorem sound_iff {config : MarkingTheCloseConfig P} {alert : Alert P} (htallied : Tallied xs d)
    (hpos : ∀ x ∈ xs, 0 < x.qty) (hfits : IsInt64 ((xs.filter fun x => x.instrumentId = alert.instrumentId).map (·.qty)).sum)
    (hbar : 124 ∉ alert.instrumentId) (hids : (xs.map (·.tradeId)).Nodup) (hmembers : alert.accountIds.Nodup)
    (hshare : ¬d.shareOf alert.instrumentId alert.accountIds < config.concentrationThreshold)
    (horderIds : alert.orderIds = alert.accountIds.flatMap (d.tradeIds alert.instrumentId)) :
    Sound config xs alert ↔ ∀ x ∈ xs, x.instrumentId = alert.instrumentId → ¬Internal (· ∈ alert.accountIds) x := by
  constructor
  · rintro ⟨-, hone⟩ x hx hi ⟨b, hb, c, hc, hne, hbm, hcm⟩
    have htouch : x ∈ touching xs alert := List.mem_filter.2 ⟨hx, List.any_eq_true.2 ⟨b, hbm, owns_iff.2 ⟨hi, hb⟩⟩⟩
    have hlisted : ∀ {a}, a ∈ sides x → x.tradeId ∈ d.tradeIds alert.instrumentId a := by
      intro a ha
      rw [htallied.tradeIds _ a hbar]
      exact List.mem_map_of_mem (List.mem_filter.2 ⟨hx, owns_iff.2 ⟨hi, ha⟩⟩)
    have htwice := two_le_count_flatMap hbm hcm hne (hlisted hb) (hlisted hc)
    rw [← horderIds, hone x htouch] at htwice
    omega
  · intro hinternal
    have hperm : (alert.accountIds.flatMap fun a => xs.filter (owns alert.instrumentId a)).Perm (touching xs alert) := by
      refine flatMap_filter_perm (hmembers.imp_of_mem fun {a a'} ha ha' hne x hx hown => ?_)
      rw [Bool.eq_false_iff]
      intro hown'
      exact hinternal x hx (owns_iff.1 hown).1 ⟨a, (owns_iff.1 hown).2, a', (owns_iff.1 hown').2, hne, ha, ha'⟩
    -- what is added up is part of the instrument's window, so nothing wraps
    have hpart : ∀ owned : Execution P → Bool, (∀ x, owned x = true → x.instrumentId = alert.instrumentId) →
        IsInt64 ((xs.filter owned).map (·.qty)).sum := by
      intro owned howned
      have hsublist : (xs.filter owned).Sublist (xs.filter fun x => x.instrumentId = alert.instrumentId) :=
        List.monotone_filter_right _ fun x hx => decide_eq_true (howned x hx)
      exact isInt64_of_sublist hsublist (fun x hx => hpos x (List.mem_of_mem_filter hx)) hfits
    have hqty : (alert.accountIds.map (d.windowQty alert.instrumentId)).sum = ((touching xs alert).map (·.qty)).sum := by
      rw [← (hperm.map _).sum_eq, List.map_flatMap, List.flatMap_def, List.sum_flatten, List.map_map]
      refine congrArg List.sum (List.map_congr_left fun a _ => ?_)
      exact (htallied.qty _ a hbar).trans (wrap64_of_isInt64 (hpart _ fun x hx => (owns_iff.1 hx).1))
    have htouching : IsInt64 ((touching xs alert).map (·.qty)).sum := by
      refine hpart _ fun x hx => ?_
      obtain ⟨a, -, ha⟩ := List.any_eq_true.1 hx
      exact (owns_iff.1 ha).1
    have hnames : alert.orderIds.Perm ((touching xs alert).map (·.tradeId)) := by
      refine (List.Perm.of_eq ?_).trans (hperm.map _)
      rw [horderIds, List.map_flatMap]
      exact List.flatMap_congr fun a _ => htallied.tradeIds _ a hbar
    refine ⟨?_, fun x hx => ?_⟩
    · rwa [shareOf, sum64_of_isInt64 (hqty ▸ htouching), hqty, htallied.total, wrap64_of_isInt64 hfits] at hshare
    · rw [hnames.count_eq]
      exact List.count_eq_one_of_mem (hids.sublist ((List.filter_sublist).map _)) (List.mem_map_of_mem hx)

/-- The accounts seen when the last of some of the accounts of an execution is checked, after other executions. -/
def seenAt (xs : List (Execution P)) (checked : List Str) : List Str := xs.flatMap sides ++ checked

/-- Every alert comes from the check of an account and reports the accounts related to it by a chain of accounts seen by then. While the
volume of the instrument's window is an `int64_t`, it is sound exactly when no execution in the window so far is between two of
these. -/
theorem closing_volume_sound_iff {config : MarkingTheCloseConfig P} {order : HashOrder} {stream : Stream P} {book : OrderBook P}
    (hpos : ∀ y ∈ windowExecutions config (stream ++ [(book, .execution x)]), 0 < y.qty)
    (hfits : IsInt64 (((windowExecutions config (stream ++ [(book, .execution x)])).filter
      fun y => y.instrumentId = x.instrumentId).map (·.qty)).sum)
    (hbar : ∀ y ∈ windowExecutions config (stream ++ [(book, .execution x)]), 124 ∉ y.instrumentId)
    (hids : ((windowExecutions config (stream ++ [(book, .execution x)])).map (·.tradeId)).Nodup) {alert : Alert P}
    (halert : alert ∈ ((run config order accounts stream).1.evaluate book (.execution x) accounts).2) :
    ∃ before a, before ++ [a] <+: sides x ∧ alert.instrumentId = x.instrumentId ∧
      IsGroup accounts (seenAt (windowExecutions config stream) (before ++ [a])) a alert.accountIds ∧
      (Sound config (windowExecutions config (stream ++ [(book, .execution x)])) alert ↔
        ∀ y ∈ windowExecutions config (stream ++ [(book, .execution x)]), y.instrumentId = x.instrumentId →
          ¬Internal (InGroup accounts (seenAt (windowExecutions config stream) (before ++ [a])) a) y) := by
  cases hx : inWindow config x with
  | false =>
    have hknows := knows_run config order accounts stream fun y hy => hbar y (by simp [windowExecutions_concat, hy])
    rw [evaluate_of_not_inWindow book (by rwa [hknows.config])] at halert
    nomatch halert
  | true =>
    have hwindow : windowExecution config (book, .execution x) = some x := by simp [windowExecution, hx]
    rw [windowExecutions_concat, hwindow, Option.toList_some] at hpos hfits hbar hids ⊢
    have hknows := knows_run config order accounts stream fun y hy => hbar y (List.mem_append_left _ hy)
    have hxbar := hbar x (List.mem_append_right _ List.mem_cons_self)
    have htallied := hknows.tallied.counted hxbar
    have hall := evaluate_of_inWindow book hknows.grouped hknows.nodup (by rwa [hknows.config])
    obtain ⟨before, a, hprefix, hinstrument, hgroup, hshare, horderIds⟩ := hall.fired halert
    have hseen : ∀ b, b ∈ register (before.foldl register ((run config order accounts stream).1.counted x).allAccountsSeen) a ↔
        b ∈ seenAt (windowExecutions config stream) (before ++ [a]) := by
      intro b
      rw [mem_register, mem_foldl_register, counted_allAccountsSeen, hknows.seen, seenAt, List.mem_append, List.mem_append,
        List.mem_singleton, or_assoc]
    have hgroup' : IsGroup accounts (seenAt (windowExecutions config stream) (before ++ [a])) a alert.accountIds :=
      ⟨hgroup.nodup, fun b => (hgroup.mem_iff b).trans (InGroup.congr hseen)⟩
    refine ⟨before, a, hprefix, hinstrument, hgroup', ?_⟩
    rw [counted_config, hknows.config] at hshare
    rw [← hinstrument] at hfits hshare horderIds hxbar ⊢
    rw [sound_iff htallied hpos hfits hxbar hids hgroup.nodup hshare horderIds]
    simp only [hgroup'.mem_iff]

/-! ## Runs on fixed inputs -/

/-- A trade in instrument `X` at its close. -/
def tradeAtClose (tradeId accountId counterparty : String) (qty : ℤ) : Execution ℚ where
  tradeId := ascii tradeId
  orderId := ascii "O"
  accountId := ascii accountId
  instrumentId := ascii "X"
  side := .buy
  price := 100
  qty := qty
  timestampNs := 0
  counterpartyAccountId := ascii counterparty
  venue := []

def closingConfig : MarkingTheCloseConfig ℚ where
  closeTimeNsByInstrument := Finmap.insert (ascii "X") 0 ∅

def insertionOrder : HashOrder := ⟨id, fun _ => .refl _⟩

/-- The alerts for a trade after another, where `A` and `B` are linked. -/
def alertsAfter (first second : Execution ℚ) : List (Alert ℚ) :=
  let accounts : AccountRegistry := .add .empty ⟨ascii "A", [], [], [ascii "B"]⟩
  ((run closingConfig insertionOrder accounts [(.make (ascii "X"), .execution first)]).1.evaluate (.make (ascii "X"))
    (.execution second) accounts).2

/-- An account with 500 of 1200. -/
theorem closing_volume_sound_single :
    let first := tradeAtClose "T1" "C" "D" 700
    let second := tradeAtClose "T2" "A" "E" 500
    (alertsAfter first second).length = 2 ∧ ∀ alert ∈ alertsAfter first second, Sound closingConfig [first, second] alert := by
  intro first second
  refine ⟨by decide +kernel, ?_⟩
  intro alert halert
  have hmembers : ∀ alert ∈ alertsAfter first second, alert.accountIds = [ascii "A"] ∨ alert.accountIds = [ascii "E"] := by
    decide +kernel
  obtain ⟨before, a, -, -, hgroup, hsound⟩ := closing_volume_sound_iff (by decide +kernel) (by decide +kernel) (by decide +kernel) (by decide +kernel) halert
  refine hsound.2 fun y _ _ ⟨b, _, c, _, hne, hb, hc⟩ => hne ?_
  -- the groups have one account each
  rw [← hgroup.mem_iff] at hb hc
  rcases hmembers alert halert with h | h
  · rw [h, List.mem_singleton] at hb hc
    rw [hb, hc]
  · rw [h, List.mem_singleton] at hb hc
    rw [hb, hc]

/-- `A` and `B` trade 300 of 1000 with each other. They are reported for 600, and their one trade is listed twice. -/
theorem internal_trade_credited_twice :
    let first := tradeAtClose "T1" "C" "D" 700
    let second := tradeAtClose "T2" "A" "B" 300
    (alertsAfter first second).map (fun alert => (alert.accountIds, alert.orderIds)) =
        [([ascii "A", ascii "B"], [ascii "T2", ascii "T2"])] ∧
      ∀ alert ∈ alertsAfter first second, ¬Sound closingConfig [first, second] alert ∧
        (((touching [first, second] alert).map (·.qty)).sum : ℚ) < closingConfig.concentrationThreshold * 1000 := by
  decide +kernel

end MarkingTheCloseDetector

end TradeSurveillance
