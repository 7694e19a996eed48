import TradeSurveillance.Lemmas.ClosingGroups
import TradeSurveillance.Lib.Unwinding

/-!
# One report for each group of accounts at the close

`alerted_` keeps only the account that triggered an alert. As groups only grow, the members of an alert stay connected to that account,
and a later group that shares one of them contains it too (`Reported`).
-/

namespace TradeSurveillance.MarkingTheCloseDetector

variable {P : Type} [Double P] [LinearOrder P]

/-- The detector after a stream, and its alerts. -/
def run (config : MarkingTheCloseConfig P) (order : HashOrder) (accounts : AccountRegistry) (stream : Stream P) :
    MarkingTheCloseDetector P × List (Alert P) :=
  Unwinding.run (fun d x => d.evaluate x.1 x.2 accounts) (make config order) stream

/-- One more event is evaluated behind the others. -/
theorem run_concat (config : MarkingTheCloseConfig P) (order : HashOrder) (accounts : AccountRegistry) (stream : Stream P)
    (x : OrderBook P × Event P) : run config order accounts (stream ++ [x]) =
      (((run config order accounts stream).1.evaluate x.1 x.2 accounts).1,
        (run config order accounts stream).2 ++ ((run config order accounts stream).1.evaluate x.1 x.2 accounts).2) := by
  unfold run
  rw [Unwinding.run_concat]

/-- No account occurs in two of the alerts for an instrument, or twice in one. -/
structure ReportedOnce (alerts : List (Alert P)) : Prop where
  nodup : ∀ a ∈ alerts, a.accountIds.Nodup
  disjoint : alerts.Pairwise fun a b => a.instrumentId = b.instrumentId → a.accountIds.Disjoint b.accountIds

/-- The members of every alert are connected to an account whose key is in `alerted_`. -/
structure Reported (accounts : AccountRegistry) (d : MarkingTheCloseDetector P) (alerts : List (Alert P)) : Prop where
  seen : d.allAccountsSeen.Nodup
  grouped : Grouped accounts d.allAccountsSeen d.groupParent
  triggered : ∀ a ∈ alerts, ∃ t, keyFor a.instrumentId t ∈ d.alerted ∧
    ∀ m ∈ a.accountIds, m ∈ d.allAccountsSeen ∧ Connected accounts d.allAccountsSeen m t
  once : ReportedOnce alerts

variable {accounts : AccountRegistry} {d : MarkingTheCloseDetector P} {alerts : List (Alert P)}

omit [LinearOrder P] in
/-- As accounts are seen, what has been reported stays so. -/
theorem Reported.grow (h : Reported accounts d alerts) {d' : MarkingTheCloseDetector P} {a : Str}
    (hseen : d'.allAccountsSeen = register d.allAccountsSeen a) (hgrouped : Grouped accounts d'.allAccountsSeen d'.groupParent)
    (halerted : ∀ key ∈ d.alerted, key ∈ d'.alerted) : Reported accounts d' alerts where
  seen := hseen ▸ nodup_register h.seen
  grouped := hgrouped
  triggered b hb := by
    have hsub : ∀ x ∈ d.allAccountsSeen, x ∈ d'.allAccountsSeen := fun x hx => hseen ▸ mem_register.2 (.inl hx)
    obtain ⟨t, ht, hmembers⟩ := h.triggered b hb
    exact ⟨t, halerted _ ht, fun m hm => (hmembers m hm).imp (hsub m) (Connected.mono · hsub)⟩
  once := h.once

/-- A check of an account keeps what is known of the accounts reported. -/
theorem Reported.check {i a : Str} {r : MarkingTheCloseDetector P × Option (Alert P)} (h : Reported accounts d alerts)
    (hc : Checked accounts d i a r) : Reported accounts r.1 (alerts ++ r.2.toList) := by
  cases hc with
  | silent hgrouped =>
    rw [Option.toList_none, List.append_nil]
    exact h.grow rfl hgrouped fun _ => id
  | @fired parent' hgrouped alert hgroup hfresh _ hinstrument _ =>
    have hgrow : Reported accounts { d with
        groupParent := parent', allAccountsSeen := register d.allAccountsSeen a, alerted := insert (keyFor i a) d.alerted } alerts :=
      h.grow rfl hgrouped fun _ => Finset.mem_insert_of_mem
    refine ⟨hgrow.seen, hgrouped, fun b hb => ?_, fun b hb => ?_, ?_⟩
    · rcases List.mem_append.1 hb with hb | hb
      · exact hgrow.triggered b hb
      · obtain rfl : b = alert := by simpa using hb
        exact ⟨a, hinstrument ▸ Finset.mem_insert_self _ _, fun m hm => (hgroup.mem_iff m).1 hm⟩
    · rcases List.mem_append.1 hb with hb | hb
      · exact h.once.nodup b hb
      · obtain rfl : b = alert := by simpa using hb
        exact hgroup.nodup
    · refine List.pairwise_append.2 ⟨h.once.disjoint, List.pairwise_singleton _ _, ?_⟩
      intro b hb b' hb' hi m hm hm'
      obtain rfl : b' = alert := by simpa using hb'
      -- the account that triggered the earlier alert would be a member of this group
      obtain ⟨t, ht, hmembers⟩ := h.triggered b hb
      obtain ⟨hmseen, hmt⟩ := hmembers m hm
      have hsub : ∀ x ∈ d.allAccountsSeen, x ∈ register d.allAccountsSeen a := fun x hx => mem_register.2 (.inl hx)
      have htseen : t ∈ d.allAccountsSeen := by
        rcases hmt.mem with rfl | hboth
        · exact hmseen
        · exact hboth.2
      have hta : Connected accounts (register d.allAccountsSeen a) t a :=
        .trans _ _ _ (.symm _ _ (hmt.mono hsub)) ((hgroup.mem_iff m).1 hm').2
      refine hfresh t ((hgroup.mem_iff t).2 ⟨hsub t htseen, hta⟩) ?_
      rwa [← hinstrument, ← hi]

/-- So does a check of a list of accounts. -/
theorem Reported.checkAll {i : Str} {as : List Str} {r : MarkingTheCloseDetector P × List (Alert P)}
    (h : Reported accounts d alerts) (hc : CheckedAll accounts i d as r) : Reported accounts r.1 (alerts ++ r.2) := by
  induction hc generalizing alerts with
  | nil d => rwa [List.append_nil]
  | cons hfirst _ ih =>
    have hrest := ih (h.check hfirst)
    rwa [List.append_assoc] at hrest

/-- So does an event. -/
theorem Reported.evaluate (h : Reported accounts d alerts) (book : OrderBook P) (e : Event P) :
    Reported accounts (d.evaluate book e accounts).1 (alerts ++ (d.evaluate book e accounts).2) := by
  cases e with
  | order o =>
    rw [MarkingTheCloseDetector.evaluate, List.append_nil]
    exact h
  | execution x =>
    cases hx : inWindow d.config x with
    | false =>
      rw [evaluate_of_not_inWindow book hx, List.append_nil]
      exact h
    | true =>
      have hcounted : Reported accounts (d.counted x) alerts := by
        refine ⟨?_, ?_, ?_, h.once⟩
        · simpa using h.seen
        · simpa using h.grouped
        · simpa using h.triggered
      exact hcounted.checkAll (evaluate_of_inWindow book h.grouped h.seen hx)

/-- It holds after every stream. -/
theorem reported_run (config : MarkingTheCloseConfig P) (order : HashOrder) (accounts : AccountRegistry) (stream : Stream P) :
    Reported accounts (run config order accounts stream).1 (run config order accounts stream).2 := by
  induction stream using List.reverseRecOn with
  | nil =>
    refine ⟨List.nodup_nil, grouped_nil accounts, ?_, ?_, .nil⟩
    · exact fun a ha => nomatch ha
    · exact fun a ha => nomatch ha
  | append_singleton stream x ih =>
    rw [run_concat]
    exact ih.evaluate x.1 x.2

/-- Whatever the stream, the related accounts and the order in which they appear, no account is reported twice for an instrument. -/
theorem groups_reported_once (config : MarkingTheCloseConfig P) (order : HashOrder) (accounts : AccountRegistry) (stream : Stream P) :
    ReportedOnce (run config order accounts stream).2 := (reported_run config order accounts stream).once

end TradeSurveillance.MarkingTheCloseDetector
