import TradeSurveillance.Detectors.MarkingTheClose
import TradeSurveillance.Lib.Forest

/-!
# The account groups of `MarkingTheCloseDetector`

`group_parent_` is a forest whose classes are the chains of related accounts among those seen (`Grouped`), whatever the order in which
accounts appear and the set is iterated over. `checkAccount_cases` says how a check ends.
-/

namespace TradeSurveillance

/-- Relatedness is symmetric. -/
theorem AccountRegistry.isRelated_comm (accounts : AccountRegistry) (a b : Str) : accounts.isRelated a b = accounts.isRelated b a := by
  have howner : accounts.sameBeneficialOwner a b = accounts.sameBeneficialOwner b a := by
    unfold sameBeneficialOwner
    cases accounts.lookup a <;> cases accounts.lookup b <;> simp [or_comm, eq_comm]
  rw [isRelated, isRelated, howner, areLinked, areLinked, Bool.or_comm (names _ b)]
  simp only [eq_comm]

namespace MarkingTheCloseDetector

open Forest Relation AccountRegistry

/-! ## Parents -/

/-- The parent of an account in `group_parent_`; a root is its own there. -/
def parentOf (parent : Map Str Str) (a : Str) : Option Str := (parent.lookup a).filter fun b => b ≠ a

variable {parent : Map Str Str} {rep : Str → Str} {a b r : Str} {n depth : ℕ}

/-- `b` is the parent of `a` when it is stored under `a` and is not `a` itself. -/
theorem parentOf_eq_some : parentOf parent a = some b ↔ parent.lookup a = some b ∧ b ≠ a := by
  simp [parentOf, Option.filter_eq_some_iff]

/-- Storing another account under `a` makes it the parent of `a` and changes nothing else. -/
theorem parentOf_insert (hne : b ≠ a) : parentOf (parent.insert a b) = Function.update (parentOf parent) a (some b) := by
  funext x
  by_cases hx : x = a
  · subst hx
    rw [Function.update_self, parentOf_eq_some, Finmap.lookup_insert]
    exact ⟨rfl, hne⟩
  · rw [Function.update_of_ne hx, parentOf, Finmap.lookup_insert_of_ne _ hx, parentOf]

/-- Storing a root under itself leaves the forest as it was. -/
theorem parentOf_insert_self (ha : parentOf parent a = none) : parentOf (parent.insert a a) = parentOf parent := by
  funext x
  by_cases hx : x = a
  · subst hx
    rw [ha, parentOf, Finmap.lookup_insert]
    simp
  · rw [parentOf, Finmap.lookup_insert_of_ne _ hx, parentOf]

/-- An account with a parent is a key of the map. -/
theorem mem_keys_of_parentOf (h : (parentOf parent a).isSome) : a ∈ parent.keys := by
  obtain ⟨b, hb⟩ := Option.isSome_iff_exists.1 h
  exact Finmap.mem_keys.2 (Finmap.mem_of_lookup_eq_some (parentOf_eq_some.1 hb).1)

/-- Following parents finds the representative, and compressing the path keeps all of them. -/
theorem findGroupWithin_of_climbs (h : Represents (parentOf parent) rep) (hc : Climbs (parentOf parent) n a r) (hn : n < depth) :
    ∃ parent', findGroupWithin depth parent a = some (rep a, parent') ∧ Represents (parentOf parent') rep := by
  induction hc generalizing depth with
  | @root a hroot =>
    obtain ⟨depth, rfl⟩ : ∃ k, depth = k + 1 := ⟨depth - 1, by omega⟩
    refine ⟨parent, ?_, h⟩
    rw [h.rep_of_root hroot, findGroupWithin]
    cases hl : parent.lookup a with
    | none => rfl
    | some b =>
      have hb : b = a := by
        by_contra hne
        simp [parentOf_eq_some.2 ⟨hl, hne⟩] at hroot
      exact if_pos hb
  | @step a b r n hstep hrest ih =>
    obtain ⟨depth, rfl⟩ : ∃ k, depth = k + 1 := ⟨depth - 1, by omega⟩
    obtain ⟨parent', hfind, hrep⟩ := ih (show n < depth by omega)
    obtain ⟨hl, hne⟩ := parentOf_eq_some.1 hstep
    have hne' : rep a ≠ a := by
      intro heq
      have hroot := h.parent_rep a
      rw [heq, hstep] at hroot
      cases hroot
    refine ⟨parent'.insert a (rep a), ?_, ?_⟩
    · simp only [findGroupWithin, hl, if_neg hne, hfind, Option.map_some, h.rep_of_step hstep]
    · rw [parentOf_insert hne']
      exact hrep.compress hne'

/-- One call more than there are keys is enough. -/
theorem findGroupWithin_eq (h : Represents (parentOf parent) rep) (a : Str) : ∃ parent',
    findGroupWithin (parent.keys.card + 1) parent a = some (rep a, parent') ∧ Represents (parentOf parent') rep := by
  obtain ⟨n, hn⟩ := h a
  have hcard : n ≤ parent.keys.card := hn.le_card fun x => mem_keys_of_parentOf
  exact findGroupWithin_of_climbs h hn (Nat.lt_succ_of_le hcard)

/-- `find_group` returns the representative, and path compression keeps what the forest represents. -/
theorem findGroup_eq (h : Represents (parentOf parent) rep) (a : Str) :
    ∃ parent', findGroup parent a = (rep a, parent') ∧ Represents (parentOf parent') rep := by
  obtain ⟨parent', hfind, hrep⟩ := findGroupWithin_eq h a
  exact ⟨parent', by rw [findGroup, hfind]; rfl, hrep⟩

/-! ## Groups -/

variable {accounts : AccountRegistry} {seen seen' : List Str}

/-- Two accounts that have been seen and are related. -/
def Related (accounts : AccountRegistry) (seen : List Str) (a b : Str) : Prop :=
  a ∈ seen ∧ b ∈ seen ∧ accounts.isRelated a b = true

/-- A chain of related accounts leads from one to the other. -/
def Connected (accounts : AccountRegistry) (seen : List Str) : Str → Str → Prop := EqvGen (Related accounts seen)

/-- A connection inside a set is one inside a larger set. -/
theorem Connected.mono (h : Connected accounts seen a b) (hsub : ∀ x ∈ seen, x ∈ seen') : Connected accounts seen' a b :=
  EqvGen.mono (fun _ _ hxy => ⟨hsub _ hxy.1, hsub _ hxy.2.1, hxy.2.2⟩) _ _ h

/-- Connected accounts are equal or both in the set. -/
theorem Connected.mem (h : Connected accounts seen a b) : a = b ∨ (a ∈ seen ∧ b ∈ seen) := by
  induction h with
  | rel a b h => exact .inr ⟨h.1, h.2.1⟩
  | refl a => exact .inl rfl
  | symm a b _ ih => exact ih.imp Eq.symm And.symm
  | trans a b c _ _ ih₁ ih₂ =>
    rcases ih₁ with rfl | ⟨ha, hb⟩
    · exact ih₂
    · rcases ih₂ with rfl | ⟨-, hc⟩
      · exact .inr ⟨ha, hb⟩
      · exact .inr ⟨ha, hc⟩

/-- The forest stands for the chains of related accounts. -/
def Grouped (accounts : AccountRegistry) (seen : List Str) (parent : Map Str Str) : Prop :=
  ∃ rep, Represents (parentOf parent) rep ∧ Classes rep (Related accounts seen)

/-- Without parents, every account is a group of its own. -/
theorem grouped_nil (accounts : AccountRegistry) : Grouped accounts [] ∅ := by
  refine ⟨id, fun a => ⟨0, .root rfl⟩, fun a b => ⟨?_, fun hab => ?_⟩⟩
  · rintro rfl
    exact .refl a
  · rcases Connected.mem hab with heq | hseen
    · exact heq
    · cases hseen.1

/-- An account that has not been seen has no parent yet. -/
theorem Grouped.parentOf_eq_none (h : Grouped accounts seen parent) (ha : a ∉ seen) : parentOf parent a = none := by
  obtain ⟨rep, hrep, hclasses⟩ := h
  cases hp : parentOf parent a with
  | none => rfl
  | some b =>
    have hab : Connected accounts seen a b := (hclasses a b).1 (hrep.rep_of_step hp)
    rcases hab.mem with heq | hseen
    · exact absurd heq.symm (parentOf_eq_some.1 hp).2
    · exact absurd hseen.1 ha

/-- Grouping with one account adds that edge, where the two are related, to the relation represented. -/
theorem groupWith_represents (accounts : AccountRegistry) {E : Str → Str → Prop} (hrep : Represents (parentOf parent) rep) (hE : Classes rep E) (a other : Str) :
    ∃ rep', Represents (parentOf (groupWith accounts a parent other)) rep' ∧
      Classes rep' fun x y => E x y ∨ (accounts.isRelated a other = true ∧ x = a ∧ y = other) := by
  unfold groupWith
  split_ifs with hrel
  · obtain ⟨parent₁, hfind₁, hrep₁⟩ := findGroup_eq hrep a
    obtain ⟨parent₂, hfind₂, hrep₂⟩ := findGroup_eq hrep₁ other
    simp only [hfind₁, hfind₂, hrel, true_and]
    refine ⟨merge rep a other, ?_, hE.merge a other⟩
    split_ifs with hne
    · rw [parentOf_insert (Ne.symm hne)]
      exact hrep₂.link hne
    · rwa [merge_of_eq (not_not.1 hne)]
  · refine ⟨rep, hrep, hE.congr (fun x y hxy => .rel _ _ (.inl hxy)) fun x y hxy => .rel _ _ ?_⟩
    rcases hxy with hxy | ⟨htrue, -⟩
    · exact hxy
    · exact absurd htrue hrel

/-- Grouping with a list of accounts adds the edges to the related ones of the list. -/
theorem foldl_groupWith (accounts : AccountRegistry) {E : Str → Str → Prop} (hrep : Represents (parentOf parent) rep) (hE : Classes rep E) (a : Str)
    (others : List Str) : ∃ rep', Represents (parentOf (others.foldl (groupWith accounts a) parent)) rep' ∧
      Classes rep' fun x y => E x y ∨ (x = a ∧ y ∈ others ∧ accounts.isRelated a y = true) := by
  induction others generalizing parent rep E with
  | nil => exact ⟨rep, hrep, by simpa using hE⟩
  | cons other others ih =>
    obtain ⟨rep₁, hrep₁, hE₁⟩ := groupWith_represents accounts hrep hE a other
    obtain ⟨rep₂, hrep₂, hE₂⟩ := ih hrep₁ hE₁
    refine ⟨rep₂, hrep₂, hE₂.congr (fun x y hxy => .rel _ _ ?_) fun x y hxy => .rel _ _ ?_⟩
    · rcases hxy with (hxy | ⟨hrel, rfl, rfl⟩) | ⟨rfl, hy, hrel⟩
      · exact .inl hxy
      · exact .inr ⟨rfl, List.mem_cons_self, hrel⟩
      · exact .inr ⟨rfl, List.mem_cons_of_mem _ hy, hrel⟩
    · rcases hxy with hxy | ⟨rfl, hy, hrel⟩
      · exact .inl (.inl hxy)
      · rcases List.mem_cons.1 hy with rfl | hy
        · exact .inl (.inr ⟨hrel, rfl, rfl⟩)
        · exact .inr ⟨rfl, hy, hrel⟩

/-- The accounts seen, with one more. -/
def register (seen : List Str) (a : Str) : List Str := if a ∈ seen then seen else seen ++ [a]

/-- The accounts seen after registering `a` are those before and `a`. -/
theorem mem_register : b ∈ register seen a ↔ b ∈ seen ∨ b = a := by
  unfold register
  split_ifs with ha
  · refine ⟨Or.inl, ?_⟩
    rintro (hb | rfl)
    · exact hb
    · exact ha
  · simp

/-- Registering a list adds its accounts. -/
theorem mem_foldl_register {as : List Str} : b ∈ as.foldl register seen ↔ b ∈ seen ∨ b ∈ as := by
  induction as generalizing seen with
  | nil => simp
  | cons a as ih => rw [List.foldl_cons, ih, mem_register, List.mem_cons, or_assoc]

/-- Registering keeps the list free of duplicates. -/
theorem nodup_register (h : seen.Nodup) : (register seen a).Nodup := by
  unfold register
  split_ifs with ha
  · exact h
  · exact List.nodup_append.2 ⟨h, List.nodup_singleton a, fun x hx y hy => by
      rintro rfl
      exact ha (List.mem_singleton.1 hy ▸ hx)⟩

/-- So does registering a list. -/
theorem nodup_foldl_register {as : List Str} (h : seen.Nodup) : (as.foldl register seen).Nodup := by
  induction as generalizing seen with
  | nil => exact h
  | cons a as ih => exact ih (nodup_register h)

variable {P : Type} [Double P] {d : MarkingTheCloseDetector P}

/-- `register_and_group` adds `a` to the accounts seen and to the forest, and keeps the forest the relatedness of those seen. -/
theorem registerAndGroup_eq (h : Grouped accounts d.allAccountsSeen d.groupParent) (a : Str) :
    ∃ parent', d.registerAndGroup a accounts = { d with groupParent := parent', allAccountsSeen := register d.allAccountsSeen a } ∧
      Grouped accounts (register d.allAccountsSeen a) parent' := by
  unfold registerAndGroup register
  split_ifs with ha
  · exact ⟨d.groupParent, rfl, h⟩
  · have hself := parentOf_insert_self (h.parentOf_eq_none ha)
    obtain ⟨rep, hrep, hE⟩ := h
    rw [← hself] at hrep
    obtain ⟨rep', hrep', hE'⟩ := foldl_groupWith accounts hrep hE a (d.order.iterate d.allAccountsSeen)
    have hmem : ∀ x, x ∈ d.order.iterate d.allAccountsSeen ↔ x ∈ d.allAccountsSeen := fun x => (d.order.perm _).mem_iff
    refine ⟨_, rfl, rep', hrep', hE'.congr (fun x y hxy => ?_) fun x y hxy => ?_⟩
    · rcases hxy with ⟨hx, hy, hrel⟩ | ⟨rfl, hy, hrel⟩
      · exact .rel _ _ ⟨List.mem_append_left _ hx, List.mem_append_left _ hy, hrel⟩
      · exact .rel _ _ ⟨List.mem_append_right _ List.mem_cons_self, List.mem_append_left _ ((hmem y).1 hy), hrel⟩
    · obtain ⟨hx, hy, hrel⟩ := hxy
      simp only [List.mem_append, List.mem_singleton] at hx hy
      rcases hx with hx | rfl <;> rcases hy with hy | rfl
      · exact .rel _ _ (.inl ⟨hx, hy, hrel⟩)
      · rw [isRelated_comm] at hrel
        exact .symm _ _ (.rel _ _ (.inr ⟨rfl, (hmem x).2 hx, hrel⟩))
      · exact .rel _ _ (.inr ⟨rfl, (hmem y).2 hy, hrel⟩)
      · exact .refl _

/-- The account is in the group of `a`. -/
def InGroup (accounts : AccountRegistry) (seen : List Str) (a b : Str) : Prop := b ∈ seen ∧ Connected accounts seen b a

/-- The group of an account depends on the set of accounts seen only. -/
theorem InGroup.congr (h : ∀ x, x ∈ seen ↔ x ∈ seen') : InGroup accounts seen a b ↔ InGroup accounts seen' a b :=
  ⟨fun ⟨hb, hab⟩ => ⟨(h b).1 hb, hab.mono fun x => (h x).1⟩, fun ⟨hb, hab⟩ => ⟨(h b).2 hb, hab.mono fun x => (h x).2⟩⟩

/-- The accounts of the group of `a`, each once. -/
structure IsGroup (accounts : AccountRegistry) (seen : List Str) (a : Str) (members : List Str) : Prop where
  nodup : members.Nodup
  mem_iff : ∀ b, b ∈ members ↔ InGroup accounts seen a b

/-- Collecting members keeps the seen accounts with representative `r`, in their order. -/
theorem foldl_addMember (hrep : Represents (parentOf parent) rep) (r : Str) (members l : List Str) :
    ∃ parent', l.foldl (addMember r) (members, parent) = (members ++ l.filter fun b => rep b = r, parent') ∧
      Represents (parentOf parent') rep := by
  induction l generalizing parent members with
  | nil => exact ⟨parent, by simp, hrep⟩
  | cons b l ih =>
    obtain ⟨parent₁, hfind, hrep₁⟩ := findGroup_eq hrep b
    obtain ⟨parent₂, hfold, hrep₂⟩ := ih hrep₁ (if rep b = r then members ++ [b] else members)
    refine ⟨parent₂, ?_, hrep₂⟩
    rw [List.foldl_cons, addMember, hfind, hfold]
    split_ifs with hb
    · rw [List.filter_cons_of_pos (by simpa using hb), List.append_assoc]
      rfl
    · rw [List.filter_cons_of_neg (by simpa using hb)]

/-- `group_members` lists the seen accounts connected to `a`. -/
theorem groupMembers_eq (h : Grouped accounts d.allAccountsSeen d.groupParent) (hnodup : d.allAccountsSeen.Nodup) (a : Str) :
    ∃ members parent', d.groupMembers a = (members, { d with groupParent := parent' }) ∧
      IsGroup accounts d.allAccountsSeen a members ∧ Grouped accounts d.allAccountsSeen parent' := by
  obtain ⟨rep, hrep, hE⟩ := h
  obtain ⟨parent₁, hfind, hrep₁⟩ := findGroup_eq hrep a
  obtain ⟨parent₂, hfold, hrep₂⟩ := foldl_addMember hrep₁ (rep a) [] (d.order.iterate d.allAccountsSeen)
  rw [List.nil_append] at hfold
  have hperm := d.order.perm d.allAccountsSeen
  refine ⟨(d.order.iterate d.allAccountsSeen).filter fun b => rep b = rep a, parent₂, ?_, ⟨?_, fun b => ?_⟩, rep, hrep₂, hE⟩
  · simp only [groupMembers, hfind, hfold]
  · exact (hperm.nodup_iff.2 hnodup).filter _
  · rw [List.mem_filter, hperm.mem_iff, decide_eq_true_eq, hE b a]
    rfl

/-! ## Checks -/

variable [LinearOrder P]

/-- The volume of the accounts, as a part of that of the window. -/
def shareOf (d : MarkingTheCloseDetector P) (instrumentId : Str) (members : List Str) : P :=
  (sum64 (members.map (d.windowQty instrumentId)) : P) / ((d.totalWindowQty.lookup instrumentId).getD 0 : P)

/-- How a check of an account ends. Only the groups and the keys of accounts that triggered an alert change. -/
inductive Checked (accounts : AccountRegistry) (d : MarkingTheCloseDetector P) (i a : Str) :
    MarkingTheCloseDetector P × Option (Alert P) → Prop where
  | silent {parent' : Map Str Str} (hgrouped : Grouped accounts (register d.allAccountsSeen a) parent') :
    Checked accounts d i a ({ d with groupParent := parent', allAccountsSeen := register d.allAccountsSeen a }, none)
  | fired {parent' : Map Str Str} (hgrouped : Grouped accounts (register d.allAccountsSeen a) parent') {alert : Alert P}
    (hgroup : IsGroup accounts (register d.allAccountsSeen a) a alert.accountIds)
    (hfresh : ∀ m ∈ alert.accountIds, keyFor i m ∉ d.alerted)
    (hshare : ¬d.shareOf i alert.accountIds < d.config.concentrationThreshold) (hinstrument : alert.instrumentId = i)
    (horderIds : alert.orderIds = alert.accountIds.flatMap (d.tradeIds i)) :
    Checked accounts d i a ({ d with
      groupParent := parent', allAccountsSeen := register d.allAccountsSeen a, alerted := insert (keyFor i a) d.alerted }, some alert)

/-- A check ends silently, or with an alert over the threshold about a group none of whose members has had one. -/
theorem checkAccount_cases (h : Grouped accounts d.allAccountsSeen d.groupParent) (hnodup : d.allAccountsSeen.Nodup) (i a : Str)
    (windowStartNs eventTs sequence : ℤ) :
    Checked accounts d i a (d.checkAccount i a windowStartNs eventTs sequence accounts) := by
  obtain ⟨parent₁, hregister, hgrouped₁⟩ := registerAndGroup_eq h a
  obtain ⟨members, parent₂, hmembers, hgroup, hgrouped₂⟩ := groupMembers_eq
    (d := { d with groupParent := parent₁, allAccountsSeen := register d.allAccountsSeen a }) hgrouped₁ (nodup_register hnodup) a
  unfold checkAccount
  simp only [hregister, hmembers]
  split_ifs with halerted hqty htotal hshare
  · exact .silent hgrouped₂
  · exact .silent hgrouped₂
  · exact .silent hgrouped₂
  · exact .silent hgrouped₂
  · refine .fired hgrouped₂ hgroup (fun m hm hmem => halerted ?_) hshare rfl rfl
    exact List.any_eq_true.2 ⟨m, hm, decide_eq_true hmem⟩

/-- What a check leaves alone, and the accounts seen after it. -/
theorem Checked.frame {i a : Str} {r : MarkingTheCloseDetector P × Option (Alert P)} (h : Checked accounts d i a r) :
    Grouped accounts (register d.allAccountsSeen a) r.1.groupParent ∧ r.1 = { d with
      groupParent := r.1.groupParent, allAccountsSeen := register d.allAccountsSeen a, alerted := r.1.alerted } := by
  cases h with
  | silent hgrouped => exact ⟨hgrouped, rfl⟩
  | fired hgrouped => exact ⟨hgrouped, rfl⟩

/-- Checking an account keeps the forest the relatedness of the accounts seen. -/
theorem Checked.grouped {i a : Str} {r : MarkingTheCloseDetector P × Option (Alert P)} (h : Checked accounts d i a r) :
    Grouped accounts r.1.allAccountsSeen r.1.groupParent := by
  obtain ⟨hgrouped, hframe⟩ := h.frame
  rw [hframe]
  exact hgrouped

/-- Checking an account registers it and no other. -/
theorem Checked.allAccountsSeen {i a : Str} {r : MarkingTheCloseDetector P × Option (Alert P)} (h : Checked accounts d i a r) :
    r.1.allAccountsSeen = register d.allAccountsSeen a := by
  rw [h.frame.2]

/-- Checks of accounts one after another, and the alerts. -/
inductive CheckedAll (accounts : AccountRegistry) (i : Str) :
    MarkingTheCloseDetector P → List Str → MarkingTheCloseDetector P × List (Alert P) → Prop where
  | nil (d : MarkingTheCloseDetector P) : CheckedAll accounts i d [] (d, [])
  | cons {d d₁ d₂ : MarkingTheCloseDetector P} {a : Str} {as : List Str} {alert : Option (Alert P)} {alerts : List (Alert P)}
    (hfirst : Checked accounts d i a (d₁, alert)) (hrest : CheckedAll accounts i d₁ as (d₂, alerts)) :
    CheckedAll accounts i d (a :: as) (d₂, alert.toList ++ alerts)

/-- The checks of a list of accounts. -/
def checkAll (check : MarkingTheCloseDetector P → Str → MarkingTheCloseDetector P × Option (Alert P)) :
    MarkingTheCloseDetector P → List Str → MarkingTheCloseDetector P × List (Alert P)
  | d, [] => (d, [])
  | d, a :: as => ((checkAll check (check d a).1 as).1, (check d a).2.toList ++ (checkAll check (check d a).1 as).2)

/-- What checking a list of accounts does, account by account. -/
theorem checkAll_cases (h : Grouped accounts d.allAccountsSeen d.groupParent) (hnodup : d.allAccountsSeen.Nodup) (i : Str)
    (windowStartNs eventTs sequence : ℤ) (as : List Str) :
    CheckedAll accounts i d as (checkAll (fun d a => d.checkAccount i a windowStartNs eventTs sequence accounts) d as) := by
  induction as generalizing d with
  | nil => exact .nil d
  | cons a as ih =>
    have hfirst := checkAccount_cases h hnodup i a windowStartNs eventTs sequence
    exact .cons hfirst (ih hfirst.grouped (hfirst.allAccountsSeen ▸ nodup_register hnodup))

/-! ## Executions -/

omit [LinearOrder P]

/-- The execution lies in the window before the close of its instrument. -/
def inWindow (config : MarkingTheCloseConfig P) (x : Execution P) : Bool :=
  match config.closeTimeNsByInstrument.lookup x.instrumentId with
  | none => false
  | some closeTs => decide (closeTs - config.windowDurationNs ≤ x.timestampNs ∧ x.timestampNs ≤ closeTs)

/-- The accounts of an execution; an empty counterparty is none. -/
def sides (x : Execution P) : List Str :=
  if x.counterpartyAccountId ≠ [] ∧ x.counterpartyAccountId ≠ x.accountId then [x.accountId, x.counterpartyAccountId]
  else [x.accountId]

omit [Double P] in
/-- Buyer and seller are listed once when they are the same account. -/
theorem nodup_sides (x : Execution P) : (sides x).Nodup := by
  unfold sides
  split_ifs with h
  · simpa using Ne.symm h.2
  · exact List.nodup_singleton _

/-- What an execution in the window adds to the volumes. -/
def counted (d : MarkingTheCloseDetector P) (x : Execution P) : MarkingTheCloseDetector P :=
  let total := wrap64 ((d.totalWindowQty.lookup x.instrumentId).getD 0 + x.qty)
  (sides x).foldl (fun d a => d.credit x a) { d with totalWindowQty := d.totalWindowQty.insert x.instrumentId total }

/-- Adding a trade to the totals does not touch the forest. -/
@[simp] theorem counted_groupParent (d : MarkingTheCloseDetector P) (x : Execution P) : (d.counted x).groupParent = d.groupParent := by
  unfold counted sides
  split_ifs <;> rfl

/-- Nor the accounts seen. -/
@[simp] theorem counted_allAccountsSeen (d : MarkingTheCloseDetector P) (x : Execution P) :
    (d.counted x).allAccountsSeen = d.allAccountsSeen := by
  unfold counted sides
  split_ifs <;> rfl

/-- Nor the accounts alerted. -/
@[simp] theorem counted_alerted (d : MarkingTheCloseDetector P) (x : Execution P) : (d.counted x).alerted = d.alerted := by
  unfold counted sides
  split_ifs <;> rfl

/-- Nor the configuration. -/
@[simp] theorem counted_config (d : MarkingTheCloseDetector P) (x : Execution P) : (d.counted x).config = d.config := by
  unfold counted sides
  split_ifs <;> rfl

variable [LinearOrder P] {x : Execution P}

/-- A trade outside the closing window changes nothing and raises nothing. -/
theorem evaluate_of_not_inWindow (book : OrderBook P) (hx : inWindow d.config x = false) : d.evaluate book (.execution x) accounts = (d, []) := by
  unfold inWindow at hx
  unfold evaluate handleExecution
  cases hclose : d.config.closeTimeNsByInstrument.lookup x.instrumentId with
  | none => simp only [hclose]
  | some closeTs =>
    simp only [hclose, decide_eq_false_iff_not, not_and_or, not_le] at hx
    simp only [hclose]
    exact if_pos hx

/-- An execution in the window is counted, and its accounts are checked. -/
theorem evaluate_eq_checkAll (book : OrderBook P) {closeTs : ℤ}
    (hclose : d.config.closeTimeNsByInstrument.lookup x.instrumentId = some closeTs) (hx : inWindow d.config x = true) :
    d.evaluate book (.execution x) accounts = checkAll (fun c a => c.checkAccount x.instrumentId a
      (closeTs - d.config.windowDurationNs) x.timestampNs book.snapshotSequence accounts) (d.counted x) (sides x) := by
  unfold inWindow at hx
  simp only [hclose, decide_eq_true_eq] at hx
  unfold evaluate handleExecution
  simp only [hclose]
  rw [if_neg (by omega)]
  by_cases htwo : x.counterpartyAccountId ≠ [] ∧ x.counterpartyAccountId ≠ x.accountId
  · simp only [counted, sides, if_pos htwo, List.foldl_cons, List.foldl_nil, checkAll, List.append_nil]
  · simp only [counted, sides, if_neg htwo, List.foldl_cons, List.foldl_nil, checkAll, List.append_nil]

/-- A trade inside it is added to the totals, and then its accounts are checked. -/
theorem evaluate_of_inWindow (book : OrderBook P) (h : Grouped accounts d.allAccountsSeen d.groupParent) (hnodup : d.allAccountsSeen.Nodup)
    (hx : inWindow d.config x = true) :
    CheckedAll accounts x.instrumentId (d.counted x) (sides x) (d.evaluate book (.execution x) accounts) := by
  cases hclose : d.config.closeTimeNsByInstrument.lookup x.instrumentId with
  | none => simp [inWindow, hclose] at hx
  | some closeTs =>
    rw [evaluate_eq_checkAll book hclose hx]
    exact checkAll_cases (by simpa using h) (by simpa using hnodup) _ _ _ _ _

end MarkingTheCloseDetector

end TradeSurveillance
