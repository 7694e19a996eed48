import TradeSurveillance.Lemmas.ClosingGroups

/-!
# The groups are the connected components of the accounts registered

For every sequence of calls of `register_and_group`, `find_group` and `group_members`, and every call of `find_group` inside them.
-/

namespace TradeSurveillance.MarkingTheCloseDetector

open Forest Relation

/-- A call of one of the three functions. -/
inductive GroupCall where
  | registerAndGroup (accountId : Str)
  | findGroup (accountId : Str)
  | groupMembers (accountId : Str)

namespace GroupCall

/-- The account a call registers. -/
def registers : GroupCall → Option Str
  | .registerAndGroup accountId => some accountId
  | .findGroup _ => none
  | .groupMembers _ => none

variable {P : Type} [Double P]

/-- The detector after a call. -/
def run (accounts : AccountRegistry) (d : MarkingTheCloseDetector P) : GroupCall → MarkingTheCloseDetector P
  | .registerAndGroup accountId => d.registerAndGroup accountId accounts
  | .findGroup accountId => { d with groupParent := (MarkingTheCloseDetector.findGroup d.groupParent accountId).2 }
  | .groupMembers accountId => (d.groupMembers accountId).2

/-- `find_group` is called with these parents and this account in the course of a call. -/
inductive Searches (accounts : AccountRegistry) (d : MarkingTheCloseDetector P) : GroupCall → Map Str Str → Str → Prop where
  | find (a : Str) : Searches accounts d (.findGroup a) d.groupParent a
  | rootA {a other : Str} {done left : List Str} (hnew : a ∉ d.allAccountsSeen)
    (horder : d.order.iterate d.allAccountsSeen = done ++ other :: left) (hrelated : accounts.isRelated a other = true) :
    Searches accounts d (.registerAndGroup a) (done.foldl (groupWith accounts a) (d.groupParent.insert a a)) a
  | rootB {a other : Str} {done left : List Str} (hnew : a ∉ d.allAccountsSeen)
    (horder : d.order.iterate d.allAccountsSeen = done ++ other :: left) (hrelated : accounts.isRelated a other = true) :
    Searches accounts d (.registerAndGroup a)
      (MarkingTheCloseDetector.findGroup (done.foldl (groupWith accounts a) (d.groupParent.insert a a)) a).2 other
  | rep (a : Str) : Searches accounts d (.groupMembers a) d.groupParent a
  | member {a acc : Str} {done left : List Str} (horder : d.order.iterate d.allAccountsSeen = done ++ acc :: left) :
    Searches accounts d (.groupMembers a) (done.foldl (addMember (MarkingTheCloseDetector.findGroup d.groupParent a).1)
      ([], (MarkingTheCloseDetector.findGroup d.groupParent a).2)).2 acc

end GroupCall

/-- No parents lead back to where they come from, but for a root that is its own. -/
def Acyclic (parent : Map Str Str) : Prop := ∀ a, ¬TransGen (fun x y => parentOf parent x = some y) a a

/-- `find_group` returns, after no more calls of itself than there are keys. -/
def Returns (parent : Map Str Str) (a : Str) : Prop :=
  findGroupWithin (parent.keys.card + 1) parent a = some (findGroup parent a)

/-- A chain of related accounts among those registered. -/
def Chain (accounts : AccountRegistry) (registered : List Str) : Str → Str → Prop := ReflTransGen (Related accounts registered)

variable {P : Type} [Double P]

/-- What the calls so far have made of the accounts they registered, and what the next call finds. -/
structure Components (accounts : AccountRegistry) (registered : List Str) (d : MarkingTheCloseDetector P) : Prop where
  acyclic : Acyclic d.groupParent
  returns : ∀ a, Returns d.groupParent a
  same_iff : ∀ a ∈ registered, ∀ b ∈ registered,
    (findGroup d.groupParent a).1 = (findGroup d.groupParent b).1 ↔ Chain accounts registered a b
  kept : ∀ a b, (findGroup (findGroup d.groupParent a).2 b).1 = (findGroup d.groupParent b).1
  nodup : ∀ a, (d.groupMembers a).1.Nodup
  members : ∀ a b, b ∈ (d.groupMembers a).1 ↔ b ∈ registered ∧ Chain accounts registered b a
  searches : ∀ call parent a, GroupCall.Searches accounts d call parent a → Acyclic parent ∧ Returns parent a

variable {accounts : AccountRegistry} {parent : Map Str Str} {rep : Str → Str} {registered : List Str} {a b : Str}
  {d : MarkingTheCloseDetector P} {call : GroupCall}

omit [Double P] in
/-- In a forest that represents something `find_group` returns. -/
theorem returns_of_represents (h : Represents (parentOf parent) rep) (a : Str) : Returns parent a := by
  obtain ⟨parent', hfind, -⟩ := findGroupWithin_eq h a
  rw [Returns, findGroup, hfind]
  rfl

omit [Double P] in
/-- A chain of related accounts connects, as being related goes both ways. -/
theorem chain_iff : Chain accounts registered a b ↔ Connected accounts registered a b := by
  have : Std.Symm (Related accounts registered) := ⟨fun x y h => ⟨h.2.1, h.1, by rw [AccountRegistry.isRelated_comm]; exact h.2.2⟩⟩
  rw [Connected, EqvGen.eqvGen_eq_reflTransGen]
  rfl

/-! ## One call -/

/-- The parents a call searches are a forest. -/
theorem represents_of_searches (h : Grouped accounts d.allAccountsSeen d.groupParent)
    (hsearch : GroupCall.Searches accounts d call parent a) : ∃ rep, Represents (parentOf parent) rep := by
  have hfold : ∀ {x} (done : List Str), x ∉ d.allAccountsSeen →
      ∃ rep, Represents (parentOf (done.foldl (groupWith accounts x) (d.groupParent.insert x x))) rep := by
    intro x done hx
    have hself := parentOf_insert_self (h.parentOf_eq_none hx)
    obtain ⟨rep, hrep, hE⟩ := h
    rw [← hself] at hrep
    obtain ⟨rep', hrep', -⟩ := foldl_groupWith accounts hrep hE x done
    exact ⟨rep', hrep'⟩
  cases hsearch with
  | find a =>
    obtain ⟨rep, hrep, -⟩ := h
    exact ⟨rep, hrep⟩
  | rootA hnew _ _ => exact hfold _ hnew
  | rootB hnew _ _ =>
    obtain ⟨rep, hrep⟩ := hfold _ hnew
    obtain ⟨parent', hfind, hrep'⟩ := findGroup_eq hrep _
    rw [hfind]
    exact ⟨rep, hrep'⟩
  | rep a =>
    obtain ⟨rep, hrep, -⟩ := h
    exact ⟨rep, hrep⟩
  | @member a acc done left _ =>
    obtain ⟨rep, hrep, -⟩ := h
    obtain ⟨parent₁, hfind, hrep₁⟩ := findGroup_eq hrep a
    obtain ⟨parent₂, hfold', hrep₂⟩ := foldl_addMember hrep₁ (rep a) [] done
    rw [hfind, hfold']
    exact ⟨rep, hrep₂⟩

/-- The groups of the accounts registered. -/
structure Grouping (accounts : AccountRegistry) (registered : List Str) (d : MarkingTheCloseDetector P) : Prop where
  seen : ∀ a, a ∈ d.allAccountsSeen ↔ a ∈ registered
  nodup : d.allAccountsSeen.Nodup
  grouped : Grouped accounts d.allAccountsSeen d.groupParent

/-- A call keeps the groups those of the accounts registered. -/
theorem Grouping.run (h : Grouping accounts registered d) (call : GroupCall) :
    Grouping accounts (registered ++ call.registers.toList) (call.run accounts d) := by
  cases call with
  | registerAndGroup x =>
    obtain ⟨parent', hregister, hgrouped⟩ := registerAndGroup_eq h.grouped x
    rw [GroupCall.run, hregister]
    refine ⟨fun y => ?_, nodup_register h.nodup, hgrouped⟩
    rw [mem_register, h.seen]
    simp [GroupCall.registers]
  | findGroup x =>
    obtain ⟨rep, hrep, hE⟩ := h.grouped
    obtain ⟨parent', hfind, hrep'⟩ := findGroup_eq hrep x
    rw [GroupCall.run, hfind, GroupCall.registers, Option.toList_none, List.append_nil]
    exact ⟨h.seen, h.nodup, rep, hrep', hE⟩
  | groupMembers x =>
    obtain ⟨members, parent', hmembers, -, hgrouped⟩ := groupMembers_eq h.grouped h.nodup x
    rw [GroupCall.run, hmembers, GroupCall.registers, Option.toList_none, List.append_nil]
    exact ⟨h.seen, h.nodup, hgrouped⟩

/-- The groups of the accounts registered are the components of being related. -/
theorem Grouping.components (h : Grouping accounts registered d) : Components accounts registered d := by
  obtain ⟨rep, hrep, hE⟩ := h.grouped
  have hfind : ∀ a, (findGroup d.groupParent a).1 = rep a := by
    intro a
    obtain ⟨parent', hfind, -⟩ := findGroup_eq hrep a
    rw [hfind]
  have hchain : ∀ a b, Connected accounts d.allAccountsSeen a b ↔ Chain accounts registered a b := by
    intro a b
    rw [chain_iff]
    exact ⟨(·.mono fun x => (h.seen x).1), (·.mono fun x => (h.seen x).2)⟩
  refine ⟨hrep.acyclic, returns_of_represents hrep, fun a _ b _ => ?_, fun a b => ?_, fun a => ?_, fun a b => ?_, ?_⟩
  · rw [hfind, hfind, hE a b]
    exact hchain a b
  · obtain ⟨parent', hfind', hrep'⟩ := findGroup_eq hrep a
    obtain ⟨parent'', hfind'', -⟩ := findGroup_eq hrep' b
    rw [hfind', hfind'', hfind]
  · obtain ⟨members, parent', hmembers, hgroup, -⟩ := groupMembers_eq h.grouped h.nodup a
    rw [hmembers]
    exact hgroup.nodup
  · obtain ⟨members, parent', hmembers, hgroup, -⟩ := groupMembers_eq h.grouped h.nodup a
    rw [hmembers, hgroup.mem_iff, InGroup, h.seen, hchain]
  · intro call parent x hsearch
    obtain ⟨rep', hrep'⟩ := represents_of_searches h.grouped hsearch
    exact ⟨hrep'.acyclic, returns_of_represents hrep' x⟩

/-! ## Every sequence of calls -/

/-- The detector after some calls. -/
def afterCalls (config : MarkingTheCloseConfig P) (order : HashOrder) (accounts : AccountRegistry) (calls : List GroupCall) :
    MarkingTheCloseDetector P := calls.foldl (GroupCall.run accounts) (make config order)

/-- After any calls the groups are those of the accounts registered. -/
theorem grouping_afterCalls (config : MarkingTheCloseConfig P) (order : HashOrder) (accounts : AccountRegistry)
    (calls : List GroupCall) : Grouping accounts (calls.filterMap GroupCall.registers) (afterCalls config order accounts calls) := by
  induction calls using List.reverseRecOn with
  | nil => exact ⟨fun _ => Iff.rfl, List.nodup_nil, grouped_nil accounts⟩
  | append_singleton calls call ih =>
    have hregisters : [call].filterMap GroupCall.registers = call.registers.toList := by
      cases call <;> rfl
    have hstep : afterCalls config order accounts (calls ++ [call]) = call.run accounts (afterCalls config order accounts calls) := by
      rw [afterCalls, List.foldl_append]
      rfl
    rw [hstep, List.filterMap_append, hregisters]
    exact ih.run call

/-- After every sequence of calls, for every registry and every order of iteration over the set. -/
theorem groups_are_components (config : MarkingTheCloseConfig P) (order : HashOrder) (accounts : AccountRegistry)
    (calls : List GroupCall) : Components accounts (calls.filterMap GroupCall.registers) (afterCalls config order accounts calls) :=
  (grouping_afterCalls config order accounts calls).components

end TradeSurveillance.MarkingTheCloseDetector
