import TradeSurveillance.Harness.ReplayRunner
import TradeSurveillance.Simulator.Simulator

/-!
# The accounts of a simulation

The simulator's registry gives each account an id of its own and relates the two accounts of a pair (`AccountRegistry.make_wellFormed`);
the detectors' registry, filled with them, says of two accounts what `accounts_related` says (`isRelated_accountRegistry`).
-/

namespace TradeSurveillance.Simulator

/-- The id is one the simulator gives to accounts. -/
def IsAccountId (id : Str) : Prop := ∃ n, id = IdGenerator.format (ascii "ACC") n

/-- An account id is not empty. -/
theorem IsAccountId.ne_nil {id : Str} (h : IsAccountId id) : id ≠ [] := by
  obtain ⟨n, rfl⟩ := h
  exact IdGenerator.format_ne_nil _ n

/-- An account id is not the market's. -/
theorem IsAccountId.ne_syntheticCounterparty {id : Str} (h : IsAccountId id) : id ≠ syntheticCounterparty := by
  obtain ⟨n, rfl⟩ := h
  intro heq
  have hhead : (IdGenerator.format (ascii "ACC") n).head? = syntheticCounterparty.head? := congrArg List.head? heq
  exact absurd hhead (by simp [IdGenerator.format, syntheticCounterparty, ascii])

/-- Ids that the generator of the accounts gives are account ids. -/
theorem IdGenerator.Given.isAccountId {g : IdGenerator} {id : Str} (h : g.Given id) (hgen : g.idPrefix = ascii "ACC") :
    IsAccountId id := by
  obtain ⟨n, -, hid⟩ := h
  exact ⟨n, hgen ▸ hid⟩

/-! ## The simulator's registry -/

namespace AccountRegistry

/-- What the loops of the constructor keep. -/
structure WellFormed (r : AccountRegistry) : Prop where
  idPrefix : r.accountIdGen.idPrefix = ascii "ACC"
  given : ∀ a ∈ r.accounts, r.accountIdGen.Given a.accountId
  nodup : (r.accounts.map (·.accountId)).Nodup
  linked : ∀ a ∈ r.accounts, ∀ id ∈ a.linkedAccountIds, IsAccountId id
  pairs : ∀ p ∈ r.linkedPairIndices, ∃ a b, r.accounts[p.1]? = some a ∧ r.accounts[p.2]? = some b ∧ accountsRelated a b = true

/-- The empty registry is well formed. -/
theorem wellFormed_empty : WellFormed {} where
  idPrefix := rfl
  given := fun _ ha => nomatch ha
  nodup := List.nodup_nil
  linked := fun _ ha => nomatch ha
  pairs := fun _ hp => nomatch hp

variable {r : AccountRegistry}

/-- What is in the first list is in both at the same place. -/
theorem getElem?_append_of_some {α : Type} {l m : List α} {i : ℕ} {a : α} (h : l[i]? = some a) : (l ++ m)[i]? = some a := by
  obtain ⟨hi, -⟩ := List.getElem?_eq_some_iff.1 h
  rw [List.getElem?_append_left hi, h]

/-- An independent account keeps the registry well formed. -/
theorem WellFormed.addIndependent (h : r.WellFormed) : r.addIndependent.WellFormed where
  idPrefix := h.idPrefix
  given := by
    intro a ha
    rcases List.mem_append.1 ha with ha | ha
    · exact (h.given a ha).next
    · rw [List.mem_singleton.1 ha]
      exact IdGenerator.given_next r.accountIdGen
  nodup := by
    have hnew : r.accountIdGen.next.1 ∉ r.accounts.map (·.accountId) := by
      intro hmem
      obtain ⟨a, ha, hid⟩ := List.mem_map.1 hmem
      exact IdGenerator.not_given_next _ (hid ▸ h.given a ha)
    show ((r.accounts ++ [_]).map _).Nodup
    rw [List.map_append, List.nodup_append]
    refine ⟨h.nodup, List.nodup_singleton _, fun id hid id' hid' heq => hnew ?_⟩
    rw [List.map_singleton, List.mem_singleton] at hid'
    rwa [heq, hid'] at hid
  linked := by
    intro a ha
    rcases List.mem_append.1 ha with ha | ha
    · exact h.linked a ha
    · rw [List.mem_singleton.1 ha]
      exact fun id hid => nomatch hid
  pairs := by
    intro p hp
    obtain ⟨a, b, ha, hb, hrelated⟩ := h.pairs p hp
    exact ⟨a, b, getElem?_append_of_some ha, getElem?_append_of_some hb, hrelated⟩

/-- A linked pair keeps the registry well formed. -/
theorem WellFormed.addLinkedPair (h : r.WellFormed) : r.addLinkedPair.WellFormed := by
  have hclient := IdGenerator.given_next r.accountIdGen
  have hrelated := IdGenerator.given_next r.accountIdGen.next.2
  have hne : r.accountIdGen.next.1 ≠ r.accountIdGen.next.2.next.1 := fun heq =>
    IdGenerator.not_given_next r.accountIdGen.next.2 (heq ▸ hclient)
  have hnew : ∀ id ∈ r.accounts.map (·.accountId), id ≠ r.accountIdGen.next.1 ∧ id ≠ r.accountIdGen.next.2.next.1 := by
    intro id hid
    obtain ⟨a, ha, rfl⟩ := List.mem_map.1 hid
    exact ⟨fun heq => IdGenerator.not_given_next _ (heq ▸ h.given a ha),
      fun heq => IdGenerator.not_given_next _ (heq ▸ (h.given a ha).next)⟩
  have hgen : r.accountIdGen.next.2.next.2.idPrefix = ascii "ACC" := h.idPrefix
  refine ⟨hgen, ?_, ?_, ?_, ?_⟩
  · intro a ha
    rcases List.mem_append.1 ha with ha | ha
    · exact (h.given a ha).next.next
    · rcases List.mem_pair.1 ha with rfl | rfl
      · exact hclient.next
      · exact hrelated
  · show ((r.accounts ++ [_, _]).map _).Nodup
    rw [List.map_append, List.nodup_append]
    have hpair : [r.accountIdGen.next.1, r.accountIdGen.next.2.next.1].Nodup := List.nodup_cons.2
      ⟨fun hmem => hne (List.mem_singleton.1 hmem), List.nodup_singleton _⟩
    refine ⟨h.nodup, hpair, ?_⟩
    intro id hid id' hid' heq
    obtain ⟨hne₁, hne₂⟩ := hnew id hid
    rcases List.mem_pair.1 hid' with rfl | rfl
    · exact hne₁ heq
    · exact hne₂ heq
  · intro a ha
    rcases List.mem_append.1 ha with ha | ha
    · exact h.linked a ha
    · rcases List.mem_pair.1 ha with rfl | rfl
      · intro id hid
        rw [List.mem_singleton.1 hid]
        exact hrelated.isAccountId hgen
      · intro id hid
        rw [List.mem_singleton.1 hid]
        exact hclient.isAccountId h.idPrefix
  · intro p hp
    rcases List.mem_append.1 hp with hp | hp
    · obtain ⟨a, b, ha, hb, hab⟩ := h.pairs p hp
      exact ⟨a, b, getElem?_append_of_some ha, getElem?_append_of_some hb, hab⟩
    · rw [List.mem_singleton.1 hp]
      refine ⟨⟨r.accountIdGen.next.1, r.ownerIdGen.next.1, .client, [r.accountIdGen.next.2.next.1]⟩,
        ⟨r.accountIdGen.next.2.next.1, r.ownerIdGen.next.1, .proprietary, [r.accountIdGen.next.1]⟩, ?_, ?_, ?_⟩
      · show (r.accounts ++ [_, _])[r.accounts.length]? = _
        rw [List.getElem?_append_right (le_refl _), Nat.sub_self]
        rfl
      · show (r.accounts ++ [_, _])[r.accounts.length + 1]? = _
        rw [List.getElem?_append_right (Nat.le_add_right _ 1), Nat.add_sub_cancel_left]
        rfl
      · simp [accountsRelated]

/-- The constructor makes a well-formed registry. -/
theorem make_wellFormed (config : AccountRegistryConfig) : (make config).WellFormed := by
  have hiterate : ∀ {f : AccountRegistry → AccountRegistry}, (∀ r, r.WellFormed → (f r).WellFormed) →
      ∀ n r, r.WellFormed → (f^[n] r).WellFormed := fun hf n r hr => Function.Iterate.rec WellFormed hr hf n
  exact hiterate (fun r => WellFormed.addLinkedPair) _ _ (hiterate (fun r => WellFormed.addIndependent) _ _ wellFormed_empty)

/-- A pair is of accounts that are related. -/
theorem WellFormed.randomLinkedPair (h : r.WellFormed) {draw : ℕ} {a b : Account} (hpair : r.randomLinkedPair draw = some (a, b)) :
    a ∈ r.accounts ∧ b ∈ r.accounts ∧ accountsRelated a b = true := by
  unfold AccountRegistry.randomLinkedPair at hpair
  simp only [Option.bind_eq_bind, Option.bind_eq_some_iff, Option.some.injEq, Prod.mk.injEq] at hpair
  obtain ⟨⟨i, j⟩, hp, a', ha', b', hb', rfl, rfl⟩ := hpair
  obtain ⟨a, b, ha, hb, hrelated⟩ := h.pairs _ (mem_of_pickRandom hp)
  obtain rfl : a' = a := Option.some.inj (ha'.symm.trans ha)
  obtain rfl : b' = b := Option.some.inj (hb'.symm.trans hb)
  exact ⟨List.mem_of_getElem? ha', List.mem_of_getElem? hb', hrelated⟩

/-- An independent account drawn is one of the accounts. -/
theorem mem_of_randomIndependent {draw : ℕ} {a : Account} (h : r.randomIndependent draw = some a) : a ∈ r.accounts := by
  unfold randomIndependent at h
  simp only [Option.bind_eq_bind, Option.bind_eq_some_iff] at h
  obtain ⟨i, -, ha⟩ := h
  exact List.mem_of_getElem? ha

end AccountRegistry

/-- `accounts_related` is symmetric. -/
theorem accountsRelated_comm (a b : Account) : accountsRelated a b = accountsRelated b a := by
  have hid : decide (a.accountId = b.accountId) = decide (b.accountId = a.accountId) := decide_eq_decide.2 eq_comm
  have howner : (decide (a.beneficialOwnerId ≠ []) && decide (a.beneficialOwnerId = b.beneficialOwnerId)) =
      (decide (b.beneficialOwnerId ≠ []) && decide (b.beneficialOwnerId = a.beneficialOwnerId)) := by
    by_cases h : a.beneficialOwnerId = b.beneficialOwnerId
    · rw [h]
    · simp [h, Ne.symm h]
  unfold accountsRelated
  rw [hid, howner, Bool.or_assoc, Bool.or_comm (a.linkedAccountIds.contains _), ← Bool.or_assoc]

end TradeSurveillance.Simulator

/-! ## The detectors' registry -/

namespace TradeSurveillance.Harness

open Simulator

variable {P : Type} {simulation : SimulationOutput P}

/-- An account is found by its id. -/
theorem lookup_accountRegistry (hnodup : (simulation.accounts.map (·.accountId)).Nodup) {a : Account} (ha : a ∈ simulation.accounts) :
    (accountRegistry simulation).lookup a.accountId = some (toEntity a) := by
  unfold accountRegistry
  generalize simulation.accounts = accounts at hnodup ha ⊢
  induction accounts using List.reverseRecOn with
  | nil => nomatch ha
  | append_singleton accounts b ih =>
    rw [List.map_append, List.nodup_append] at hnodup
    rw [List.foldl_append, List.foldl_cons, List.foldl_nil]
    rcases List.mem_append.1 ha with ha | ha
    · have hne : a.accountId ≠ b.accountId := hnodup.2.2 _ (List.mem_map_of_mem ha) _ List.mem_cons_self
      rw [← ih hnodup.1 ha]
      exact Finmap.lookup_insert_of_ne _ hne
    · rw [List.mem_singleton.1 ha]
      exact Finmap.lookup_insert _

/-- Nothing else is. -/
theorem lookup_accountRegistry_eq_none {id : Str} (h : ∀ a ∈ simulation.accounts, id ≠ a.accountId) :
    (accountRegistry simulation).lookup id = none := by
  unfold accountRegistry
  generalize simulation.accounts = accounts at h ⊢
  induction accounts using List.reverseRecOn with
  | nil => rfl
  | append_singleton accounts b ih =>
    rw [List.foldl_append, List.foldl_cons, List.foldl_nil]
    rw [← ih fun a ha => h a (List.mem_append_left _ ha)]
    exact Finmap.lookup_insert_of_ne _ (h b (List.mem_append_right _ List.mem_cons_self))

/-- The two tests of relatedness agree on the accounts. -/
theorem isRelated_accountRegistry (hnodup : (simulation.accounts.map (·.accountId)).Nodup) {a b : Account}
    (ha : a ∈ simulation.accounts) (hb : b ∈ simulation.accounts) :
    (accountRegistry simulation).isRelated a.accountId b.accountId = accountsRelated a b := by
  unfold AccountRegistry.isRelated AccountRegistry.sameBeneficialOwner AccountRegistry.areLinked accountsRelated
  rw [lookup_accountRegistry hnodup ha, lookup_accountRegistry hnodup hb]
  simp only [AccountRegistry.names, toEntity]
  by_cases howner : a.beneficialOwnerId = b.beneficialOwnerId
  · by_cases hempty : b.beneficialOwnerId = [] <;> simp [howner, hempty, Bool.or_assoc]
  · simp [howner, Bool.or_assoc]

/-- No account is related to one that is not registered and that no account is linked to. -/
theorem isRelated_unregistered (hnodup : (simulation.accounts.map (·.accountId)).Nodup) {a : Account}
    (ha : a ∈ simulation.accounts) {id : Str} (hid : ∀ b ∈ simulation.accounts, id ≠ b.accountId)
    (hlinked : id ∉ a.linkedAccountIds) : (accountRegistry simulation).isRelated a.accountId id = false := by
  unfold AccountRegistry.isRelated AccountRegistry.sameBeneficialOwner AccountRegistry.areLinked
  rw [lookup_accountRegistry hnodup ha, lookup_accountRegistry_eq_none hid]
  simp [AccountRegistry.names, toEntity, Ne.symm (hid a ha), hlinked]

end TradeSurveillance.Harness
