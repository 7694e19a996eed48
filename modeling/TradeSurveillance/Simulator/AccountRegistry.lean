import TradeSurveillance.Simulator.IdGenerator
import TradeSurveillance.Simulator.RandomUtils
import TradeSurveillance.Simulator.Types

/-!
# The simulator's `AccountRegistry`
-/

namespace TradeSurveillance.Simulator

/-- `AccountRegistryConfig` and its defaults. -/
structure AccountRegistryConfig where
  numIndependentAccounts : ℤ := 40
  numLinkedPairs : ℤ := 8

/-- The fields of `AccountRegistry`, and the two id generators of its constructor. -/
structure AccountRegistry where
  accounts : List Account := []
  independentIndices : List ℕ := []
  linkedPairIndices : List (ℕ × ℕ) := []
  accountIdGen : IdGenerator := { idPrefix := ascii "ACC" }
  ownerIdGen : IdGenerator := { idPrefix := ascii "OWN" }

namespace AccountRegistry

/-- The body of the constructor's first loop. -/
def addIndependent (r : AccountRegistry) : AccountRegistry :=
  let (accountId, accountIdGen) := r.accountIdGen.next
  let (ownerId, ownerIdGen) := r.ownerIdGen.next
  { r with
    accounts := r.accounts ++ [⟨accountId, ownerId, .client, []⟩]
    independentIndices := r.independentIndices ++ [r.accounts.length]
    accountIdGen := accountIdGen
    ownerIdGen := ownerIdGen }

/-- The body of its second loop. -/
def addLinkedPair (r : AccountRegistry) : AccountRegistry :=
  let (ownerId, ownerIdGen) := r.ownerIdGen.next
  let (clientId, accountIdGen) := r.accountIdGen.next
  let (relatedId, accountIdGen) := accountIdGen.next
  { r with
    accounts := r.accounts ++ [⟨clientId, ownerId, .client, [relatedId]⟩, ⟨relatedId, ownerId, .proprietary, [clientId]⟩]
    linkedPairIndices := r.linkedPairIndices ++ [(r.accounts.length, r.accounts.length + 1)]
    accountIdGen := accountIdGen
    ownerIdGen := ownerIdGen }

/-- The constructor. -/
def make (config : AccountRegistryConfig) : AccountRegistry :=
  addLinkedPair^[config.numLinkedPairs.toNat] (addIndependent^[config.numIndependentAccounts.toNat] {})

/-- `random_independent`; `none` where it throws. -/
def randomIndependent (r : AccountRegistry) (draw : ℕ) : Option Account := do
  let i ← pickRandom draw r.independentIndices
  r.accounts[i]?

/-- `random_linked_pair`; `none` where it throws. -/
def randomLinkedPair (r : AccountRegistry) (draw : ℕ) : Option (Account × Account) := do
  let (i, j) ← pickRandom draw r.linkedPairIndices
  let first ← r.accounts[i]?
  let second ← r.accounts[j]?
  some (first, second)

end AccountRegistry

end TradeSurveillance.Simulator
