import TradeSurveillance.OrderBook.Book

/-!
# What detectors share: the account registry, alerts and the interface `IDetector`

A detector is an object with a state of its own type; the pipeline knows of it only that it can evaluate an event.
-/

namespace TradeSurveillance

/-! ## Accounts -/

structure Entity where
  accountId : Str
  beneficialOwnerId : Str
  entityType : Str
  linkedAccountIds : List Str
  deriving DecidableEq, Repr

/-- `AccountRegistry`. -/
structure AccountRegistry where
  entities : Map Str Entity

namespace AccountRegistry

def empty : AccountRegistry := ⟨∅⟩

/-- `add`. -/
def add (accounts : AccountRegistry) (entity : Entity) : AccountRegistry :=
  ⟨accounts.entities.insert entity.accountId entity⟩

/-- `lookup`. -/
def lookup (accounts : AccountRegistry) (accountId : Str) : Option Entity := accounts.entities.lookup accountId

/-- `same_beneficial_owner`. -/
def sameBeneficialOwner (accounts : AccountRegistry) (accountA accountB : Str) : Bool :=
  match accounts.lookup accountA, accounts.lookup accountB with
  | some a, some b =>
    if a.beneficialOwnerId = [] ∨ b.beneficialOwnerId = [] then false
    else a.beneficialOwnerId = b.beneficialOwnerId
  | _, _ => false

/-- `names`, of an entity that may not be registered. -/
def names (entity : Option Entity) (target : Str) : Bool :=
  match entity with
  | none => false
  | some e => e.linkedAccountIds.contains target

/-- `are_linked`. -/
def areLinked (accounts : AccountRegistry) (accountA accountB : Str) : Bool :=
  names (accounts.lookup accountA) accountB || names (accounts.lookup accountB) accountA

/-- `is_related`. -/
def isRelated (accounts : AccountRegistry) (accountA accountB : Str) : Bool :=
  accountA = accountB || accounts.sameBeneficialOwner accountA accountB || accounts.areLinked accountA accountB

end AccountRegistry

/-! ## Alerts -/

/-- An alert. `bookSnapshotSequence` is an `int64_t` made of the book's unsigned sequence number. -/
structure Alert (P : Type) where
  detectorName : Str
  score : P
  instrumentId : Str
  accountIds : List Str
  orderIds : List Str
  windowStartNs : ℤ
  windowEndNs : ℤ
  evidence : Str
  modelVersion : Option Str
  bookSnapshotSequence : Option ℤ
  deriving DecidableEq, Repr

/-- An alert but for its `book_snapshot_sequence`. -/
def Alert.withoutSequence {P : Type} (a : Alert P) : Alert P := { a with bookSnapshotSequence := none }

/-- What every detector stores in `book_snapshot_sequence`. -/
def OrderBook.snapshotSequence {P : Type} (b : OrderBook P) : ℤ := b.sequence.toInt

/-! ## Detectors -/

/-- Events as a detector gets them, each with its book. -/
abbrev Stream (P : Type) := List (OrderBook P × Event P)

/-- `IDetector`: an object with its state and its virtual functions. -/
structure IDetector (P : Type) where
  State : Type
  state : State
  name : Str
  evaluate : State → OrderBook P → Event P → AccountRegistry → State × List (Alert P)

/-- A call of `evaluate`: the object after it, and the alerts. -/
def IDetector.step {P : Type} (d : IDetector P) (book : OrderBook P) (incoming : Event P) (accounts : AccountRegistry) :
    IDetector P × List (Alert P) :=
  let r := d.evaluate d.state book incoming accounts
  ({ d with state := r.1 }, r.2)

end TradeSurveillance
