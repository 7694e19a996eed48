import TradeSurveillance.Detectors.SpoofingLayering

/-!
# `MarkingTheCloseDetector`

Volumes in the window before the close, by instrument and account, and a union-find over the accounts by which related accounts are
counted together. The accounts are kept in a hash set that is iterated over in an order the standard leaves open: the model takes any.
-/

namespace TradeSurveillance

/-- An order of iteration over a hash set that nothing was ever erased from: it may depend on what was inserted and when. -/
structure HashOrder where
  iterate : List Str → List Str
  perm : ∀ inserted, (iterate inserted).Perm inserted

/-- `MarkingTheCloseConfig` and its defaults. -/
structure MarkingTheCloseConfig (P : Type) [Double P] where
  closeTimeNsByInstrument : Map Str ℤ
  windowDurationNs : ℤ := 300000000000
  concentrationThreshold : P := 0.4
  minAccountQtyThreshold : ℤ := 100
  minTotalWindowQtyThreshold : ℤ := 500

/-- The fields of `MarkingTheCloseDetector`; `allAccountsSeen` lists the set in order of insertion. -/
structure MarkingTheCloseDetector (P : Type) [Double P] where
  config : MarkingTheCloseConfig P
  order : HashOrder
  totalWindowQty : Map Str ℤ
  accountWindowQty : Map Str ℤ
  alerted : Finset Str
  tradeIdsByKey : Map Str (List Str)
  groupParent : Map Str Str
  allAccountsSeen : List Str

namespace MarkingTheCloseDetector

/-- `key_for`. -/
def keyFor (instrumentId accountId : Str) : Str := instrumentId ++ ascii "|" ++ accountId

/-! ## Groups -/

/-- `find_group` with at most `depth` calls one inside the other, and the parents with the path compressed. -/
def findGroupWithin : ℕ → Map Str Str → Str → Option (Str × Map Str Str)
  | 0, _, _ => none
  | depth + 1, parent, accountId =>
    match parent.lookup accountId with
    | none => some (accountId, parent)
    | some next =>
      if next = accountId then some (accountId, parent)
      else (findGroupWithin depth parent next).map fun r => (r.1, r.2.insert accountId r.1)

/-- `find_group`. A chain of parents that returns to itself, on which the source would not return, has no meaning here: the account
stands for itself. -/
def findGroup (parent : Map Str Str) (accountId : Str) : Str × Map Str Str :=
  (findGroupWithin (parent.keys.card + 1) parent accountId).getD (accountId, parent)

variable {P : Type} [Double P]

/-- The constructor. -/
def make (config : MarkingTheCloseConfig P) (order : HashOrder) : MarkingTheCloseDetector P where
  config := config
  order := order
  totalWindowQty := ∅
  accountWindowQty := ∅
  alerted := ∅
  tradeIdsByKey := ∅
  groupParent := ∅
  allAccountsSeen := []

/-- The loop body of `register_and_group`. -/
def groupWith (accounts : AccountRegistry) (accountId : Str) (parent : Map Str Str) (other : Str) : Map Str Str :=
  if accounts.isRelated accountId other then
    let (rootA, parent) := findGroup parent accountId
    let (rootB, parent) := findGroup parent other
    if rootA ≠ rootB then parent.insert rootA rootB else parent
  else parent

/-- `register_and_group`. -/
def registerAndGroup (d : MarkingTheCloseDetector P) (accountId : Str) (accounts : AccountRegistry) : MarkingTheCloseDetector P :=
  if accountId ∈ d.allAccountsSeen then d else
  let parent := d.groupParent.insert accountId accountId
  { d with
    groupParent := (d.order.iterate d.allAccountsSeen).foldl (groupWith accounts accountId) parent
    allAccountsSeen := d.allAccountsSeen ++ [accountId] }

/-- The loop body of `group_members`. -/
def addMember (rep : Str) (r : List Str × Map Str Str) (acc : Str) : List Str × Map Str Str :=
  let (root, parent) := findGroup r.2 acc
  (if root = rep then r.1 ++ [acc] else r.1, parent)

/-- `group_members`. -/
def groupMembers (d : MarkingTheCloseDetector P) (accountId : Str) : List Str × MarkingTheCloseDetector P :=
  let (rep, parent) := findGroup d.groupParent accountId
  let (members, parent) := (d.order.iterate d.allAccountsSeen).foldl (addMember rep) ([], parent)
  (members, { d with groupParent := parent })

/-! ## Volumes -/

/-- `account_window_qty_[key]`; the entry `operator[]` makes of a missing one reads the same. -/
def windowQty (d : MarkingTheCloseDetector P) (instrumentId accountId : Str) : ℤ :=
  (d.accountWindowQty.lookup (keyFor instrumentId accountId)).getD 0

def tradeIds (d : MarkingTheCloseDetector P) (instrumentId accountId : Str) : List Str :=
  (d.tradeIdsByKey.lookup (keyFor instrumentId accountId)).getD []

/-- Count a trade for one side of an execution. -/
def credit (d : MarkingTheCloseDetector P) (execution : Execution P) (accountId : Str) : MarkingTheCloseDetector P :=
  let key := keyFor execution.instrumentId accountId
  { d with
    accountWindowQty := d.accountWindowQty.insert key (wrap64 (d.windowQty execution.instrumentId accountId + execution.qty))
    tradeIdsByKey := d.tradeIdsByKey.insert key (d.tradeIds execution.instrumentId accountId ++ [execution.tradeId]) }

variable [LinearOrder P]

/-- `check_account`. -/
def checkAccount (d : MarkingTheCloseDetector P) (instrumentId accountId : Str) (windowStartNs eventTs bookSnapshotSequence : ℤ)
    (accounts : AccountRegistry) : MarkingTheCloseDetector P × Option (Alert P) :=
  let d := d.registerAndGroup accountId accounts
  let (members, d) := d.groupMembers accountId
  if members.any fun member => decide (keyFor instrumentId member ∈ d.alerted) then (d, none) else
  let groupQty := sum64 (members.map (d.windowQty instrumentId))
  let groupTradeIds := members.flatMap (d.tradeIds instrumentId)
  if groupQty < d.config.minAccountQtyThreshold then (d, none) else
  let totalQty := (d.totalWindowQty.lookup instrumentId).getD 0
  if totalQty < d.config.minTotalWindowQtyThreshold then (d, none) else
  let share : P := (groupQty : P) / (totalQty : P)
  if share < d.config.concentrationThreshold then (d, none) else
  ({ d with alerted := insert (keyFor instrumentId accountId) d.alerted }, some {
    detectorName := ascii "MarkingTheCloseDetector"
    score := min share 1.0
    instrumentId := instrumentId
    accountIds := members
    orderIds := groupTradeIds
    windowStartNs := windowStartNs
    windowEndNs := eventTs
    evidence := ascii "account-group closing-window volume=" ++ Decimal.ofInt groupQty ++ ascii " / total=" ++
      Decimal.ofInt totalQty ++ ascii " (share=" ++ Double.toString share ++ ascii ", group_size=" ++
      Decimal.ofNat members.length ++ ascii ")"
    modelVersion := none
    bookSnapshotSequence := some bookSnapshotSequence })

/-- `handle_execution`. -/
def handleExecution (d : MarkingTheCloseDetector P) (execution : Execution P) (bookSnapshotSequence : ℤ)
    (accounts : AccountRegistry) : MarkingTheCloseDetector P × List (Alert P) :=
  match d.config.closeTimeNsByInstrument.lookup execution.instrumentId with
  | none => (d, [])
  | some closeTs =>
    let windowStartNs := closeTs - d.config.windowDurationNs
    if execution.timestampNs < windowStartNs ∨ execution.timestampNs > closeTs then (d, []) else
    let total := wrap64 ((d.totalWindowQty.lookup execution.instrumentId).getD 0 + execution.qty)
    let d := { d with totalWindowQty := d.totalWindowQty.insert execution.instrumentId total }
    let d := d.credit execution execution.accountId
    let twoSided := execution.counterpartyAccountId ≠ [] ∧ execution.counterpartyAccountId ≠ execution.accountId
    let d := if twoSided then d.credit execution execution.counterpartyAccountId else d
    let check := fun d : MarkingTheCloseDetector P => fun accountId =>
      d.checkAccount execution.instrumentId accountId windowStartNs execution.timestampNs bookSnapshotSequence accounts
    let (d, alert) := check d execution.accountId
    if twoSided then
      let (d, alert') := check d execution.counterpartyAccountId
      (d, alert.toList ++ alert'.toList)
    else (d, alert.toList)

/-- `evaluate`. -/
def evaluate (d : MarkingTheCloseDetector P) (book : OrderBook P) (incoming : Event P) (accounts : AccountRegistry) :
    MarkingTheCloseDetector P × List (Alert P) :=
  match incoming with
  | .order _ => (d, [])
  | .execution execution => d.handleExecution execution book.snapshotSequence accounts

/-- The detector as the pipeline holds it. -/
def object (d : MarkingTheCloseDetector P) : IDetector P where
  State := MarkingTheCloseDetector P
  state := d
  name := ascii "MarkingTheCloseDetector"
  evaluate := evaluate

end MarkingTheCloseDetector

end TradeSurveillance
