import Pytitect.Core
import Pytitect.Lib.Dict
import Pytitect.Lib.Selection

namespace Pytitect

inductive ReceiptState
  | accepted
  | processing
  | completed
  | rejected
  | conflicted
  | uncertain
  deriving DecidableEq, Repr

inductive ReceiptKind
  | mutation
  | command
  | run
  | operation
  | terminalBoundary
  deriving DecidableEq, Repr

namespace ReceiptState

/-- `_TRANSITIONS` -/
def transitions : ReceiptState → List ReceiptState
  | .accepted => [.processing, .rejected, .conflicted, .uncertain]
  | .processing => [.completed, .rejected, .conflicted, .uncertain]
  | .completed | .rejected | .conflicted | .uncertain => []

/-- The terminal states that a reconciliation may confirm. -/
def confirmed : ReceiptState → Bool
  | .completed | .rejected | .conflicted => true
  | .accepted | .processing | .uncertain => false

end ReceiptState

/-- Mappings from strings to JSON scalars, equal when Python's `==` says so. `validate` is
`validate_json` of the mapping. -/
class MetadataMapping (M : Type) where
  equal : DecidableEq M
  len : M → Nat
  validate : M → Except PyError Unit

instance {M : Type} [MetadataMapping M] : DecidableEq M := MetadataMapping.equal

/-- `Receipt`. A `typed` receipt is of the class of its kind and not of `Receipt`
itself; receipts of different classes are not equal. -/
structure Receipt (T M : Type) [MetadataMapping M] where
  receiptId : OpaqueId
  kind : ReceiptKind
  typed : Bool
  state : ReceiptState
  createdAt : Int
  updatedAt : Int
  result : Option T
  metadata : M
  valid : createdAt ≤ updatedAt ∧ MetadataMapping.len metadata ≤ 64
  deriving DecidableEq

inductive TransitionResult (T M : Type) [MetadataMapping M]
  | transitioned (receipt : Receipt T M)
  | invalid (source target : ReceiptState) (reason : String)

section
variable {T M : Type} [MetadataMapping M]

namespace Receipt

/-- `replace` with a later `updated_at`. -/
def replaced (receipt : Receipt T M) (state : ReceiptState) (updatedAt : Int) (result : Option T)
    (later : receipt.updatedAt ≤ updatedAt) : Receipt T M :=
  { receipt with state, updatedAt, result, valid := ⟨Int.le_trans receipt.valid.1 later, receipt.valid.2⟩ }

/-- `Receipt.transition` -/
def transition (receipt : Receipt T M) (target : ReceiptState) (at_ : Int) (result : Option T) : TransitionResult T M :=
  if early : at_ < receipt.updatedAt then .invalid receipt.state target "transition timestamp moved backwards"
  else if target ∉ receipt.state.transitions then .invalid receipt.state target "state transition is not allowed"
  else if target = .completed ∧ result.isNone then .invalid receipt.state target "completed receipts require a result"
  else .transitioned (receipt.replaced target at_ result (Int.not_lt.mp early))

/-- `_valid_reconciliation` -/
def validReconciliation (receipt target : Receipt T M) : Bool :=
  receipt.state = .uncertain && target.state.confirmed && target.receiptId = receipt.receiptId &&
    target.kind = receipt.kind && target.createdAt = receipt.createdAt && receipt.updatedAt ≤ target.updatedAt &&
    target.metadata = receipt.metadata && (target.state ≠ .completed || target.result.isSome)

variable [DecidableEq T]

/-- The check that every store makes before a transition: the receipt's own transition
must propose exactly the target. -/
def proposes (receipt target : Receipt T M) : Bool :=
  match receipt.transition target.state target.updatedAt target.result with
  | .transitioned proposed => proposed = target
  | .invalid .. => false

end Receipt

/-- `PurgeReceiptsPlan` -/
structure PurgeReceiptsPlan where
  cutoff : Int
  batchSize : Nat
  dryRun : Bool
  includeUncertain : Bool
  positive : 0 < batchSize

/-- The states that a plan removes. -/
def PurgeReceiptsPlan.terminal (plan : PurgeReceiptsPlan) (state : ReceiptState) : Bool :=
  state.confirmed || plan.includeUncertain && state = .uncertain

end

/-- `InMemoryReceiptStore` -/
structure ReceiptStore (T M : Type) [MetadataMapping M] where
  capacity : Nat
  receipts : Dict OpaqueId (Receipt T M)

namespace ReceiptStore
variable {T M : Type} [MetadataMapping M]

def empty (capacity : Nat) : ReceiptStore T M := ⟨capacity, .empty⟩

def get (s : ReceiptStore T M) (receiptId : OpaqueId) : Option (Receipt T M) := s.receipts.get? receiptId

def add (s : ReceiptStore T M) (receipt : Receipt T M) : Except PyError Bool × ReceiptStore T M :=
  if receipt.receiptId ∈ s.receipts.keys then (.ok false, s)
  else if s.capacity ≤ s.receipts.size then (.error (.overflowError "receipt capacity exceeded"), s)
  else (.ok true, { s with receipts := s.receipts.set receipt.receiptId receipt })

/-- The order of `purge`: oldest first, then the id. -/
def purgeOrder (a b : Receipt T M) : Bool :=
  ((compare a.updatedAt b.updatedAt).then (compare a.receiptId.value b.receiptId.value)).isLE

def purgeSelected (s : ReceiptStore T M) (plan : PurgeReceiptsPlan) : List (Receipt T M) :=
  ((s.receipts.items.map Prod.snd).filter fun receipt => plan.terminal receipt.state && receipt.updatedAt ≤ plan.cutoff).firstBy
    purgeOrder plan.batchSize

def purge (s : ReceiptStore T M) (plan : PurgeReceiptsPlan) : MaintenanceSummary × ReceiptStore T M :=
  let selected := s.purgeSelected plan
  (⟨selected.length, if plan.dryRun then 0 else selected.length, plan.dryRun⟩,
    if plan.dryRun then s else { s with receipts := s.receipts.popAll (selected.map (·.receiptId)) })

variable [DecidableEq T]

/-- The compare-and-set behind both kinds of change. -/
def compareAndSet (s : ReceiptStore T M) (receipt target : Receipt T M) : Bool × ReceiptStore T M :=
  if s.receipts.get? receipt.receiptId ≠ some receipt then (false, s)
  else (true, { s with receipts := s.receipts.set receipt.receiptId target })

def transition (s : ReceiptStore T M) (receipt target : Receipt T M) : Bool × ReceiptStore T M :=
  if receipt.proposes target then s.compareAndSet receipt target else (false, s)

def reconcileUncertain (s : ReceiptStore T M) (receipt target : Receipt T M) : Bool × ReceiptStore T M :=
  if receipt.validReconciliation target then s.compareAndSet receipt target else (false, s)

end ReceiptStore

inductive ReconciliationResult (T M : Type) [MetadataMapping M]
  | confirmedCompleted (receipt : Receipt T M)
  | confirmedRejected (receipt : Receipt T M)
  | confirmedConflicted (receipt : Receipt T M)
  | stillUncertain (receipt : Option (Receipt T M)) (reason : String)

/-- `ReceiptReconciler.reconcile` -/
def ReceiptReconciler.reconcile {T M : Type} [MetadataMapping M] [DecidableEq T] (store : ReceiptStore T M)
    (receiptId : OpaqueId) (target : ReceiptState) (at_ : Int) (result : Option T) :
    Except PyError (ReconciliationResult T M) × ReceiptStore T M :=
  if !target.confirmed then
    (.error (.valueError "uncertain receipts may only reconcile to a confirmed terminal state"), store)
  else
    match store.get receiptId with
    | none => (.ok (.stillUncertain none "receipt is absent or no longer uncertain"), store)
    | some current =>
      if current.state ≠ .uncertain then
        (.ok (.stillUncertain (some current) "receipt is absent or no longer uncertain"), store)
      else if early : at_ < current.updatedAt then
        (.ok (.stillUncertain (some current) "reconciliation timestamp moved backwards"), store)
      else if target = .completed ∧ result.isNone then
        (.error (.valueError "completed reconciliation requires a result"), store)
      else
        let reconciled := current.replaced target at_ result (Int.not_lt.mp early)
        match store.reconcileUncertain current reconciled with
        | (false, after) => (.ok (.stillUncertain (after.get receiptId) "receipt changed concurrently"), after)
        | (true, after) =>
          (.ok (match target with
            | .completed => .confirmedCompleted reconciled
            | .rejected => .confirmedRejected reconciled
            | _ => .confirmedConflicted reconciled), after)

end Pytitect
