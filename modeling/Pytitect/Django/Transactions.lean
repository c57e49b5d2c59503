import Pytitect.Django.Idempotency
import Pytitect.Django.Outbox
import Pytitect.Lib.Ledger
import Pytitect.Lib.Program
import Pytitect.Receipts.Tables

namespace Pytitect

/-- What one database alias holds: the consumer's own tables and those of the three stores. -/
structure OperationDatabase (D M : Type) where
  domain : D
  idempotency : DjangoIdempotencyStore
  receipts : DjangoReceiptStore M
  outbox : DjangoOutboxStore

/-- What ends the atomic block early: an exception, or an `_ExpectedRollback`. -/
inductive OperationFailure
  | raised (error : PyError)
  | expectedRollback (reason : String)

/-- `TransactionalOperationResult`. A result may be `None`. -/
inductive TransactionalOperationResult (T M : Type) [MetadataMapping M]
  | committed (value : Option T) (receipt : Receipt T M) (outboxMessages : Nat)
  | rolledBack (reason : String)
  | decided (decision : IdempotencyDecision (Option T))

/-- The arguments of `execute`. Each callback may change the consumer's tables and may raise. -/
structure TransactionalRequest (D T P M : Type) [MetadataMapping M] where
  scope : IdempotencyScope
  key : String
  fingerprint : RequestFingerprint
  mutate : Program D PyError (Option T)
  makeReceipt : Option T → Program D PyError (Receipt T M)
  makeOutbox : Option T → Program D PyError (List (OutboxEnvelope P))

/-- What a call meets: the two readings of its clock, the `uuid4` of its reservation, and the
exception with which the database refuses to commit. -/
structure OperationSurroundings where
  now : Int
  completedAt : Int
  token : ReservationToken
  refused : Option PyError

/-- The states of a receipt that ends an operation. -/
def ReceiptState.ends : ReceiptState → Bool
  | .completed | .rejected | .conflicted | .uncertain => true
  | .accepted | .processing => false

structure DjangoTransactionalOperation (T P : Type) where
  encodeValue : Option T → JsonValue
  decodeValue : JsonValue → Option T
  results : ResultCodec T
  encodePayload : P → JsonValue
  policy : IdempotencyPolicy

namespace DjangoTransactionalOperation
variable {D T P M : Type} [MetadataMapping M] {A : Type}

def inDomain : Program D PyError A → Program (OperationDatabase D M) OperationFailure A :=
  Program.zoom (·.domain) (fun domain db => { db with domain }) .raised

def inIdempotency : (DjangoIdempotencyStore → Except PyError A × DjangoIdempotencyStore) →
    Program (OperationDatabase D M) OperationFailure A :=
  Program.zoom (·.idempotency) (fun idempotency db => { db with idempotency }) .raised

def inReceipts : (DjangoReceiptStore M → Except PyError A × DjangoReceiptStore M) →
    Program (OperationDatabase D M) OperationFailure A :=
  Program.zoom (·.receipts) (fun receipts db => { db with receipts }) .raised

def inOutbox : (DjangoOutboxStore → Except PyError A × DjangoOutboxStore) →
    Program (OperationDatabase D M) OperationFailure A :=
  Program.zoom (·.outbox) (fun outbox db => { db with outbox }) .raised

variable [DecidableEq T] (op : DjangoTransactionalOperation T P)

/-- The loop over the envelopes. -/
def addAll : List (OutboxEnvelope P) → Program (OperationDatabase D M) OperationFailure Unit
  | [] => pure ()
  | envelope :: rest => do
    let result ← inOutbox (·.add op.encodePayload envelope)
    Program.require (result = .added) (.expectedRollback "outbox compare-and-set failed")
    addAll rest

variable (request : TransactionalRequest D T P M) (met : OperationSurroundings)

/-- The block from the granted reservation on. -/
def perform (token : ReservationToken) : Program (OperationDatabase D M) OperationFailure (TransactionalOperationResult T M) := do
  let value ← inDomain request.mutate
  let receipt ← inDomain (request.makeReceipt value)
  Program.require (receipt.result = value && receipt.state.ends)
    (.raised (.valueError "transactional operations require a matching terminal receipt"))
  let stored ← inReceipts (·.add op.results receipt)
  Program.require stored (.expectedRollback "receipt compare-and-set failed")
  let envelopes ← inDomain (request.makeOutbox value)
  op.addAll envelopes
  let completed ← inIdempotency
    (·.complete op.encodeValue token value met.completedAt op.policy.resultRetentionTtl)
  match completed with
  | .completed _ => pure (.committed value receipt envelopes.length)
  | .stale _ => Program.raise (.expectedRollback "idempotency compare-and-set failed")

/-- Leave the block: the database commits, or refuses to. -/
def leave (result : TransactionalOperationResult T M) :
    Program (OperationDatabase D M) OperationFailure (TransactionalOperationResult T M) :=
  match met.refused with
  | none => pure result
  | some error => Program.raise (.raised error)

/-- The body of the atomic block and the way out of it. -/
def block : Program (OperationDatabase D M) OperationFailure (TransactionalOperationResult T M) := do
  let decision ← inIdempotency
    (·.reserve op.decodeValue request.scope request.key request.fingerprint met.now op.policy.executionLeaseTtl met.token)
  match decision with
  | .execute token => op.perform request met token >>= leave met
  | decision => leave met (.decided decision)

/-- `execute`. Calls are serial, and an exception undoes everything that the block has done. -/
def execute : Program (OperationDatabase D M) PyError (TransactionalOperationResult T M) :=
  Program.recover
    (fun
      | .expectedRollback reason => .ok (.rolledBack reason)
      | .raised error => .error error)
    (Program.atomic (fun before _ => before) (op.block request met))

end DjangoTransactionalOperation

end Pytitect
