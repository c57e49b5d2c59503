import Pytitect.Lib.Ledger
import Pytitect.Lib.Program
import Pytitect.SqlAlchemy.Idempotency

namespace Pytitect

/-- What leaves a block early: an `Exception`, or a `BaseException` that is none, as a cancellation is. -/
inductive RequestFailure
  | exception (error : PyError)
  | cancelled

/-- What a committed request has stored under its identity. -/
structure RequestRecord (T : Type) where
  fingerprint : RequestFingerprint
  token : ReservationToken
  value : Option T

/-- What one database holds. `commits` records what the other tables owe to requests; it is
written and rolled back with them. -/
structure RequestDatabase (D T M : Type) where
  domain : D
  idempotency : SQLAlchemyIdempotencyStore
  receipts : SQLAlchemyReceiptStore M
  commits : List (Committal IdempotencyIdentity (RequestRecord T))

/-- `RequestCommitted`, or a decision of the store. A result may be `None`. -/
inductive RequestResult (T M : Type) [MetadataMapping M]
  | committed (value : Option T) (receipt : Receipt T M)
  | decided (decision : IdempotencyDecision (Option T))

/-- The arguments of `execute`. The callback makes its effects through the session alone. -/
structure IdempotentRequest (D T : Type) where
  scope : IdempotencyScope
  key : String
  fingerprint : RequestFingerprint
  receiptId : OpaqueId
  mutate : Program D RequestFailure (Option T)

def IdempotentRequest.identity {D T : Type} (request : IdempotentRequest D T) : IdempotencyIdentity := ⟨request.scope, request.key⟩

/-- The awaits of the body that may fail on their own. -/
inductive RequestStage
  | reserve
  | complete
  | receipt
  | flush

/-- What becomes of a commit: it succeeds, raises although it is committed, or raises and is
rolled back. -/
inductive CommitOutcome
  | succeeds
  | lost (failure : RequestFailure)
  | refused (failure : RequestFailure)

/-- What a call meets: failures to open and to close its session, at its awaits and in a rollback,
the outcome of its commit, the readings of its clock and of the database's, and a fresh `uuid4`. -/
structure RequestSurroundings where
  opening : Option RequestFailure
  closing : Option RequestFailure
  stage : RequestStage → Option RequestFailure
  rollback : Option RequestFailure
  commit : CommitOutcome
  reservedAt : Int
  createdAt : Int
  now : Int
  dbNow : Int
  token : ReservationToken

/-- A serializer takes results that may be `None`; a receipt leaves such a column null. The
metadata of a receipt is empty by default. -/
structure SQLAlchemyIdempotentRequest (T M : Type) [MetadataMapping M] where
  serializer : PayloadSerializer (Option T)
  receiptSerializer : PayloadSerializer T
  metadata : M
  empty : MetadataMapping.len metadata = 0
  policy : IdempotencyPolicy

/-- The database as the open session sees it, and the flag `committing`. -/
structure RequestFrame (D T M : Type) where
  database : RequestDatabase D T M
  committing : Bool

/-- How an attempt ends for `execute`: with a result, with an exception, or short of the query
that reconciles it. -/
inductive AttemptEnd (T M : Type) [MetadataMapping M]
  | returned (result : RequestResult T M)
  | raised (failure : RequestFailure)
  | reconciling

namespace SQLAlchemyIdempotentRequest
variable {D T M A : Type}

def inDomain : Program D RequestFailure A → Program (RequestFrame D T M) RequestFailure A :=
  Program.zoom (·.database.domain) (fun domain frame => { frame with database.domain := domain }) id

def inIdempotency : (SQLAlchemyIdempotencyStore → Except PyError A × SQLAlchemyIdempotencyStore) →
    Program (RequestFrame D T M) RequestFailure A :=
  Program.zoom (·.database.idempotency) (fun idempotency frame => { frame with database.idempotency := idempotency }) .exception

def inReceipts (operation : SQLAlchemyReceiptStore M → A × SQLAlchemyReceiptStore M) : Program (RequestFrame D T M) RequestFailure A :=
  Program.zoom (·.database.receipts) (fun receipts frame => { frame with database.receipts := receipts }) RequestFailure.exception
    fun store => (.ok (operation store).1, (operation store).2)

variable (met : RequestSurroundings)

/-- Fail at an await, or go on. -/
def reach (stage : RequestStage) : Program (RequestFrame D T M) RequestFailure Unit :=
  match met.stage stage with
  | none => pure ()
  | some failure => Program.raise failure

/-- `async with session.begin()`: the flag is no part of the database. -/
def transaction (body : Program (RequestFrame D T M) RequestFailure A) : Program (RequestFrame D T M) RequestFailure A := fun frame =>
  match body frame with
  | (.error failure, after) => (.error (met.rollback.getD failure), { after with database := frame.database })
  | (.ok result, after) =>
    match met.commit with
    | .succeeds => (.ok result, after)
    | .lost failure => (.error failure, after)
    | .refused failure => (.error failure, { after with database := frame.database })

/-- `async with self._sessions()` -/
def session (body : Program (RequestFrame D T M) RequestFailure A) : Program (RequestFrame D T M) RequestFailure A := fun frame =>
  match met.opening with
  | some failure => (.error failure, frame)
  | none =>
    match met.closing with
    | none => body frame
    | some failure => (.error failure, (body frame).2)

variable [MetadataMapping M] (coordinator : SQLAlchemyIdempotentRequest T M) (request : IdempotentRequest D T)

/-- The receipt of a mutation that began at `created_at`. -/
def receipt (value : Option T) : Receipt T M :=
  ⟨request.receiptId, .operation, true, .completed, met.createdAt, max met.createdAt met.now, value, coordinator.metadata,
    by have := coordinator.empty; omega⟩

/-- What a call commits. -/
def committal (value : Option T) : Committal IdempotencyIdentity (RequestRecord T) :=
  ⟨request.identity, ⟨request.fingerprint, met.token, value⟩, met.reservedAt, met.now + coordinator.policy.resultRetentionTtl⟩

/-- The body of the transaction from the granted reservation on. -/
def perform (token : ReservationToken) : Program (RequestFrame D T M) RequestFailure (RequestResult T M) := do
  let value ← inDomain request.mutate
  reach met .complete
  let completed ← inIdempotency
    (·.complete coordinator.serializer token value met.now met.dbNow coordinator.policy.resultRetentionTtl)
  Program.require (match completed with | .completed _ => true | .stale _ => false)
    (.exception (.runtimeError "idempotency execution authority expired"))
  reach met .receipt
  let added ← inReceipts (·.add coordinator.receiptSerializer (coordinator.receipt met request value))
  Program.require added (.exception (.valueError "receipt identity already exists"))
  reach met .flush
  Program.modify fun frame => ⟨{ frame.database with commits := frame.database.commits ++ [coordinator.committal met request value] }, true⟩
  pure (.committed value (coordinator.receipt met request value))

/-- The body of the transaction. -/
def body : Program (RequestFrame D T M) RequestFailure (RequestResult T M) := do
  reach met .reserve
  let decision ← inIdempotency (·.reserve coordinator.serializer request.scope request.key request.fingerprint met.reservedAt
    coordinator.policy.executionLeaseTtl met.token)
  match decision with
  | .execute token => coordinator.perform met request token
  | decision => pure (.decided decision)

/-- `execute` up to the query that reconciles it. -/
def execute (database : RequestDatabase D T M) : AttemptEnd T M × RequestDatabase D T M :=
  let attempt := session met (transaction met (coordinator.body met request)) ⟨database, false⟩
  (match attempt.1 with
    | .ok result => .returned result
    | .error .cancelled => .raised .cancelled
    | .error (.exception error) => if attempt.2.committing then .reconciling else .raised (.exception error),
    attempt.2.database)

/-- `reconcile`. A failure anywhere in its session and transaction is `failure`. -/
def reconcile (scope : IdempotencyScope) (key : String) (fingerprint : RequestFingerprint) (now : Int) (failure : Option RequestFailure)
    (database : RequestDatabase D T M) : Except RequestFailure (IdempotencyDecision (Option T)) :=
  match failure with
  | some .cancelled => .error .cancelled
  | some (.exception _) => .ok (.uncertain "reconciliation unavailable")
  | none =>
    match database.idempotency.lookup coordinator.serializer scope key fingerprint now with
    | .error _ => .ok (.uncertain "reconciliation unavailable")
    | .ok none => .ok (.uncertain "no confirmed commit evidence")
    | .ok (some decision) => .ok decision

end SQLAlchemyIdempotentRequest

end Pytitect
