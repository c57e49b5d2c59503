import Pytitect.Receipts.Store
import Pytitect.Json

namespace Pytitect

/-- A row of a receipts table, less its unique `receipt_id`. `R` is the type of the result column. -/
structure ReceiptRow (R M : Type) where
  kind : ReceiptKind
  state : ReceiptState
  createdAt : Int
  updatedAt : Int
  result : R
  metadata : M
  deriving DecidableEq

section
variable {T M R : Type} [MetadataMapping M]

/-- The receipt of a row, of the class of its kind. -/
def ReceiptRow.receipt (decode : R → Option T) (receiptId : OpaqueId) (row : ReceiptRow R M) : Except PyError (Receipt T M) :=
  if ordered : row.createdAt ≤ row.updatedAt then
    if bounded : MetadataMapping.len row.metadata ≤ 64 then
      .ok ⟨receiptId, row.kind, true, row.state, row.createdAt, row.updatedAt, decode row.result, row.metadata, ordered, bounded⟩
    else .error (.valueError "receipt metadata is limited to 64 items")
  else .error (.valueError "updated_at cannot precede created_at")

/-- The receipt of an id, if there is a row for it. -/
def receiptOf (decode : R → Option T) (receiptId : OpaqueId) : Option (ReceiptRow R M) → Except PyError (Option (Receipt T M))
  | none => .ok none
  | some row => (row.receipt decode receiptId).map some

end

/-- `PayloadSerializer` -/
structure PayloadSerializer (T : Type) where
  encode : T → List UInt8
  decode : List UInt8 → T

/-- `SQLAlchemyReceiptStore`: the table behind the session. Every call is serial. -/
structure SQLAlchemyReceiptStore (M : Type) where
  rows : Dict OpaqueId (ReceiptRow (Option (List UInt8)) M)

namespace SQLAlchemyReceiptStore
variable {T M : Type} [MetadataMapping M] (serializer : PayloadSerializer T)

def empty : SQLAlchemyReceiptStore M := ⟨.empty⟩

/-- `_values`. The id is the key of the row. -/
def values (receipt : Receipt T M) : ReceiptRow (Option (List UInt8)) M :=
  ⟨receipt.kind, receipt.state, receipt.createdAt, receipt.updatedAt, receipt.result.map serializer.encode, receipt.metadata⟩

variable (s : SQLAlchemyReceiptStore M)

def get (receiptId : OpaqueId) : Except PyError (Option (Receipt T M)) :=
  receiptOf (Option.map serializer.decode) receiptId (s.rows.get? receiptId)

/-- `on_conflict_do_nothing` on the unique id. -/
def add (receipt : Receipt T M) : Bool × SQLAlchemyReceiptStore M :=
  match s.rows.get? receipt.receiptId with
  | some _ => (false, s)
  | none => (true, ⟨s.rows.set receipt.receiptId (values serializer receipt)⟩)

/-- `_cas`: every column is compared and every column is written. -/
def cas (receipt target : Receipt T M) : Bool × SQLAlchemyReceiptStore M :=
  match s.rows.get? receipt.receiptId with
  | none => (false, s)
  | some row =>
    if row ≠ values serializer receipt then (false, s)
    else (true, ⟨(s.rows.pop receipt.receiptId).set target.receiptId (values serializer target)⟩)

def transition [DecidableEq T] (receipt target : Receipt T M) : Bool × SQLAlchemyReceiptStore M :=
  if receipt.proposes target then s.cas serializer receipt target else (false, s)

def reconcileUncertain (receipt target : Receipt T M) : Bool × SQLAlchemyReceiptStore M :=
  if receipt.validReconciliation target then s.cas serializer receipt target else (false, s)

end SQLAlchemyReceiptStore

/-- `encode_result` and `decode_result`. -/
structure ResultCodec (T : Type) where
  encode : T → JsonValue
  decode : JsonValue → T

namespace ResultCodec
variable {T : Type} (codec : ResultCodec T)

/-- What the result column holds; `None` is the JSON null. -/
def column (result : Option T) : JsonValue := (result.map codec.encode).getD .null

/-- `None if row.result is None else decode(row.result)` -/
def read : JsonValue → Option T
  | .null => none
  | value => some (codec.decode value)

/-- `if encoded is not None: validate_json(encoded)` -/
def validate (result : Option T) : Except PyError Unit :=
  match codec.column result with
  | .null => .ok ()
  | value => validateJson value .default

end ResultCodec

/-- `DjangoReceiptStore.from_model`: the table behind the store. Every call is serial. -/
structure DjangoReceiptStore (M : Type) where
  rows : Dict OpaqueId (ReceiptRow JsonValue M)

namespace DjangoReceiptStore
variable {T M : Type} [MetadataMapping M] (codec : ResultCodec T)

def empty : DjangoReceiptStore M := ⟨.empty⟩

/-- The row of an added receipt. -/
def rowOf (receipt : Receipt T M) : ReceiptRow JsonValue M :=
  ⟨receipt.kind, receipt.state, receipt.createdAt, receipt.updatedAt, codec.column receipt.result, receipt.metadata⟩

variable (s : DjangoReceiptStore M)

def get (receiptId : OpaqueId) : Except PyError (Option (Receipt T M)) :=
  receiptOf codec.read receiptId (s.rows.get? receiptId)

def add (receipt : Receipt T M) : Except PyError Bool × DjangoReceiptStore M :=
  match codec.validate receipt.result >>= fun _ => MetadataMapping.validate receipt.metadata with
  | .error error => (.error error, s)
  | .ok _ =>
    match s.rows.get? receipt.receiptId with
    | some _ => (.ok false, s)
    | none => (.ok true, ⟨s.rows.set receipt.receiptId (rowOf codec receipt)⟩)

/-- What both changes do to the locked row: state and `updated_at` are compared,
and these and the result are written. -/
def change (receipt target : Receipt T M) : Except PyError Bool × DjangoReceiptStore M :=
  match codec.validate target.result with
  | .error error => (.error error, s)
  | .ok _ =>
    match s.rows.get? receipt.receiptId with
    | none => (.ok false, s)
    | some row =>
      if row.state ≠ receipt.state ∨ row.updatedAt ≠ receipt.updatedAt then (.ok false, s)
      else
        (.ok true, ⟨s.rows.set receipt.receiptId
          { row with state := target.state, updatedAt := target.updatedAt, result := codec.column target.result }⟩)

def transition [DecidableEq T] (receipt target : Receipt T M) : Except PyError Bool × DjangoReceiptStore M :=
  if receipt.proposes target then s.change codec receipt target else (.ok false, s)

/-- The uncertain state that the row must have is that of the receipt, by the first check. -/
def reconcileUncertain (receipt target : Receipt T M) : Except PyError Bool × DjangoReceiptStore M :=
  if receipt.validReconciliation target then s.change codec receipt target else (.ok false, s)

end DjangoReceiptStore

end Pytitect
