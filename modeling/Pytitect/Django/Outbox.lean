import Pytitect.Json
import Pytitect.Outbox.Store

namespace Pytitect

/-- A row of the consumer's model, less its unique `message_id`. -/
structure OutboxRow where
  topic : String
  payload : JsonValue
  occurredAt : Int
  availableAt : Int
  attempt : Nat
  claimId : Option Uuid
  claimedUntil : Option Int
  deliveredAt : Option Int
  failureReason : Option String
  failedAt : Option Int

namespace OutboxRow

/-- `_outbox_envelope` -/
def envelope {P : Type} (decodePayload : JsonValue → P) (messageId : OpaqueId) (row : OutboxRow) :
    Except PyError (OutboxEnvelope P) :=
  if named : row.topic ≠ "" then
    .ok ⟨messageId, row.topic, decodePayload row.payload, row.occurredAt, row.availableAt, row.attempt, named⟩
  else .error (.valueError "outbox topic must not be empty")

/-- The filter of `claim`. -/
def eligible (now : Int) (row : OutboxRow) : Bool :=
  row.deliveredAt.isNone && row.failureReason.isNone && row.availableAt ≤ now && row.claimedUntil.all (· ≤ now)

/-- `order_by("available_at", "message_id")`; ids are ordered by code point. -/
def Before (a b : OpaqueId × OutboxRow) : Prop :=
  a.2.availableAt < b.2.availableAt ∨ a.2.availableAt = b.2.availableAt ∧ a.1.value ≤ b.1.value

instance : DecidableRel Before := fun _ _ => inferInstanceAs (Decidable (_ ∨ _))

/-- `filter(claim_id=…, delivered_at__isnull=True, failure_reason__isnull=True)` -/
def held (claimId : Uuid) (row : OutboxRow) : Bool :=
  row.claimId = some claimId && row.deliveredAt.isNone && row.failureReason.isNone

end OutboxRow

/-- `DjangoOutboxStore.from_model`: the table behind the store. Every call is serial. -/
structure DjangoOutboxStore where
  rows : Dict OpaqueId OutboxRow

namespace DjangoOutboxStore

def empty : DjangoOutboxStore := ⟨.empty⟩

/-- Change the row of a message if it passes the test, and say whether there is one. -/
def update (store : DjangoOutboxStore) (messageId : OpaqueId) (test : OutboxRow → Bool) (change : OutboxRow → OutboxRow) :
    Bool × DjangoOutboxStore :=
  match store.rows.get? messageId with
  | none => (false, store)
  | some row => if test row then (true, ⟨store.rows.set messageId (change row)⟩) else (false, store)

/-- The loop of `claim` over the selected rows, with how many it has seen. -/
def claimRows {P : Type} (decodePayload : JsonValue → P) (deadline : Except PyError Int) (claimIds : Nat → Uuid) :
    List (OpaqueId × OutboxRow) → Nat → Dict OpaqueId OutboxRow →
      Except PyError (List (OutboxClaim P) × Dict OpaqueId OutboxRow)
  | [], _, rows => .ok ([], rows)
  | (messageId, row) :: rest, count, rows => do
    let claimedUntil ← deadline
    let claimed := { row with claimId := some (claimIds count), claimedUntil := some claimedUntil }
    let envelope ← claimed.envelope decodePayload messageId
    let (output, rows) ← claimRows decodePayload deadline claimIds rest (count + 1) (rows.set messageId claimed)
    return (⟨claimIds count, envelope, claimedUntil⟩ :: output, rows)

section
variable {P : Type} (encodePayload : P → JsonValue) (decodePayload : JsonValue → P) (store : DjangoOutboxStore)

def add (envelope : OutboxEnvelope P) : Except PyError OutboxAddResult × DjangoOutboxStore :=
  match validateJson (encodePayload envelope.payload) .default with
  | .error error => (.error error, store)
  | .ok _ =>
    match store.rows.get? envelope.messageId with
    | some _ => (.ok .duplicate, store)
    | none =>
      (.ok .added, ⟨store.rows.set envelope.messageId ⟨envelope.topic, encodePayload envelope.payload, envelope.occurredAt,
        envelope.availableAt, envelope.attempt, none, none, none, none, none⟩⟩)

/-- The rows that a call at `now` locks. -/
def selected (now limit : Int) : List (OpaqueId × OutboxRow) :=
  ((store.rows.items.filter fun entry => entry.2.eligible now).insertionSort OutboxRow.Before).take limit.toNat

/-- `claim`; `claimIds` is what `uuid4` supplies during the call. An exception undoes the block. -/
def claim (now limit claimTtl : Int) (claimIds : Nat → Uuid) :
    Except PyError (List (OutboxClaim P)) × DjangoOutboxStore :=
  if limit ≤ 0 then (.error (.valueError "claim limit must be a positive integer"), store)
  else if claimTtl ≤ 0 then (.error (.valueError "claim limit and ttl must be positive"), store)
  else
    match claimRows decodePayload (datetimeAdd now claimTtl) claimIds (store.selected now limit) 0 store.rows with
    | .error error => (.error error, store)
    | .ok (output, rows) => (.ok output, ⟨rows⟩)

def delivered (claim : OutboxClaim P) (at_ : Int) : Bool × DjangoOutboxStore :=
  store.update claim.envelope.messageId (OutboxRow.held claim.claimId)
    ({ · with deliveredAt := some at_, claimId := none, claimedUntil := none })

/-- The filter of `retry` asks for the claim id alone, and the attempt is counted from the claim's envelope. -/
def retry (claim : OutboxClaim P) (availableAt : Int) : Bool × DjangoOutboxStore :=
  store.update claim.envelope.messageId (fun row => row.claimId = some claim.claimId)
    ({ · with attempt := claim.envelope.attempt + 1, availableAt, claimId := none, claimedUntil := none })

def failed (claim : OutboxClaim P) (reason : String) (at_ : Int) : Except PyError Bool × DjangoOutboxStore :=
  if reason = "" then (.error (.valueError "outbox failure reason must not be empty"), store)
  else
    let settled := store.update claim.envelope.messageId (OutboxRow.held claim.claimId)
      ({ · with failureReason := some reason, failedAt := some at_, claimId := none, claimedUntil := none })
    (.ok settled.1, settled.2)

end

end DjangoOutboxStore

end Pytitect
