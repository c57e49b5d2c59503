import Pytitect.Core
import Pytitect.Lib.Dict

namespace Pytitect

/-- `_EVENT_TYPE`: a letter and up to 254 letters, digits, dots, underscores or dashes. -/
def isEventType (value : String) : Bool :=
  match value.toList with
  | [] => false
  | first :: rest =>
    first.isAlpha && rest.length ≤ 254 && rest.all fun c => c.isAlphanum || c = '.' || c = '_' || c = '-'

/-- A message of the closed profile, whose data are of any type. -/
structure Message (δ : Type) where
  id : String
  source : String
  type : String
  subject : String
  time : Int
  dataschema : String
  data : δ
  correlationid : Option String
  causationid : Option String
  identified : (id ≠ "" ∧ trimmed id) ∧ source ≠ "" ∧ trimmed source
  described : (subject ≠ "" ∧ trimmed subject) ∧ dataschema ≠ "" ∧ trimmed dataschema
  typed : isEventType type
  traced : ∀ trace ∈ correlationid.toList ++ causationid.toList, trace ≠ "" ∧ trimmed trace
  milliseconds : time % 1000 = 0

structure QuarantinePolicy where
  retainPayload : Bool
  maxPayloadBytes : Nat
  maxReasonChars : Nat
  maxMetadataItems : Nat
  positive : 0 < maxPayloadBytes ∧ 0 < maxReasonChars ∧ 0 < maxMetadataItems

structure RejectedDelivery where
  quarantineId : String
  messageId : String
  source : String
  consumer : String
  failedAt : Int
  payloadSha256 : String
  reason : String
  metadata : Dict String String
  payload : Option (List UInt8)
  deriving DecidableEq

/-- The checks of `RejectedDelivery.__post_init__`. -/
def RejectedDelivery.check (record : RejectedDelivery) : Except PyError RejectedDelivery :=
  if record.quarantineId = "" ∨ record.messageId = "" ∨ record.source = "" ∨ record.consumer = "" ∨ record.reason = "" then
    .error (.valueError "rejected delivery identity and reason must not be empty")
  else if record.payloadSha256.length ≠ 64 then
    .error (.valueError "rejected delivery requires a SHA-256 digest")
  else .ok record

theorem RejectedDelivery.check_ok {record checked : RejectedDelivery} (passed : record.check = .ok checked) :
    checked = record := by
  unfold check at passed
  split at passed
  · cases passed
  split at passed
  · cases passed
  · exact (Except.ok.inj passed).symm

/-- The words of the reason joined by single spaces, cut to the policy's length. -/
def sanitized (policy : QuarantinePolicy) (reason : String) : String :=
  let words := (reason.toList.splitOnP isSpace).filter (· ≠ [])
  let text := String.ofList ((List.intercalate [' '] words).take policy.maxReasonChars)
  if text = "" then "rejected" else text

/-- `rejected_delivery`; `sha256` is the hexadecimal digest of a payload. -/
def rejectedDelivery (sha256 : List UInt8 → String) (quarantineId messageId source consumer : String) (failedAt : Int)
    (reason : String) (encodedPayload : List UInt8) (policy : QuarantinePolicy) (metadata : Dict String String) :
    Except PyError RejectedDelivery :=
  if policy.maxMetadataItems < metadata.size then
    .error (.valueError "quarantine metadata exceeds max_metadata_items")
  else if policy.maxPayloadBytes < encodedPayload.length then
    .error (.valueError "quarantine payload exceeds max_payload_bytes")
  else
    RejectedDelivery.check
      ⟨quarantineId, messageId, source, consumer, failedAt, sha256 encodedPayload, sanitized policy reason, metadata,
        if policy.retainPayload then some encodedPayload else none⟩

/-- `InMemoryRejectedDeliveryStore`. -/
structure RejectedDeliveryStore where
  capacity : Nat
  items : Dict String RejectedDelivery

namespace RejectedDeliveryStore

def empty (capacity : Nat) : RejectedDeliveryStore := ⟨capacity, .empty⟩

def add (store : RejectedDeliveryStore) (delivery : RejectedDelivery) : Except PyError Bool × RejectedDeliveryStore :=
  if delivery.quarantineId ∈ store.items.keys then (.ok false, store)
  else if store.capacity ≤ store.items.size then (.error (.overflowError "quarantine capacity exceeded"), store)
  else (.ok true, { store with items := store.items.set delivery.quarantineId delivery })

variable {store : RejectedDeliveryStore} {delivery held : RejectedDelivery} {key : String}

/-- A record, once held, is held for good. -/
theorem add_keeps (found : store.items.get? key = some held) : (store.add delivery).2.items.get? key = some held := by
  unfold add
  split
  · exact found
  split
  · exact found
  · rename_i absent _
    dsimp only
    have different : key ≠ delivery.quarantineId := by
      rintro rfl
      exact absent (Dict.keys_of_get? found)
    rw [Dict.get?_set_of_ne different]
    exact found

/-- After an answer the store holds a record under the id: the new one, or
the one it held before. -/
theorem add_holds {answer : Bool} (answered : (store.add delivery).1 = .ok answer) :
    ∃ held, (store.add delivery).2.items.get? delivery.quarantineId = some held ∧
      (held = delivery ∨ store.items.get? delivery.quarantineId = some held) := by
  unfold add at answered ⊢
  split at answered
  · rename_i present
    rw [if_pos present]
    cases found : store.items.get? delivery.quarantineId with
    | none => exact absurd present (Dict.get?_eq_none.mp found)
    | some held => exact ⟨held, rfl, Or.inr rfl⟩
  · rename_i absent
    rw [if_neg absent]
    split at answered
    · cases answered
    · rename_i room
      rw [if_neg room]
      exact ⟨delivery, by simp, Or.inl rfl⟩

end RejectedDeliveryStore

/-- A record that is made carries the fields it was made from. -/
theorem rejectedDelivery_fields {sha256 : List UInt8 → String} {quarantineId messageId source consumer reason : String}
    {failedAt : Int} {payload : List UInt8} {policy : QuarantinePolicy} {metadata : Dict String String}
    {record : RejectedDelivery}
    (made : rejectedDelivery sha256 quarantineId messageId source consumer failedAt reason payload policy metadata =
      .ok record) :
    record.quarantineId = quarantineId ∧ record.messageId = messageId ∧ record.source = source ∧
      record.consumer = consumer := by
  unfold rejectedDelivery at made
  split at made
  · cases made
  split at made
  · cases made
  · rw [RejectedDelivery.check_ok made]
    exact ⟨rfl, rfl, rfl, rfl⟩

end Pytitect
