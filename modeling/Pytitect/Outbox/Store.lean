import Pytitect.Core
import Pytitect.Lib.Selection
import Pytitect.Lib.Walk
import Mathlib.Data.List.Sort

namespace Pytitect

@[ext]
structure OutboxEnvelope (P : Type) where
  messageId : OpaqueId
  topic : String
  payload : P
  occurredAt : Int
  availableAt : Int
  attempt : Nat
  named : topic ≠ ""

instance {P : Type} [DecidableEq P] : DecidableEq (OutboxEnvelope P) := fun _ _ => decidable_of_iff _ OutboxEnvelope.ext_iff.symm

structure OutboxClaim (P : Type) where
  claimId : Uuid
  envelope : OutboxEnvelope P
  claimedUntil : Int
  deriving DecidableEq

structure FailedOutboxEnvelope (P : Type) where
  envelope : OutboxEnvelope P
  reason : String
  failedAt : Int

inductive OutboxAddResult
  | added
  | duplicate
  deriving DecidableEq

/-- `PurgeDeliveredOutboxPlan` and `ArchiveFailedOutboxPlan`. -/
structure OutboxPlan where
  cutoff : Int
  batchSize : Nat
  dryRun : Bool
  positive : 0 < batchSize

/-- `_Stored`. -/
structure StoredMessage (P : Type) where
  envelope : OutboxEnvelope P
  claimId : Option Uuid
  claimedUntil : Option Int
  deliveredAt : Option Int
  failureReason : Option String
  failedAt : Option Int

/-- `InMemoryOutboxStore`. -/
structure OutboxStore (P : Type) where
  capacity : Nat
  items : Dict OpaqueId (StoredMessage P)

namespace OutboxStore
variable {P : Type}

def empty (capacity : Nat) : OutboxStore P := ⟨capacity, .empty⟩

def add (s : OutboxStore P) (envelope : OutboxEnvelope P) : Except PyError OutboxAddResult × OutboxStore P :=
  if envelope.messageId ∈ s.items.keys then (.ok .duplicate, s)
  else if s.capacity ≤ s.items.size then (.error (.overflowError "outbox capacity exceeded"), s)
  else (.ok .added, { s with items := s.items.set envelope.messageId ⟨envelope, none, none, none, none, none⟩ })

/-- The order in which messages are looked at: by `available_at`, then by id. -/
def Before (a b : OpaqueId × StoredMessage P) : Prop :=
  a.2.envelope.availableAt < b.2.envelope.availableAt ∨
    a.2.envelope.availableAt = b.2.envelope.availableAt ∧
      a.2.envelope.messageId.value ≤ b.2.envelope.messageId.value

instance : DecidableRel (Before (P := P)) := fun _ _ => inferInstanceAs (Decidable (_ ∨ _))

/-- A message that a call at `now` may claim. -/
def eligible (now : Int) (entry : OpaqueId × StoredMessage P) : Bool :=
  entry.2.envelope.availableAt ≤ now && entry.2.deliveredAt.isNone && entry.2.failureReason.isNone &&
    entry.2.claimedUntil.all (· ≤ now)

/-- Claim one message. The new claim id is in place before the new deadline is
computed, which may overflow. -/
def claimMessage (claimedUntil : Except PyError Int) (claimId : Uuid) (item : StoredMessage P) :
    Except PyError (OutboxClaim P) × StoredMessage P :=
  match claimedUntil with
  | .error error => (.error error, { item with claimId := some claimId })
  | .ok claimedUntil =>
    (.ok ⟨claimId, item.envelope, claimedUntil⟩, { item with claimId := some claimId, claimedUntil := some claimedUntil })

/-- `claim`; `claimIds` is what `uuid4` supplies during the call. -/
def claim (s : OutboxStore P) (now limit claimTtl : Int) (claimIds : Nat → Uuid) :
    Except PyError (List (OutboxClaim P)) × OutboxStore P :=
  if limit ≤ 0 then (.error (.valueError "claim limit must be a positive integer"), s)
  else if claimTtl ≤ 0 then (.error (.valueError "claim limit and ttl must be positive"), s)
  else
    let walked := Dict.walk (eligible now)
      (fun count entry => claimMessage (datetimeAdd now claimTtl) (claimIds count) entry.2) limit.toNat
      (s.items.items.insertionSort Before) 0 s.items
    (walked.1, { s with items := walked.2 })

/-- `_valid`: the message, if the claim may still settle it. -/
def valid (s : OutboxStore P) (claim : OutboxClaim P) : Option (StoredMessage P) :=
  match s.items.get? claim.envelope.messageId with
  | none => none
  | some item =>
    if item.claimId ≠ some claim.claimId ∨ item.deliveredAt ≠ none ∨ item.failureReason ≠ none then none else some item

/-- What the settlements share: a valid claim changes its message and is gone. -/
def settle (s : OutboxStore P) (claim : OutboxClaim P) (change : StoredMessage P → StoredMessage P) : Bool × OutboxStore P :=
  match s.valid claim with
  | none => (false, s)
  | some item =>
    (true, { s with items := s.items.set claim.envelope.messageId { change item with claimId := none, claimedUntil := none } })

def markDelivered (at_ : Int) (item : StoredMessage P) : StoredMessage P := { item with deliveredAt := some at_ }

def markRetried (availableAt : Int) (item : StoredMessage P) : StoredMessage P :=
  { item with envelope := { item.envelope with attempt := item.envelope.attempt + 1, availableAt } }

def markFailed (reason : String) (at_ : Int) (item : StoredMessage P) : StoredMessage P :=
  { item with failureReason := some reason, failedAt := some at_ }

def delivered (s : OutboxStore P) (claim : OutboxClaim P) (at_ : Int) : Bool × OutboxStore P :=
  s.settle claim (markDelivered at_)

def retry (s : OutboxStore P) (claim : OutboxClaim P) (availableAt : Int) : Bool × OutboxStore P :=
  s.settle claim (markRetried availableAt)

def failed (s : OutboxStore P) (claim : OutboxClaim P) (reason : String) (at_ : Int) : Except PyError Bool × OutboxStore P :=
  if reason = "" then (.error (.valueError "outbox failure reason must not be empty"), s)
  else (.ok (s.settle claim (markFailed reason at_)).1, (s.settle claim (markFailed reason at_)).2)

/-- The order of a clean-up: by the time of the settlement, then by id. -/
def settledOrder (settledAt : StoredMessage P → Option Int) (a b : StoredMessage P) : Bool :=
  ((compare (settledAt a) (settledAt b)).then (compare a.envelope.messageId.value b.envelope.messageId.value)).isLE

/-- The messages of a clean-up: those settled up to the cutoff, oldest first. -/
def selected (s : OutboxStore P) (settledAt : StoredMessage P → Option Int) (keep : StoredMessage P → Bool) (plan : OutboxPlan) :
    List (StoredMessage P) :=
  ((s.items.items.map Prod.snd).filter fun item => keep item && (settledAt item).any (· ≤ plan.cutoff)).firstBy
    (settledOrder settledAt) plan.batchSize

def summary (selected : List (StoredMessage P)) (plan : OutboxPlan) : MaintenanceSummary :=
  ⟨selected.length, if plan.dryRun then 0 else selected.length, plan.dryRun⟩

def popped (s : OutboxStore P) (selected : List (StoredMessage P)) : OutboxStore P :=
  { s with items := s.items.popAll (selected.map (·.envelope.messageId)) }

def purgeDelivered (s : OutboxStore P) (plan : OutboxPlan) : MaintenanceSummary × OutboxStore P :=
  let selected := s.selected (·.deliveredAt) (fun _ => true) plan
  (summary selected plan, if plan.dryRun then s else s.popped selected)

/-- What is archived of a failed message; an empty reason is refused. -/
def failedEnvelope (item : StoredMessage P) : Except PyError (FailedOutboxEnvelope P) :=
  let reason := item.failureReason.getD ""
  if reason = "" then .error (.valueError "outbox failure reason must not be empty")
  else .ok ⟨item.envelope, reason, item.failedAt.getD 0⟩

/-- `archive_failed`; the messages are popped once `archive` has returned. -/
def archiveFailed (s : OutboxStore P) (plan : OutboxPlan) (archive : List (FailedOutboxEnvelope P) → Except PyError Unit) :
    Except PyError MaintenanceSummary × OutboxStore P :=
  let selected := s.selected (·.failedAt) (·.failureReason.isSome) plan
  if plan.dryRun ∨ selected = [] then (.ok (summary selected plan), s)
  else
    match selected.mapM failedEnvelope >>= archive with
    | .error error => (.error error, s)
    | .ok _ => (.ok (summary selected plan), s.popped selected)

end OutboxStore

end Pytitect
