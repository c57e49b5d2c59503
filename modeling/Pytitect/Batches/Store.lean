import Pytitect.Core
import Pytitect.Idempotency.Store
import Pytitect.Lib.Dict
import Pytitect.Lib.Selection

namespace Pytitect

inductive BatchPolicy
  | allOrNothing
  | perItem
  deriving DecidableEq

inductive MutationBatchState
  | processing
  | partiallyCommitted
  | completed
  | uncertain
  deriving DecidableEq

def MutationBatchState.executing : MutationBatchState → Bool
  | .processing => true
  | .partiallyCommitted => true
  | _ => false

structure BatchItemReceipt (R : Type) where
  itemId : String
  result : R
  replayed : Bool
  deriving DecidableEq

structure BatchIdentity where
  ns : String
  batchId : String
  deriving DecidableEq

/-- The answers that end a batch without committing it. -/
inductive BatchRefusal
  | conflict (itemId : Option String) (reason : String)
  | inProgress (itemId : Option String) (retryAfter : Int)
  | uncertain (itemId : Option String) (reason : String)
  deriving DecidableEq

/-- `MutationBatchLease`: only leases that pass `__post_init__` exist. -/
structure MutationBatchLease (R : Type) where
  identity : BatchIdentity
  token : Uuid
  state : MutationBatchState
  nextIndex : Nat
  totalItems : Nat
  receipts : List (BatchItemReceipt R)
  expiresAt : Int
  resumed : Bool
  named : identity.ns ≠ "" ∧ identity.batchId ≠ ""
  executing : state.executing = true
  progress : nextIndex ≤ totalItems
  agree : nextIndex = receipts.length
  deriving DecidableEq

inductive MutationBatchBeginResult (R : Type)
  | lease (lease : MutationBatchLease R)
  | replay (receipts : List (BatchItemReceipt R))
  | refused (refusal : BatchRefusal)

inductive MutationBatchRenewResult (R : Type)
  | renewed (lease : MutationBatchLease R)
  | stale (reason : String)

inductive MutationBatchAdvanceResult (R : Type)
  | progressed (lease : MutationBatchLease R)
  | stale (reason : String)

inductive MutationBatchCompleteResult
  | completed (retainedUntil : Int)
  | stale (reason : String)

inductive MutationBatchUncertainResult
  | markedUncertain (retainedUntil : Int)
  | stale (reason : String)

def staleLeaseReason : String := "batch lease is absent, expired, or no longer authoritative"

structure StoredBatch (R : Type) where
  fingerprint : RequestFingerprint
  totalItems : Nat
  token : Uuid
  state : MutationBatchState
  nextIndex : Nat
  receipts : List (BatchItemReceipt R)
  leaseExpiresAt : Int
  retentionExpiresAt : Option Int
  uncertaintyReason : Option String
  deriving DecidableEq

/-- `_lease`: the checks of `MutationBatchLease.__post_init__` in their order. -/
def StoredBatch.lease {R : Type} (stored : StoredBatch R) (identity : BatchIdentity) (resumed : Bool) :
    Except PyError (MutationBatchLease R) :=
  if named : identity.ns ≠ "" ∧ identity.batchId ≠ "" then
    if executing : stored.state.executing = true then
      if progress : stored.nextIndex ≤ stored.totalItems then
        if agree : stored.nextIndex = stored.receipts.length then
          .ok ⟨identity, stored.token, stored.state, stored.nextIndex, stored.totalItems, stored.receipts,
            stored.leaseExpiresAt, resumed, named, executing, progress, agree⟩
        else .error (.valueError "batch progress and receipts must agree")
      else .error (.valueError "batch lease progress is invalid")
    else .error (.valueError "a batch lease must be in an executing state")
  else .error (.valueError "batch lease identity must not be empty")

def StoredBatch.expired {R : Type} (stored : StoredBatch R) (now : Int) : Bool :=
  stored.state = .completed && stored.retentionExpiresAt.any (· ≤ now)

def StoredBatch.purgeable {R : Type} (stored : StoredBatch R) (plan : PurgeIdempotencyPlan) : Bool :=
  (stored.state = .completed || (plan.includeUncertain && stored.state = .uncertain)) &&
    stored.retentionExpiresAt.any (· ≤ plan.cutoff)

/-- The answer for a present batch, unless its lease has run out and the
caller may resume it. -/
def StoredBatch.decide {R : Type} (current : StoredBatch R) (fingerprint : RequestFingerprint)
    (totalItems : Nat) (now : Int) : Option (MutationBatchBeginResult R) :=
  if current.fingerprint ≠ fingerprint ∨ current.totalItems ≠ totalItems then
    some (.refused (.conflict none "the batch ID was used with different items"))
  else if current.state = .completed then some (.replay current.receipts)
  else if current.state = .uncertain then
    some (.refused (.uncertain none
      (match current.uncertaintyReason with
        | some reason => if reason = "" then "the prior batch outcome is unknown" else reason
        | none => "the prior batch outcome is unknown")))
  else if now < current.leaseExpiresAt then some (.refused (.inProgress none current.leaseExpiresAt))
  else none

/-- `InMemoryMutationBatchStore`. -/
structure MutationBatchStore (R : Type) where
  capacity : Nat
  entries : Dict BatchIdentity (StoredBatch R)
  tokens : Dict Uuid BatchIdentity

namespace MutationBatchStore
variable {R : Type}

def empty (capacity : Nat) : MutationBatchStore R := ⟨capacity, .empty, .empty⟩

def write (s : MutationBatchStore R) (identity : BatchIdentity) (stored : StoredBatch R) : MutationBatchStore R :=
  { s with entries := s.entries.set identity stored }

/-- `_purge_terminal`. -/
def purgeTerminal (s : MutationBatchStore R) (now : Int) : MutationBatchStore R :=
  { s with entries := s.entries.popAll ((s.entries.items.filter (fun item => item.2.expired now)).map Prod.fst) }

/-- `begin`. The token is the one a fresh `uuid4` supplies to this call; a
resumed batch has its old token popped and the new one assigned before the
new expiry is computed. -/
def begin (s : MutationBatchStore R) (identity : BatchIdentity) (fingerprint : RequestFingerprint)
    (totalItems : Nat) (now leaseTtl : Int) (token : Uuid) :
    Except PyError (MutationBatchBeginResult R) × MutationBatchStore R :=
  if leaseTtl ≤ 0 then (.error (.valueError "lease_ttl must be positive"), s)
  else if identity.ns = "" ∨ identity.batchId = "" then
    (.error (.valueError "batch namespace and ID must not be empty"), s)
  else
    let s := s.purgeTerminal now
    match s.entries.get? identity with
    | some current =>
      let s := { s with entries := s.entries.moveToEnd identity }
      match current.decide fingerprint totalItems now with
      | some result => (.ok result, s)
      | none =>
        let popped := { s with tokens := s.tokens.pop current.token }
        match datetimeAdd now leaseTtl with
        | .error error => (.error error, popped.write identity { current with token })
        | .ok expiresAt =>
          let current := { current with token, leaseExpiresAt := expiresAt }
          ((current.lease identity true).map .lease,
            { popped.write identity current with tokens := popped.tokens.set token identity })
    | none =>
      if s.capacity ≤ s.entries.size then
        (.ok (.refused (.uncertain none "mutation batch capacity exceeded; no lease was issued")), s)
      else
        match datetimeAdd now leaseTtl with
        | .error error => (.error error, s)
        | .ok expiresAt =>
          let stored : StoredBatch R := ⟨fingerprint, totalItems, token, .processing, 0, [], expiresAt, none, none⟩
          ((stored.lease identity false).map .lease,
            { s.write identity stored with tokens := s.tokens.set token identity })

/-- The order of `purge`: the retention instant of a selected batch, then its identity. -/
def purgeOrder (a b : BatchIdentity × StoredBatch R) : Bool :=
  ((compare (a.2.retentionExpiresAt.getD 0) (b.2.retentionExpiresAt.getD 0)).then
    ((compare a.1.ns b.1.ns).then (compare a.1.batchId b.1.batchId))).isLE

def purge (s : MutationBatchStore R) (plan : PurgeIdempotencyPlan) : MaintenanceSummary × MutationBatchStore R :=
  let selected := (s.entries.items.filter (fun item => item.2.purgeable plan)).firstBy purgeOrder plan.batchSize
  (⟨selected.length, if plan.dryRun then 0 else selected.length, plan.dryRun⟩,
    if plan.dryRun then s else { s with entries := s.entries.popAll (selected.map Prod.fst) })

variable [DecidableEq R]

/-- `_active`: the stored batch, if the presented lease is exactly its current one. -/
def active (s : MutationBatchStore R) (lease : MutationBatchLease R) (now : Int) : Option (StoredBatch R) :=
  if s.tokens.get? lease.token ≠ some lease.identity then none
  else
    match s.entries.get? lease.identity with
    | none => none
    | some current =>
      if current.token ≠ lease.token ∨ current.state.executing = false ∨ current.leaseExpiresAt ≤ now ∨
        current.leaseExpiresAt ≠ lease.expiresAt ∨ current.nextIndex ≠ lease.nextIndex ∨
        current.receipts ≠ lease.receipts then none
      else some current

def renew (s : MutationBatchStore R) (lease : MutationBatchLease R) (now leaseTtl : Int) :
    Except PyError (MutationBatchRenewResult R) × MutationBatchStore R :=
  if leaseTtl ≤ 0 then (.error (.valueError "lease_ttl must be positive"), s)
  else
    match s.active lease now with
    | none => (.ok (.stale staleLeaseReason), s)
    | some current =>
      match datetimeAdd now leaseTtl with
      | .error error => (.error error, s)
      | .ok expiresAt =>
        let current := { current with leaseExpiresAt := expiresAt }
        ((current.lease lease.identity lease.resumed).map .renewed, s.write lease.identity current)

def advance (s : MutationBatchStore R) (lease : MutationBatchLease R) (receipt : BatchItemReceipt R)
    (now leaseTtl : Int) : Except PyError (MutationBatchAdvanceResult R) × MutationBatchStore R :=
  if leaseTtl ≤ 0 then (.error (.valueError "lease_ttl must be positive"), s)
  else
    match s.active lease now with
    | none => (.ok (.stale "batch progress is stale or already complete"), s)
    | some current =>
      if current.totalItems ≤ current.nextIndex then
        (.ok (.stale "batch progress is stale or already complete"), s)
      else
        let current := { current with
          receipts := current.receipts ++ [receipt]
          nextIndex := current.nextIndex + 1
          state := .partiallyCommitted }
        match datetimeAdd now leaseTtl with
        | .error error => (.error error, s.write lease.identity current)
        | .ok expiresAt =>
          let current := { current with leaseExpiresAt := expiresAt }
          ((current.lease lease.identity lease.resumed).map .progressed, s.write lease.identity current)

def complete (s : MutationBatchStore R) (lease : MutationBatchLease R) (now retentionTtl : Int) :
    Except PyError MutationBatchCompleteResult × MutationBatchStore R :=
  if retentionTtl ≤ 0 then (.error (.valueError "retention_ttl must be positive"), s)
  else
    match s.active lease now with
    | none => (.ok (.stale "batch is stale or has uncommitted items"), s)
    | some current =>
      if current.nextIndex ≠ current.totalItems then
        (.ok (.stale "batch is stale or has uncommitted items"), s)
      else
        let current := { current with state := .completed }
        match datetimeAdd now retentionTtl with
        | .error error => (.error error, s.write lease.identity current)
        | .ok retainedUntil =>
          (.ok (.completed retainedUntil),
            { s.write lease.identity { current with retentionExpiresAt := some retainedUntil } with
              tokens := s.tokens.pop current.token })

def markUncertain (s : MutationBatchStore R) (lease : MutationBatchLease R) (reason : String)
    (now retentionTtl : Int) : Except PyError MutationBatchUncertainResult × MutationBatchStore R :=
  if retentionTtl ≤ 0 then (.error (.valueError "retention_ttl must be positive"), s)
  else if reason = "" then (.error (.valueError "an uncertainty reason is required"), s)
  else
    match s.active lease now with
    | none => (.ok (.stale staleLeaseReason), s)
    | some current =>
      let current := { current with state := .uncertain, uncertaintyReason := some reason }
      match datetimeAdd now retentionTtl with
      | .error error => (.error error, s.write lease.identity current)
      | .ok retainedUntil =>
        (.ok (.markedUncertain retainedUntil),
          { s.write lease.identity { current with retentionExpiresAt := some retainedUntil } with
            tokens := s.tokens.pop current.token })

end MutationBatchStore

end Pytitect
