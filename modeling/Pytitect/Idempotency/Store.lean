import Pytitect.Core
import Pytitect.Lib.Dict
import Pytitect.Lib.Selection

namespace Pytitect

structure IdempotencyScope where
  ns : String
  subject : String
  operation : String
  nonempty : ns ≠ "" ∧ subject ≠ "" ∧ operation ≠ ""
  deriving DecidableEq

@[ext]
structure ReservationToken where
  value : String
  nonempty : value ≠ ""

instance : DecidableEq ReservationToken := fun _ _ => decidable_of_iff _ ReservationToken.ext_iff.symm

structure RequestFingerprint where
  value : String
  deriving DecidableEq

/-- Independent execution and terminal-state retention periods. -/
structure IdempotencyPolicy where
  executionLeaseTtl : Int
  resultRetentionTtl : Int
  uncertaintyRetentionTtl : Int
  positive : 0 < executionLeaseTtl ∧ 0 < resultRetentionTtl ∧ 0 < uncertaintyRetentionTtl

inductive IdempotencyDecision (T : Type)
  | execute (token : ReservationToken)
  | replay (value : T)
  | conflict (reason : String)
  | inProgress (retryAfter : Int)
  | uncertain (reason : String)
  deriving DecidableEq

inductive RenewReservationResult
  | renewed (expiresAt : Int)
  | stale (reason : String)
  deriving DecidableEq

inductive CompleteReservationResult
  | completed (retainedUntil : Int)
  | stale (reason : String)
  deriving DecidableEq

inductive MarkUncertainResult
  | markedUncertain (retainedUntil : Int)
  | stale (reason : String)
  deriving DecidableEq

inductive AbandonReservationResult
  | abandoned
  | stale (reason : String)
  deriving DecidableEq

def conflictReason : String := "the idempotency key was used with a different request"

def staleReason : String := "reservation is absent, expired, or no longer executing"

/-- The three states of an entry; a value exists only once completed and a
reason only once uncertain. -/
inductive EntryState (T : Type)
  | reserved
  | completed (value : T)
  | uncertain (reason : String)
  deriving DecidableEq

def EntryState.isReserved {T : Type} : EntryState T → Bool
  | .reserved => true
  | _ => false

def EntryState.isUncertain {T : Type} : EntryState T → Bool
  | .uncertain _ => true
  | _ => false

structure Entry (T : Type) where
  token : ReservationToken
  fingerprint : RequestFingerprint
  expiresAt : Int
  state : EntryState T
  deriving DecidableEq

section
variable {T : Type}

def Entry.expired (entry : Entry T) (now : Int) : Bool :=
  entry.expiresAt ≤ now && !entry.state.isUncertain

def Entry.purgeable (entry : Entry T) (plan : PurgeIdempotencyPlan) : Bool :=
  entry.expiresAt ≤ plan.cutoff && (!entry.state.isUncertain || plan.includeUncertain)

/-- The decision for a present entry with the same identity. -/
def Entry.decide (current : Entry T) (fingerprint : RequestFingerprint) : IdempotencyDecision T :=
  if current.fingerprint ≠ fingerprint then .conflict conflictReason
  else
    match current.state with
    | .completed value => .replay value
    | .uncertain reason => .uncertain (if reason = "" then "the prior outcome is unknown" else reason)
    | .reserved => .inProgress current.expiresAt

/-- Set the expiry last: an instant beyond the calendar raises after the
other fields have been assigned. -/
def Entry.expireAt {R : Type} (entry : Entry T) (expiresAt : Except PyError Int) (result : Int → R) :
    Except PyError R × Entry T :=
  match expiresAt with
  | .error error => (.error error, entry)
  | .ok expiresAt => (.ok (result expiresAt), { entry with expiresAt })

end

/-- The scope of a reservation and the key the consumer supplied. -/
structure IdempotencyIdentity where
  scope : IdempotencyScope
  key : String
  deriving DecidableEq

/-- `InMemoryIdempotencyStore`: the entries and the index of their tokens. -/
structure IdempotencyStore (T : Type) where
  capacity : Nat
  entries : Dict IdempotencyIdentity (Entry T)
  tokens : Dict ReservationToken IdempotencyIdentity

namespace IdempotencyStore
variable {T : Type}

def empty (capacity : Nat) : IdempotencyStore T := ⟨capacity, .empty, .empty⟩

/-- Pop the selected entries together with their tokens. -/
def remove (s : IdempotencyStore T) (selected : List (IdempotencyIdentity × Entry T)) : IdempotencyStore T :=
  { s with
    entries := s.entries.popAll (selected.map Prod.fst)
    tokens := s.tokens.popAll (selected.map (·.2.token)) }

/-- `_purge`: every reservation forgets what has expired, save uncertainty. -/
def purgeExpired (s : IdempotencyStore T) (now : Int) : IdempotencyStore T :=
  s.remove (s.entries.items.filter (fun item => item.2.expired now))

/-- `_executing`: the identity and entry a token is still authoritative for. -/
def executing (s : IdempotencyStore T) (token : ReservationToken) (now : Int) :
    Option (IdempotencyIdentity × Entry T) :=
  match s.tokens.get? token with
  | none => none
  | some identity =>
    match s.entries.get? identity with
    | none => none
    | some entry =>
      if entry.token ≠ token ∨ ¬entry.state.isReserved ∨ entry.expiresAt ≤ now then none
      else some (identity, entry)

/-- `reserve`. The token is the one a fresh `uuid4` supplies to this call. -/
def reserve (s : IdempotencyStore T) (scope : IdempotencyScope) (key : String)
    (fingerprint : RequestFingerprint) (now : Int) (leaseTtl : Int) (token : ReservationToken) :
    Except PyError (IdempotencyDecision T) × IdempotencyStore T :=
  if key = "" then (.error (.valueError "idempotency key must be supplied by the consumer"), s)
  else if leaseTtl ≤ 0 then (.error (.valueError "lease_ttl must be positive"), s)
  else
    let s := s.purgeExpired now
    match s.entries.get? ⟨scope, key⟩ with
    | some current =>
      (.ok (current.decide fingerprint), { s with entries := s.entries.moveToEnd ⟨scope, key⟩ })
    | none =>
      if s.capacity ≤ s.entries.size then
        (.ok (.uncertain "idempotency capacity exceeded; no reservation was made"), s)
      else
        match datetimeAdd now leaseTtl with
        | .error error => (.error error, s)
        | .ok expiresAt =>
          (.ok (.execute token),
            { s with
              entries := s.entries.set ⟨scope, key⟩ ⟨token, fingerprint, expiresAt, .reserved⟩
              tokens := s.tokens.set token ⟨scope, key⟩ })

/-- Rewrite the entry a token is authoritative for; without authority the
stale answer is returned and nothing changes. -/
def updateExecuting {R : Type} (s : IdempotencyStore T) (token : ReservationToken) (now : Int)
    (stale : R) (update : Entry T → Except PyError R × Entry T) : Except PyError R × IdempotencyStore T :=
  match s.executing token now with
  | none => (.ok stale, s)
  | some (identity, entry) =>
    ((update entry).1, { s with entries := s.entries.set identity (update entry).2 })

def renew (s : IdempotencyStore T) (token : ReservationToken) (now : Int) (leaseTtl : Int) :
    Except PyError RenewReservationResult × IdempotencyStore T :=
  if leaseTtl ≤ 0 then (.error (.valueError "lease_ttl must be positive"), s)
  else s.updateExecuting token now (.stale staleReason) fun entry =>
    entry.expireAt (datetimeAdd now leaseTtl) .renewed

def complete (s : IdempotencyStore T) (token : ReservationToken) (value : T) (now : Int)
    (retentionTtl : Int) : Except PyError CompleteReservationResult × IdempotencyStore T :=
  if retentionTtl ≤ 0 then (.error (.valueError "retention_ttl must be positive"), s)
  else s.updateExecuting token now (.stale staleReason) fun entry =>
    Entry.expireAt { entry with state := .completed value } (datetimeAdd now retentionTtl) .completed

def markUncertain (s : IdempotencyStore T) (token : ReservationToken) (reason : String) (now : Int)
    (retentionTtl : Int) : Except PyError MarkUncertainResult × IdempotencyStore T :=
  if reason = "" then (.error (.valueError "an uncertainty reason is required"), s)
  else if retentionTtl ≤ 0 then (.error (.valueError "retention_ttl must be positive"), s)
  else s.updateExecuting token now (.stale staleReason) fun entry =>
    Entry.expireAt { entry with state := .uncertain reason } (datetimeAdd now retentionTtl) .markedUncertain

def abandon (s : IdempotencyStore T) (token : ReservationToken) (now : Int) :
    Except PyError AbandonReservationResult × IdempotencyStore T :=
  match s.executing token now with
  | none => (.ok (.stale staleReason), s)
  | some (identity, _) =>
    (.ok .abandoned, { s with entries := s.entries.pop identity, tokens := s.tokens.pop token })

/-- The order of `purge`: oldest expiry first, then the identity. -/
def purgeOrder (a b : IdempotencyIdentity × Entry T) : Bool :=
  ((compare a.2.expiresAt b.2.expiresAt).then
    ((compare a.1.scope.ns b.1.scope.ns).then
      ((compare a.1.scope.subject b.1.scope.subject).then
        ((compare a.1.scope.operation b.1.scope.operation).then (compare a.1.key b.1.key))))).isLE

def purgeSelected (s : IdempotencyStore T) (plan : PurgeIdempotencyPlan) : List (IdempotencyIdentity × Entry T) :=
  (s.entries.items.filter (fun item => item.2.purgeable plan)).firstBy purgeOrder plan.batchSize

def purge (s : IdempotencyStore T) (plan : PurgeIdempotencyPlan) :
    MaintenanceSummary × IdempotencyStore T :=
  let selected := s.purgeSelected plan
  (⟨selected.length, if plan.dryRun then 0 else selected.length, plan.dryRun⟩,
    if plan.dryRun then s else s.remove selected)

end IdempotencyStore

end Pytitect
