import Pytitect.Outbox.Store

namespace Pytitect

inductive SettlementResult
  | applied
  | stale
  | deferred
  deriving DecidableEq

/-- `InMemoryAsyncOutboxStore`. Each operation runs under one lock. -/
structure AsyncOutboxStore (P : Type) where
  store : OutboxStore P
  uncertainAt : Dict OpaqueId Int

namespace AsyncOutboxStore
variable {P : Type}

def empty (capacity : Nat) : AsyncOutboxStore P := ⟨.empty capacity, .empty⟩

def add (s : AsyncOutboxStore P) (envelope : OutboxEnvelope P) : Except PyError OutboxAddResult × AsyncOutboxStore P :=
  ((s.store.add envelope).1, { s with store := (s.store.add envelope).2 })

/-- The comprehension that pops the messages with these ids; an id that is not
there raises, and what was popped before it is lost. -/
def hold (items : Dict OpaqueId (StoredMessage P)) :
    List OpaqueId → Except PyError (List (OpaqueId × StoredMessage P)) × Dict OpaqueId (StoredMessage P)
  | [] => (.ok [], items)
  | messageId :: rest =>
    match items.get? messageId with
    | none => (.error (.lookupError messageId.value), items)
    | some item =>
      match hold (items.pop messageId) rest with
      | (.error error, left) => (.error error, left)
      | (.ok held, left) => (.ok ((messageId, item) :: held), left)

/-- A message without its claim. -/
def released (item : StoredMessage P) : StoredMessage P := { item with claimId := none, claimedUntil := none }

/-- The loop over the claims of a bounded call: those that do not fit are released. -/
def bounded (size : P → Except PyError Int) (maxBytes : Int) :
    List (OutboxClaim P) → Int → OutboxStore P → Except PyError (List (OutboxClaim P)) × OutboxStore P
  | [], _, store => (.ok [], store)
  | claim :: rest, retained, store =>
    match size claim.envelope.payload with
    | .error error => (.error error, store)
    | .ok size' =>
      if size' < 0 then (.error (.valueError "payload size must not be negative"), store)
      else if retained + size' ≤ maxBytes then
        match bounded size maxBytes rest (retained + size') store with
        | (.error error, after) => (.error error, after)
        | (.ok selected, after) => (.ok (claim :: selected), after)
      else
        match store.valid claim with
        | none => (.error (.raised "AssertionError"), store)
        | some item =>
          bounded size maxBytes rest retained
            { store with items := store.items.set claim.envelope.messageId (released item) }

/-- What is left of the claims of a call with or without `max_bytes`. -/
def limited (size : P → Except PyError Int) (maxBytes : Option Int) (result : Except PyError (List (OutboxClaim P)))
    (store : OutboxStore P) : Except PyError (List (OutboxClaim P)) × OutboxStore P :=
  match result, maxBytes with
  | .error error, _ => (.error error, store)
  | .ok claims, none => (.ok claims, store)
  | .ok claims, some maxBytes => bounded size maxBytes claims 0 store

/-- `claim`; `size` is `_size`, whose callback may raise. The uncertain messages are
out of the store while it claims. -/
def claim (s : AsyncOutboxStore P) (size : P → Except PyError Int) (now limit claimTtl : Int) (maxBytes : Option Int)
    (claimIds : Nat → Uuid) : Except PyError (List (OutboxClaim P)) × AsyncOutboxStore P :=
  if maxBytes.any (· ≤ 0) then (.error (.valueError "max_bytes must be positive"), s)
  else
    match hold s.store.items s.uncertainAt.keys with
    | (.error error, left) => (.error error, { s with store := { s.store with items := left } })
    | (.ok held, left) =>
      let claimed := { s.store with items := left }.claim now limit claimTtl claimIds
      let limited := limited size maxBytes claimed.1 { claimed.2 with items := claimed.2.items.setAll held }
      (limited.1, { s with store := limited.2 })

/-- `_current`. -/
def current (s : AsyncOutboxStore P) (claim : OutboxClaim P) (at_ : Int) : Bool :=
  match s.store.valid claim with
  | none => false
  | some item => item.claimedUntil = some claim.claimedUntil && at_ < claim.claimedUntil

def delivered (s : AsyncOutboxStore P) (claim : OutboxClaim P) (at_ : Int) : SettlementResult × AsyncOutboxStore P :=
  if s.current claim at_ then (.applied, { s with store := (s.store.delivered claim at_).2 }) else (.stale, s)

def retry (s : AsyncOutboxStore P) (claim : OutboxClaim P) (availableAt at_ : Int) : SettlementResult × AsyncOutboxStore P :=
  if s.current claim at_ then (.applied, { s with store := (s.store.retry claim availableAt).2 }) else (.stale, s)

def markDeferred (availableAt : Int) (item : StoredMessage P) : StoredMessage P :=
  { item with envelope := { item.envelope with availableAt } }

def defer (s : AsyncOutboxStore P) (claim : OutboxClaim P) (availableAt at_ : Int) : SettlementResult × AsyncOutboxStore P :=
  if s.current claim at_ then (.deferred, { s with store := (s.store.settle claim (markDeferred availableAt)).2 })
  else (.stale, s)

def failed (s : AsyncOutboxStore P) (claim : OutboxClaim P) (reason : String) (at_ : Int) :
    Except PyError SettlementResult × AsyncOutboxStore P :=
  if s.current claim at_ then
    ((s.store.failed claim reason at_).1.map fun _ => .applied, { s with store := (s.store.failed claim reason at_).2 })
  else (.ok .stale, s)

/-- `uncertain`: the message loses its claim and is held under the stamp. -/
def uncertain (s : AsyncOutboxStore P) (claim : OutboxClaim P) (reason : String) (at_ : Int) :
    Except PyError SettlementResult × AsyncOutboxStore P :=
  if reason = "" then (.error (.valueError "uncertainty reason must not be empty"), s)
  else if s.current claim at_ then
    (.ok .applied, ⟨(s.store.settle claim id).2, s.uncertainAt.set claim.envelope.messageId at_⟩)
  else (.ok .stale, s)

def markResolved (delivered : Bool) (availableAt at_ : Int) (item : StoredMessage P) : StoredMessage P :=
  { item with deliveredAt := if delivered then some at_ else none, envelope := { item.envelope with availableAt } }

def resolveUncertain (s : AsyncOutboxStore P) (messageId : OpaqueId) (expectedAt : Int) (delivered : Bool)
    (availableAt at_ : Int) : Except PyError SettlementResult × AsyncOutboxStore P :=
  if s.uncertainAt.get? messageId ≠ some expectedAt then (.ok .stale, s)
  else
    match s.store.items.get? messageId with
    | none => (.error (.lookupError messageId.value), s)
    | some item =>
      (.ok .applied, ⟨{ s.store with items := s.store.items.set messageId (markResolved delivered availableAt at_ item) },
        s.uncertainAt.pop messageId⟩)

end AsyncOutboxStore

end Pytitect
