import Pytitect.Django.Idempotency
import Pytitect.Receipts.Tables

namespace Pytitect

/-- A row of the consumer's mapped class, less the columns of its unique index. -/
structure IdempotencyRecord where
  fingerprint : String
  token : String
  state : RowState
  expiresAt : Int
  result : Option (List UInt8)
  reason : Option String

namespace IdempotencyRecord

/-- The row is over for a reservation or a lookup at `now`; uncertainty never is. -/
def lapsed (row : IdempotencyRecord) (now : Int) : Bool := row.expiresAt ≤ now && row.state ≠ .uncertain

/-- `_authority`: `dbNow` is what `clock_timestamp()` reads. -/
def authority (token : ReservationToken) (now dbNow : Int) (row : IdempotencyRecord) : Bool :=
  row.token = token.value && row.state = .reserved && max now dbNow < row.expiresAt

/-- `_decision` -/
def decision {T : Type} (serializer : PayloadSerializer T) (row : IdempotencyRecord) (fingerprint : RequestFingerprint) :
    IdempotencyDecision T :=
  if row.fingerprint ≠ fingerprint.value then .conflict conflictReason
  else
    match row.state with
    | .completed => .replay (serializer.decode (row.result.getD []))
    | .uncertain =>
      let reason := row.reason.getD ""
      .uncertain (if reason = "" then "outcome unknown" else reason)
    | .reserved => .inProgress row.expiresAt

theorem decision_ne_execute {T : Type} (serializer : PayloadSerializer T) (row : IdempotencyRecord)
    (fingerprint : RequestFingerprint) (token : ReservationToken) : row.decision serializer fingerprint ≠ .execute token := by
  unfold decision
  split
  · simp
  · split <;> simp

end IdempotencyRecord

/-- `SQLAlchemyIdempotencyStore`: the table behind the session. -/
structure SQLAlchemyIdempotencyStore where
  rows : Dict IdempotencyIdentity IdempotencyRecord

namespace SQLAlchemyIdempotencyStore

def empty : SQLAlchemyIdempotencyStore := ⟨.empty⟩

section
variable {T : Type} (serializer : PayloadSerializer T) (store : SQLAlchemyIdempotencyStore)

/-- `reserve`. The insert names the deadline, so it is computed before the table is read; the
token is the one a fresh `uuid4` supplies to this call. -/
def reserve (scope : IdempotencyScope) (key : String) (fingerprint : RequestFingerprint) (now leaseTtl : Int)
    (token : ReservationToken) : Except PyError (IdempotencyDecision T) × SQLAlchemyIdempotencyStore :=
  if leaseTtl ≤ 0 then (.error (.valueError "lease_ttl must be positive"), store)
  else if key = "" then (.error (.valueError "idempotency key must not be empty"), store)
  else
    match datetimeAdd now leaseTtl with
    | .error error => (.error error, store)
    | .ok expiresAt =>
      let granted : Except PyError (IdempotencyDecision T) × SQLAlchemyIdempotencyStore :=
        (.ok (.execute token), ⟨store.rows.set ⟨scope, key⟩ ⟨fingerprint.value, token.value, .reserved, expiresAt, none, none⟩⟩)
      match store.rows.get? ⟨scope, key⟩ with
      | none => granted
      | some row => if row.lapsed now then granted else (.ok (row.decision serializer fingerprint), store)

/-- `lookup` -/
def lookup (scope : IdempotencyScope) (key : String) (fingerprint : RequestFingerprint) (now : Int) :
    Except PyError (Option (IdempotencyDecision T)) :=
  if key = "" then .error (.valueError "idempotency key must not be empty")
  else
    match store.rows.get? ⟨scope, key⟩ with
    | none => .ok none
    | some row => .ok (if row.lapsed now then none else some (row.decision serializer fingerprint))

/-- `complete` through `_change`: the update answers with the tokens of the rows it changed, and
more than one is an error. -/
def complete (token : ReservationToken) (value : T) (now dbNow retentionTtl : Int) :
    Except PyError CompleteReservationResult × SQLAlchemyIdempotencyStore :=
  if retentionTtl ≤ 0 then (.error (.valueError "retention_ttl must be positive"), store)
  else
    match datetimeAdd now retentionTtl with
    | .error error => (.error error, store)
    | .ok retainedUntil =>
      let held := IdempotencyRecord.authority token now dbNow
      let after : SQLAlchemyIdempotencyStore := ⟨store.rows.mapValues fun row =>
        if held row then { row with state := .completed, result := some (serializer.encode value), expiresAt := retainedUntil } else row⟩
      match store.rows.count held with
      | 0 => (.ok (.stale staleReason), after)
      | 1 => (.ok (.completed retainedUntil), after)
      | _ => (.error (.raised "MultipleResultsFound"), after)

end

section
variable {T : Type} {serializer : PayloadSerializer T} {store after : SQLAlchemyIdempotencyStore}
  {scope : IdempotencyScope} {key : String} {fingerprint : RequestFingerprint} {now leaseTtl : Int} {token : ReservationToken}

/-- A reservation is decided by a row that is not over, or it is granted and takes the place of
a row that is. -/
theorem reserve_ok {decision : IdempotencyDecision T}
    (answered : store.reserve serializer scope key fingerprint now leaseTtl token = (.ok decision, after)) :
    (∃ row, store.rows.get? ⟨scope, key⟩ = some row ∧ row.lapsed now = false ∧
      decision = row.decision serializer fingerprint ∧ after = store) ∨
    ((∀ row, store.rows.get? ⟨scope, key⟩ = some row → row.lapsed now = true) ∧ decision = .execute token ∧
      ∃ expiresAt, ∀ other, after.rows.get? other = if other = ⟨scope, key⟩ then
        some ⟨fingerprint.value, token.value, .reserved, expiresAt, none, none⟩ else store.rows.get? other) := by
  rw [reserve] at answered
  split at answered
  · cases answered
  split at answered
  · cases answered
  split at answered
  · cases answered
  rename_i expiresAt _
  dsimp only at answered
  split at answered
  · rename_i absent
    cases answered
    exact Or.inr ⟨by simp [absent], rfl, expiresAt, fun other => Dict.get?_set ..⟩
  · rename_i row found
    split at answered
    · rename_i lapsed
      cases answered
      exact Or.inr ⟨by simp [found, lapsed], rfl, expiresAt, fun other => Dict.get?_set ..⟩
    · rename_i current
      cases answered
      exact Or.inl ⟨row, found, by simpa using current, rfl, rfl⟩

/-- A completion that is answered with its retention changed the rows that the token holds. -/
theorem complete_completed {value : T} {dbNow retentionTtl retainedUntil : Int}
    (answered : store.complete serializer token value now dbNow retentionTtl = (.ok (.completed retainedUntil), after)) :
    retainedUntil = now + retentionTtl ∧
    (∃ identity row, store.rows.get? identity = some row ∧ row.authority token now dbNow = true) ∧
      ∀ other, after.rows.get? other = (store.rows.get? other).map fun row =>
        if row.authority token now dbNow then
          { row with state := .completed, result := some (serializer.encode value), expiresAt := retainedUntil } else row := by
  rw [complete] at answered
  split at answered
  · cases answered
  split at answered
  · cases answered
  rename_i deadline fits
  dsimp only at answered
  split at answered
  · cases answered
  · rename_i one
    cases answered
    refine ⟨datetimeAdd_ok fits, ?_, fun other => Dict.get?_mapValues _ _ _⟩
    by_contra unheld
    have none : store.rows.count (IdempotencyRecord.authority token now dbNow) = 0 := by
      refine Dict.count_eq_zero.mpr fun identity row found => ?_
      by_contra holds
      exact unheld ⟨identity, row, found, by simpa using holds⟩
    omega
  · cases answered

end

end SQLAlchemyIdempotencyStore

end Pytitect
