import Pytitect.Idempotency.Store
import Pytitect.Json

namespace Pytitect

inductive RowState
  | reserved
  | completed
  | uncertain
  deriving DecidableEq

/-- A row of the consumer's model, less the columns of its unique constraint. -/
structure ReservationRow where
  fingerprint : String
  reservationToken : String
  state : RowState
  expiresAt : Int
  value : JsonValue
  uncertaintyReason : Option String

namespace ReservationRow

/-- The row is over for a reservation at `now`; uncertainty never is. -/
def dead (row : ReservationRow) (now : Int) : Bool := row.expiresAt ≤ now && row.state ≠ .uncertain

/-- `filter(reservation_token=…, state="reserved", expires_at__gt=now)`. -/
def held (token : ReservationToken) (now : Int) (row : ReservationRow) : Bool :=
  row.reservationToken = token.value && row.state = .reserved && now < row.expiresAt

/-- The decision for a present row with the same identity. -/
def decide {T : Type} (decodeValue : JsonValue → T) (row : ReservationRow) (fingerprint : RequestFingerprint) :
    IdempotencyDecision T :=
  if row.fingerprint ≠ fingerprint.value then .conflict conflictReason
  else
    match row.state with
    | .completed => .replay (decodeValue row.value)
    | .uncertain =>
      let reason := row.uncertaintyReason.getD ""
      .uncertain (if reason = "" then "the prior outcome is unknown" else reason)
    | .reserved => .inProgress row.expiresAt

end ReservationRow

/-- `DjangoIdempotencyStore.from_model`: the table behind the store. The unique
constraint on namespace, subject, operation and key makes it a dictionary. -/
structure DjangoIdempotencyStore where
  rows : Dict IdempotencyIdentity ReservationRow

namespace DjangoIdempotencyStore

def empty : DjangoIdempotencyStore := ⟨.empty⟩

/-- `transaction.atomic`: an exception undoes everything the block has done. -/
def atomic {R : Type} (store : DjangoIdempotencyStore) (block : Except PyError (R × DjangoIdempotencyStore)) :
    Except PyError R × DjangoIdempotencyStore :=
  match block with
  | .error error => (.error error, store)
  | .ok (result, after) => (.ok result, after)

/-- `_locked_first`. Transactions are serial, so the lock is always free. -/
def lockedFirst (store : DjangoIdempotencyStore) (identity : IdempotencyIdentity) : Option ReservationRow :=
  store.rows.get? identity

/-- `_create_or_locked`: insert the row, or return the one that the unique
constraint protects. The flag says whether the row was created. -/
def createOrLocked (store : DjangoIdempotencyStore) (identity : IdempotencyIdentity) (row : ReservationRow) :
    (ReservationRow × Bool) × DjangoIdempotencyStore :=
  match store.lockedFirst identity with
  | none => ((row, true), ⟨store.rows.set identity row⟩)
  | some existing => ((existing, false), store)

/-- Delete the row of an identity when it is over. -/
def dropDead (store : DjangoIdempotencyStore) (identity : IdempotencyIdentity) (now : Int) : DjangoIdempotencyStore :=
  match store.lockedFirst identity with
  | none => store
  | some row => if row.dead now then ⟨store.rows.pop identity⟩ else store

/-- Change every row that the token still holds; without one the answer is stale. -/
def updateHeld {R : Type} (store : DjangoIdempotencyStore) (token : ReservationToken) (now : Int)
    (change : ReservationRow → ReservationRow) (granted stale : R) : Except PyError R × DjangoIdempotencyStore :=
  let updated := store.rows.count (ReservationRow.held token now)
  (.ok (if updated = 0 then stale else granted),
    ⟨store.rows.mapValues fun row => if row.held token now then change row else row⟩)

/-- Only a dead row of the identity itself is deleted. -/
theorem dropDead_get? (store : DjangoIdempotencyStore) (identity other : IdempotencyIdentity) (now : Int) :
    (store.dropDead identity now).rows.get? other =
      if other = identity then (store.rows.get? other).filter (fun row => !row.dead now) else store.rows.get? other := by
  unfold dropDead lockedFirst
  by_cases mine : other = identity
  · subst mine
    cases found : store.rows.get? other with
    | none => simp [found]
    | some row => cases dead : row.dead now <;> simp [found, dead, Option.filter]
  · cases found : store.rows.get? identity with
    | none => simp [mine]
    | some row => cases dead : row.dead now <;> simp [mine, dead]

section
variable {T : Type} (encodeValue : T → JsonValue) (decodeValue : JsonValue → T) (store : DjangoIdempotencyStore)

/-- `reserve`. The token is the one a fresh `uuid4` supplies to this call. -/
def reserve (scope : IdempotencyScope) (key : String) (fingerprint : RequestFingerprint) (now leaseTtl : Int)
    (token : ReservationToken) : Except PyError (IdempotencyDecision T) × DjangoIdempotencyStore :=
  if key = "" ∨ leaseTtl ≤ 0 then
    (.error (.valueError "idempotency key and a positive lease_ttl are required"), store)
  else
    store.atomic <|
      let cleared := store.dropDead ⟨scope, key⟩ now
      match cleared.lockedFirst ⟨scope, key⟩ with
      | some row => .ok (row.decide decodeValue fingerprint, cleared)
      | none =>
        match datetimeAdd now leaseTtl with
        | .error error => .error error
        | .ok expiresAt =>
          match cleared.createOrLocked ⟨scope, key⟩ ⟨fingerprint.value, token.value, .reserved, expiresAt, .null, none⟩ with
          | ((_, true), after) => .ok (.execute token, after)
          | ((row, false), after) => .ok (row.decide decodeValue fingerprint, after)

def renew (token : ReservationToken) (now leaseTtl : Int) :
    Except PyError RenewReservationResult × DjangoIdempotencyStore :=
  if leaseTtl ≤ 0 then (.error (.valueError "lease_ttl must be positive"), store)
  else
    match datetimeAdd now leaseTtl with
    | .error error => (.error error, store)
    | .ok expiresAt => store.updateHeld token now ({ · with expiresAt }) (.renewed expiresAt) (.stale staleReason)

def complete (token : ReservationToken) (value : T) (now retentionTtl : Int) :
    Except PyError CompleteReservationResult × DjangoIdempotencyStore :=
  if retentionTtl ≤ 0 then (.error (.valueError "retention_ttl must be positive"), store)
  else
    let encoded := encodeValue value
    match validateJson encoded .default with
    | .error error => (.error error, store)
    | .ok _ =>
      match datetimeAdd now retentionTtl with
      | .error error => (.error error, store)
      | .ok retainedUntil =>
        store.updateHeld token now ({ · with state := .completed, value := encoded, expiresAt := retainedUntil })
          (.completed retainedUntil) (.stale staleReason)

def markUncertain (token : ReservationToken) (reason : String) (now retentionTtl : Int) :
    Except PyError MarkUncertainResult × DjangoIdempotencyStore :=
  if reason = "" then (.error (.valueError "an uncertainty reason is required"), store)
  else if retentionTtl ≤ 0 then (.error (.valueError "retention_ttl must be positive"), store)
  else
    match datetimeAdd now retentionTtl with
    | .error error => (.error error, store)
    | .ok retainedUntil =>
      store.updateHeld token now
        ({ · with state := .uncertain, uncertaintyReason := some reason, expiresAt := retainedUntil })
        (.markedUncertain retainedUntil) (.stale staleReason)

def abandon (token : ReservationToken) (now : Int) :
    Except PyError AbandonReservationResult × DjangoIdempotencyStore :=
  let deleted := store.rows.count (ReservationRow.held token now)
  (.ok (if deleted = 0 then .stale staleReason else .abandoned),
    ⟨store.rows.filter fun item => !item.2.held token now⟩)

end

section
variable {T : Type} {encodeValue : T → JsonValue} {decodeValue : JsonValue → T} {store after : DjangoIdempotencyStore}
  {scope : IdempotencyScope} {key : String} {fingerprint : RequestFingerprint} {now leaseTtl : Int} {token : ReservationToken}

/-- A row that is not over decides a reservation and stays as it is. -/
theorem reserve_present {row : ReservationRow} (found : store.rows.get? ⟨scope, key⟩ = some row) (alive : row.dead now = false)
    (keyed : key ≠ "") (positive : 0 < leaseTtl) :
    store.reserve decodeValue scope key fingerprint now leaseTtl token = (.ok (row.decide decodeValue fingerprint), store) := by
  have kept : store.dropDead ⟨scope, key⟩ now = store := by
    simp [dropDead, lockedFirst, found, alive]
  rw [reserve, if_neg (by simp [keyed]; omega)]
  simp only [kept, lockedFirst, found, atomic]

/-- A reservation is decided by a row that is not over, or it is granted and takes the place of
a row that is. -/
theorem reserve_ok {decision : IdempotencyDecision T}
    (answered : store.reserve decodeValue scope key fingerprint now leaseTtl token = (.ok decision, after)) :
    (∃ row, store.rows.get? ⟨scope, key⟩ = some row ∧ row.dead now = false ∧
      decision = row.decide decodeValue fingerprint ∧ after = store) ∨
    ((∀ row, store.rows.get? ⟨scope, key⟩ = some row → row.dead now = true) ∧ key ≠ "" ∧ decision = .execute token ∧
      ∃ expiresAt, ∀ other, after.rows.get? other = if other = ⟨scope, key⟩ then
        some ⟨fingerprint.value, token.value, .reserved, expiresAt, .null, none⟩ else store.rows.get? other) := by
  have fits : ¬(key = "" ∨ leaseTtl ≤ 0) := by
    intro refused
    rw [reserve, if_pos refused] at answered
    cases answered
  have keyed : key ≠ "" := fun keyless => fits (.inl keyless)
  by_cases present : ∃ row, store.rows.get? ⟨scope, key⟩ = some row ∧ row.dead now = false
  · obtain ⟨row, found, alive⟩ := present
    rw [reserve_present found alive keyed (by omega)] at answered
    cases answered
    exact Or.inl ⟨row, found, alive, rfl, rfl⟩
  · have dead : ∀ row, store.rows.get? ⟨scope, key⟩ = some row → row.dead now = true := by
      intro row found
      by_contra alive
      exact present ⟨row, found, by simpa using alive⟩
    have gone : (store.dropDead ⟨scope, key⟩ now).rows.get? ⟨scope, key⟩ = none := by
      rw [dropDead_get?, if_pos rfl]
      cases found : store.rows.get? ⟨scope, key⟩ with
      | none => rfl
      | some row => simp [Option.filter, dead row found]
    rw [reserve, if_neg fits] at answered
    simp only [lockedFirst, gone, createOrLocked] at answered
    cases deadline : datetimeAdd now leaseTtl with
    | error error => simp [deadline, atomic] at answered
    | ok expiresAt =>
      simp only [deadline, atomic, Prod.mk.injEq, Except.ok.injEq] at answered
      obtain ⟨rfl, rfl⟩ := answered
      refine Or.inr ⟨dead, keyed, rfl, expiresAt, fun other => ?_⟩
      rw [Dict.get?_set]
      split
      · rfl
      · rename_i different
        rw [dropDead_get?, if_neg different]

/-- A completion that is answered with its retention changed the rows that the token holds. -/
theorem complete_completed {value : T} {retentionTtl retainedUntil : Int}
    (answered : store.complete encodeValue token value now retentionTtl = (.ok (.completed retainedUntil), after)) :
    retainedUntil = now + retentionTtl ∧ (∃ identity row, store.rows.get? identity = some row ∧ row.held token now = true) ∧
      ∀ other, after.rows.get? other = (store.rows.get? other).map fun row =>
        if row.held token now then { row with state := .completed, value := encodeValue value, expiresAt := retainedUntil } else row := by
  rw [complete] at answered
  split at answered
  · cases answered
  · dsimp only at answered
    split at answered
    · cases answered
    · split at answered
      · cases answered
      · rename_i deadline fits
        simp only [updateHeld, Prod.mk.injEq, Except.ok.injEq] at answered
        obtain ⟨result, rfl⟩ := answered
        split at result
        · cases result
        · rename_i some_held
          cases result
          refine ⟨datetimeAdd_ok fits, ?_, fun other => Dict.get?_mapValues _ _ _⟩
          by_contra unheld
          refine some_held (Dict.count_eq_zero.mpr fun identity row found => ?_)
          by_contra holds
          exact unheld ⟨identity, row, found, by simpa using holds⟩

end

end DjangoIdempotencyStore

end Pytitect
