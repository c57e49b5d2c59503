import Pytitect.Django.Transactions
import Pytitect.Lib.History
import Pytitect.Receipts.Lifecycle

namespace Pytitect

/-- What a committed operation has stored under its identity. -/
structure OperationRecord (T : Type) where
  fingerprint : RequestFingerprint
  token : ReservationToken
  value : Option T

namespace DjangoTransactionalOperation
variable {D T P M : Type} [MetadataMapping M] [DecidableEq T]

/-- The row of an added envelope. -/
def outboxItem (op : DjangoTransactionalOperation T P) (envelope : OutboxEnvelope P) : OpaqueId × OutboxRow :=
  (envelope.messageId, ⟨envelope.topic, op.encodePayload envelope.payload, envelope.occurredAt, envelope.availableAt,
    envelope.attempt, none, none, none, none, none⟩)

/-- The row of a committed operation. -/
def completedRow (op : DjangoTransactionalOperation T P) (committal : Committal IdempotencyIdentity (OperationRecord T)) :
    ReservationRow :=
  ⟨committal.value.fingerprint.value, committal.value.token.value, .completed, committal.retainedUntil,
    op.encodeValue committal.value.value, none⟩

/-- The committal of a call that returns a value. -/
def committal (op : DjangoTransactionalOperation T P) (request : TransactionalRequest D T P M) (met : OperationSurroundings)
    (value : Option T) : Committal IdempotencyIdentity (OperationRecord T) :=
  ⟨⟨request.scope, request.key⟩, ⟨request.fingerprint, met.token, value⟩, met.now, met.completedAt + op.policy.resultRetentionTtl⟩

/-- All four kinds of writes of one call: the callbacks ran one after the other on the consumer's
tables, the receipt and the envelopes are new, and the result is under the call's identity. -/
structure Committed (op : DjangoTransactionalOperation T P) (request : TransactionalRequest D T P M)
    (met : OperationSurroundings) (before after : OperationDatabase D M) (value : Option T) (receipt : Receipt T M)
    (outboxMessages : Nat) : Prop where
  effects : ∃ mutated received envelopes, request.mutate.Returns before.domain value mutated ∧
    (request.makeReceipt value).Returns mutated receipt received ∧
    (request.makeOutbox value).Returns received envelopes after.domain ∧ outboxMessages = envelopes.length ∧
    after.outbox.rows.items = before.outbox.rows.items ++ envelopes.map op.outboxItem
  matching : receipt.result = value ∧ receipt.state.ends = true
  received : before.receipts.rows.get? receipt.receiptId = none ∧
    after.receipts.rows = before.receipts.rows.set receipt.receiptId (DjangoReceiptStore.rowOf op.results receipt)
  completed : after.idempotency.rows.get? ⟨request.scope, request.key⟩ = some (op.completedRow (op.committal request met value))
  others : ∀ other, other ≠ ⟨request.scope, request.key⟩ →
    after.idempotency.rows.get? other = before.idempotency.rows.get? other

variable {op : DjangoTransactionalOperation T P} {request : TransactionalRequest D T P M} {met : OperationSurroundings}
  {db after : OperationDatabase D M}

omit [MetadataMapping M] [DecidableEq T] in
theorem addAll_returns {envelopes : List (OutboxEnvelope P)} (added : (op.addAll envelopes).Returns db () after) :
    after = { db with outbox := after.outbox } ∧
      after.outbox.rows.items = db.outbox.rows.items ++ envelopes.map op.outboxItem := by
  induction envelopes generalizing db with
  | nil =>
    obtain ⟨-, rfl⟩ := Program.returns_pure.mp added
    exact ⟨rfl, by simp⟩
  | cons envelope rest ih =>
    obtain ⟨result, mid, first, further⟩ := Program.returns_bind.mp added
    obtain ⟨_, _, passed, later⟩ := Program.returns_bind.mp further
    obtain ⟨isAdded, rfl⟩ := Program.returns_require.mp passed
    obtain ⟨outbox, answered, rfl⟩ := Program.returns_zoom.mp first
    obtain ⟨same, items⟩ := ih later
    refine ⟨same, ?_⟩
    rw [items, List.map_cons, List.append_cons]
    congr 1
    unfold DjangoOutboxStore.add at answered
    split at answered
    · cases answered
    · split at answered
      · cases answered
        simp at isAdded
      · rename_i absent
        cases answered
        exact Dict.items_set_of_absent (Dict.get?_eq_none.mp absent)

omit [MetadataMapping M] [DecidableEq T] in
/-- A present row never grants the reservation. -/
theorem decide_ne_execute (decodeValue : JsonValue → Option T) (row : ReservationRow) (fingerprint : RequestFingerprint)
    (token : ReservationToken) : row.decide decodeValue fingerprint ≠ .execute token := by
  unfold ReservationRow.decide
  split
  · simp
  · split <;> simp

/-- Past a granted reservation the block returns only when everything is written. -/
theorem perform_returns {token : ReservationToken} {result : TransactionalOperationResult T M}
    (performed : (op.perform request met token).Returns db result after) :
    ∃ value receipt mutated received envelopes,
      result = .committed value receipt envelopes.length ∧ request.mutate.Returns db.domain value mutated ∧
      (request.makeReceipt value).Returns mutated receipt received ∧
      (request.makeOutbox value).Returns received envelopes after.domain ∧
      after.outbox.rows.items = db.outbox.rows.items ++ envelopes.map op.outboxItem ∧
      receipt.result = value ∧ receipt.state.ends = true ∧ db.receipts.rows.get? receipt.receiptId = none ∧
      after.receipts.rows = db.receipts.rows.set receipt.receiptId (DjangoReceiptStore.rowOf op.results receipt) ∧
      ∃ retainedUntil, db.idempotency.complete op.encodeValue token value met.completedAt op.policy.resultRetentionTtl =
        (.ok (.completed retainedUntil), after.idempotency) := by
  obtain ⟨value, _, mutating, rest⟩ := Program.returns_bind.mp performed
  obtain ⟨mutated, mutates, rfl⟩ := Program.returns_zoom.mp mutating
  obtain ⟨receipt, _, receiving, rest⟩ := Program.returns_bind.mp rest
  obtain ⟨received, receives, rfl⟩ := Program.returns_zoom.mp receiving
  obtain ⟨_, _, checked, rest⟩ := Program.returns_bind.mp rest
  obtain ⟨matching, rfl⟩ := Program.returns_require.mp checked
  obtain ⟨stored, _, storing, rest⟩ := Program.returns_bind.mp rest
  obtain ⟨receipts, stores, rfl⟩ := Program.returns_zoom.mp storing
  obtain ⟨_, _, checked, rest⟩ := Program.returns_bind.mp rest
  obtain ⟨isStored, rfl⟩ := Program.returns_require.mp checked
  obtain ⟨envelopes, _, making, rest⟩ := Program.returns_bind.mp rest
  obtain ⟨domain, makes, rfl⟩ := Program.returns_zoom.mp making
  obtain ⟨_, filled, adding, rest⟩ := Program.returns_bind.mp rest
  obtain ⟨same, items⟩ := addAll_returns adding
  obtain ⟨completed, _, completing, rest⟩ := Program.returns_bind.mp rest
  obtain ⟨idempotency, completes, rfl⟩ := Program.returns_zoom.mp completing
  have terminal : receipt.result = value ∧ receipt.state.ends = true := by simpa using matching
  rw [same] at completes rest
  cases completed with
  | stale reason => simp at rest
  | completed retainedUntil =>
    obtain ⟨rfl, rfl⟩ := Program.returns_pure.mp rest
    unfold DjangoReceiptStore.add at stores
    split at stores
    · cases stores
    · split at stores
      · cases stores
        cases isStored
      · rename_i absent
        cases stores
        exact ⟨value, receipt, mutated, received, envelopes, rfl, mutates, receives, makes, items, terminal.1, terminal.2,
          absent, rfl, retainedUntil, completes⟩

/-- No reservation is left from an earlier transaction. -/
def Settled (store : DjangoIdempotencyStore) : Prop :=
  ∀ identity row, store.rows.get? identity = some row → row.state = .completed

/-- The block returns what a row of an earlier call decides and changes nothing, or it returns
its own value and has written everything. -/
theorem block_returns {result : TransactionalOperationResult T M} (settled : Settled db.idempotency)
    (returned : (op.block request met).Returns db result after) :
    (∃ row, db.idempotency.rows.get? ⟨request.scope, request.key⟩ = some row ∧ row.dead met.now = false ∧
      result = .decided (row.decide op.decodeValue request.fingerprint) ∧ after = db) ∨
    (∃ value receipt outboxMessages, result = .committed value receipt outboxMessages ∧ request.key ≠ "" ∧
      (∀ row, db.idempotency.rows.get? ⟨request.scope, request.key⟩ = some row → row.dead met.now = true) ∧
      op.Committed request met db after value receipt outboxMessages) := by
  obtain ⟨decision, _, reserving, rest⟩ := Program.returns_bind.mp returned
  obtain ⟨reserved, answered, rfl⟩ := Program.returns_zoom.mp reserving
  have leaves : ∀ {first last : TransactionalOperationResult T M} {s t : OperationDatabase D M},
      (leave met first).Returns s last t → last = first ∧ t = s := by
    intro first last s t left
    unfold leave at left
    split at left
    · exact Program.returns_pure.mp left
    · exact absurd left Program.not_returns_raise
  rcases DjangoIdempotencyStore.reserve_ok answered with
    ⟨row, found, alive, rfl, rfl⟩ | ⟨dead, keyed, rfl, expiresAt, rows⟩
  · refine Or.inl ⟨row, found, alive, ?_⟩
    cases isDecision : row.decide op.decodeValue request.fingerprint with
    | execute token => exact absurd isDecision (decide_ne_execute _ _ _ token)
    | _ =>
      rw [isDecision] at rest
      exact leaves rest
  · obtain ⟨first, _, performing, leaving⟩ := Program.returns_bind.mp rest
    obtain ⟨rfl, rfl⟩ := leaves leaving
    obtain ⟨value, receipt, mutated, received, envelopes, rfl, mutates, receives, makes, items, same, terminal, absent, receipts,
      retainedUntil, completes⟩ := perform_returns performing
    obtain ⟨rfl, ⟨identity, row, found, holds⟩, changed⟩ := DjangoIdempotencyStore.complete_completed completes
    have unheld : ∀ other row, other ≠ ⟨request.scope, request.key⟩ → db.idempotency.rows.get? other = some row →
        row.held met.token met.completedAt = false := by
      intro other row _ stored
      simp [ReservationRow.held, settled other row stored]
    have own : identity = ⟨request.scope, request.key⟩ := by
      by_contra different
      simp only [rows, if_neg different] at found
      rw [unheld identity row different found] at holds
      cases holds
    subst own
    simp only [rows, if_pos] at found
    cases found
    refine Or.inr ⟨value, receipt, _, rfl, keyed, dead, ?_⟩
    refine ⟨⟨mutated, received, envelopes, mutates, receives, makes, rfl, items⟩, ⟨same, terminal⟩, ⟨absent, receipts⟩, ?_, ?_⟩
    · simp only [changed, rows, if_pos, Option.map_some, holds]
      rfl
    · intro other different
      simp only [changed, rows, if_neg different]
      cases stored : db.idempotency.rows.get? other with
      | none => rfl
      | some row => simp [unheld other row different stored]

/-- A row that is not over decides the call, if the database lets it leave the block. -/
theorem execute_present {row : ReservationRow}
    (found : db.idempotency.rows.get? ⟨request.scope, request.key⟩ = some row) (alive : row.dead met.now = false)
    (keyed : request.key ≠ "") :
    op.execute request met db = match met.refused with
      | none => (.ok (.decided (row.decide op.decodeValue request.fingerprint)), db)
      | some error => (.error error, db) := by
  have reserved : (inIdempotency (D := D) (M := M) fun store =>
      store.reserve op.decodeValue request.scope request.key request.fingerprint met.now op.policy.executionLeaseTtl met.token).Returns
      db (row.decide op.decodeValue request.fingerprint) db :=
    Program.returns_zoom.mpr ⟨_, DjangoIdempotencyStore.reserve_present found alive keyed op.policy.positive.1, rfl⟩
  have left : op.block request met db = leave met (.decided (row.decide op.decodeValue request.fingerprint)) db := by
    rw [block, Program.bind_returned reserved]
    cases isDecision : row.decide op.decodeValue request.fingerprint with
    | execute token => exact absurd isDecision (decide_ne_execute _ _ _ token)
    | _ => rfl
  unfold execute Program.recover Program.atomic
  rw [left, leave]
  cases met.refused with
  | none => rfl
  | some error => rfl

end DjangoTransactionalOperation

/-- The database with what calls have committed so far. -/
structure OperationWorld (D T M : Type) where
  database : OperationDatabase D M
  commits : List (Committal IdempotencyIdentity (OperationRecord T))

/-- A call, or what others do to the tables besides the reservations between two calls. -/
inductive OperationInput (D T P M : Type) [MetadataMapping M]
  | execute (request : TransactionalRequest D T P M) (met : OperationSurroundings)
  | elsewhere (domain : D) (receipts : DjangoReceiptStore M) (outbox : DjangoOutboxStore)

namespace OperationWorld
variable {D T P M : Type} {op : DjangoTransactionalOperation T P} {w : OperationWorld D T M}

def start (domain : D) (receipts : DjangoReceiptStore M) (outbox : DjangoOutboxStore) : OperationWorld D T M :=
  ⟨⟨domain, .empty, receipts, outbox⟩, []⟩

/-- The table of reservations shows the last committal of each identity, and the committals of an
identity keep their distance. -/
structure Sound (op : DjangoTransactionalOperation T P) (w : OperationWorld D T M) : Prop where
  reflects : Ledger.Reflects w.database.idempotency.rows.get? op.completedRow w.commits
  spaced : Ledger.Spaced w.commits
  keyed : ∀ committal ∈ w.commits, committal.key.key ≠ ""

/-- How the row of a committal decides a request. -/
theorem completedRow_decide (inverse : ∀ value, op.decodeValue (op.encodeValue value) = value)
    (committal : Committal IdempotencyIdentity (OperationRecord T)) (fingerprint : RequestFingerprint) :
    (op.completedRow committal).decide op.decodeValue fingerprint =
      if committal.value.fingerprint = fingerprint then .replay committal.value.value else .conflict conflictReason := by
  have same : committal.value.fingerprint.value = fingerprint.value ↔ committal.value.fingerprint = fingerprint := by
    cases committal.value.fingerprint
    cases fingerprint
    simp
  by_cases equal : committal.value.fingerprint = fingerprint
  · simp [ReservationRow.decide, DjangoTransactionalOperation.completedRow, equal, inverse]
  · simp [ReservationRow.decide, DjangoTransactionalOperation.completedRow, same, equal]

theorem completedRow_dead {committal : Committal IdempotencyIdentity (OperationRecord T)} {now : Int} :
    (op.completedRow committal).dead now = true ↔ committal.retainedUntil ≤ now := by
  simp only [ReservationRow.dead, Bool.and_eq_true, decide_eq_true_eq]
  exact ⟨fun dead => dead.1, fun lapsed => ⟨lapsed, by simp [DjangoTransactionalOperation.completedRow]⟩⟩

theorem Sound.settled (sound : Sound op w) : DjangoTransactionalOperation.Settled w.database.idempotency := by
  intro identity row found
  obtain ⟨_, -, rfl⟩ := sound.reflects.row found
  rfl

theorem Sound.start (domain : D) (receipts : DjangoReceiptStore M) (outbox : DjangoOutboxStore) :
    Sound op (OperationWorld.start domain receipts outbox) :=
  ⟨fun _ => rfl, .nil, by simp [OperationWorld.start]⟩

variable [MetadataMapping M] [DecidableEq T]

def answer (op : DjangoTransactionalOperation T P) (w : OperationWorld D T M) :
    OperationInput D T P M → Option (Except PyError (TransactionalOperationResult T M)) × OperationWorld D T M
  | .execute request met =>
    let outcome := op.execute request met w.database
    (some outcome.1, ⟨outcome.2, match outcome.1 with
      | .ok (.committed value _ _) => w.commits ++ [op.committal request met value]
      | _ => w.commits⟩)
  | .elsewhere domain receipts outbox => (none, { w with database := { w.database with domain, receipts, outbox } })

/-- Calls of one operation in any order, on a table that starts without reservations. -/
abbrev Run (op : DjangoTransactionalOperation T P) (start : OperationWorld D T M) := History (answer op) (fun _ _ (_ : OperationInput D T P M) => True) start

/-- What a call returns: its own value, with everything written and the last committal over; or
the value of that committal, or a refusal, with nothing written. -/
theorem Sound.execute (sound : Sound op w) (request : TransactionalRequest D T P M) (met : OperationSurroundings) :
    (∃ value receipt outboxMessages after,
      op.execute request met w.database = (.ok (.committed value receipt outboxMessages), after) ∧ request.key ≠ "" ∧
      (∀ prior, Ledger.latest w.commits ⟨request.scope, request.key⟩ = some prior → prior.retainedUntil ≤ met.now) ∧
      op.Committed request met w.database after value receipt outboxMessages) ∨
    (∃ prior, Ledger.latest w.commits ⟨request.scope, request.key⟩ = some prior ∧ met.now < prior.retainedUntil ∧
      op.execute request met w.database =
        (.ok (.decided ((op.completedRow prior).decide op.decodeValue request.fingerprint)), w.database)) ∨
    (∃ reason, op.execute request met w.database = (.ok (.rolledBack reason), w.database)) ∨
    (∃ error, op.execute request met w.database = (.error error, w.database)) := by
  rcases Program.recover_atomic _ (op.block request met) w.database with
    ⟨result, after, returned, executed⟩ | ⟨failure, _, -, executed⟩
  · rcases DjangoTransactionalOperation.block_returns sound.settled returned with
      ⟨row, found, alive, rfl, rfl⟩ | ⟨value, receipt, outboxMessages, rfl, keyed, dead, committed⟩
    · obtain ⟨prior, last, rfl⟩ := sound.reflects.row found
      have early : ¬prior.retainedUntil ≤ met.now := by
        intro reached
        have dead : (op.completedRow prior).dead met.now = true := completedRow_dead.mpr reached
        rw [alive] at dead
        cases dead
      exact Or.inr (Or.inl ⟨prior, last, by omega, executed⟩)
    · refine Or.inl ⟨value, receipt, outboxMessages, after, executed, keyed, ?_, committed⟩
      intro prior last
      have stored := sound.reflects ⟨request.scope, request.key⟩
      rw [last, Option.map_some] at stored
      exact completedRow_dead.mp (dead _ stored)
  · cases failure with
    | raised error => exact Or.inr (Or.inr (Or.inr ⟨error, executed⟩))
    | expectedRollback reason => exact Or.inr (Or.inr (Or.inl ⟨reason, executed⟩))

theorem Sound.next (sound : Sound op w) (input : OperationInput D T P M) : Sound op (w.answer op input).2 := by
  cases input with
  | elsewhere domain receipts outbox => exact ⟨sound.reflects, sound.spaced, sound.keyed⟩
  | execute request met =>
    rcases sound.execute request met with ⟨value, receipt, outboxMessages, after, executed, keyed, lapsed, committed⟩ |
      ⟨prior, -, -, executed⟩ | ⟨reason, executed⟩ | ⟨error, executed⟩
    · simp only [answer, executed]
      refine ⟨sound.reflects.snoc committed.completed committed.others, sound.spaced.snoc lapsed, ?_⟩
      intro committal member
      rcases List.mem_append.mp member with earlier | last
      · exact sound.keyed committal earlier
      · rw [List.mem_singleton.mp last]
        exact keyed
    all_goals
      simp only [answer, executed]
      exact ⟨sound.reflects, sound.spaced, sound.keyed⟩

theorem Run.sound {domain : D} {receipts : DjangoReceiptStore M} {outbox : DjangoOutboxStore}
    {past : List (OperationInput D T P M × Option (Except PyError (TransactionalOperationResult T M)))}
    (run : Run op (.start domain receipts outbox) past w) : Sound op w :=
  run.state_invariant (P := Sound op) (.start domain receipts outbox) fun _ _ input sound _ => sound.next input

/-- A call returns its own value with all its writes committed, or commits nothing. While a
committal of its identity is retained it does not commit: it returns the value that was committed
if the fingerprint is the same and a conflict otherwise, or raises what the commit raises. -/
theorem operation_all_or_nothing_at_most_once {domain : D} {receipts : DjangoReceiptStore M} {outbox : DjangoOutboxStore}
    {past : List (OperationInput D T P M × Option (Except PyError (TransactionalOperationResult T M)))}
    (inverse : ∀ value, op.decodeValue (op.encodeValue value) = value)
    (run : Run op (.start domain receipts outbox) past w) :
    (∀ request met,
      let outcome := op.execute request met w.database
      (∀ value receipt outboxMessages, outcome.1 = .ok (.committed value receipt outboxMessages) →
        op.Committed request met w.database outcome.2 value receipt outboxMessages) ∧
      ((∀ value receipt outboxMessages, outcome.1 ≠ .ok (.committed value receipt outboxMessages)) → outcome.2 = w.database) ∧
      (∀ prior, Ledger.latest w.commits ⟨request.scope, request.key⟩ = some prior → met.now < prior.retainedUntil →
        outcome.1 = .ok (.decided (if prior.value.fingerprint = request.fingerprint then .replay prior.value.value
          else .conflict conflictReason)) ∨
        ∃ error, met.refused = some error ∧ outcome.1 = .error error) ∧
      ∀ decision, outcome.1 = .ok (.decided decision) →
        ∃ prior, Ledger.latest w.commits ⟨request.scope, request.key⟩ = some prior ∧ met.now < prior.retainedUntil ∧
          decision = if prior.value.fingerprint = request.fingerprint then .replay prior.value.value
            else .conflict conflictReason) ∧
    Ledger.Spaced w.commits ∧
    ((∀ committal ∈ w.commits, committal.startedAt ≤ committal.retainedUntil) →
      w.commits.Pairwise fun earlier later => earlier.key = later.key → earlier.retainedUntil ≤ later.startedAt) := by
  have sound := run.sound
  refine ⟨fun request met => ?_, sound.spaced, sound.spaced.pairwise⟩
  have present : ∀ prior, Ledger.latest w.commits ⟨request.scope, request.key⟩ = some prior → met.now < prior.retainedUntil →
      op.execute request met w.database = match met.refused with
        | none => (.ok (.decided ((op.completedRow prior).decide op.decodeValue request.fingerprint)), w.database)
        | some error => (.error error, w.database) := by
    intro prior last early
    have stored := sound.reflects ⟨request.scope, request.key⟩
    rw [last, Option.map_some] at stored
    have alive : (op.completedRow prior).dead met.now = false := by
      rw [← Bool.not_eq_true, completedRow_dead]
      omega
    obtain ⟨member, own⟩ := Ledger.latest_some last
    have keyed := sound.keyed prior member
    rw [own] at keyed
    exact DjangoTransactionalOperation.execute_present stored alive keyed
  refine ⟨?_, ?_, ?_, ?_⟩
  · intro value receipt outboxMessages returned
    rcases sound.execute request met with ⟨_, _, _, after, executed, -, -, committed⟩ |
      ⟨prior, -, -, executed⟩ | ⟨reason, executed⟩ | ⟨error, executed⟩
    · rw [executed] at returned ⊢
      cases returned
      exact committed
    all_goals
      rw [executed] at returned
      cases returned
  · intro other
    rcases sound.execute request met with ⟨value, receipt, outboxMessages, after, executed, -, -, -⟩ |
      ⟨prior, -, -, executed⟩ | ⟨reason, executed⟩ | ⟨error, executed⟩
    · exact absurd (congrArg Prod.fst executed) (other value receipt outboxMessages)
    all_goals rw [executed]
  · intro prior last early
    rw [present prior last early, completedRow_decide inverse]
    cases refusal : met.refused with
    | none => exact Or.inl rfl
    | some error => exact Or.inr ⟨error, rfl, rfl⟩
  · intro decision returned
    rcases sound.execute request met with ⟨_, _, _, after, executed, -, -, -⟩ |
      ⟨prior, last, early, executed⟩ | ⟨reason, executed⟩ | ⟨error, executed⟩
    case inr.inl =>
      rw [executed, completedRow_decide inverse] at returned
      cases returned
      exact ⟨prior, last, early, rfl⟩
    all_goals
      rw [executed] at returned
      cases returned

/-- An operation that counts its executions in the consumer's table. -/
def counting : DjangoTransactionalOperation Unit Unit where
  encodeValue value := .bool value.isSome
  decodeValue
    | .bool true => some ()
    | _ => none
  results := ⟨fun _ => .bool true, fun _ => ()⟩
  encodePayload _ := .null
  policy := ⟨5, 10, 10, Sample.policy_positive⟩

def countingRequest : TransactionalRequest Nat Unit Unit Unit where
  scope := ⟨"shop", "customer", "order", Sample.scope_named⟩
  key := "key"
  fingerprint := ⟨"f"⟩
  mutate count := (.ok (some ()), count + 1)
  makeReceipt result count := (.ok ⟨⟨"receipt", by decide⟩, .operation, true, .completed, 0, 1, result, (), by decide⟩, count)
  makeOutbox _ count := (.ok [⟨⟨"message", by decide⟩, "orders", (), 0, 0, 1, by decide⟩], count)

theorem counted_once : ∃ past w, Run counting (.start 0 .empty .empty) past w ∧ w.database.domain = 1 ∧
    (counting.execute countingRequest ⟨5, 6, ⟨"b", by decide⟩, none⟩ w.database).1 = .ok (.decided (.replay (some ()))) := by
  have run : Run counting (.start 0 .empty .empty) _ _ :=
    .next (.execute countingRequest ⟨0, 1, ⟨"a", by decide⟩, none⟩) .start trivial
  have inverse : ∀ value, counting.decodeValue (counting.encodeValue value) = value := by
    intro value
    cases value <;> rfl
  obtain ⟨-, -, retained, -⟩ := (operation_all_or_nothing_at_most_once inverse run).1 countingRequest ⟨5, 6, ⟨"b", by decide⟩, none⟩
  refine ⟨_, _, run, rfl, ?_⟩
  rcases retained (counting.committal countingRequest ⟨0, 1, ⟨"a", by decide⟩, none⟩ (some ())) rfl (by decide) with
    replayed | ⟨_, refused, -⟩
  · exact replayed
  · cases refused

end OperationWorld

end Pytitect
