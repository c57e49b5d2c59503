import Pytitect.Lib.History
import Pytitect.Receipts.Lifecycle
import Pytitect.SqlAlchemy.Requests

namespace Pytitect

namespace SQLAlchemyIdempotentRequest
variable {D T M : Type}

/-- No reservation is left from an earlier transaction. -/
def Settled (store : SQLAlchemyIdempotencyStore) : Prop :=
  ∀ identity row, store.rows.get? identity = some row → row.state = .completed

theorem reach_returns {met : RequestSurroundings} {stage : RequestStage} {frame after : RequestFrame D T M} {a : Unit}
    (reached : (reach met stage).Returns frame a after) : frame = after := by
  unfold reach at reached
  split at reached
  · exact (Program.returns_pure.mp reached).2.symm
  · exact absurd reached Program.not_returns_raise

variable [MetadataMapping M]

/-- The row of a committed request. -/
def completedRow (coordinator : SQLAlchemyIdempotentRequest T M) (committal : Committal IdempotencyIdentity (RequestRecord T)) :
    IdempotencyRecord :=
  ⟨committal.value.fingerprint.value, committal.value.token.value, .completed, committal.retainedUntil,
    some (coordinator.serializer.encode committal.value.value), none⟩

/-- All the writes of one call. -/
structure Written (coordinator : SQLAlchemyIdempotentRequest T M) (met : RequestSurroundings) (request : IdempotentRequest D T)
    (before after : RequestDatabase D T M) (value : Option T) : Prop where
  mutated : request.mutate.Returns before.domain value after.domain
  completed : after.idempotency.rows.get? request.identity =
    some (coordinator.completedRow (coordinator.committal met request value))
  others : ∀ other, other ≠ request.identity → after.idempotency.rows.get? other = before.idempotency.rows.get? other
  received : before.receipts.rows.get? request.receiptId = none ∧ after.receipts.rows = before.receipts.rows.set request.receiptId
    (SQLAlchemyReceiptStore.values coordinator.receiptSerializer (coordinator.receipt met request value))
  recorded : after.commits = before.commits ++ [coordinator.committal met request value]

variable {coordinator : SQLAlchemyIdempotentRequest T M} {met : RequestSurroundings} {request : IdempotentRequest D T}
  {frame after : RequestFrame D T M} {result : RequestResult T M}

/-- Past a granted reservation the body returns only when everything is written and the flag is set. -/
theorem perform_returns {token : ReservationToken} (performed : (coordinator.perform met request token).Returns frame result after) :
    ∃ value, result = .committed value (coordinator.receipt met request value) ∧ after.committing = true ∧
      request.mutate.Returns frame.database.domain value after.database.domain ∧
      (∃ retainedUntil, frame.database.idempotency.complete coordinator.serializer token value met.now met.dbNow
        coordinator.policy.resultRetentionTtl = (.ok (.completed retainedUntil), after.database.idempotency)) ∧
      frame.database.receipts.rows.get? request.receiptId = none ∧
      after.database.receipts.rows = frame.database.receipts.rows.set request.receiptId
        (SQLAlchemyReceiptStore.values coordinator.receiptSerializer (coordinator.receipt met request value)) ∧
      after.database.commits = frame.database.commits ++ [coordinator.committal met request value] := by
  obtain ⟨value, _, mutating, rest⟩ := Program.returns_bind.mp performed
  obtain ⟨domain, mutates, rfl⟩ := Program.returns_zoom.mp mutating
  obtain ⟨_, _, reached, rest⟩ := Program.returns_bind.mp rest
  obtain rfl := reach_returns reached
  obtain ⟨completed, _, completing, rest⟩ := Program.returns_bind.mp rest
  obtain ⟨idempotency, completes, rfl⟩ := Program.returns_zoom.mp completing
  obtain ⟨_, _, checked, rest⟩ := Program.returns_bind.mp rest
  obtain ⟨granted, rfl⟩ := Program.returns_require.mp checked
  obtain ⟨_, _, reached, rest⟩ := Program.returns_bind.mp rest
  obtain rfl := reach_returns reached
  obtain ⟨added, _, adding, rest⟩ := Program.returns_bind.mp rest
  obtain ⟨receipts, adds, rfl⟩ := Program.returns_zoom.mp adding
  obtain ⟨_, _, checked, rest⟩ := Program.returns_bind.mp rest
  obtain ⟨isAdded, rfl⟩ := Program.returns_require.mp checked
  obtain ⟨_, _, reached, rest⟩ := Program.returns_bind.mp rest
  obtain rfl := reach_returns reached
  obtain ⟨_, _, recording, rest⟩ := Program.returns_bind.mp rest
  obtain rfl := Program.returns_modify.mp recording
  obtain ⟨rfl, rfl⟩ := Program.returns_pure.mp rest
  cases completed with
  | stale reason => cases granted
  | completed retainedUntil =>
    simp only [SQLAlchemyReceiptStore.add, Prod.mk.injEq, Except.ok.injEq] at adds
    split at adds
    · rw [← adds.1] at isAdded
      cases isAdded
    · rename_i absent
      obtain ⟨-, rfl⟩ := adds
      exact ⟨value, rfl, rfl, mutates, ⟨retainedUntil, completes⟩, absent, rfl, rfl⟩

/-- The body returns what the row of an earlier call decides and changes nothing, or it returns
its own value and has written everything. -/
theorem body_returns (settled : Settled frame.database.idempotency) (returned : (coordinator.body met request).Returns frame result after) :
    (∃ row, frame.database.idempotency.rows.get? request.identity = some row ∧ row.lapsed met.reservedAt = false ∧
      result = .decided (row.decision coordinator.serializer request.fingerprint) ∧ after = frame) ∨
    (∃ value, result = .committed value (coordinator.receipt met request value) ∧ after.committing = true ∧
      (∀ row, frame.database.idempotency.rows.get? request.identity = some row → row.lapsed met.reservedAt = true) ∧
      coordinator.Written met request frame.database after.database value) := by
  obtain ⟨_, _, reached, rest⟩ := Program.returns_bind.mp returned
  obtain rfl := reach_returns reached
  obtain ⟨decision, _, reserving, rest⟩ := Program.returns_bind.mp rest
  obtain ⟨reserved, answered, rfl⟩ := Program.returns_zoom.mp reserving
  rcases SQLAlchemyIdempotencyStore.reserve_ok answered with ⟨row, found, current, rfl, rfl⟩ | ⟨lapsed, rfl, expiresAt, rows⟩
  · refine Or.inl ⟨row, found, current, ?_⟩
    cases isDecision : row.decision coordinator.serializer request.fingerprint with
    | execute token => exact absurd isDecision (row.decision_ne_execute _ _ token)
    | _ =>
      rw [isDecision] at rest
      exact Program.returns_pure.mp rest
  · change ∀ other, reserved.rows.get? other = if other = request.identity then _ else _ at rows
    obtain ⟨value, rfl, flagged, mutates, ⟨retainedUntil, completes⟩, absent, receipts, recorded⟩ := perform_returns rest
    obtain ⟨rfl, ⟨identity, row, found, holds⟩, changed⟩ := SQLAlchemyIdempotencyStore.complete_completed completes
    have unheld : ∀ other row, frame.database.idempotency.rows.get? other = some row →
        row.authority met.token met.now met.dbNow = false := by
      intro other row stored
      simp [IdempotencyRecord.authority, settled other row stored]
    have own : identity = request.identity := by
      by_contra different
      have stored := (rows identity).symm.trans found
      rw [if_neg different] at stored
      rw [unheld identity row stored] at holds
      cases holds
    subst own
    have stored := (rows request.identity).symm.trans found
    rw [if_pos rfl] at stored
    cases stored
    refine Or.inr ⟨value, rfl, flagged, lapsed, mutates, ?_, ?_, ⟨absent, receipts⟩, recorded⟩
    · rw [changed, found, Option.map_some, if_pos holds]
      rfl
    · intro other different
      have same := rows other
      rw [if_neg different] at same
      rw [changed]
      simp only [same]
      cases stored : frame.database.idempotency.rows.get? other with
      | none => rfl
      | some row => simp [unheld other row stored]

/-- The end of a block around the body: either nothing is written, and it raises or a row of an
earlier call decides; or everything is written and the flag is set, and it returns or raises. -/
def Ends (coordinator : SQLAlchemyIdempotentRequest T M) (met : RequestSurroundings) (request : IdempotentRequest D T)
    (database : RequestDatabase D T M) (answer : Except RequestFailure (RequestResult T M)) (after : RequestFrame D T M) : Prop :=
  (after.database = database ∧ ((∃ failure, answer = .error failure) ∨
    ∃ row, database.idempotency.rows.get? request.identity = some row ∧ row.lapsed met.reservedAt = false ∧
      answer = .ok (.decided (row.decision coordinator.serializer request.fingerprint)))) ∨
  ∃ value, after.committing = true ∧
    (∀ row, database.idempotency.rows.get? request.identity = some row → row.lapsed met.reservedAt = true) ∧
    coordinator.Written met request database after.database value ∧
    (answer = .ok (.committed value (coordinator.receipt met request value)) ∨ ∃ failure, answer = .error failure)

theorem transaction_ends {database : RequestDatabase D T M} (settled : Settled database.idempotency)
    {answer : Except RequestFailure (RequestResult T M)}
    (ends : transaction met (coordinator.body met request) ⟨database, false⟩ = (answer, after)) :
    coordinator.Ends met request database answer after := by
  unfold transaction at ends
  rcases Program.returns_or_raises (coordinator.body met request) ⟨database, false⟩ with ⟨result, left, returned⟩ | ⟨failure, left, raised⟩
  · rw [show coordinator.body met request ⟨database, false⟩ = (.ok result, left) from returned] at ends
    rcases body_returns settled returned with ⟨row, found, current, rfl, rfl⟩ | ⟨value, rfl, flagged, lapsed, written⟩
    · left
      cases commit : met.commit with
      | succeeds =>
        simp only [commit] at ends
        cases ends
        exact ⟨rfl, .inr ⟨row, found, current, rfl⟩⟩
      | lost failure | refused failure =>
        simp only [commit] at ends
        cases ends
        exact ⟨rfl, .inl ⟨failure, rfl⟩⟩
    · cases commit : met.commit with
      | succeeds =>
        simp only [commit] at ends
        cases ends
        exact Or.inr ⟨value, flagged, lapsed, written, .inl rfl⟩
      | lost failure =>
        simp only [commit] at ends
        cases ends
        exact Or.inr ⟨value, flagged, lapsed, written, .inr ⟨failure, rfl⟩⟩
      | refused failure =>
        simp only [commit] at ends
        cases ends
        exact Or.inl ⟨rfl, .inl ⟨failure, rfl⟩⟩
  · rw [show coordinator.body met request ⟨database, false⟩ = (.error failure, left) from raised] at ends
    cases ends
    exact Or.inl ⟨rfl, .inl ⟨_, rfl⟩⟩

/-- A session adds failures of its own to those of the transaction. -/
theorem session_ends {database : RequestDatabase D T M} (settled : Settled database.idempotency) :
    coordinator.Ends met request database
      (session met (transaction met (coordinator.body met request)) ⟨database, false⟩).1
      (session met (transaction met (coordinator.body met request)) ⟨database, false⟩).2 := by
  have inner : coordinator.Ends met request database (transaction met (coordinator.body met request) ⟨database, false⟩).1
      (transaction met (coordinator.body met request) ⟨database, false⟩).2 := transaction_ends settled rfl
  unfold session
  cases met.opening with
  | some failure => exact Or.inl ⟨rfl, .inl ⟨failure, rfl⟩⟩
  | none =>
    cases met.closing with
    | none => exact inner
    | some failure =>
      rcases inner with ⟨same, -⟩ | ⟨value, flagged, lapsed, written, -⟩
      · exact Or.inl ⟨same, .inl ⟨failure, rfl⟩⟩
      · exact Or.inr ⟨value, flagged, lapsed, written, .inr ⟨failure, rfl⟩⟩

/-- How an attempt ends. What it has written is reported, left to the query, or hidden by a cancellation. -/
theorem execute_ends {database : RequestDatabase D T M} (settled : Settled database.idempotency)
    (coordinator : SQLAlchemyIdempotentRequest T M) (met : RequestSurroundings) (request : IdempotentRequest D T) :
    ((coordinator.execute met request database).2 = database ∧
      ((∃ failure, (coordinator.execute met request database).1 = .raised failure) ∨
        (coordinator.execute met request database).1 = .reconciling ∨
        ∃ row, database.idempotency.rows.get? request.identity = some row ∧ row.lapsed met.reservedAt = false ∧
          (coordinator.execute met request database).1 = .returned (.decided (row.decision coordinator.serializer request.fingerprint)))) ∨
    ∃ value, (∀ row, database.idempotency.rows.get? request.identity = some row → row.lapsed met.reservedAt = true) ∧
      coordinator.Written met request database (coordinator.execute met request database).2 value ∧
      ((coordinator.execute met request database).1 = .returned (.committed value (coordinator.receipt met request value)) ∨
        (coordinator.execute met request database).1 = .reconciling ∨
        (coordinator.execute met request database).1 = .raised .cancelled) := by
  have ends : coordinator.Ends met request database _ _ := session_ends settled
  unfold execute
  generalize session met (transaction met (coordinator.body met request)) ⟨database, false⟩ = attempt at ends
  obtain ⟨answer, frame⟩ := attempt
  rcases ends with ⟨same, ⟨failure, rfl⟩ | ⟨row, found, current, rfl⟩⟩ | ⟨value, flagged, lapsed, written, rfl | ⟨failure, rfl⟩⟩
  · left
    cases failure with
    | cancelled => exact ⟨same, .inl ⟨_, rfl⟩⟩
    | exception error =>
      cases flag : frame.committing with
      | false => exact ⟨same, .inl ⟨.exception error, by simp [flag]⟩⟩
      | true => exact ⟨same, .inr (.inl (by simp [flag]))⟩
  · exact Or.inl ⟨same, .inr (.inr ⟨row, found, current, rfl⟩)⟩
  · exact Or.inr ⟨value, lapsed, written, .inl rfl⟩
  · right
    cases failure with
    | cancelled => exact ⟨value, lapsed, written, .inr (.inr rfl)⟩
    | exception error => exact ⟨value, lapsed, written, .inr (.inl (by simp [show frame.committing = true from flagged]))⟩

end SQLAlchemyIdempotentRequest

/-- The attempt of a call, or what others do to the tables besides the reservations. A query that
reconciles changes nothing. -/
inductive RequestInput (D T M : Type)
  | execute (request : IdempotentRequest D T) (met : RequestSurroundings)
  | elsewhere (domain : D) (receipts : SQLAlchemyReceiptStore M)

namespace RequestDatabase
variable {D T M : Type}

def start (domain : D) (receipts : SQLAlchemyReceiptStore M) : RequestDatabase D T M := ⟨domain, .empty, receipts, []⟩

variable [MetadataMapping M]

def answer (coordinator : SQLAlchemyIdempotentRequest T M) (db : RequestDatabase D T M) :
    RequestInput D T M → Option (AttemptEnd T M) × RequestDatabase D T M
  | .execute request met => (some (coordinator.execute met request db).1, (coordinator.execute met request db).2)
  | .elsewhere domain receipts => (none, { db with domain, receipts })

/-- Attempts in any order. -/
abbrev Run (coordinator : SQLAlchemyIdempotentRequest T M) (start : RequestDatabase D T M) :=
  History (answer coordinator) (fun _ _ (_ : RequestInput D T M) => True) start

/-- A whole call of `execute` that begins in one database and ends in a later one: after an
ambiguous attempt anything may happen before the query is answered. -/
inductive Call (coordinator : SQLAlchemyIdempotentRequest T M) (request : IdempotentRequest D T) (met : RequestSurroundings)
    (db : RequestDatabase D T M) : RequestDatabase D T M → Except RequestFailure (RequestResult T M) → Prop
  | returned {result : RequestResult T M} (attempted : (coordinator.execute met request db).1 = .returned result) :
      Call coordinator request met db (coordinator.execute met request db).2 (.ok result)
  | raised {failure : RequestFailure} (attempted : (coordinator.execute met request db).1 = .raised failure) :
      Call coordinator request met db (coordinator.execute met request db).2 (.error failure)
  | reconciled {meanwhile : List (RequestInput D T M × Option (AttemptEnd T M))} {later : RequestDatabase D T M}
      {now : Int} {failure : Option RequestFailure} (attempted : (coordinator.execute met request db).1 = .reconciling)
      (run : Run coordinator (coordinator.execute met request db).2 meanwhile later) :
      Call coordinator request met db later
        ((coordinator.reconcile request.scope request.key request.fingerprint now failure later).map .decided)

/-- What the result of a call says holds of the database. -/
def Truthful (coordinator : SQLAlchemyIdempotentRequest T M) (request : IdempotentRequest D T) (met : RequestSurroundings)
    (db later : RequestDatabase D T M) : Except RequestFailure (RequestResult T M) → Prop
  | .ok (.committed value receipt) =>
    receipt = coordinator.receipt met request value ∧ coordinator.Written met request db later value
  | .ok (.decided (.replay value)) => ∃ committal ∈ later.commits, committal.key = request.identity ∧
    committal.value.fingerprint = request.fingerprint ∧
    value = coordinator.serializer.decode (coordinator.serializer.encode committal.value.value) ∧
    later.idempotency.rows.get? request.identity = some (coordinator.completedRow committal)
  | .ok (.decided (.execute _)) => False
  | .ok (.decided _) => True
  | .error (.exception _) => later = db
  | .error .cancelled => True

/-- The table of reservations shows the last committal of each identity, and the committals of an
identity keep their distance. -/
structure Sound (coordinator : SQLAlchemyIdempotentRequest T M) (db : RequestDatabase D T M) : Prop where
  reflects : Ledger.Reflects db.idempotency.rows.get? coordinator.completedRow db.commits
  spaced : Ledger.Spaced db.commits

variable {coordinator : SQLAlchemyIdempotentRequest T M} {db later : RequestDatabase D T M} {request : IdempotentRequest D T}
  {met : RequestSurroundings}

theorem Sound.settled (sound : Sound coordinator db) : SQLAlchemyIdempotentRequest.Settled db.idempotency := by
  intro identity row found
  obtain ⟨_, -, rfl⟩ := sound.reflects.row found
  rfl

theorem Sound.start (domain : D) (receipts : SQLAlchemyReceiptStore M) : Sound coordinator (RequestDatabase.start (D := D) domain receipts) :=
  ⟨fun _ => rfl, .nil⟩

theorem Sound.next (sound : Sound coordinator db) (input : RequestInput D T M) : Sound coordinator (db.answer coordinator input).2 := by
  cases input with
  | elsewhere domain receipts => exact ⟨sound.reflects, sound.spaced⟩
  | execute request met =>
    rcases SQLAlchemyIdempotentRequest.execute_ends sound.settled coordinator met request with ⟨same, -⟩ | ⟨value, lapsed, written, -⟩
    · rw [answer, same]
      exact sound
    · have stored := written.completed
      refine ⟨?_, ?_⟩
      · rw [answer, written.recorded]
        exact sound.reflects.snoc stored written.others
      · rw [answer, written.recorded]
        refine sound.spaced.snoc fun prior last => ?_
        have present := sound.reflects request.identity
        have isLast : Ledger.latest db.commits request.identity = some prior := last
        rw [isLast, Option.map_some] at present
        have gone := lapsed _ present
        simp only [IdempotencyRecord.lapsed, Bool.and_eq_true, decide_eq_true_eq] at gone
        exact gone.1

theorem Run.sound {past : List (RequestInput D T M × Option (AttemptEnd T M))} (run : Run coordinator db past later)
    (sound : Sound coordinator db) : Sound coordinator later :=
  run.state_invariant (P := Sound coordinator) sound fun _ _ input sound _ => sound.next input

/-- What a row decides is no permission, and a value it replays was committed for the fingerprint. -/
theorem Sound.decision (sound : Sound coordinator db) {row : IdempotencyRecord} (found : db.idempotency.rows.get? request.identity = some row) {start : RequestDatabase D T M} :
    Truthful coordinator request met start db (.ok (.decided (row.decision coordinator.serializer request.fingerprint))) := by
  obtain ⟨committal, last, rfl⟩ := sound.reflects.row found
  obtain ⟨member, own⟩ := Ledger.latest_some last
  have decided : (coordinator.completedRow committal).decision coordinator.serializer request.fingerprint =
      if committal.value.fingerprint = request.fingerprint then .replay (coordinator.serializer.decode (coordinator.serializer.encode committal.value.value))
      else .conflict conflictReason := by
    have same : committal.value.fingerprint.value = request.fingerprint.value ↔ committal.value.fingerprint = request.fingerprint := by
      cases committal.value.fingerprint
      cases request.fingerprint
      simp
    by_cases equal : committal.value.fingerprint = request.fingerprint
    · simp [IdempotencyRecord.decision, SQLAlchemyIdempotentRequest.completedRow, equal]
    · simp [IdempotencyRecord.decision, SQLAlchemyIdempotentRequest.completedRow, same, equal]
  rw [decided]
  split
  · rename_i equal
    exact ⟨committal, member, own, equal, rfl, found⟩
  · exact trivial

/-- The query tells the truth about the database that it reads, or is cancelled. -/
theorem Sound.reconcile (sound : Sound coordinator db) (now : Int) (failure : Option RequestFailure) {start : RequestDatabase D T M} :
    Truthful coordinator request met start db
      ((coordinator.reconcile request.scope request.key request.fingerprint now failure db).map .decided) := by
  cases failure with
  | some failure =>
    cases failure with
    | cancelled => exact trivial
    | exception error => exact trivial
  | none =>
    unfold SQLAlchemyIdempotentRequest.reconcile SQLAlchemyIdempotencyStore.lookup
    by_cases keyless : request.key = ""
    · simp only [keyless, if_true]
      exact trivial
    · simp only [keyless, if_false]
      cases found : db.idempotency.rows.get? ⟨request.scope, request.key⟩ with
      | none => exact trivial
      | some row =>
        cases lapsed : row.lapsed now with
        | true =>
          simp only [lapsed, if_true]
          exact trivial
        | false =>
          simp only [lapsed, Bool.false_eq_true, if_false]
          exact sound.decision found

/-- Every result of a call is true of the database it ends in, and every attempt writes all or
nothing. The committals of one identity are apart by the retention of each. -/
theorem requests_tell_the_truth {domain : D} {receipts : SQLAlchemyReceiptStore M} {past : List (RequestInput D T M × Option (AttemptEnd T M))}
    (run : Run coordinator (start domain receipts) past db) :
    (∀ request met later result, Call coordinator request met db later result → Truthful coordinator request met db later result) ∧
    (∀ request met, (coordinator.execute met request db).2 = db ∨
      ∃ value, coordinator.Written met request db (coordinator.execute met request db).2 value) ∧
    Ledger.Spaced db.commits ∧
    ((∀ committal ∈ db.commits, committal.startedAt ≤ committal.retainedUntil) →
      db.commits.Pairwise fun earlier later => earlier.key = later.key → earlier.retainedUntil ≤ later.startedAt) := by
  have sound := run.sound (.start domain receipts)
  refine ⟨fun request met later result call => ?_, fun request met => ?_, sound.spaced, sound.spaced.pairwise⟩
  · have after := sound.next (.execute request met)
    cases call with
    | @returned result attempted =>
      rcases SQLAlchemyIdempotentRequest.execute_ends sound.settled coordinator met request with
        ⟨same, ⟨failure, ends⟩ | ends | ⟨row, found, current, ends⟩⟩ | ⟨value, lapsed, written, ends | ends | ends⟩
      · cases ends.symm.trans attempted
      · cases ends.symm.trans attempted
      · cases ends.symm.trans attempted
        rw [same]
        exact sound.decision found
      · cases ends.symm.trans attempted
        exact ⟨rfl, written⟩
      · cases ends.symm.trans attempted
      · cases ends.symm.trans attempted
    | @raised failure attempted =>
      rcases SQLAlchemyIdempotentRequest.execute_ends sound.settled coordinator met request with
        ⟨same, -⟩ | ⟨value, lapsed, written, ends | ends | ends⟩
      · cases failure with
        | exception error => exact same
        | cancelled => exact trivial
      · cases ends.symm.trans attempted
      · cases ends.symm.trans attempted
      · cases ends.symm.trans attempted
        exact trivial
    | @reconciled meanwhile later now failure attempted further =>
      exact (further.sound after).reconcile now failure
  · rcases SQLAlchemyIdempotentRequest.execute_ends sound.settled coordinator met request with ⟨same, -⟩ | ⟨value, -, written, -⟩
    · exact Or.inl same
    · exact Or.inr ⟨value, written⟩

/-- A coordinator whose mutations count in the consumer's table. -/
def countingCoordinator : SQLAlchemyIdempotentRequest Unit Unit where
  serializer := ⟨fun value => [if value.isSome then 1 else 0], fun bytes => if bytes = [1] then some () else none⟩
  receiptSerializer := ⟨fun _ => [1], fun _ => ()⟩
  metadata := ()
  empty := rfl
  policy := ⟨5, 10, 10, Sample.policy_positive⟩

def countingCall (key : String) (receiptId : OpaqueId) : IdempotentRequest Nat Unit :=
  ⟨⟨"shop", "customer", "order", Sample.scope_named⟩, key, ⟨"f"⟩, receiptId, fun count => (.ok (some ()), count + 1)⟩

/-- The surroundings of a call at an instant, with a commit of the given outcome. -/
def calmly (instant : Int) (commit : CommitOutcome) : RequestSurroundings :=
  ⟨none, none, fun _ => none, none, commit, instant, instant, instant, instant, ⟨"token", by decide⟩⟩

/-- The second call's commit is lost. -/
def lostSecond : RequestSurroundings := calmly 3 (.lost (.exception (.raised "connection lost")))

/-- The query finds what a lost commit has written. -/
theorem lost_commit_replayed : ∃ past db later, Run countingCoordinator (start 0 .empty) past db ∧ db.domain = 1 ∧
    Call countingCoordinator (countingCall "b" ⟨"second", by decide⟩) lostSecond db later (.ok (.decided (.replay (some ())))) ∧
    later.domain = 2 ∧
    Truthful countingCoordinator (countingCall "b" ⟨"second", by decide⟩) lostSecond db later (.ok (.decided (.replay (some ())))) := by
  have run : Run countingCoordinator (start 0 .empty) _ _ :=
    .next (.execute (countingCall "a" ⟨"first", by decide⟩) (calmly 0 .succeeds)) .start trivial
  have attempted : (countingCoordinator.execute lostSecond (countingCall "b" ⟨"second", by decide⟩)
      (answer countingCoordinator (start 0 .empty) (.execute (countingCall "a" ⟨"first", by decide⟩) (calmly 0 .succeeds))).2).1 =
      .reconciling := rfl
  have call := @Call.reconciled _ _ _ _ _ _ _ _ [] _ 4 none attempted .start
  exact ⟨_, _, _, run, rfl, call, rfl, (requests_tell_the_truth run).1 _ _ _ _ call⟩

end RequestDatabase

end Pytitect
