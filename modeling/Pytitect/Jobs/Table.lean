import Pytitect.Jobs.Store

namespace Pytitect

/-- A row of the consumer's model, less its unique `job_id`. -/
structure JobRow where
  task : String
  payload : JsonValue
  runAt : Int
  maxAttempts : Int
  attempt : Int
  state : JobState
  terminal : Bool
  failureReason : Option String
  fencingToken : Nat
  claimId : Option Uuid
  claimedUntil : Option Int

namespace JobRow

/-- `_job` -/
def job (jobId : String) (row : JobRow) : Except PyError Job :=
  Job.make jobId row.task row.payload row.runAt row.maxAttempts row.attempt row.state row.failureReason

/-- The filter of `claim`. -/
def eligible (now : Int) (row : JobRow) : Bool :=
  row.state = .scheduled && row.runAt ≤ now && row.claimedUntil.all (· ≤ now)

/-- `order_by(m.run_at, m.job_id)`; ids are ordered by code point. -/
def Before (a b : String × JobRow) : Prop := a.2.runAt < b.2.runAt ∨ a.2.runAt = b.2.runAt ∧ a.1 ≤ b.1

instance : DecidableRel Before := fun _ _ => inferInstanceAs (Decidable (_ ∨ _))

/-- The filter of `_settle`; `clock` is what the database's clock says. -/
def settles (claim : JobClaim) (at_ clock : Int) (row : JobRow) : Bool :=
  row.claimId = some claim.claimId && row.fencingToken = claim.fencingToken && row.claimedUntil = some claim.claimedUntil &&
    max at_ clock < claim.claimedUntil && row.state = .scheduled

end JobRow

/-- `SQLAlchemyJobStore`: the table behind it, and the decisions that `save_decision` has saved.
Every call is a transaction of its own. -/
structure SQLAlchemyJobStore (D : Type) where
  rows : Dict String JobRow
  decisions : List D

namespace SQLAlchemyJobStore
variable {D : Type}

def empty : SQLAlchemyJobStore D := ⟨.empty, []⟩

def get (store : SQLAlchemyJobStore D) (jobId : String) : Except PyError (Option Job) :=
  match store.rows.get? jobId with
  | none => .ok none
  | some row => (row.job jobId).map some

/-- `schedule`; a conflict on the id inserts nothing. -/
def schedule (store : SQLAlchemyJobStore D) (job : Job) : JobScheduleResult × SQLAlchemyJobStore D :=
  match store.rows.get? job.jobId with
  | some _ => (.duplicate, store)
  | none =>
    (.scheduled, { store with rows := store.rows.set job.jobId ⟨job.task, job.payload, job.runAt, job.maxAttempts, job.attempt,
      job.state, job.state ≠ .scheduled, job.lastFailure, 0, none, none⟩ })

/-- The rows that a call at `now` locks. -/
def selected (store : SQLAlchemyJobStore D) (now limit : Int) : List (String × JobRow) :=
  ((store.rows.items.filter fun entry => entry.2.eligible now).insertionSort JobRow.Before).take limit.toNat

/-- The loop of `claim` over the selected rows, with how many it has seen. -/
def claimRows (deadline : Except PyError Int) (claimIds : Nat → Uuid) :
    List (String × JobRow) → Nat → Dict String JobRow → Except PyError (List JobClaim × Dict String JobRow)
  | [], _, rows => .ok ([], rows)
  | (jobId, row) :: rest, count, rows => do
    let claimedUntil ← deadline
    let claimed := { row with fencingToken := row.fencingToken + 1, claimId := some (claimIds count), claimedUntil := some claimedUntil }
    let job ← claimed.job jobId
    let (claims, rows) ← claimRows deadline claimIds rest (count + 1) (rows.set jobId claimed)
    return (⟨job, claimIds count, claimedUntil, row.fencingToken + 1, Nat.succ_pos _⟩ :: claims, rows)

/-- `claim`; an exception undoes the transaction. -/
def claim (store : SQLAlchemyJobStore D) (now limit claimTtl : Int) (claimIds : Nat → Uuid) :
    Except PyError (List JobClaim) × SQLAlchemyJobStore D :=
  match claimArguments limit claimTtl with
  | .error error => (.error error, store)
  | .ok () =>
    match claimRows (datetimeAdd now claimTtl) claimIds (store.selected now limit) 0 store.rows with
    | .error error => (.error error, store)
    | .ok (claims, rows) => (.ok claims, { store with rows })

/-- `_settle`; `values` are the columns that it writes besides the claim. -/
def settle (store : SQLAlchemyJobStore D) (claim : JobClaim) (at_ clock : Int) (values : JobRow → JobRow) :
    Bool × SQLAlchemyJobStore D :=
  match store.rows.get? claim.job.jobId with
  | none => (false, store)
  | some row =>
    if row.settles claim at_ clock then
      (true, { store with rows := store.rows.set claim.job.jobId { values row with claimId := none, claimedUntil := none } })
    else (false, store)

/-- `succeed`; the decision that was saved for a stale claim is rolled back. -/
def succeed (store : SQLAlchemyJobStore D) (claim : JobClaim) (decision : D) (at_ clock : Int) :
    JobTransition × SQLAlchemyJobStore D :=
  match { store with decisions := store.decisions ++ [decision] }.settle claim at_ clock
    ({ · with state := .succeeded, terminal := true }) with
  | (true, after) => (.succeeded, after)
  | (false, _) => (.stale, store)

/-- `retry`; the attempt is counted from the claim's job, and the run time is written on every attempt. -/
def retry (store : SQLAlchemyJobStore D) (claim : JobClaim) (reason : String) (runAt at_ clock : Int) :
    Except PyError JobTransition × SQLAlchemyJobStore D :=
  match jobReason reason with
  | .error error => (.error error, store)
  | .ok reason =>
    let attempt := claim.job.attempt + 1
    let terminal := decide (claim.job.maxAttempts ≤ attempt)
    match store.settle claim at_ clock
      ({ · with attempt, runAt, failureReason := some reason, terminal, state := if terminal then .terminal else .scheduled }) with
    | (true, after) => (.ok (if terminal then .terminated reason else .retried runAt), after)
    | (false, after) => (.ok .stale, after)

def terminate (store : SQLAlchemyJobStore D) (claim : JobClaim) (reason : String) (at_ clock : Int) :
    Except PyError JobTransition × SQLAlchemyJobStore D :=
  match jobReason reason with
  | .error error => (.error error, store)
  | .ok reason =>
    match store.settle claim at_ clock ({ · with failureReason := some reason, terminal := true, state := .terminal }) with
    | (true, after) => (.ok (.terminated reason), after)
    | (false, after) => (.ok .stale, after)

end SQLAlchemyJobStore

end Pytitect
