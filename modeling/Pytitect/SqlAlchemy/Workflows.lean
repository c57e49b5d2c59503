import Pytitect.Jobs.Store
import Pytitect.SqlAlchemy.WorkflowTables

namespace Pytitect

/-- What a session does with the tables of processes. -/
abbrev WorkflowTask (α : Type) : Type := RowLocks.Session WorkflowTables WorkflowWrite WorkflowRow PyError α

/-- What `apply_message` answers. -/
inductive MessageResult
  | process (result : ProcessApplyResult)
  | inbox (decision : InboxDecision)

/-- The state of a row that has a decision, `_state`. -/
def ProcessRow.processState (row : ProcessRow) (key : ProcessKey) : Option ProcessState :=
  if positive : 0 < row.version then some ⟨key, row.version, row.status, row.state, row.updatedAt, positive, row.valid⟩ else none

theorem emptyState_valid : validateJson (.dict []) .default = .ok () := rfl

/-- The row that stands for a process without a decision. -/
def ProcessRow.new (at_ : Int) : ProcessRow := ⟨0, .running, .dict [], at_, emptyState_valid⟩

/-- The row after a decision. -/
def ProcessRow.next (row : ProcessRow) (decision : ProcessDecision) (at_ : Int) : ProcessRow :=
  ⟨row.version + 1, decision.status, decision.state, at_, decision.valid⟩

/-- The row of a timer that has just been scheduled. -/
def TimerSchedule.stored (timer : TimerSchedule) (key : ProcessKey) : StoredTimer :=
  ⟨⟨key, timer.timerId, timer.dueAt, timer.effect, 0⟩, false, none, none⟩

def StoredTimer.end (stored : StoredTimer) : StoredTimer := { stored with terminal := true, claimId := none, claimedUntil := none }

/-- What the claim of a timer leaves in its row. -/
def StoredTimer.claim (stored : StoredTimer) (claimId : Uuid) (claimedUntil : Int) : StoredTimer :=
  { stored with
    value := { stored.value with fencingToken := stored.value.fencingToken + 1 }
    claimId := some claimId
    claimedUntil := some claimedUntil }

namespace InboxStatements
open RowLocks.Session
variable (i : Nat)

/-- `begin` of `SQLAlchemyInboxStore`, here as `complete` statement by statement in session `i`. -/
def begin (identity : InboxIdentity) (token : String) (now ttl : Int) : WorkflowTask InboxDecision :=
  if token = "" ∨ ttl ≤ 0 then Coroutine.raise (.valueError "token and a positive ttl are required")
  else
    match datetimeAdd now ttl with
    | .error error => Coroutine.raise error
    | .ok expiresAt => do
      let inserted ← writeWhere WorkflowWrite.apply i (.message identity) fun tables =>
        if (tables.inbox.get? identity).isNone then some (.reserveMessage identity ⟨token, expiresAt, none⟩) else none
      if inserted then return .accepted token
      else
        let row ← selectForUpdate WorkflowWrite.apply i (.message identity) fun tables => tables.inbox.get? identity
        match row with
        | none => Coroutine.raise (.raised "NoResultFound")
        | some row =>
          match row.completedAt with
          | some completedAt => return .duplicate completedAt
          | none =>
            if now < row.expiresAt then return .inProgress row.expiresAt
            else
              change i (.reserveMessage identity ⟨token, expiresAt, none⟩)
              return .accepted token

/-- The filter of `complete`; `clock` is what the database's clock says. -/
def completes (token : String) (now clock : Int) (entry : InboxEntry) : Bool :=
  entry.token = token && entry.completedAt.isNone && max now clock < entry.expiresAt

/-- `complete`, with the decision that the message has led to. -/
def complete (identity : InboxIdentity) (token : String) (now clock : Int) (handled : ProcessKey × Nat) : WorkflowTask Bool := do
  let _ ← selectForUpdate WorkflowWrite.apply i (.message identity) fun tables => tables.inbox.get? identity
  writeWhere WorkflowWrite.apply i (.message identity) fun tables =>
    ((tables.inbox.get? identity).filter (completes token now clock)).map fun entry =>
      .completeMessage identity { entry with completedAt := some (max now clock) } handled

end InboxStatements

namespace ProcessStatements
open RowLocks.Session
variable (i : Nat)

/-- `load` of `SQLAlchemyProcessStore`, whose methods run statement by statement in session `i`. -/
def load (key : ProcessKey) : WorkflowTask (Option ProcessState) :=
  query WorkflowWrite.apply i fun tables => (tables.processes.get? key).bind (·.processState key)

/-- The update that cancels timers, for one of them. A timer that had ended before is left alone,
so that the order does not matter. -/
def cancelTimer (key : ProcessKey) (timerId : String) : WorkflowTask Bool :=
  writeWhere WorkflowWrite.apply i (.timer (key, timerId)) fun tables =>
    ((tables.timers.get? (key, timerId)).filter (!·.terminal)).map fun stored => .saveTimer (key, timerId) stored.end

/-- Insert the row of a timer; its identity is unique. -/
def scheduleTimer (key : ProcessKey) (timer : TimerSchedule) : WorkflowTask Unit := do
  let inserted ← writeWhere WorkflowWrite.apply i (.timer (key, timer.timerId)) fun tables =>
    if (tables.timers.get? (key, timer.timerId)).isNone then some (.saveTimer (key, timer.timerId) (timer.stored key)) else none
  if inserted then return ()
  else Coroutine.raise (.raised "IntegrityError")

/-- The part of `apply` after the version check. -/
def advance (key : ProcessKey) (row : ProcessRow) (decision : ProcessDecision) (message : Option InboxIdentity) (at_ : Int) :
    WorkflowTask ProcessApplyResult := do
  let cancelled ← each (cancelTimer i key) decision.cancelTimers
  let _ ← each (scheduleTimer i key) decision.schedule
  let _ ← each (fun effect => change i (.saveEffect key effect)) decision.effects
  change i (.advance key (row.next decision at_) ⟨decision, message⟩)
  return .applied ⟨key, row.version + 1, decision.status, decision.state, at_, Nat.succ_pos _, decision.valid⟩
    decision.effects.length decision.schedule.length (cancelled.count true)

/-- `apply`; `message` only tells what is remembered of the decision. -/
def apply (key : ProcessKey) (expectedVersion : Int) (decision : ProcessDecision) (message : Option InboxIdentity) (at_ : Int) :
    WorkflowTask ProcessApplyResult :=
  if expectedVersion < 0 then Coroutine.raise (.valueError "expected process version must not be negative")
  else
    nested i fun transaction => do
      let _ ← writeWhere WorkflowWrite.apply i (.process key) fun tables =>
        if (tables.processes.get? key).isNone then some (.createProcess key (.new at_)) else none
      let row ← selectForUpdate WorkflowWrite.apply i (.process key) fun tables => tables.processes.get? key
      match row with
      | none => Coroutine.raise (.raised "NoResultFound")
      | some row =>
        if (row.version : Int) ≠ expectedVersion then
          rollback i transaction
          return .stale expectedVersion row.version
        else advance i key row decision message at_

/-- `apply_message`. The three times are what the clock says to the inbox, the process and the inbox
again, and `clock` is the database's at the end. -/
def applyMessage (key : ProcessKey) (expectedVersion : Int) (decision : ProcessDecision) (identity : InboxIdentity) (token : Uuid)
    (ttl beginAt applyAt completeAt clock : Int) : WorkflowTask MessageResult :=
  nested i fun transaction => do
    let reservation ← InboxStatements.begin i identity token.hex beginAt ttl
    match reservation with
    | .accepted _ =>
      let result ← apply i key expectedVersion decision (some identity) applyAt
      match result with
      | .stale expected actual =>
        rollback i transaction
        return .process (.stale expected actual)
      | .applied state effects timersScheduled timersCancelled =>
        let completed ← InboxStatements.complete i identity token.hex completeAt clock (key, state.version)
        if completed then return .process (.applied state effects timersScheduled timersCancelled)
        else Coroutine.raise (.runtimeError "process inbox authority expired")
    | refused => return .inbox refused

/-- Claim one of the timers that were selected. -/
def claimTimer (now claimTtl : Int) (entry : (TimerIdentity × StoredTimer) × Uuid) : WorkflowTask ProcessTimerClaim :=
  match datetimeAdd now claimTtl with
  | .error error => Coroutine.raise error
  | .ok claimedUntil => do
    let claimed := entry.1.2.claim entry.2 claimedUntil
    change i (.claimTimer entry.1.1 claimed (entry.2, claimedUntil))
    return ⟨claimed.value, entry.2, claimedUntil⟩

/-- `claim_timers`; `claimIds` is what `uuid4` supplies during the call. -/
def claimTimers (now limit claimTtl : Int) (claimIds : Nat → Uuid) : WorkflowTask (List ProcessTimerClaim) :=
  match claimArguments limit claimTtl with
  | .error error => Coroutine.raise error
  | .ok () => do
    let rows ← selectSkipLocked WorkflowWrite.apply i
      (fun tables => (tables.timers.items.filter (ProcessManagerStore.claimable now)).insertionSort (ProcessManagerStore.timerOrder · ·))
      (fun entry => WorkflowRow.timer entry.1) limit.toNat
    each (claimTimer i now claimTtl) (rows.mapIdx fun count entry => (entry, claimIds count))

/-- The filter that `complete_timer` locks the row with. -/
def claims (claim : ProcessTimerClaim) (at_ clock : Int) (stored : StoredTimer) : Bool :=
  stored.claimId = some claim.claimId && stored.value.fencingToken = claim.timer.fencingToken && !stored.terminal &&
    stored.claimedUntil = some claim.claimedUntil && max at_ clock < claim.claimedUntil

/-- The filter of its update. -/
def stillClaims (claim : ProcessTimerClaim) (at_ clock : Int) (stored : StoredTimer) : Bool :=
  stored.claimId = some claim.claimId && stored.value.fencingToken = claim.timer.fencingToken &&
    stored.claimedUntil.any (max at_ clock < ·)

/-- `complete_timer`; the clocks are what the database's says to its two statements. -/
def completeTimer (claim : ProcessTimerClaim) (at_ selectClock updateClock : Int) : WorkflowTask Bool :=
  nested i fun transaction => do
    let row ← selectForUpdate WorkflowWrite.apply i (.timer claim.timer.identity) fun tables =>
      (tables.timers.get? claim.timer.identity).filter (claims claim at_ selectClock)
    match row with
    | none => return false
    | some _ =>
      change i (.saveTimerEffect claim.timer.identity claim.timer.effect)
      let changed ← writeWhere WorkflowWrite.apply i (.timer claim.timer.identity) fun tables =>
        ((tables.timers.get? claim.timer.identity).filter (stillClaims claim at_ updateClock)).map fun stored =>
          .saveTimer claim.timer.identity stored.end
      if changed then return true
      else
        rollback i transaction
        return false

end ProcessStatements

end Pytitect
