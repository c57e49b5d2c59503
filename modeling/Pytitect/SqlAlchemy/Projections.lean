import Pytitect.Lib.Binary64
import Pytitect.SqlAlchemy.Events

namespace Pytitect

namespace JsonValue

/-- The number a value stands for when it is compared: `True == 1 == 1.0`. -/
def number? : JsonValue → Option ℚ
  | .bool value => some (if value then 1 else 0)
  | .int value => some value
  | .float bits => if isFinite bits then some (Binary64.value bits) else none
  | _ => none

def sameNumber (first second : JsonValue) : Bool :=
  match first.number?, second.number? with
  | some a, some b => a = b
  | _, _ => false

mutual

/-- `==` of JSON values. Objects are equal when they have as many members and every key of the
one has an equal value in the other. -/
def equal : JsonValue → JsonValue → Bool
  | .null, .null => true
  | .str first, .str second => first = second
  | .list first, .list second => equalItems first second
  | .dict first, .dict second => first.length = second.length && equalMembers first second
  | .bool first, second => sameNumber (.bool first) second
  | .int first, second => sameNumber (.int first) second
  | .float first, second => sameNumber (.float first) second
  | _, _ => false

def equalItems : List JsonValue → List JsonValue → Bool
  | [], [] => true
  | item :: first, other :: second => equal item other && equalItems first second
  | _, _ => false

def equalMembers : List (Text × JsonValue) → List (Text × JsonValue) → Bool
  | [], _ => true
  | (key, item) :: first, second =>
    (match second.find? fun member => member.1 = key with
      | some other => equal item other.2
      | none => false) && equalMembers first second

end

end JsonValue

def JsonScalar.toJson : JsonScalar → JsonValue
  | .null => .null
  | .bool value => .bool value
  | .int value => .int value
  | .float bits => .float bits
  | .str value => .str value

/-- `==` of events. -/
def StoredEvent.equal (first second : StoredEvent) : Bool :=
  first.stream = second.stream ∧ first.streamVersion = second.streamVersion ∧ first.globalPosition = second.globalPosition ∧
    first.event.eventId = second.event.eventId ∧ first.event.eventType = second.event.eventType ∧
    first.event.payload.equal second.event.payload ∧ first.event.occurredAt = second.event.occurredAt ∧
    (JsonValue.dict (first.event.metadata.items.map fun item => (item.1, item.2.toJson))).equal
      (.dict (second.event.metadata.items.map fun item => (item.1, item.2.toJson)))

/-- `==` of tuples of events. -/
def StoredEvent.equalAll : List StoredEvent → List StoredEvent → Bool
  | [], [] => true
  | event :: first, other :: second => event.equal other && equalAll first second
  | _, _ => false

theorem RebuildRun.version_positive (run : RebuildRun) : 0 < run.projectionVersion := run.positive.1

namespace ProjectionStatements
open RowLocks.Session PlatformTables
variable (store : SQLAlchemyEventStore) (i : Nat)

/-- `load` of `SQLAlchemyProjectionStore`, whose methods run statement by statement in session `i`
beside the event store it is given. -/
def load (key : ProjectionKey) : PlatformTask (Option ProjectionState) :=
  query PlatformWrite.apply i fun tables => tables.projections.get? key

/-- `_locked` -/
def locked (key : ProjectionKey) (version : Nat) (positive : 0 < version) (state : JsonValue)
    (valid : validateJson state .default = .ok ()) : PlatformTask ProjectionState :=
  acquire PlatformWrite.apply i (.projection key)
    (fun tables =>
      if (tables.projections.get? key).isNone then some (.saveProjection ⟨key, version, 0, state, positive, valid⟩) else none)
    fun tables => (tables.projections.get? key).getD ⟨key, version, 0, state, positive, valid⟩

/-- The checkpoint that the events move a row on to. -/
def covered (expectedCheckpoint : Nat) (row : ProjectionState) (events : List StoredEvent) : PlatformTask Nat :=
  if events = [] then pure row.checkpoint
  else do
    let page ← EventStatements.readAll store i expectedCheckpoint events.length
    if StoredEvent.equalAll events page.events then
      return (events.getLast?.map (·.globalPosition)).getD row.checkpoint
    else Coroutine.raise (.valueError "projection must cover the next authoritative event page")

/-- The nested transaction of `apply`. -/
def applyNested (key : ProjectionKey) (expectedCheckpoint version : Nat) (positive : 0 < version) (state : JsonValue)
    (valid : validateJson state .default = .ok ()) (events : List StoredEvent) : PlatformTask ProjectionApplyResult :=
  nested i fun transaction => do
    let row ← locked i key version positive state valid
    if row.checkpoint ≠ expectedCheckpoint then
      rollback i transaction
      return .staleCheckpoint expectedCheckpoint row.checkpoint
    else if row.version ≠ version then
      rollback i transaction
      return .versionMismatch version row.version
    else
      let checkpoint ← covered store i expectedCheckpoint row events
      let applied : ProjectionState := ⟨key, row.version, checkpoint, state, row.positive, valid⟩
      change i (.saveProjection applied)
      return .applied applied events.length

theorem applied_positive {expectedCheckpoint projectionVersion : Int} (positive : 0 ≤ expectedCheckpoint ∧ 0 < projectionVersion) :
    0 < projectionVersion.toNat := by omega

def apply (key : ProjectionKey) (expectedCheckpoint projectionVersion : Int) (state : JsonValue) (events : List StoredEvent) :
    PlatformTask ProjectionApplyResult :=
  match valid : validateJson state .default with
  | .error error => Coroutine.raise error
  | .ok () =>
    if positive : 0 ≤ expectedCheckpoint ∧ 0 < projectionVersion then
      applyNested store i key expectedCheckpoint.toNat projectionVersion.toNat (applied_positive positive) state valid events
    else Coroutine.raise (.valueError "projection checkpoint or version is invalid")

def beginRebuild (run : RebuildRun) : PlatformTask Bool := do
  let invalid : PlatformTask Bool :=
    Coroutine.raise (.valueError "rebuild must start at zero with a durable watermark and bounded page")
  if run.nextPosition ≠ 0 ∨ run.status ≠ .running then invalid
  else
    let watermark ← EventStatements.watermark store i
    if watermark < run.throughPosition ∨ store.maxPageSize < run.batchSize then invalid
    else
      writeWhere PlatformWrite.apply i (.rebuild run.runId) fun tables =>
        if (tables.rebuilds.get? run.runId).isNone then some (.saveRebuild run) else none

def loadRebuild (runId : String) : PlatformTask (Option RebuildRun) :=
  query PlatformWrite.apply i fun tables => tables.rebuilds.get? runId

/-- The part of `advance_rebuild` that puts the state of a complete rebuild in the place of the
active one. It answers false where that has gone further. -/
def cutover (transaction : Nat) (run : RebuildRun) (state : JsonValue) (valid : validateJson state .default = .ok ())
    (nextPosition : Nat) : PlatformTask Bool := do
  let active ← locked i run.key run.projectionVersion run.version_positive state valid
  if nextPosition < active.checkpoint ∨ run.projectionVersion < active.version then
    rollback i transaction
    return false
  else
    change i (.saveProjection ⟨run.key, run.projectionVersion, nextPosition, state, run.version_positive, valid⟩)
    return true

/-- The part of `advance_rebuild` after the compare-and-set of a running rebuild. -/
def advanceRunning (transaction : Nat) (run : RebuildRun) (state : JsonValue) (valid : validateJson state .default = .ok ())
    (nextPosition : Nat) (complete : Bool) : PlatformTask (Option RebuildRun) := do
  let page ← EventStatements.readAll store i run.nextPosition run.batchSize
  let covered := page.events.filter (·.globalPosition ≤ run.throughPosition)
  let required := (covered.getLast?.map (·.globalPosition)).getD run.nextPosition
  if progress : nextPosition = required ∧ nextPosition ≤ run.throughPosition ∧
      complete = decide (nextPosition = run.throughPosition) ∧ (covered ≠ [] ∨ complete) then
    let advanced := run.advance state valid nextPosition progress.2.1 complete
    if complete then
      let replaced ← cutover i transaction run state valid nextPosition
      if replaced then
        change i (.saveRebuild advanced)
        return some advanced
      else return none
    else
      change i (.saveRebuild advanced)
      return some advanced
  else Coroutine.raise (.valueError "rebuild progress must cover a bounded page up to its fixed watermark")

def advanceRebuild (runId : String) (expectedPosition : Nat) (state : JsonValue) (nextPosition : Nat) (complete : Bool) :
    PlatformTask (Option RebuildRun) :=
  match valid : validateJson state .default with
  | .error error => Coroutine.raise error
  | .ok () =>
    nested i fun transaction => do
      let row ← selectForUpdate PlatformWrite.apply i (.rebuild runId) fun tables => tables.rebuilds.get? runId
      match row with
      | none => return none
      | some run =>
        if run.status ≠ .running ∨ run.nextPosition ≠ expectedPosition then return none
        else advanceRunning store i transaction run state valid nextPosition complete

/-- `project_once` of `AsyncProjectionRuntime`. -/
def projectOnce (key : ProjectionKey) (definition : ProjectionDefinition) (limit : Int) : PlatformTask ProjectionApplyResult := do
  let current ← load i key
  let checkpoint : Nat := (current.map (·.checkpoint)).getD 0
  match current.filter (·.version ≠ definition.version) with
  | some other => return .versionMismatch definition.version other.version
  | none =>
    let page ← EventStatements.readAll store i checkpoint limit
    match definition.reduceAll ((current.map (·.state)).getD definition.initialState) page.events with
    | .error error => Coroutine.raise error
    | .ok state => apply store i key checkpoint definition.version state page.events

/-- The second half of `resume_rebuild`, once the run has been loaded. -/
def resumeRunning (run : RebuildRun) (runId : String) (definition : ProjectionDefinition) : PlatformTask RebuildRun := do
  let page ← EventStatements.readAll store i run.nextPosition run.batchSize
  let selected := page.events.filter (·.globalPosition ≤ run.throughPosition)
  match definition.reduceAll run.state selected with
  | .error error => Coroutine.raise error
  | .ok state =>
    let nextPosition := (selected.getLast?.map (·.globalPosition)).getD run.nextPosition
    let complete := decide (nextPosition = run.throughPosition)
    if selected.isEmpty ∧ ¬complete then Coroutine.raise (.runtimeError "rebuild watermark has missing durable coverage")
    else
      let advanced ← advanceRebuild store i runId run.nextPosition state nextPosition complete
      match advanced with
      | none => Coroutine.raise (.runtimeError "rebuild progress compare-and-set failed")
      | some advanced => return advanced

def resumeRebuild (runId : String) (definition : ProjectionDefinition) : PlatformTask RebuildRun := do
  let run ← loadRebuild i runId
  match run with
  | none => Coroutine.raise (.lookupError ("unknown rebuild run: " ++ runId))
  | some run =>
    if run.projectionVersion ≠ definition.version then Coroutine.raise (.valueError "rebuild definition version changed")
    else if run.status = .completed then return run
    else resumeRunning store i run runId definition

end ProjectionStatements

end Pytitect
