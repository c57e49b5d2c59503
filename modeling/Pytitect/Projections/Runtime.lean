import Pytitect.Lib.Coroutine
import Pytitect.Projections.Store

namespace Pytitect

/-- `ProjectionDefinition`. The reducer may raise. -/
structure ProjectionDefinition where
  version : Nat
  initialState : JsonValue
  reduce : JsonValue → StoredEvent → Except PyError JsonValue
  positive : 0 < version
  valid : validateJson initialState .default = .ok ()

/-- The loop over the events of a page: reduce, then check the new state. -/
def ProjectionDefinition.reduceAll (definition : ProjectionDefinition) (state : JsonValue) :
    List StoredEvent → Except PyError JsonValue
  | [] => .ok state
  | event :: rest => do
    let state ← definition.reduce state event
    validateJson state .default
    definition.reduceAll state rest

/-- What the workers share. -/
structure ProjectionWorld where
  events : EventStore
  projections : ProjectionStore

namespace ProjectionRuntime

/-- A call of a worker; between two accesses to the stores others may run. -/
abbrev Task (α : Type) : Type := Coroutine ProjectionWorld Unit Unit PyError α

/-- One access to the stores. -/
def atomically {α : Type} (f : ProjectionWorld → Except PyError α × ProjectionWorld) : Task α :=
  Coroutine.act () fun _ => f

def onProjections {α : Type} (f : ProjectionStore → Except PyError α × ProjectionStore) : Task α :=
  atomically fun world => ((f world.projections).1, { world with projections := (f world.projections).2 })

def projectOnce (key : ProjectionKey) (definition : ProjectionDefinition) (limit : Int) : Task ProjectionApplyResult := do
  let current ← atomically fun world => (.ok (world.projections.load key), world)
  let checkpoint : Nat := (current.map (·.checkpoint)).getD 0
  match current.filter (·.version ≠ definition.version) with
  | some other => return .versionMismatch definition.version other.version
  | none =>
    let page ← atomically fun world => (world.events.readAll checkpoint limit, world)
    match definition.reduceAll ((current.map (·.state)).getD definition.initialState) page.events with
    | .error error => Coroutine.raise error
    | .ok state => onProjections (·.apply key checkpoint definition.version state page.events)

/-- The second half of `resume_rebuild`, once the run has been loaded. -/
def resumeRunning (run : RebuildRun) (runId : String) (definition : ProjectionDefinition) : Task RebuildRun := do
  let page ← atomically fun world => (world.events.readAll run.nextPosition run.batchSize, world)
  let selected := page.events.filter (·.globalPosition ≤ run.throughPosition)
  match definition.reduceAll run.state selected with
  | .error error => Coroutine.raise error
  | .ok state =>
    let nextPosition := (selected.getLast?.map (·.globalPosition)).getD run.nextPosition
    let complete := decide (nextPosition = run.throughPosition)
    if selected.isEmpty ∧ ¬complete then Coroutine.raise (.runtimeError "rebuild watermark has missing durable coverage")
    else
      let advanced ← onProjections (·.advanceRebuild runId run.nextPosition state nextPosition complete)
      match advanced with
      | none => Coroutine.raise (.runtimeError "rebuild progress compare-and-set failed")
      | some advanced => return advanced

def resumeRebuild (runId : String) (definition : ProjectionDefinition) : Task RebuildRun := do
  let run ← atomically fun world => (.ok (world.projections.loadRebuild runId), world)
  match run with
  | none => Coroutine.raise (.lookupError ("unknown rebuild run: " ++ runId))
  | some run =>
    if run.projectionVersion ≠ definition.version then Coroutine.raise (.valueError "rebuild definition version changed")
    else if run.status = .completed then return run
    else resumeRunning run runId definition

/-- Everything a worker may call. -/
inductive Call
  | append (stream : StreamId) (expectedVersion : Int) (events : List NewEvent)
  | projectOnce (key : ProjectionKey) (definition : ProjectionDefinition) (limit : Int)
  | beginRebuild (run : RebuildRun)
  | resumeRebuild (runId : String) (definition : ProjectionDefinition)

inductive Answer
  | appended (result : AppendResult)
  | projected (result : ProjectionApplyResult)
  | began (fresh : Bool)
  | resumed (run : RebuildRun)

def Call.task : Call → Task Answer
  | .append stream expectedVersion events =>
    .appended <$> atomically fun world =>
      ((world.events.append stream expectedVersion events).1,
        { world with events := (world.events.append stream expectedVersion events).2 })
  | .projectOnce key definition limit => .projected <$> ProjectionRuntime.projectOnce key definition limit
  | .beginRebuild run => .began <$> onProjections (·.beginRebuild run)
  | .resumeRebuild runId definition => .resumed <$> ProjectionRuntime.resumeRebuild runId definition

/-- Workers on empty stores, one call each. -/
def start (capacity maxPageSize projectionCapacity : Nat) (calls : Nat → Call) :
    EventLoop ProjectionWorld Unit Unit PyError Answer :=
  ⟨⟨.empty capacity maxPageSize, .empty projectionCapacity⟩, fun i => (calls i).task⟩

/-- Any worker takes its next step. -/
abbrev Step : EventLoop ProjectionWorld Unit Unit PyError Answer → EventLoop ProjectionWorld Unit Unit PyError Answer → Prop :=
  EventLoop.Step (fun _ _ => False) fun _ _ => True

end ProjectionRuntime

end Pytitect
