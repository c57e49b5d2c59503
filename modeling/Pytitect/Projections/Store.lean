import Pytitect.EventSourcing.Store

namespace Pytitect

@[ext]
structure ProjectionKey where
  name : String
  partition : String
  nonempty : name ≠ "" ∧ partition ≠ ""

instance : DecidableEq ProjectionKey := fun _ _ => decidable_of_iff _ ProjectionKey.ext_iff.symm

structure ProjectionState where
  key : ProjectionKey
  version : Nat
  checkpoint : Nat
  state : JsonValue
  positive : 0 < version
  valid : validateJson state .default = .ok ()

inductive ProjectionApplyResult
  | applied (state : ProjectionState) (events : Nat)
  | staleCheckpoint (expected actual : Nat)
  | versionMismatch (expected actual : Nat)

inductive RebuildStatus
  | running
  | completed
  deriving DecidableEq

structure RebuildRun where
  runId : String
  key : ProjectionKey
  projectionVersion : Nat
  throughPosition : Nat
  batchSize : Nat
  nextPosition : Nat
  state : JsonValue
  status : RebuildStatus
  named : runId ≠ ""
  positive : 0 < projectionVersion ∧ 0 < batchSize
  bounded : nextPosition ≤ throughPosition
  valid : validateJson state .default = .ok ()

/-- The run after one step of progress. -/
def RebuildRun.advance (run : RebuildRun) (state : JsonValue) (valid : validateJson state .default = .ok ())
    (nextPosition : Nat) (bounded : nextPosition ≤ run.throughPosition) (complete : Bool) : RebuildRun :=
  { run with state, nextPosition, status := if complete then .completed else .running, valid, bounded }

/-- `InMemoryProjectionStore`. -/
structure ProjectionStore where
  capacity : Nat
  states : Dict ProjectionKey ProjectionState
  rebuilds : Dict String RebuildRun

namespace ProjectionStore

def empty (capacity : Nat) : ProjectionStore := ⟨capacity, .empty, .empty⟩

def load (s : ProjectionStore) (key : ProjectionKey) : Option ProjectionState := s.states.get? key

/-- Some event does not come after the one before it. -/
def disordered (events : List StoredEvent) : Bool :=
  (events.zip events.tail).any fun pair => pair.2.globalPosition ≤ pair.1.globalPosition

/-- The part of `apply` under the lock. -/
def applyLocked (s : ProjectionStore) (key : ProjectionKey) (expectedCheckpoint projectionVersion : Nat)
    (positive : 0 < projectionVersion) (state : JsonValue) (valid : validateJson state .default = .ok ())
    (events : List StoredEvent) : Except PyError ProjectionApplyResult × ProjectionStore :=
  let current := s.states.get? key
  let actual := (current.map (·.checkpoint)).getD 0
  if actual ≠ expectedCheckpoint then (.ok (.staleCheckpoint expectedCheckpoint actual), s)
  else
    match current.filter (·.version ≠ projectionVersion) with
    | some other => (.ok (.versionMismatch projectionVersion other.version), s)
    | none =>
      if current.isNone ∧ s.capacity ≤ s.states.size then (.error (.overflowError "projection capacity exceeded"), s)
      else
        let checkpoint := (events.getLast?.map (·.globalPosition)).getD expectedCheckpoint
        let projected : ProjectionState := ⟨key, projectionVersion, checkpoint, state, positive, valid⟩
        (.ok (.applied projected events.length), { s with states := s.states.set key projected })

def apply (s : ProjectionStore) (key : ProjectionKey) (expectedCheckpoint projectionVersion : Nat) (state : JsonValue)
    (events : List StoredEvent) : Except PyError ProjectionApplyResult × ProjectionStore :=
  match valid : validateJson state .default with
  | .error error => (.error error, s)
  | .ok () =>
    if positive : 0 < projectionVersion then
      if disordered events then (.error (.valueError "projection events must be strictly ordered"), s)
      else if events.head?.any (·.globalPosition ≤ expectedCheckpoint) then
        (.error (.valueError "projection checkpoint must not regress"), s)
      else s.applyLocked key expectedCheckpoint projectionVersion positive state valid events
    else (.error (.valueError "projection version must be positive"), s)

def beginRebuild (s : ProjectionStore) (run : RebuildRun) : Except PyError Bool × ProjectionStore :=
  if run.runId ∈ s.rebuilds.keys then (.ok false, s)
  else if s.capacity ≤ s.states.size + s.rebuilds.size then (.error (.overflowError "projection capacity exceeded"), s)
  else (.ok true, { s with rebuilds := s.rebuilds.set run.runId run })

def loadRebuild (s : ProjectionStore) (runId : String) : Option RebuildRun := s.rebuilds.get? runId

/-- The part of `advance_rebuild` after the compare-and-set of a running rebuild. -/
def advanceRunning (s : ProjectionStore) (runId : String) (current : RebuildRun) (state : JsonValue)
    (valid : validateJson state .default = .ok ()) (nextPosition : Nat) (complete : Bool) :
    Except PyError (Option RebuildRun) × ProjectionStore :=
  if progress : current.nextPosition ≤ nextPosition ∧ nextPosition ≤ current.throughPosition ∧
      complete = decide (nextPosition = current.throughPosition) then
    let active := s.states.get? current.key
    if complete ∧ active.any (fun active => nextPosition < active.checkpoint ∨ current.projectionVersion < active.version) then
      (.ok none, s)
    else
      let advanced := current.advance state valid nextPosition progress.2.1 complete
      let rebuilds := s.rebuilds.set runId advanced
      if complete then
        (.ok (some advanced),
          { s with
            rebuilds
            states := s.states.set current.key
              ⟨current.key, current.projectionVersion, nextPosition, state, current.positive.1, valid⟩ })
      else (.ok (some advanced), { s with rebuilds })
  else (.error (.valueError "rebuild progress must respect its fixed watermark"), s)

def advanceRebuild (s : ProjectionStore) (runId : String) (expectedPosition : Nat) (state : JsonValue)
    (nextPosition : Nat) (complete : Bool) : Except PyError (Option RebuildRun) × ProjectionStore :=
  match valid : validateJson state .default with
  | .error error => (.error error, s)
  | .ok () =>
    match s.rebuilds.get? runId with
    | none => (.ok none, s)
    | some current =>
      if current.status ≠ .running ∨ current.nextPosition ≠ expectedPosition then (.ok none, s)
      else s.advanceRunning runId current state valid nextPosition complete

/-- What `apply` can do: nothing, or move one key on from the expected
checkpoint of the same version. -/
inductive Applied (s : ProjectionStore) (key : ProjectionKey) (expectedCheckpoint projectionVersion : Nat)
    (state : JsonValue) (events : List StoredEvent) : ProjectionStore → Prop
  | refused : Applied s key expectedCheckpoint projectionVersion state events s
  | stored (projected : ProjectionState) : projected.version = projectionVersion →
      projected.checkpoint = (events.getLast?.map (·.globalPosition)).getD expectedCheckpoint → projected.state = state →
      (∀ current, s.states.get? key = some current →
        current.checkpoint = expectedCheckpoint ∧ current.version = projectionVersion) →
      Applied s key expectedCheckpoint projectionVersion state events { s with states := s.states.set key projected }

theorem apply_applied (s : ProjectionStore) (key : ProjectionKey) (expectedCheckpoint projectionVersion : Nat)
    (state : JsonValue) (events : List StoredEvent) :
    Applied s key expectedCheckpoint projectionVersion state events
      (s.apply key expectedCheckpoint projectionVersion state events).2 := by
  unfold apply
  split
  · exact .refused
  split
  · split
    · exact .refused
    split
    · exact .refused
    unfold applyLocked
    dsimp only
    split
    · exact .refused
    rename_i current
    split
    · exact .refused
    rename_i sameVersion
    split
    · exact .refused
    refine .stored _ rfl rfl rfl fun stored found => ?_
    simp only [found, Option.map_some, Option.getD_some, not_not] at current
    simp only [found, Option.filter_eq_none_iff, Option.some.injEq, forall_eq', decide_not, Bool.not_eq_true',
      decide_eq_false_iff_not, not_not] at sameVersion
    exact ⟨current, sameVersion⟩
  · exact .refused

/-- What `advance_rebuild` can do: nothing, move a running rebuild on, or
complete it and put its state in the place of one that is not ahead of it. -/
inductive Advanced (s : ProjectionStore) (runId : String) (expectedPosition nextPosition : Nat) (state : JsonValue) :
    ProjectionStore → Prop
  | refused : Advanced s runId expectedPosition nextPosition state s
  | progressed (current advanced : RebuildRun) : s.rebuilds.get? runId = some current →
      advanced.projectionVersion = current.projectionVersion → advanced.nextPosition = nextPosition →
      advanced.state = state → current.nextPosition = expectedPosition →
      Advanced s runId expectedPosition nextPosition state { s with rebuilds := s.rebuilds.set runId advanced }
  | completed (current advanced : RebuildRun) (projected : ProjectionState) : s.rebuilds.get? runId = some current →
      advanced.projectionVersion = current.projectionVersion → advanced.nextPosition = nextPosition →
      advanced.state = state → current.nextPosition = expectedPosition →
      projected.version = current.projectionVersion → projected.checkpoint = nextPosition → projected.state = state →
      (∀ active, s.states.get? current.key = some active →
        active.checkpoint ≤ nextPosition ∧ active.version ≤ current.projectionVersion) →
      Advanced s runId expectedPosition nextPosition state
        { s with rebuilds := s.rebuilds.set runId advanced, states := s.states.set current.key projected }

theorem advanceRebuild_advanced (s : ProjectionStore) (runId : String) (expectedPosition : Nat) (state : JsonValue)
    (nextPosition : Nat) (complete : Bool) :
    Advanced s runId expectedPosition nextPosition state
      (s.advanceRebuild runId expectedPosition state nextPosition complete).2 := by
  unfold advanceRebuild
  split
  · exact .refused
  split
  · exact .refused
  rename_i current found
  split
  · exact .refused
  rename_i expected
  push Not at expected
  unfold advanceRunning
  split
  · dsimp only
    split
    · exact .refused
    rename_i unblocked
    split
    · rename_i isComplete
      refine .completed current _ _ found rfl rfl rfl expected.2 rfl rfl rfl fun active present => ?_
      simp only [isComplete, present, Option.any_some, true_and, Bool.decide_or, Bool.or_eq_true, decide_eq_true_eq,
        not_or, Nat.not_lt] at unblocked
      exact unblocked
    · exact .progressed current _ found rfl rfl rfl expected.2
  · exact .refused

end ProjectionStore

end Pytitect
