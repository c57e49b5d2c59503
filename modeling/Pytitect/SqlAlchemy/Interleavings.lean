import Pytitect.EventSourcing.Regression
import Pytitect.Projections.Workers
import Pytitect.SqlAlchemy.Folds

namespace Pytitect

/-- A call of the event store in a transaction. -/
inductive EventCall
  | append (store : SQLAlchemyEventStore) (stream : StreamId) (expectedVersion : Int) (events : List NewEvent)
  | readStream (store : SQLAlchemyEventStore) (stream : StreamId) (afterVersion limit : Int)
  | readAll (store : SQLAlchemyEventStore) (afterPosition limit : Int)
  | loadSnapshot (store : SQLAlchemyEventStore) (stream : StreamId)
  | saveSnapshot (store : SQLAlchemyEventStore) (snapshot : Snapshot) (expectedVersion : Option Int)
  | watermark (store : SQLAlchemyEventStore)

/-- What a call of the event store has answered, with the arguments that the answer is about. -/
inductive EventAnswer
  | appended (logId : String) (stream : StreamId) (events : List NewEvent) (result : AppendResult)
  | streamPage (logId : String) (stream : StreamId) (afterVersion : Int) (page : EventPage)
  | page (logId : String) (afterPosition : Int) (page : EventPage)
  | found (logId : String) (stream : StreamId) (snapshot : Option Snapshot)
  | saved (logId : String) (snapshot : Snapshot) (saved : Bool)
  | watermark (logId : String) (position : Nat)

/-- A call of the event store, or of a projection store that follows a log. -/
inductive PlatformCall
  | event (call : EventCall)
  | projectOnce (store : SQLAlchemyEventStore) (key : ProjectionKey) (definition : ProjectionDefinition) (limit : Int)
  | beginRebuild (store : SQLAlchemyEventStore) (run : RebuildRun)
  | resumeRebuild (store : SQLAlchemyEventStore) (runId : String) (definition : ProjectionDefinition)

inductive PlatformAnswer
  | event (answer : EventAnswer)
  | projected (result : ProjectionApplyResult)
  | began (run : RebuildRun) (fresh : Bool)
  | resumed (run : RebuildRun)

def EventCall.task (i : Nat) : EventCall → PlatformTask EventAnswer
  | .append store stream expectedVersion events =>
    .appended store.logId stream events <$> EventStatements.append store i stream expectedVersion events
  | .readStream store stream afterVersion limit =>
    .streamPage store.logId stream afterVersion <$> EventStatements.readStream store i stream afterVersion limit
  | .readAll store afterPosition limit => .page store.logId afterPosition <$> EventStatements.readAll store i afterPosition limit
  | .loadSnapshot store stream => .found store.logId stream <$> EventStatements.loadSnapshot store i stream
  | .saveSnapshot store snapshot expectedVersion =>
    .saved store.logId snapshot <$> EventStatements.saveSnapshot store i snapshot expectedVersion
  | .watermark store => .watermark store.logId <$> EventStatements.watermark store i

def PlatformCall.task (i : Nat) : PlatformCall → PlatformTask PlatformAnswer
  | .event call => .event <$> call.task i
  | .projectOnce store key definition limit => .projected <$> ProjectionStatements.projectOnce store i key definition limit
  | .beginRebuild store run => .began run <$> ProjectionStatements.beginRebuild store i run
  | .resumeRebuild store runId definition => .resumed <$> ProjectionStatements.resumeRebuild store i runId definition

namespace PlatformTables
open RowLocks

def empty : PlatformTables := ⟨⟨.empty, [], .empty⟩, .empty, .empty⟩

abbrev Sessions (α : Type) : Type := RowLocks.Sessions PlatformTables PlatformWrite PlatformRow PyError α

/-- The sessions start on empty tables. -/
abbrev start {α β : Type} (task : Nat → β → PlatformTask α) (script : Nat → List (List β)) : Sessions α :=
  Sessions.start PlatformWrite.apply empty task script

variable {definitions : Nat → ProjectionDefinition} {projected : String} {i : Nat}

/-- The answer is true of the tables. -/
def Reported (tables : PlatformTables) : EventAnswer → Prop
  | .appended logId stream events result => Recorded logId stream events tables result
  | .streamPage logId stream afterVersion page => IsSection ((tables.log logId).stream stream) afterVersion page
  | .page logId afterPosition page => IsSection (tables.log logId).events afterPosition page
  | .found logId stream snapshot => Found logId stream snapshot tables
  | .saved logId snapshot saved => saved = true → Saved logId snapshot tables
  | .watermark logId position => position ≤ (tables.log logId).events.length

theorem lasting_reported (answer : EventAnswer) : Lasting (discipline definitions projected) fun tables => Reported tables answer := by
  cases answer with
  | appended logId stream events result => exact lasting_recorded logId stream events result
  | streamPage logId stream afterVersion page => exact lasting_streamSection logId stream afterVersion page
  | page logId afterPosition page => exact lasting_section logId afterPosition page
  | found logId stream snapshot => exact lasting_found logId stream snapshot
  | saved logId snapshot saved => exact Lasting.forall fun _ => lasting_saved logId snapshot
  | watermark logId position => exact lasting_watermark logId position

/-- The answer is true of the tables, if all projections follow one log. -/
def Correct (definitions : Nat → ProjectionDefinition) (projected : String) (tables : PlatformTables) : PlatformAnswer → Prop
  | .event answer => Reported tables answer
  | .projected result => Answered definitions projected tables result
  | .began run fresh => fresh = true → Rebuilt definitions projected run tables
  | .resumed run => Rebuilt definitions projected run tables

theorem lasting_correct (store : SQLAlchemyEventStore) (answer : PlatformAnswer) :
    Lasting (discipline definitions store.logId) fun tables => Correct definitions store.logId tables answer := by
  cases answer with
  | event answer => exact lasting_reported answer
  | projected result => exact lasting_answered result
  | began run fresh => exact Lasting.forall fun _ => lasting_rebuilt run
  | resumed run => exact lasting_rebuilt run

/-- All projections follow one log, there is one definition for each version, and rebuilds begin
with the initial state of theirs. -/
def Proper (definitions : Nat → ProjectionDefinition) (projected : String) : PlatformCall → Prop
  | .event _ => True
  | .projectOnce store _ definition _ => store.logId = projected ∧ definition = definitions definition.version
  | .beginRebuild store run => store.logId = projected ∧ run.state = (definitions run.projectionVersion).initialState
  | .resumeRebuild store _ definition => store.logId = projected ∧ definition = definitions definition.version

theorem event_establishes (call : EventCall) :
    Establishes (discipline definitions projected) i (fun answer tables => Reported tables answer) (call.task i) := by
  have lasting : ∀ answer, Lasting (discipline definitions projected) fun tables => Reported tables answer := lasting_reported
  cases call with
  | append store stream expectedVersion events =>
    exact (append_establishes stream expectedVersion events).map (fun _ => lasting _) fun _ _ holds => holds
  | readStream store stream afterVersion limit =>
    exact (readStream_establishes stream afterVersion limit).map (fun _ => lasting _) fun _ _ holds => holds
  | readAll store afterPosition limit =>
    exact (readAll_establishes afterPosition limit).map (fun _ => lasting _) fun _ _ holds => holds
  | loadSnapshot store stream => exact (loadSnapshot_establishes stream).map (fun _ => lasting _) fun _ _ holds => holds
  | saveSnapshot store snapshot expectedVersion =>
    exact (saveSnapshot_establishes snapshot expectedVersion).map (fun _ => lasting _) fun _ _ holds => holds
  | watermark store => exact watermark_establishes.map (fun _ => lasting _) fun _ _ holds => holds

theorem call_establishes {call : PlatformCall} {store : SQLAlchemyEventStore} (proper : Proper definitions store.logId call) :
    Establishes (discipline definitions store.logId) i
      (fun answer tables => Correct definitions store.logId tables answer) (call.task i) := by
  have own : ∀ definition : ProjectionDefinition, definition = definitions definition.version →
      (definitions definition.version).version = definition.version := fun definition same => by rw [← same]
  cases call with
  | event call => exact (event_establishes call).map lasting_reported fun _ _ holds => holds
  | projectOnce follower key definition limit =>
    obtain ⟨sameLog, known⟩ := proper
    rw [← sameLog]
    have establishes : Establishes (discipline definitions follower.logId) i _
      (ProjectionStatements.projectOnce follower i key _ limit) := projectOnce_establishes (own definition known) limit
    rw [← known] at establishes
    exact establishes.map (fun _ => lasting_correct follower _) fun _ _ holds => holds
  | beginRebuild follower run =>
    obtain ⟨sameLog, initial⟩ := proper
    rw [← sameLog]
    exact (beginRebuild_establishes initial).map (fun _ => lasting_correct follower _) fun _ _ holds => holds
  | resumeRebuild follower runId definition =>
    obtain ⟨sameLog, known⟩ := proper
    rw [← sameLog]
    have establishes : Establishes (discipline definitions follower.logId) i _
      (ProjectionStatements.resumeRebuild follower i runId _) := resumeRebuild_establishes (own definition known)
    rw [← known] at establishes
    exact establishes.map (fun _ => lasting_correct follower _) fun _ _ holds => holds

theorem good_empty : Good definitions projected none empty where
  logs := fun name => by
    refine ⟨List.Numbered.nil, fun _ => List.Numbered.nil, List.nodup_nil, rfl, fun id held found => ?_⟩
    cases found
  states := fun _ _ _ found => by cases found
  rebuilds := fun _ _ found => by cases found

/-- Whatever sessions do to event stores over one database, statement by statement and with
failures in between, every log stays consistent and only grows, and what the store has answered
in confirmed transactions stays true: a page leaves out nothing that is committed later, and
appended events stand where they were reported. -/
theorem event_stores_safe {script : Nat → List (List EventCall)} {s t : Sessions EventAnswer}
    (reached : Relation.ReflTransGen Sessions.Step (start EventCall.task script) s) (later : Relation.ReflTransGen Sessions.Step s t) :
    (∀ logId, (s.shared.committed.log logId).Consistent ∧
      LogPart.Grows (s.shared.committed.log logId) (t.shared.committed.log logId)) ∧
    ∀ i answers, (s.task i).result? = some (.ok answers) → ∀ answer ∈ answers, Reported t.shared.committed answer := by
  -- the tables of projections stay empty, so that no definitions are needed for them
  have lasting : ∀ answer, Lasting (discipline ProjectionRuntime.counting "") fun tables => Reported tables answer := lasting_reported
  obtain ⟨good, grown, answered⟩ := Sessions.run_safe good_empty lasting (fun _ _ _ call _ => event_establishes call) reached later
  exact ⟨fun logId => ⟨good.logs logId, grown (.log logId)⟩, answered⟩

/-- Two sessions append to one stream, and one of them reads before and after. -/
def sampleAppends : Nat → List (List EventCall)
  | 0 => [[.append SnapshotStores.sampleLog EventStore.sampleStream 0
      [EventStore.sampleEvent "e1" Sample.e1_named, EventStore.sampleEvent "e2" Sample.e2_named]]]
  | 1 => [[.readAll SnapshotStores.sampleLog 0 5],
    [.append SnapshotStores.sampleLog EventStore.sampleStream 0 [EventStore.sampleEvent "e2" Sample.e2_named]],
    [.readAll SnapshotStores.sampleLog 0 5]]
  | _ => []

/-- The first append holds the lock of the log while the other session reads the empty log and waits
for the lock. Its commit takes place although its session is told otherwise, so that the second append
comes too late. -/
theorem appends_contend :
    ∃ s : Sessions EventAnswer, Relation.ReflTransGen Sessions.Step (start EventCall.task sampleAppends) s ∧
      (s.task 1).result?.map (fun result => result.toOption.map (·.length)) = some (some 3) ∧
      (s.shared.committed.log "log").events.length = 2 ∧ (s.shared.committed.log "log").Consistent ∧
      ∀ answers, (s.task 1).result? = some (.ok answers) → ∀ answer ∈ answers, Reported s.shared.committed answer := by
  let schedule : List (Nat × RowLocks.Outcome PyError) := [(0, .done), (1, .done), (0, .done), (0, .done), (0, .done), (1, .done),
    (0, .lost (.runtimeError "")), (0, .done), (1, .done), (1, .done), (1, .done), (1, .done), (1, .done)]
  obtain ⟨s, played⟩ : ∃ s, s = (start EventCall.task sampleAppends).play schedule := ⟨_, rfl⟩
  have run : Relation.ReflTransGen Sessions.Step (start EventCall.task sampleAppends) s :=
    played ▸ EventLoop.run_of_plays (fun _ _ => true) (fun _ _ _ => trivial) (by decide +kernel)
  obtain ⟨logs, answered⟩ := event_stores_safe run .refl
  refine ⟨s, run, ?_, ?_, (logs "log").1, answered 1⟩
  · rw [played]
    decide +kernel
  · rw [played]
    decide +kernel

/-- In any such run every projection is the fold of the committed log up to its checkpoint and never
goes back, and a completed rebuild has become the active state of its projection. -/
theorem projections_safe {store : SQLAlchemyEventStore} {script : Nat → List (List PlatformCall)} {s t : Sessions PlatformAnswer}
    (proper : ∀ i, ∀ calls ∈ script i, ∀ call ∈ calls, Proper definitions store.logId call)
    (reached : Relation.ReflTransGen Sessions.Step (start PlatformCall.task script) s) (later : Relation.ReflTransGen Sessions.Step s t) :
    (∀ key state, s.shared.committed.projections.get? key = some state →
      ProjectionRuntime.Folded definitions (s.shared.committed.log store.logId).events state.version state.checkpoint state.state ∧
      ∃ after, t.shared.committed.projections.get? key = some after ∧ state.version ≤ after.version ∧
        state.checkpoint ≤ after.checkpoint) ∧
    (∀ runId run, s.shared.committed.rebuilds.get? runId = some run → Rebuilt definitions store.logId run t.shared.committed) ∧
    ∀ i answers, (s.task i).result? = some (.ok answers) → ∀ answer ∈ answers,
      Correct definitions store.logId t.shared.committed answer := by
  obtain ⟨good, grown, answered⟩ := Sessions.run_safe good_empty (lasting_correct store)
    (fun i calls inScript call inCalls => call_establishes (proper i calls inScript call inCalls)) reached later
  refine ⟨fun key state found => ⟨good.states key state (by simp) found, ?_⟩, fun runId run found => ?_, answered⟩
  · exact grown (.projection key) state found
  · obtain ⟨named, rebuilding⟩ := good.rebuilds runId run found
    refine lasting_rebuilt run _ _ grown ⟨rebuilding, run, ?_, rfl, rfl, Nat.le_refl _⟩
    rw [named]
    exact found

theorem sampleRebuild_named : "rebuild" ≠ "" := by decide

theorem sampleRebuild_positive : 0 < 2 ∧ 0 < 1 := by decide

theorem sampleRebuild_bounded : 0 ≤ 1 := by decide

/-- One event, a projection of version 1 and a rebuild to version 2. -/
def sampleProjections : Nat → List (List PlatformCall)
  | 0 => [[.event (.append SnapshotStores.sampleLog EventStore.sampleStream 0 [EventStore.sampleEvent "e1" Sample.e1_named])]]
  | 1 => [[.projectOnce SnapshotStores.sampleLog ProjectionRuntime.sampleKey (ProjectionRuntime.counting 1) 1]]
  | 2 => [[.beginRebuild SnapshotStores.sampleLog ⟨"rebuild", ProjectionRuntime.sampleKey, 2, 1, 1, 0, .int 0, .running,
      sampleRebuild_named, sampleRebuild_positive, sampleRebuild_bounded, zero_valid⟩],
    [.resumeRebuild SnapshotStores.sampleLog "rebuild" (ProjectionRuntime.counting 2)]]
  | _ => []

/-- The projection reads its page, the rebuild completes in between, and the projection is then
refused as stale. -/
theorem projections_contend :
    ∃ s : Sessions PlatformAnswer, Relation.ReflTransGen Sessions.Step (start PlatformCall.task sampleProjections) s ∧
      (s.task 1).result?.isSome ∧
      ∃ state, s.shared.committed.projections.get? ProjectionRuntime.sampleKey = some state ∧ state.version = 2 ∧
        state.checkpoint = 1 ∧
        ProjectionRuntime.Folded ProjectionRuntime.counting (s.shared.committed.log "log").events 2 1 state.state := by
  let schedule : List (Nat × RowLocks.Outcome PyError) := List.replicate 5 (0, .done) ++ List.replicate 2 (1, .done) ++
    List.replicate 12 (2, .done) ++ List.replicate 4 (1, .done)
  have proper : ∀ i, ∀ calls ∈ sampleProjections i, ∀ call ∈ calls,
      Proper ProjectionRuntime.counting SnapshotStores.sampleLog.logId call := by
    intro i calls inScript call inCalls
    match i with
    | 0 =>
      cases List.mem_singleton.mp inScript
      cases List.mem_singleton.mp inCalls
      trivial
    | 1 =>
      cases List.mem_singleton.mp inScript
      cases List.mem_singleton.mp inCalls
      exact ⟨rfl, rfl⟩
    | 2 =>
      rcases List.mem_cons.mp inScript with rfl | other
      · cases List.mem_singleton.mp inCalls
        exact ⟨rfl, rfl⟩
      · cases List.mem_singleton.mp other
        cases List.mem_singleton.mp inCalls
        exact ⟨rfl, rfl⟩
    | _ + 3 => cases inScript
  obtain ⟨s, played⟩ : ∃ s, s = (start PlatformCall.task sampleProjections).play schedule := ⟨_, rfl⟩
  have run : Relation.ReflTransGen Sessions.Step (start PlatformCall.task sampleProjections) s :=
    played ▸ EventLoop.run_of_plays (fun _ _ => true) (fun _ _ _ => trivial) (by decide +kernel)
  obtain ⟨folds, -, -⟩ := projections_safe proper run .refl
  have stored : (s.shared.committed.projections.get? ProjectionRuntime.sampleKey).map (fun state => (state.version, state.checkpoint)) =
      some (2, 1) := by
    rw [played]
    decide +kernel
  have finished : (s.task 1).result?.isSome := by
    rw [played]
    decide +kernel
  obtain ⟨state, found, same⟩ := Option.map_eq_some_iff.mp stored
  have version : state.version = 2 := congrArg Prod.fst same
  have checkpoint : state.checkpoint = 1 := congrArg Prod.snd same
  have fold := (folds _ state found).1
  rw [version, checkpoint] at fold
  exact ⟨s, run, finished, state, found, version, checkpoint, fold⟩

end PlatformTables

end Pytitect
