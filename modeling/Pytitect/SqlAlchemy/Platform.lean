import Mathlib.Data.List.Infix
import Pytitect.EventSourcing.Snapshots
import Pytitect.Lib.Sessions
import Pytitect.Projections.Fold

namespace Pytitect

/-- The tables of the event platform behind one database. -/
structure PlatformTables where
  events : EventTables
  projections : Dict ProjectionKey ProjectionState
  rebuilds : Dict String RebuildRun

/-- The rows that transactions lock. -/
inductive PlatformRow
  | log (logId : String)
  | projection (key : ProjectionKey)
  | rebuild (runId : String)
  deriving DecidableEq

/-- What the statements write: the position row of a new log, the rows of an append with the
position row, and a snapshot, a projection or a rebuild over the row that it replaces. -/
inductive PlatformWrite
  | createLog (logId : String)
  | append (logId : String) (events : List StoredEvent) (position : Nat)
  | saveSnapshot (logId : String) (snapshot : Snapshot)
  | saveProjection (state : ProjectionState)
  | saveRebuild (run : RebuildRun)

namespace PlatformWrite

/-- The row that has to be locked for the write. -/
def row : PlatformWrite → PlatformRow
  | .createLog logId => .log logId
  | .append logId _ _ => .log logId
  | .saveSnapshot logId _ => .log logId
  | .saveProjection state => .projection state.key
  | .saveRebuild run => .rebuild run.runId

def apply : PlatformWrite → PlatformTables → PlatformTables
  | .createLog logId, tables => { tables with events := { tables.events with logs := tables.events.logs.set logId 0 } }
  | .append logId events position, tables =>
    { tables with
      events := { tables.events with
        logs := tables.events.logs.set logId position
        events := tables.events.events ++ events.map fun event => ⟨logId, event⟩ } }
  | .saveSnapshot logId snapshot, tables =>
    { tables with
      events := { tables.events with snapshots := tables.events.snapshots.set (logId, snapshot.stream) snapshot } }
  | .saveProjection state, tables => { tables with projections := tables.projections.set state.key state }
  | .saveRebuild run, tables => { tables with rebuilds := tables.rebuilds.set run.runId run }

end PlatformWrite

/-- What belongs to one log: its position row, its events and its snapshots. -/
@[ext] structure LogPart where
  position : Option Nat
  events : List StoredEvent
  snapshots : StreamId → Option Snapshot

def LogPart.stream (part : LogPart) (id : StreamId) : List StoredEvent := part.events.filter (·.stream = id)

namespace PlatformTables

def log (tables : PlatformTables) (logId : String) : LogPart where
  position := tables.events.logs.get? logId
  events := (tables.events.events.filter (·.logId = logId)).map (·.event)
  snapshots := fun stream => tables.events.snapshots.get? (logId, stream)

def Part : PlatformRow → Type
  | .log _ => LogPart
  | .projection _ => Option ProjectionState
  | .rebuild _ => Option RebuildRun

/-- What a row guards. -/
def part (tables : PlatformTables) : (row : PlatformRow) → Part row
  | .log logId => tables.log logId
  | .projection key => tables.projections.get? key
  | .rebuild runId => tables.rebuilds.get? runId

variable {tables : PlatformTables} {logId : String}

@[simp] theorem log_createLog :
    (PlatformWrite.apply (.createLog logId) tables).log logId = { tables.log logId with position := some 0 } := by
  simp [PlatformWrite.apply, log]

@[simp] theorem log_append (events : List StoredEvent) (position : Nat) :
    (PlatformWrite.apply (.append logId events position) tables).log logId =
      { tables.log logId with position := some position, events := (tables.log logId).events ++ events } := by
  have mine : (events.map fun event => (⟨logId, event⟩ : EventRow)).filter (·.logId = logId) =
      events.map fun event => ⟨logId, event⟩ := List.filter_eq_self.mpr fun row member => by
    obtain ⟨event, -, rfl⟩ := List.mem_map.mp member
    exact decide_eq_true rfl
  simp [PlatformWrite.apply, log, List.filter_append, mine, Function.comp_def]

@[simp] theorem log_saveSnapshot (snapshot : Snapshot) :
    (PlatformWrite.apply (.saveSnapshot logId snapshot) tables).log logId =
      { tables.log logId with
        snapshots := fun stream => if stream = snapshot.stream then some snapshot else (tables.log logId).snapshots stream } := by
  refine LogPart.ext rfl rfl (funext fun stream => ?_)
  simp [PlatformWrite.apply, log, Dict.get?_set]

@[simp] theorem log_saveProjection (state : ProjectionState) : (PlatformWrite.apply (.saveProjection state) tables).log = tables.log := rfl

@[simp] theorem log_saveRebuild (run : RebuildRun) : (PlatformWrite.apply (.saveRebuild run) tables).log = tables.log := rfl

theorem part_untouched {write : PlatformWrite} {row : PlatformRow} (other : write.row ≠ row) (tables : PlatformTables) :
    (write.apply tables).part row = tables.part row := by
  cases row with
  | log logId =>
    have away : ∀ {name : String}, PlatformRow.log name ≠ .log logId → logId ≠ name := by
      intro name distinct same
      exact distinct (by rw [same])
    change (write.apply tables).log logId = tables.log logId
    cases write with
    | createLog name =>
      have distinct := away other
      simp [PlatformWrite.apply, log, Dict.get?_set, distinct]
    | append name events position =>
      have distinct := away other
      have none : (events.map fun event => (⟨name, event⟩ : EventRow)).filter (·.logId = logId) = [] := by
        simp [List.filter_eq_nil_iff, Ne.symm distinct]
      simp only [PlatformWrite.apply, log, Dict.get?_set, distinct, if_false, List.filter_append, none, List.append_nil]
    | saveSnapshot name snapshot =>
      have distinct := away other
      simp [PlatformWrite.apply, log, Dict.get?_set, distinct]
    | saveProjection state => rfl
    | saveRebuild run => rfl
  | projection key =>
    cases write with
    | saveProjection state =>
      have distinct : key ≠ state.key := fun same => other (by rw [same]; rfl)
      exact Dict.get?_set_of_ne distinct
    | createLog _ => rfl
    | append _ _ _ => rfl
    | saveSnapshot _ _ => rfl
    | saveRebuild _ => rfl
  | rebuild runId =>
    cases write with
    | saveRebuild run =>
      have distinct : runId ≠ run.runId := fun same => other (by rw [same]; rfl)
      exact Dict.get?_set_of_ne distinct
    | createLog _ => rfl
    | append _ _ _ => rfl
    | saveSnapshot _ _ => rfl
    | saveProjection _ => rfl

theorem part_confined {write : PlatformWrite} {row : PlatformRow} {tables others : PlatformTables}
    (same : tables.part row = others.part row) : (write.apply tables).part row = (write.apply others).part row := by
  by_cases mine : write.row = row
  · subst mine
    cases write with
    | createLog logId =>
      change tables.log logId = others.log logId at same
      change PlatformTables.log _ logId = PlatformTables.log _ logId
      rw [log_createLog, log_createLog, same]
    | append logId events position =>
      change tables.log logId = others.log logId at same
      change PlatformTables.log _ logId = PlatformTables.log _ logId
      rw [log_append, log_append, same]
    | saveSnapshot logId snapshot =>
      change tables.log logId = others.log logId at same
      change PlatformTables.log _ logId = PlatformTables.log _ logId
      rw [log_saveSnapshot, log_saveSnapshot, same]
    | saveProjection state =>
      change (tables.projections.set state.key state).get? state.key = (others.projections.set state.key state).get? state.key
      rw [Dict.get?_set_self, Dict.get?_set_self]
    | saveRebuild run =>
      change (tables.rebuilds.set run.runId run).get? run.runId = (others.rebuilds.set run.runId run).get? run.runId
      rw [Dict.get?_set_self, Dict.get?_set_self]
  · rw [part_untouched mine, part_untouched mine, same]

def schema : Schema PlatformTables PlatformWrite PlatformRow where
  Part := Part
  part := fun row tables => tables.part row
  write := PlatformWrite.apply
  touches := fun write row => write.row = row
  untouched := fun other tables => part_untouched other tables
  confined := part_confined

end PlatformTables

namespace LogPart
variable {part : LogPart}

/-- The log and its streams are numbered without a gap, event ids are unique, the position row
counts the events, and no snapshot is ahead of its stream. -/
structure Consistent (part : LogPart) : Prop where
  positions : part.events.Numbered (·.globalPosition)
  versions : ∀ id, (part.stream id).Numbered (·.streamVersion)
  unique : (part.events.map (·.event.eventId)).Nodup
  counted : part.position.getD 0 = part.events.length
  covered : ∀ id held, part.snapshots id = some held → held.version ≤ (part.stream id).length

/-- Events are added at the end, and snapshots replaced by none that is older. -/
structure Grows (before after : LogPart) : Prop where
  events : before.events <+: after.events
  snapshots : ∀ id held, before.snapshots id = some held → ∃ later, after.snapshots id = some later ∧ held.version ≤ later.version

theorem Grows.refl : Grows part part := ⟨List.prefix_refl _, fun _ held found => ⟨held, found, Nat.le_refl _⟩⟩

theorem Grows.trans {first second third : LogPart} (one : Grows first second) (two : Grows second third) : Grows first third where
  events := one.events.trans two.events
  snapshots := by
    intro id held found
    obtain ⟨middle, foundMiddle, older⟩ := one.snapshots id held found
    obtain ⟨last, foundLast, olderMiddle⟩ := two.snapshots id middle foundMiddle
    exact ⟨last, foundLast, Nat.le_trans older olderMiddle⟩

theorem Consistent.create (consistent : part.Consistent) (absent : part.position = none) :
    Consistent { part with position := some 0 } where
  positions := consistent.positions
  versions := consistent.versions
  unique := consistent.unique
  counted := by
    have counted := consistent.counted
    rw [absent] at counted
    exact counted
  covered := consistent.covered

theorem Consistent.save (consistent : part.Consistent) {snapshot : Snapshot}
    (inside : snapshot.version ≤ (part.stream snapshot.stream).length) :
    Consistent { part with snapshots := fun id => if id = snapshot.stream then some snapshot else part.snapshots id } where
  positions := consistent.positions
  versions := consistent.versions
  unique := consistent.unique
  counted := consistent.counted
  covered := by
    intro id held found
    dsimp only at found
    split at found
    · rename_i same
      cases found
      rw [same]
      exact inside
    · exact consistent.covered id held found

theorem grows_save {snapshot : Snapshot}
    (newer : ∀ held, part.snapshots snapshot.stream = some held → held.version ≤ snapshot.version) :
    Grows part { part with snapshots := fun id => if id = snapshot.stream then some snapshot else part.snapshots id } where
  events := List.prefix_refl _
  snapshots := by
    intro id held found
    dsimp only
    split
    · rename_i same
      exact ⟨snapshot, rfl, newer held (same ▸ found)⟩
    · exact ⟨held, found, Nat.le_refl _⟩

/-- Events of one stream under the numbers that follow `version` and `position`. -/
def number (id : StreamId) (version position : Nat) (events : List NewEvent) : List StoredEvent :=
  events.mapIdx fun index event => ⟨id, version + (index + 1), position + (index + 1), event, by omega, by omega⟩

section Numbers
variable {id : StreamId} {version position : Nat} {events : List NewEvent}

@[simp] theorem length_number : (number id version position events).length = events.length := by simp [number]

theorem map_eventId_number : (number id version position events).map (·.event.eventId) = events.map (·.eventId) := by
  exact List.ext_getElem (by simp) fun i inside _ => by simp [number]

theorem map_streamVersion_number :
    (number id version position events).map (·.streamVersion) = List.range' (version + 1) events.length := by
  refine List.ext_getElem (by simp) fun i inside _ => ?_
  simp [number]
  omega

theorem map_globalPosition_number :
    (number id version position events).map (·.globalPosition) = List.range' (position + 1) events.length := by
  refine List.ext_getElem (by simp) fun i inside _ => ?_
  simp [number]
  omega

theorem stream_of_mem_number {event : StoredEvent} (member : event ∈ number id version position events) : event.stream = id := by
  obtain ⟨index, inside, same⟩ := List.mem_mapIdx.mp member
  rw [← same]

end Numbers

theorem Consistent.append (consistent : part.Consistent) (id : StreamId) {events : List NewEvent}
    (distinct : (events.map (·.eventId)).Nodup) (fresh : ∀ event ∈ events, event.eventId ∉ part.events.map (·.event.eventId)) :
    Consistent { part with
      position := some (part.events.length + events.length)
      events := part.events ++ number id (part.stream id).length part.events.length events } where
  positions := consistent.positions.append (by rw [map_globalPosition_number, length_number])
  versions := by
    intro other
    have whole := consistent.versions other
    unfold stream at whole ⊢
    dsimp only
    rw [List.filter_append]
    by_cases same : id = other
    · subst same
      have mine : ∀ event ∈ number id (part.events.filter (·.stream = id)).length part.events.length events,
          decide (event.stream = id) = true := fun event member => decide_eq_true (stream_of_mem_number member)
      rw [List.filter_eq_self.mpr mine]
      exact whole.append (by rw [map_streamVersion_number, length_number])
    · have others : ∀ event ∈ number id (part.events.filter (·.stream = id)).length part.events.length events,
          ¬decide (event.stream = other) = true := by
        intro event member
        rw [stream_of_mem_number member]
        simpa using same
      rw [List.filter_eq_nil_iff.mpr others, List.append_nil]
      exact whole
  unique := by
    rw [List.map_append, map_eventId_number, List.nodup_append]
    refine ⟨consistent.unique, distinct, fun old inLog new isNew same => ?_⟩
    obtain ⟨event, member, identity⟩ := List.mem_map.mp isNew
    exact fresh event member (by rw [identity, ← same]; exact inLog)
  counted := by simp
  covered := by
    intro other held found
    have inside := consistent.covered other held found
    unfold stream at inside ⊢
    dsimp only
    rw [List.filter_append, List.length_append]
    omega

theorem grows_append (position : Option Nat) (events : List StoredEvent) :
    Grows part { part with position, events := part.events ++ events } :=
  ⟨List.prefix_append _ _, fun _ held found => ⟨held, found, Nat.le_refl _⟩⟩

end LogPart

namespace PlatformTables
variable {definitions : Nat → ProjectionDefinition} {logId : String} {s t u : PlatformTables}

/-- How what a row guards may change: a log grows, no projection goes back, and a rebuild keeps
its version and its watermark. -/
def Grows : (row : PlatformRow) → Part row → Part row → Prop
  | .log _ => LogPart.Grows
  | .projection _ => fun before after => ∀ state, before = some state →
    ∃ later, after = some later ∧ state.version ≤ later.version ∧ state.checkpoint ≤ later.checkpoint
  | .rebuild _ => fun before after => ∀ run, before = some run →
    ∃ later, after = some later ∧ later.projectionVersion = run.projectionVersion ∧
      later.throughPosition = run.throughPosition ∧ run.nextPosition ≤ later.nextPosition

theorem Grows.refl : ∀ {row : PlatformRow} {part : Part row}, Grows row part part
  | .log _, _ => LogPart.Grows.refl
  | .projection _, _ => fun state found => ⟨state, found, Nat.le_refl _, Nat.le_refl _⟩
  | .rebuild _, _ => fun run found => ⟨run, found, rfl, rfl, Nat.le_refl _⟩

theorem Grows.trans : ∀ {row : PlatformRow} {first second third : Part row},
    Grows row first second → Grows row second third → Grows row first third
  | .log _, _, _, _, one, two => LogPart.Grows.trans one two
  | .projection _, _, _, _, one, two => by
    intro state found
    obtain ⟨middle, foundMiddle, version, checkpoint⟩ := one state found
    obtain ⟨last, foundLast, versionLast, checkpointLast⟩ := two middle foundMiddle
    exact ⟨last, foundLast, Nat.le_trans version versionLast, Nat.le_trans checkpoint checkpointLast⟩
  | .rebuild _, _, _, _, one, two => by
    intro run found
    obtain ⟨middle, foundMiddle, version, through, next⟩ := one run found
    obtain ⟨last, foundLast, versionLast, throughLast, nextLast⟩ := two middle foundMiddle
    exact ⟨last, foundLast, versionLast.trans version, throughLast.trans through, Nat.le_trans next nextLast⟩

/-- A rebuild is a fold of the log up to a watermark that the log has reached, and once it is
completed its projection is at least as far. -/
structure Rebuilding (definitions : Nat → ProjectionDefinition) (logId : String) (run : RebuildRun) (tables : PlatformTables) : Prop where
  folded : ProjectionRuntime.Folded definitions (tables.log logId).events run.projectionVersion run.nextPosition run.state
  inside : run.throughPosition ≤ (tables.log logId).events.length
  active : run.status = .completed → ∃ state, tables.projections.get? run.key = some state ∧
    run.projectionVersion ≤ state.version ∧ run.throughPosition ≤ state.checkpoint

theorem Rebuilding.mono {run : RebuildRun} (rebuilding : Rebuilding definitions logId run s)
    (longer : (s.log logId).events <+: (t.log logId).events)
    (further : Grows (.projection run.key) (s.projections.get? run.key) (t.projections.get? run.key)) :
    Rebuilding definitions logId run t where
  folded := rebuilding.folded.mono longer
  inside := Nat.le_trans rebuilding.inside longer.length_le
  active := by
    intro completed
    obtain ⟨state, found, version, checkpoint⟩ := rebuilding.active completed
    obtain ⟨later, foundLater, versionLater, checkpointLater⟩ := further state found
    exact ⟨later, foundLater, Nat.le_trans version versionLater, Nat.le_trans checkpoint checkpointLater⟩

/-- All logs are consistent, and every projection and rebuild is a fold of the log that they
follow, except for a projection that is being written. -/
structure Good (definitions : Nat → ProjectionDefinition) (logId : String) (except : Option ProjectionKey) (tables : PlatformTables) :
    Prop where
  logs : ∀ name, (tables.log name).Consistent
  states : ∀ key state, except ≠ some key → tables.projections.get? key = some state →
    ProjectionRuntime.Folded definitions (tables.log logId).events state.version state.checkpoint state.state
  rebuilds : ∀ runId run, tables.rebuilds.get? runId = some run → run.runId = runId ∧ Rebuilding definitions logId run tables

/-- The log of the merged tables contains the logs of both. -/
theorem furthest_log (furthest : schema.Furthest Grows s t u) (name : String) :
    (s.log name).events <+: (u.log name).events ∧ (t.log name).events <+: (u.log name).events := by
  rcases furthest (.log name) with ⟨same, grown⟩ | ⟨same, grown⟩
  · change u.log name = s.log name at same
    exact ⟨same ▸ List.prefix_refl _, LogPart.Grows.events grown⟩
  · change u.log name = t.log name at same
    exact ⟨LogPart.Grows.events grown, same ▸ List.prefix_refl _⟩

theorem furthest_projection (furthest : schema.Furthest Grows s t u) (key : ProjectionKey) :
    Grows (.projection key) (s.projections.get? key) (u.projections.get? key) ∧
      Grows (.projection key) (t.projections.get? key) (u.projections.get? key) := by
  rcases furthest (.projection key) with ⟨same, grown⟩ | ⟨same, grown⟩
  · change u.projections.get? key = s.projections.get? key at same
    exact ⟨same ▸ Grows.refl, grown⟩
  · change u.projections.get? key = t.projections.get? key at same
    exact ⟨grown, same ▸ Grows.refl⟩

theorem Good.merge {except : Option ProjectionKey} (first : Good definitions logId except s) (second : Good definitions logId none t)
    (furthest : schema.Furthest Grows s t u) : Good definitions logId except u := by
  obtain ⟨fromFirst, fromSecond⟩ := furthest_log furthest logId
  refine ⟨fun name => ?_, fun key state other found => ?_, fun runId run found => ?_⟩
  · rcases furthest (.log name) with ⟨same, -⟩ | ⟨same, -⟩
    · change u.log name = s.log name at same
      rw [same]
      exact first.logs name
    · change u.log name = t.log name at same
      rw [same]
      exact second.logs name
  · rcases furthest (.projection key) with ⟨same, -⟩ | ⟨same, -⟩
    · change u.projections.get? key = s.projections.get? key at same
      exact (first.states key state other (same ▸ found)).mono fromFirst
    · change u.projections.get? key = t.projections.get? key at same
      exact (second.states key state (by simp) (same ▸ found)).mono fromSecond
  · rcases furthest (.rebuild runId) with ⟨same, -⟩ | ⟨same, -⟩
    · change u.rebuilds.get? runId = s.rebuilds.get? runId at same
      obtain ⟨named, rebuilding⟩ := first.rebuilds runId run (same ▸ found)
      exact ⟨named, rebuilding.mono fromFirst (furthest_projection furthest run.key).1⟩
    · change u.rebuilds.get? runId = t.rebuilds.get? runId at same
      obtain ⟨named, rebuilding⟩ := second.rebuilds runId run (same ▸ found)
      exact ⟨named, rebuilding.mono fromSecond (furthest_projection furthest run.key).2⟩

def discipline (definitions : Nat → ProjectionDefinition) (logId : String) : Discipline schema where
  grows := Grows
  refl := Grows.refl
  trans := Grows.trans
  good := Good definitions logId none
  merge := Good.merge

/-- A write that lets its own row grow lets all rows grow. -/
theorem grown_write {write : PlatformWrite} {tables : PlatformTables}
    (own : Grows write.row (tables.part write.row) ((write.apply tables).part write.row)) :
    RowLocks.Grown (discipline definitions logId) tables (write.apply tables) := by
  intro row
  by_cases same : write.row = row
  · subst same
    exact own
  · change Grows row (tables.part row) ((write.apply tables).part row)
    rw [part_untouched same]
    exact Grows.refl

/-- A write to a log that keeps it consistent and lets it grow. -/
theorem Good.of_log {write : PlatformWrite} {tables : PlatformTables} {except : Option ProjectionKey}
    (good : Good definitions logId except tables) {name : String}
    (own : write.row = .log name) (consistent : ((write.apply tables).log name).Consistent)
    (grows : LogPart.Grows (tables.log name) ((write.apply tables).log name)) : Good definitions logId except (write.apply tables) := by
  have projections : ∀ key, (write.apply tables).projections.get? key = tables.projections.get? key :=
    fun key => part_untouched (by rw [own]; simp : write.row ≠ .projection key) tables
  have rebuilds : ∀ runId, (write.apply tables).rebuilds.get? runId = tables.rebuilds.get? runId :=
    fun runId => part_untouched (by rw [own]; simp : write.row ≠ .rebuild runId) tables
  have others : ∀ other, other ≠ name → (write.apply tables).log other = tables.log other := fun other distinct =>
    part_untouched (by rw [own]; simpa using Ne.symm distinct : write.row ≠ .log other) tables
  have longer : (tables.log logId).events <+: ((write.apply tables).log logId).events := by
    by_cases same : logId = name
    · subst same
      exact grows.events
    · rw [others logId same]
  refine ⟨fun other => ?_, fun key state included found => ?_, fun runId run found => ?_⟩
  · by_cases same : other = name
    · subst same
      exact consistent
    · rw [others other same]
      exact good.logs other
  · rw [projections] at found
    exact (good.states key state included found).mono longer
  · rw [rebuilds] at found
    obtain ⟨named, rebuilding⟩ := good.rebuilds runId run found
    exact ⟨named, rebuilding.mono longer (by rw [projections]; exact Grows.refl)⟩

/-- Writing a projection settles it when it is a fold, and leaves it open otherwise. -/
theorem Good.saveProjection {tables : PlatformTables} {state : ProjectionState} {except later : Option ProjectionKey}
    (good : Good definitions logId except tables) (only : ∀ key, except = some key → later ≠ some key → key = state.key)
    (grown : Grows (.projection state.key) (tables.projections.get? state.key) (some state))
    (folded : later ≠ some state.key →
      ProjectionRuntime.Folded definitions (tables.log logId).events state.version state.checkpoint state.state) :
    Good definitions logId later (PlatformWrite.apply (.saveProjection state) tables) where
  logs := good.logs
  states := by
    intro key stored included found
    change (tables.projections.set state.key state).get? key = some stored at found
    rcases Dict.get?_set_cases found with ⟨rfl, rfl⟩ | ⟨other, before⟩
    · exact folded included
    · exact good.states key stored (fun open_ => other (only key open_ included)) before
  rebuilds := by
    intro runId run found
    obtain ⟨named, rebuilding⟩ := good.rebuilds runId run found
    refine ⟨named, rebuilding.mono (List.prefix_refl _) ?_⟩
    change Grows (.projection run.key) (tables.projections.get? run.key) ((tables.projections.set state.key state).get? run.key :)
    rw [Dict.get?_set]
    split
    · rename_i same
      rw [same]
      exact grown
    · exact Grows.refl

theorem Good.saveRebuild {tables : PlatformTables} {run : RebuildRun} {except : Option ProjectionKey}
    (good : Good definitions logId except tables) (rebuilding : Rebuilding definitions logId run tables) :
    Good definitions logId except (PlatformWrite.apply (.saveRebuild run) tables) where
  logs := good.logs
  states := good.states
  rebuilds := by
    intro runId stored found
    change (tables.rebuilds.set run.runId run).get? runId = some stored at found
    rcases Dict.get?_set_cases found with ⟨rfl, rfl⟩ | ⟨-, before⟩
    · exact ⟨rfl, rebuilding.mono (List.prefix_refl _) Grows.refl⟩
    · obtain ⟨named, others⟩ := good.rebuilds runId stored before
      exact ⟨named, others.mono (List.prefix_refl _) Grows.refl⟩

end PlatformTables

end Pytitect
