import Pytitect.EventSourcing.Log

namespace Pytitect

structure Snapshot where
  stream : StreamId
  version : Nat
  state : JsonValue
  createdAt : Int
  positive : 0 < version
  valid : validateJson state .default = .ok ()

/-- `InMemoryEventStore` with the snapshots it holds beside its log. -/
structure SnapshotStore where
  log : EventStore
  snapshots : Dict StreamId Snapshot

namespace SnapshotStore

def empty (capacity maxPageSize : Nat) : SnapshotStore := ⟨.empty capacity maxPageSize, .empty⟩

def append (s : SnapshotStore) (id : StreamId) (expectedVersion : Int) (events : List NewEvent) :
    Except PyError AppendResult × SnapshotStore :=
  let answered := s.log.append id expectedVersion events
  (answered.1, { s with log := answered.2 })

def loadSnapshot (s : SnapshotStore) (stream : StreamId) : Option Snapshot := s.snapshots.get? stream

def saveSnapshot (s : SnapshotStore) (snapshot : Snapshot) (expectedVersion : Option Int) :
    Except PyError Bool × SnapshotStore :=
  let actual := (s.loadSnapshot snapshot.stream).map fun held => (held.version : Int)
  if actual ≠ expectedVersion then (.ok false, s)
  else if (s.log.stream snapshot.stream).length < snapshot.version then
    (.error (.valueError "snapshot cannot be ahead of its event stream"), s)
  else (.ok true, { s with snapshots := s.snapshots.set snapshot.stream snapshot })

end SnapshotStore

/-- A row of the consumer's event class. -/
structure EventRow where
  logId : String
  event : StoredEvent

/-- The tables behind the session: the position row of each log, the events, and the snapshots
under their unique index. -/
structure EventTables where
  logs : Dict String Nat
  events : List EventRow
  snapshots : Dict (String × StreamId) Snapshot

/-- `SQLAlchemyEventStore`. Each call is a transaction of its own: what raises is rolled back. -/
structure SQLAlchemyEventStore where
  logId : String
  maxPageSize : Nat
  positive : logId ≠ "" ∧ 0 < maxPageSize

namespace SQLAlchemyEventStore
variable (store : SQLAlchemyEventStore) (tables : EventTables)

/-- `_lock` leaves the position row of the log behind. -/
def lock : EventTables :=
  match tables.logs.get? store.logId with
  | none => { tables with logs := tables.logs.set store.logId 0 }
  | some _ => tables

def position : Nat := (tables.logs.get? store.logId).getD 0

/-- The events of this log. -/
def log : List StoredEvent := (tables.events.filter (·.logId = store.logId)).map (·.event)

/-- `coalesce(max(stream_version), 0)` over the rows of the stream. -/
def version (stream : StreamId) : Nat :=
  (((store.log tables).filter (·.stream = stream)).map (·.streamVersion)).max?.getD 0

/-- The rows that an append adds. -/
def number (id : StreamId) (events : List NewEvent) : List StoredEvent :=
  events.mapIdx fun index event =>
    ⟨id, store.version tables id + (index + 1), store.position tables + (index + 1), event, by omega, by omega⟩

/-- `append`. The query for a known event id names no order; it is taken to find the first row. -/
def append (id : StreamId) (expectedVersion : Int) (events : List NewEvent) :
    Except PyError AppendResult × EventTables :=
  let identifiers := events.map (·.eventId)
  if expectedVersion < 0 ∨ events = [] ∨ store.maxPageSize < events.length then
    (.error (.valueError "append requires a bounded nonempty batch and nonnegative version"), tables)
  else
    match identifiers.find? (fun identifier => 1 < identifiers.count identifier) with
    | some identifier => (.ok (.duplicateEventId identifier), tables)
    | none =>
      let locked := store.lock tables
      let actual := store.version locked id
      if (actual : Int) ≠ expectedVersion then (.ok (.wrongExpectedVersion expectedVersion actual), locked)
      else
        match (store.log locked).find? (·.event.eventId ∈ identifiers) with
        | some duplicate => (.ok (.duplicateEventId duplicate.event.eventId), locked)
        | none =>
          let stored := store.number locked id events
          (.ok (.committed (actual + 1) (actual + events.length) stored),
            { locked with
              logs := locked.logs.set store.logId (store.position locked + stored.length)
              events := locked.events ++ stored.map fun event => ⟨store.logId, event⟩ })

def loadSnapshot (stream : StreamId) : Option Snapshot := tables.snapshots.get? (store.logId, stream)

def saveSnapshot (snapshot : Snapshot) (expectedVersion : Option Int) : Except PyError Bool × EventTables :=
  let locked := store.lock tables
  let current := store.loadSnapshot locked snapshot.stream
  if current.map (fun held => (held.version : Int)) ≠ expectedVersion then (.ok false, locked)
  else if store.version locked snapshot.stream < snapshot.version ∨
      current.any (fun held => snapshot.version < held.version) then
    (.error (.valueError "snapshot must not exceed its stream or regress"), tables)
  else (.ok true, { locked with snapshots := locked.snapshots.set (store.logId, snapshot.stream) snapshot })

end SQLAlchemyEventStore

end Pytitect
