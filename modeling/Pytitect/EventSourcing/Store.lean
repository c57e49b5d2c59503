import Pytitect.Json
import Pytitect.Lib.Dict
import Pytitect.Lib.Numbered

namespace Pytitect

structure StreamId where
  category : String
  streamId : String
  nonempty : category ≠ "" ∧ streamId ≠ ""
  deriving DecidableEq

inductive JsonScalar
  | null
  | bool (value : Bool)
  | int (value : Int)
  | float (bits : UInt64)
  | str (value : Text)
  deriving DecidableEq

structure NewEvent where
  eventId : String
  eventType : String
  payload : JsonValue
  occurredAt : Int
  metadata : Dict Text JsonScalar
  nonempty : eventId ≠ "" ∧ eventType ≠ ""
  valid : validateJson payload .default = .ok ()
  bounded : metadata.size ≤ 32

structure StoredEvent where
  stream : StreamId
  streamVersion : Nat
  globalPosition : Nat
  event : NewEvent
  positive : 0 < streamVersion ∧ 0 < globalPosition

inductive AppendResult
  | committed (firstVersion lastVersion : Nat) (events : List StoredEvent)
  | wrongExpectedVersion (expected actual : Int)
  | duplicateEventId (eventId : String)

structure EventPage where
  events : List StoredEvent
  nextPosition : Int
  complete : Bool

/-- `InMemoryEventStore`. The set of event ids is the list of its elements. -/
structure EventStore where
  capacity : Nat
  maxPageSize : Nat
  streams : Dict StreamId (List StoredEvent)
  all : List StoredEvent
  eventIds : List String

namespace EventStore

def empty (capacity maxPageSize : Nat) : EventStore := ⟨capacity, maxPageSize, .empty, [], []⟩

/-- `self._streams.get(stream, [])`. -/
def stream (s : EventStore) (id : StreamId) : List StoredEvent := (s.streams.get? id).getD []

/-- The events of an append under the next numbers of their stream and of the log. -/
def number (s : EventStore) (id : StreamId) (events : List NewEvent) : List StoredEvent :=
  events.mapIdx fun index event =>
    ⟨id, (s.stream id).length + (index + 1), s.all.length + (index + 1), event, by omega, by omega⟩

/-- The part of `append` under the lock. -/
def appendLocked (s : EventStore) (id : StreamId) (expectedVersion : Int) (events : List NewEvent) :
    Except PyError AppendResult × EventStore :=
  let identifiers := events.map (·.eventId)
  let actual := (s.stream id).length
  if (actual : Int) ≠ expectedVersion then (.ok (.wrongExpectedVersion expectedVersion actual), s)
  else
    match identifiers.find? (· ∈ s.eventIds) with
    | some duplicate => (.ok (.duplicateEventId duplicate), s)
    | none =>
      if s.capacity < s.all.length + events.length then (.error (.overflowError "event store capacity exceeded"), s)
      else
        let stored := s.number id events
        (.ok (.committed (actual + 1) (actual + events.length) stored),
          { s with
            streams := s.streams.set id (s.stream id ++ stored)
            all := s.all ++ stored
            eventIds := s.eventIds ++ identifiers })

def append (s : EventStore) (id : StreamId) (expectedVersion : Int) (events : List NewEvent) :
    Except PyError AppendResult × EventStore :=
  let identifiers := events.map (·.eventId)
  if expectedVersion < 0 then (.error (.valueError "expected stream version must not be negative"), s)
  else if events = [] then (.error (.valueError "an append requires at least one event"), s)
  else
    match identifiers.find? (fun identifier => 1 < identifiers.count identifier) with
    | some identifier => (.ok (.duplicateEventId identifier), s)
    | none => s.appendLocked id expectedVersion events

def pageArguments (s : EventStore) (position limit : Int) : Except PyError Unit :=
  if position < 0 then .error (.valueError "event position must not be negative")
  else if ¬(1 ≤ limit ∧ limit ≤ s.maxPageSize) then
    .error (.valueError "event page limit is outside the configured finite range")
  else .ok ()

/-- A page of numbered events: what follows a position, up to a limit. -/
def page (number : StoredEvent → Nat) (events : List StoredEvent) (after : Int) (limit : Nat) : EventPage :=
  let available := events.filter fun event => after < number event
  let selected := available.take limit
  ⟨selected, (selected.getLast?.map fun event => (number event : Int)).getD after, available.length ≤ limit⟩

def readStream (s : EventStore) (id : StreamId) (afterVersion limit : Int) : Except PyError EventPage := do
  s.pageArguments afterVersion limit
  return page (·.streamVersion) (s.stream id) afterVersion limit.toNat

def readAll (s : EventStore) (afterPosition limit : Int) : Except PyError EventPage := do
  s.pageArguments afterPosition limit
  return page (·.globalPosition) s.all afterPosition limit.toNat

end EventStore

end Pytitect
