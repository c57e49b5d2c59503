import Pytitect.EventSourcing.Store
import Pytitect.Lib.History

namespace Pytitect.EventStore
variable {s t : EventStore} {id : StreamId} {events : List NewEvent}

/-- A call of `append`. -/
structure AppendCall where
  stream : StreamId
  expectedVersion : Int
  events : List NewEvent

def answer (s : EventStore) (call : AppendCall) : Except PyError AppendResult × EventStore :=
  s.append call.stream call.expectedVersion call.events

/-- Any sequence of appends, from any callers. -/
abbrev Run (capacity maxPageSize : Nat) : List (AppendCall × Except PyError AppendResult) → EventStore → Prop :=
  History answer (fun _ _ _ => True) (empty capacity maxPageSize)

/-- What an append can do: nothing, or add its events to the log and to their stream. -/
inductive Appended (s : EventStore) (id : StreamId) (events : List NewEvent) : Except PyError AppendResult → EventStore → Prop
  | refused {result} : (∀ first last stored, result ≠ .ok (.committed first last stored)) → Appended s id events result s
  | committed : (events.map (·.eventId)).Nodup → (∀ event ∈ events, event.eventId ∉ s.eventIds) →
      s.all.length + events.length ≤ s.capacity →
      Appended s id events
        (.ok (.committed ((s.stream id).length + 1) ((s.stream id).length + events.length) (s.number id events)))
        { s with
          streams := s.streams.set id (s.stream id ++ s.number id events)
          all := s.all ++ s.number id events
          eventIds := s.eventIds ++ events.map (·.eventId) }

theorem appendLocked_appended (expectedVersion : Int) (distinct : (events.map (·.eventId)).Nodup) :
    Appended s id events (s.appendLocked id expectedVersion events).1 (s.appendLocked id expectedVersion events).2 := by
  unfold appendLocked
  dsimp only
  split
  · exact .refused (by simp)
  split
  · exact .refused (by simp)
  rename_i fresh
  split
  · exact .refused (by simp)
  rename_i room
  refine .committed distinct (fun event member known => ?_) (by omega)
  exact List.find?_eq_none.mp fresh _ (List.mem_map_of_mem member) (by simpa using known)

theorem append_appended (s : EventStore) (id : StreamId) (expectedVersion : Int) (events : List NewEvent) :
    Appended s id events (s.append id expectedVersion events).1 (s.append id expectedVersion events).2 := by
  unfold append
  dsimp only
  split
  · exact .refused (by simp)
  split
  · exact .refused (by simp)
  split
  · exact .refused (by simp)
  rename_i single
  refine appendLocked_appended expectedVersion (List.nodup_iff_count_le_one.mpr fun identifier => ?_)
  by_cases member : identifier ∈ events.map (·.eventId)
  · have once := List.find?_eq_none.mp single identifier member
    simp only [decide_eq_true_eq] at once
    omega
  · rw [List.count_eq_zero_of_not_mem member]
    exact Nat.zero_le _

@[simp] theorem length_number : (s.number id events).length = events.length := by
  simp [number]

theorem map_eventId_number : (s.number id events).map (·.event.eventId) = events.map (·.eventId) := by
  exact List.ext_getElem (by simp) fun i inside _ => by simp [number]

theorem map_streamVersion_number :
    (s.number id events).map (·.streamVersion) = List.range' ((s.stream id).length + 1) events.length := by
  refine List.ext_getElem (by simp) fun i inside _ => ?_
  simp [number]
  omega

theorem map_globalPosition_number :
    (s.number id events).map (·.globalPosition) = List.range' (s.all.length + 1) events.length := by
  refine List.ext_getElem (by simp) fun i inside _ => ?_
  simp [number]
  omega

theorem stream_of_mem_number {event : StoredEvent} (member : event ∈ s.number id events) : event.stream = id := by
  obtain ⟨index, inside, same⟩ := List.mem_mapIdx.mp member
  rw [← same]

/-- The collections of the store agree: the log and every stream are numbered
without a gap, a stream is the part of the log that bears its id, and no event
id occurs twice. -/
structure Consistent (s : EventStore) : Prop where
  positions : s.all.Numbered (·.globalPosition)
  versions : ∀ id, (s.stream id).Numbered (·.streamVersion)
  subsequence : ∀ id, s.stream id = s.all.filter (·.stream = id)
  unique : (s.all.map (·.event.eventId)).Nodup
  known : s.eventIds = s.all.map (·.event.eventId)
  bounded : s.all.length ≤ s.capacity

theorem stream_set (streams : Dict StreamId (List StoredEvent)) (id other : StreamId) (added : List StoredEvent) :
    ((streams.set id added).get? other).getD [] = if other = id then added else (streams.get? other).getD [] := by
  rw [Dict.get?_set]
  split <;> rfl

namespace Consistent

theorem start (capacity maxPageSize : Nat) : Consistent (empty capacity maxPageSize) where
  positions := List.Numbered.nil
  versions := fun _ => List.Numbered.nil
  subsequence := fun _ => rfl
  unique := List.nodup_nil
  known := rfl
  bounded := Nat.zero_le _

theorem appended {result : Except PyError AppendResult} (consistent : Consistent s)
    (appended : Appended s id events result t) : Consistent t := by
  cases appended with
  | refused _ => exact consistent
  | committed distinct fresh room =>
    have stream : ∀ other, EventStore.stream { s with
        streams := s.streams.set id (s.stream id ++ s.number id events)
        all := s.all ++ s.number id events
        eventIds := s.eventIds ++ events.map (·.eventId) } other =
        if other = id then s.stream id ++ s.number id events else s.stream other :=
      fun other => stream_set s.streams id other _
    constructor
    · exact consistent.positions.append (by rw [map_globalPosition_number, length_number])
    · intro other
      rw [stream]
      split
      · exact (consistent.versions id).append (by rw [map_streamVersion_number, length_number])
      · exact consistent.versions other
    · intro other
      rw [stream, List.filter_append, ← consistent.subsequence other]
      split
      · rename_i same
        subst same
        rw [List.filter_eq_self.mpr fun event member => by simp [stream_of_mem_number member]]
      · rename_i different
        rw [List.filter_eq_nil_iff.mpr fun event member => by simp [stream_of_mem_number member, Ne.symm different],
          List.append_nil]
    · rw [List.map_append, map_eventId_number, List.nodup_append]
      refine ⟨consistent.unique, distinct, fun old inLog new isNew same => ?_⟩
      obtain ⟨event, member, identity⟩ := List.mem_map.mp isNew
      exact fresh event member (by rw [consistent.known, identity, ← same]; exact inLog)
    · rw [List.map_append, map_eventId_number, consistent.known]
    · simpa using room

theorem append (consistent : Consistent s) (id : StreamId) (expectedVersion : Int) (events : List NewEvent) :
    Consistent (s.append id expectedVersion events).2 :=
  consistent.appended (s.append_appended id expectedVersion events)

theorem run {capacity maxPageSize : Nat} {past : List (AppendCall × Except PyError AppendResult)}
    (history : Run capacity maxPageSize past s) : Consistent s :=
  history.state_invariant (start capacity maxPageSize) fun _ _ call consistent _ =>
    consistent.append call.stream call.expectedVersion call.events

end Consistent

/-- An append only adds to the log and to a stream. -/
theorem appended_extends {result : Except PyError AppendResult} (appended : Appended s id events result t) :
    s.all <+: t.all ∧ ∀ other, s.stream other <+: t.stream other := by
  cases appended with
  | refused _ => exact ⟨List.prefix_refl _, fun _ => List.prefix_refl _⟩
  | committed distinct fresh room =>
    refine ⟨List.prefix_append _ _, fun other => ?_⟩
    unfold EventStore.stream
    dsimp only
    rw [stream_set]
    split
    · rename_i same
      subst same
      exact List.prefix_append _ _
    · exact List.prefix_refl _

end Pytitect.EventStore
