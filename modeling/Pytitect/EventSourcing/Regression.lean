import Pytitect.EventSourcing.Paging
import Pytitect.EventSourcing.Snapshots

namespace Pytitect

/-- A call of an event store by some writer. -/
inductive SnapshotCall
  | append (call : EventStore.AppendCall)
  | save (snapshot : Snapshot) (expectedVersion : Option Int)

inductive SnapshotAnswer
  | appended (result : Except PyError AppendResult)
  | saved (result : Except PyError Bool)

/-- The append was committed, or the snapshot saved. -/
def SnapshotAnswer.Accepted : SnapshotAnswer → Prop
  | .appended (.ok (.committed _ _ _)) => True
  | .saved (.ok true) => True
  | _ => False

namespace SnapshotStore

def answer (s : SnapshotStore) : SnapshotCall → SnapshotAnswer × SnapshotStore
  | .append call => ((s.append call.stream call.expectedVersion call.events).map .appended id)
  | .save snapshot expectedVersion => ((s.saveSnapshot snapshot expectedVersion).map .saved id)

/-- The version of the snapshot a stream has, 0 if there is none. -/
def snapshotVersion (s : SnapshotStore) (stream : StreamId) : Nat := ((s.loadSnapshot stream).map (·.version)).getD 0

/-- The call saves a snapshot older than the one it replaces. -/
def Regresses (s : SnapshotStore) : SnapshotCall → Prop
  | .append _ => False
  | .save snapshot expectedVersion => ∃ held, s.loadSnapshot snapshot.stream = some held ∧
      expectedVersion = some (held.version : Int) ∧ snapshot.version < held.version

/-- No snapshot is ahead of its stream. -/
def Covered (s : SnapshotStore) : Prop :=
  ∀ stream held, s.loadSnapshot stream = some held → held.version ≤ (s.log.stream stream).length

/-- What a save can do: nothing, or take the place of the snapshot it expects. -/
theorem saveSnapshot_cases (s : SnapshotStore) (snapshot : Snapshot) (expectedVersion : Option Int) :
    ((s.saveSnapshot snapshot expectedVersion).1 ≠ .ok true ∧ (s.saveSnapshot snapshot expectedVersion).2 = s) ∨
    ((s.loadSnapshot snapshot.stream).map (fun held => (held.version : Int)) = expectedVersion ∧
      snapshot.version ≤ (s.log.stream snapshot.stream).length ∧
      s.saveSnapshot snapshot expectedVersion = (.ok true, { s with snapshots := s.snapshots.set snapshot.stream snapshot })) := by
  unfold saveSnapshot
  dsimp only
  split
  · exact Or.inl ⟨by simp, rfl⟩
  rename_i expected
  split
  · exact Or.inl ⟨by simp, rfl⟩
  rename_i covered
  exact Or.inr ⟨not_not.mp expected, by omega, rfl⟩

/-- An append leaves the snapshots as they are and only adds to the streams. -/
theorem Covered.append {s : SnapshotStore} (covered : Covered s) (id : StreamId) (expectedVersion : Int) (events : List NewEvent) :
    Covered (s.append id expectedVersion events).2 := by
  intro stream held found
  have grown := (EventStore.appended_extends (s.log.append_appended id expectedVersion events)).2 stream
  exact Nat.le_trans (covered stream held found) grown.length_le

theorem Covered.saveSnapshot {s : SnapshotStore} (covered : Covered s) (snapshot : Snapshot) (expectedVersion : Option Int) :
    Covered (s.saveSnapshot snapshot expectedVersion).2 := by
  rcases s.saveSnapshot_cases snapshot expectedVersion with ⟨-, unchanged⟩ | ⟨-, inside, saved⟩
  · rw [unchanged]
    exact covered
  · rw [saved]
    intro stream held found
    rcases Dict.get?_set_cases found with ⟨rfl, rfl⟩ | ⟨-, earlier⟩
    · exact inside
    · exact covered stream held earlier

theorem Covered.answer {s : SnapshotStore} (covered : Covered s) (call : SnapshotCall) : Covered (s.answer call).2 := by
  cases call with
  | append call => exact covered.append call.stream call.expectedVersion call.events
  | save snapshot expectedVersion => exact covered.saveSnapshot snapshot expectedVersion

/-- The version of a snapshot goes back exactly when a call saves an older one. -/
theorem snapshotVersion_le_iff {s : SnapshotStore} (covered : Covered s) (call : SnapshotCall) :
    (∀ stream, s.snapshotVersion stream ≤ (s.answer call).2.snapshotVersion stream) ↔ ¬s.Regresses call := by
  cases call with
  | append call => exact ⟨fun _ regresses => regresses, fun _ stream => Nat.le_refl _⟩
  | save snapshot expectedVersion =>
    change (∀ stream, _ ≤ (s.saveSnapshot snapshot expectedVersion).2.snapshotVersion stream) ↔ _
    constructor
    · rintro kept ⟨held, found, rfl, older⟩
      have expected : (s.loadSnapshot snapshot.stream).map (fun held => (held.version : Int)) = some (held.version : Int) := by
        rw [found]
        rfl
      have inside := covered _ _ found
      have saved : s.saveSnapshot snapshot (some (held.version : Int)) =
          (.ok true, { s with snapshots := s.snapshots.set snapshot.stream snapshot }) := by
        rw [saveSnapshot, if_neg (by rw [expected]; simp), if_neg (by omega)]
      have before : s.snapshotVersion snapshot.stream = held.version := by
        rw [snapshotVersion, found]
        rfl
      have here := kept snapshot.stream
      rw [saved, before] at here
      simp only [snapshotVersion, loadSnapshot, Dict.get?_set_self, Option.map_some, Option.getD_some] at here
      omega
    · intro steady stream
      rcases s.saveSnapshot_cases snapshot expectedVersion with ⟨-, unchanged⟩ | ⟨expected, -, saved⟩
      · rw [unchanged]
      rw [saved]
      by_cases same : stream = snapshot.stream
      · subst same
        simp only [snapshotVersion, loadSnapshot, Dict.get?_set_self, Option.map_some, Option.getD_some]
        cases found : s.snapshots.get? snapshot.stream with
        | none => exact Nat.zero_le _
        | some held =>
          rw [loadSnapshot, found] at expected
          by_contra older
          exact steady ⟨held, found, expected.symm, Nat.lt_of_not_le older⟩
      · simp only [snapshotVersion, loadSnapshot, Dict.get?_set_of_ne same]
        exact Nat.le_refl _

end SnapshotStore

namespace SQLAlchemyEventStore
variable {store : SQLAlchemyEventStore} {tables : EventTables}

def answer (store : SQLAlchemyEventStore) (tables : EventTables) : SnapshotCall → SnapshotAnswer × EventTables
  | .append call => ((store.append tables call.stream call.expectedVersion call.events).map .appended id)
  | .save snapshot expectedVersion => ((store.saveSnapshot tables snapshot expectedVersion).map .saved id)

@[simp] theorem log_lock : store.log (store.lock tables) = store.log tables := by
  unfold lock
  split <;> rfl

@[simp] theorem version_lock (stream : StreamId) : store.version (store.lock tables) stream = store.version tables stream := by
  unfold version
  rw [log_lock]

@[simp] theorem position_lock : store.position (store.lock tables) = store.position tables := by
  unfold lock position
  cases found : tables.logs.get? store.logId with
  | none => simp
  | some position => simp [found]

@[simp] theorem loadSnapshot_lock (stream : StreamId) :
    store.loadSnapshot (store.lock tables) stream = store.loadSnapshot tables stream := by
  unfold lock
  split <;> rfl

/-- What an append can do: nothing but leave the position row behind, or add its events. -/
theorem append_cases (store : SQLAlchemyEventStore) (tables : EventTables) (call : EventStore.AppendCall) :
    (¬(store.answer tables (.append call)).1.Accepted ∧
      ((store.answer tables (.append call)).2 = tables ∨ (store.answer tables (.append call)).2 = store.lock tables)) ∨
    ((store.answer tables (.append call)).1.Accepted ∧ (store.version tables call.stream : Int) = call.expectedVersion ∧
      (store.answer tables (.append call)).2 = { store.lock tables with
        logs := (store.lock tables).logs.set store.logId (store.position tables + call.events.length)
        events := (store.lock tables).events ++
          (store.number (store.lock tables) call.stream call.events).map fun event => ⟨store.logId, event⟩ }) := by
  change (¬(SnapshotAnswer.appended (store.append _ _ _ _).1).Accepted ∧ ((store.append _ _ _ _).2 = _ ∨ (store.append _ _ _ _).2 = _)) ∨
    ((SnapshotAnswer.appended (store.append _ _ _ _).1).Accepted ∧ _ ∧ (store.append _ _ _ _).2 = _)
  unfold append
  dsimp only
  split
  · exact Or.inl ⟨id, Or.inl rfl⟩
  split
  · exact Or.inl ⟨id, Or.inl rfl⟩
  split
  · exact Or.inl ⟨id, Or.inr rfl⟩
  rename_i expected
  split
  · exact Or.inl ⟨id, Or.inr rfl⟩
  · refine Or.inr ⟨trivial, ?_, ?_⟩
    · rw [version_lock] at expected
      exact not_not.mp expected
    · simp [number]

/-- What a save can do: nothing but leave the position row behind, or put the snapshot in its place. -/
theorem saveSnapshot_cases (store : SQLAlchemyEventStore) (tables : EventTables) (snapshot : Snapshot) (expectedVersion : Option Int) :
    ((store.saveSnapshot tables snapshot expectedVersion).1 ≠ .ok true ∧
      ((store.saveSnapshot tables snapshot expectedVersion).2 = tables ∨
        (store.saveSnapshot tables snapshot expectedVersion).2 = store.lock tables)) ∨
    ((store.saveSnapshot tables snapshot expectedVersion).1 = .ok true ∧
      (store.saveSnapshot tables snapshot expectedVersion).2 =
        { store.lock tables with snapshots := (store.lock tables).snapshots.set (store.logId, snapshot.stream) snapshot }) := by
  unfold saveSnapshot
  dsimp only
  split
  · exact Or.inl ⟨by simp, Or.inr rfl⟩
  split
  · exact Or.inl ⟨by simp, Or.inl rfl⟩
  · exact Or.inr ⟨rfl, rfl⟩

end SQLAlchemyEventStore

/-- The two stores that are given the same calls. -/
structure SnapshotStores where
  memory : SnapshotStore
  tables : EventTables

namespace SnapshotStores
variable {store : SQLAlchemyEventStore} {w : SnapshotStores}

def step (store : SQLAlchemyEventStore) (w : SnapshotStores) (call : SnapshotCall) :
    (SnapshotAnswer × SnapshotAnswer) × SnapshotStores :=
  let memory := w.memory.answer call
  let tables := store.answer w.tables call
  ((memory.1, tables.1), ⟨memory.2, tables.2⟩)

/-- Both stores accept the call or neither does. -/
def Alike (store : SQLAlchemyEventStore) (w : SnapshotStores) (call : SnapshotCall) : Prop :=
  (w.memory.answer call).1.Accepted ↔ (store.answer w.tables call).1.Accepted

/-- An append within the bounds of both stores: the batch size of the one and the capacity of the other. -/
def Fits (store : SQLAlchemyEventStore) (w : SnapshotStores) (call : EventStore.AppendCall) : Prop :=
  call.events.length ≤ store.maxPageSize ∧ w.memory.log.all.length + call.events.length ≤ w.memory.log.capacity

/-- The tables hold the log and the snapshots that the in-memory store holds. -/
structure Aligned (store : SQLAlchemyEventStore) (w : SnapshotStores) : Prop where
  consistent : EventStore.Consistent w.memory.log
  covered : w.memory.Covered
  log : store.log w.tables = w.memory.log.all
  position : store.position w.tables = w.memory.log.all.length
  snapshots : ∀ stream, store.loadSnapshot w.tables stream = w.memory.loadSnapshot stream

namespace Aligned

theorem version (aligned : Aligned store w) (stream : StreamId) :
    store.version w.tables stream = (w.memory.log.stream stream).length := by
  rw [SQLAlchemyEventStore.version, aligned.log, ← aligned.consistent.subsequence]
  exact (aligned.consistent.versions stream).max?_getD

theorem number (aligned : Aligned store w) (stream : StreamId) (events : List NewEvent) :
    store.number (store.lock w.tables) stream events = w.memory.log.number stream events := by
  unfold SQLAlchemyEventStore.number EventStore.number
  simp only [SQLAlchemyEventStore.version_lock, SQLAlchemyEventStore.position_lock, aligned.version, aligned.position]

/-- What leaves the log and the snapshots of the tables as they are keeps the stores aligned. -/
theorem of_tables {tables : EventTables} (aligned : Aligned store w) (same : tables = w.tables ∨ tables = store.lock w.tables) :
    Aligned store ⟨w.memory, tables⟩ := by
  rcases same with rfl | rfl
  · exact ⟨aligned.consistent, aligned.covered, aligned.log, aligned.position, aligned.snapshots⟩
  · refine ⟨aligned.consistent, aligned.covered, ?_, ?_, fun stream => ?_⟩
    · rw [SQLAlchemyEventStore.log_lock]
      exact aligned.log
    · rw [SQLAlchemyEventStore.position_lock]
      exact aligned.position
    · rw [SQLAlchemyEventStore.loadSnapshot_lock]
      exact aligned.snapshots stream

theorem append (aligned : Aligned store w) (call : EventStore.AppendCall) (alike : Alike store w (.append call)) :
    Aligned store (step store w (.append call)).2 := by
  have consistent := aligned.consistent.append call.stream call.expectedVersion call.events
  have covered := aligned.covered.append call.stream call.expectedVersion call.events
  have appended := w.memory.log.append_appended call.stream call.expectedVersion call.events
  have memory : (w.memory.answer (.append call)).1 = .appended (w.memory.log.append call.stream call.expectedVersion call.events).1 := rfl
  unfold Alike at alike
  rw [memory] at alike
  change Aligned store ⟨⟨(w.memory.log.append call.stream call.expectedVersion call.events).2, w.memory.snapshots⟩,
    (store.answer w.tables (.append call)).2⟩
  change SnapshotStore.Covered ⟨(w.memory.log.append call.stream call.expectedVersion call.events).2, w.memory.snapshots⟩ at covered
  generalize (w.memory.log.append call.stream call.expectedVersion call.events).1 = result at appended alike
  generalize (w.memory.log.append call.stream call.expectedVersion call.events).2 = after at appended consistent covered ⊢
  rcases store.append_cases w.tables call with ⟨refused, same⟩ | ⟨accepted, -, added⟩
  · cases appended with
    | refused _ => exact aligned.of_tables same
    | committed _ _ _ => exact absurd (alike.mp trivial) refused
  · cases appended with
    | refused uncommitted =>
      have committed := alike.mpr accepted
      rcases result with error | ⟨first, last, stored⟩ | _ | _
      · exact absurd committed id
      · exact absurd rfl (uncommitted first last stored)
      · exact absurd committed id
      · exact absurd committed id
    | committed _ _ _ =>
      rw [added]
      refine ⟨consistent, covered, ?_, ?_, fun stream => ?_⟩
      · have earlier := aligned.log
        rw [← SQLAlchemyEventStore.log_lock] at earlier
        unfold SQLAlchemyEventStore.log at earlier ⊢
        rw [List.filter_append, List.map_append, earlier, aligned.number]
        simp [List.filter_map, Function.comp_def]
      · simp [SQLAlchemyEventStore.position, ← aligned.position]
      · exact (SQLAlchemyEventStore.loadSnapshot_lock stream).trans (aligned.snapshots stream)

/-- An append within the bounds of both stores is committed by both or by neither. -/
theorem append_alike (aligned : Aligned store w) (call : EventStore.AppendCall) (fits : Fits store w call) :
    Alike store w (.append call) := by
  obtain ⟨batch, room⟩ := fits
  change (SnapshotAnswer.appended (w.memory.log.append call.stream call.expectedVersion call.events).1).Accepted ↔
    (SnapshotAnswer.appended (store.append w.tables call.stream call.expectedVersion call.events).1).Accepted
  unfold EventStore.append SQLAlchemyEventStore.append
  dsimp only
  by_cases negative : call.expectedVersion < 0
  · rw [if_pos negative, if_pos (Or.inl negative)]
    rfl
  by_cases none : call.events = []
  · rw [if_neg negative, if_pos none, if_pos (Or.inr (Or.inl none))]
    rfl
  rw [if_neg negative, if_neg none, if_neg (not_or.mpr ⟨negative, not_or.mpr ⟨none, by omega⟩⟩)]
  cases call.events.map (·.eventId) |>.find? (fun identifier => 1 < (call.events.map (·.eventId)).count identifier) with
  | some identifier => rfl
  | none =>
    dsimp only
    unfold EventStore.appendLocked
    dsimp only
    rw [SQLAlchemyEventStore.version_lock, aligned.version, SQLAlchemyEventStore.log_lock, aligned.log]
    by_cases expected : ((w.memory.log.stream call.stream).length : Int) = call.expectedVersion
    · rw [if_neg (not_not.mpr expected), if_neg (not_not.mpr expected)]
      have known : (call.events.map (·.eventId)).find? (· ∈ w.memory.log.eventIds) = Option.none ↔
          w.memory.log.all.find? (·.event.eventId ∈ call.events.map (·.eventId)) = Option.none := by
        rw [List.find?_eq_none, List.find?_eq_none, aligned.consistent.known]
        simp only [decide_eq_true_eq, List.mem_map]
        constructor
        · rintro fresh event member ⟨new, isNew, same⟩
          exact fresh new.eventId ⟨new, isNew, rfl⟩ ⟨event, member, same.symm⟩
        · rintro fresh _ ⟨new, isNew, rfl⟩ ⟨event, member, same⟩
          exact fresh event member ⟨new, isNew, same.symm⟩
      cases inMemory : (call.events.map (·.eventId)).find? (· ∈ w.memory.log.eventIds) with
      | some identifier =>
        cases inTables : w.memory.log.all.find? (·.event.eventId ∈ call.events.map (·.eventId)) with
        | some event => rfl
        | none => rw [known.mpr inTables] at inMemory; cases inMemory
      | none =>
        rw [known.mp inMemory]
        dsimp only
        rw [if_neg (by omega)]
        rfl
    · rw [if_pos expected, if_pos expected]

/-- A save in the tables answers as the one in memory, but it refuses to go back to an older snapshot. -/
theorem saveSnapshot_tables (aligned : Aligned store w) (snapshot : Snapshot) (expectedVersion : Option Int) :
    ((store.saveSnapshot w.tables snapshot expectedVersion).1 = .ok true ↔
      (w.memory.saveSnapshot snapshot expectedVersion).1 = .ok true ∧
        ¬w.memory.Regresses (.save snapshot expectedVersion)) := by
  unfold SQLAlchemyEventStore.saveSnapshot SnapshotStore.saveSnapshot
  dsimp only
  rw [SQLAlchemyEventStore.loadSnapshot_lock, aligned.snapshots, SQLAlchemyEventStore.version_lock, aligned.version]
  by_cases expected : (w.memory.loadSnapshot snapshot.stream).map (fun held => (held.version : Int)) = expectedVersion
  · rw [if_neg (not_not.mpr expected), if_neg (not_not.mpr expected)]
    by_cases ahead : (w.memory.log.stream snapshot.stream).length < snapshot.version
    · rw [if_pos (Or.inl ahead), if_pos ahead]
      simp
    rw [if_neg ahead]
    cases found : w.memory.loadSnapshot snapshot.stream with
    | none =>
      rw [if_neg (by simpa using ahead)]
      simp [SnapshotStore.Regresses, found]
    | some held =>
      rw [found] at expected
      by_cases older : snapshot.version < held.version
      · rw [if_pos (Or.inr (by simpa using older))]
        have regresses : w.memory.Regresses (.save snapshot expectedVersion) := ⟨held, found, expected.symm, older⟩
        simp [regresses]
      · rw [if_neg (by simpa using ⟨Nat.le_of_not_lt ahead, Nat.le_of_not_lt older⟩)]
        have steady : ¬w.memory.Regresses (.save snapshot expectedVersion) := by
          rintro ⟨other, isHeld, -, regress⟩
          cases found.symm.trans isHeld
          exact older regress
        simp [steady]
  · rw [if_pos expected, if_pos expected]
    simp

theorem accepted_saved {result : Except PyError Bool} : (SnapshotAnswer.saved result).Accepted ↔ result = .ok true := by
  rcases result with error | (_ | _)
  · exact ⟨False.elim, nofun⟩
  · exact ⟨False.elim, nofun⟩
  · exact ⟨fun _ => rfl, fun _ => trivial⟩

/-- Aligned stores answer a save alike exactly unless it goes back to an older snapshot. -/
theorem save_alike_iff (aligned : Aligned store w) (snapshot : Snapshot) (expectedVersion : Option Int) :
    Alike store w (.save snapshot expectedVersion) ↔ ¬w.memory.Regresses (.save snapshot expectedVersion) := by
  have tables := aligned.saveSnapshot_tables snapshot expectedVersion
  change ((SnapshotAnswer.saved (w.memory.saveSnapshot snapshot expectedVersion).1).Accepted ↔
    (SnapshotAnswer.saved (store.saveSnapshot w.tables snapshot expectedVersion).1).Accepted) ↔ _
  rw [accepted_saved, accepted_saved, tables]
  constructor
  · intro alike regresses
    have kept := mt (SnapshotStore.snapshotVersion_le_iff aligned.covered (.save snapshot expectedVersion)).mp (not_not.mpr regresses)
    rcases w.memory.saveSnapshot_cases snapshot expectedVersion with ⟨-, unchanged⟩ | ⟨-, -, saved⟩
    · refine kept fun stream => ?_
      change _ ≤ (w.memory.saveSnapshot snapshot expectedVersion).2.snapshotVersion stream
      rw [unchanged]
    · exact (alike.mp (by rw [saved])).2 regresses
  · intro steady
    exact ⟨fun saved => ⟨saved, steady⟩, fun both => both.1⟩

theorem save (aligned : Aligned store w) (snapshot : Snapshot) (expectedVersion : Option Int)
    (alike : Alike store w (.save snapshot expectedVersion)) :
    Aligned store (step store w (.save snapshot expectedVersion)).2 := by
  have covered := aligned.covered.saveSnapshot snapshot expectedVersion
  change (SnapshotAnswer.saved (w.memory.saveSnapshot snapshot expectedVersion).1).Accepted ↔
    (SnapshotAnswer.saved (store.saveSnapshot w.tables snapshot expectedVersion).1).Accepted at alike
  rw [accepted_saved, accepted_saved] at alike
  change Aligned store ⟨(w.memory.saveSnapshot snapshot expectedVersion).2, (store.saveSnapshot w.tables snapshot expectedVersion).2⟩
  rcases store.saveSnapshot_cases w.tables snapshot expectedVersion with ⟨refused, same⟩ | ⟨accepted, added⟩
  · rcases w.memory.saveSnapshot_cases snapshot expectedVersion with ⟨-, unchanged⟩ | ⟨-, -, saved⟩
    · rw [unchanged]
      exact aligned.of_tables same
    · exact absurd (alike.mp (by rw [saved])) refused
  · rcases w.memory.saveSnapshot_cases snapshot expectedVersion with ⟨unsaved, -⟩ | ⟨-, -, saved⟩
    · exact absurd (alike.mpr accepted) unsaved
    · rw [added]
      rw [saved] at covered ⊢
      refine ⟨aligned.consistent, covered, ?_, ?_, fun stream => ?_⟩
      · exact SQLAlchemyEventStore.log_lock.trans aligned.log
      · exact SQLAlchemyEventStore.position_lock.trans aligned.position
      · have before := (SQLAlchemyEventStore.loadSnapshot_lock stream).trans (aligned.snapshots stream)
        unfold SQLAlchemyEventStore.loadSnapshot SnapshotStore.loadSnapshot at before ⊢
        dsimp only
        rw [Dict.get?_set, Dict.get?_set, before]
        simp

theorem answer (aligned : Aligned store w) (call : SnapshotCall) (alike : Alike store w call) :
    Aligned store (step store w call).2 := by
  cases call with
  | append call => exact aligned.append call alike
  | save snapshot expectedVersion => exact aligned.save snapshot expectedVersion alike

end Aligned

/-- The tables have no rows of the log yet. -/
def Fresh (store : SQLAlchemyEventStore) (tables : EventTables) : Prop :=
  tables.logs.get? store.logId = none ∧ (∀ row ∈ tables.events, row.logId ≠ store.logId) ∧
    ∀ stream, tables.snapshots.get? (store.logId, stream) = none

theorem Aligned.start {tables : EventTables} (fresh : Fresh store tables) (capacity maxPageSize : Nat) :
    Aligned store ⟨.empty capacity maxPageSize, tables⟩ where
  consistent := EventStore.Consistent.start capacity maxPageSize
  covered := fun _ _ found => nomatch found
  log := by
    have none : tables.events.filter (·.logId = store.logId) = [] :=
      List.filter_eq_nil_iff.mpr fun row member => by simpa using fresh.2.1 row member
    rw [SQLAlchemyEventStore.log, none]
    rfl
  position := by
    rw [SQLAlchemyEventStore.position, fresh.1]
    rfl
  snapshots := fun stream => fresh.2.2 stream

/-- The stores after the first `k` calls. -/
def reached (store : SQLAlchemyEventStore) (init : SnapshotStores) (calls : List SnapshotCall) (k : Nat) : SnapshotStores :=
  History.after (step store) init (calls.take k)

theorem reached_succ {init : SnapshotStores} {calls : List SnapshotCall} {k : Nat} {call : SnapshotCall} (found : calls[k]? = some call) :
    reached store init calls (k + 1) = (step store (reached store init calls k) call).2 :=
  History.after_take found

theorem reached_of_length_le {init : SnapshotStores} {calls : List SnapshotCall} {k : Nat} (beyond : calls.length ≤ k) :
    reached store init calls k = reached store init calls (k + 1) := by
  unfold reached
  rw [List.take_of_length_le beyond, List.take_of_length_le (by omega)]

/-- What the start has and every call keeps is so after any number of calls. -/
theorem reached_invariant {init : SnapshotStores} {calls : List SnapshotCall} {P : SnapshotStores → Prop} (base : P init)
    (preserved : ∀ k call, calls[k]? = some call → P (reached store init calls k) → P (step store (reached store init calls k) call).2)
    (k : Nat) : P (reached store init calls k) := by
  induction k with
  | zero => exact base
  | succ k ih =>
    cases found : calls[k]? with
    | none =>
      rw [← reached_of_length_le (List.getElem?_eq_none_iff.mp found)]
      exact ih
    | some call =>
      rw [reached_succ found]
      exact preserved k call found ih

/-- Whatever is appended and saved, the snapshot of a stream covers no more than the stream. It goes
back to an older version exactly if some call saves an older snapshot in the place of the one it
expects. On a history whose appends both stores commit or refuse alike, both accept the same saves
exactly if no call does that. -/
theorem snapshots_kept_iff (store : SQLAlchemyEventStore) (capacity maxPageSize : Nat) (tables : EventTables)
    (fresh : Fresh store tables) (calls : List SnapshotCall) :
    (∀ k stream held, (reached store ⟨.empty capacity maxPageSize, tables⟩ calls k).memory.loadSnapshot stream = some held →
      held.version ≤ ((reached store ⟨.empty capacity maxPageSize, tables⟩ calls k).memory.log.stream stream).length) ∧
    ((∀ k stream, (reached store ⟨.empty capacity maxPageSize, tables⟩ calls k).memory.snapshotVersion stream ≤
        (reached store ⟨.empty capacity maxPageSize, tables⟩ calls (k + 1)).memory.snapshotVersion stream) ↔
      ∀ k call, calls[k]? = some call → ¬(reached store ⟨.empty capacity maxPageSize, tables⟩ calls k).memory.Regresses call) ∧
    ((∀ k call, calls[k]? = some (.append call) → Alike store (reached store ⟨.empty capacity maxPageSize, tables⟩ calls k) (.append call)) →
      ((∀ k snapshot expectedVersion, calls[k]? = some (.save snapshot expectedVersion) →
          Alike store (reached store ⟨.empty capacity maxPageSize, tables⟩ calls k) (.save snapshot expectedVersion)) ↔
        ∀ k call, calls[k]? = some call → ¬(reached store ⟨.empty capacity maxPageSize, tables⟩ calls k).memory.Regresses call)) := by
  have aligned := Aligned.start fresh capacity maxPageSize
  generalize (⟨.empty capacity maxPageSize, tables⟩ : SnapshotStores) = init at aligned ⊢
  have covered : ∀ k, (reached store init calls k).memory.Covered := reached_invariant (P := fun w => w.memory.Covered) aligned.covered
    fun _ call _ covered => covered.answer call
  refine ⟨covered, ⟨fun kept k call found => ?_, fun steady k stream => ?_⟩, fun appends => ⟨fun saves => ?_, fun steady => ?_⟩⟩
  · refine (SnapshotStore.snapshotVersion_le_iff (covered k) call).mp fun stream => ?_
    have here := kept k stream
    rw [reached_succ found] at here
    exact here
  · cases found : calls[k]? with
    | none =>
      rw [← reached_of_length_le (List.getElem?_eq_none_iff.mp found)]
    | some call =>
      rw [reached_succ found]
      exact (SnapshotStore.snapshotVersion_le_iff (covered k) call).mpr (steady k call found) stream
  · have every : ∀ k, Aligned store (reached store init calls k) := by
      refine reached_invariant aligned fun k call found aligned => aligned.answer call ?_
      cases call with
      | append call => exact appends k call found
      | save snapshot expectedVersion => exact saves k snapshot expectedVersion found
    intro k call found
    cases call with
    | append call => exact id
    | save snapshot expectedVersion => exact ((every k).save_alike_iff snapshot expectedVersion).mp (saves k snapshot expectedVersion found)
  · have every : ∀ k, Aligned store (reached store init calls k) := by
      refine reached_invariant aligned fun k call found aligned => aligned.answer call ?_
      cases call with
      | append call => exact appends k call found
      | save snapshot expectedVersion => exact (aligned.save_alike_iff snapshot expectedVersion).mpr (steady k _ found)
    intro k snapshot expectedVersion found
    exact ((every k).save_alike_iff snapshot expectedVersion).mpr (steady k _ found)

def sampleLog : SQLAlchemyEventStore := ⟨"log", 5, by decide⟩

def sampleSnapshot (version : Nat) (positive : 0 < version) : Snapshot :=
  ⟨EventStore.sampleStream, version, .null, 0, positive, null_valid⟩

def twoEvents : EventStore.AppendCall :=
  ⟨EventStore.sampleStream, 0, [EventStore.sampleEvent "e1" Sample.e1_named, EventStore.sampleEvent "e2" Sample.e2_named]⟩

/-- Empty stores. -/
def unused : SnapshotStores := ⟨.empty 8 5, ⟨.empty, [], .empty⟩⟩

/-- Snapshots of growing versions are saved by both stores. -/
theorem growing_kept :
    let calls := [.append twoEvents, .save (sampleSnapshot 1 (by decide)) none, .save (sampleSnapshot 2 (by decide)) (some 1)]
    (∀ k snapshot expectedVersion, calls[k]? = some (.save snapshot expectedVersion) →
      Alike sampleLog (reached sampleLog unused calls k) (.save snapshot expectedVersion)) ∧
    (reached sampleLog unused calls 3).memory.snapshotVersion EventStore.sampleStream = 2 := by
  intro calls
  have fresh : Fresh sampleLog unused.tables := ⟨rfl, fun _ member => (nomatch member), fun _ => rfl⟩
  have kept := (snapshots_kept_iff sampleLog 8 5 unused.tables fresh calls).2.2
  refine ⟨(kept fun k call found => ?_).mpr fun k call found => ?_, rfl⟩
  · match k with
    | 0 =>
      cases Option.some.inj found
      exact (Aligned.start fresh 8 5).append_alike twoEvents ⟨by decide, by decide⟩
    | 1 | 2 => cases Option.some.inj found
    | k + 3 => cases found
  · match k with
    | 0 =>
      cases Option.some.inj found
      exact id
    | 1 =>
      cases Option.some.inj found
      rintro ⟨held, isHeld, -⟩
      cases isHeld
    | 2 =>
      cases Option.some.inj found
      rintro ⟨held, isHeld, -, older⟩
      cases Option.some.inj isHeld
      exact absurd older (by decide)
    | k + 3 => cases found

/-- A snapshot of version 1 takes the place of one of version 2 in memory, while the tables refuse it. -/
theorem older_taken :
    let before := reached sampleLog unused [.append twoEvents, .save (sampleSnapshot 2 (by decide)) none] 2
    let after := step sampleLog before (.save (sampleSnapshot 1 (by decide)) (some 2))
    before.memory.snapshotVersion EventStore.sampleStream = 2 ∧ after.2.memory.snapshotVersion EventStore.sampleStream = 1 ∧
      after.1.1 = .saved (.ok true) ∧
      after.1.2 = .saved (.error (.valueError "snapshot must not exceed its stream or regress")) :=
  ⟨rfl, rfl, rfl, rfl⟩

end SnapshotStores

end Pytitect
