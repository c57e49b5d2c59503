import Mathlib.Data.List.Sort
import Pytitect.EventSourcing.Paging
import Pytitect.SqlAlchemy.Platform

namespace Pytitect

/-- What a session does with the tables of the platform. -/
abbrev PlatformTask (α : Type) : Type := RowLocks.Session PlatformTables PlatformWrite PlatformRow PyError α

namespace PlatformTables

/-- `ORDER BY` a number, `LIMIT` one more than the page, of what follows a position. -/
def page (number : StoredEvent → Nat) (events : List StoredEvent) (after : Int) (limit : Nat) : EventPage :=
  let rows := ((events.filter fun event => after < number event).insertionSort (number · ≤ number ·)).take (limit + 1)
  let selected := rows.take limit
  ⟨selected, (selected.getLast?.map fun event => (number event : Int)).getD after, rows.length ≤ limit⟩

end PlatformTables

namespace EventStatements
open RowLocks.Session PlatformTables
variable (store : SQLAlchemyEventStore) (i : Nat)

/-- `_lock`, here as the other methods of `SQLAlchemyEventStore` statement by statement in session `i`. It answers the position of the row. -/
def lock : PlatformTask Nat :=
  acquire PlatformWrite.apply i (.log store.logId)
    (fun tables => if (tables.log store.logId).position.isNone then some (.createLog store.logId) else none)
    fun tables => (tables.log store.logId).position.getD 0

def watermark : PlatformTask Nat := query PlatformWrite.apply i fun tables => (tables.log store.logId).position.getD 0

/-- `coalesce(max(stream_version), 0)` over the rows of the stream. -/
def version (id : StreamId) : PlatformTask Nat :=
  query PlatformWrite.apply i fun tables => (((tables.log store.logId).stream id).map (·.streamVersion)).max?.getD 0

/-- `append`. The query for a known event id names no order; it is taken to find the first row. -/
def append (id : StreamId) (expectedVersion : Int) (events : List NewEvent) : PlatformTask AppendResult :=
  let identifiers := events.map (·.eventId)
  if expectedVersion < 0 ∨ events = [] ∨ store.maxPageSize < events.length then
    Coroutine.raise (.valueError "append requires a bounded nonempty batch and nonnegative version")
  else
    match identifiers.find? (fun identifier => 1 < identifiers.count identifier) with
    | some identifier => pure (.duplicateEventId identifier)
    | none => do
      let position ← lock store i
      let actual ← version store i id
      if (actual : Int) ≠ expectedVersion then return .wrongExpectedVersion expectedVersion actual
      else
        let duplicate ← query PlatformWrite.apply i fun tables =>
          (tables.log store.logId).events.find? (·.event.eventId ∈ identifiers)
        match duplicate with
        | some duplicate => return .duplicateEventId duplicate.event.eventId
        | none =>
          let stored := LogPart.number id actual position events
          change i (.append store.logId stored (position + stored.length))
          return .committed (actual + 1) (actual + events.length) stored

/-- `_arguments` -/
def arguments (position limit : Int) : PlatformTask Unit :=
  if position < 0 ∨ ¬(1 ≤ limit ∧ limit ≤ store.maxPageSize) then
    Coroutine.raise (.valueError "page position or bounded limit is invalid")
  else pure ()

def readStream (id : StreamId) (afterVersion limit : Int) : PlatformTask EventPage := do
  arguments store afterVersion limit
  query PlatformWrite.apply i fun tables => page (·.streamVersion) ((tables.log store.logId).stream id) afterVersion limit.toNat

def readAll (afterPosition limit : Int) : PlatformTask EventPage := do
  arguments store afterPosition limit
  query PlatformWrite.apply i fun tables => page (·.globalPosition) (tables.log store.logId).events afterPosition limit.toNat

def loadSnapshot (stream : StreamId) : PlatformTask (Option Snapshot) :=
  query PlatformWrite.apply i fun tables => (tables.log store.logId).snapshots stream

def saveSnapshot (snapshot : Snapshot) (expectedVersion : Option Int) : PlatformTask Bool := do
  let _ ← lock store i
  let current ← loadSnapshot store i snapshot.stream
  if current.map (fun held => (held.version : Int)) ≠ expectedVersion then return false
  else
    let actual ← version store i snapshot.stream
    if actual < snapshot.version ∨ current.any (fun held => snapshot.version < held.version) then
      Coroutine.raise (.valueError "snapshot must not exceed its stream or regress")
    else
      change i (.saveSnapshot store.logId snapshot)
      return true

end EventStatements

namespace PlatformTables
open RowLocks
variable {definitions : Nat → ProjectionDefinition} {projected : String} {store : SQLAlchemyEventStore} {i : Nat}
  {d : Database PlatformTables PlatformWrite PlatformRow} {tables later : PlatformTables}

/-- A page of a numbered list is the section behind the position, as it is in memory. -/
theorem page_numbered {number : StoredEvent → Nat} {events : List StoredEvent} (numbered : events.Numbered number)
    (after limit : Nat) : page number events after limit = EventStore.page number events after limit := by
  have available : events.filter (fun event => ((after : Int) < number event : Bool)) = events.drop after := by
    rw [← numbered.filter_beyond after]
    exact List.filter_congr fun event _ => by simp
  have ascending : events.Pairwise (number · ≤ number ·) := by
    have sorted : (events.map number).Pairwise (· < ·) := by
      rw [numbered]
      exact List.pairwise_lt_range'
    exact (List.pairwise_map.mp sorted).imp fun less => Nat.le_of_lt less
  have ordered : (events.drop after).insertionSort (number · ≤ number ·) = events.drop after :=
    (ascending.sublist (List.drop_sublist after events)).insertionSort_eq
  unfold page EventStore.page
  rw [available, ordered]
  have short : ((events.drop after).take (limit + 1)).take limit = (events.drop after).take limit := by
    rw [List.take_take, Nat.min_eq_left (Nat.le_succ limit)]
  dsimp only
  rw [short]
  congr 1
  rw [List.length_take]
  simp only [decide_eq_decide]
  omega

/-- The page is what stands in a list behind a position. -/
structure IsSection (events : List StoredEvent) (after : Int) (page : EventPage) : Prop where
  low : 0 ≤ after
  events : page.events = (events.drop after.toNat).take page.events.length
  next : page.nextPosition = after + page.events.length

theorem IsSection.mono {events longer : List StoredEvent} {after : Int} {page : EventPage} (isSection : IsSection events after page)
    (grown : events <+: longer) : IsSection longer after page :=
  ⟨isSection.low, List.read_mono isSection.events grown, isSection.next⟩

theorem isSection_page {number : StoredEvent → Nat} {events : List StoredEvent} (numbered : events.Numbered number) {after : Int}
    (low : 0 ≤ after) (limit : Nat) : IsSection events after (page number events after limit) := by
  obtain ⟨n, rfl⟩ := Int.eq_ofNat_of_zero_le low
  rw [page_numbered numbered, EventStore.page_numbered numbered]
  refine ⟨low, ?_, ?_⟩
  · dsimp only
    rw [Int.toNat_natCast, List.length_take, List.take_eq_take_min]
  · dsimp only
    omega

/-- The events that an append reports stand where it put them, in the log and in their stream. -/
def Recorded (logId : String) (id : StreamId) (events : List NewEvent) (tables : PlatformTables) : AppendResult → Prop
  | .committed first last stored => ∃ version position, stored = LogPart.number id version position events ∧
      first = version + 1 ∧ last = version + events.length ∧ (tables.log logId).events.Follows position stored ∧
      ((tables.log logId).stream id).Follows version stored
  | _ => True

/-- A snapshot has been saved, and has been replaced by none that is older. -/
def Saved (logId : String) (snapshot : Snapshot) (tables : PlatformTables) : Prop :=
  ∃ later, (tables.log logId).snapshots snapshot.stream = some later ∧ snapshot.version ≤ later.version

theorem grown_stream {before after : LogPart} (grown : before.events <+: after.events) (id : StreamId) :
    before.stream id <+: after.stream id := grown.filter _

theorem grown_events (grown : Grown (discipline definitions projected) tables later) (logId : String) :
    (tables.log logId).events <+: (later.log logId).events := LogPart.Grows.events (grown (.log logId))

theorem lasting_recorded (logId : String) (id : StreamId) (events : List NewEvent) (result : AppendResult) :
    Lasting (discipline definitions projected) fun tables => Recorded logId id events tables result := by
  intro s t grown recorded
  have longer := grown_events grown logId
  cases result with
  | committed first last stored =>
    obtain ⟨version, position, numbers, atFirst, atLast, inLog, inStream⟩ := recorded
    exact ⟨version, position, numbers, atFirst, atLast, inLog.mono longer, inStream.mono (grown_stream longer id)⟩
  | wrongExpectedVersion _ _ => trivial
  | duplicateEventId _ => trivial

theorem lasting_section (logId : String) (after : Int) (page : EventPage) :
    Lasting (discipline definitions projected) fun tables => IsSection (tables.log logId).events after page :=
  fun _ _ grown isSection => isSection.mono (grown_events grown logId)

theorem lasting_streamSection (logId : String) (id : StreamId) (after : Int) (page : EventPage) :
    Lasting (discipline definitions projected) fun tables => IsSection ((tables.log logId).stream id) after page :=
  fun _ _ grown isSection => isSection.mono (grown_stream (grown_events grown logId) id)

theorem lasting_saved (logId : String) (snapshot : Snapshot) : Lasting (discipline definitions projected) (Saved logId snapshot) := by
  intro s t grown saved
  obtain ⟨held, found, older⟩ := saved
  obtain ⟨last, foundLast, olderLast⟩ := LogPart.Grows.snapshots (grown (.log logId)) _ held found
  exact ⟨last, foundLast, Nat.le_trans older olderLast⟩

/-- A statement that only reads adds what it has read to what is known. -/
theorem query_safe {α : Type} {frame : PlatformTables → Prop} {f : PlatformTables → α}
    {fact : α → PlatformTables → Prop} (lasting : Lasting (discipline definitions projected) frame)
    (lastingFact : ∀ a, Lasting (discipline definitions projected) (fact a))
    (reads : ∀ tables, Good definitions projected none tables → fact (f tables) tables)
    (now : Knows (discipline definitions projected) i frame d) :
    (protocol (discipline definitions projected)).Safe i
      (Ends fun a d => Knows (discipline definitions projected) i frame d ∧ fact a (d.view PlatformWrite.apply i))
      (Session.query PlatformWrite.apply i f : PlatformTask α) d :=
  safe_query (Knows.stays lasting) (fun a => (Knows.stays lasting).and (lastingFact a).enduring.stays)
    (fun _ _ known => ⟨known, reads _ known.1⟩) now

/-- `_lock` tells how long the log is, which stays so while the row is locked. -/
theorem lock_safe {frame : PlatformTables → Prop} (lasting : Lasting (discipline definitions projected) frame)
    (now : Knows (discipline definitions projected) i frame d) :
    (protocol (discipline definitions projected)).Safe i
      (Ends fun position d => Knows (discipline definitions projected) i frame d ∧
        Holds schema i (.log store.logId) (fun part : LogPart => part.Consistent ∧ position = part.events.length) d)
      (EventStatements.lock store i) d := by
  refine safe_acquire (Knows.stays lasting) (fun position => (Knows.stays lasting).and (Holds.stays _ _)) ?_ ?_ now
  · intro d _ known found
    have consistent := known.1.logs store.logId
    refine ⟨?_, mem_locks_lock _, ?_⟩
    · unfold Knows
      rw [view_lock]
      exact known
    · rw [view_lock]
      exact ⟨consistent, consistent.counted⟩
  · intro d w _ known found
    have consistent := known.1.logs store.logId
    split at found
    · rename_i absent
      cases found
      have created : ((PlatformWrite.apply (.createLog store.logId) (d.view PlatformWrite.apply i)).log store.logId).Consistent := by
        rw [log_createLog]
        exact consistent.create (Option.isNone_iff_eq_none.mp absent)
      have grown : Grown (discipline definitions projected) (d.view PlatformWrite.apply i)
          ((PlatformWrite.createLog store.logId).apply (d.view PlatformWrite.apply i)) := by
        refine grown_write ?_
        change LogPart.Grows _ (PlatformTables.log _ store.logId)
        rw [log_createLog]
        exact ⟨List.prefix_refl _, fun _ held found => ⟨held, found, Nat.le_refl _⟩⟩
      refine ⟨fun other touches => touches.symm, grown, ?_, ?_, ?_⟩
      · unfold Knows
        rw [view_write, view_lock]
        exact ⟨known.1.of_log rfl created (grown (.log store.logId)), lasting _ _ grown known.2⟩
      · rw [journal_write, locks_append]
        exact List.mem_append_left _ (mem_locks_lock _)
      · rw [view_write, view_lock]
        exact ⟨created, created.counted⟩
    · cases found

/-- What is read of a log while its row is locked stays as it was read. -/
theorem held_query {α : Type} {frame : PlatformTables → Prop} {logId : String} {known : LogPart → Prop} {f : LogPart → α}
    (lasting : Lasting (discipline definitions projected) frame)
    (now : Knows (discipline definitions projected) i frame d ∧ Holds schema i (.log logId) known d) :
    (protocol (discipline definitions projected)).Safe i
      (Ends fun a d => Knows (discipline definitions projected) i frame d ∧
        Holds schema i (.log logId) (fun part => known part ∧ a = f part) d)
      (Session.query PlatformWrite.apply i (fun tables => f (tables.log logId)) : PlatformTask α) d :=
  safe_query ((Knows.stays lasting).and (Holds.stays _ _)) (fun _ => (Knows.stays lasting).and (Holds.stays _ _))
    (fun _ _ known => ⟨known.1, known.2.1, known.2.2, rfl⟩) now

theorem version_safe {frame : PlatformTables → Prop} {known : LogPart → Prop} (consistent : ∀ part, known part → part.Consistent)
    (id : StreamId) (lasting : Lasting (discipline definitions projected) frame)
    (now : Knows (discipline definitions projected) i frame d ∧ Holds schema i (.log store.logId) known d) :
    (protocol (discipline definitions projected)).Safe i
      (Ends fun version d => Knows (discipline definitions projected) i frame d ∧
        Holds schema i (.log store.logId) (fun part => known part ∧ version = (part.stream id).length) d)
      (EventStatements.version store i id) d :=
  safe_query ((Knows.stays lasting).and (Holds.stays _ _)) (fun _ => (Knows.stays lasting).and (Holds.stays _ _))
    (fun _ _ holds => ⟨holds.1, holds.2.1, holds.2.2, ((consistent _ holds.2.2).versions id).max?_getD⟩) now

/-- A write to a log whose row is locked. -/
theorem log_change_safe {frame fact : PlatformTables → Prop} {logId : String} {known : LogPart → Prop} {write : PlatformWrite}
    (lasting : Lasting (discipline definitions projected) frame) (lastingFact : Lasting (discipline definitions projected) fact)
    (own : write.row = .log logId)
    (consistent : ∀ tables : PlatformTables, known (tables.log logId) → ((write.apply tables).log logId).Consistent)
    (grows : ∀ tables : PlatformTables, known (tables.log logId) → LogPart.Grows (tables.log logId) ((write.apply tables).log logId))
    (reached : ∀ tables : PlatformTables, known (tables.log logId) → fact (write.apply tables))
    (now : Knows (discipline definitions projected) i frame d ∧ Holds schema i (.log logId) known d) :
    (protocol (discipline definitions projected)).Safe i
      (Ends fun _ d => Knows (discipline definitions projected) i frame d ∧ fact (d.view PlatformWrite.apply i))
      (Session.change i write : PlatformTask Unit) d := by
  refine safe_change ((Knows.stays lasting).and (Holds.stays _ _)) ((Knows.stays lasting).and lastingFact.enduring.stays)
    (fun d _ known => ?_) now
  obtain ⟨⟨good, framed⟩, locked, holds⟩ := known
  have grown : Grown (discipline definitions projected) (d.view PlatformWrite.apply i) (write.apply (d.view PlatformWrite.apply i)) := by
    refine grown_write ?_
    rw [own]
    exact grows _ holds
  refine ⟨fun row touches => ?_, grown, ?_, ?_⟩
  · change write.row = row at touches
    rw [← touches, own]
    exact locked
  · unfold Knows
    rw [view_write]
    exact ⟨good.of_log own (consistent _ holds) (grows _ holds), lasting _ _ grown framed⟩
  · change fact ((d.write i write).view schema.write i)
    rw [view_write]
    exact reached _ holds

/-- While its row is locked the log ends at the position that was read, the stream at its version,
and the events are new to it. -/
def Appendable (id : StreamId) (events : List NewEvent) (version position : Nat) (part : LogPart) : Prop :=
  part.Consistent ∧ position = part.events.length ∧ version = (part.stream id).length ∧
    ∀ event ∈ events, event.eventId ∉ part.events.map (·.event.eventId)

theorem appended_recorded {id : StreamId} {events : List NewEvent} {version position : Nat} {logId : String} {tables : PlatformTables}
    (distinct : (events.map (·.eventId)).Nodup) (appendable : Appendable id events version position (tables.log logId)) :
    let write := PlatformWrite.append logId (LogPart.number id version position events) (position + events.length)
    ((write.apply tables).log logId).Consistent ∧ LogPart.Grows (tables.log logId) ((write.apply tables).log logId) ∧
      Recorded logId id events (write.apply tables)
        (.committed (version + 1) (version + events.length) (LogPart.number id version position events)) := by
  obtain ⟨consistent, rfl, rfl, fresh⟩ := appendable
  intro write
  have logged : (write.apply tables).log logId = { tables.log logId with
      position := some ((tables.log logId).events.length + events.length)
      events := (tables.log logId).events ++
        LogPart.number id ((tables.log logId).stream id).length (tables.log logId).events.length events } := log_append _ _
  refine ⟨?_, ?_, _, _, rfl, rfl, rfl, ?_, ?_⟩
  · rw [logged]
    exact consistent.append id distinct fresh
  · rw [logged]
    exact LogPart.grows_append _ _
  · rw [logged]
    refine ⟨by simp, ?_⟩
    rw [List.take_left]
  · rw [logged]
    have mine : ∀ event ∈ LogPart.number id ((tables.log logId).stream id).length (tables.log logId).events.length events,
        decide (event.stream = id) = true := fun event member => decide_eq_true (LogPart.stream_of_mem_number member)
    have split : LogPart.stream { tables.log logId with
        position := some ((tables.log logId).events.length + events.length)
        events := (tables.log logId).events ++
          LogPart.number id ((tables.log logId).stream id).length (tables.log logId).events.length events } id =
        (tables.log logId).stream id ++
          LogPart.number id ((tables.log logId).stream id).length (tables.log logId).events.length events := by
      unfold LogPart.stream at mine ⊢
      rw [List.filter_append, List.filter_eq_self.mpr mine]
    rw [split]
    refine ⟨by simp, ?_⟩
    rw [List.take_left]

theorem append_establishes (id : StreamId) (expectedVersion : Int) (events : List NewEvent) :
    Establishes (discipline definitions projected) i (fun result tables => Recorded store.logId id events tables result)
      (EventStatements.append store i id expectedVersion events) := by
  intro frame lasting d kept known
  have answer : ∀ {result : AppendResult} {e : Database PlatformTables PlatformWrite PlatformRow},
      Knows (discipline definitions projected) i frame e → Recorded store.logId id events (e.view PlatformWrite.apply i) result →
      (protocol (discipline definitions projected)).Safe i
        (Ends fun result e => Knows (discipline definitions projected) i frame e ∧
          Recorded store.logId id events (e.view PlatformWrite.apply i) result) (pure result : PlatformTask AppendResult) e :=
    fun knows recorded => safe_pure ((Knows.stays lasting).and (lasting_recorded _ _ _ _).enduring.stays) ⟨knows, recorded⟩
  unfold EventStatements.append
  dsimp only
  split
  · exact Protocol.Safe.done fun _ _ _ => trivial
  split
  · exact answer known trivial
  rename_i single
  have distinct : (events.map (·.eventId)).Nodup := by
    refine List.nodup_iff_count_le_one.mpr fun identifier => ?_
    by_cases member : identifier ∈ events.map (·.eventId)
    · have once := List.find?_eq_none.mp single identifier member
      simp only [decide_eq_true_eq] at once
      omega
    · rw [List.count_eq_zero_of_not_mem member]
      exact Nat.zero_le _
  refine Protocol.Safe.bind (lock_safe lasting known) kept (fun position d kept known => ?_) fun _ _ _ _ => trivial
  refine Protocol.Safe.bind (version_safe (fun _ holds => holds.1) id lasting known) kept (fun actual d kept known => ?_)
    fun _ _ _ _ => trivial
  split
  · exact answer known.1 trivial
  refine Protocol.Safe.bind
    (held_query (f := fun part => part.events.find? (·.event.eventId ∈ events.map (·.eventId))) lasting known) kept
    (fun duplicate d kept known => ?_) fun _ _ _ _ => trivial
  split
  · exact answer known.1 trivial
  rw [LogPart.length_number]
  have ready : Holds schema i (.log store.logId) (Appendable id events actual position) d := by
    refine known.2.mono fun part holds => ?_
    obtain ⟨⟨⟨consistent, atPosition⟩, atVersion⟩, absent⟩ := holds
    refine ⟨consistent, atPosition, atVersion, fun event member inLog => ?_⟩
    obtain ⟨stored, isStored, same⟩ := List.mem_map.mp inLog
    exact List.find?_eq_none.mp absent.symm stored isStored (decide_eq_true (same ▸ List.mem_map_of_mem member))
  have written := log_change_safe lasting
    (lasting_recorded store.logId id events
      (.committed (actual + 1) (actual + events.length) (LogPart.number id actual position events))) rfl
    (fun tables holds => (appended_recorded distinct holds).1) (fun tables holds => (appended_recorded distinct holds).2.1)
    (fun tables holds => (appended_recorded distinct holds).2.2) ⟨known.1, ready⟩
  exact Protocol.Safe.bind written kept (fun _ d _ known => answer known.1 known.2) fun _ _ _ _ => trivial

theorem saveSnapshot_establishes (snapshot : Snapshot) (expectedVersion : Option Int) :
    Establishes (discipline definitions projected) i (fun saved tables => saved = true → Saved store.logId snapshot tables)
      (EventStatements.saveSnapshot store i snapshot expectedVersion) := by
  intro frame lasting d kept known
  have lastingSaved : ∀ saved : Bool,
      Lasting (discipline definitions projected) fun tables => saved = true → Saved store.logId snapshot tables :=
    fun _ => Lasting.forall fun _ => lasting_saved store.logId snapshot
  have answer : ∀ {saved : Bool} {e : Database PlatformTables PlatformWrite PlatformRow},
      Knows (discipline definitions projected) i frame e →
      (saved = true → Saved store.logId snapshot (e.view PlatformWrite.apply i)) →
      (protocol (discipline definitions projected)).Safe i
        (Ends fun saved e => Knows (discipline definitions projected) i frame e ∧
          (saved = true → Saved store.logId snapshot (e.view PlatformWrite.apply i))) (pure saved : PlatformTask Bool) e :=
    fun knows holds => safe_pure ((Knows.stays lasting).and (lastingSaved _).enduring.stays) ⟨knows, holds⟩
  unfold EventStatements.saveSnapshot
  refine Protocol.Safe.bind (lock_safe lasting known) kept (fun position d kept known => ?_) fun _ _ _ _ => trivial
  refine Protocol.Safe.bind (held_query (f := fun part => part.snapshots snapshot.stream) lasting known) kept
    (fun current d kept known => ?_) fun _ _ _ _ => trivial
  split
  · exact answer known.1 (by simp)
  refine Protocol.Safe.bind (version_safe (fun _ holds => holds.1.1) snapshot.stream lasting known) kept
    (fun actual d kept known => ?_) fun _ _ _ _ => trivial
  split
  · exact Protocol.Safe.done fun _ _ _ => trivial
  rename_i allowed
  obtain ⟨inside, newer⟩ := not_or.mp allowed
  have written : (protocol (discipline definitions projected)).Safe i _
      (Session.change i (.saveSnapshot store.logId snapshot) : PlatformTask Unit) d :=
    log_change_safe lasting (lasting_saved store.logId snapshot) rfl
    (fun tables holds => by
      obtain ⟨⟨⟨consistent, -⟩, -⟩, rfl⟩ := holds
      rw [log_saveSnapshot]
      exact consistent.save (Nat.le_of_not_lt inside))
    (fun tables holds => by
      obtain ⟨⟨-, rfl⟩, -⟩ := holds
      rw [log_saveSnapshot]
      refine LogPart.grows_save fun held found => ?_
      rw [found] at newer
      simpa using newer)
    (fun tables _ => ⟨snapshot, by rw [log_saveSnapshot]; exact if_pos rfl, Nat.le_refl _⟩) known
  exact Protocol.Safe.bind written kept (fun _ d _ known => answer known.1 fun _ => known.2) fun _ _ _ _ => trivial

/-- A read with valid arguments is a query. -/
theorem read_establishes {page : PlatformTables → EventPage} {position limit : Int} {fact : EventPage → PlatformTables → Prop}
    (lastingFact : ∀ page, Lasting (discipline definitions projected) (fact page))
    (reads : 0 ≤ position → ∀ tables, Good definitions projected none tables → fact (page tables) tables) :
    Establishes (discipline definitions projected) i fact (do
      EventStatements.arguments store position limit
      Session.query PlatformWrite.apply i page : PlatformTask EventPage) := by
  intro frame lasting d kept known
  unfold EventStatements.arguments
  split
  · exact Protocol.Safe.done fun _ _ _ => trivial
  · rename_i valid
    exact query_safe lasting lastingFact (reads (by omega)) known

theorem readAll_establishes (after limit : Int) :
    Establishes (discipline definitions projected) i (fun page tables => IsSection (tables.log store.logId).events after page)
      (EventStatements.readAll store i after limit) :=
  read_establishes (lasting_section store.logId after) fun low _ good => isSection_page (good.logs store.logId).positions low _

theorem readStream_establishes (id : StreamId) (after limit : Int) :
    Establishes (discipline definitions projected) i (fun page tables => IsSection ((tables.log store.logId).stream id) after page)
      (EventStatements.readStream store i id after limit) :=
  read_establishes (lasting_streamSection store.logId id after) fun low _ good =>
    isSection_page ((good.logs store.logId).versions id) low _

/-- A snapshot that was found has been replaced by none that is older. -/
def Found (logId : String) (stream : StreamId) (found : Option Snapshot) (tables : PlatformTables) : Prop :=
  ∀ held, found = some held → ∃ later, (tables.log logId).snapshots stream = some later ∧ held.version ≤ later.version

theorem lasting_found (logId : String) (stream : StreamId) (found : Option Snapshot) :
    Lasting (discipline definitions projected) (Found logId stream found) := by
  intro s t grown stored held same
  obtain ⟨middle, foundMiddle, older⟩ := stored held same
  obtain ⟨last, foundLast, olderLast⟩ := LogPart.Grows.snapshots (grown (.log logId)) stream middle foundMiddle
  exact ⟨last, foundLast, Nat.le_trans older olderLast⟩

theorem loadSnapshot_establishes (stream : StreamId) :
    Establishes (discipline definitions projected) i (Found store.logId stream) (EventStatements.loadSnapshot store i stream) :=
  fun _ lasting _ _ known => query_safe lasting (lasting_found store.logId stream)
    (fun _ _ held found => ⟨held, found, Nat.le_refl _⟩) known

theorem lasting_watermark (logId : String) (position : Nat) :
    Lasting (discipline definitions projected) fun tables => position ≤ (tables.log logId).events.length :=
  fun _ _ grown inside => Nat.le_trans inside (grown_events grown logId).length_le

theorem watermark_establishes :
    Establishes (discipline definitions projected) i (fun position tables => position ≤ (tables.log store.logId).events.length)
      (EventStatements.watermark store i) :=
  fun _ lasting _ _ known => query_safe lasting (lasting_watermark store.logId)
    (fun _ good => Nat.le_of_eq (good.logs store.logId).counted) known

/-- `_lock` in a session that meets no other is the lock of the tables. -/
theorem lock_alone (free : d.free i (.log store.logId)) :
    ∃ e, (EventStatements.lock store i).alone .done d = (some (.ok (store.position (store.lock (d.view PlatformWrite.apply i).events))), e) ∧
      e.committed = d.committed ∧
      e.view PlatformWrite.apply i = { d.view PlatformWrite.apply i with events := store.lock (d.view PlatformWrite.apply i).events } := by
  obtain ⟨e, ends, same, seen⟩ : ∃ e, (EventStatements.lock store i).alone .done d =
        (some (.ok (((e.view PlatformWrite.apply i).log store.logId).position.getD 0)), e) ∧ e.committed = d.committed ∧
      e.view PlatformWrite.apply i =
        (if ((d.view PlatformWrite.apply i).log store.logId).position.isNone then some (PlatformWrite.createLog store.logId)
          else none).elim (d.view PlatformWrite.apply i) (·.apply (d.view PlatformWrite.apply i)) := Session.alone_acquire free
  have viewed : e.view PlatformWrite.apply i =
      { d.view PlatformWrite.apply i with events := store.lock (d.view PlatformWrite.apply i).events } := by
    rw [seen]
    generalize d.view PlatformWrite.apply i = tables
    cases found : tables.events.logs.get? store.logId with
    | none => simp [PlatformWrite.apply, SQLAlchemyEventStore.lock, log, found]
    | some position => simp [SQLAlchemyEventStore.lock, log, found]
  refine ⟨e, ?_, same, viewed⟩
  rw [viewed] at ends
  exact ends

/-- Without interleaving, the statements of an append come to the append of the tables. -/
theorem append_alone (free : d.free i (.log store.logId)) (id : StreamId) (expectedVersion : Int) (events : List NewEvent) :
    let before := d.view PlatformWrite.apply i
    ∃ e, (EventStatements.append store i id expectedVersion events).alone .done d =
        (some (store.append before.events id expectedVersion events).1, e) ∧ e.committed = d.committed ∧
      e.view PlatformWrite.apply i = { before with events := (store.append before.events id expectedVersion events).2 } := by
  intro before
  unfold EventStatements.append SQLAlchemyEventStore.append
  dsimp only
  split
  · exact ⟨d, rfl, rfl, rfl⟩
  cases (events.map (·.eventId)).find? (fun identifier => 1 < (events.map (·.eventId)).count identifier) with
  | some identifier => exact ⟨d, rfl, rfl, rfl⟩
  | none =>
    dsimp only
    obtain ⟨e, locked, same, seen⟩ := lock_alone free
    rw [Coroutine.alone_bind locked]
    have version : (EventStatements.version store i id).alone .done e =
        (some (.ok (store.version (store.lock before.events) id)), e) := by
      unfold EventStatements.version
      rw [Session.alone_query, seen]
      rfl
    rw [Coroutine.alone_bind version]
    split
    · exact ⟨e, rfl, same, seen⟩
    have known : (Session.query PlatformWrite.apply i
          (fun tables => (tables.log store.logId).events.find? (·.event.eventId ∈ events.map (·.eventId))) :
          PlatformTask (Option StoredEvent)).alone .done e =
        (some (.ok (((e.view PlatformWrite.apply i).log store.logId).events.find? (·.event.eventId ∈ events.map (·.eventId)))), e) := rfl
    rw [Coroutine.alone_bind known, seen]
    change ∃ e, Coroutine.alone _ (match (store.log (store.lock before.events)).find? _ with | some _ => _ | none => _) _ = _ ∧ _
    cases (store.log (store.lock before.events)).find? (·.event.eventId ∈ events.map (·.eventId)) with
    | some duplicate => exact ⟨e, rfl, same, seen⟩
    | none =>
      refine ⟨e.write i (.append store.logId (store.number (store.lock before.events) id events)
        (store.position (store.lock before.events) + (store.number (store.lock before.events) id events).length)), rfl, same, ?_⟩
      have written : ∀ write, (e.write i write).view PlatformWrite.apply i = write.apply (e.view PlatformWrite.apply i) :=
        fun write => @view_write _ _ _ schema _ _ write
      rw [written, seen]
      rfl

end PlatformTables

end Pytitect
