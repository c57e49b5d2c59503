import Pytitect.SqlAlchemy.Projections

namespace Pytitect.PlatformTables
open RowLocks ProjectionRuntime
variable {definitions : Nat → ProjectionDefinition} {store : SQLAlchemyEventStore} {i : Nat}
  {d : Database PlatformTables PlatformWrite PlatformRow} {frame : PlatformTables → Prop} {K : Database PlatformTables PlatformWrite PlatformRow → Prop}

/-- A state of a projection is a fold of the log, and the projection has not gone back behind it. -/
def Projected (definitions : Nat → ProjectionDefinition) (logId : String) (state : ProjectionState) (tables : PlatformTables) : Prop :=
  Folded definitions (tables.log logId).events state.version state.checkpoint state.state ∧
    ∃ later, tables.projections.get? state.key = some later ∧ state.version ≤ later.version ∧ state.checkpoint ≤ later.checkpoint

theorem lasting_folded (logId : String) (version checkpoint : Nat) (state : JsonValue) :
    Lasting (discipline definitions store.logId) fun tables => Folded definitions (tables.log logId).events version checkpoint state :=
  fun _ _ grown folded => folded.mono (grown_events grown logId)

theorem lasting_projected (state : ProjectionState) :
    Lasting (discipline definitions store.logId) (Projected definitions store.logId state) := by
  refine (lasting_folded _ _ _ _).and fun s t grown stored => ?_
  obtain ⟨middle, found, version, checkpoint⟩ := stored
  obtain ⟨last, foundLast, versionLast, checkpointLast⟩ := grown (.projection state.key) middle found
  exact ⟨last, foundLast, Nat.le_trans version versionLast, Nat.le_trans checkpoint checkpointLast⟩

/-- Everything but one projection is good in what the session sees. -/
def Open (definitions : Nat → ProjectionDefinition) (logId : String) (i : Nat) (key : ProjectionKey) (frame : PlatformTables → Prop)
    (d : Database PlatformTables PlatformWrite PlatformRow) : Prop :=
  Good definitions logId (some key) (d.view PlatformWrite.apply i) ∧ frame (d.view PlatformWrite.apply i)

theorem Open.stays (key : ProjectionKey) (lasting : Lasting (discipline definitions store.logId) frame) :
    Stays (discipline definitions store.logId) i (Open definitions store.logId i key frame) := by
  have enduring : Enduring (discipline definitions store.logId) (Good definitions store.logId (some key)) :=
    fun _ _ _ good committed furthest => good.merge committed furthest
  exact (enduring.and lasting.enduring).stays

theorem Good.open {tables : PlatformTables} {logId : String} (good : Good definitions logId none tables) (key : ProjectionKey) :
    Good definitions logId (some key) tables :=
  ⟨good.logs, fun other state _ found => good.states other state (by simp) found, good.rebuilds⟩

/-- Lock a projection. The row that may be inserted for it is no fold yet. -/
theorem locked_safe {key : ProjectionKey} {version : Nat} {positive : 0 < version} {state : JsonValue}
    {valid : validateJson state .default = .ok ()} (lasting : Lasting (discipline definitions store.logId) frame)
    (beside : Beside (discipline definitions store.logId) i (· = .projection key) K)
    (now : K d ∧ Knows (discipline definitions store.logId) i frame d) :
    (protocol (discipline definitions store.logId)).Safe i
      (Ends fun row d => K d ∧ Open definitions store.logId i key frame d ∧
        Holds schema i (.projection key) (fun part : Option ProjectionState => part = some row) d)
      (ProjectionStatements.locked i key version positive state valid) d := by
  refine safe_acquire (beside.stays.and (Knows.stays lasting))
    (fun _ => beside.stays.and ((Open.stays key lasting).and (Holds.stays _ _))) ?_ ?_ now
  · intro d _ known found
    split at found
    · cases found
    rename_i present
    obtain ⟨stored, isStored⟩ := Option.ne_none_iff_exists'.mp fun none => present (Option.isNone_iff_eq_none.mpr none)
    refine ⟨beside.lock d _ known.1, ?_, mem_locks_lock _, ?_⟩
    · change Good _ _ _ ((d.lock i _).view schema.write i) ∧ frame ((d.lock i _).view schema.write i)
      rw [view_lock]
      exact ⟨known.2.1.open key, known.2.2⟩
    · rw [view_lock]
      change (d.view PlatformWrite.apply i).projections.get? key = some ((Option.getD _ _))
      rw [isStored]
      exact isStored
  · intro d w _ known found
    split at found
    · rename_i absent
      cases found
      have unstored : (d.view PlatformWrite.apply i).projections.get? key = none := Option.isNone_iff_eq_none.mp absent
      have grown : Grown (discipline definitions store.logId) (d.view PlatformWrite.apply i)
          (PlatformWrite.apply (.saveProjection ⟨key, version, 0, state, positive, valid⟩) (d.view PlatformWrite.apply i)) := by
        refine grown_write fun stored isStored => ?_
        change (d.view PlatformWrite.apply i).projections.get? key = some stored at isStored
        rw [unstored] at isStored
        cases isStored
      refine ⟨fun other touches => touches.symm, grown, ?_, ?_, ?_, ?_⟩
      · exact beside.write _ _ (fun other touches => touches.symm) (beside.lock d _ known.1)
      · change Good _ _ _ (((d.lock i _).write i _).view schema.write i) ∧ frame (((d.lock i _).write i _).view schema.write i)
        rw [view_write, view_lock]
        exact ⟨known.2.1.saveProjection (by simp) (fun stored isStored => by cases unstored.symm.trans isStored)
          (fun settled => absurd rfl settled), lasting _ _ grown known.2.2⟩
      · rw [journal_write, locks_append]
        exact List.mem_append_left _ (mem_locks_lock _)
      · rw [view_write, view_lock]
        change (Dict.set _ key _).get? key = some (((Dict.set _ key _).get? key).getD _)
        rw [Dict.get?_set_self]
        rfl
    · cases found

/-- The locked projection is replaced by a fold that is not behind it. -/
theorem saveProjection_safe {row state : ProjectionState} (lasting : Lasting (discipline definitions store.logId) frame)
    (beside : Beside (discipline definitions store.logId) i (· = .projection state.key) K)
    (ahead : row.version ≤ state.version ∧ row.checkpoint ≤ state.checkpoint)
    (folded : ∀ tables : PlatformTables, frame tables →
      Folded definitions (tables.log store.logId).events state.version state.checkpoint state.state)
    (now : K d ∧ Open definitions store.logId i state.key frame d ∧
      Holds schema i (.projection state.key) (fun part : Option ProjectionState => part = some row) d) :
    (protocol (discipline definitions store.logId)).Safe i
      (Ends fun _ d => K d ∧ Knows (discipline definitions store.logId) i frame d ∧
        Projected definitions store.logId state (d.view PlatformWrite.apply i))
      (Session.change i (.saveProjection state) : PlatformTask Unit) d := by
  refine safe_change (beside.stays.and ((Open.stays state.key lasting).and (Holds.stays _ _)))
    (beside.stays.and ((Knows.stays lasting).and (lasting_projected state).enduring.stays)) (fun d _ known => ?_) now
  obtain ⟨others, ⟨good, framed⟩, locked, held⟩ := known
  have grown : Grown (discipline definitions store.logId) (d.view PlatformWrite.apply i)
      (PlatformWrite.apply (.saveProjection state) (d.view PlatformWrite.apply i)) := by
    refine grown_write fun stored isStored => ?_
    cases Option.some.inj (held.symm.trans isStored)
    exact ⟨state, Dict.get?_set_self .., ahead⟩
  refine ⟨fun other touches => ?_, grown, beside.write d _ (fun other touches => touches.symm) others, ?_, ?_⟩
  · change PlatformRow.projection state.key = other at touches
    rw [← touches]
    exact locked
  · unfold Knows
    rw [view_write]
    refine ⟨good.saveProjection (fun key same _ => (Option.some.inj same).symm) (fun stored isStored => ?_)
      (fun _ => folded _ framed), lasting _ _ grown framed⟩
    cases Option.some.inj (held.symm.trans isStored)
    exact ⟨state, rfl, ahead⟩
  · change Projected _ _ _ ((d.write i _).view schema.write i)
    rw [view_write]
    exact ⟨folded (d.view PlatformWrite.apply i) framed, state, Dict.get?_set_self .., Nat.le_refl _, Nat.le_refl _⟩

/-- What the answer of a projection says. -/
def Answered (definitions : Nat → ProjectionDefinition) (logId : String) (tables : PlatformTables) : ProjectionApplyResult → Prop
  | .applied state _ => Projected definitions logId state tables
  | _ => True

theorem lasting_answered (result : ProjectionApplyResult) :
    Lasting (discipline definitions store.logId) fun tables => Answered definitions store.logId tables result := by
  cases result with
  | applied state _ => exact lasting_projected state
  | staleCheckpoint _ _ => exact Lasting.true
  | versionMismatch _ _ => exact Lasting.true

theorem readAll_safe {position limit : Int} {knows : Database PlatformTables PlatformWrite PlatformRow → Prop}
    {after : EventPage → Database PlatformTables PlatformWrite PlatformRow → Prop}
    (stays : Stays (discipline definitions store.logId) i knows) (staysAfter : ∀ page, Stays (discipline definitions store.logId) i (after page))
    (reads : ∀ d, 0 ≤ position → knows d →
      after (page (·.globalPosition) ((d.view PlatformWrite.apply i).log store.logId).events position limit.toNat) d) (now : knows d) :
    (protocol (discipline definitions store.logId)).Safe i (Ends after) (EventStatements.readAll store i position limit) d := by
  unfold EventStatements.readAll EventStatements.arguments
  split
  · exact Protocol.Safe.done fun _ _ _ => trivial
  · rename_i valid
    exact safe_query (f := fun tables : PlatformTables => page (·.globalPosition) (tables.log store.logId).events position limit.toNat)
      stays staysAfter (fun d _ known => reads d (by omega) known) now

section Apply
variable {key : ProjectionKey} {checkpoint version : Nat} {positive : 0 < version} {state : JsonValue}
  {valid : validateJson state .default = .ok ()} {events : List StoredEvent}

/-- The events end where a section of the log behind the checkpoint ends. -/
def EndsAt (checkpoint : Nat) (events : List StoredEvent) : Prop :=
  (events.getLast?.map (·.globalPosition)).getD checkpoint = checkpoint + events.length

/-- The check against the authoritative page reads, and moves the checkpoint to the last event. -/
theorem covered_safe {row : ProjectionState} {knows : Database PlatformTables PlatformWrite PlatformRow → Prop}
    (stays : Stays (discipline definitions store.logId) i knows) (kept : Kept (discipline definitions store.logId) d) (now : knows d) :
    (protocol (discipline definitions store.logId)).Safe i
      (Ends fun reached d => knows d ∧ reached = (events.getLast?.map (·.globalPosition)).getD row.checkpoint)
      (ProjectionStatements.covered store i checkpoint row events) d := by
  have staysReached : ∀ reached : Nat, Stays (discipline definitions store.logId) i fun d =>
      knows d ∧ reached = (events.getLast?.map (·.globalPosition)).getD row.checkpoint := fun _ => stays.and (Stays.const _)
  unfold ProjectionStatements.covered
  split
  · rename_i none
    subst none
    exact safe_pure (staysReached _) ⟨now, rfl⟩
  · refine Protocol.Safe.bind (readAll_safe stays (fun _ => stays) (fun _ _ known => known) now) kept (fun page d _ known => ?_)
      fun _ _ _ _ => trivial
    split
    · exact safe_pure (staysReached _) ⟨known, rfl⟩
    · exact Protocol.Safe.done fun _ _ _ => trivial

theorem applyNested_safe (lasting : Lasting (discipline definitions store.logId) frame) (ends : EndsAt checkpoint events)
    (kept : Kept (discipline definitions store.logId) d)
    (now : Knows (discipline definitions store.logId) i
      (fun tables => frame tables ∧ Folded definitions (tables.log store.logId).events version (checkpoint + events.length) state) d) :
    (protocol (discipline definitions store.logId)).Safe i
      (Ends fun result d => Knows (discipline definitions store.logId) i frame d ∧
        Answered definitions store.logId (d.view PlatformWrite.apply i) result)
      (ProjectionStatements.applyNested store i key checkpoint version positive state valid events) d := by
  have lastingBoth : Lasting (discipline definitions store.logId) fun tables =>
      frame tables ∧ Folded definitions (tables.log store.logId).events version (checkpoint + events.length) state :=
    lasting.and (lasting_folded _ _ _ _)
  have enduring := Enduring.good.and lastingBoth.enduring
  have answer : ∀ {result : ProjectionApplyResult} {e : Database PlatformTables PlatformWrite PlatformRow},
      Knows (discipline definitions store.logId) i frame e → Answered definitions store.logId (e.view PlatformWrite.apply i) result →
      (protocol (discipline definitions store.logId)).Safe i
        (Ends fun result e => Knows (discipline definitions store.logId) i frame e ∧
          Answered definitions store.logId (e.view PlatformWrite.apply i) result) (pure result : PlatformTask ProjectionApplyResult) e :=
    fun knows answered => safe_pure ((Knows.stays lasting).and (lasting_answered _).enduring.stays) ⟨knows, answered⟩
  refine safe_nested kept enduring now fun mark d kept marked known => ?_
  refine Protocol.Safe.bind (locked_safe lastingBoth (enduring.beside_marked mark) ⟨marked, known⟩) kept
    (fun row d kept known => ?_) fun _ _ _ _ => trivial
  -- whatever the answer, the rollback brings back what was known at the savepoint
  have refuse : ∀ {result : ProjectionApplyResult}, (∀ tables, Answered definitions store.logId tables result) →
      (protocol (discipline definitions store.logId)).Safe i
        (Ends fun result e => Knows (discipline definitions store.logId) i frame e ∧
          Answered definitions store.logId (e.view PlatformWrite.apply i) result)
        (Session.rollback i mark >>= fun _ => pure result : PlatformTask ProjectionApplyResult) d := by
    intro result answered
    refine Protocol.Safe.bind (safe_rollback mark (enduring.stays_marked mark) (Knows.stays lastingBoth)
      (fun _ _ marked => marked.keep) known.1) kept (fun _ e _ knows => ?_) fun _ _ _ _ => trivial
    exact answer ⟨knows.1, knows.2.1⟩ (answered _)
  dsimp only
  split
  · exact refuse fun _ => trivial
  rename_i expected
  rw [not_not] at expected
  split
  · exact refuse fun _ => trivial
  rename_i same
  rw [not_not] at same
  refine Protocol.Safe.bind (covered_safe ((enduring.stays_marked mark).and ((Open.stays key lastingBoth).and (Holds.stays _ _))) kept
    known) kept (fun reached d kept known => ?_) fun _ _ _ _ => trivial
  obtain ⟨known, reaches⟩ := known
  have position : reached = checkpoint + events.length := by
    rw [reaches, expected]
    exact ends
  have ahead : row.version ≤ row.version ∧ row.checkpoint ≤ reached := by omega
  have folded : ∀ tables : PlatformTables,
      frame tables ∧ Folded definitions (tables.log store.logId).events version (checkpoint + events.length) state →
      Folded definitions (tables.log store.logId).events row.version reached state := by
    intro tables framed
    rw [same, position]
    exact framed.2
  have saved : (RowLocks.protocol (discipline definitions store.logId)).Safe i _
      (Session.change i (.saveProjection ⟨key, row.version, reached, state, row.positive, valid⟩) : PlatformTask Unit) d :=
    saveProjection_safe lastingBoth (enduring.beside_marked mark) ahead folded known
  exact Protocol.Safe.bind saved kept (fun _ e _ after => answer ⟨after.2.1.1, after.2.1.2.1⟩ after.2.2) fun _ _ _ _ => trivial

/-- The state that is stored is a fold as far as its checkpoint, whatever becomes of the call. -/
theorem apply_safe (lasting : Lasting (discipline definitions store.logId) frame) (ends : EndsAt checkpoint events)
    (kept : Kept (discipline definitions store.logId) d)
    (now : Knows (discipline definitions store.logId) i
      (fun tables => frame tables ∧ Folded definitions (tables.log store.logId).events version (checkpoint + events.length) state) d) :
    (protocol (discipline definitions store.logId)).Safe i
      (Ends fun result d => Knows (discipline definitions store.logId) i frame d ∧
        Answered definitions store.logId (d.view PlatformWrite.apply i) result)
      (ProjectionStatements.apply store i key checkpoint version state events) d := by
  unfold ProjectionStatements.apply
  split
  · exact Protocol.Safe.done fun _ _ _ => trivial
  split
  · exact applyNested_safe lasting ends kept now
  · exact Protocol.Safe.done fun _ _ _ => trivial

end Apply

/-- The page behind a checkpoint of the log is the next section of it. -/
theorem follows_page {tables : PlatformTables} (good : Good definitions store.logId none tables) {checkpoint : Nat}
    (inside : checkpoint ≤ (tables.log store.logId).events.length) (limit : Nat) :
    let read := page (·.globalPosition) (tables.log store.logId).events checkpoint limit
    (tables.log store.logId).events.Follows checkpoint read.events := by
  intro read
  have positions := (good.logs store.logId).positions
  change (tables.log store.logId).events.Follows checkpoint (page (·.globalPosition) _ checkpoint limit).events
  rw [page_numbered positions, EventStore.page_numbered positions]
  exact .of_take inside limit

/-- Whatever the events are reduced to is a longer fold. -/
def Extends (definitions : Nat → ProjectionDefinition) (logId : String) (version checkpoint : Nat) (initial : JsonValue)
    (events : List StoredEvent) (tables : PlatformTables) : Prop :=
  ∀ state, (definitions version).reduceAll initial events = .ok state →
    Folded definitions (tables.log logId).events version (checkpoint + events.length) state

theorem lasting_extends (version checkpoint : Nat) (initial : JsonValue) (events : List StoredEvent) :
    Lasting (discipline definitions store.logId) (Extends definitions store.logId version checkpoint initial events) :=
  fun _ _ grown extend state reduced => (extend state reduced).mono (grown_events grown store.logId)

/-- Read a page behind a fold, and select events of it that follow the fold. -/
theorem readFold_safe {version checkpoint : Nat} {initial : JsonValue} {limit : Int} {select : EventPage → List StoredEvent}
    (selects : ∀ (log : List StoredEvent) page, log.Numbered (·.globalPosition) → log.Follows checkpoint page.events →
      log.Follows checkpoint (select page)) (lasting : Lasting (discipline definitions store.logId) frame)
    (now : Knows (discipline definitions store.logId) i
      (fun tables => frame tables ∧ Folded definitions (tables.log store.logId).events version checkpoint initial) d) :
    (protocol (discipline definitions store.logId)).Safe i
      (Ends fun page d => Knows (discipline definitions store.logId) i
          (fun tables => frame tables ∧ Extends definitions store.logId version checkpoint initial (select page) tables) d ∧
        EndsAt checkpoint (select page))
      (EventStatements.readAll store i checkpoint limit) d := by
  refine readAll_safe (Knows.stays (lasting.and (lasting_folded _ _ _ _)))
    (fun page => (Knows.stays (lasting.and (lasting_extends _ _ _ _))).and (Stays.const _)) (fun d _ known => ?_) now
  obtain ⟨good, framed, folded⟩ := known
  have positions := (good.logs store.logId).positions
  have follows := selects _ _ positions (follows_page good folded.1 limit.toNat)
  exact ⟨⟨good, framed, fun state reduced => folded.extend follows reduced⟩, follows.number_last positions⟩

/-- What a loaded projection says. -/
def Loaded (definitions : Nat → ProjectionDefinition) (logId : String) (current : Option ProjectionState) (tables : PlatformTables) : Prop :=
  ∀ state, current = some state → Folded definitions (tables.log logId).events state.version state.checkpoint state.state

theorem lasting_loaded (current : Option ProjectionState) :
    Lasting (discipline definitions store.logId) (Loaded definitions store.logId current) :=
  fun _ _ grown loaded state same => (loaded state same).mono (grown_events grown store.logId)

/-- What a call of a known version starts from is a fold, be it stored or initial. -/
theorem Loaded.start {version : Nat} {current : Option ProjectionState} {tables : PlatformTables}
    (loaded : Loaded definitions store.logId current tables) (same : current.filter (·.version ≠ version) = none) :
    Folded definitions (tables.log store.logId).events version ((current.map (·.checkpoint)).getD 0)
      ((current.map (·.state)).getD (definitions version).initialState) := by
  cases current with
  | none => exact folded_zero _ _
  | some state =>
    simp only [Option.filter_eq_none_iff, Option.some.injEq, forall_eq', decide_not, Bool.not_eq_true',
      decide_eq_false_iff_not, not_not] at same
    exact same ▸ loaded state rfl

theorem projectOnce_establishes {key : ProjectionKey} {version : Nat} (own : (definitions version).version = version) (limit : Int) :
    Establishes (discipline definitions store.logId) i (fun result tables => Answered definitions store.logId tables result)
      (ProjectionStatements.projectOnce store i key (definitions version) limit) := by
  intro frame lasting d kept known
  have lastingLoad : ∀ current, Lasting (discipline definitions store.logId) (Loaded definitions store.logId current) := lasting_loaded
  have loads : (protocol (discipline definitions store.logId)).Safe i _ (ProjectionStatements.load i key) d :=
    query_safe lasting lastingLoad (fun _ good state found => good.states key state (by simp) found) known
  refine Protocol.Safe.bind loads kept (fun current d kept known => ?_) fun _ _ _ _ => trivial
  dsimp only
  rw [own]
  split
  · exact safe_pure ((Knows.stays lasting).and (lasting_answered _).enduring.stays) ⟨known.1, trivial⟩
  rename_i same
  have selects : ∀ (log : List StoredEvent) (page : EventPage), log.Numbered (·.globalPosition) →
      log.Follows ((current.map (·.checkpoint)).getD 0) page.events → log.Follows ((current.map (·.checkpoint)).getD 0) page.events :=
    fun _ _ _ follows => follows
  have reads : (protocol (discipline definitions store.logId)).Safe i _
      (EventStatements.readAll store i ((current.map (·.checkpoint)).getD 0 : Nat) limit) d :=
    readFold_safe selects lasting ⟨known.1.1, known.1.2, known.2.start same⟩
  refine Protocol.Safe.bind reads kept (fun page d kept known => ?_) fun _ _ _ _ => trivial
  split
  · exact Protocol.Safe.done fun _ _ _ => trivial
  · rename_i state reduced
    exact apply_safe lasting known.2 kept ⟨known.1.1, known.1.2.1, known.1.2.2 state reduced⟩

/-- A rebuild stands as reported, and its row has not gone back behind that. -/
def Rebuilt (definitions : Nat → ProjectionDefinition) (logId : String) (run : RebuildRun) (tables : PlatformTables) : Prop :=
  Rebuilding definitions logId run tables ∧ ∃ later, tables.rebuilds.get? run.runId = some later ∧
    later.projectionVersion = run.projectionVersion ∧ later.throughPosition = run.throughPosition ∧
    run.nextPosition ≤ later.nextPosition

theorem lasting_rebuilding (run : RebuildRun) :
    Lasting (discipline definitions store.logId) (Rebuilding definitions store.logId run) :=
  fun _ _ grown rebuilding => rebuilding.mono (grown_events grown store.logId) (grown (.projection run.key))

theorem lasting_rebuilt (run : RebuildRun) : Lasting (discipline definitions store.logId) (Rebuilt definitions store.logId run) := by
  refine (lasting_rebuilding run).and fun s t grown stored => ?_
  obtain ⟨middle, found, version, through, next⟩ := stored
  obtain ⟨last, foundLast, versionLast, throughLast, nextLast⟩ := grown (.rebuild run.runId) middle found
  exact ⟨last, foundLast, versionLast.trans version, throughLast.trans through, Nat.le_trans next nextLast⟩

/-- Writing a rebuild that is not behind the row it replaces. -/
theorem rebuilt_write {tables : PlatformTables} {run : RebuildRun} (good : Good definitions store.logId none tables)
    (rebuilding : Rebuilding definitions store.logId run tables)
    (grows : Grows (.rebuild run.runId) (tables.rebuilds.get? run.runId) (some run)) :
    let after := PlatformWrite.apply (.saveRebuild run) tables
    Grown (discipline definitions store.logId) tables after ∧ Good definitions store.logId none after ∧
      Rebuilt definitions store.logId run after := by
  intro after
  have found : after.rebuilds.get? run.runId = some run := Dict.get?_set_self ..
  refine ⟨grown_write ?_, good.saveRebuild rebuilding, ⟨rebuilding.mono (List.prefix_refl _) Grows.refl, run, found, rfl, rfl, Nat.le_refl _⟩⟩
  change Grows (.rebuild run.runId) (tables.rebuilds.get? run.runId) (after.rebuilds.get? run.runId :)
  rw [found]
  exact grows

theorem beginRebuild_establishes {run : RebuildRun} (proper : run.state = (definitions run.projectionVersion).initialState) :
    Establishes (discipline definitions store.logId) i (fun fresh tables => fresh = true → Rebuilt definitions store.logId run tables)
      (ProjectionStatements.beginRebuild store i run) := by
  intro frame lasting d kept known
  unfold ProjectionStatements.beginRebuild
  split
  · exact Protocol.Safe.done fun _ _ _ => trivial
  rename_i running
  obtain ⟨atStart, running⟩ := not_or.mp running
  rw [not_not] at atStart running
  refine Protocol.Safe.bind (watermark_establishes lasting d kept known) kept (fun watermark d kept known => ?_) fun _ _ _ _ => trivial
  split
  · exact Protocol.Safe.done fun _ _ _ => trivial
  rename_i bounded
  have lastingBoth : Lasting (discipline definitions store.logId) fun tables =>
      frame tables ∧ watermark ≤ (tables.log store.logId).events.length := lasting.and (lasting_watermark _ _)
  have lastingFresh : ∀ fresh : Bool, Lasting (discipline definitions store.logId) fun tables =>
      fresh = true → Rebuilt definitions store.logId run tables := fun _ => Lasting.forall fun _ => lasting_rebuilt run
  refine safe_writeWhere (Knows.stays lastingBoth) (fun fresh => (Knows.stays lasting).and (lastingFresh fresh).enduring.stays) ?_ ?_
    ⟨known.1.1, known.1.2, known.2⟩
  · exact fun d _ known _ => ⟨⟨known.1, known.2.1⟩, by simp⟩
  · intro d w _ known found
    split at found
    · rename_i absent
      cases found
      obtain ⟨good, framed, inside⟩ := known
      have unstored : (d.view PlatformWrite.apply i).rebuilds.get? run.runId = none := Option.isNone_iff_eq_none.mp absent
      have rebuilding : Rebuilding definitions store.logId run (d.view PlatformWrite.apply i) := by
        refine ⟨?_, Nat.le_trans (by omega) inside, fun completed => ?_⟩
        · rw [atStart, proper]
          exact folded_zero _ _
        · rw [completed] at running
          cases running
      obtain ⟨grown, goodAfter, rebuilt⟩ := rebuilt_write good rebuilding fun stored isStored => by
        cases unstored.symm.trans isStored
      refine ⟨fun other touches => touches.symm, grown, ?_⟩
      unfold Knows
      rw [view_write, view_lock]
      exact ⟨⟨goodAfter, lasting _ _ grown framed⟩, fun _ => rebuilt⟩
    · cases found

/-- What a rebuild is about to be moved on to: a fold by the version it was begun with. -/
def Resumes (definitions : Nat → ProjectionDefinition) (logId runId : String) (version nextPosition : Nat) (state : JsonValue)
    (tables : PlatformTables) : Prop :=
  Folded definitions (tables.log logId).events version nextPosition state ∧
    ∃ later, tables.rebuilds.get? runId = some later ∧ later.projectionVersion = version

theorem lasting_resumes (runId : String) (version nextPosition : Nat) (state : JsonValue) :
    Lasting (discipline definitions store.logId) (Resumes definitions store.logId runId version nextPosition state) := by
  refine (lasting_folded _ _ _ _).and fun s t grown stored => ?_
  obtain ⟨middle, found, same⟩ := stored
  obtain ⟨last, foundLast, sameLast, -⟩ := grown (.rebuild runId) middle found
  exact ⟨last, foundLast, sameLast.trans same⟩

/-- The locked rebuild is replaced by one that is further. -/
theorem saveRebuild_safe {run advanced : RebuildRun} (lasting : Lasting (discipline definitions store.logId) frame)
    (named : advanced.runId = run.runId) (further : Grows (.rebuild run.runId) (some run) (some advanced))
    (rebuilding : ∀ tables : PlatformTables, frame tables → Rebuilding definitions store.logId run tables →
      Rebuilding definitions store.logId advanced tables)
    (now : Knows (discipline definitions store.logId) i frame d ∧
      Holds schema i (.rebuild run.runId) (fun part : Option RebuildRun => part = some run) d) :
    (protocol (discipline definitions store.logId)).Safe i
      (Ends fun _ d => Knows (discipline definitions store.logId) i frame d ∧
        Rebuilt definitions store.logId advanced (d.view PlatformWrite.apply i))
      (Session.change i (.saveRebuild advanced) : PlatformTask Unit) d := by
  refine safe_change ((Knows.stays lasting).and (Holds.stays _ _)) ((Knows.stays lasting).and (lasting_rebuilt _).enduring.stays)
    (fun d _ known => ?_) now
  obtain ⟨⟨good, framed⟩, locked, held⟩ := known
  obtain ⟨grown, goodAfter, rebuilt⟩ := rebuilt_write good (rebuilding _ framed (good.rebuilds _ _ held).2) fun stored isStored => by
    rw [named] at isStored
    cases Option.some.inj (held.symm.trans isStored)
    exact further run rfl
  refine ⟨fun other touches => ?_, grown, ?_, ?_⟩
  · change PlatformRow.rebuild advanced.runId = other at touches
    rw [← touches, named]
    exact locked
  · unfold Knows
    rw [view_write]
    exact ⟨goodAfter, lasting _ _ grown framed⟩
  · change Rebuilt _ _ _ ((d.write i _).view schema.write i)
    rw [view_write]
    exact rebuilt

section Advance
variable {mark nextPosition : Nat} {run : RebuildRun} {state : JsonValue} {valid : validateJson state .default = .ok ()}

/-- The cutover replaces an active projection that is not ahead, or leaves everything as it was. -/
theorem cutover_safe (lasting : Lasting (discipline definitions store.logId) frame)
    (folded : ∀ tables : PlatformTables, frame tables →
      Folded definitions (tables.log store.logId).events run.projectionVersion nextPosition state)
    (kept : Kept (discipline definitions store.logId) d)
    (now : (Marked schema i mark (fun t => Good definitions store.logId none t ∧ frame t) d ∧
        Holds schema i (.rebuild run.runId) (fun part : Option RebuildRun => part = some run) d) ∧
      Knows (discipline definitions store.logId) i frame d) :
    (protocol (discipline definitions store.logId)).Safe i
      (Ends fun replaced d => Knows (discipline definitions store.logId) i frame d ∧ (replaced = true →
        Holds schema i (.rebuild run.runId) (fun part : Option RebuildRun => part = some run) d ∧
        Projected definitions store.logId ⟨run.key, run.projectionVersion, nextPosition, state, run.positive.1, valid⟩
          (d.view PlatformWrite.apply i)))
      (ProjectionStatements.cutover i mark run state valid nextPosition) d := by
  have enduring := Enduring.good.and lasting.enduring
  have beside : Beside (discipline definitions store.logId) i (· = .projection run.key) fun d =>
      Marked schema i mark (fun t => Good definitions store.logId none t ∧ frame t) d ∧
        Holds schema i (.rebuild run.runId) (fun part : Option RebuildRun => part = some run) d :=
    (enduring.beside_marked mark).and (Holds.beside (by simp) _)
  have staysReplaced : ∀ replaced : Bool, Stays (discipline definitions store.logId) i fun d =>
      Knows (discipline definitions store.logId) i frame d ∧ (replaced = true →
        Holds schema i (.rebuild run.runId) (fun part : Option RebuildRun => part = some run) d ∧
        Projected definitions store.logId ⟨run.key, run.projectionVersion, nextPosition, state, run.positive.1, valid⟩
          (d.view PlatformWrite.apply i)) := fun replaced =>
    (Knows.stays lasting).and fun d e sees kept known same =>
      ((Holds.stays _ _).and (lasting_projected _).enduring.stays) d e sees kept (known same)
  refine Protocol.Safe.bind (locked_safe lasting beside now) kept (fun active d kept known => ?_) fun _ _ _ _ => trivial
  split
  · refine Protocol.Safe.bind (safe_rollback mark (enduring.stays_marked mark) (Knows.stays lasting) (fun _ _ marked => marked.keep)
      known.1.1) kept (fun _ e _ knows => ?_) fun _ _ _ _ => trivial
    exact safe_pure (staysReplaced false) ⟨knows, by simp⟩
  · rename_i behind
    obtain ⟨checkpoint, version⟩ := not_or.mp behind
    have ahead : active.version ≤ run.projectionVersion ∧ active.checkpoint ≤ nextPosition := by omega
    have saved : (protocol (discipline definitions store.logId)).Safe i _
        (Session.change i (.saveProjection ⟨run.key, run.projectionVersion, nextPosition, state, run.positive.1, valid⟩) :
          PlatformTask Unit) d := saveProjection_safe lasting beside ahead folded known
    exact Protocol.Safe.bind saved kept (fun _ e _ after => safe_pure (staysReplaced true) ⟨after.2.1, fun _ => ⟨after.1.2, after.2.2⟩⟩)
      fun _ _ _ _ => trivial

/-- What `advance_rebuild` answers. -/
def Moved (definitions : Nat → ProjectionDefinition) (logId : String) (result : Option RebuildRun) (tables : PlatformTables) : Prop :=
  ∀ run, result = some run → Rebuilt definitions logId run tables

theorem lasting_moved (result : Option RebuildRun) : Lasting (discipline definitions store.logId) (Moved definitions store.logId result) :=
  Lasting.forall fun run => Lasting.forall fun _ => lasting_rebuilt run

theorem advanceRunning_safe {version : Nat} {complete : Bool} (lasting : Lasting (discipline definitions store.logId) frame)
    (same : run.projectionVersion = version) (ahead : run.nextPosition ≤ nextPosition)
    (kept : Kept (discipline definitions store.logId) d)
    (now : (Marked schema i mark (fun t => Good definitions store.logId none t ∧ frame t ∧
          Folded definitions (t.log store.logId).events version nextPosition state) d ∧
        Holds schema i (.rebuild run.runId) (fun part : Option RebuildRun => part = some run) d) ∧
      Knows (discipline definitions store.logId) i
        (fun t => frame t ∧ Folded definitions (t.log store.logId).events version nextPosition state) d) :
    (protocol (discipline definitions store.logId)).Safe i
      (Ends fun result d => Knows (discipline definitions store.logId) i frame d ∧
        Moved definitions store.logId result (d.view PlatformWrite.apply i))
      (ProjectionStatements.advanceRunning store i mark run state valid nextPosition complete) d := by
  have lastingBoth : Lasting (discipline definitions store.logId) fun t =>
      frame t ∧ Folded definitions (t.log store.logId).events version nextPosition state := lasting.and (lasting_folded _ _ _ _)
  have enduring := Enduring.good.and lastingBoth.enduring
  have answer : ∀ {result : Option RebuildRun} {e : Database PlatformTables PlatformWrite PlatformRow},
      Knows (discipline definitions store.logId) i frame e → Moved definitions store.logId result (e.view PlatformWrite.apply i) →
      (protocol (discipline definitions store.logId)).Safe i
        (Ends fun result e => Knows (discipline definitions store.logId) i frame e ∧
          Moved definitions store.logId result (e.view PlatformWrite.apply i)) (pure result : PlatformTask (Option RebuildRun)) e :=
    fun knows moved => safe_pure ((Knows.stays lasting).and (lasting_moved _).enduring.stays) ⟨knows, moved⟩
  have stays := ((enduring.stays_marked mark (i := i)).and
    (Holds.stays (.rebuild run.runId) fun part : Option RebuildRun => part = some run)).and (Knows.stays lastingBoth)
  unfold ProjectionStatements.advanceRunning
  refine Protocol.Safe.bind (readAll_safe stays (fun _ => stays) (fun _ _ known => known) now) kept (fun page d kept known => ?_)
    fun _ _ _ _ => trivial
  dsimp only
  split
  swap
  · exact Protocol.Safe.done fun _ _ _ => trivial
  rename_i progress
  have further : Grows (.rebuild run.runId) (some run) (some (run.advance state valid nextPosition progress.2.1 complete)) := by
    intro stored isStored
    cases isStored
    exact ⟨_, rfl, rfl, rfl, ahead⟩
  have named : (run.advance state valid nextPosition progress.2.1 complete).runId = run.runId := rfl
  split
  · rename_i isComplete
    have reached : nextPosition = run.throughPosition := by
      have decided := progress.2.2.1
      rw [isComplete] at decided
      exact of_decide_eq_true decided.symm
    refine Protocol.Safe.bind (cutover_safe lastingBoth (fun _ framed => same ▸ framed.2) kept known) kept
      (fun replaced d kept known => ?_) fun _ _ _ _ => trivial
    split
    · rename_i isReplaced
      obtain ⟨⟨good, framed⟩, replaced⟩ := known
      obtain ⟨holds, projected⟩ := replaced isReplaced
      refine Protocol.Safe.bind (saveRebuild_safe (lastingBoth.and (lasting_projected _)) named further (fun tables framed before => ?_)
        ⟨⟨good, framed, projected⟩, holds⟩) kept (fun _ e _ after => ?_) fun _ _ _ _ => trivial
      · refine ⟨?_, before.inside, fun _ => ?_⟩
        · change Folded definitions _ run.projectionVersion nextPosition state
          rw [same]
          exact framed.1.2
        · obtain ⟨-, later, found, versionLater, checkpointLater⟩ := framed.2
          exact ⟨later, found, versionLater, reached ▸ checkpointLater⟩
      · refine answer ⟨after.1.1, after.1.2.1.1⟩ fun other isOther => ?_
        cases isOther
        exact after.2
    · exact answer ⟨known.1.1, known.1.2.1⟩ fun other isOther => by cases isOther
  · rename_i incomplete
    refine Protocol.Safe.bind (saveRebuild_safe lastingBoth named further (fun tables framed before => ?_) ⟨known.2, known.1.2⟩) kept
      (fun _ e _ after => ?_) fun _ _ _ _ => trivial
    · refine ⟨?_, before.inside, fun completed => ?_⟩
      · change Folded definitions _ run.projectionVersion nextPosition state
        rw [same]
        exact framed.2
      · change (if complete then RebuildStatus.completed else .running) = .completed at completed
        rw [if_neg incomplete] at completed
        cases completed
    · refine answer ⟨after.1.1, after.1.2.1⟩ fun other isOther => ?_
      cases isOther
      exact after.2

theorem advanceRebuild_safe {runId : String} {version expectedPosition : Nat} {complete : Bool}
    (lasting : Lasting (discipline definitions store.logId) frame) (ahead : expectedPosition ≤ nextPosition)
    (kept : Kept (discipline definitions store.logId) d)
    (now : Knows (discipline definitions store.logId) i
      (fun t => frame t ∧ Resumes definitions store.logId runId version nextPosition state t) d) :
    (protocol (discipline definitions store.logId)).Safe i
      (Ends fun result d => Knows (discipline definitions store.logId) i frame d ∧
        Moved definitions store.logId result (d.view PlatformWrite.apply i))
      (ProjectionStatements.advanceRebuild store i runId expectedPosition state nextPosition complete) d := by
  have lastingBoth : Lasting (discipline definitions store.logId) fun t =>
      frame t ∧ Resumes definitions store.logId runId version nextPosition state t := lasting.and (lasting_resumes _ _ _ _)
  have lastingFold : Lasting (discipline definitions store.logId) fun t =>
      frame t ∧ Folded definitions (t.log store.logId).events version nextPosition state := lasting.and (lasting_folded _ _ _ _)
  have enduring := Enduring.good.and lastingBoth.enduring
  have enduringFold := Enduring.good.and lastingFold.enduring
  unfold ProjectionStatements.advanceRebuild
  split
  · exact Protocol.Safe.done fun _ _ _ => trivial
  refine safe_nested kept enduring now fun mark d kept marked known => ?_
  have weaker : ∀ t, Good definitions store.logId none t ∧ frame t ∧ Resumes definitions store.logId runId version nextPosition state t →
      Good definitions store.logId none t ∧ frame t ∧ Folded definitions (t.log store.logId).events version nextPosition state :=
    fun t all => ⟨all.1, all.2.1, all.2.2.1⟩
  have selects : (protocol (discipline definitions store.logId)).Safe i
      (Ends fun row d => (Marked schema i mark (fun t => Good definitions store.logId none t ∧ frame t ∧
            Folded definitions (t.log store.logId).events version nextPosition state) d ∧
          Knows (discipline definitions store.logId) i
            (fun t => frame t ∧ Folded definitions (t.log store.logId).events version nextPosition state) d) ∧
        ∀ run, row = some run → (run.runId = runId ∧ run.projectionVersion = version) ∧
          Holds schema i (.rebuild runId) (fun part : Option RebuildRun => part = some run) d)
      (Session.selectForUpdate PlatformWrite.apply i (.rebuild runId) (fun tables => tables.rebuilds.get? runId) :
        PlatformTask (Option RebuildRun)) d := by
    refine safe_selectForUpdate ((enduring.stays_marked mark).and (Knows.stays lastingBoth))
      (fun row => ((enduringFold.stays_marked mark).and (Knows.stays lastingFold)).and
        fun d e sees kept holds run same => ⟨(holds run same).1, Holds.stays _ _ d e sees kept (holds run same).2⟩) ?_ ?_ ⟨marked, known⟩
    · exact fun d _ known _ => ⟨⟨⟨known.1.1, weaker _ known.1.2⟩, weaker _ known.2⟩, fun run same => by cases same⟩
    · intro d row _ known found
      obtain ⟨marked, good, framed, folded, later, isLater, sameVersion⟩ := known
      have whole : Marked schema i mark (fun t => Good definitions store.logId none t ∧ frame t ∧
          Folded definitions (t.log store.logId).events version nextPosition state) d := ⟨marked.1, weaker _ marked.2⟩
      refine ⟨⟨whole.lock _, ?_⟩, fun run same => ?_⟩
      · unfold Knows
        rw [view_lock]
        exact ⟨good, framed, folded⟩
      · cases same
        cases Option.some.inj (isLater.symm.trans found)
        refine ⟨⟨(good.rebuilds _ _ found).1, sameVersion⟩, mem_locks_lock _, ?_⟩
        rw [view_lock]
        exact found
  refine Protocol.Safe.bind selects kept (fun row d kept known => ?_) fun _ _ _ _ => trivial
  have unmoved : Moved definitions store.logId none (d.view PlatformWrite.apply i) := fun other isOther => by cases isOther
  have knows : Knows (discipline definitions store.logId) i frame d := ⟨known.1.2.1, known.1.2.2.1⟩
  cases row with
  | none => exact safe_pure ((Knows.stays lasting).and (lasting_moved none).enduring.stays) ⟨knows, unmoved⟩
  | some run =>
    obtain ⟨⟨named, same⟩, holds⟩ := known.2 run rfl
    subst named
    dsimp only
    split
    · exact safe_pure ((Knows.stays lasting).and (lasting_moved none).enduring.stays) ⟨knows, unmoved⟩
    · rename_i expected
      have position : run.nextPosition = expectedPosition := not_not.mp (not_or.mp expected).2
      exact advanceRunning_safe lasting same (by omega) kept ⟨⟨known.1.1, holds⟩, known.1.2⟩

end Advance

/-- What a rebuild that the session loads says. -/
def Resumable (definitions : Nat → ProjectionDefinition) (logId runId : String) (loaded : Option RebuildRun) (tables : PlatformTables) : Prop :=
  ∀ run, loaded = some run → run.runId = runId ∧ Rebuilt definitions logId run tables

theorem lasting_resumable (runId : String) (loaded : Option RebuildRun) :
    Lasting (discipline definitions store.logId) (Resumable definitions store.logId runId loaded) :=
  fun s t grown found run same => ⟨(found run same).1, lasting_rebuilt run s t grown (found run same).2⟩

theorem resumeRunning_safe {run : RebuildRun} {version : Nat} (lasting : Lasting (discipline definitions store.logId) frame)
    (same : run.projectionVersion = version) (kept : Kept (discipline definitions store.logId) d)
    (now : Knows (discipline definitions store.logId) i (fun t => frame t ∧ Rebuilt definitions store.logId run t) d) :
    (protocol (discipline definitions store.logId)).Safe i
      (Ends fun resumed d => Knows (discipline definitions store.logId) i frame d ∧
        Rebuilt definitions store.logId resumed (d.view PlatformWrite.apply i))
      (ProjectionStatements.resumeRunning store i run run.runId (definitions version)) d := by
  have selects : ∀ (log : List StoredEvent) (page : EventPage), log.Numbered (·.globalPosition) →
      log.Follows run.nextPosition page.events →
      log.Follows run.nextPosition (page.events.filter (·.globalPosition ≤ run.throughPosition)) :=
    fun _ _ positions follows => follows.filter_upto positions run.throughPosition
  have folded : Folded definitions ((d.view PlatformWrite.apply i).log store.logId).events version run.nextPosition run.state :=
    same ▸ now.2.2.1.folded
  have reads : (protocol (discipline definitions store.logId)).Safe i _
      (EventStatements.readAll store i run.nextPosition run.batchSize) d :=
    readFold_safe selects (lasting.and (lasting_rebuilt run)) ⟨now.1, ⟨now.2.1, now.2.2⟩, folded⟩
  unfold ProjectionStatements.resumeRunning
  refine Protocol.Safe.bind reads kept (fun page d kept known => ?_) fun _ _ _ _ => trivial
  obtain ⟨⟨good, ⟨framed, rebuilt⟩, extend⟩, ends⟩ := known
  dsimp only
  split
  · exact Protocol.Safe.done fun _ _ _ => trivial
  rename_i state reduced
  split
  · exact Protocol.Safe.done fun _ _ _ => trivial
  have position : ((page.events.filter (·.globalPosition ≤ run.throughPosition)).getLast?.map (·.globalPosition)).getD
      run.nextPosition = run.nextPosition + (page.events.filter (·.globalPosition ≤ run.throughPosition)).length := ends
  rw [position]
  obtain ⟨later, found, sameVersion, -, -⟩ := rebuilt.2
  have resumes : Resumes definitions store.logId run.runId version _ state (d.view PlatformWrite.apply i) :=
    ⟨extend state reduced, later, found, sameVersion.trans same⟩
  refine Protocol.Safe.bind (advanceRebuild_safe lasting (Nat.le_add_right _ _) kept ⟨good, framed, resumes⟩) kept (fun advanced d _ known => ?_)
    fun _ _ _ _ => trivial
  cases advanced with
  | none => exact Protocol.Safe.done fun _ _ _ => trivial
  | some advanced =>
    exact safe_pure ((Knows.stays lasting).and (lasting_rebuilt advanced).enduring.stays) ⟨known.1, known.2 advanced rfl⟩

theorem resumeRebuild_establishes {runId : String} {version : Nat} (own : (definitions version).version = version) :
    Establishes (discipline definitions store.logId) i (fun run tables => Rebuilt definitions store.logId run tables)
      (ProjectionStatements.resumeRebuild store i runId (definitions version)) := by
  intro frame lasting d kept known
  have lastingFound : ∀ loaded, Lasting (discipline definitions store.logId) (Resumable definitions store.logId runId loaded) :=
    lasting_resumable runId
  have loads : (protocol (discipline definitions store.logId)).Safe i _ (ProjectionStatements.loadRebuild i runId) d :=
    query_safe lasting lastingFound (fun tables good run found => by
      obtain ⟨named, rebuilding⟩ := good.rebuilds runId run found
      exact ⟨named, rebuilding, run, named ▸ found, rfl, rfl, Nat.le_refl _⟩) known
  refine Protocol.Safe.bind loads kept (fun loaded d kept known => ?_) fun _ _ _ _ => trivial
  cases loaded with
  | none => exact Protocol.Safe.done fun _ _ _ => trivial
  | some run =>
    obtain ⟨named, rebuilt⟩ := known.2 run rfl
    subst named
    dsimp only
    rw [own]
    split
    · exact Protocol.Safe.done fun _ _ _ => trivial
    rename_i same
    rw [not_not] at same
    split
    · exact safe_pure ((Knows.stays lasting).and (lasting_rebuilt run).enduring.stays) ⟨known.1, rebuilt⟩
    · exact resumeRunning_safe lasting same kept ⟨known.1.1, known.1.2, rebuilt⟩

end Pytitect.PlatformTables
