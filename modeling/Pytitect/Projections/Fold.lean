import Pytitect.EventSourcing.Paging
import Pytitect.Projections.Runtime

namespace Pytitect.ProjectionRuntime
variable {definitions : Nat → ProjectionDefinition}

/-- The state is what the reducer of its version makes of the first events of the log. -/
def Folded (definitions : Nat → ProjectionDefinition) (log : List StoredEvent) (version checkpoint : Nat) (state : JsonValue) :
    Prop :=
  checkpoint ≤ log.length ∧
    (log.take checkpoint).foldlM (definitions version).reduce (definitions version).initialState = .ok state

theorem folded_zero (log : List StoredEvent) (version : Nat) :
    Folded definitions log version 0 (definitions version).initialState :=
  ⟨Nat.zero_le _, rfl⟩

theorem Folded.mono {log longer : List StoredEvent} {version checkpoint : Nat} {state : JsonValue}
    (folded : Folded definitions log version checkpoint state) (grown : log <+: longer) :
    Folded definitions longer version checkpoint state := by
  obtain ⟨inside, fold⟩ := folded
  refine ⟨Nat.le_trans inside grown.length_le, ?_⟩
  obtain ⟨added, rfl⟩ := grown
  rw [List.take_append_of_le_length inside]
  exact fold

/-- The loop of the runtime reduces as the plain fold does. -/
theorem reduceAll_ok {definition : ProjectionDefinition} {state result : JsonValue} {events : List StoredEvent}
    (reduced : definition.reduceAll state events = .ok result) : events.foldlM definition.reduce state = .ok result := by
  induction events generalizing state with
  | nil => exact reduced
  | cons event rest ih =>
    unfold ProjectionDefinition.reduceAll at reduced
    rw [List.foldlM_cons]
    cases next : definition.reduce state event with
    | error error =>
      rw [next] at reduced
      cases reduced
    | ok changed =>
      rw [next] at reduced
      change (do
        validateJson changed .default
        definition.reduceAll changed rest) = .ok result at reduced
      cases checked : validateJson changed .default with
      | error error =>
        rw [checked] at reduced
        cases reduced
      | ok _ =>
        rw [checked] at reduced
        exact ih reduced

/-- Reducing the section of the log behind a fold gives a longer fold. -/
theorem Folded.extend {log events : List StoredEvent} {version checkpoint : Nat} {state result : JsonValue}
    (folded : Folded definitions log version checkpoint state) (follows : log.Follows checkpoint events)
    (reduced : (definitions version).reduceAll state events = .ok result) :
    Folded definitions log version (checkpoint + events.length) result := by
  refine ⟨follows.length_le, ?_⟩
  rw [follows.take_eq, List.foldlM_append, folded.2]
  exact reduceAll_ok reduced

/-- Every state that is stored, of a projection or of a rebuild, is a fold of the log. -/
structure Faithful (definitions : Nat → ProjectionDefinition) (world : ProjectionWorld) : Prop where
  consistent : world.events.Consistent
  states : ∀ key state, world.projections.states.get? key = some state →
    Folded definitions world.events.all state.version state.checkpoint state.state
  rebuilds : ∀ runId run, world.projections.rebuilds.get? runId = some run →
    Folded definitions world.events.all run.projectionVersion run.nextPosition run.state

/-- How the stores change: the log grows at its end, no projection goes back
and no rebuild changes its version. -/
structure Grows (before after : ProjectionWorld) : Prop where
  log : before.events.all <+: after.events.all
  states : ∀ key state, before.projections.states.get? key = some state →
    ∃ later, after.projections.states.get? key = some later ∧ state.version ≤ later.version ∧
      state.checkpoint ≤ later.checkpoint
  rebuilds : ∀ runId run, before.projections.rebuilds.get? runId = some run →
    ∃ later, after.projections.rebuilds.get? runId = some later ∧ later.projectionVersion = run.projectionVersion

theorem Grows.refl (world : ProjectionWorld) : Grows world world where
  log := List.prefix_refl _
  states := fun _ state found => ⟨state, found, Nat.le_refl _, Nat.le_refl _⟩
  rebuilds := fun _ run found => ⟨run, found, rfl⟩

theorem Grows.trans {first second third : ProjectionWorld} (one : Grows first second) (two : Grows second third) :
    Grows first third where
  log := one.log.trans two.log
  states := by
    intro key state found
    obtain ⟨middle, foundMiddle, version, checkpoint⟩ := one.states key state found
    obtain ⟨last, foundLast, versionLast, checkpointLast⟩ := two.states key middle foundMiddle
    exact ⟨last, foundLast, Nat.le_trans version versionLast, Nat.le_trans checkpoint checkpointLast⟩
  rebuilds := by
    intro runId run found
    obtain ⟨middle, foundMiddle, version⟩ := one.rebuilds runId run found
    obtain ⟨last, foundLast, versionLast⟩ := two.rebuilds runId middle foundMiddle
    exact ⟨last, foundLast, versionLast.trans version⟩

/-- All workers keep the stores faithful and let them only grow. -/
def protocol (definitions : Nat → ProjectionDefinition) : Protocol ProjectionWorld Unit where
  permits := fun _ _ => True
  inv := Faithful definitions
  does := fun _ => Grows
  sees := fun _ => Grows
  outside := fun _ _ => False
  refl := Grows.refl _
  trans := Grows.trans
  seen := fun _ done => done
  seenOutside := fun _ impossible => impossible.elim
  keptOutside := fun _ impossible => impossible.elim

variable {world : ProjectionWorld}

theorem append_keeps (faithful : Faithful definitions world) (stream : StreamId) (expectedVersion : Int)
    (events : List NewEvent) :
    Faithful definitions { world with events := (world.events.append stream expectedVersion events).2 } ∧
      Grows world { world with events := (world.events.append stream expectedVersion events).2 } := by
  have appended := world.events.append_appended stream expectedVersion events
  have grown := (EventStore.appended_extends appended).1
  refine ⟨⟨faithful.consistent.appended appended, ?_, ?_⟩, ⟨grown, (Grows.refl world).states, (Grows.refl world).rebuilds⟩⟩
  · exact fun key state found => (faithful.states key state found).mono grown
  · exact fun runId run found => (faithful.rebuilds runId run found).mono grown

/-- Setting a key to a fold that is not behind what is stored for it. -/
theorem store_keeps (faithful : Faithful definitions world) {key : ProjectionKey} {projected : ProjectionState}
    (folded : Folded definitions world.events.all projected.version projected.checkpoint projected.state)
    (ahead : ∀ current, world.projections.states.get? key = some current →
      current.version ≤ projected.version ∧ current.checkpoint ≤ projected.checkpoint) :
    let after := { world with
      projections := { world.projections with states := world.projections.states.set key projected } }
    Faithful definitions after ∧ Grows world after := by
  refine ⟨⟨faithful.consistent, fun other state found => ?_, faithful.rebuilds⟩,
    ⟨List.prefix_refl _, fun other state found => ?_, (Grows.refl world).rebuilds⟩⟩
  · change (world.projections.states.set key projected).get? other = some state at found
    rcases Dict.get?_set_cases found with ⟨rfl, rfl⟩ | ⟨-, before⟩
    · exact folded
    · exact faithful.states other state before
  · change ∃ later, (world.projections.states.set key projected).get? other = some later ∧ _
    rw [Dict.get?_set]
    split
    · rename_i same
      subst same
      exact ⟨projected, rfl, ahead state found⟩
    · exact ⟨state, found, Nat.le_refl _, Nat.le_refl _⟩

/-- Setting a rebuild to a fold under the version it had, if it was there. -/
theorem rebuild_keeps (faithful : Faithful definitions world) {runId : String} {run : RebuildRun}
    (folded : Folded definitions world.events.all run.projectionVersion run.nextPosition run.state)
    (same : ∀ current, world.projections.rebuilds.get? runId = some current →
      run.projectionVersion = current.projectionVersion) :
    let after := { world with
      projections := { world.projections with rebuilds := world.projections.rebuilds.set runId run } }
    Faithful definitions after ∧ Grows world after := by
  refine ⟨⟨faithful.consistent, faithful.states, fun other stored found => ?_⟩,
    ⟨List.prefix_refl _, (Grows.refl world).states, fun other stored found => ?_⟩⟩
  · change (world.projections.rebuilds.set runId run).get? other = some stored at found
    rcases Dict.get?_set_cases found with ⟨rfl, rfl⟩ | ⟨-, before⟩
    · exact folded
    · exact faithful.rebuilds other stored before
  · change ∃ later, (world.projections.rebuilds.set runId run).get? other = some later ∧ _
    rw [Dict.get?_set]
    split
    · rename_i equal
      subst equal
      exact ⟨run, rfl, same stored found⟩
    · exact ⟨stored, found, rfl⟩

theorem apply_keeps (faithful : Faithful definitions world) {key : ProjectionKey} {checkpoint version : Nat}
    {state : JsonValue} {events : List StoredEvent}
    (folded : Folded definitions world.events.all version (checkpoint + events.length) state)
    (follows : world.events.all.Follows checkpoint events) :
    let after := { world with projections := (world.projections.apply key checkpoint version state events).2 }
    Faithful definitions after ∧ Grows world after := by
  have applied := world.projections.apply_applied key checkpoint version state events
  generalize (world.projections.apply key checkpoint version state events).2 = projections at applied ⊢
  cases applied with
  | refused => exact ⟨faithful, Grows.refl world⟩
  | stored projected sameVersion reached sameState current =>
    rw [follows.number_last faithful.consistent.positions] at reached
    refine store_keeps faithful (by rw [sameVersion, reached, sameState]; exact folded) fun stored found => ?_
    obtain ⟨expected, sameAsStored⟩ := current stored found
    omega

theorem advance_keeps (faithful : Faithful definitions world) {runId : String} {run : RebuildRun} {nextPosition : Nat}
    {state : JsonValue} {complete : Bool}
    (folded : Folded definitions world.events.all run.projectionVersion nextPosition state)
    (kept : ∃ later, world.projections.rebuilds.get? runId = some later ∧ later.projectionVersion = run.projectionVersion) :
    let after := { world with
      projections := (world.projections.advanceRebuild runId run.nextPosition state nextPosition complete).2 }
    Faithful definitions after ∧ Grows world after := by
  have advanced := world.projections.advanceRebuild_advanced runId run.nextPosition state nextPosition complete
  generalize (world.projections.advanceRebuild runId run.nextPosition state nextPosition complete).2 = projections at advanced ⊢
  obtain ⟨later, present, sameVersion⟩ := kept
  have moved : ∀ advanced : RebuildRun, advanced.projectionVersion = later.projectionVersion →
      advanced.nextPosition = nextPosition → advanced.state = state →
      Folded definitions world.events.all advanced.projectionVersion advanced.nextPosition advanced.state := by
    intro advanced version position same
    rw [version, sameVersion, position, same]
    exact folded
  cases advanced with
  | refused => exact ⟨faithful, Grows.refl world⟩
  | progressed current advanced found version position same _ =>
    cases present.symm.trans found
    refine rebuild_keeps faithful (moved advanced version position same) fun stored again => ?_
    cases found.symm.trans again
    exact version
  | completed current advanced projected found version position same _ projectedVersion projectedCheckpoint projectedState unblocked =>
    cases present.symm.trans found
    obtain ⟨first, grown⟩ := rebuild_keeps faithful (moved advanced version position same) fun stored again => by
      cases found.symm.trans again
      exact version
    have swapped : Folded definitions world.events.all projected.version projected.checkpoint projected.state := by
      rw [projectedVersion, sameVersion, projectedCheckpoint, projectedState]
      exact folded
    obtain ⟨second, grownAgain⟩ := store_keeps first swapped fun active stored => by
      obtain ⟨checkpoint, notNewer⟩ := unblocked active stored
      omega
    exact ⟨second, grown.trans grownAgain⟩

/-- An access that only reads. -/
theorem read_safe {α : Type} {i : Nat} (before : ProjectionWorld → Prop) {g : ProjectionWorld → Except PyError α}
    {post : Except PyError α → ProjectionWorld → Prop}
    (stable : ∀ w v, Grows w v → before w → before v) (stableAfter : ∀ result w v, Grows w v → post result w → post result v)
    (reads : ∀ w, Faithful definitions w → before w → post (g w) w) (now : before world) :
    (protocol definitions).Safe i post (atomically fun w => (g w, w)) world :=
  Protocol.Safe.when (fun w v grown _ => stable w v grown) (fun result w v grown _ => stableAfter result w v grown)
    (fun _ w faithful known _ _ => ⟨faithful, Grows.refl w, reads w faithful known⟩) now

/-- The last access of a call. -/
theorem write_safe {α : Type} {i : Nat} (before : ProjectionWorld → Prop)
    (f : ProjectionStore → Except PyError α × ProjectionStore) (stable : ∀ w v, Grows w v → before w → before v)
    (keeps : ∀ w, Faithful definitions w → before w →
      Faithful definitions { w with projections := (f w.projections).2 } ∧
        Grows w { w with projections := (f w.projections).2 }) (now : before world) :
    (protocol definitions).Safe i (fun _ _ => True) (onProjections f) world :=
  Protocol.Safe.when (fun w v grown _ => stable w v grown) (fun _ _ _ _ _ _ => trivial)
    (fun _ w faithful known _ _ => ⟨(keeps w faithful known).1, (keeps w faithful known).2, trivial⟩) now

/-- What a page tells: it is the section of the log behind the position. -/
def PageRead (checkpoint : Nat) : Except PyError EventPage → ProjectionWorld → Prop
  | .ok page, world => world.events.all.Follows checkpoint page.events
  | .error _, _ => True

theorem readAll_pageRead {limit : Int} {checkpoint : Nat} (faithful : Faithful definitions world)
    (inside : checkpoint ≤ world.events.all.length) : PageRead checkpoint (world.events.readAll checkpoint limit) world := by
  cases read : world.events.readAll checkpoint limit with
  | error error => trivial
  | ok page =>
    obtain ⟨-, -, same⟩ := EventStore.allReader.read_ok read
    change page = EventStore.page (·.globalPosition) world.events.all checkpoint limit.toNat at same
    rw [EventStore.page_numbered faithful.consistent.positions] at same
    subst same
    exact .of_take inside _

theorem pageRead_stable {checkpoint : Nat} (result : Except PyError EventPage) (w v : ProjectionWorld) (grown : Grows w v)
    (known : PageRead checkpoint result w) : PageRead checkpoint result v := by
  cases result with
  | error error => trivial
  | ok page => exact List.Follows.mono known grown.log

end Pytitect.ProjectionRuntime
