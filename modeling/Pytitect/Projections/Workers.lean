import Pytitect.Projections.Fold

namespace Pytitect.ProjectionRuntime
variable {definitions : Nat → ProjectionDefinition} {world : ProjectionWorld} {i : Nat}

/-- What `load` tells: a stored state is a fold. -/
def StateLoaded (definitions : Nat → ProjectionDefinition) : Except PyError (Option ProjectionState) → ProjectionWorld → Prop
  | .ok current, world => ∀ state, current = some state →
    Folded definitions world.events.all state.version state.checkpoint state.state
  | .error _, _ => True

theorem stateLoaded_stable (result : Except PyError (Option ProjectionState)) (w v : ProjectionWorld) (grown : Grows w v)
    (known : StateLoaded definitions result w) : StateLoaded definitions result v := by
  cases result with
  | error error => trivial
  | ok current => exact fun state same => (known state same).mono grown.log

/-- What a call of a known version starts from is a fold, be it stored or initial. -/
theorem loaded_folded {version : Nat} {current : Option ProjectionState}
    (known : StateLoaded definitions (.ok current) world) (same : current.filter (·.version ≠ version) = none) :
    Folded definitions world.events.all version ((current.map (·.checkpoint)).getD 0)
      ((current.map (·.state)).getD (definitions version).initialState) := by
  cases current with
  | none => exact folded_zero _ _
  | some state =>
    simp only [Option.filter_eq_none_iff, Option.some.injEq, forall_eq', decide_not, Bool.not_eq_true',
      decide_eq_false_iff_not, not_not] at same
    exact same ▸ known state rfl

/-- Between `read_all` and `apply` a worker holds the fold it is about to store. -/
def Prepared (definitions : Nat → ProjectionDefinition) (version checkpoint : Nat) (events : List StoredEvent)
    (state : JsonValue) (world : ProjectionWorld) : Prop :=
  Folded definitions world.events.all version (checkpoint + events.length) state ∧
    world.events.all.Follows checkpoint events

theorem Prepared.mono {version checkpoint : Nat} {events : List StoredEvent} {state : JsonValue} {later : ProjectionWorld}
    (prepared : Prepared definitions version checkpoint events state world) (grown : Grows world later) :
    Prepared definitions version checkpoint events state later :=
  ⟨prepared.1.mono grown.log, prepared.2.mono grown.log⟩

theorem load_safe (key : ProjectionKey) :
    (protocol definitions).Safe i (StateLoaded definitions)
      (atomically fun w => (.ok (w.projections.load key), w)) world :=
  read_safe (fun _ => True) (fun _ _ _ _ => trivial) stateLoaded_stable
    (fun _ faithful _ state found => faithful.states key state found) trivial

/-- Reading a page keeps what is known. -/
theorem readPage_safe (definitions : Nat → ProjectionDefinition) (i : Nat) {known : ProjectionWorld → Prop} {checkpoint : Nat} (limit : Int)
    (stable : ∀ w v, Grows w v → known w → known v) (inside : ∀ w, known w → checkpoint ≤ w.events.all.length)
    (now : known world) :
    (protocol definitions).Safe i (fun result w => PageRead checkpoint result w ∧ known w)
      (atomically fun w => (w.events.readAll checkpoint limit, w)) world :=
  read_safe known stable (fun result w v grown after => ⟨pageRead_stable result w v grown after.1, stable w v grown after.2⟩)
    (fun w faithful holds => ⟨readAll_pageRead faithful (inside w holds), holds⟩) now

theorem projectOnce_safe (faithful : Faithful definitions world) (key : ProjectionKey) (version : Nat)
    (own : (definitions version).version = version) (limit : Int) :
    (protocol definitions).Safe i (fun _ _ => True) (projectOnce key (definitions version) limit) world := by
  refine Protocol.Safe.bind (load_safe key) faithful (fun current w faithfulThen loaded => ?_) fun _ _ _ _ => trivial
  dsimp only
  rw [own]
  split
  · exact Protocol.Safe.done fun _ _ _ => trivial
  rename_i same
  have read := readPage_safe definitions i limit (fun _ _ grown folded => Folded.mono folded grown.log)
    (fun _ folded => folded.1) (loaded_folded loaded same)
  refine Protocol.Safe.bind read faithfulThen (fun page v _ after => ?_) fun _ _ _ _ => trivial
  split
  · exact Protocol.Safe.done fun _ _ _ => trivial
  · rename_i state reduced
    have prepared : Prepared definitions version ((current.map (·.checkpoint)).getD 0) page.events state v :=
      ⟨after.2.extend after.1 reduced, after.1⟩
    exact write_safe _ _ (fun _ _ grown known => known.mono grown)
      (fun _ faithfulLast known => apply_keeps faithfulLast known.1 known.2) prepared

/-- What `load_rebuild` tells: the run is a fold up to its position, and its version stays. -/
def RunLoaded (definitions : Nat → ProjectionDefinition) (runId : String) (version position : Nat) (state : JsonValue)
    (world : ProjectionWorld) : Prop :=
  Folded definitions world.events.all version position state ∧
    ∃ later, world.projections.rebuilds.get? runId = some later ∧ later.projectionVersion = version

theorem RunLoaded.mono {runId : String} {version position : Nat} {state : JsonValue} {later : ProjectionWorld}
    (loaded : RunLoaded definitions runId version position state world) (grown : Grows world later) :
    RunLoaded definitions runId version position state later := by
  obtain ⟨folded, stored, found, same⟩ := loaded
  obtain ⟨next, foundNext, sameNext⟩ := grown.rebuilds runId stored found
  exact ⟨folded.mono grown.log, next, foundNext, sameNext.trans same⟩

theorem resumeRunning_safe (faithful : Faithful definitions world) {runId : String} {run : RebuildRun}
    (loaded : RunLoaded definitions runId run.projectionVersion run.nextPosition run.state world) :
    (protocol definitions).Safe i (fun _ _ => True)
      (resumeRunning run runId (definitions run.projectionVersion)) world := by
  have read := readPage_safe definitions i run.batchSize (fun _ _ grown known => RunLoaded.mono known grown)
    (fun _ known => known.1.1) loaded
  refine Protocol.Safe.bind read faithful (fun page v faithfulLater after => ?_) fun _ _ _ _ => trivial
  dsimp only
  have selected := List.Follows.filter_upto after.1 faithfulLater.consistent.positions run.throughPosition
  split
  · exact Protocol.Safe.done fun _ _ _ => trivial
  rename_i state reduced
  split
  · exact Protocol.Safe.done fun _ _ _ => trivial
  rw [selected.number_last faithfulLater.consistent.positions]
  have prepared : RunLoaded definitions runId run.projectionVersion _ state v :=
    ⟨after.2.1.extend selected reduced, after.2.2⟩
  refine Protocol.Safe.bind (write_safe _ _ (fun _ _ grown known => known.mono grown)
      (fun _ faithfulLast known => advance_keeps faithfulLast known.1 known.2) prepared) faithfulLater
    (fun advanced _ _ _ => ?_) fun _ _ _ _ => trivial
  cases advanced with
  | none => exact Protocol.Safe.done fun _ _ _ => trivial
  | some advanced => exact Protocol.Safe.done fun _ _ _ => trivial

theorem resumeRebuild_safe (faithful : Faithful definitions world) (runId : String) (version : Nat)
    (own : (definitions version).version = version) :
    (protocol definitions).Safe i (fun _ _ => True) (resumeRebuild runId (definitions version)) world := by
  have load : (protocol definitions).Safe i
      (fun result w => ∀ run, result = .ok (some run) →
        RunLoaded definitions runId run.projectionVersion run.nextPosition run.state w)
      (atomically fun w => (.ok (w.projections.loadRebuild runId), w)) world := by
    refine read_safe (fun _ => True) (fun _ _ _ _ => trivial) (fun _ _ _ grown known run same => (known run same).mono grown)
      (fun w faithful _ run same => ?_) trivial
    have found : w.projections.rebuilds.get? runId = some run := Except.ok.inj same
    exact ⟨faithful.rebuilds runId run found, run, found, rfl⟩
  refine Protocol.Safe.bind load faithful (fun loaded w faithfulThen known => ?_) fun _ _ _ _ => trivial
  cases loaded with
  | none => exact Protocol.Safe.done fun _ _ _ => trivial
  | some run =>
    dsimp only
    rw [own]
    split
    · exact Protocol.Safe.done fun _ _ _ => trivial
    rename_i same
    rw [not_not] at same
    split
    · exact Protocol.Safe.done fun _ _ _ => trivial
    · rw [← same]
      exact resumeRunning_safe faithfulThen (known run rfl)

/-- There is one definition for each version, and rebuilds begin at position 0
with the initial state of theirs. -/
def Call.Proper (definitions : Nat → ProjectionDefinition) : Call → Prop
  | .append _ _ _ => True
  | .projectOnce _ definition _ => definition = definitions definition.version
  | .beginRebuild run => run.nextPosition = 0 ∧ run.state = (definitions run.projectionVersion).initialState
  | .resumeRebuild _ definition => definition = definitions definition.version

theorem beginRebuild_keeps (faithful : Faithful definitions world) {run : RebuildRun}
    (proper : (Call.beginRebuild run).Proper definitions) :
    let after := { world with projections := (world.projections.beginRebuild run).2 }
    Faithful definitions after ∧ Grows world after := by
  unfold ProjectionStore.beginRebuild
  split
  · exact ⟨faithful, Grows.refl world⟩
  rename_i absent
  split
  · exact ⟨faithful, Grows.refl world⟩
  refine rebuild_keeps faithful ?_ fun current found => absurd (Dict.keys_of_get? found) absent
  rw [proper.1, proper.2]
  exact folded_zero _ _

theorem task_safe (faithful : Faithful definitions world) (call : Call) (proper : call.Proper definitions) :
    (protocol definitions).Safe i (fun _ _ => True) call.task world := by
  have answered : ∀ {α : Type} (answer : α → Answer) (body : Task α),
      (protocol definitions).Safe i (fun _ _ => True) body world →
      (protocol definitions).Safe i (fun _ _ => True) (answer <$> body) world :=
    fun answer body safe => Protocol.Safe.bind safe faithful
      (fun value _ _ _ => Protocol.Safe.done fun _ _ _ => trivial) fun _ _ _ _ => trivial
  cases call with
  | append stream expectedVersion events =>
    exact answered _ _ (Protocol.Harmless.when
      (fun _ _ faithfulThen => append_keeps faithfulThen stream expectedVersion events) world faithful)
  | projectOnce key definition limit =>
    have own : (definitions definition.version).version = definition.version := by rw [← proper]
    change definition = definitions definition.version at proper
    rw [proper]
    exact answered _ _ (projectOnce_safe faithful key _ own limit)
  | beginRebuild run =>
    exact answered _ _ (write_safe (fun _ => True) _ (fun _ _ _ _ => trivial)
      (fun _ faithfulThen _ => beginRebuild_keeps faithfulThen proper) trivial)
  | resumeRebuild runId definition =>
    have own : (definitions definition.version).version = definition.version := by rw [← proper]
    change definition = definitions definition.version at proper
    rw [proper]
    exact answered _ _ (resumeRebuild_safe faithful runId _ own)

theorem start_safe (capacity maxPageSize projectionCapacity : Nat) {calls : Nat → Call}
    (proper : ∀ i, (calls i).Proper definitions) :
    Protocol.AllSafe (protocol definitions) (fun _ _ _ => True) (start capacity maxPageSize projectionCapacity calls) := by
  have faithful : Faithful definitions ⟨.empty capacity maxPageSize, .empty projectionCapacity⟩ :=
    ⟨EventStore.Consistent.start capacity maxPageSize, by simp [ProjectionStore.empty], by simp [ProjectionStore.empty]⟩
  exact ⟨faithful, fun i => task_safe faithful (calls i) (proper i)⟩

/-- Whatever the order in which appends, projections and rebuilds take their
steps, a stored state of version `v` and checkpoint `c` is the fold of the first
`c` events by the definition of version `v`, and no key goes back in version or
checkpoint. -/
theorem projections_fold_log (capacity maxPageSize projectionCapacity : Nat) {calls : Nat → Call}
    (proper : ∀ i, (calls i).Proper definitions) {s : EventLoop ProjectionWorld Unit Unit PyError Answer}
    (run : Relation.ReflTransGen Step (start capacity maxPageSize projectionCapacity calls) s) :
    s.shared.events.all.map (·.globalPosition) = List.range' 1 s.shared.events.all.length ∧
    (∀ key state, s.shared.projections.states.get? key = some state →
      state.checkpoint ≤ s.shared.events.all.length ∧
      (s.shared.events.all.take state.checkpoint).foldlM (definitions state.version).reduce
        (definitions state.version).initialState = .ok state.state) ∧
    ∀ t, Relation.ReflTransGen Step s t → ∀ key state, s.shared.projections.states.get? key = some state →
      ∃ later, t.shared.projections.states.get? key = some later ∧ state.version ≤ later.version ∧
        state.checkpoint ≤ later.checkpoint := by
  have safe := (start_safe capacity maxPageSize projectionCapacity proper).run run
  have faithful : Faithful definitions s.shared := safe.1
  refine ⟨faithful.consistent.positions, faithful.states, fun t further => ?_⟩
  have grown : Grows s.shared t.shared :=
    safe.related Grows.refl Grows.trans (fun _ _ _ done => done) (fun _ _ impossible => False.elim impossible) further
  exact grown.states

/-- Version `v` counts the events in steps of `v`. -/
def counting (version : Nat) : ProjectionDefinition where
  version := max 1 version
  initialState := .int 0
  reduce := fun state _ =>
    match state with
    | .int n => .ok (.int (n + version))
    | _ => .error (.raised "TypeError")
  positive := Nat.le_max_left _ _
  valid := zero_valid

def sampleKey : ProjectionKey := ⟨"p", "a", by decide⟩

/-- One event, a projection of version 1 and a rebuild to version 2. -/
def sampleCalls : Nat → Call
  | 0 => .append EventStore.sampleStream 0 [EventStore.sampleEvent "e1" Sample.e1_named]
  | 1 => .projectOnce sampleKey (counting 1) 1
  | 2 => .beginRebuild ⟨"r", sampleKey, 2, 1, 1, 0, .int 0, .running, by decide, by decide, by decide, zero_valid⟩
  | _ => .resumeRebuild "r" (counting 2)

/-- The rebuild completes between the load and the apply of the projection,
which is then refused. -/
theorem rebuild_overtakes :
    ∃ s : EventLoop ProjectionWorld Unit Unit PyError Answer,
      Relation.ReflTransGen Step (start 4 4 4 sampleCalls) s ∧
      (s.task 1).result?.isSome ∧
      ∃ state, s.shared.projections.states.get? sampleKey = some state ∧ state.version = 2 ∧ state.checkpoint = 1 ∧
        (s.shared.events.all.take 1).foldlM (counting 2).reduce (.int 0) = .ok state.state := by
  let schedule : List (Nat × Unit) := [(0, ()), (1, ()), (2, ()), (3, ()), (3, ()), (3, ()), (1, ()), (1, ())]
  have proper : ∀ i, (sampleCalls i).Proper counting := by
    intro i
    match i with
    | 0 => trivial
    | 1 => rfl
    | 2 => exact ⟨rfl, rfl⟩
    | _ + 3 => rfl
  have run : Relation.ReflTransGen Step (start 4 4 4 sampleCalls) ((start 4 4 4 sampleCalls).play schedule) :=
    EventLoop.run_of_plays (fun _ _ => true) (fun _ _ _ => trivial) (by decide +kernel)
  obtain ⟨-, folds, -⟩ := projections_fold_log 4 4 4 proper run
  obtain ⟨s, played⟩ : ∃ s, s = (start 4 4 4 sampleCalls).play schedule := ⟨_, rfl⟩
  rw [← played] at run folds
  have stored : (s.shared.projections.states.get? sampleKey).map (fun state => (state.version, state.checkpoint)) =
      some (2, 1) := by
    rw [played]
    decide +kernel
  have finished : (s.task 1).result?.isSome := by
    rw [played]
    decide +kernel
  obtain ⟨state, found, same⟩ := Option.map_eq_some_iff.mp stored
  have version : state.version = 2 := congrArg Prod.fst same
  have checkpoint : state.checkpoint = 1 := congrArg Prod.snd same
  have fold := (folds sampleKey state found).2
  rw [version, checkpoint] at fold
  exact ⟨s, run, finished, state, found, version, checkpoint, fold⟩

end Pytitect.ProjectionRuntime
