import Pytitect.Projections.Workers

namespace Pytitect

namespace ProjectionDefinition
variable {definition : ProjectionDefinition} {state middle result : JsonValue} {first second : List StoredEvent}

theorem reduceAll_append : definition.reduceAll state (first ++ second) =
    definition.reduceAll state first >>= fun middle => definition.reduceAll middle second := by
  induction first generalizing state with
  | nil => rfl
  | cons event rest ih =>
    rw [List.cons_append, reduceAll, reduceAll]
    cases definition.reduce state event with
    | error error => rfl
    | ok next =>
      change (validateJson next .default >>= fun _ => definition.reduceAll next (rest ++ second)) =
        (validateJson next .default >>= fun _ => definition.reduceAll next rest) >>= _
      cases validateJson next .default with
      | error error => rfl
      | ok _ => exact ih

theorem reduceAll_split (reduced : definition.reduceAll state (first ++ second) = .ok result) :
    ∃ middle, definition.reduceAll state first = .ok middle ∧ definition.reduceAll middle second = .ok result := by
  rw [reduceAll_append] at reduced
  exact bind_ok reduced

/-- Only valid states come out of the loop. -/
theorem reduceAll_valid (valid : validateJson state .default = .ok ()) (reduced : definition.reduceAll state first = .ok result) :
    validateJson result .default = .ok () := by
  induction first generalizing state with
  | nil =>
    cases reduced
    exact valid
  | cons event rest ih =>
    rw [reduceAll] at reduced
    obtain ⟨next, -, later⟩ := bind_ok reduced
    obtain ⟨_, checked, last⟩ := bind_ok later
    exact ih checked last

end ProjectionDefinition

namespace EventStore

theorem append_maxPageSize (s : EventStore) (id : StreamId) (expectedVersion : Int) (events : List NewEvent) :
    (s.append id expectedVersion events).2.maxPageSize = s.maxPageSize := by
  have appended := s.append_appended id expectedVersion events
  generalize (s.append id expectedVersion events).1 = result at appended
  generalize (s.append id expectedVersion events).2 = after at appended ⊢
  cases appended with
  | refused => rfl
  | committed => rfl

theorem run_maxPageSize {capacity maxPageSize : Nat} {past : List (AppendCall × Except PyError AppendResult)} {s : EventStore}
    (history : Run capacity maxPageSize past s) : s.maxPageSize = maxPageSize :=
  history.state_invariant (P := fun s => s.maxPageSize = maxPageSize) rfl fun _ s _ same _ => (s.append_maxPageSize ..).trans same

/-- What appends leave of a store that a rebuild reads from. -/
structure Longer (s t : EventStore) : Prop where
  consistent : t.Consistent
  log : s.all <+: t.all
  pages : t.maxPageSize = s.maxPageSize

theorem after_longer {s : EventStore} (consistent : s.Consistent) (appends : List AppendCall) :
    Longer s (History.after answer s appends) := by
  induction appends generalizing s with
  | nil => exact ⟨consistent, List.prefix_refl _, rfl⟩
  | cons call rest ih =>
    have grown := (appended_extends (s.append_appended call.stream call.expectedVersion call.events)).1
    have later := ih (consistent.append call.stream call.expectedVersion call.events)
    exact ⟨later.consistent, grown.trans later.log, later.pages.trans (s.append_maxPageSize ..)⟩

end EventStore

namespace ProjectionStore
variable {s : ProjectionStore} {runId : String} {current : RebuildRun} {state : JsonValue} {nextPosition : Nat}

/-- The run after a step of progress is the one before but for its position, state and status. -/
structure Continues (before after : RebuildRun) : Prop where
  key : after.key = before.key
  version : after.projectionVersion = before.projectionVersion
  through : after.throughPosition = before.throughPosition
  batch : after.batchSize = before.batchSize

theorem Continues.trans {first second third : RebuildRun} (one : Continues first second) (two : Continues second third) :
    Continues first third :=
  ⟨two.key.trans one.key, two.version.trans one.version, two.through.trans one.through, two.batch.trans one.batch⟩

/-- What a running rebuild becomes when it moves on. -/
structure MovedOn (current : RebuildRun) (state : JsonValue) (nextPosition : Nat) (status : RebuildStatus) (advanced : RebuildRun) :
    Prop where
  continues : Continues current advanced
  nextPosition : advanced.nextPosition = nextPosition
  state : advanced.state = state
  status : advanced.status = status

theorem advanceRebuild_running (found : s.rebuilds.get? runId = some current) (running : current.status = .running)
    (valid : validateJson state .default = .ok ()) (complete : Bool) :
    s.advanceRebuild runId current.nextPosition state nextPosition complete =
      s.advanceRunning runId current state valid nextPosition complete := by
  unfold advanceRebuild
  split
  · rename_i error invalid
    cases invalid.symm.trans valid
  · rw [found]
    dsimp only
    rw [if_neg (by simp [running])]

theorem advanceRebuild_progresses (found : s.rebuilds.get? runId = some current) (running : current.status = .running)
    (valid : validateJson state .default = .ok ()) (onward : current.nextPosition ≤ nextPosition)
    (short : nextPosition < current.throughPosition) :
    ∃ advanced, s.advanceRebuild runId current.nextPosition state nextPosition false =
        (.ok (some advanced), { s with rebuilds := s.rebuilds.set runId advanced }) ∧
      MovedOn current state nextPosition .running advanced := by
  have progress : current.nextPosition ≤ nextPosition ∧ nextPosition ≤ current.throughPosition ∧
      false = decide (nextPosition = current.throughPosition) := ⟨onward, short.le, (decide_eq_false (by omega)).symm⟩
  rw [advanceRebuild_running found running valid, advanceRunning, dif_pos progress]
  simp only [Bool.false_eq_true, false_and, if_false]
  exact ⟨_, rfl, ⟨rfl, rfl, rfl, rfl⟩, rfl, rfl, rfl⟩

theorem advanceRebuild_completes (found : s.rebuilds.get? runId = some current) (running : current.status = .running)
    (valid : validateJson state .default = .ok ())
    (unblocked : ∀ active, s.states.get? current.key = some active →
      active.checkpoint ≤ current.throughPosition ∧ active.version ≤ current.projectionVersion) :
    ∃ advanced projected, s.advanceRebuild runId current.nextPosition state current.throughPosition true =
        (.ok (some advanced), { s with rebuilds := s.rebuilds.set runId advanced, states := s.states.set current.key projected }) ∧
      MovedOn current state current.throughPosition .completed advanced ∧ projected.version = current.projectionVersion ∧
      projected.checkpoint = current.throughPosition ∧ projected.state = state := by
  have progress : current.nextPosition ≤ current.throughPosition ∧ current.throughPosition ≤ current.throughPosition ∧
      true = decide (current.throughPosition = current.throughPosition) := ⟨current.bounded, Nat.le_refl _, by simp⟩
  have free : ¬(true = true ∧ ((s.states.get? current.key).any fun active =>
      current.throughPosition < active.checkpoint ∨ current.projectionVersion < active.version) = true) := by
    rintro ⟨-, blocked⟩
    cases present : s.states.get? current.key with
    | none =>
      rw [present] at blocked
      cases blocked
    | some active =>
      have behind := unblocked active present
      rw [present, Option.any_some, decide_eq_true_eq] at blocked
      omega
  rw [advanceRebuild_running found running valid, advanceRunning, dif_pos progress]
  dsimp only
  rw [if_neg free, if_pos rfl]
  exact ⟨_, _, rfl, ⟨⟨rfl, rfl, rfl, rfl⟩, rfl, rfl, rfl⟩, rfl, rfl, rfl⟩

end ProjectionStore

namespace ProjectionRuntime

/-- `resume_rebuild`, undisturbed. -/
def resume (runId : String) (definition : ProjectionDefinition) (world : ProjectionWorld) :
    Option (Except PyError RebuildRun) × ProjectionWorld :=
  (resumeRebuild runId definition).alone () world

/-- Calls of `resume_rebuild`, each after some appends. -/
def rebuildCalls (runId : String) (definition : ProjectionDefinition) :
    List (List EventStore.AppendCall) → ProjectionWorld → List (Option (Except PyError RebuildRun)) × ProjectionWorld
  | [], world => ([], world)
  | appends :: rest, world =>
    let resumed := resume runId definition { world with events := History.after EventStore.answer world.events appends }
    let later := rebuildCalls runId definition rest resumed.2
    (resumed.1 :: later.1, later.2)

/-- How many calls a rebuild takes. -/
def callCount (throughPosition batchSize : Nat) : Nat := max 1 ((throughPosition + batchSize - 1) / batchSize)

theorem callCount_le {w b i : Nat} (positive : 0 < b) : callCount w b ≤ i ↔ 1 ≤ i ∧ w ≤ i * b := by
  unfold callCount
  rw [Nat.max_le]
  refine and_congr_right fun _ => ?_
  rw [Nat.div_le_iff_le_mul_add_pred positive, Nat.mul_comm b i]
  omega

variable {definition : ProjectionDefinition} {first : RebuildRun} {log : List StoredEvent} {final : JsonValue} {done : Nat}
  {world : ProjectionWorld}

/-- How far a rebuild has come after a number of calls. -/
def position (first : RebuildRun) (done : Nat) : Nat := min (done * first.batchSize) first.throughPosition

/-- The state of the world after a number of calls of a rebuild over the given log. -/
structure Rebuilding (definition : ProjectionDefinition) (first : RebuildRun) (log : List StoredEvent) (final : JsonValue) (done : Nat)
    (world : ProjectionWorld) : Prop where
  consistent : world.events.Consistent
  pages : first.batchSize ≤ world.events.maxPageSize
  whole : log <+: world.events.all
  run : ∃ run, world.projections.rebuilds.get? first.runId = some run ∧ ProjectionStore.Continues first run ∧
    run.nextPosition = position first done ∧
    definition.reduceAll definition.initialState (log.take (position first done)) = .ok run.state ∧
    (run.status = .completed ↔ callCount first.throughPosition first.batchSize ≤ done)
  behind : done < callCount first.throughPosition first.batchSize →
    ∀ active, world.projections.states.get? first.key = some active →
      active.checkpoint ≤ first.throughPosition ∧ active.version ≤ first.projectionVersion
  installed : callCount first.throughPosition first.batchSize ≤ done →
    ∃ projected, world.projections.states.get? first.key = some projected ∧ projected.version = first.projectionVersion ∧
      projected.checkpoint = first.throughPosition ∧ projected.state = final

/-- Appends between the calls do not matter. -/
theorem Rebuilding.appends (rebuilding : Rebuilding definition first log final done world) (appends : List EventStore.AppendCall) :
    Rebuilding definition first log final done { world with events := History.after EventStore.answer world.events appends } := by
  have longer := EventStore.after_longer rebuilding.consistent appends
  exact { rebuilding with
    consistent := longer.consistent
    pages := longer.pages ▸ rebuilding.pages
    whole := rebuilding.whole.trans longer.log }

theorem alone_atomically {α : Type} {value : α} {f : ProjectionWorld → Except PyError α × ProjectionWorld} {after : ProjectionWorld}
    (does : f world = (.ok value, after)) : (atomically f).alone () world = (some (.ok value), after) := by
  rw [atomically, Coroutine.alone_act, does]

/-- The part of a page that a rebuild uses: the next events of the log up to the watermark. -/
theorem page_selected (consistent : world.events.Consistent) (whole : log <+: world.events.all) (through : log.length = first.throughPosition)
    {position : Nat} (inside : position ≤ log.length) :
    (((world.events.all.drop position).take first.batchSize).filter (·.globalPosition ≤ first.throughPosition)) =
      (log.drop position).take first.batchSize := by
  have fits : position ≤ world.events.all.length := inside.trans whole.length_le
  have longer := whole.length_le
  have follows := List.Follows.of_take fits first.batchSize
  rw [follows.filter_upto_eq consistent.positions]
  obtain ⟨rest, all⟩ := whole
  rw [← all, List.drop_append_of_le_length inside, List.take_append_of_le_length (by rw [List.length_drop]; omega)]
  rw [← all, List.length_append] at longer
  refine List.take_eq_take_iff.mpr ?_
  simp only [List.length_take, List.length_append, List.length_drop]
  omega

/-- Reading a page of the size of the batch succeeds. -/
theorem page_read (consistent : world.events.Consistent) (pages : first.batchSize ≤ world.events.maxPageSize) (position : Nat) :
    ∃ page, world.events.readAll position first.batchSize = .ok page ∧
      page.events = (world.events.all.drop position).take first.batchSize := by
  have positive := first.positive.2
  have read : world.events.readAll position first.batchSize =
      .ok (EventStore.page (·.globalPosition) world.events.all position first.batchSize) := by
    unfold EventStore.readAll
    rw [EventStore.pageArguments_valid (Int.natCast_nonneg position) (by omega)]
    rfl
  refine ⟨_, read, ?_⟩
  rw [EventStore.page_numbered consistent.positions]

variable {run advanced : RebuildRun} {projections : ProjectionStore}

/-- A call on a rebuild that is completed returns it. -/
theorem resume_completed (found : world.projections.rebuilds.get? first.runId = some run)
    (version : run.projectionVersion = definition.version) (completed : run.status = .completed) :
    resume first.runId definition world = (some (.ok run), world) := by
  have loaded : (atomically fun world => (.ok (world.projections.loadRebuild first.runId), world)).alone () world =
      (some (.ok (some run)), world) := alone_atomically (by rw [ProjectionStore.loadRebuild, found])
  unfold resume resumeRebuild
  rw [Coroutine.alone_bind loaded]
  dsimp only
  rw [if_neg (by rw [version]; simp), if_pos completed]
  rfl

/-- A call on a running rebuild, access by access. -/
theorem resume_runs {page : EventPage} {state : JsonValue} {nextPosition : Nat} {complete : Bool}
    (found : world.projections.rebuilds.get? first.runId = some run) (version : run.projectionVersion = definition.version)
    (running : run.status = .running) (read : world.events.readAll run.nextPosition run.batchSize = .ok page)
    (reduced : definition.reduceAll run.state (page.events.filter (·.globalPosition ≤ run.throughPosition)) = .ok state)
    (isNext : ((page.events.filter (·.globalPosition ≤ run.throughPosition)).getLast?.map (·.globalPosition)).getD run.nextPosition =
      nextPosition)
    (isComplete : decide (nextPosition = run.throughPosition) = complete)
    (progress : ¬((page.events.filter (·.globalPosition ≤ run.throughPosition)).isEmpty ∧ ¬complete))
    (advances : world.projections.advanceRebuild first.runId run.nextPosition state nextPosition complete =
      (.ok (some advanced), projections)) :
    resume first.runId definition world = (some (.ok advanced), { world with projections }) := by
  have loaded : (atomically fun world => (.ok (world.projections.loadRebuild first.runId), world)).alone () world =
      (some (.ok (some run)), world) := alone_atomically (by rw [ProjectionStore.loadRebuild, found])
  have paged : (atomically fun world => (world.events.readAll run.nextPosition run.batchSize, world)).alone () world =
      (some (.ok page), world) := alone_atomically (by rw [read])
  have moved : (onProjections (·.advanceRebuild first.runId run.nextPosition state nextPosition complete)).alone () world =
      (some (.ok (some advanced)), { world with projections }) := alone_atomically (by dsimp only; rw [advances])
  unfold resume resumeRebuild
  rw [Coroutine.alone_bind loaded]
  dsimp only
  rw [if_neg (by rw [version]; simp), if_neg (by rw [running]; simp)]
  unfold resumeRunning
  rw [Coroutine.alone_bind paged]
  dsimp only
  rw [reduced]
  dsimp only
  rw [isNext, isComplete, if_neg progress, Coroutine.alone_bind moved]
  rfl

/-- What is fixed in a rebuild: it starts at position 0 with the initial state, its log is as long as its
watermark says, and the fold of that log is defined. -/
structure Begun (definition : ProjectionDefinition) (first : RebuildRun) (log : List StoredEvent) (final : JsonValue) : Prop where
  version : first.projectionVersion = definition.version
  through : log.length = first.throughPosition
  reduces : definition.reduceAll definition.initialState log = .ok final

theorem Begun.state_at (begun : Begun definition first log final) (n : Nat) :
    ∃ state, definition.reduceAll definition.initialState (log.take n) = .ok state ∧ validateJson state .default = .ok () := by
  have reduces := begun.reduces
  rw [← List.take_append_drop n log] at reduces
  obtain ⟨state, reduced, -⟩ := ProjectionDefinition.reduceAll_split reduces
  exact ⟨state, reduced, ProjectionDefinition.reduceAll_valid definition.valid reduced⟩

/-- What one call returns. -/
structure Resumed (first : RebuildRun) (done : Nat) (run : RebuildRun) : Prop where
  nextPosition : run.nextPosition = position first done
  status : run.status = .completed ↔ callCount first.throughPosition first.batchSize ≤ done

/-- A rebuild that is not finished stands at a multiple of its batch size. -/
theorem position_unfinished (unfinished : ¬callCount first.throughPosition first.batchSize ≤ done) :
    position first done = done * first.batchSize ∧ (1 ≤ done → position first done < first.throughPosition) := by
  have early := mt (callCount_le first.positive.2).mpr unfinished
  unfold position
  rcases Nat.eq_zero_or_pos done with rfl | started
  · omega
  · omega

/-- A call finishes the rebuild if it brings it to its watermark. -/
theorem position_finished : callCount first.throughPosition first.batchSize ≤ done + 1 ↔
    position first (done + 1) = first.throughPosition := by
  rw [callCount_le first.positive.2]
  unfold position
  omega

/-- The next position is at most one batch away. -/
theorem position_next (unfinished : ¬callCount first.throughPosition first.batchSize ≤ done) :
    position first (done + 1) = min (position first done + first.batchSize) first.throughPosition := by
  rw [(position_unfinished unfinished).1]
  unfold position
  rw [Nat.succ_mul]

/-- What a running rebuild reads, folds and writes in one call. -/
structure Batch (definition : ProjectionDefinition) (first run : RebuildRun) (done : Nat) (world : ProjectionWorld) (page : EventPage)
    (state : JsonValue) : Prop where
  read : world.events.readAll run.nextPosition run.batchSize = .ok page
  reduced : definition.reduceAll run.state (page.events.filter (·.globalPosition ≤ run.throughPosition)) = .ok state
  next : ((page.events.filter (·.globalPosition ≤ run.throughPosition)).getLast?.map (·.globalPosition)).getD run.nextPosition =
    position first (done + 1)
  progress : ¬((page.events.filter (·.globalPosition ≤ run.throughPosition)).isEmpty ∧
    ¬decide (position first (done + 1) = run.throughPosition))

theorem Rebuilding.batch (begun : Begun definition first log final) (rebuilding : Rebuilding definition first log final done world)
    (continues : ProjectionStore.Continues first run) (here : run.nextPosition = position first done)
    (folded : definition.reduceAll definition.initialState (log.take (position first done)) = .ok run.state)
    (unfinished : ¬callCount first.throughPosition first.batchSize ≤ done) {state : JsonValue}
    (whole : definition.reduceAll definition.initialState (log.take (position first (done + 1))) = .ok state) :
    ∃ page, Batch definition first run done world page state := by
  have through := begun.through
  have inside : position first done ≤ log.length := through ▸ Nat.min_le_right _ _
  have fits : position first done ≤ world.events.all.length := inside.trans rebuilding.whole.length_le
  have next := position_next unfinished
  obtain ⟨page, read, events⟩ := page_read rebuilding.consistent rebuilding.pages (position first done)
  have selected := page_selected rebuilding.consistent rebuilding.whole through inside
  have size : position first done + ((log.drop (position first done)).take first.batchSize).length = position first (done + 1) := by
    rw [List.length_take, List.length_drop]
    omega
  have follows := List.Follows.of_take inside first.batchSize
  refine ⟨page, ?_, ?_, ?_, ?_⟩
  · rw [here, continues.batch]
    exact read
  · rw [events, continues.through, selected]
    rw [← size, follows.take_eq, ProjectionDefinition.reduceAll_append, folded] at whole
    exact whole
  · rw [events, continues.through, selected, here,
      (follows.mono rebuilding.whole).number_last rebuilding.consistent.positions]
    exact size
  · rw [events, continues.through, selected, List.isEmpty_iff_length_eq_zero]
    simp only [decide_eq_true_eq]
    rintro ⟨empty, notYet⟩
    have positive := first.positive.2
    omega

/-- One more call returns, brings the rebuild as far as it should, and changes nothing if the rebuild was
completed before. -/
theorem Rebuilding.call (begun : Begun definition first log final) (rebuilding : Rebuilding definition first log final done world) :
    ∃ run after, resume first.runId definition world = (some (.ok run), after) ∧ Resumed first (done + 1) run ∧
      Rebuilding definition first log final (done + 1) after ∧
      (callCount first.throughPosition first.batchSize ≤ done → after = world) := by
  obtain ⟨run, found, continues, here, folded, status⟩ := rebuilding.run
  have version : run.projectionVersion = definition.version := continues.version.trans begun.version
  by_cases finished : callCount first.throughPosition first.batchSize ≤ done
  · -- The rebuild is completed: its position is the watermark, now and after any further call.
    have reached := ((callCount_le first.positive.2).mp finished).2
    have further : first.throughPosition ≤ (done + 1) * first.batchSize := by
      rw [Nat.succ_mul]
      omega
    have same : position first (done + 1) = position first done := by
      unfold position
      omega
    refine ⟨run, world, resume_completed found version (status.mpr finished), ⟨here.trans same.symm, ?_⟩, ?_, fun _ => rfl⟩
    · exact status.trans (iff_of_true finished (by omega))
    · refine { rebuilding with
        run := ⟨run, found, continues, here.trans same.symm, same ▸ folded, status.trans (iff_of_true finished (by omega))⟩
        behind := fun early => absurd finished (by omega)
        installed := fun _ => rebuilding.installed finished }
  · have running : run.status = .running := by
      cases now : run.status with
      | running => rfl
      | completed => exact absurd (status.mp now) finished
    obtain ⟨state, whole, valid⟩ := begun.state_at (position first (done + 1))
    obtain ⟨page, batch⟩ := rebuilding.batch begun continues here folded finished whole
    by_cases last : position first (done + 1) = first.throughPosition
    · have unblocked : ∀ active, world.projections.states.get? run.key = some active →
          active.checkpoint ≤ run.throughPosition ∧ active.version ≤ run.projectionVersion := by
        rw [continues.key, continues.through, continues.version]
        exact rebuilding.behind (by omega)
      obtain ⟨advanced, projected, advances, moved, sameVersion, checkpoint, stored⟩ :=
        ProjectionStore.advanceRebuild_completes found running valid unblocked
      have isComplete : decide (position first (done + 1) = run.throughPosition) = true :=
        decide_eq_true (last.trans continues.through.symm)
      rw [continues.through, ← last] at advances moved checkpoint
      have now := position_finished.mpr last
      have resumed := resume_runs found version running batch.read batch.reduced batch.next isComplete (isComplete ▸ batch.progress)
        advances
      refine ⟨advanced, _, resumed, ⟨moved.nextPosition, ?_⟩, ?_, fun early => absurd early finished⟩
      · exact iff_of_true moved.status now
      · refine { rebuilding with
          run := ⟨advanced, ?_, continues.trans moved.continues, moved.nextPosition, moved.state ▸ whole, iff_of_true moved.status now⟩
          behind := fun early => absurd now (by omega)
          installed := fun _ => ⟨projected, ?_, sameVersion.trans continues.version, checkpoint.trans last, ?_⟩ }
        · exact Dict.get?_set_self ..
        · rw [continues.key]
          exact Dict.get?_set_self ..
        · rw [last, ← begun.through, List.take_length, begun.reduces] at whole
          exact stored.trans (Except.ok.inj whole).symm
    · have next := position_next finished
      have inside : position first (done + 1) ≤ first.throughPosition := Nat.min_le_right _ _
      obtain ⟨advanced, advances, moved⟩ := ProjectionStore.advanceRebuild_progresses found running valid
        (here ▸ (by omega) : run.nextPosition ≤ position first (done + 1)) (continues.through ▸ (by omega))
      have notComplete : decide (position first (done + 1) = run.throughPosition) = false :=
        decide_eq_false (continues.through ▸ last)
      have notNow := mt position_finished.mp last
      have resumed := resume_runs found version running batch.read batch.reduced batch.next notComplete (notComplete ▸ batch.progress)
        advances
      refine ⟨advanced, _, resumed, ⟨moved.nextPosition, ?_⟩, ?_, fun early => absurd early finished⟩
      · exact iff_of_false (by rw [moved.status]; simp) notNow
      · exact { rebuilding with
          run := ⟨advanced, Dict.get?_set_self .., continues.trans moved.continues, moved.nextPosition, moved.state ▸ whole,
            iff_of_false (by rw [moved.status]; simp) notNow⟩
          behind := fun _ => rebuilding.behind (by omega)
          installed := fun now => absurd now notNow }

/-- The calls of a rebuild, from any number of calls on. -/
theorem Rebuilding.calls (begun : Begun definition first log final) (gaps : List (List EventStore.AppendCall))
    (rebuilding : Rebuilding definition first log final done world) :
    (rebuildCalls first.runId definition gaps world).1.length = gaps.length ∧
    (∀ i < gaps.length, ∃ run, (rebuildCalls first.runId definition gaps world).1[i]? = some (some (.ok run)) ∧
      Resumed first (done + i + 1) run) ∧
    Rebuilding definition first log final (done + gaps.length) (rebuildCalls first.runId definition gaps world).2 ∧
    (callCount first.throughPosition first.batchSize ≤ done →
      (rebuildCalls first.runId definition gaps world).2.projections = world.projections) := by
  induction gaps generalizing done world with
  | nil => exact ⟨rfl, fun i inside => absurd inside (Nat.not_lt_zero i), rebuilding, fun _ => rfl⟩
  | cons appends rest ih =>
    obtain ⟨run, after, resumed, returned, rebuildingThen, unchanged⟩ := (rebuilding.appends appends).call begun
    obtain ⟨length, answers, ended, still⟩ := ih rebuildingThen
    have step : rebuildCalls first.runId definition (appends :: rest) world =
        (some (.ok run) :: (rebuildCalls first.runId definition rest after).1, (rebuildCalls first.runId definition rest after).2) := by
      rw [rebuildCalls, resumed]
    rw [step]
    refine ⟨congrArg Nat.succ length, fun i inside => ?_, ?_, fun finished => ?_⟩
    · cases i with
      | zero => exact ⟨run, rfl, returned⟩
      | succ i =>
        obtain ⟨later, answered, told⟩ := answers i (Nat.lt_of_succ_lt_succ inside)
        have turns : done + 1 + i + 1 = done + (i + 1) + 1 := by omega
        exact ⟨later, answered, turns ▸ told⟩
    · have turns : done + 1 + rest.length = done + (appends :: rest).length := by
        rw [List.length_cons]
        omega
      exact turns ▸ ended
    · rw [still (by omega), unchanged finished]

theorem rebuildCalls_append (runId : String) (definition : ProjectionDefinition) (gaps more : List (List EventStore.AppendCall))
    (world : ProjectionWorld) :
    (rebuildCalls runId definition (gaps ++ more) world).2 =
      (rebuildCalls runId definition more (rebuildCalls runId definition gaps world).2).2 := by
  induction gaps generalizing world with
  | nil => rfl
  | cons appends rest ih => exact ih _

/-- Where a rebuild starts. -/
theorem beginRebuild_rebuilding (consistent : world.events.Consistent) (pages : first.batchSize ≤ world.events.maxPageSize)
    (fresh : first.nextPosition = 0 ∧ first.state = definition.initialState ∧ first.status = .running)
    (began : (world.projections.beginRebuild first).1 = .ok true)
    (behind : ∀ active, world.projections.states.get? first.key = some active →
      active.checkpoint ≤ first.throughPosition ∧ active.version ≤ first.projectionVersion) :
    Rebuilding definition first (world.events.all.take first.throughPosition) final 0
      { world with projections := (world.projections.beginRebuild first).2 } := by
  have stored : (world.projections.beginRebuild first).2 =
      { world.projections with rebuilds := world.projections.rebuilds.set first.runId first } := by
    unfold ProjectionStore.beginRebuild at began ⊢
    split at began
    · cases began
    split at began
    · cases began
    rw [if_neg ‹_›, if_neg ‹_›]
  have start : position first 0 = 0 := by simp [position]
  have pending : ¬callCount first.throughPosition first.batchSize ≤ 0 := by
    rw [callCount_le first.positive.2]
    omega
  rw [stored]
  refine ⟨consistent, pages, List.take_prefix _ _, ⟨first, Dict.get?_set_self .., ⟨rfl, rfl, rfl, rfl⟩, ?_, ?_, ?_⟩, fun _ => behind,
    fun finished => absurd finished pending⟩
  · exact fresh.1.trans start.symm
  · rw [start, fresh.2.1]
    rfl
  · exact iff_of_false (by simp [fresh.2.2]) pending

/-- A rebuild ends with the same result whatever its page size, provided that the states the reducer makes of
the events up to the watermark can be stored. -/
theorem rebuild_ends (definition : ProjectionDefinition) (first : RebuildRun) {capacity maxPageSize : Nat} {past : List (EventStore.AppendCall × Except PyError AppendResult)}
    (history : EventStore.Run capacity maxPageSize past world.events) (page : first.batchSize ≤ maxPageSize)
    (watermark : first.throughPosition ≤ world.events.all.length) (version : first.projectionVersion = definition.version)
    (fresh : first.nextPosition = 0 ∧ first.state = definition.initialState ∧ first.status = .running)
    (began : (world.projections.beginRebuild first).1 = .ok true)
    (behind : ∀ active, world.projections.states.get? first.key = some active →
      active.checkpoint ≤ first.throughPosition ∧ active.version ≤ first.projectionVersion)
    (reduces : definition.reduceAll definition.initialState (world.events.all.take first.throughPosition) = .ok final)
    (gaps more : List (List EventStore.AppendCall)) :
    let calls := callCount first.throughPosition first.batchSize
    let begun := { world with projections := (world.projections.beginRebuild first).2 }
    let ended := rebuildCalls first.runId definition gaps begun
    (ended.1.length = gaps.length ∧ ∀ i < gaps.length, ∃ run, ended.1[i]? = some (some (.ok run)) ∧
      run.nextPosition = position first (i + 1) ∧ (run.status = .completed ↔ calls ≤ i + 1) ∧
      (i + 1 < calls → position first i < run.nextPosition)) ∧
    (calls ≤ gaps.length →
      (∃ projected, ended.2.projections.states.get? first.key = some projected ∧ projected.version = first.projectionVersion ∧
        projected.checkpoint = first.throughPosition ∧ projected.state = final) ∧
      (rebuildCalls first.runId definition (gaps ++ more) begun).2.projections = ended.2.projections) := by
  intro calls begun ended
  have consistent := EventStore.Consistent.run history
  have pages : first.batchSize ≤ world.events.maxPageSize := (EventStore.run_maxPageSize history).symm ▸ page
  have begunRight : Begun definition first (world.events.all.take first.throughPosition) final :=
    ⟨version, by rw [List.length_take, Nat.min_eq_left watermark], reduces⟩
  have starts : Rebuilding definition first (world.events.all.take first.throughPosition) final 0 begun :=
    beginRebuild_rebuilding consistent pages fresh began behind
  obtain ⟨length, answers, rebuilding, -⟩ := starts.calls begunRight gaps
  rw [Nat.zero_add] at rebuilding
  refine ⟨⟨length, fun i inside => ?_⟩, fun finished => ⟨rebuilding.installed finished, ?_⟩⟩
  · obtain ⟨run, answered, resumed⟩ := answers i inside
    rw [Nat.zero_add] at resumed
    refine ⟨run, answered, resumed.nextPosition, resumed.status, fun early => ?_⟩
    have here := (position_unfinished (Nat.not_le.mpr early)).1
    have positive := first.positive.2
    rw [resumed.nextPosition, here, Nat.succ_mul]
    unfold position
    omega
  · rw [rebuildCalls_append]
    exact (rebuilding.calls begunRight more).2.2.2 finished

/-- Its states cannot be stored: the reducer returns a float that is not a number. -/
def unstorable : ProjectionDefinition := ⟨1, .int 0, fun _ _ => .ok (.float 0x7FF8000000000000), Nat.one_pos, zero_valid⟩

def sampleRun (throughPosition batchSize : Nat) (positive : 0 < batchSize) : RebuildRun :=
  ⟨"rebuild-1", sampleKey, 1, throughPosition, batchSize, 0, .int 0, .running, by decide, ⟨by decide, positive⟩, by omega, zero_valid⟩

def sampleAppends : List EventStore.AppendCall :=
  [⟨EventStore.sampleStream, 0,
    [EventStore.sampleEvent "e1" Sample.e1_named, EventStore.sampleEvent "e2" Sample.e2_named, EventStore.sampleEvent "e3" (by decide)]⟩]

def sampleWorld : ProjectionWorld := ⟨History.after EventStore.answer (.empty 8 2) sampleAppends, .empty 4⟩

theorem sampleWorld_run :
    EventStore.Run 8 2 (History.transcript EventStore.answer (.empty 8 2) sampleAppends) sampleWorld.events :=
  History.ofInputs (by simp [History.Permitted, sampleAppends])

def sampleGaps : List (List EventStore.AppendCall) :=
  [[], [⟨EventStore.sampleStream, 3, [EventStore.sampleEvent "e4" (by decide)]⟩]]

theorem counting_folded : (counting 1).reduceAll (counting 1).initialState (sampleWorld.events.all.take 3) = .ok (.int 3) := rfl

theorem sampleWorld_absent (active : ProjectionState) (found : sampleWorld.projections.states.get? sampleKey = some active) :
    active.checkpoint ≤ 3 ∧ active.version ≤ 1 :=
  nomatch found

/-- Three events in pages of two, with a fourth event between the two calls. -/
theorem counting_ends :
    ∃ projected, (rebuildCalls (sampleRun 3 2 (by decide)).runId (counting 1) sampleGaps
        { sampleWorld with projections := (sampleWorld.projections.beginRebuild (sampleRun 3 2 (by decide))).2
          }).2.projections.states.get? (sampleRun 3 2 (by decide)).key = some projected ∧
      projected.version = 1 ∧ projected.checkpoint = 3 ∧ projected.state = .int 3 := by
  have ends := rebuild_ends (counting 1) (sampleRun 3 2 (by decide)) sampleWorld_run (by decide) (by decide) rfl ⟨rfl, rfl, rfl⟩ rfl
    sampleWorld_absent counting_folded sampleGaps []
  have enough : callCount 3 2 ≤ sampleGaps.length := by decide
  exact (ends.2 enough).1

/-- A rebuild over one event whose calls raise: the state its reducer makes of the event is not valid. -/
theorem unstorable_raises :
    let first := sampleRun 1 1 (by decide)
    let begun := { sampleWorld with projections := (sampleWorld.projections.beginRebuild first).2 }
    EventStore.Run 8 2 (History.transcript EventStore.answer (.empty 8 2) sampleAppends) sampleWorld.events ∧
    first.batchSize ≤ 2 ∧ first.throughPosition ≤ sampleWorld.events.all.length ∧ first.projectionVersion = unstorable.version ∧
    (first.nextPosition = 0 ∧ first.state = unstorable.initialState ∧ first.status = .running) ∧
    (sampleWorld.projections.beginRebuild first).1 = .ok true ∧ sampleWorld.projections.states.get? first.key = none ∧
    ∃ error, (resume first.runId unstorable begun).1 = some (.error error) :=
  ⟨sampleWorld_run, by decide, by decide, rfl, ⟨rfl, rfl, rfl⟩, rfl, rfl, _, rfl⟩

end ProjectionRuntime

end Pytitect
