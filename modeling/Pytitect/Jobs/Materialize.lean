import Pytitect.Jobs.Schedules

namespace Pytitect.JobStore
variable {D : Type} {s t : JobStore D} {past : List (Call D × Answer)} {capacity : Nat} {now limit : Int} {error : PyError}
  {policies : Dict String (JobSchedule → PolicyAnswer)} {schedule : JobSchedule} {order : List JobSchedule}

/-- The jobs and decisions of the first store are those of the second, which may have further jobs. -/
structure Extends (s t : JobStore D) : Prop where
  jobs : ∀ jobId item, s.jobs.get? jobId = some item → t.jobs.get? jobId = some item
  decisions : t.decisions = s.decisions

theorem Grown.extends (grown : Grown s t) : Extends s t := by
  refine ⟨fun jobId item found => ?_, grown.decisions⟩
  rcases grown.jobs jobId with same | ⟨absent, -⟩
  · exact same.trans found
  · cases absent.symm.trans found

/-- The loop passes over a schedule. -/
abbrev Skipped (now limit : Int) (schedule : JobSchedule) (created : Nat) : Prop :=
  limit ≤ created ∨ schedule.active = false ∨ now < schedule.nextRun

section
variable {created new : Nat}

theorem loop_skipped (skipped : Skipped now limit schedule created) :
    materializeLoop now limit policies (schedule :: order) created s = materializeLoop now limit policies order created s := by
  rw [materializeLoop, if_pos skipped]

theorem loop_refused (due : ¬Skipped now limit schedule created) (did : s.createJob schedule = (.error error, t)) :
    materializeLoop now limit policies (schedule :: order) created s = (.error error, t) := by
  rw [materializeLoop, if_neg due, did]

theorem loop_stuck (due : ¬Skipped now limit schedule created) (did : s.createJob schedule = (.ok new, t))
    (refused : advanceSchedule schedule policies = .error error) :
    materializeLoop now limit policies (schedule :: order) created s = (.error error, t) := by
  rw [materializeLoop, if_neg due, did]
  dsimp only
  rw [refused]

theorem loop_next {following : JobSchedule} (due : ¬Skipped now limit schedule created) (did : s.createJob schedule = (.ok new, t))
    (advanced : advanceSchedule schedule policies = .ok following) :
    materializeLoop now limit policies (schedule :: order) created s =
      materializeLoop now limit policies order (created + new)
        { t with schedules := t.schedules.set schedule.scheduleId following } := by
  rw [materializeLoop, if_neg due, did]
  dsimp only
  rw [advanced]

/-- A loop that raises has gone through the schedules before the one that fails as a loop over them
alone, which returns; it then has seen to the failing one's next run, if it came that far. -/
theorem materializeLoop_raises (raised : (materializeLoop now limit policies order created s).1 = .error error) :
    ∃ done failing rest count mid, order = done ++ failing :: rest ∧
      materializeLoop now limit policies done created s = (.ok count, mid) ∧
      (materializeLoop now limit policies order created s).2 = (mid.createJob failing).2 := by
  induction order generalizing created s with
  | nil => cases raised
  | cons schedule rest ih =>
    by_cases skipped : Skipped now limit schedule created
    · rw [loop_skipped skipped] at raised ⊢
      obtain ⟨done, failing, later, count, mid, split, ran, same⟩ := ih raised
      exact ⟨schedule :: done, failing, later, count, mid, by rw [split]; rfl, (loop_skipped skipped).trans ran, same⟩
    · cases did : s.createJob schedule with
      | mk result after =>
        cases result with
        | error failure =>
          rw [loop_refused skipped did]
          exact ⟨[], schedule, rest, created, s, rfl, rfl, by rw [did]⟩
        | ok new =>
          cases advanced : advanceSchedule schedule policies with
          | error failure =>
            rw [loop_stuck skipped did advanced]
            exact ⟨[], schedule, rest, created, s, rfl, rfl, by rw [did]⟩
          | ok following =>
            rw [loop_next skipped did advanced] at raised ⊢
            obtain ⟨done, failing, later, count, mid, split, ran, same⟩ := ih raised
            exact ⟨schedule :: done, failing, later, count, mid, by rw [split]; rfl, (loop_next skipped did advanced).trans ran, same⟩

end

/-- Where a call that raises leaves the store. -/
structure Interrupted (s : JobStore D) (now limit : Int) (policies : Dict String (JobSchedule → PolicyAnswer)) (done : List JobSchedule)
    (failing : JobSchedule) (rest : List JobSchedule) (t : JobStore D) : Prop where
  order : s.order = done ++ failing :: rest
  handled : ∃ count mid, materializeLoop now limit policies done 0 s = (.ok count, mid) ∧ t = (mid.createJob failing).2
  waiting : ∀ schedule ∈ failing :: rest, t.schedules.get? schedule.scheduleId = some schedule
  resumed : runId failing.scheduleId failing.sequence ∈ t.jobs.keys → t.createJob failing = (.ok 0, t)

/-- A call that raises keeps all jobs and decisions. Unless its limit was refused, the schedules before
the one that fails are handled as in a call that returns; that one and those after it are not
advanced; and if the failing run has its job already, a later call does not create it again. -/
theorem materialize_raises (calls : Calls capacity past s) (raised : (s.materialize now limit policies).1 = .error error) :
    Extends s (s.materialize now limit policies).2 ∧
      (limit ≤ 0 ∧ (s.materialize now limit policies).2 = s ∨
        ∃ done failing rest, Interrupted s now limit policies done failing rest (s.materialize now limit policies).2) := by
  refine ⟨(s.materialize_grown now limit policies).extends, ?_⟩
  have arranged := calls.kept.arranged
  unfold materialize at raised ⊢
  split
  · rename_i refused
    exact Or.inl ⟨refused, rfl⟩
  rename_i positive
  rw [if_neg positive] at raised
  obtain ⟨done, failing, rest, count, mid, split, ran, same⟩ := materializeLoop_raises raised
  have apart := order_apart arranged
  rw [show s.order = done ++ failing :: rest from split, List.map_append, List.nodup_append] at apart
  refine Or.inr ⟨done, failing, rest, split, ⟨count, mid, ran, same⟩, fun schedule member => ?_, fun present => ?_⟩
  · have notDone : schedule.scheduleId ∉ done.map (·.scheduleId) := fun inDone =>
      apart.2.2 _ inDone _ (List.mem_map_of_mem member) rfl
    have kept := (materializeLoop_other now limit policies 0 s notDone).1
    rw [ran] at kept
    have inOrder : schedule ∈ s.order := by
      rw [show s.order = done ++ failing :: rest from split]
      exact List.mem_append_right _ member
    rw [same, createJob_schedules, kept]
    exact (mem_order arranged).mp inOrder
  · unfold createJob
    dsimp only
    exact if_pos present

/-- A schedule whose policy no caller knows. -/
def lawless : JobSchedule :=
  ⟨"s", "mail", .null, 0, .consumerPolicy, none, some "next", 3, 0, true, Sample.schedule_named, null_valid, by decide, fun _ => ⟨"next", rfl, by decide⟩, by decide⟩

theorem lawless_calls : Calls 9 (History.transcript answer (empty 9) [(.addSchedule lawless : Call Unit)])
    (History.after answer (empty 9) [.addSchedule lawless]) :=
  History.ofInputs ⟨trivial, trivial⟩

theorem lawless_raises : ((History.after answer (empty 9) [(.addSchedule lawless : Call Unit)]).materialize 0 1 .empty).1 =
    .error (.lookupError "unknown next-run policy: next") := rfl

theorem lawless_leaves_job : ∃ (past : List (Call Unit × Answer)) (s : JobStore Unit), Calls 9 past s ∧
    (∃ error, (s.materialize 0 1 .empty).1 = .error error) ∧ s.jobs.size = 0 ∧ (s.materialize 0 1 .empty).2.jobs.size = 1 :=
  ⟨_, _, lawless_calls, ⟨_, lawless_raises⟩, rfl, rfl⟩

theorem lawless_interrupted : ∃ done failing rest,
    Interrupted (History.after answer (empty 9) [(.addSchedule lawless : Call Unit)]) 0 1 .empty done failing rest
      ((History.after answer (empty 9) [(.addSchedule lawless : Call Unit)]).materialize 0 1 .empty).2 :=
  (materialize_raises lawless_calls lawless_raises).2.resolve_left fun refused => absurd refused.1 (by decide)

/-- A policy that is known and answers that there is no further run or when the next one is. -/
def WellBehaved (policies : Dict String (JobSchedule → PolicyAnswer)) (schedule : JobSchedule) : Prop :=
  schedule.kind = .consumerPolicy → ∃ policy, policies.get? (schedule.policy.getD "") = some policy ∧
    (policy schedule = .next none ∨ ∃ nextRun, policy schedule = .next (some nextRun) ∧ schedule.nextRun < nextRun)

/-- The job of the next run is there or may be created, and the next run of a fixed interval is in the
calendar. -/
def Runnable (s : JobStore D) (schedule : JobSchedule) : Prop :=
  (runId schedule.scheduleId schedule.sequence ∈ s.jobs.keys ∨ 0 < schedule.maxAttempts) ∧
    (schedule.kind = .fixedInterval → Fits schedule.nextRun (schedule.interval.getD 0))

/-- The schedules that a call sees to before it has created as many jobs as it may. -/
def attended (s : JobStore D) (now limit : Int) : List JobSchedule → Nat → List JobSchedule
  | [], _ => []
  | schedule :: rest, created =>
    if Skipped now limit schedule created then s.attended now limit rest created
    else
      schedule :: s.attended now limit rest
        (created + if runId schedule.scheduleId schedule.sequence ∈ s.jobs.keys then 0 else 1)

theorem advance_returns_iff (behaved : WellBehaved policies schedule) :
    (∃ following, advanceSchedule schedule policies = .ok following) ↔
      (schedule.kind = .fixedInterval → Fits schedule.nextRun (schedule.interval.getD 0)) := by
  unfold advanceSchedule
  dsimp only
  split
  · rename_i single
    exact iff_of_true ⟨_, rfl⟩ fun fixed => by cases single.symm.trans fixed
  · rename_i fixed
    constructor
    · rintro ⟨following, advanced⟩ -
      obtain ⟨nextRun, added, -⟩ := bind_ok advanced
      exact fits_of_datetimeAdd added
    · intro fits
      rw [datetimeAdd_fits (fits fixed)]
      exact ⟨_, rfl⟩
  · rename_i ruled
    refine iff_of_true ?_ fun fixed => by cases ruled.symm.trans fixed
    obtain ⟨policy, found, answers⟩ := behaved ruled
    rw [found]
    dsimp only
    rcases answers with last | ⟨nextRun, answers, later⟩
    · rw [last]
      exact ⟨_, rfl⟩
    · rw [answers]
      dsimp only
      rw [if_neg (by omega)]
      exact ⟨_, rfl⟩

theorem runId_ne_empty (scheduleId : String) (sequence : Int) : runId scheduleId sequence ≠ "" := by
  intro empty
  have text : runId scheduleId sequence = scheduleId ++ ":" ++ Int.repr sequence := rfl
  rw [text] at empty
  have characters := congrArg String.toList empty
  simp at characters

theorem runJob_iff : (∃ job, RunJob schedule job) ↔ 0 < schedule.maxAttempts := by
  unfold RunJob Job.make
  rw [dif_pos ⟨runId_ne_empty _ _, schedule.named.2⟩]
  split
  · rename_i counted
    refine iff_of_true ?_ counted.1
    split
    · rename_i error refused
      cases refused.symm.trans schedule.valid
    · exact ⟨_, rfl⟩
  · rename_i uncounted
    refine iff_of_false (by simp) fun positive => uncounted ⟨positive, Int.le_refl 0, Int.le_of_lt positive⟩

/-- With room for a job, a run is seen to if its job is there or may be created. -/
theorem createJob_returns (schedule : JobSchedule) (room : s.ensureCapacity 1 = .ok ()) :
    (runId schedule.scheduleId schedule.sequence ∈ s.jobs.keys ∨ 0 < schedule.maxAttempts →
      ∃ t, s.createJob schedule = (.ok (if runId schedule.scheduleId schedule.sequence ∈ s.jobs.keys then 0 else 1), t) ∧
        t.jobs.size = s.jobs.size + (if runId schedule.scheduleId schedule.sequence ∈ s.jobs.keys then 0 else 1) ∧
        t.schedules = s.schedules ∧ t.decisions = s.decisions ∧ t.capacity = s.capacity) ∧
    (¬(runId schedule.scheduleId schedule.sequence ∈ s.jobs.keys ∨ 0 < schedule.maxAttempts) →
      ∃ error t, s.createJob schedule = (.error error, t)) := by
  unfold createJob
  dsimp only
  by_cases present : runId schedule.scheduleId schedule.sequence ∈ s.jobs.keys
  · have isPresent : s!"{schedule.scheduleId}:{schedule.sequence}" ∈ s.jobs.keys := present
    rw [if_pos isPresent, if_pos present]
    exact ⟨fun _ => ⟨s, rfl, rfl, rfl, rfl, rfl⟩, fun refused => absurd (Or.inl present) refused⟩
  · have isAbsent : s!"{schedule.scheduleId}:{schedule.sequence}" ∉ s.jobs.keys := present
    rw [if_neg isAbsent, if_neg present, room]
    dsimp only
    constructor
    · intro may
      obtain ⟨job, made⟩ := runJob_iff.mpr (may.resolve_left present)
      have isMade : Job.make s!"{schedule.scheduleId}:{schedule.sequence}" schedule.task schedule.payload schedule.nextRun
          schedule.maxAttempts 0 .scheduled none = .ok job := made
      rw [isMade]
      exact ⟨_, rfl, Dict.size_set_of_absent isAbsent, rfl, rfl, rfl⟩
    · intro mayNot
      split
      · exact ⟨_, _, rfl⟩
      · rename_i job made
        exact absurd (Or.inr (runJob_iff.mp ⟨job, made⟩)) mayNot

theorem loop_returns_iff {created : Nat} (apart : (order.map (·.scheduleId)).Nodup)
    (sameKeys : ∀ schedule ∈ order, runId schedule.scheduleId schedule.sequence ∈ t.jobs.keys ↔
      runId schedule.scheduleId schedule.sequence ∈ s.jobs.keys)
    (known : ∀ schedule ∈ order, schedule.scheduleId ∈ t.schedules.keys)
    (room : t.jobs.size + t.schedules.size + t.decisions.length + (s.attended now limit order created).length ≤ t.capacity)
    (behaved : ∀ schedule ∈ s.attended now limit order created, WellBehaved policies schedule) :
    (∃ count, (materializeLoop now limit policies order created t).1 = .ok count) ↔
      ∀ schedule ∈ s.attended now limit order created, Runnable s schedule := by
  induction order generalizing created t with
  | nil => exact iff_of_true ⟨created, rfl⟩ (by simp [attended])
  | cons schedule rest ih =>
    obtain ⟨own, apartRest⟩ := List.nodup_cons.mp apart
    have keysRest : ∀ other ∈ rest, _ := fun other member => sameKeys other (List.mem_cons_of_mem _ member)
    have knownRest : ∀ other ∈ rest, other.scheduleId ∈ t.schedules.keys := fun other member => known other (List.mem_cons_of_mem _ member)
    by_cases skipped : Skipped now limit schedule created
    · have same : s.attended now limit (schedule :: rest) created = s.attended now limit rest created := by
        rw [attended, if_pos skipped]
      rw [same] at room behaved ⊢
      rw [loop_skipped skipped]
      exact ih apartRest keysRest knownRest room behaved
    have split : s.attended now limit (schedule :: rest) created = schedule :: s.attended now limit rest
        (created + if runId schedule.scheduleId schedule.sequence ∈ t.jobs.keys then 0 else 1) := by
      rw [attended, if_neg skipped]
      simp only [sameKeys schedule (List.mem_cons_self ..)]
    rw [split] at room behaved ⊢
    rw [List.length_cons] at room
    have first := sameKeys schedule (List.mem_cons_self ..)
    have roomOne : t.ensureCapacity 1 = .ok () := if_neg (by omega)
    obtain ⟨creates, refuses⟩ := createJob_returns schedule roomOne
    by_cases may : runId schedule.scheduleId schedule.sequence ∈ t.jobs.keys ∨ 0 < schedule.maxAttempts
    · obtain ⟨after, did, size, schedules, decisions, sameCapacity⟩ := creates may
      have others := fun {other : JobSchedule} (different : schedule.scheduleId ≠ other.scheduleId) => createJob_other t different
      rw [did] at others
      have advances := advance_returns_iff (behaved schedule (List.mem_cons_self ..))
      cases advanced : advanceSchedule schedule policies with
      | error error =>
        rw [loop_stuck skipped did advanced]
        refine iff_of_false (by simp) fun all => ?_
        obtain ⟨following, returned⟩ := advances.mpr (all schedule (List.mem_cons_self ..)).2
        cases advanced.symm.trans returned
      | ok following =>
        rw [loop_next skipped did advanced]
        have isRunnable : Runnable s schedule := ⟨may.imp_left first.mp, advances.mp ⟨following, advanced⟩⟩
        have inSchedules : schedule.scheduleId ∈ after.schedules.keys := by
          rw [schedules]
          exact known schedule (List.mem_cons_self ..)
        rw [ih apartRest]
        · constructor
          · intro all other member
            rcases List.mem_cons.mp member with rfl | later
            · exact isRunnable
            · exact all other later
          · exact fun all other later => all other (List.mem_cons_of_mem _ later)
        · intro other member
          have different : schedule.scheduleId ≠ other.scheduleId := fun same => own (List.mem_map.mpr ⟨other, member, same.symm⟩)
          have same := others different other.sequence
          rw [← keysRest other member, ← not_iff_not, ← Dict.get?_eq_none, ← Dict.get?_eq_none]
          exact (congrArg (· = none) same).to_iff
        · intro other member
          by_contra absent
          have none := Dict.get?_eq_none.mpr absent
          have different : other.scheduleId ≠ schedule.scheduleId := fun same => own (List.mem_map.mpr ⟨other, member, same⟩)
          rw [Dict.get?_set_of_ne different, schedules] at none
          exact Dict.get?_eq_none.mp none (knownRest other member)
        · dsimp only
          rw [Dict.size_set_of_mem inSchedules, size, schedules, decisions, sameCapacity]
          have atMostOne : (if runId schedule.scheduleId schedule.sequence ∈ t.jobs.keys then 0 else 1) ≤ 1 := by
            split
            · exact Nat.zero_le 1
            · exact Nat.le_refl 1
          generalize (if runId schedule.scheduleId schedule.sequence ∈ t.jobs.keys then 0 else 1) = new at room atMostOne ⊢
          omega
        · exact fun other later => behaved other (List.mem_cons_of_mem _ later)
    · obtain ⟨error, after, did⟩ := refuses may
      rw [loop_refused skipped did]
      exact iff_of_false (by simp) fun all => may ((all schedule (List.mem_cons_self ..)).1.imp_left first.mpr)

/-- In any store that calls can lead to, with room for the jobs and well-behaved policies, a call
returns if and only if every schedule that it sees to can be run. -/
theorem materialize_returns_iff (calls : Calls capacity past s) (positive : 0 < limit)
    (room : s.jobs.size + s.schedules.size + s.decisions.length + (s.attended now limit s.order 0).length ≤ s.capacity)
    (behaved : ∀ schedule ∈ s.attended now limit s.order 0, WellBehaved policies schedule) :
    (∃ count, (s.materialize now limit policies).1 = .ok count) ↔ ∀ schedule ∈ s.attended now limit s.order 0, Runnable s schedule := by
  have arranged := calls.kept.arranged
  unfold materialize
  rw [if_neg (by omega)]
  refine loop_returns_iff (order_apart arranged) (fun _ _ => Iff.rfl) (fun schedule member => ?_) room behaved
  exact Dict.keys_of_get? ((mem_order arranged).mp member)

/-- A schedule that is admitted although no job can be made for it. -/
def hopeless : JobSchedule :=
  ⟨"s", "mail", .null, 0, .oneShot, none, none, 0, 0, true, Sample.schedule_named, null_valid, by decide, by decide, fun _ => ⟨rfl, rfl⟩⟩

theorem hopeless_raises : ∃ (past : List (Call Unit × Answer)) (s : JobStore Unit), Calls 9 past s ∧
    (.addSchedule hopeless, .added (.ok true)) ∈ past ∧ s.jobs.size + s.schedules.size + s.decisions.length + 1 ≤ s.capacity ∧
    WellBehaved .empty hopeless ∧ (s.materialize 0 1 .empty).1 = .error (.valueError "job attempts are invalid") := by
  have run : Calls 9 (History.transcript answer (empty 9) [(.addSchedule hopeless : Call Unit)])
      (History.after answer (empty 9) [.addSchedule hopeless]) := History.ofInputs ⟨trivial, trivial⟩
  exact ⟨_, _, run, List.mem_cons_self .., by decide, by simp [WellBehaved, hopeless], rfl⟩

theorem everyFive_returns :
    ∃ count, ((History.after answer (empty 9) [(.addSchedule everyFive : Call Unit)]).materialize 0 1 .empty).1 = .ok count := by
  have run : Calls 9 (History.transcript answer (empty 9) [(.addSchedule everyFive : Call Unit)])
      (History.after answer (empty 9) [.addSchedule everyFive]) := History.ofInputs ⟨trivial, trivial⟩
  have attends : (History.after answer (empty 9) [(.addSchedule everyFive : Call Unit)]).attended 0 1
      (History.after answer (empty 9) [(.addSchedule everyFive : Call Unit)]).order 0 = [everyFive] := rfl
  refine (materialize_returns_iff run (by decide) (by rw [attends]; decide) ?_).mpr ?_
  · rw [attends]
    simp [WellBehaved, everyFive]
  · rw [attends]
    intro schedule member
    cases List.mem_singleton.mp member
    exact ⟨Or.inr (by decide), fun _ => ⟨by decide, by decide⟩⟩

end Pytitect.JobStore
