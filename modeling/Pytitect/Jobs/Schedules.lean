import Pytitect.Jobs.Attempts

namespace Pytitect

/-- The id of the job for one run of a schedule. -/
def runId (scheduleId : String) (sequence : Int) : String := s!"{scheduleId}:{sequence}"

theorem append_cons_inj {α : Type} {c : α} {front front' back back' : List α} (absent : c ∉ front) (absent' : c ∉ front')
    (same : front ++ c :: back = front' ++ c :: back') : front = front' ∧ back = back' := by
  induction front generalizing front' with
  | nil =>
    cases front' with
    | nil => exact ⟨rfl, (List.cons.inj same).2⟩
    | cons first rest => exact absurd (List.cons.inj same).1 fun isFirst => absent' (isFirst ▸ List.mem_cons_self ..)
  | cons first rest ih =>
    cases front' with
    | nil => exact absurd (List.cons.inj same).1.symm fun isFirst => absent (isFirst ▸ List.mem_cons_self ..)
    | cons first' rest' =>
      obtain ⟨sameFirst, sameRest⟩ := List.cons.inj same
      simp only [List.mem_cons, not_or] at absent absent'
      obtain ⟨sameFront, sameBack⟩ := ih absent.2 absent'.2 sameRest
      exact ⟨by rw [sameFirst, sameFront], sameBack⟩

theorem natRepr_digits {n : Nat} {c : Char} (among : c ∈ n.repr.toList) : c.isDigit = true := by
  rw [Nat.toList_repr] at among
  exact Nat.isDigit_of_mem_toDigits (by decide) (by decide) among

theorem natRepr_injective {m n : Nat} (same : m.repr = n.repr) : m = n := by
  have digits := congrArg String.toList same
  rw [Nat.toList_repr, Nat.toList_repr] at digits
  rw [← Nat.ofDigitChars_ten_toDigits (n := m), digits, Nat.ofDigitChars_ten_toDigits]

/-- A number is written with digits after at most a sign. -/
theorem intRepr_colon (k : Int) : ':' ∉ (Int.repr k).toList := by
  intro among
  cases k with
  | ofNat n => exact absurd (natRepr_digits among) (by decide)
  | negSucc n =>
    rw [Int.repr, String.toList_append] at among
    rcases List.mem_append.mp among with sign | digit
    · exact absurd sign (by decide)
    · exact absurd (natRepr_digits digit) (by decide)

theorem intRepr_injective {j k : Int} (same : Int.repr j = Int.repr k) : j = k := by
  have unsigned : ∀ m n : Nat, m.repr ≠ "-" ++ n.repr := by
    intro m n equal
    have first : '-' ∈ m.repr.toList := by
      rw [equal, String.toList_append]
      exact List.mem_append_left _ (by decide)
    exact absurd (natRepr_digits first) (by decide)
  cases j with
  | ofNat m =>
    cases k with
    | ofNat n => exact congrArg Int.ofNat (natRepr_injective same)
    | negSucc n => exact absurd same (unsigned m _)
  | negSucc m =>
    cases k with
    | ofNat n => exact absurd same.symm (unsigned n _)
    | negSucc n =>
      have digits := natRepr_injective ((String.append_right_inj "-").mp same)
      exact congrArg Int.negSucc (Nat.succ.inj digits)

/-- The runs of different schedules, and different runs of a schedule, have different ids: the number
is what follows the last colon. -/
theorem runId_inj {first second : String} {j k : Int} : runId first j = runId second k ↔ first = second ∧ j = k := by
  constructor
  · intro same
    have parts : ∀ (name : String) (number : Int), (runId name number).toList.reverse =
        (Int.repr number).toList.reverse ++ ':' :: name.toList.reverse := by
      intro name number
      have text : runId name number = name ++ ":" ++ Int.repr number := rfl
      rw [text, String.toList_append, String.toList_append, List.reverse_append, List.reverse_append]
      rfl
    have reversed := congrArg (fun text : String => text.toList.reverse) same
    simp only [parts] at reversed
    have absent : ∀ number : Int, ':' ∉ (Int.repr number).toList.reverse := fun number among =>
      intRepr_colon number (List.mem_reverse.mp among)
    obtain ⟨numbers, names⟩ := append_cons_inj (absent j) (absent k) reversed
    exact ⟨String.toList_inj.mp (List.reverse_injective names), intRepr_injective (String.toList_inj.mp (List.reverse_injective numbers))⟩
  · rintro ⟨rfl, rfl⟩
    rfl

namespace JobStore
variable {D : Type} {s t : JobStore D} {past : List (Call D × Answer)} {call : Call D} {capacity created : Nat} {now limit : Int}
  {policies : Dict String (JobSchedule → PolicyAnswer)} {schedule following : JobSchedule} {scheduleId : String}

theorem advanceSchedule_own (advanced : advanceSchedule schedule policies = .ok following) :
    following.scheduleId = schedule.scheduleId := by
  unfold advanceSchedule at advanced
  dsimp only at advanced
  split at advanced
  · cases advanced
    rfl
  · obtain ⟨nextRun, -, same⟩ := bind_ok advanced
    cases same
    rfl
  · split at advanced
    · cases advanced
    split at advanced
    · cases advanced
    · cases advanced
    · cases advanced
      rfl
    · split at advanced
      · cases advanced
      · cases advanced
        rfl

/-- The job of a schedule's next run. -/
def RunJob (schedule : JobSchedule) (job : Job) : Prop :=
  Job.make (runId schedule.scheduleId schedule.sequence) schedule.task schedule.payload schedule.nextRun schedule.maxAttempts 0
    .scheduled none = .ok job

/-- What is done about the next run of a schedule: nothing, or its job is stored. -/
inductive Created (s : JobStore D) (schedule : JobSchedule) : Except PyError Nat → JobStore D → Prop
  | refused (error : PyError) : s.jobs.get? (runId schedule.scheduleId schedule.sequence) = none → Created s schedule (.error error) s
  | present (item : StoredJob) : s.jobs.get? (runId schedule.scheduleId schedule.sequence) = some item → Created s schedule (.ok 0) s
  | stored (job : Job) : s.jobs.get? (runId schedule.scheduleId schedule.sequence) = none → s.ensureCapacity 1 = .ok () →
      RunJob schedule job → Created s schedule (.ok 1)
        { s with jobs := s.jobs.set (runId schedule.scheduleId schedule.sequence) ⟨job, none, none, 0⟩ }

theorem createJob_created (s : JobStore D) (schedule : JobSchedule) :
    Created s schedule (s.createJob schedule).1 (s.createJob schedule).2 := by
  unfold createJob
  dsimp only
  split
  · rename_i present
    obtain ⟨item, found⟩ := Option.ne_none_iff_exists'.mp fun absent => Dict.get?_eq_none.mp absent present
    exact .present item found
  rename_i absent
  have none : s.jobs.get? (runId schedule.scheduleId schedule.sequence) = none := Dict.get?_eq_none.mpr absent
  split
  · exact .refused _ none
  rename_i room
  split
  · exact .refused _ none
  · rename_i job made
    exact .stored job none room made

/-- What a call of `materialize` can do to one schedule and the jobs of its runs: nothing, or see to
its next run and then, unless that raises, advance it. -/
inductive Visit (now : Int) (policies : Dict String (JobSchedule → PolicyAnswer)) (scheduleId : String) (s t : JobStore D) : Prop
  | untouched : t.schedules.get? scheduleId = s.schedules.get? scheduleId →
      (∀ k, t.jobs.get? (runId scheduleId k) = s.jobs.get? (runId scheduleId k)) → Visit now policies scheduleId s t
  | handled (schedule : JobSchedule) : s.schedules.get? scheduleId = some schedule → schedule.nextRun ≤ now →
      (∀ k, k ≠ schedule.sequence → t.jobs.get? (runId scheduleId k) = s.jobs.get? (runId scheduleId k)) →
      (∃ item, t.jobs.get? (runId scheduleId schedule.sequence) = some item ∧
        (s.jobs.get? (runId scheduleId schedule.sequence) = some item ∨
          s.jobs.get? (runId scheduleId schedule.sequence) = none ∧ RunJob schedule item.job)) →
      (t.schedules.get? scheduleId = some schedule ∨
        ∃ next, advanceSchedule schedule policies = .ok next ∧ t.schedules.get? scheduleId = some next) →
      Visit now policies scheduleId s t

theorem Visit.after_untouched {u : JobStore D} (visit : Visit now policies scheduleId s t)
    (schedules : u.schedules.get? scheduleId = t.schedules.get? scheduleId)
    (jobs : ∀ k, u.jobs.get? (runId scheduleId k) = t.jobs.get? (runId scheduleId k)) : Visit now policies scheduleId s u := by
  cases visit with
  | untouched sameSchedule sameJobs => exact .untouched (schedules.trans sameSchedule) fun k => (jobs k).trans (sameJobs k)
  | handled schedule found due others own advanced =>
    refine .handled schedule found due (fun k other => (jobs k).trans (others k other)) ?_ ?_
    · rw [jobs]
      exact own
    · rw [schedules]
      exact advanced

theorem Visit.before_untouched {u : JobStore D} (visit : Visit now policies scheduleId t u)
    (schedules : t.schedules.get? scheduleId = s.schedules.get? scheduleId)
    (jobs : ∀ k, t.jobs.get? (runId scheduleId k) = s.jobs.get? (runId scheduleId k)) : Visit now policies scheduleId s u := by
  cases visit with
  | untouched sameSchedule sameJobs => exact .untouched (sameSchedule.trans schedules) fun k => (sameJobs k).trans (jobs k)
  | handled schedule found due others own advanced =>
    refine .handled schedule (schedules ▸ found) due (fun k other => (others k other).trans (jobs k)) ?_ advanced
    rw [← jobs]
    exact own

/-- Seeing to the next run of a schedule leaves the jobs of other schedules alone. -/
theorem createJob_other (s : JobStore D) (other : schedule.scheduleId ≠ scheduleId) (k : Int) :
    (s.createJob schedule).2.jobs.get? (runId scheduleId k) = s.jobs.get? (runId scheduleId k) := by
  have different : runId scheduleId k ≠ runId schedule.scheduleId schedule.sequence := fun same => other (runId_inj.mp same).1.symm
  have created := s.createJob_created schedule
  generalize (s.createJob schedule).1 = result at created
  generalize (s.createJob schedule).2 = after at created ⊢
  cases created with
  | refused => rfl
  | present => rfl
  | stored job => exact Dict.get?_set_of_ne different

theorem createJob_schedules (s : JobStore D) (schedule : JobSchedule) : (s.createJob schedule).2.schedules = s.schedules := by
  have created := s.createJob_created schedule
  generalize (s.createJob schedule).1 = result at created
  generalize (s.createJob schedule).2 = after at created ⊢
  cases created with
  | refused => rfl
  | present => rfl
  | stored job => rfl

theorem materializeLoop_other (now limit : Int) (policies : Dict String (JobSchedule → PolicyAnswer)) {order : List JobSchedule}
    (created : Nat) (s : JobStore D) (absent : scheduleId ∉ order.map (·.scheduleId)) :
    (materializeLoop now limit policies order created s).2.schedules.get? scheduleId = s.schedules.get? scheduleId ∧
      ∀ k, (materializeLoop now limit policies order created s).2.jobs.get? (runId scheduleId k) =
        s.jobs.get? (runId scheduleId k) := by
  induction order generalizing created s with
  | nil => exact ⟨rfl, fun _ => rfl⟩
  | cons schedule rest ih =>
    simp only [List.map_cons, List.mem_cons, not_or] at absent
    have other : schedule.scheduleId ≠ scheduleId := fun same => absent.1 same.symm
    have jobs := createJob_other s other
    have schedules := s.createJob_schedules schedule
    unfold materializeLoop
    split
    · exact ih created s absent.2
    split
    · rename_i error after did
      rw [did] at jobs schedules
      exact ⟨by rw [schedules], jobs⟩
    rename_i new after did
    rw [did] at jobs schedules
    dsimp only at jobs schedules
    split
    · exact ⟨by rw [schedules], jobs⟩
    · rename_i next _
      have later := ih (created + new) { after with schedules := after.schedules.set schedule.scheduleId next } absent.2
      refine ⟨?_, fun k => (later.2 k).trans (jobs k)⟩
      rw [later.1, Dict.get?_set_of_ne (Ne.symm other), schedules]

/-- The jobs of a schedule after its next run was seen to. -/
theorem handled_jobs {new : Nat} (did : s.createJob schedule = (.ok new, t)) :
    (∀ k, k ≠ schedule.sequence → t.jobs.get? (runId schedule.scheduleId k) = s.jobs.get? (runId schedule.scheduleId k)) ∧
    ∃ item, t.jobs.get? (runId schedule.scheduleId schedule.sequence) = some item ∧
      (s.jobs.get? (runId schedule.scheduleId schedule.sequence) = some item ∨
        s.jobs.get? (runId schedule.scheduleId schedule.sequence) = none ∧ RunJob schedule item.job) := by
  have isCreated := s.createJob_created schedule
  rw [did] at isCreated
  generalize answered : (Except.ok new, t) = outcome at isCreated
  obtain ⟨result, after⟩ := outcome
  cases answered
  cases isCreated with
  | present item found => exact ⟨fun _ _ => rfl, item, found, Or.inl found⟩
  | stored job absent room made =>
    refine ⟨fun k other => Dict.get?_set_of_ne fun same => other (runId_inj.mp same).2, ⟨job, none, none, 0⟩, ?_, Or.inr ⟨absent, made⟩⟩
    exact Dict.get?_set_self ..

theorem materializeLoop_visit {order : List JobSchedule} (created : Nat) (s : JobStore D) (apart : (order.map (·.scheduleId)).Nodup)
    (stored : ∀ schedule ∈ order, s.schedules.get? schedule.scheduleId = some schedule) :
    Visit now policies scheduleId s (materializeLoop now limit policies order created s).2 := by
  induction order generalizing created s with
  | nil => exact .untouched rfl fun _ => rfl
  | cons schedule rest ih =>
    obtain ⟨own, apartRest⟩ := List.nodup_cons.mp apart
    have isStored := stored schedule (List.mem_cons_self ..)
    have storedRest : ∀ other ∈ rest, s.schedules.get? other.scheduleId = some other :=
      fun other member => stored other (List.mem_cons_of_mem _ member)
    have jobs := fun other : schedule.scheduleId ≠ scheduleId => createJob_other s other
    have schedules := s.createJob_schedules schedule
    unfold materializeLoop
    split
    · exact ih created s apartRest storedRest
    rename_i due
    push Not at due
    split
    · rename_i error after did
      have isCreated := s.createJob_created schedule
      rw [did] at isCreated
      generalize answered : (Except.error error, after) = outcome at isCreated
      obtain ⟨result, after⟩ := outcome
      cases answered
      cases isCreated with
      | refused => exact .untouched rfl fun _ => rfl
    rename_i new after did
    have handled := handled_jobs did
    rw [did] at jobs schedules
    dsimp only at jobs schedules
    split
    · by_cases mine : schedule.scheduleId = scheduleId
      · subst mine
        refine .handled schedule isStored due.2.2 handled.1 handled.2 (Or.inl ?_)
        rw [schedules]
        exact isStored
      · exact .untouched (by rw [schedules]) (jobs mine)
    · rename_i next advanced
      by_cases mine : schedule.scheduleId = scheduleId
      · subst mine
        have visit : Visit now policies schedule.scheduleId s
            { after with schedules := after.schedules.set schedule.scheduleId next } :=
          .handled schedule isStored due.2.2 handled.1 handled.2 (Or.inr ⟨next, advanced, Dict.get?_set_self ..⟩)
        have later := materializeLoop_other now limit policies (created + new)
          { after with schedules := after.schedules.set schedule.scheduleId next } own
        exact visit.after_untouched later.1 later.2
      · have visit := ih (created + new) { after with schedules := after.schedules.set schedule.scheduleId next }
          apartRest fun other member => by
            have different : other.scheduleId ≠ schedule.scheduleId := fun same =>
              own (List.mem_map.mpr ⟨other, member, same⟩)
            dsimp only
            rw [Dict.get?_set_of_ne different, schedules]
            exact storedRest other member
        refine visit.before_untouched ?_ (jobs mine)
        dsimp only
        rw [Dict.get?_set_of_ne (Ne.symm mine), schedules]

/-- A job that `materialize` stores, with the time that it was called with. -/
structure Creation where
  now : Int
  job : Job

/-- The jobs that are stored after a call of `materialize` and were not before, in their order. -/
def creating (s : JobStore D) : Call D → List Creation
  | .materialize now limit policies =>
    ((s.materialize now limit policies).2.jobs.items.filter (·.1 ∉ s.jobs.keys)).map fun entry => ⟨now, entry.2.job⟩
  | _ => []

/-- All jobs that `materialize` stores in the course of some calls. -/
def creations : JobStore D → List (Call D) → List Creation
  | _, [] => []
  | s, call :: rest => s.creating call ++ creations (s.answer call).2 rest

/-- Every schedule is stored under its id. -/
def Arranged (s : JobStore D) : Prop := ∀ scheduleId schedule, s.schedules.get? scheduleId = some schedule → schedule.scheduleId = scheduleId

/-- The schedules in the order in which `materialize` goes through them. -/
def order (s : JobStore D) : List JobSchedule := (s.schedules.items.map Prod.snd).insertionSort Sooner

theorem mem_order (arranged : Arranged s) : schedule ∈ s.order ↔ s.schedules.get? schedule.scheduleId = some schedule := by
  rw [order, List.mem_insertionSort, List.mem_map]
  constructor
  · rintro ⟨⟨key, value⟩, member, rfl⟩
    have found := Dict.mem_items.mp member
    dsimp only
    rw [arranged key value found]
    exact found
  · intro found
    exact ⟨(schedule.scheduleId, schedule), Dict.mem_items.mpr found, rfl⟩

theorem order_apart (arranged : Arranged s) : (s.order.map (·.scheduleId)).Nodup := by
  have sorted := (List.perm_insertionSort Sooner (s.schedules.items.map Prod.snd)).map (·.scheduleId)
  have ids : (s.schedules.items.map Prod.snd).map (·.scheduleId) = s.schedules.items.map Prod.fst := by
    rw [List.map_map]
    exact List.map_congr_left fun entry member => arranged _ _ (Dict.mem_items.mp member)
  rw [ids] at sorted
  exact sorted.nodup_iff.mpr s.schedules.nodup

theorem materialize_visit (arranged : Arranged s) : Visit now policies scheduleId s (s.materialize now limit policies).2 := by
  unfold materialize
  split
  · exact .untouched rfl fun _ => rfl
  · exact materializeLoop_visit 0 s (order_apart arranged) fun schedule member => (mem_order arranged).mp member

/-- A call that stores no job: what was not there is not there afterwards. -/
def AddsNone (s t : JobStore D) : Prop := ∀ jobId, s.jobs.get? jobId = none → t.jobs.get? jobId = none

theorem Claimed.addsNone {claimTtl : Int} {claimIds : Nat → Uuid} {result : Except PyError (List JobClaim)}
    (claimed : Claimed s now limit claimTtl claimIds result t) : AddsNone s t := by
  intro jobId absent
  cases claimed with
  | refused => exact absent
  | spoiled error entry member =>
    dsimp only
    rw [Dict.get?_set_of_ne fun same => ?_]
    · exact absent
    · rw [same, (mem_ready member).1] at absent
      cases absent
  | allReady =>
    have cases := Dict.get?_setAll_mapIdx s.jobs (fun i entry => (⟨entry.2.job, some (claimIds i), some (now + claimTtl),
      entry.2.fencingToken + 1⟩ : StoredJob)) (ready_distinct : ((s.ready now limit).map Prod.fst).Nodup) jobId
    rcases cases with ⟨i, entry, isEntry, rfl, -⟩ | ⟨-, same⟩
    · cases (mem_ready (List.mem_of_getElem? isEntry)).1.symm.trans absent
    · exact same.trans absent

theorem Settled.addsNone {claim : JobClaim} {result : Except PyError JobTransition} (settled : Settled s claim call result t) :
    AddsNone s t ∧ t.schedules = s.schedules := by
  cases settled with
  | kept => exact ⟨fun _ => id, rfl⟩
  | done transition item job found =>
    refine ⟨fun jobId absent => ?_, rfl⟩
    dsimp only [settle]
    rw [Dict.get?_set_of_ne fun same => ?_]
    · exact absent
    · rw [same, found] at absent
      cases absent

theorem claim_schedules (s : JobStore D) (now limit claimTtl : Int) (claimIds : Nat → Uuid) :
    (s.claim now limit claimTtl claimIds).2.schedules = s.schedules := by
  unfold claim
  split
  · rfl
  · rfl

/-- What a call can do to one schedule and the jobs of its runs. -/
inductive Passes (scheduleId : String) (s : JobStore D) (call : Call D) (t : JobStore D) : Prop
  | quiet : t.schedules.get? scheduleId = s.schedules.get? scheduleId →
      (∀ k, s.jobs.get? (runId scheduleId k) = none → t.jobs.get? (runId scheduleId k) = none) → s.creating call = [] →
      Passes scheduleId s call t
  | added : s.schedules.get? scheduleId = none → t.schedules.get? scheduleId ≠ none → t.jobs = s.jobs → Passes scheduleId s call t
  | visited (now limit : Int) (policies : Dict String (JobSchedule → PolicyAnswer)) : call = .materialize now limit policies →
      Visit now policies scheduleId s t → Passes scheduleId s call t

theorem Passes.of_addsNone (schedules : t.schedules = s.schedules) (jobs : AddsNone s t) (none : s.creating call = []) :
    Passes scheduleId s call t :=
  .quiet (by rw [schedules]) (fun _ => jobs _) none

/-- No caller schedules a job under an id that the schedule may give to a run. -/
def Foreign (scheduleId : String) (call : Call D) : Prop := ∀ job, call = .schedule job → ∀ k, job.jobId ≠ runId scheduleId k

theorem answer_passes (arranged : Arranged s) (keyed : Keyed s) (foreign : Foreign scheduleId call) : Passes scheduleId s call (s.answer call).2 := by
  cases call with
  | schedule job =>
    simp only [answer, schedule]
    split
    · exact .of_addsNone rfl (fun _ => id) rfl
    split
    · exact .of_addsNone rfl (fun _ => id) rfl
    · refine .quiet rfl (fun k absent => ?_) rfl
      dsimp only
      rw [Dict.get?_set_of_ne (Ne.symm (foreign job rfl k))]
      exact absent
  | claim now limit claimTtl claimIds =>
    simp only [answer]
    exact .of_addsNone (s.claim_schedules ..) (s.claim_claimed now limit claimTtl claimIds).addsNone rfl
  | succeed claim decision =>
    simp only [answer]
    have settled := (s.succeed_settled keyed claim decision).addsNone
    exact .of_addsNone settled.2 settled.1 rfl
  | retry claim reason runAt =>
    simp only [answer]
    have settled := (s.retry_settled claim reason runAt).addsNone
    exact .of_addsNone settled.2 settled.1 rfl
  | terminate claim reason =>
    simp only [answer]
    have settled := (s.terminate_settled claim reason).addsNone
    exact .of_addsNone settled.2 settled.1 rfl
  | addSchedule schedule =>
    simp only [answer, addSchedule]
    split
    · exact .of_addsNone rfl (fun _ => id) rfl
    rename_i absent
    split
    · exact .of_addsNone rfl (fun _ => id) rfl
    · by_cases mine : scheduleId = schedule.scheduleId
      · subst mine
        refine .added (Dict.get?_eq_none.mpr absent) ?_ rfl
        rw [Dict.get?_set_self]
        simp
      · exact .quiet (Dict.get?_set_of_ne mine) (fun _ => id) rfl
  | materialize now limit policies => exact .visited now limit policies rfl (materialize_visit arranged)

theorem materializeLoop_arranged {order : List JobSchedule} (arranged : Arranged s) :
    Arranged (materializeLoop now limit policies order created s).2 := by
  induction order generalizing created s with
  | nil => exact arranged
  | cons schedule rest ih =>
    have schedules := s.createJob_schedules schedule
    unfold materializeLoop
    split
    · exact ih arranged
    split
    · rename_i error after did
      rw [did] at schedules
      intro other value found
      exact arranged other value (schedules ▸ found)
    rename_i new after did
    rw [did] at schedules
    dsimp only at schedules
    split
    · intro other value found
      exact arranged other value (schedules ▸ found)
    · rename_i next advanced
      refine ih fun other value found => ?_
      rcases Dict.get?_set_cases found with ⟨rfl, rfl⟩ | ⟨-, before⟩
      · exact advanceSchedule_own advanced
      · exact arranged other value (schedules ▸ before)

theorem Arranged.next (arranged : Arranged s) (keyed : Keyed s) : Arranged (s.answer call).2 := by
  have same : ∀ t : JobStore D, t.schedules = s.schedules → Arranged t := by
    intro t schedules other value found
    exact arranged other value (schedules ▸ found)
  cases call with
  | schedule job =>
    refine same _ ?_
    simp only [answer, schedule]
    split
    · rfl
    split
    · rfl
    · rfl
  | claim now limit claimTtl claimIds =>
    simp only [answer]
    exact same _ (s.claim_schedules ..)
  | succeed claim decision =>
    simp only [answer]
    exact same _ (s.succeed_settled keyed claim decision).addsNone.2
  | retry claim reason runAt =>
    simp only [answer]
    exact same _ (s.retry_settled claim reason runAt).addsNone.2
  | terminate claim reason =>
    simp only [answer]
    exact same _ (s.terminate_settled claim reason).addsNone.2
  | addSchedule schedule =>
    simp only [answer, addSchedule]
    split
    · exact arranged
    split
    · exact arranged
    · intro other value found
      rcases Dict.get?_set_cases found with ⟨rfl, rfl⟩ | ⟨-, before⟩
      · rfl
      · exact arranged other value before
  | materialize now limit policies =>
    simp only [answer, materialize]
    split
    · exact arranged
    · exact materializeLoop_arranged arranged

/-- The store is well kept: its jobs and schedules are stored under their ids. -/
structure Kept (s : JobStore D) : Prop where
  keyed : Keyed s
  arranged : Arranged s

theorem Kept.start (capacity : Nat) : Kept (D := D) (empty capacity) :=
  ⟨fun _ _ found => (by cases found), fun _ _ found => (by cases found)⟩

theorem Kept.next (kept : Kept s) (call : Call D) : Kept (s.answer call).2 :=
  ⟨kept.keyed.moved (s.answer_moved call), kept.arranged.next kept.keyed⟩

theorem Kept.after (kept : Kept s) (calls : List (Call D)) : Kept (History.after answer s calls) := by
  induction calls generalizing s with
  | nil => exact kept
  | cons call rest ih => exact ih (kept.next call)

theorem Calls.kept (calls : Calls capacity past s) : Kept s :=
  calls.state_invariant (Kept.start capacity) fun _ _ call kept _ => kept.next call

/-- A fixed-interval schedule after some runs. -/
def ahead (schedule : JobSchedule) (duration : Int) (runs : Nat) : JobSchedule :=
  { schedule with sequence := schedule.sequence + runs, nextRun := schedule.nextRun + runs * duration }

theorem advance_fixed {duration : Int} (fixed : schedule.kind = .fixedInterval) (interval : schedule.interval = some duration)
    (advanced : advanceSchedule schedule policies = .ok following) :
    following = { schedule with sequence := schedule.sequence + 1, nextRun := schedule.nextRun + duration } := by
  unfold advanceSchedule at advanced
  dsimp only at advanced
  split at advanced
  · rename_i other
    cases fixed.symm.trans other
  · obtain ⟨nextRun, added, same⟩ := bind_ok advanced
    rw [interval, Option.getD_some] at added
    rw [datetimeAdd_ok added] at same
    exact (Except.ok.inj same).symm
  · rename_i other
    cases fixed.symm.trans other

theorem advance_ahead {duration : Int} {runs : Nat} (fixed : schedule.kind = .fixedInterval) (interval : schedule.interval = some duration)
    (advanced : advanceSchedule (ahead schedule duration runs) policies = .ok following) :
    following = ahead schedule duration (runs + 1) := by
  have sequence : schedule.sequence + (runs + 1 : Nat) = schedule.sequence + runs + 1 := by omega
  have nextRun : schedule.nextRun + (runs + 1 : Nat) * duration = schedule.nextRun + runs * duration + duration := by
    push_cast
    rw [Int.add_mul, Int.one_mul, Int.add_assoc]
  have fixedAhead : (ahead schedule duration runs).kind = .fixedInterval := fixed
  have intervalAhead : (ahead schedule duration runs).interval = some duration := interval
  rw [advance_fixed fixedAhead intervalAhead advanced]
  unfold ahead
  simp only [sequence, nextRun]

/-- The state of a fixed-interval schedule after some of its jobs were created: it has been advanced past
all of them, or past all but the last, whose advance raised. -/
structure Ticking (schedule : JobSchedule) (duration : Int) (count : Nat) (s : JobStore D) : Prop where
  stored : ∃ runs, (runs = count ∨ runs + 1 = count) ∧ s.schedules.get? schedule.scheduleId = some (ahead schedule duration runs)
  runs : ∀ k, s.jobs.get? (runId schedule.scheduleId k) ≠ none ↔ schedule.sequence ≤ k ∧ k < schedule.sequence + count

theorem mem_creating {creation : Creation} :
    creation ∈ s.creating (.materialize now limit policies) ↔ ∃ jobId item, s.jobs.get? jobId = none ∧
      (s.materialize now limit policies).2.jobs.get? jobId = some item ∧ creation = ⟨now, item.job⟩ := by
  simp only [creating, List.mem_map, List.mem_filter, decide_eq_true_eq]
  constructor
  · rintro ⟨⟨jobId, item⟩, ⟨member, absent⟩, rfl⟩
    exact ⟨jobId, item, Dict.get?_eq_none.mpr absent, Dict.mem_items.mp member, rfl⟩
  · rintro ⟨jobId, item, absent, found, rfl⟩
    exact ⟨(jobId, item), ⟨Dict.mem_items.mpr found, Dict.get?_eq_none.mp absent⟩, rfl⟩

theorem runJob_ok {job : Job} (made : RunJob schedule job) :
    job.jobId = runId schedule.scheduleId schedule.sequence ∧ job.runAt = schedule.nextRun := by
  unfold RunJob Job.make at made
  split at made
  · split at made
    · split at made
      · cases made
      · cases made
        exact ⟨rfl, rfl⟩
    · cases made
  · cases made

/-- One call creates at most one job of a ticking schedule, the next in its sequence, which is due. -/
theorem Ticking.visit {duration : Int} {count : Nat} (ticking : Ticking schedule duration count s) (fixed : schedule.kind = .fixedInterval)
    (interval : schedule.interval = some duration) (visit : Visit now policies schedule.scheduleId s t) :
    (Ticking schedule duration count t ∧
      ∀ k, s.jobs.get? (runId schedule.scheduleId k) = none → t.jobs.get? (runId schedule.scheduleId k) = none) ∨
    (Ticking schedule duration (count + 1) t ∧ ∃ item, t.jobs.get? (runId schedule.scheduleId (schedule.sequence + count)) = some item ∧
      item.job.jobId = runId schedule.scheduleId (schedule.sequence + count) ∧
      item.job.runAt = schedule.nextRun + count * duration ∧ item.job.runAt ≤ now) := by
  cases visit with
  | untouched sameSchedule sameJobs =>
    left
    refine ⟨⟨by rw [sameSchedule]; exact ticking.stored, fun k => by rw [sameJobs]; exact ticking.runs k⟩, fun k absent => ?_⟩
    exact (sameJobs k).trans absent
  | handled current found due others own advanced =>
    obtain ⟨runs, isRuns, stored⟩ := ticking.stored
    cases stored.symm.trans found
    have after : ∃ next, (next = runs ∨ next = runs + 1) ∧
        t.schedules.get? schedule.scheduleId = some (ahead schedule duration next) := by
      rcases advanced with same | ⟨following, did, isNext⟩
      · exact ⟨runs, Or.inl rfl, same⟩
      · rw [advance_ahead fixed interval did] at isNext
        exact ⟨runs + 1, Or.inr rfl, isNext⟩
    obtain ⟨next, isNext, storedAfter⟩ := after
    obtain ⟨item, foundAfter, before⟩ := own
    have others : ∀ k, k ≠ schedule.sequence + runs → t.jobs.get? (runId schedule.scheduleId k) = s.jobs.get? (runId schedule.scheduleId k) :=
      others
    have foundAfter : t.jobs.get? (runId schedule.scheduleId (schedule.sequence + runs)) = some item := foundAfter
    rcases before with present | ⟨absent, made⟩
    · -- The job is there from a call whose advance raised: the schedule is one behind its jobs.
      have present : s.jobs.get? (runId schedule.scheduleId (schedule.sequence + runs)) = some item := present
      have counted := (ticking.runs (schedule.sequence + runs)).mp (by rw [present]; simp)
      have behind : runs + 1 = count := by omega
      have same : ∀ k, t.jobs.get? (runId schedule.scheduleId k) = s.jobs.get? (runId schedule.scheduleId k) := by
        intro k
        by_cases mine : k = schedule.sequence + runs
        · rw [mine, foundAfter, present]
        · exact others k mine
      left
      refine ⟨⟨⟨next, by omega, storedAfter⟩, fun k => by rw [same]; exact ticking.runs k⟩, fun k none => (same k).trans none⟩
    · have absent : s.jobs.get? (runId schedule.scheduleId (schedule.sequence + runs)) = none := absent
      have uncounted := (ticking.runs (schedule.sequence + runs)).not.mp (by rw [absent]; simp)
      have level : runs = count := by omega
      subst level
      obtain ⟨isId, isRunAt⟩ := runJob_ok made
      right
      refine ⟨⟨⟨next, by omega, storedAfter⟩, fun k => ?_⟩, item, foundAfter, isId, isRunAt, isRunAt.le.trans due⟩
      by_cases mine : k = schedule.sequence + runs
      · rw [mine, foundAfter]
        exact iff_of_true (by simp) (by omega)
      · rw [others k mine, ticking.runs k]
        omega

/-- Jobs that one call creates have different ids. -/
theorem creating_apart (kept : Kept s) (call : Call D) : (s.creating call).Pairwise fun a b => a.job.jobId ≠ b.job.jobId := by
  cases call with
  | materialize now limit policies =>
    have keyed := (kept.next (.materialize now limit policies)).keyed
    simp only [answer] at keyed
    simp only [creating, List.pairwise_map]
    have keys := (s.materialize now limit policies).2.jobs.nodup
    rw [List.nodup_iff_pairwise_ne, List.pairwise_map] at keys
    refine (keys.sublist List.filter_sublist).imp_of_mem fun {a b} inA inB different => ?_
    rw [keyed _ _ (Dict.mem_items.mp (List.mem_filter.mp inA).1), keyed _ _ (Dict.mem_items.mp (List.mem_filter.mp inB).1)]
    exact different
  | _ => exact List.Pairwise.nil

/-- What one call does for a ticking schedule, in terms of the jobs that it creates. -/
theorem Ticking.step {duration : Int} {count : Nat} (ticking : Ticking schedule duration count s) (fixed : schedule.kind = .fixedInterval)
    (interval : schedule.interval = some duration) (kept : Kept s) (foreign : Foreign schedule.scheduleId call) :
    (Ticking schedule duration count (s.answer call).2 ∧
      ∀ creation ∈ s.creating call, ∀ k, creation.job.jobId ≠ runId schedule.scheduleId k) ∨
    (Ticking schedule duration (count + 1) (s.answer call).2 ∧
      (∃ creation ∈ s.creating call, creation.job.jobId = runId schedule.scheduleId (schedule.sequence + count)) ∧
      ∀ creation ∈ s.creating call, ∀ k, creation.job.jobId = runId schedule.scheduleId k →
        k = schedule.sequence + count ∧ creation.job.runAt = schedule.nextRun + count * duration ∧
          creation.job.runAt ≤ creation.now) := by
  have known : s.schedules.get? schedule.scheduleId ≠ none := by
    obtain ⟨runs, -, stored⟩ := ticking.stored
    rw [stored]
    simp
  have moved := s.answer_moved call
  cases answer_passes kept.arranged kept.keyed foreign with
  | added absent => exact absurd absent known
  | quiet sameSchedule none noJobs =>
    left
    refine ⟨⟨by rw [sameSchedule]; exact ticking.stored, fun k => ?_⟩, by simp [noJobs]⟩
    rw [← ticking.runs k]
    refine not_congr ⟨fun absent => ?_, none k⟩
    by_contra present
    obtain ⟨item, found⟩ := Option.ne_none_iff_exists'.mp present
    obtain ⟨next, foundNext, -⟩ := moved.onward _ item found
    cases absent.symm.trans foundNext
  | visited now limit policies isCall visit =>
    subst isCall
    have keyed := (kept.next (.materialize now limit policies)).keyed
    simp only [answer] at visit keyed ⊢
    rcases ticking.visit fixed interval visit with ⟨after, none⟩ | ⟨after, item, found, own, isRunAt, due⟩
    · left
      refine ⟨after, fun creation member k isRun => ?_⟩
      obtain ⟨jobId, item, absent, found, rfl⟩ := mem_creating.mp member
      have isId := keyed jobId item found
      rw [← isId, isRun] at absent found
      cases (none k absent).symm.trans found
    · right
      have uncounted : s.jobs.get? (runId schedule.scheduleId (schedule.sequence + count)) = none := by
        by_contra present
        have counted := (ticking.runs _).mp present
        omega
      refine ⟨after, ⟨⟨now, item.job⟩, mem_creating.mpr ⟨_, item, uncounted, found, rfl⟩, own⟩, fun creation member k isRun => ?_⟩
      obtain ⟨jobId, other, absent, foundOther, rfl⟩ := mem_creating.mp member
      have isId := keyed jobId other foundOther
      rw [← isId, isRun] at absent foundOther
      have isLast : k = schedule.sequence + count := by
        have before : ¬(schedule.sequence ≤ k ∧ k < schedule.sequence + count) := (ticking.runs k).not.mp (by rw [absent]; simp)
        have now_ := (after.runs k).mp (by rw [foundOther]; simp)
        omega
      subst isLast
      cases found.symm.trans foundOther
      exact ⟨rfl, isRunAt, due⟩

/-- The jobs of one schedule among some creations: in the order of their numbers, which are those from
`first` on and before `last`, each at its time and not before it. -/
structure Runs (schedule : JobSchedule) (duration : Int) (first last : Nat) (made : List Creation) : Prop where
  ordered : made.Pairwise fun a b => ∀ j k, a.job.jobId = runId schedule.scheduleId j → b.job.jobId = runId schedule.scheduleId k → j < k
  numbers : ∀ k, (∃ creation ∈ made, creation.job.jobId = runId schedule.scheduleId k) ↔
    schedule.sequence + first ≤ k ∧ k < schedule.sequence + last
  exact : ∀ creation ∈ made, ∀ k, creation.job.jobId = runId schedule.scheduleId k →
    creation.job.runAt = schedule.nextRun + (k - schedule.sequence) * duration ∧ creation.job.runAt ≤ creation.now

theorem Ticking.creations {duration : Int} {count : Nat} {calls : List (Call D)} (ticking : Ticking schedule duration count s)
    (fixed : schedule.kind = .fixedInterval) (interval : schedule.interval = some duration) (kept : Kept s)
    (foreign : ∀ call ∈ calls, Foreign schedule.scheduleId call) :
    ∃ last, count ≤ last ∧ Ticking schedule duration last (History.after answer s calls) ∧
      Runs schedule duration count last (s.creations calls) := by
  induction calls generalizing count s with
  | nil =>
    refine ⟨count, Nat.le_refl _, ticking, List.Pairwise.nil, fun k => ?_, by simp [JobStore.creations]⟩
    refine iff_of_false ?_ (by omega)
    rintro ⟨_, member, -⟩
    cases member
  | cons call rest ih =>
    have foreignRest : ∀ other ∈ rest, Foreign schedule.scheduleId other := fun other member => foreign other (List.mem_cons_of_mem _ member)
    have apart := creating_apart kept call
    rcases ticking.step fixed interval kept (foreign call (List.mem_cons_self ..)) with ⟨after, none⟩ | ⟨after, isCreated, all⟩
    · obtain ⟨last, more, final, runs⟩ := ih after (kept.next call) foreignRest
      refine ⟨last, more, final, ?_, fun k => ?_, ?_⟩
      · refine List.pairwise_append.mpr ⟨apart.imp_of_mem fun inA _ _ j _ isRun => ?_, runs.ordered, fun a inA _ _ j _ isRun => ?_⟩
        · exact absurd isRun (none _ inA j)
        · exact absurd isRun (none a inA j)
      · rw [← runs.numbers k]
        constructor
        · rintro ⟨creation, member, isRun⟩
          rcases List.mem_append.mp member with now | later
          · exact absurd isRun (none creation now k)
          · exact ⟨creation, later, isRun⟩
        · rintro ⟨creation, later, isRun⟩
          exact ⟨creation, List.mem_append_right _ later, isRun⟩
      · intro creation member k isRun
        rcases List.mem_append.mp member with now | later
        · exact absurd isRun (none creation now k)
        · exact runs.exact creation later k isRun
    · obtain ⟨last, more, final, runs⟩ := ih after (kept.next call) foreignRest
      refine ⟨last, by omega, final, ?_, fun k => ?_, ?_⟩
      · refine List.pairwise_append.mpr ⟨apart.imp_of_mem fun inA inB different j k isA isB => ?_, runs.ordered,
          fun a inA b inB j k isA isB => ?_⟩
        · refine absurd (isA.trans ?_) (isB ▸ different)
          rw [(all _ inA j isA).1, (all _ inB k isB).1]
        · have one := (all a inA j isA).1
          have later := (runs.numbers k).mp ⟨b, inB, isB⟩
          omega
      · constructor
        · rintro ⟨creation, member, isRun⟩
          rcases List.mem_append.mp member with now | later
          · have one := (all creation now k isRun).1
            omega
          · have bounds := (runs.numbers k).mp ⟨creation, later, isRun⟩
            omega
        · intro bounds
          by_cases isFirst : k = schedule.sequence + count
          · subst isFirst
            obtain ⟨creation, now, isRun⟩ := isCreated
            exact ⟨creation, List.mem_append_left _ now, isRun⟩
          · obtain ⟨creation, later, isRun⟩ := (runs.numbers k).mpr (by omega)
            exact ⟨creation, List.mem_append_right _ later, isRun⟩
      · intro creation member k isRun
        rcases List.mem_append.mp member with now | later
        · obtain ⟨isLast, isRunAt, due⟩ := all creation now k isRun
          refine ⟨?_, due⟩
          rw [isRunAt, isLast, show schedule.sequence + count - schedule.sequence = (count : Int) by omega]
        · exact runs.exact creation later k isRun

/-- As long as a schedule is not there, none of its runs has a job. -/
theorem unscheduled_next (kept : Kept s) (foreign : Foreign scheduleId call)
    (before : s.schedules.get? scheduleId = none → ∀ k, s.jobs.get? (runId scheduleId k) = none)
    (absent : (s.answer call).2.schedules.get? scheduleId = none) (k : Int) :
    (s.answer call).2.jobs.get? (runId scheduleId k) = none := by
  cases answer_passes kept.arranged kept.keyed foreign with
  | quiet sameSchedule none => exact none k (before (sameSchedule.symm.trans absent) k)
  | added _ isAdded => exact absurd absent isAdded
  | visited now limit policies _ visit =>
    cases visit with
    | untouched sameSchedule sameJobs => exact (sameJobs k).trans (before (sameSchedule.symm.trans absent) k)
    | handled schedule found due others own advanced =>
      rcases advanced with same | ⟨next, -, isNext⟩
      · cases absent.symm.trans same
      · cases absent.symm.trans isNext

theorem unscheduled {calls : List (Call D)} (kept : Kept s) (foreign : ∀ call ∈ calls, Foreign scheduleId call)
    (before : s.schedules.get? scheduleId = none → ∀ k, s.jobs.get? (runId scheduleId k) = none)
    (absent : (History.after answer s calls).schedules.get? scheduleId = none) (k : Int) :
    (History.after answer s calls).jobs.get? (runId scheduleId k) = none := by
  induction calls generalizing s with
  | nil => exact before absent k
  | cons call rest ih =>
    exact ih (kept.next call) (fun other member => foreign other (List.mem_cons_of_mem _ member))
      (unscheduled_next kept (foreign call (List.mem_cons_self ..)) before) absent

theorem addSchedule_stores (did : (s.addSchedule schedule).1 = .ok true) :
    s.schedules.get? schedule.scheduleId = none ∧ (s.addSchedule schedule).2.schedules.get? schedule.scheduleId = some schedule ∧
      (s.addSchedule schedule).2.jobs = s.jobs := by
  unfold addSchedule at did ⊢
  split
  · rename_i present
    rw [if_pos present] at did
    cases did
  rename_i absent
  rw [if_neg absent] at did
  split
  · rename_i error full
    rw [full] at did
    cases did
  · exact ⟨Dict.get?_eq_none.mpr absent, Dict.get?_set_self .., rfl⟩

/-- Whatever is called before and after a fixed-interval schedule is added: no run of it has a job
before; from then on its jobs are those of its sequence without gap or repetition, in order, each
at its exact time and not before it; they are the only ones under its ids; and no other schedule has
an id in common with it. -/
theorem fixed_interval_exact {duration : Int} (fixed : schedule.kind = .fixedInterval) (interval : schedule.interval = some duration)
    (before later : List (Call D)) (foreign : ∀ call ∈ before ++ later, Foreign schedule.scheduleId call)
    (added : ((History.after answer (empty capacity) before).addSchedule schedule).1 = .ok true) :
    (∀ k, (History.after answer (empty capacity) before).jobs.get? (runId schedule.scheduleId k) = none) ∧
    (∃ count, Runs schedule duration 0 count (((History.after answer (empty capacity) before).addSchedule schedule).2.creations later) ∧
      ∀ k, runId schedule.scheduleId k ∈
          (History.after answer ((History.after answer (empty capacity) before).addSchedule schedule).2 later).jobs.keys ↔
        schedule.sequence ≤ k ∧ k < schedule.sequence + count) ∧
    ∀ other j k, runId schedule.scheduleId j = runId other k → schedule.scheduleId = other ∧ j = k := by
  have kept := (Kept.start (D := D) capacity).after before
  obtain ⟨absent, stored, jobs⟩ := addSchedule_stores added
  have none := unscheduled (Kept.start (D := D) capacity) (fun call member => foreign call (List.mem_append_left _ member))
    (fun _ _ => rfl) absent
  have isAhead : ahead schedule duration 0 = schedule := by
    simp [ahead]
  have ticking : Ticking schedule duration 0 ((History.after answer (empty capacity) before).addSchedule schedule).2 := by
    refine ⟨⟨0, Or.inl rfl, by rw [isAhead]; exact stored⟩, fun k => ?_⟩
    rw [jobs, none k]
    exact iff_of_false (by simp) (by omega)
  obtain ⟨count, -, final, runs⟩ := ticking.creations fixed interval (kept.next (.addSchedule schedule))
    fun call member => foreign call (List.mem_append_right _ member)
  refine ⟨none, ⟨count, runs, fun k => ?_⟩, fun other j k same => runId_inj.mp same⟩
  rw [← final.runs k, ne_eq, Dict.get?_eq_none, not_not]

/-- A schedule that runs every five microseconds from the epoch on. -/
def everyFive : JobSchedule :=
  ⟨"s", "mail", .null, 0, .fixedInterval, some 5, none, 3, 0, true, Sample.schedule_named, null_valid, fun _ => ⟨5, rfl, by decide⟩, by decide, by decide⟩

theorem everyFive_exact : ∃ count, Runs everyFive 5 0 count
    (((empty 9 : JobStore Unit).addSchedule everyFive).2.creations [.materialize 7 1 .empty, .materialize 12 5 .empty]) := by
  have foreign : ∀ call ∈ ([] ++ [.materialize 7 1 .empty, .materialize 12 5 .empty] : List (Call Unit)), Foreign everyFive.scheduleId call := by
    intro call member job isSchedule
    subst isSchedule
    simp at member
  have added : ((History.after answer (empty 9 : JobStore Unit) []).addSchedule everyFive).1 = .ok true := rfl
  obtain ⟨-, ⟨count, runs, -⟩, -⟩ := fixed_interval_exact rfl rfl [] _ foreign added
  exact ⟨count, runs⟩

end JobStore

end Pytitect
