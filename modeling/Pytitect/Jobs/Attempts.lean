import Pytitect.Jobs.Fencing

namespace Pytitect

/-- What one call can make of a stored job. -/
inductive Job.Moves (old : Job) : Job → Prop
  | kept : Moves old old
  | ended {new : Job} : old.state = .scheduled → new.state ≠ .scheduled → new.jobId = old.jobId →
      new.maxAttempts = old.maxAttempts → Moves old new
  | again {new : Job} : old.state = .scheduled → new.state = .scheduled → new.jobId = old.jobId →
      new.maxAttempts = old.maxAttempts → new.attempt = old.attempt + 1 → new.attempt < new.maxAttempts → Moves old new

theorem Job.Moves.own {old new : Job} (moves : Job.Moves old new) : new.jobId = old.jobId := by
  cases moves with
  | kept => rfl
  | ended _ _ own => exact own
  | again _ _ own => exact own

namespace JobStore
variable {D : Type} {s t : JobStore D} {past : List (Call D × Answer)} {call : Call D} {claim : JobClaim} {capacity : Nat}
  {reason : String} {runAt : Int} {job : Job} {item : StoredJob}

/-- Any calls with any arguments, whatever claims they present. -/
abbrev Calls (capacity : Nat) : List (Call D × Answer) → JobStore D → Prop :=
  History answer (fun _ _ _ => True) (empty capacity)

theorem Run.calls (run : Run capacity past s) : Calls capacity past s := by
  induction run with
  | start => exact .start
  | next call _ _ ih => exact ih.next call trivial

/-- Every stored job moves on, and what is new is stored under its own id. -/
structure Moved (s t : JobStore D) : Prop where
  onward : ∀ jobId item, s.jobs.get? jobId = some item → ∃ next, t.jobs.get? jobId = some next ∧ item.job.Moves next.job
  fresh : ∀ jobId next, s.jobs.get? jobId = none → t.jobs.get? jobId = some next → next.job.jobId = jobId

theorem Quiet.moved {drawn : Uuid → Prop} (quiet : Quiet drawn s t) : Moved s t := by
  constructor
  · intro jobId item found
    obtain ⟨next, foundNext, same⟩ := quiet.kept jobId item found
    exact ⟨next, foundNext, same ▸ .kept⟩
  · intro jobId next absent found
    rcases quiet.origin jobId next found with ⟨-, own, -⟩ | ⟨item, was, -⟩
    · exact own
    · cases absent.symm.trans was

theorem Moved.same (jobs : t.jobs = s.jobs) : Moved s t := by
  constructor
  · intro jobId item found
    exact ⟨item, jobs ▸ found, .kept⟩
  · intro jobId next absent found
    rw [jobs, absent] at found
    cases found

/-- A settlement moves the job of its claim and no other. -/
theorem moved_settle (valid : s.valid claim = some item) (moves : item.job.Moves job) (jobs : t.jobs = (s.settle claim item job).jobs) :
    Moved s t := by
  obtain ⟨found, -⟩ := valid_some valid
  constructor
  · intro jobId old was
    rw [jobs, settle, Dict.get?_set]
    split
    · rename_i mine
      rw [mine] at was
      cases found.symm.trans was
      exact ⟨_, rfl, moves⟩
    · exact ⟨old, was, .kept⟩
  · intro jobId next absent is
    rw [jobs] at is
    rcases Dict.get?_set_cases is with ⟨mine, -⟩ | ⟨-, same⟩
    · rw [mine, found] at absent
      cases absent
    · cases absent.symm.trans same

theorem succeed_moved (s : JobStore D) (claim : JobClaim) (decision : D) : Moved s (s.succeed claim decision).2 := by
  unfold succeed
  split
  · exact .same rfl
  rename_i item valid
  obtain ⟨-, -, -, running⟩ := valid_some valid
  split
  · exact .same rfl
  · have ended : item.job.Moves { item.job with state := .succeeded } := .ended running (by simp) rfl rfl
    exact moved_settle valid ended rfl

theorem terminate_moved (s : JobStore D) (claim : JobClaim) (reason : String) : Moved s (s.terminate claim reason).2 := by
  unfold terminate
  split
  · exact .same rfl
  rename_i sanitized _
  split
  · exact .same rfl
  rename_i item valid
  obtain ⟨-, -, -, running⟩ := valid_some valid
  have ended : item.job.Moves { item.job with state := .terminal, lastFailure := some sanitized } := .ended running (by simp) rfl rfl
  exact moved_settle valid ended rfl

theorem retry_moved (s : JobStore D) (claim : JobClaim) (reason : String) (runAt : Int) : Moved s (s.retry claim reason runAt).2 := by
  unfold retry
  split
  · exact .same rfl
  rename_i sanitized _
  split
  · exact .same rfl
  rename_i item valid
  obtain ⟨-, -, -, running⟩ := valid_some valid
  split
  · exact .same rfl
  rename_i job made
  unfold Job.withAttempt at made
  split at made
  · cases made
    split
    · have ended : item.job.Moves (⟨item.job.jobId, item.job.task, item.job.payload, item.job.runAt, item.job.maxAttempts,
        item.job.attempt + 1, .terminal, some sanitized, item.job.named, ‹_›, item.job.valid⟩ : Job) :=
          .ended running (by simp) rfl rfl
      exact moved_settle valid ended rfl
    · rename_i counted more
      have below : item.job.attempt + 1 < item.job.maxAttempts := by omega
      have again : item.job.Moves (⟨item.job.jobId, item.job.task, item.job.payload, runAt, item.job.maxAttempts,
        item.job.attempt + 1, item.job.state, some sanitized, item.job.named, counted, item.job.valid⟩ : Job) :=
          .again running running rfl rfl rfl below
      exact moved_settle valid again rfl
  · cases made

theorem Grown.moved (grown : Grown s t) : Moved s t := (grown.quiet fun _ => False).moved

theorem answer_moved (s : JobStore D) (call : Call D) : Moved s (s.answer call).2 := by
  cases call with
  | schedule job => exact (s.schedule_grown job).moved
  | claim now limit claimTtl claimIds =>
    have quiet : Quiet (fun _ => False) s (s.claim now limit claimTtl claimIds).2 :=
      (s.claim_claimed now limit claimTtl claimIds).quiet fun _ => id
    exact quiet.moved
  | succeed claim decision => exact s.succeed_moved claim decision
  | retry claim reason runAt =>
    simp only [answer]
    exact s.retry_moved claim reason runAt
  | terminate claim reason =>
    simp only [answer]
    exact s.terminate_moved claim reason
  | addSchedule schedule => exact (s.addSchedule_grown schedule).moved
  | materialize now limit policies => exact (s.materialize_grown now limit policies).moved

/-- Every job is stored under its id. -/
def Keyed (s : JobStore D) : Prop := ∀ jobId item, s.jobs.get? jobId = some item → item.job.jobId = jobId

theorem Keyed.moved (keyed : Keyed s) (moved : Moved s t) : Keyed t := by
  intro jobId next found
  cases before : s.jobs.get? jobId with
  | none => exact moved.fresh jobId next before found
  | some item =>
    obtain ⟨other, foundOther, moves⟩ := moved.onward jobId item before
    cases found.symm.trans foundOther
    exact moves.own.trans (keyed jobId item before)

theorem Calls.keyed (calls : Calls capacity past s) : Keyed s :=
  calls.state_invariant (fun _ _ found => by cases found) fun _ s call keyed _ => keyed.moved (s.answer_moved call)

/-- A job has attempts left if and only if it had some when it was scheduled. -/
structure Left (scheduled now : Job) : Prop where
  sameMax : now.maxAttempts = scheduled.maxAttempts
  left : now.state = .scheduled → (now.attempt < now.maxAttempts ↔ scheduled.attempt < scheduled.maxAttempts)

theorem Left.moves {old new : Job} (is : Left job old) (moves : old.Moves new) : Left job new := by
  cases moves with
  | kept => exact is
  | ended _ halted _ sameMax => exact ⟨sameMax.trans is.sameMax, fun running => absurd running halted⟩
  | again running _ _ sameMax next below =>
    refine ⟨sameMax.trans is.sameMax, fun _ => ?_⟩
    have before := is.left running
    constructor
    · intro _
      exact before.mp (by omega)
    · intro _
      exact below

theorem schedule_stores (did : (s.schedule job).1 = .ok .scheduled) :
    (s.schedule job).2.jobs.get? job.jobId = some ⟨job, none, none, 0⟩ := by
  unfold schedule at did ⊢
  split
  · rename_i present
    rw [if_pos present] at did
    cases did
  rename_i absent
  rw [if_neg absent] at did
  split
  · rename_i error full
    rw [full] at did
    cases did
  · exact Dict.get?_set_self ..

theorem Calls.left (calls : Calls capacity past s) (scheduled : (Call.schedule job, Answer.scheduled (.ok .scheduled)) ∈ past) :
    ∃ item, s.jobs.get? job.jobId = some item ∧ Left job item.job := by
  induction calls with
  | start => cases scheduled
  | @next past s call _ _ ih =>
    rcases List.mem_append.mp scheduled with before | now
    · obtain ⟨item, found, left⟩ := ih before
      obtain ⟨next, foundNext, moves⟩ := (s.answer_moved call).onward _ item found
      exact ⟨next, foundNext, left.moves moves⟩
    · obtain ⟨rfl, answered⟩ := Prod.mk.inj (List.mem_singleton.mp now)
      have stored := schedule_stores (Answer.scheduled.inj answered).symm
      exact ⟨_, stored, rfl, fun _ => Iff.rfl⟩

/-- A reason with something in it besides white space. -/
def Spoken (reason : String) : Prop := ∃ c ∈ reason.toList, isSpace c = false

/-- What a split keeps are the characters between the separators. -/
theorem mem_splitOnP {α : Type} {separates : α → Bool} {xs : List α} {x : α} :
    (∃ part ∈ xs.splitOnP separates, x ∈ part) ↔ x ∈ xs ∧ separates x = false := by
  induction xs with
  | nil => simp
  | cons first rest ih =>
    rw [List.splitOnP_cons_eq_if_modifyHead]
    split
    · rename_i separator
      have other : x = first → separates x ≠ false := fun same => by simp [same, separator]
      simp only [List.mem_cons, exists_eq_or_imp, List.not_mem_nil, false_or, ih]
      grind
    · rename_i letter
      obtain ⟨head, tail, parts⟩ := List.exists_cons_of_ne_nil (List.splitOnP_ne_nil separates rest)
      rw [parts] at ih ⊢
      simp only [List.modifyHead_cons, List.mem_cons, exists_eq_or_imp] at ih ⊢
      grind

theorem squeezed_blank : (squeezed reason).toList = [] ↔ ¬Spoken reason := by
  have parts : (reason.toList.splitOnP isSpace).filter (· ≠ []) = [] ↔ ¬Spoken reason := by
    rw [List.filter_eq_nil_iff]
    constructor
    · rintro none ⟨c, among, letter⟩
      obtain ⟨part, member, inPart⟩ := mem_splitOnP.mpr ⟨among, letter⟩
      have empty : part = [] := by simpa using none part member
      rw [empty] at inPart
      cases inPart
    · intro silent part member
      cases part with
      | nil => simp
      | cons c rest => exact absurd ⟨c, mem_splitOnP.mp ⟨_, member, List.mem_cons_self ..⟩⟩ silent
  rw [← parts, squeezed, String.toList_intercalate, List.map_map]
  cases kept : (reason.toList.splitOnP isSpace).filter (· ≠ []) with
  | nil => simp
  | cons first rest =>
    have nonempty : first ≠ [] := by
      have member : first ∈ (reason.toList.splitOnP isSpace).filter (· ≠ []) := kept ▸ List.mem_cons_self ..
      simpa using (List.mem_filter.mp member).2
    cases rest <;> simp [nonempty]

/-- A reason is accepted if there is something in it. -/
theorem jobReason_iff : (∃ sanitized, jobReason reason = .ok sanitized) ↔ Spoken reason := by
  have cut : String.ofList ((squeezed reason).toList.take 512) = "" ↔ ¬Spoken reason := by
    rw [← squeezed_blank, ← String.toList_inj]
    simp
  unfold jobReason
  dsimp only
  split
  · rename_i blank
    exact iff_of_false (by simp) (cut.mp blank)
  · rename_i present
    exact iff_of_true ⟨_, rfl⟩ (not_not.mp fun silent => present (cut.mpr silent))

/-- The retry settles the job: it is scheduled again if attempts remain, otherwise it is over and
nobody holds it. -/
def RetrySettles (s : JobStore D) (claim : JobClaim) (item : StoredJob) (reason : String) (runAt : Int) : Prop :=
  if item.job.attempt + 1 < item.job.maxAttempts then (s.retry claim reason runAt).1 = .ok (.retried runAt)
  else
    ∃ sanitized after, (s.retry claim reason runAt).1 = .ok (.terminated sanitized) ∧
      (s.retry claim reason runAt).2.jobs.get? claim.job.jobId = some after ∧ after.job.state = .terminal ∧
      after.claimId = none ∧ after.claimedUntil = none

/-- Under a claim that holds its job, `retry` does what it can if an attempt is left, and raises otherwise. -/
theorem retry_held (held : s.valid claim = some item) (spoken : Spoken reason) :
    RetrySettles s claim item reason runAt ↔ item.job.attempt < item.job.maxAttempts := by
  obtain ⟨sanitized, isReason⟩ := jobReason_iff.mpr spoken
  have counted := item.job.counted
  unfold RetrySettles retry
  simp only [isReason, held]
  by_cases left : item.job.attempt < item.job.maxAttempts
  · have admitted : 0 < item.job.maxAttempts ∧ 0 ≤ item.job.attempt + 1 ∧ item.job.attempt + 1 ≤ item.job.maxAttempts := by omega
    simp only [Job.withAttempt, dif_pos admitted]
    refine iff_of_true ?_ left
    split
    · rename_i more
      rw [if_neg (by omega)]
    · rename_i last
      rw [if_pos (by omega)]
      exact ⟨sanitized, _, rfl, Dict.get?_set_self .., rfl, rfl, rfl⟩
  · have refused : ¬(0 < item.job.maxAttempts ∧ 0 ≤ item.job.attempt + 1 ∧ item.job.attempt + 1 ≤ item.job.maxAttempts) := by omega
    simp only [Job.withAttempt, dif_neg refused]
    refine iff_of_false ?_ left
    rw [if_neg (by omega)]
    rintro ⟨_, _, same, -⟩
    cases same

/-- Whatever has happened since a job was scheduled, a retry with authority settles it if and only if
the job had an attempt left when it was scheduled. -/
theorem retry_settles_iff (calls : Calls capacity past s) (scheduled : (Call.schedule job, Answer.scheduled (.ok .scheduled)) ∈ past)
    (own : claim.job.jobId = job.jobId) (current : s.valid claim = some item) (spoken : Spoken reason) :
    RetrySettles s claim item reason runAt ↔ job.attempt < job.maxAttempts := by
  obtain ⟨found, -, -, running⟩ := valid_some current
  obtain ⟨stored, is, left⟩ := calls.left scheduled
  rw [own, is] at found
  cases found
  exact (retry_held current spoken).trans (left.left running)

/-- A job whose attempts are used up before it is scheduled. -/
def spentJob : Job := ⟨"j", "mail", .null, 0, 1, 1, .scheduled, none, by decide, by decide, null_valid⟩

def freshJob : Job := ⟨"j", "mail", .null, 0, 1, 0, .scheduled, none, by decide, by decide, null_valid⟩

def scheduleAndClaim (job : Job) : List (Call Unit) := [.schedule job, .claim 0 5 10 (Uuid.series 'a')]

theorem scheduleAndClaim_calls (job : Job) : Calls 5 (History.transcript answer (empty 5) (scheduleAndClaim job))
    (History.after answer (empty 5) (scheduleAndClaim job)) :=
  History.ofInputs ⟨trivial, trivial, trivial⟩

theorem spoken_late : Spoken "late" := ⟨'l', by decide, by decide⟩

theorem retry_spent_raises : ∃ (past : List (Call Unit × Answer)) (s : JobStore Unit) (item : StoredJob) (claim : JobClaim),
    Calls 5 past s ∧ (Call.schedule spentJob, Answer.scheduled (.ok .scheduled)) ∈ past ∧ claim.job.jobId = spentJob.jobId ∧
    s.valid claim = some item ∧ Spoken "late" ∧ ¬RetrySettles s claim item "late" 20 := by
  have held : (History.after answer (empty 5) (scheduleAndClaim spentJob)).valid ⟨spentJob, Uuid.series 'a' 0, 10, 1, by decide⟩ =
      some ⟨spentJob, some (Uuid.series 'a' 0), some 10, 1⟩ := rfl
  refine ⟨_, _, _, _, scheduleAndClaim_calls spentJob, List.mem_cons_self .., rfl, held, spoken_late, fun settles => ?_⟩
  exact absurd ((retry_held held spoken_late).mp settles) (by decide)

theorem retry_fresh_settles : ∃ (s : JobStore Unit) (item : StoredJob) (claim : JobClaim),
    s.valid claim = some item ∧ RetrySettles s claim item "late" 20 := by
  have held : (History.after answer (empty 5) (scheduleAndClaim freshJob)).valid ⟨freshJob, Uuid.series 'a' 0, 10, 1, by decide⟩ =
      some ⟨freshJob, some (Uuid.series 'a' 0), some 10, 1⟩ := rfl
  exact ⟨_, _, _, held,
    (retry_settles_iff (scheduleAndClaim_calls freshJob) (List.mem_cons_self ..) rfl held spoken_late).mpr (by decide)⟩

end JobStore

end Pytitect
