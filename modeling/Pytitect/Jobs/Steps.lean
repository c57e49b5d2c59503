import Pytitect.Jobs.Store
import Pytitect.Lib.Claims
import Pytitect.Lib.History

namespace Pytitect.JobStore
variable {D : Type}

/-- A call with what `uuid4` supplies during it. -/
inductive Call (D : Type)
  | schedule (job : Job)
  | claim (now limit claimTtl : Int) (claimIds : Nat → Uuid)
  | succeed (claim : JobClaim) (decision : D)
  | retry (claim : JobClaim) (reason : String) (runAt : Int)
  | terminate (claim : JobClaim) (reason : String)
  | addSchedule (schedule : JobSchedule)
  | materialize (now limit : Int) (policies : Dict String (JobSchedule → PolicyAnswer))

inductive Answer
  | scheduled (result : Except PyError JobScheduleResult)
  | claimed (result : Except PyError (List JobClaim))
  | settled (result : Except PyError JobTransition)
  | added (result : Except PyError Bool)
  | materialized (result : Except PyError Nat)

def answer (s : JobStore D) : Call D → Answer × JobStore D
  | .schedule job => (.scheduled (s.schedule job).1, (s.schedule job).2)
  | .claim now limit claimTtl claimIds =>
    (.claimed (s.claim now limit claimTtl claimIds).1, (s.claim now limit claimTtl claimIds).2)
  | .succeed claim decision => (.settled (s.succeed claim decision).1, (s.succeed claim decision).2)
  | .retry claim reason runAt => (.settled (s.retry claim reason runAt).1, (s.retry claim reason runAt).2)
  | .terminate claim reason => (.settled (s.terminate claim reason).1, (s.terminate claim reason).2)
  | .addSchedule schedule => (.added (s.addSchedule schedule).1, (s.addSchedule schedule).2)
  | .materialize now limit policies =>
    (.materialized (s.materialize now limit policies).1, (s.materialize now limit policies).2)

/-- The claims that one call issued. -/
def issuedBy : Call D × Answer → List JobClaim
  | (_, .claimed (.ok claims)) => claims
  | _ => []

/-- The claim that a settlement presents. -/
def Call.presented : Call D → Option JobClaim
  | .succeed given _ => some given
  | .retry given _ _ => some given
  | .terminate given _ => some given
  | _ => none

/-- The claim that one call settled. -/
def settledBy (event : Call D × Answer) : Option JobClaim :=
  match event.2 with
  | .settled (.ok .succeeded) => event.1.presented
  | .settled (.ok (.retried _)) => event.1.presented
  | .settled (.ok (.terminated _)) => event.1.presented
  | _ => none

/-- The claim whose job one call brought to a terminal state. -/
def endedBy (event : Call D × Answer) : Option JobClaim :=
  match event.2 with
  | .settled (.ok .succeeded) => event.1.presented
  | .settled (.ok (.terminated _)) => event.1.presented
  | _ => none

/-- The decision that one call recorded. -/
def decidedBy : Call D × Answer → Option (String × D)
  | (.succeed claim decision, .settled (.ok .succeeded)) => some (claim.job.jobId, decision)
  | _ => none

def issued (past : List (Call D × Answer)) : List JobClaim := past.flatMap issuedBy

def settledIn (past : List (Call D × Answer)) : List JobClaim := past.filterMap settledBy

def endedIn (past : List (Call D × Answer)) : List JobClaim := past.filterMap endedBy

def decidedIn (past : List (Call D × Answer)) : List (String × D) := past.filterMap decidedBy

/-- `uuid4` supplied the id to some call. -/
def Drawn (past : List (Call D × Answer)) (claimId : Uuid) : Prop :=
  ∃ event ∈ past, ∃ now limit claimTtl claimIds i, event.1 = .claim now limit claimTtl claimIds ∧ claimIds i = claimId

/-- `uuid4` supplies no id twice, and settlements present issued claims. -/
def Fresh (past : List (Call D × Answer)) : Call D → Prop
  | .claim _ _ _ claimIds => Function.Injective claimIds ∧ ∀ i, ¬Drawn past (claimIds i)
  | .succeed claim _ => claim ∈ issued past
  | .retry claim _ _ => claim ∈ issued past
  | .terminate claim _ => claim ∈ issued past
  | .schedule _ | .addSchedule _ | .materialize .. => True

/-- Any calls at any times, with fresh claim ids and issued claims. -/
abbrev Run (capacity : Nat) : List (Call D × Answer) → JobStore D → Prop :=
  History answer (fun _ => Fresh) (empty capacity)

/-- Claims on stored jobs. -/
def claiming : Claiming String StoredJob JobClaim Uuid where
  target claim := claim.job.jobId
  ident := JobClaim.claimId
  held := StoredJob.claimId
  agrees claim item := item.job = claim.job ∧ item.claimedUntil = some claim.claimedUntil ∧ item.fencingToken = claim.fencingToken

variable {s t : JobStore D} {now limit claimTtl claimedUntil : Int} {claimIds : Nat → Uuid} {entries : List (String × StoredJob)}

/-- The jobs that a call at `now` claims, in the order in which it looks at them. -/
def ready (s : JobStore D) (now limit : Int) : List (String × StoredJob) :=
  Dict.picked (eligible now) limit.toNat (s.jobs.items.insertionSort Before)

/-- The claims on these jobs. -/
def handed (claimIds : Nat → Uuid) (claimedUntil : Int) (entries : List (String × StoredJob)) : List JobClaim :=
  entries.mapIdx fun i entry => ⟨entry.2.job, claimIds i, claimedUntil, entry.2.fencingToken + 1, Nat.succ_pos _⟩

def marked (claimIds : Nat → Uuid) (claimedUntil : Int) (entries : List (String × StoredJob)) : List (String × StoredJob) :=
  entries.mapIdx fun i entry => (entry.1, ⟨entry.2.job, some (claimIds i), some claimedUntil, entry.2.fencingToken + 1⟩)

/-- A job under a claim id that no claim is issued for. -/
def spoil (claimId : Uuid) (item : StoredJob) : StoredJob :=
  { item with fencingToken := item.fencingToken + 1, claimId := some claimId }

theorem claimArguments_ok (valid : claimArguments limit claimTtl = .ok ()) : 0 < limit ∧ 0 < claimTtl := by
  unfold claimArguments at valid
  split at valid
  · cases valid
  split at valid
  · cases valid
  · omega

theorem mem_ready {entry : String × StoredJob} (member : entry ∈ s.ready now limit) :
    s.jobs.get? entry.1 = some entry.2 ∧ eligible now entry = true := by
  obtain ⟨inSorted, may⟩ := List.mem_filter.mp (List.mem_of_mem_take member)
  exact ⟨Dict.mem_items.mp (List.mem_insertionSort _ |>.mp inSorted), may⟩

theorem ready_distinct : ((s.ready now limit).map Prod.fst).Nodup := by
  have sorted : ((s.jobs.items.insertionSort Before).map Prod.fst).Nodup :=
    ((List.perm_insertionSort _ _).map Prod.fst).nodup_iff.mpr s.jobs.nodup
  exact sorted.sublist (((List.take_sublist _ _).trans List.filter_sublist).map Prod.fst)

/-- A deadline within the calendar claims all that are ready. -/
theorem claim_fits (valid : claimArguments limit claimTtl = .ok ()) (fits : Fits now claimTtl) :
    s.claim now limit claimTtl claimIds = (.ok (handed claimIds (now + claimTtl) (s.ready now limit)),
      { s with jobs := s.jobs.setAll (marked claimIds (now + claimTtl) (s.ready now limit)) }) := by
  have claims : ∀ count (entry : String × StoredJob), claimJob (.ok (now + claimTtl)) (claimIds count) entry.2 =
      (.ok ⟨entry.2.job, claimIds count, now + claimTtl, entry.2.fencingToken + 1, Nat.succ_pos _⟩,
        ⟨entry.2.job, some (claimIds count), some (now + claimTtl), entry.2.fencingToken + 1⟩) := fun _ _ => rfl
  unfold claim
  rw [valid, datetimeAdd_fits fits]
  dsimp only
  rw [Dict.walk_ok claims]
  simp only [Nat.zero_add, Nat.sub_zero]
  rfl

/-- A deadline beyond the calendar spoils the first job that is ready. -/
theorem claim_overflows (valid : claimArguments limit claimTtl = .ok ()) (beyond : ¬Fits now claimTtl) :
    s.claim now limit claimTtl claimIds =
      match (s.ready now limit).head? with
      | none => (.ok [], s)
      | some entry => (.error (.overflowError "date value out of range"),
          { s with jobs := s.jobs.set entry.1 (spoil (claimIds 0) entry.2) }) := by
  have raises : ∀ count (entry : String × StoredJob),
      claimJob (.error (.overflowError "date value out of range")) (claimIds count) entry.2 =
        (.error (.overflowError "date value out of range"), spoil (claimIds count) entry.2) := fun _ _ => rfl
  unfold claim
  rw [valid, datetimeAdd_overflows beyond]
  dsimp only
  rw [Dict.walk_error raises]
  simp only [Nat.sub_zero]
  rw [show Dict.picked (eligible now) limit.toNat (s.jobs.items.insertionSort Before) = s.ready now limit from rfl]
  cases (s.ready now limit).head? with
  | none => rfl
  | some entry => rfl

/-- What `claim` can do: nothing, spoil the claim of one job, or claim all that are ready. -/
inductive Claimed (s : JobStore D) (now limit claimTtl : Int) (claimIds : Nat → Uuid) :
    Except PyError (List JobClaim) → JobStore D → Prop
  | refused (error : PyError) : Claimed s now limit claimTtl claimIds (.error error) s
  | spoiled (error : PyError) (entry : String × StoredJob) : entry ∈ s.ready now limit →
      Claimed s now limit claimTtl claimIds (.error error)
        { s with jobs := s.jobs.set entry.1 (spoil (claimIds 0) entry.2) }
  | allReady : Claimed s now limit claimTtl claimIds (.ok (handed claimIds (now + claimTtl) (s.ready now limit)))
      { s with jobs := s.jobs.setAll (marked claimIds (now + claimTtl) (s.ready now limit)) }

theorem claim_claimed (s : JobStore D) (now limit claimTtl : Int) (claimIds : Nat → Uuid) :
    Claimed s now limit claimTtl claimIds (s.claim now limit claimTtl claimIds).1 (s.claim now limit claimTtl claimIds).2 := by
  cases valid : claimArguments limit claimTtl with
  | error error =>
    rw [claim, valid]
    exact .refused error
  | ok =>
    by_cases fits : Fits now claimTtl
    · rw [claim_fits valid fits]
      exact .allReady
    · rw [claim_overflows valid fits]
      cases nothing : s.ready now limit with
      | nil =>
        have idle : Claimed s now limit claimTtl claimIds _ _ := .allReady
        rw [nothing] at idle
        exact idle
      | cons entry rest => exact .spoiled _ entry (nothing ▸ List.mem_cons_self ..)

/-- Jobs are added that nobody has claimed; the others and the decisions stay. -/
structure Grown (s t : JobStore D) : Prop where
  jobs : ∀ jobId, t.jobs.get? jobId = s.jobs.get? jobId ∨
    s.jobs.get? jobId = none ∧ ∃ job, job.jobId = jobId ∧ t.jobs.get? jobId = some ⟨job, none, none, 0⟩
  decisions : t.decisions = s.decisions

theorem Grown.of_same (jobs : t.jobs = s.jobs) (decisions : t.decisions = s.decisions) : Grown s t :=
  ⟨fun _ => Or.inl (by rw [jobs]), decisions⟩

theorem Grown.trans {u : JobStore D} (first : Grown s t) (second : Grown t u) : Grown s u := by
  refine ⟨fun jobId => ?_, second.decisions.trans first.decisions⟩
  rcases first.jobs jobId with same | ⟨absent, job, own, added⟩
  · rw [← same]
    exact second.jobs jobId
  · rcases second.jobs jobId with same | ⟨absentToo, -⟩
    · exact Or.inr ⟨absent, job, own, same.trans added⟩
    · cases absentToo.symm.trans added

theorem Grown.added {job : Job} {jobId : String} (absent : jobId ∉ s.jobs.keys) (own : job.jobId = jobId) :
    Grown s { s with jobs := s.jobs.set jobId ⟨job, none, none, 0⟩ } := by
  refine ⟨fun other => ?_, rfl⟩
  rw [Dict.get?_set]
  split
  · rename_i mine
    rw [mine]
    exact Or.inr ⟨Dict.get?_eq_none.mpr absent, job, own, rfl⟩
  · exact Or.inl rfl

theorem schedule_grown (s : JobStore D) (job : Job) : Grown s (s.schedule job).2 := by
  unfold schedule
  split
  · exact .of_same rfl rfl
  rename_i absent
  split
  · exact .of_same rfl rfl
  · exact .added absent rfl

theorem Job.make_ok {jobId task : String} {payload : JsonValue} {runAt maxAttempts attempt : Int} {state : JobState}
    {lastFailure : Option String} {job : Job} (made : Job.make jobId task payload runAt maxAttempts attempt state lastFailure = .ok job) :
    job.jobId = jobId := by
  unfold Job.make at made
  split at made
  · split at made
    · split at made
      · cases made
      · cases made
        rfl
    · cases made
  · cases made

theorem createJob_grown (s : JobStore D) (schedule : JobSchedule) : Grown s (s.createJob schedule).2 := by
  unfold createJob
  dsimp only
  split
  · exact .of_same rfl rfl
  rename_i absent
  split
  · exact .of_same rfl rfl
  split
  · exact .of_same rfl rfl
  · rename_i made
    exact .added absent (Job.make_ok made)

theorem materializeLoop_grown (now limit : Int) (policies : Dict String (JobSchedule → PolicyAnswer))
    (schedules : List JobSchedule) (created : Nat) (s : JobStore D) :
    Grown s (materializeLoop now limit policies schedules created s).2 := by
  induction schedules generalizing created s with
  | nil => exact .of_same rfl rfl
  | cons schedule rest ih =>
    have grown := s.createJob_grown schedule
    unfold materializeLoop
    split
    · exact ih created s
    · split
      · rename_i error after raised
        rw [raised] at grown
        exact grown
      · rename_i new after did
        rw [did] at grown
        split
        · exact grown
        · rename_i next _
          have advanced : Grown s { after with schedules := after.schedules.set schedule.scheduleId next } :=
            ⟨grown.jobs, grown.decisions⟩
          exact advanced.trans (ih _ _)

theorem materialize_grown (s : JobStore D) (now limit : Int) (policies : Dict String (JobSchedule → PolicyAnswer)) :
    Grown s (s.materialize now limit policies).2 := by
  unfold materialize
  split
  · exact .of_same rfl rfl
  · exact materializeLoop_grown ..

theorem addSchedule_grown (s : JobStore D) (schedule : JobSchedule) : Grown s (s.addSchedule schedule).2 := by
  unfold addSchedule
  split
  · exact .of_same rfl rfl
  split
  · exact .of_same rfl rfl
  · exact .of_same rfl rfl

/-- The state of the job after a transition. -/
def reached : JobTransition → JobState
  | .succeeded => .succeeded
  | .retried _ => .scheduled
  | .terminated _ => .terminal
  | .stale => .scheduled

/-- A transition records a decision on the claim's job if the job has succeeded. -/
structure Records (claim : JobClaim) (call : Call D) (transition : JobTransition) : Prop where
  one : (decidedBy (call, .settled (.ok transition))).isSome ↔ transition = .succeeded
  own : ∀ entry ∈ (decidedBy (call, .settled (.ok transition))).toList, entry.1 = claim.job.jobId

/-- What a settlement can do: nothing, or replace the job of a claim that it holds. -/
inductive Settled (s : JobStore D) (claim : JobClaim) (call : Call D) : Except PyError JobTransition → JobStore D → Prop
  | kept (result : Except PyError JobTransition) : (∀ transition, result = .ok transition → transition = .stale) →
      Settled s claim call result s
  | done (transition : JobTransition) (item : StoredJob) (job : Job) : s.jobs.get? claim.job.jobId = some item →
      item.claimId = some claim.claimId → item.job.state = .scheduled → transition ≠ .stale →
      job.jobId = item.job.jobId → job.state = reached transition → Records claim call transition →
      Settled s claim call (.ok transition)
        { s.settle claim item job with decisions := s.decisions ++ (decidedBy (call, .settled (.ok transition))).toList }

theorem decidedBy_unsettled {call : Call D} {result : Except PyError JobTransition} (other : result ≠ .ok .succeeded) :
    decidedBy (call, .settled result) = none := by
  unfold decidedBy
  split
  · rename_i claim decision same
    exact absurd (Answer.settled.inj (congrArg Prod.snd same)) other
  · rfl

theorem Records.unsettled {claim : JobClaim} {call : Call D} {transition : JobTransition} (other : transition ≠ .succeeded) :
    Records claim call transition := by
  have undecided : decidedBy (call, .settled (.ok transition)) = none :=
    decidedBy_unsettled fun same => other (Except.ok.inj same)
  constructor
  · rw [undecided]
    simp [other]
  · rw [undecided]
    simp

theorem valid_some {claim : JobClaim} {item : StoredJob} (valid : s.valid claim = some item) :
    s.jobs.get? claim.job.jobId = some item ∧ item.claimId = some claim.claimId ∧ item.fencingToken = claim.fencingToken ∧
      item.job.state = .scheduled := by
  unfold JobStore.valid at valid
  split at valid
  · cases valid
  rename_i stored found
  split at valid
  · cases valid
  rename_i current
  cases valid
  push Not at current
  exact ⟨found, current⟩

theorem withAttempt_ok {job next : Job} {attempt : Int} (made : job.withAttempt attempt = .ok next) :
    next.jobId = job.jobId ∧ next.state = job.state := by
  unfold Job.withAttempt at made
  split at made
  · cases made
    exact ⟨rfl, rfl⟩
  · cases made

theorem succeed_settled (s : JobStore D) (own : ∀ jobId item, s.jobs.get? jobId = some item → item.job.jobId = jobId)
    (claim : JobClaim) (decision : D) :
    Settled s claim (.succeed claim decision) (s.succeed claim decision).1 (s.succeed claim decision).2 := by
  unfold succeed
  split
  · exact .kept _ fun _ same => (Except.ok.inj same).symm
  rename_i item valid
  obtain ⟨found, held, -, running⟩ := valid_some valid
  split
  · exact .kept _ fun _ same => (by cases same)
  · rw [own _ item found]
    exact .done .succeeded item { item.job with state := .succeeded } found held running (by simp) rfl rfl
      ⟨by simp [decidedBy], by simp [decidedBy]⟩

theorem retry_settled (s : JobStore D) (claim : JobClaim) (reason : String) (runAt : Int) :
    Settled s claim (.retry claim reason runAt) (s.retry claim reason runAt).1 (s.retry claim reason runAt).2 := by
  have silent : ∀ transition, s.decisions =
      s.decisions ++ (decidedBy (.retry claim reason runAt, .settled (.ok transition))).toList :=
    fun _ => (List.append_nil _).symm
  unfold retry
  split
  · exact .kept _ fun _ same => (by cases same)
  rename_i sanitized _
  split
  · exact .kept _ fun _ same => (Except.ok.inj same).symm
  rename_i item valid
  obtain ⟨found, held, -, running⟩ := valid_some valid
  split
  · exact .kept _ fun _ same => (by cases same)
  rename_i job made
  obtain ⟨sameId, sameState⟩ := withAttempt_ok made
  split
  · have done : Settled s claim (.retry claim reason runAt) _ _ := .done (.terminated sanitized) item
      { job with state := .terminal, lastFailure := some sanitized } found held running (by simp) sameId rfl
      (.unsettled (by simp))
    rw [← silent] at done
    exact done
  · have done : Settled s claim (.retry claim reason runAt) _ _ := .done (.retried runAt) item
      { job with runAt, lastFailure := some sanitized } found held running (by simp) sameId (sameState.trans running)
      (.unsettled (by simp))
    rw [← silent] at done
    exact done

theorem terminate_settled (s : JobStore D) (claim : JobClaim) (reason : String) :
    Settled s claim (.terminate claim reason) (s.terminate claim reason).1 (s.terminate claim reason).2 := by
  unfold terminate
  split
  · exact .kept _ fun _ same => (by cases same)
  rename_i sanitized _
  split
  · exact .kept _ fun _ same => (Except.ok.inj same).symm
  rename_i item valid
  obtain ⟨found, held, -, running⟩ := valid_some valid
  have done : Settled s claim (.terminate claim reason) _ _ := .done (.terminated sanitized) item
    { item.job with state := .terminal, lastFailure := some sanitized } found held running (by simp) rfl rfl
    (.unsettled (by simp))
  rw [show (decidedBy (.terminate claim reason, .settled (.ok (.terminated sanitized)))).toList = [] from rfl, List.append_nil] at done
  exact done

end Pytitect.JobStore
