import Pytitect.Json
import Pytitect.Lib.Walk
import Mathlib.Data.List.Sort

namespace Pytitect

inductive JobState
  | scheduled
  | succeeded
  | terminal
  | cancelled
  deriving DecidableEq

structure Job where
  jobId : String
  task : String
  payload : JsonValue
  runAt : Int
  maxAttempts : Int
  attempt : Int
  state : JobState
  lastFailure : Option String
  named : jobId ≠ "" ∧ task ≠ ""
  counted : 0 < maxAttempts ∧ 0 ≤ attempt ∧ attempt ≤ maxAttempts
  valid : validateJson payload .default = .ok ()

namespace Job

/-- The checks of `__post_init__`, in their order. -/
def make (jobId task : String) (payload : JsonValue) (runAt maxAttempts attempt : Int) (state : JobState)
    (lastFailure : Option String) : Except PyError Job :=
  if named : jobId ≠ "" ∧ task ≠ "" then
    if counted : 0 < maxAttempts ∧ 0 ≤ attempt ∧ attempt ≤ maxAttempts then
      match valid : validateJson payload .default with
      | .error error => .error error
      | .ok () => .ok ⟨jobId, task, payload, runAt, maxAttempts, attempt, state, lastFailure, named, counted, valid⟩
    else .error (.valueError "job attempts are invalid")
  else .error (.valueError "job identity and task must not be empty")

/-- `replace(job, attempt=…)` checks the attempt again. -/
def withAttempt (job : Job) (attempt : Int) : Except PyError Job :=
  if counted : 0 < job.maxAttempts ∧ 0 ≤ attempt ∧ attempt ≤ job.maxAttempts then .ok { job with attempt, counted }
  else .error (.valueError "job attempts are invalid")

end Job

structure JobClaim where
  job : Job
  claimId : Uuid
  claimedUntil : Int
  fencingToken : Nat
  positive : 0 < fencingToken

inductive JobScheduleResult
  | scheduled
  | duplicate
  deriving DecidableEq

inductive JobTransition
  | succeeded
  | retried (runAt : Int)
  | terminated (reason : String)
  | stale
  deriving DecidableEq

inductive ScheduleKind
  | oneShot
  | fixedInterval
  | consumerPolicy
  deriving DecidableEq

structure JobSchedule where
  scheduleId : String
  task : String
  payload : JsonValue
  nextRun : Int
  kind : ScheduleKind
  interval : Option Int
  policy : Option String
  maxAttempts : Int
  sequence : Int
  active : Bool
  named : scheduleId ≠ "" ∧ task ≠ ""
  valid : validateJson payload .default = .ok ()
  fixed : kind = .fixedInterval → ∃ duration, interval = some duration ∧ 0 < duration
  ruled : kind = .consumerPolicy → ∃ name, policy = some name ∧ name ≠ ""
  single : kind = .oneShot → interval = none ∧ policy = none

/-- What a policy of the caller answers: the next run if there is one, or an exception. -/
inductive PolicyAnswer
  | next (instant : Option Int)
  | keyError
  | raised (error : PyError)

/-- `_StoredJob`. -/
structure StoredJob where
  job : Job
  claimId : Option Uuid
  claimedUntil : Option Int
  fencingToken : Nat

/-- `" ".join(reason.split())` -/
def squeezed (reason : String) : String :=
  " ".intercalate (((reason.toList.splitOnP isSpace).filter (· ≠ [])).map String.ofList)

/-- `_reason` -/
def jobReason (reason : String) : Except PyError String :=
  let sanitized := String.ofList ((squeezed reason).toList.take 512)
  if sanitized = "" then .error (.valueError "job failure reason must not be empty") else .ok sanitized

/-- `_claim_arguments` -/
def claimArguments (limit claimTtl : Int) : Except PyError Unit :=
  if limit ≤ 0 then .error (.valueError "claim limit must be a positive integer")
  else if claimTtl ≤ 0 then .error (.valueError "claim ttl must be positive")
  else .ok ()

/-- `InMemoryJobStore`; `D` is the type of decisions. -/
structure JobStore (D : Type) where
  capacity : Nat
  jobs : Dict String StoredJob
  schedules : Dict String JobSchedule
  decisions : List (String × D)

namespace JobStore
variable {D : Type}

def empty (capacity : Nat) : JobStore D := ⟨capacity, .empty, .empty, []⟩

def get (s : JobStore D) (jobId : String) : Option Job := (s.jobs.get? jobId).map (·.job)

/-- `_ensure_capacity` -/
def ensureCapacity (s : JobStore D) (count : Nat) : Except PyError Unit :=
  if s.capacity < s.jobs.size + s.schedules.size + s.decisions.length + count then
    .error (.overflowError "job store capacity exceeded")
  else .ok ()

def schedule (s : JobStore D) (job : Job) : Except PyError JobScheduleResult × JobStore D :=
  if job.jobId ∈ s.jobs.keys then (.ok .duplicate, s)
  else
    match s.ensureCapacity 1 with
    | .error error => (.error error, s)
    | .ok () => (.ok .scheduled, { s with jobs := s.jobs.set job.jobId ⟨job, none, none, 0⟩ })

/-- The order in which jobs are looked at: by `run_at`, then by id. -/
def Before (a b : String × StoredJob) : Prop :=
  a.2.job.runAt < b.2.job.runAt ∨ a.2.job.runAt = b.2.job.runAt ∧ a.2.job.jobId ≤ b.2.job.jobId

instance : DecidableRel Before := fun _ _ => inferInstanceAs (Decidable (_ ∨ _))

/-- A job that a call at `now` may claim. -/
def eligible (now : Int) (entry : String × StoredJob) : Bool :=
  entry.2.job.state = .scheduled && entry.2.job.runAt ≤ now && entry.2.claimedUntil.all (· ≤ now)

/-- Claim one job. The new token and claim id are in place before the new deadline is
computed, which may overflow. -/
def claimJob (claimedUntil : Except PyError Int) (claimId : Uuid) (item : StoredJob) : Except PyError JobClaim × StoredJob :=
  match claimedUntil with
  | .error error => (.error error, { item with fencingToken := item.fencingToken + 1, claimId := some claimId })
  | .ok claimedUntil =>
    (.ok ⟨item.job, claimId, claimedUntil, item.fencingToken + 1, Nat.succ_pos _⟩,
      ⟨item.job, some claimId, some claimedUntil, item.fencingToken + 1⟩)

/-- `claim`; `claimIds` is what `uuid4` supplies during the call. -/
def claim (s : JobStore D) (now limit claimTtl : Int) (claimIds : Nat → Uuid) : Except PyError (List JobClaim) × JobStore D :=
  match claimArguments limit claimTtl with
  | .error error => (.error error, s)
  | .ok () =>
    let walked := Dict.walk (eligible now) (fun count entry => claimJob (datetimeAdd now claimTtl) (claimIds count) entry.2)
      limit.toNat (s.jobs.items.insertionSort Before) 0 s.jobs
    (walked.1, { s with jobs := walked.2 })

/-- `_valid`: the job, if the claim may still settle it. -/
def valid (s : JobStore D) (claim : JobClaim) : Option StoredJob :=
  match s.jobs.get? claim.job.jobId with
  | none => none
  | some item =>
    if item.claimId ≠ some claim.claimId ∨ item.fencingToken ≠ claim.fencingToken ∨ item.job.state ≠ .scheduled then none
    else some item

/-- A settlement replaces the job and releases its claim. -/
def settle (s : JobStore D) (claim : JobClaim) (item : StoredJob) (job : Job) : JobStore D :=
  { s with jobs := s.jobs.set claim.job.jobId { item with job, claimId := none, claimedUntil := none } }

def succeed (s : JobStore D) (claim : JobClaim) (decision : D) : Except PyError JobTransition × JobStore D :=
  match s.valid claim with
  | none => (.ok .stale, s)
  | some item =>
    if s.capacity ≤ s.decisions.length then (.error (.overflowError "job decision capacity exceeded"), s)
    else
      (.ok .succeeded, { s.settle claim item { item.job with state := .succeeded } with
        decisions := s.decisions ++ [(item.job.jobId, decision)] })

/-- `retry`; the attempt that reaches the limit ends the job and leaves its run time alone. -/
def retry (s : JobStore D) (claim : JobClaim) (reason : String) (runAt : Int) : Except PyError JobTransition × JobStore D :=
  match jobReason reason with
  | .error error => (.error error, s)
  | .ok sanitized =>
    match s.valid claim with
    | none => (.ok .stale, s)
    | some item =>
      match item.job.withAttempt (item.job.attempt + 1) with
      | .error error => (.error error, s)
      | .ok job =>
        if item.job.maxAttempts ≤ item.job.attempt + 1 then
          (.ok (.terminated sanitized), s.settle claim item { job with state := .terminal, lastFailure := some sanitized })
        else (.ok (.retried runAt), s.settle claim item { job with runAt, lastFailure := some sanitized })

def terminate (s : JobStore D) (claim : JobClaim) (reason : String) : Except PyError JobTransition × JobStore D :=
  match jobReason reason with
  | .error error => (.error error, s)
  | .ok sanitized =>
    match s.valid claim with
    | none => (.ok .stale, s)
    | some item =>
      (.ok (.terminated sanitized), s.settle claim item { item.job with state := .terminal, lastFailure := some sanitized })

def addSchedule (s : JobStore D) (schedule : JobSchedule) : Except PyError Bool × JobStore D :=
  if schedule.scheduleId ∈ s.schedules.keys then (.ok false, s)
  else
    match s.ensureCapacity 1 with
    | .error error => (.error error, s)
    | .ok () => (.ok true, { s with schedules := s.schedules.set schedule.scheduleId schedule })

/-- `_advance_schedule` -/
def advanceSchedule (schedule : JobSchedule) (policies : Dict String (JobSchedule → PolicyAnswer)) : Except PyError JobSchedule :=
  let advanced := { schedule with sequence := schedule.sequence + 1 }
  match schedule.kind with
  | .oneShot => .ok { advanced with active := false }
  | .fixedInterval => do
    let nextRun ← datetimeAdd schedule.nextRun (schedule.interval.getD 0)
    return { advanced with nextRun }
  | .consumerPolicy =>
    let name := schedule.policy.getD ""
    let unknown := PyError.lookupError s!"unknown next-run policy: {name}"
    match policies.get? name with
    | none => .error unknown
    | some policy =>
      match policy schedule with
      | .keyError => .error unknown
      | .raised error => .error error
      | .next none => .ok { advanced with active := false }
      | .next (some nextRun) =>
        if nextRun ≤ schedule.nextRun then .error (.valueError "next-run policy must advance time")
        else .ok { advanced with nextRun }

/-- The job of a schedule's next run is created unless it is there, and it is said how many
were created. -/
def createJob (s : JobStore D) (schedule : JobSchedule) : Except PyError Nat × JobStore D :=
  let jobId := s!"{schedule.scheduleId}:{schedule.sequence}"
  if jobId ∈ s.jobs.keys then (.ok 0, s)
  else
    match s.ensureCapacity 1 with
    | .error error => (.error error, s)
    | .ok () =>
      match Job.make jobId schedule.task schedule.payload schedule.nextRun schedule.maxAttempts 0 .scheduled none with
      | .error error => (.error error, s)
      | .ok job => (.ok 1, { s with jobs := s.jobs.set jobId ⟨job, none, none, 0⟩ })

/-- The loop of `materialize`. What was done before an exception stays done. -/
def materializeLoop (now limit : Int) (policies : Dict String (JobSchedule → PolicyAnswer)) :
    List JobSchedule → Nat → JobStore D → Except PyError Nat × JobStore D
  | [], created, s => (.ok created, s)
  | schedule :: rest, created, s =>
    if limit ≤ created ∨ schedule.active = false ∨ now < schedule.nextRun then
      materializeLoop now limit policies rest created s
    else
      match s.createJob schedule with
      | (.error error, s) => (.error error, s)
      | (.ok new, s) =>
        match advanceSchedule schedule policies with
        | .error error => (.error error, s)
        | .ok next =>
          materializeLoop now limit policies rest (created + new)
            { s with schedules := s.schedules.set schedule.scheduleId next }

/-- The order in which schedules are looked at. -/
def Sooner (a b : JobSchedule) : Prop :=
  a.nextRun < b.nextRun ∨ a.nextRun = b.nextRun ∧ a.scheduleId ≤ b.scheduleId

instance : DecidableRel Sooner := fun _ _ => inferInstanceAs (Decidable (_ ∨ _))

def materialize (s : JobStore D) (now limit : Int) (policies : Dict String (JobSchedule → PolicyAnswer)) :
    Except PyError Nat × JobStore D :=
  if limit ≤ 0 then (.error (.valueError "materialize limit must be a positive integer"), s)
  else materializeLoop now limit policies ((s.schedules.items.map Prod.snd).insertionSort Sooner) 0 s

end JobStore

end Pytitect
