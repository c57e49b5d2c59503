import Pytitect.Jobs.Agreement
import Pytitect.SqlAlchemy.JobTables

namespace Pytitect

abbrev JobTask (D α : Type) : Type := RowLocks.Session (JobTables D) (JobWrite D) JobLock PyError α

/-- A row that `claim` has given to a claim. -/
def JobRow.claim (row : JobRow) (claimId : Uuid) (claimedUntil : Int) : JobRow :=
  { row with fencingToken := row.fencingToken + 1, claimId := some claimId, claimedUntil := some claimedUntil }

namespace JobStatements
open RowLocks.Session
variable {D : Type} (i : Nat)

/-- `get` of `SQLAlchemyJobStore`, whose methods run statement by statement in session `i`. -/
def get (jobId : String) : JobTask D (Option Job) := do
  let row ← query JobWrite.apply i fun tables => tables.rows.get? jobId
  match row with
  | none => return none
  | some row =>
    match row.job jobId with
    | .error error => Coroutine.raise error
    | .ok job => return some job

def schedule (job : Job) : JobTask D JobScheduleResult := do
  let inserted ← writeWhere JobWrite.apply i (.job job.jobId) fun tables =>
    if (tables.rows.get? job.jobId).isNone then some (.schedule job.jobId (job.row 0 none none)) else none
  return if inserted then .scheduled else .duplicate

/-- A pass of the loop of `claim`, with the flush of its row. -/
def claimJob (now claimTtl : Int) (entry : (String × JobRow) × Uuid) : JobTask D JobClaim :=
  match datetimeAdd now claimTtl with
  | .error error => Coroutine.raise error
  | .ok claimedUntil =>
    match (entry.1.2.claim entry.2 claimedUntil).job entry.1.1 with
    | .error error => Coroutine.raise error
    | .ok job => do
      change i (.claim entry.1.1 (entry.1.2.claim entry.2 claimedUntil) (entry.2, claimedUntil))
      return ⟨job, entry.2, claimedUntil, entry.1.2.fencingToken + 1, Nat.succ_pos _⟩

/-- `claim`; `claimIds` is what `uuid4` supplies during the call. -/
def claim (now limit claimTtl : Int) (claimIds : Nat → Uuid) : JobTask D (List JobClaim) :=
  match claimArguments limit claimTtl with
  | .error error => Coroutine.raise error
  | .ok () => do
    let rows ← selectSkipLocked JobWrite.apply i
      (fun tables => (tables.rows.items.filter fun entry => entry.2.eligible now).insertionSort JobRow.Before)
      (fun entry => JobLock.job entry.1) limit.toNat
    each (claimJob i now claimTtl) (rows.mapIdx fun count entry => (entry, claimIds count))

/-- `_settle`; `values` are the columns that it writes besides the claim, and `clock` is the database's
at the update. `write` only tells what is remembered of it. -/
def settle (claim : JobClaim) (at_ clock : Int) (values : JobRow → JobRow) (write : JobRow → JobWrite D) : JobTask D Bool := do
  let _ ← selectForUpdate JobWrite.apply i (.job claim.job.jobId) fun tables => tables.rows.get? claim.job.jobId
  writeWhere JobWrite.apply i (.job claim.job.jobId) fun tables =>
    ((tables.rows.get? claim.job.jobId).filter (·.settles claim at_ clock)).map fun row =>
      write { values row with claimId := none, claimedUntil := none }

/-- The caller's `save_decision`, with which of the session's decisions this is. -/
def saveDecision (saved : SavedDecision D) : JobTask D Nat :=
  acquire JobWrite.apply i (.saved i) (fun _ => some (.saveDecision i saved)) fun tables => (tables.savedIn i).length - 1

def succeed (claim : JobClaim) (decision : D) (at_ clock : Int) : JobTask D JobTransition :=
  nested i fun transaction => do
    let index ← saveDecision i ⟨claim.job.jobId, decision⟩
    let settled ← settle i claim at_ clock ({ · with state := .succeeded, terminal := true }) (.succeed claim.job.jobId · (i, index))
    if settled then return .succeeded
    else
      rollback i transaction
      return .stale

/-- `retry`; the attempt is counted from the claim's job, and the run time is written on every attempt. -/
def retry (claim : JobClaim) (reason : String) (runAt at_ clock : Int) : JobTask D JobTransition :=
  match jobReason reason with
  | .error error => Coroutine.raise error
  | .ok reason => do
    let attempt := claim.job.attempt + 1
    let terminal := decide (claim.job.maxAttempts ≤ attempt)
    let settled ← settle i claim at_ clock
      ({ · with attempt, runAt, failureReason := some reason, terminal, state := if terminal then .terminal else .scheduled })
      (.settle claim.job.jobId)
    return if settled then if terminal then .terminated reason else .retried runAt else .stale

def terminate (claim : JobClaim) (reason : String) (at_ clock : Int) : JobTask D JobTransition :=
  match jobReason reason with
  | .error error => Coroutine.raise error
  | .ok reason => do
    let settled ← settle i claim at_ clock ({ · with failureReason := some reason, terminal := true, state := .terminal })
      (.settle claim.job.jobId)
    return if settled then .terminated reason else .stale

end JobStatements

namespace JobTables
open RowLocks
variable {D : Type} {i : Nat} {d : Database (JobTables D) (JobWrite D) JobLock} {frame : JobTables D → Prop}
  {K : Database (JobTables D) (JobWrite D) JobLock → Prop} {except : Option (Nat × Nat)} {tables : JobTables D} {jobId : String}

/-- The job is there, with what it is about. One that was not scheduled any longer stays as it was shown. -/
def Shown (jobId : String) (found : Option Job) (tables : JobTables D) : Prop :=
  ∀ job, found = some job → ∃ row, (tables.job jobId).row = some row ∧ row.task = job.task ∧ row.payload = job.payload ∧
    row.maxAttempts = job.maxAttempts ∧ (job.state ≠ .scheduled → row.job jobId = .ok job)

/-- A job is there once it was scheduled. -/
def Scheduled (job : Job) (result : JobScheduleResult) (tables : JobTables D) : Prop :=
  ∃ row, (tables.job job.jobId).row = some row ∧
    (result = .scheduled → row.task = job.task ∧ row.payload = job.payload ∧ row.maxAttempts = job.maxAttempts)

/-- The claim was given under its token, for a job that is about what it says. -/
structure Claimed (claim : JobClaim) (tables : JobTables D) : Prop where
  given : (tables.job claim.job.jobId).claims[claim.fencingToken - 1]? = some (claim.claimId, claim.claimedUntil)
  stored : ∃ row, (tables.job claim.job.jobId).row = some row ∧ row.task = claim.job.task ∧ row.payload = claim.job.payload ∧
    row.maxAttempts = claim.job.maxAttempts

/-- The job has ended by its last claim, in a state and with the reason of its failure. -/
structure Ended (claim : JobClaim) (state : JobState) (reason : Option String) (tables : JobTables D) : Prop where
  ended : ∃ row, (tables.job claim.job.jobId).row = some row ∧ row.state = state ∧ ∀ text, reason = some text → row.failureReason = reason
  last : (tables.job claim.job.jobId).claims.getLast? = some (claim.claimId, claim.claimedUntil)
  numbered : (tables.job claim.job.jobId).claims.length = claim.fencingToken

/-- The job has succeeded by the claim, and its decision is saved. -/
def Succeeded (claim : JobClaim) (decision : D) (tables : JobTables D) : Prop :=
  Ended claim .succeeded none tables ∧ ∃ session index, (tables.job claim.job.jobId).succeeded = some (session, index) ∧
    (tables.savedIn session)[index]? = some ⟨claim.job.jobId, decision⟩

/-- What `retry` or `terminate` has answered is true of the job. -/
def Settled (claim : JobClaim) : JobTransition → JobTables D → Prop
  | .succeeded, _ => False
  | .retried _, tables => (tables.job claim.job.jobId).claims[claim.fencingToken - 1]? = some (claim.claimId, claim.claimedUntil)
  | .terminated reason, tables => Ended claim .terminal (some reason) tables
  | .stale, _ => True

theorem job_of_row {row : JobRow} {job : Job} (made : row.job jobId = .ok job) :
    job.jobId = jobId ∧ job.task = row.task ∧ job.payload = row.payload ∧ job.maxAttempts = row.maxAttempts ∧ job.state = row.state := by
  unfold JobRow.job Job.make at made
  split at made
  · split at made
    · split at made
      · cases made
      · cases made
        exact ⟨rfl, rfl, rfl, rfl, rfl⟩
    · cases made
  · cases made

theorem lasting_shown (jobId : String) (found : Option Job) : Lasting (discipline D) (Shown jobId found) := by
  intro s t grown shown job same
  have grows : JobPart.Grows (s.job jobId) (t.job jobId) := grown (.job jobId)
  obtain ⟨row, isRow, task, payload, maxAttempts, ended⟩ := shown job same
  obtain ⟨later, isLater, taskLater, payloadLater, maxAttemptsLater⟩ := grows.row row isRow
  refine ⟨later, isLater, taskLater.trans task, payloadLater.trans payload, maxAttemptsLater.trans maxAttempts, fun final => ?_⟩
  have made := ended final
  have unchanged := grows.ended row isRow ((job_of_row made).2.2.2.2 ▸ final)
  rw [unchanged, isRow] at isLater
  cases isLater
  exact made

theorem lasting_scheduled (job : Job) (result : JobScheduleResult) : Lasting (discipline D) (Scheduled job result) := by
  intro s t grown scheduled
  obtain ⟨row, isRow, about⟩ := scheduled
  obtain ⟨later, isLater, task, payload, maxAttempts⟩ := JobPart.Grows.row (grown (.job job.jobId)) row isRow
  refine ⟨later, isLater, fun same => ?_⟩
  obtain ⟨isTask, isPayload, isMaxAttempts⟩ := about same
  exact ⟨task.trans isTask, payload.trans isPayload, maxAttempts.trans isMaxAttempts⟩

theorem lasting_claimed (claim : JobClaim) : Lasting (discipline D) (Claimed claim) := by
  intro s t grown claimed
  have grows : JobPart.Grows (s.job claim.job.jobId) (t.job claim.job.jobId) := grown (.job claim.job.jobId)
  obtain ⟨row, isRow, isTask, isPayload, isMaxAttempts⟩ := claimed.stored
  obtain ⟨later, isLater, task, payload, maxAttempts⟩ := grows.row row isRow
  exact ⟨found_longer grows.claims claimed.given, later, isLater, task.trans isTask, payload.trans isPayload, maxAttempts.trans isMaxAttempts⟩

theorem lasting_ended (claim : JobClaim) {state : JobState} (reason : Option String) (final : state ≠ .scheduled) :
    Lasting (discipline D) (Ended claim state reason) := by
  intro s t grown ended
  obtain ⟨row, isRow, inState, failed⟩ := ended.ended
  have same : t.job claim.job.jobId = s.job claim.job.jobId :=
    JobPart.Grows.ended (grown (.job claim.job.jobId)) row isRow (inState ▸ final)
  refine ⟨⟨row, ?_, inState, failed⟩, ?_, ?_⟩
  · rw [same]
    exact isRow
  · rw [same]
    exact ended.last
  · rw [same]
    exact ended.numbered

theorem lasting_succeeded (claim : JobClaim) (decision : D) : Lasting (discipline D) (Succeeded claim decision) := by
  intro s t grown succeeded
  obtain ⟨ended, session, index, place, saved⟩ := succeeded
  have longer : s.savedIn session <+: t.savedIn session := grown (.saved session)
  exact ⟨lasting_ended claim none (by simp) s t grown ended, session, index,
    JobPart.Grows.succeeded (grown (.job claim.job.jobId)) _ place, found_longer longer saved⟩

/-- A session goes on knowing its tables to be good apart from what it is in the middle of. -/
theorem enduring_open (except : Option (Nat × Nat)) (lasting : Lasting (discipline D) frame) :
    Enduring (discipline D) fun tables => Good except tables ∧ frame tables := by
  have enduring : Enduring (discipline D) (Good except) := fun _ _ _ good committed furthest => good.merge committed furthest
  exact enduring.and lasting.enduring

theorem frame_write {write : JobWrite D} (lasting : Lasting (discipline D) frame) (framed : frame tables)
    (grows : Grows write.lock (tables.part write.lock) ((write.apply tables).part write.lock)) : frame (write.apply tables) := by
  have only : ∀ row, (schema D).touches write row → row = write.lock := fun _ touches => touches.symm
  exact lasting _ _ (grown_of_grows only grows) framed

/-- What session `i` knows in the middle of a call. -/
abbrev Amid (i : Nat) (K : Database (JobTables D) (JobWrite D) JobLock → Prop) (except : Option (Nat × Nat))
    (frame : JobTables D → Prop) (d : Database (JobTables D) (JobWrite D) JobLock) : Prop :=
  K d ∧ (Good except (d.view JobWrite.apply i) ∧ frame (d.view JobWrite.apply i))

theorem Amid.stays {rows : JobLock → Prop} (lasting : Lasting (discipline D) frame) (beside : Beside (discipline D) i rows K) :
    Stays (discipline D) i (Amid i K except frame) :=
  beside.stays.and (enduring_open except lasting).stays

/-- A job is written that was still scheduled, or new. -/
theorem job_keeps {write : JobWrite D} (later : Option (Nat × Nat)) (own : write.lock = .job jobId) (lasting : Lasting (discipline D) frame)
    (open_ : Good except tables ∧ frame tables) (running : ∀ row, (tables.job jobId).row = some row → row.state = .scheduled)
    (consistent : ((write.apply tables).job jobId).Consistent)
    (about : ∀ row, (tables.job jobId).row = some row → ∃ later, ((write.apply tables).job jobId).row = some later ∧
      later.task = row.task ∧ later.payload = row.payload ∧ later.maxAttempts = row.maxAttempts)
    (claims : (tables.job jobId).claims <+: ((write.apply tables).job jobId).claims)
    (decided : ((write.apply tables).job jobId).succeeded = (tables.job jobId).succeeded ∧ later = except ∨
      later = none ∧ ∃ place, except = some place ∧ ((write.apply tables).job jobId).succeeded = some place ∧
        ∃ saved, (tables.savedIn place.1)[place.2]? = some saved ∧ saved.jobId = jobId) :
    JobPart.Grows (tables.job jobId) ((write.apply tables).job jobId) ∧ Good later (write.apply tables) ∧ frame (write.apply tables) := by
  have undecided := (open_.1.jobs jobId).undecided running
  have grows : JobPart.Grows (tables.job jobId) ((write.apply tables).job jobId) := by
    refine ⟨about, claims, fun place found => ?_, fun row found ended => absurd (running row found) ended⟩
    rw [undecided] at found
    cases found
  have part : Grows (.job jobId) (tables.part (.job jobId)) ((write.apply tables).part (.job jobId)) := grows
  refine ⟨grows, open_.1.of_job own consistent (decided.imp_right fun waiting => ⟨undecided, waiting⟩), ?_⟩
  rw [← own] at part
  exact frame_write lasting open_.2 part

theorem schedule_establishes {job : Job} :
    Establishes (discipline D) i (fun result tables => Scheduled job result tables) (JobStatements.schedule i job) := by
  intro frame lasting d kept known
  have trivially : Beside (discipline D) i (· = .job job.jobId) fun _ => True :=
    ⟨Stays.const True, fun _ _ _ => trivial, fun _ _ _ _ => trivial⟩
  have lastingAfter : ∀ inserted : Bool, Lasting (discipline D) fun tables => frame tables ∧
      Scheduled job (if inserted then .scheduled else .duplicate) tables := fun _ => lasting.and (lasting_scheduled job _)
  have written : (protocol (discipline D)).Safe i
      (Ends fun inserted d => True ∧ (Good none (d.view JobWrite.apply i) ∧ frame (d.view JobWrite.apply i) ∧
          Scheduled job (if inserted then .scheduled else .duplicate) (d.view JobWrite.apply i)) ∧
        (inserted = true → Holds (schema D) i (.job job.jobId) (fun _ => True) d))
      (Session.writeWhere JobWrite.apply i (.job job.jobId) fun tables =>
        if (tables.rows.get? job.jobId).isNone then some (.schedule job.jobId (job.row 0 none none)) else none : JobTask D Bool) d := by
    refine safe_write_beside (enduring_open none lasting) (fun inserted => enduring_open none (lastingAfter inserted)) trivially
      (fun s open_ found => ?_) (fun s w open_ found => ?_) ⟨trivial, known⟩
    · split at found
      · cases found
      rename_i present
      obtain ⟨row, isRow⟩ := Option.ne_none_iff_exists'.mp fun absent => present (Option.isNone_iff_eq_none.mpr absent)
      exact ⟨open_.1, open_.2, row, isRow, fun impossible => by cases impossible⟩
    · obtain ⟨new, same⟩ := Option.ite_none_right_eq_some.mp found
      cases same
      have absent : (s.job job.jobId).row = none := Option.isNone_iff_eq_none.mp new
      have running : ∀ row, (s.job job.jobId).row = some row → row.state = .scheduled := by
        intro row present
        rw [absent] at present
        cases present
      have consistent := open_.1.jobs job.jobId
      have unclaimed : (s.job job.jobId).claims.length = 0 := by
        rw [← consistent.counted, absent]
        rfl
      have own : (JobWrite.schedule job.jobId (job.row 0 none none) : JobWrite D).lock = .job job.jobId := rfl
      obtain ⟨grows, good, framed⟩ := job_keeps none own lasting open_ running
        (by
          rw [job_schedule]
          refine ⟨unclaimed.symm, fun row claimId _ same claimed => ?_, fun decided => ?_⟩
          · cases same
            cases claimed
          · exact absurd decided (consistent.not_decided running))
        (fun row present => by
          rw [absent] at present
          cases present)
        (by
          rw [job_schedule])
        (Or.inl ⟨by rw [job_schedule], rfl⟩)
      refine ⟨fun _ touches => touches.symm, grows, ⟨good, framed, job.row 0 none none, ?_, fun _ => ⟨rfl, rfl, rfl⟩⟩, trivial⟩
      change ((JobWrite.apply _ s).job job.jobId).row = _
      rw [job_schedule]
  refine Protocol.Safe.bind written kept (fun inserted d _ known => ?_) fun _ _ _ _ => trivial
  exact safe_pure ((Knows.stays lasting).and (lasting_scheduled job _).enduring.stays) ⟨⟨known.2.1.1, known.2.1.2.1⟩, known.2.1.2.2⟩

theorem get_establishes : Establishes (discipline D) i (fun found tables => Shown jobId found tables) (JobStatements.get i jobId) := by
  intro frame lasting d kept known
  have trivially : Stays (discipline D) i fun _ => True := Stays.const True
  have lastingRow : ∀ found : Option JobRow, Lasting (discipline D) fun tables =>
      ∀ row job, found = some row → row.job jobId = .ok job → Shown jobId (some job) tables :=
    fun found => Lasting.forall fun row => Lasting.forall fun job => Lasting.forall fun _ => Lasting.forall fun _ => lasting_shown jobId (some job)
  have read : (protocol (discipline D)).Safe i
      (Ends fun found d => True ∧ (Good none (d.view JobWrite.apply i) ∧ frame (d.view JobWrite.apply i)) ∧
        ∀ row job, found = some row → row.job jobId = .ok job → Shown jobId (some job) (d.view JobWrite.apply i))
      (Session.query JobWrite.apply i fun tables => tables.rows.get? jobId : JobTask D (Option JobRow)) d := by
    refine safe_query_beside (enduring_open none lasting) (fun found => (lastingRow found).enduring) trivially
      (fun s _ row job isRow made => ?_) ⟨trivial, known⟩
    intro other same
    cases same
    obtain ⟨-, task, payload, maxAttempts, -⟩ := job_of_row made
    exact ⟨row, isRow, task.symm, payload.symm, maxAttempts.symm, fun _ => made⟩
  refine Protocol.Safe.bind read kept (fun found d _ known => ?_) fun _ _ _ _ => trivial
  have answer : ∀ job, Shown jobId job (d.view JobWrite.apply i) → (protocol (discipline D)).Safe i
      (Ends fun found d => Knows (discipline D) i frame d ∧ Shown jobId found (d.view JobWrite.apply i))
      (pure job : JobTask D (Option Job)) d :=
    fun job shown => safe_pure ((Knows.stays lasting).and (lasting_shown jobId job).enduring.stays) ⟨known.2.1, shown⟩
  split
  · exact answer none fun _ impossible => by cases impossible
  · split
    · exact Protocol.Safe.done fun _ _ _ => trivial
    · rename_i row _ job made
      exact answer (some job) (known.2.2 row job rfl made)

/-- The job is as it was read, and still scheduled. -/
def Running (entry : String × JobRow) (part : JobPart) : Prop := part.row = some entry.2 ∧ entry.2.state = .scheduled

/-- A job that was locked while it was scheduled gets its next token. -/
theorem claimJob_safe {now claimTtl : Int} {entry : (String × JobRow) × Uuid} (lasting : Lasting (discipline D) frame)
    (beside : Beside (discipline D) i (· = .job entry.1.1) K) (kept : Kept (discipline D) d)
    (known : Amid i K none frame d ∧ Holds (schema D) i (.job entry.1.1) (Running entry.1) d) :
    (protocol (discipline D)).Safe i (Ends fun claim d => Amid i K none frame d ∧ Claimed claim (d.view JobWrite.apply i))
      (JobStatements.claimJob i now claimTtl entry) d := by
  obtain ⟨⟨jobId, row⟩, claimId⟩ := entry
  unfold JobStatements.claimJob
  split
  · exact Protocol.Safe.done fun _ _ _ => trivial
  rename_i claimedUntil _
  split
  · exact Protocol.Safe.done fun _ _ _ => trivial
  rename_i job made
  obtain ⟨named, task, payload, maxAttempts, -⟩ := job_of_row made
  cases named
  have lastingClaim := lasting.and (lasting_claimed (D := D) ⟨job, claimId, claimedUntil, row.fencingToken + 1, Nat.succ_pos _⟩)
  have written : (protocol (discipline D)).Safe i
      (Ends fun _ d => K d ∧ (Good none (d.view JobWrite.apply i) ∧ frame (d.view JobWrite.apply i) ∧
          Claimed ⟨job, claimId, claimedUntil, row.fencingToken + 1, Nat.succ_pos _⟩ (d.view JobWrite.apply i)) ∧
        Holds (schema D) i (.job job.jobId) (fun _ => True) d)
      (Session.change i (.claim job.jobId (row.claim claimId claimedUntil) (claimId, claimedUntil)) : JobTask D Unit) d := by
    refine safe_change_held (enduring_open none lasting) (enduring_open none lastingClaim) beside (fun _ touches => touches.symm)
      (fun s open_ held => ?_) ⟨known.1.1, known.1.2, known.2⟩
    have isRow : (s.job job.jobId).row = some row := held.1
    have consistent := open_.1.jobs job.jobId
    have running := JobPart.running_of isRow held.2
    have token : row.fencingToken = (s.job job.jobId).claims.length := by
      rw [← consistent.counted, isRow]
      rfl
    have own : (JobWrite.claim job.jobId (row.claim claimId claimedUntil) (claimId, claimedUntil) : JobWrite D).lock = .job job.jobId := rfl
    obtain ⟨grows, good, framed⟩ := job_keeps none own lasting open_ running
      (by
        rw [job_claim]
        refine ⟨?_, fun other otherId otherUntil same isId isUntil => ?_, fun decided => ?_⟩
        · rw [List.length_append, ← token]
          rfl
        · cases same
          cases isId
          cases isUntil
          exact List.getLast?_concat
        · exact absurd decided (consistent.not_decided running))
      (fun other present => by
        rw [isRow] at present
        cases present
        rw [job_claim]
        exact ⟨_, rfl, rfl, rfl, rfl⟩)
      (by
        rw [job_claim]
        exact List.prefix_append _ _)
      (Or.inl ⟨by rw [job_claim], rfl⟩)
    refine ⟨grows, ⟨good, framed, ?_, ?_⟩, trivial⟩
    · change ((JobWrite.apply _ s).job job.jobId).claims[row.fencingToken]? = _
      rw [job_claim, token, List.getElem?_append_right (Nat.le_refl _), Nat.sub_self]
      rfl
    · change ∃ other, ((JobWrite.apply _ s).job job.jobId).row = some other ∧ _
      rw [job_claim]
      exact ⟨_, rfl, task.symm, payload.symm, maxAttempts.symm⟩
  refine Protocol.Safe.bind written kept (fun _ d _ after => ?_) fun _ _ _ _ => trivial
  exact safe_pure ((Amid.stays lasting beside).and (lasting_claimed _).enduring.stays)
    ⟨⟨after.1, after.2.1.1, after.2.1.2.1⟩, after.2.1.2.2⟩

/-- The jobs that were selected stand as they were read, each once. -/
theorem eligible_rows (now : Int) (tables : JobTables D) :
    let entries := (tables.rows.items.filter fun entry => entry.2.eligible now).insertionSort JobRow.Before
    (entries.map fun entry => JobLock.job entry.1).Nodup ∧ ∀ entry ∈ entries, Running entry (tables.job entry.1) := by
  intro entries
  have same : entries.Perm (tables.rows.items.filter fun entry => entry.2.eligible now) := List.perm_insertionSort _ _
  refine ⟨?_, fun entry member => ?_⟩
  · have chosen : ((tables.rows.items.filter fun entry => entry.2.eligible now).map Prod.fst).Nodup :=
      tables.rows.nodup.sublist (List.filter_sublist.map Prod.fst)
    have locks := chosen.map fun _ _ equal => JobLock.job.inj equal
    rw [List.map_map] at locks
    exact (same.map _).nodup_iff.mpr locks
  · obtain ⟨inside, able⟩ := List.mem_filter.mp (same.mem_iff.mp member)
    refine ⟨Dict.mem_items.mp inside, ?_⟩
    unfold JobRow.eligible at able
    simp only [Bool.and_eq_true, decide_eq_true_eq] at able
    exact able.1.1

theorem claim_establishes {now limit claimTtl : Int} {claimIds : Nat → Uuid} :
    Establishes (discipline D) i (fun claims tables => ∀ claim ∈ claims, Claimed claim tables)
      (JobStatements.claim i now limit claimTtl claimIds) := by
  intro frame lasting d kept known
  have trivially : ∀ {rows : JobLock → Prop}, Beside (discipline D) i rows fun _ => True :=
    ⟨Stays.const True, fun _ _ _ => trivial, fun _ _ _ _ => trivial⟩
  unfold JobStatements.claim
  split
  · exact Protocol.Safe.done fun _ _ _ => trivial
  have selected : (protocol (discipline D)).Safe i
      (Ends fun found d => True ∧ (Good none (d.view JobWrite.apply i) ∧ frame (d.view JobWrite.apply i)) ∧
        (found.map fun entry => JobLock.job entry.1).Nodup ∧
        HoldsAll (schema D) i (fun (entry : String × JobRow) (part : (schema D).Part (.job entry.1)) => Running entry part) found d)
      (Session.selectSkipLocked JobWrite.apply i
        (fun tables => (tables.rows.items.filter fun entry => entry.2.eligible now).insertionSort JobRow.Before)
        (fun entry => JobLock.job entry.1) limit.toNat : JobTask D _) d :=
    safe_selectSkipLocked (enduring_open none lasting) trivially (fun s _ => eligible_rows now s) ⟨trivial, known⟩
  refine Protocol.Safe.bind selected kept (fun rows d kept found => ?_) fun _ _ _ _ => trivial
  obtain ⟨-, open_, distinct, held⟩ := found
  have each : (protocol (discipline D)).Safe i
      (Ends fun claims d => True ∧ (Good none (d.view JobWrite.apply i) ∧ frame (d.view JobWrite.apply i)) ∧
        ∀ claim ∈ claims, Claimed claim (d.view JobWrite.apply i))
      (Session.each (JobStatements.claimJob i now claimTtl) (rows.mapIdx fun count entry => (entry, claimIds count))) d := by
    have named : (rows.mapIdx fun count entry => (entry, claimIds count)).map (fun entry => JobLock.job entry.1.1) =
        rows.map fun entry => JobLock.job entry.1 :=
      List.ext_getElem (by simp) fun _ _ _ => by simp
    refine safe_each_held (fun entry (part : (schema D).Part (.job entry.1.1)) => Running entry.1 part) Enduring.good lasting_claimed lasting
      (named ▸ distinct) trivially kept (fun entry _ _ _ d lasting beside kept known => ?_) ⟨trivial, open_, fun entry member => ?_⟩
    · exact safe_weaken (claimJob_safe lasting beside kept ⟨⟨known.1, known.2.1⟩, known.2.2⟩) fun _ _ known => ⟨known.1.1, known.1.2, known.2⟩
    · obtain ⟨count, inside, rfl⟩ := List.mem_mapIdx.mp member
      exact held rows[count] (List.getElem_mem inside)
  exact safe_weaken each fun _ _ known => ⟨⟨known.2.1.1, known.2.1.2⟩, known.2.2⟩

section Settling
variable {claim : JobClaim} {at_ clock : Int} {values : JobRow → JobRow} {fact : JobTables D → Prop}

/-- A row that a claim settles is still scheduled, and the claim is the last one of its job. -/
theorem settles_last {row : JobRow} (good : Good except tables) (found : (tables.job claim.job.jobId).row = some row)
    (settles : row.settles claim at_ clock = true) :
    row.state = .scheduled ∧ (tables.job claim.job.jobId).claims.getLast? = some (claim.claimId, claim.claimedUntil) ∧
      (tables.job claim.job.jobId).claims.length = claim.fencingToken := by
  have consistent := good.jobs claim.job.jobId
  unfold JobRow.settles at settles
  simp only [Bool.and_eq_true, decide_eq_true_eq] at settles
  obtain ⟨⟨⟨⟨claimId, token⟩, claimedUntil⟩, -⟩, scheduled⟩ := settles
  refine ⟨scheduled, consistent.claimed row _ _ found claimId claimedUntil, ?_⟩
  rw [← token, ← consistent.counted, found]
  rfl

/-- The update of `_settle` writes one row at most, whatever became of it since the claim. -/
theorem settle_safe {write : JobRow → JobWrite D} (lasting : Lasting (discipline D) frame) (lastingFact : Lasting (discipline D) fact)
    (beside : Beside (discipline D) i (· = .job claim.job.jobId) K) (kept : Kept (discipline D) d)
    (own : ∀ row, (write row).lock = .job claim.job.jobId)
    (changes : ∀ s row, Good except s ∧ frame s → (s.job claim.job.jobId).row = some row → row.settles claim at_ clock = true →
      let written := (write { values row with claimId := none, claimedUntil := none }).apply s
      JobPart.Grows (s.job claim.job.jobId) (written.job claim.job.jobId) ∧ (Good none written ∧ frame written) ∧ fact written)
    (now : Amid i K except frame d) :
    (protocol (discipline D)).Safe i
      (Ends fun settled d => Amid i K (if settled then none else except) frame d ∧ (settled = true → fact (d.view JobWrite.apply i)))
      (JobStatements.settle i claim at_ clock values write) d := by
  have selected : (protocol (discipline D)).Safe i (Ends fun _ => Amid i K except frame)
      (Session.selectForUpdate JobWrite.apply i (.job claim.job.jobId) (fun tables => tables.rows.get? claim.job.jobId) :
        JobTask D (Option JobRow)) d := by
    have found : (protocol (discipline D)).Safe i
        (Ends fun found d => K d ∧ (Good except (d.view JobWrite.apply i) ∧ frame (d.view JobWrite.apply i)) ∧
          ∀ row, found = some row → Holds (schema D) i (.job claim.job.jobId) (fun _ => True) d)
        (Session.selectForUpdate JobWrite.apply i (.job claim.job.jobId) (fun tables => tables.rows.get? claim.job.jobId) :
          JobTask D (Option JobRow)) d :=
      safe_select_beside (enduring_open except lasting) beside (fun _ _ _ _ => trivial) now
    exact safe_weaken found fun _ _ known => ⟨known.1, known.2.1⟩
  refine Protocol.Safe.bind selected kept (fun _ d _ known => ?_) fun _ _ _ _ => trivial
  have lastingAfter : ∀ settled : Bool, Lasting (discipline D) fun tables => frame tables ∧ (settled = true → fact tables) :=
    fun _ => lasting.and (Lasting.forall fun _ => lastingFact)
  have written : (protocol (discipline D)).Safe i
      (Ends fun settled d => K d ∧ (Good (if settled then none else except) (d.view JobWrite.apply i) ∧
          frame (d.view JobWrite.apply i) ∧ (settled = true → fact (d.view JobWrite.apply i))) ∧
        (settled = true → Holds (schema D) i (.job claim.job.jobId) (fun _ => True) d))
      (Session.writeWhere JobWrite.apply i (.job claim.job.jobId) fun tables =>
        ((tables.rows.get? claim.job.jobId).filter (·.settles claim at_ clock)).map fun row =>
          write { values row with claimId := none, claimedUntil := none } : JobTask D Bool) d := by
    refine safe_write_beside (enduring_open except lasting) (fun settled => enduring_open _ (lastingAfter settled)) beside
      (fun s open_ _ => ⟨open_.1, open_.2, fun impossible => by cases impossible⟩) (fun s w open_ found => ?_) known
    obtain ⟨row, chosen, rfl⟩ := Option.map_eq_some_iff.mp found
    obtain ⟨isRow, settles⟩ := Option.filter_eq_some_iff.mp chosen
    obtain ⟨grows, after, established⟩ := changes s row open_ isRow settles
    exact ⟨fun _ touches => touches.symm.trans (own _), grows, ⟨after.1, after.2, fun _ => established⟩, trivial⟩
  exact safe_weaken written fun _ _ known => ⟨⟨known.1, known.2.1.1, known.2.1.2.1⟩, known.2.1.2.2⟩

/-- What a failed or repeated job is written with. -/
theorem settle_keeps (lasting : Lasting (discipline D) frame) {row : JobRow} (open_ : Good none tables ∧ frame tables)
    (found : (tables.job claim.job.jobId).row = some row) (settles : row.settles claim at_ clock = true)
    (about : (values row).task = row.task ∧ (values row).payload = row.payload ∧ (values row).maxAttempts = row.maxAttempts ∧
      (values row).fencingToken = row.fencingToken) :
    let written := (JobWrite.settle claim.job.jobId { values row with claimId := none, claimedUntil := none } : JobWrite D).apply tables
    JobPart.Grows (tables.job claim.job.jobId) (written.job claim.job.jobId) ∧ (Good none written ∧ frame written) ∧
      (written.job claim.job.jobId).row = some { values row with claimId := none, claimedUntil := none } ∧
      (written.job claim.job.jobId).claims = (tables.job claim.job.jobId).claims := by
  intro written
  obtain ⟨scheduled, last, numbered⟩ := settles_last open_.1 found settles
  have consistent := open_.1.jobs claim.job.jobId
  have running := JobPart.running_of found scheduled
  have own : (JobWrite.settle claim.job.jobId { values row with claimId := none, claimedUntil := none } : JobWrite D).lock =
      .job claim.job.jobId := rfl
  obtain ⟨grows, good, framed⟩ := job_keeps none own lasting open_ running
    (by
      rw [job_settle]
      refine ⟨?_, fun other otherId _ same isId => ?_, fun decided => ?_⟩
      · rw [← consistent.counted, found]
        exact about.2.2.2
      · cases same
        cases isId
      · exact absurd decided (consistent.not_decided running))
    (fun other present => by
      rw [found] at present
      cases present
      rw [job_settle]
      exact ⟨_, rfl, about.1, about.2.1, about.2.2.1⟩)
    (by
      rw [job_settle])
    (Or.inl ⟨by rw [job_settle], rfl⟩)
  have part : written.job claim.job.jobId = _ := job_settle _
  exact ⟨grows, ⟨good, framed⟩, by rw [part], by rw [part]⟩

/-- The row of a job that succeeds with a decision that was saved for it. -/
theorem succeed_keeps {index : Nat} {decision : D} (lasting : Lasting (discipline D) frame) (row : JobRow)
    (open_ : Good (some (i, index)) tables ∧ frame tables ∧ (tables.savedIn i)[index]? = some ⟨claim.job.jobId, decision⟩)
    (found : (tables.job claim.job.jobId).row = some row) (settles : row.settles claim at_ clock = true) :
    let written := (JobWrite.succeed claim.job.jobId { row with state := .succeeded, terminal := true, claimId := none, claimedUntil := none }
      (i, index) : JobWrite D).apply tables
    JobPart.Grows (tables.job claim.job.jobId) (written.job claim.job.jobId) ∧
      (Good none written ∧ frame written ∧ (written.savedIn i)[index]? = some ⟨claim.job.jobId, decision⟩) ∧
      Succeeded claim decision written := by
  intro written
  obtain ⟨scheduled, last, numbered⟩ := settles_last open_.1 found settles
  have consistent := open_.1.jobs claim.job.jobId
  have running := JobPart.running_of found scheduled
  have own : (JobWrite.succeed claim.job.jobId { row with state := .succeeded, terminal := true, claimId := none, claimedUntil := none }
      (i, index) : JobWrite D).lock = .job claim.job.jobId := rfl
  have waiting : (written.savedIn i)[index]? = some ⟨claim.job.jobId, decision⟩ := by
    change ((JobWrite.apply _ tables).savedIn i)[index]? = _
    rw [saved_other (by rw [own]; simp)]
    exact open_.2.2
  obtain ⟨grows, good, framed⟩ := job_keeps none own lasting ⟨open_.1, open_.2.1⟩ running
    (by
      rw [job_succeed]
      refine ⟨?_, fun other otherId _ same isId => ?_, fun _ => ⟨_, rfl, rfl⟩⟩
      · rw [← consistent.counted, found]
        rfl
      · cases same
        cases isId)
    (fun other present => by
      rw [found] at present
      cases present
      rw [job_succeed]
      exact ⟨_, rfl, rfl, rfl, rfl⟩)
    (by
      rw [job_succeed])
    (Or.inr ⟨rfl, (i, index), rfl, by rw [job_succeed], _, open_.2.2, rfl⟩)
  have part : written.job claim.job.jobId = _ := job_succeed _ _
  refine ⟨grows, ⟨good, framed, waiting⟩, ⟨⟨_, congrArg JobPart.row part, rfl, fun _ impossible => by cases impossible⟩, ?_, ?_⟩,
    i, index, congrArg JobPart.succeeded part, waiting⟩
  · rw [part]
    exact last
  · rw [part]
    exact numbered

theorem lasting_waiting (session index : Nat) (saved : SavedDecision D) :
    Lasting (discipline D) fun tables => (tables.savedIn session)[index]? = some saved := by
  intro s t grown found
  have longer : s.savedIn session <+: t.savedIn session := grown (.saved session)
  exact found_longer longer found

theorem saveDecision_safe {saved : SavedDecision D} (lasting : Lasting (discipline D) frame)
    (beside : Beside (discipline D) i (· = .saved i) K) (now : Amid i K none frame d) :
    (protocol (discipline D)).Safe i
      (Ends fun index => Amid i K (some (i, index)) fun tables => frame tables ∧ (tables.savedIn i)[index]? = some saved)
      (JobStatements.saveDecision i saved) d := by
  refine safe_acquire (Amid.stays lasting beside) (fun index => Amid.stays (lasting.and (lasting_waiting i index saved)) beside)
    (fun _ _ _ impossible => by cases impossible) (fun d w _ known found => ?_) now
  cases found
  have touched : ∀ other, (schema D).touches (.saveDecision i saved) other → other = .saved i := fun _ touches => touches.symm
  have longer : (d.view JobWrite.apply i).savedIn i <+: (JobWrite.apply (.saveDecision i saved) (d.view JobWrite.apply i)).savedIn i := by
    rw [savedIn_saveDecision]
    exact List.prefix_append _ _
  have grown : Grown (discipline D) (d.view JobWrite.apply i) ((schema D).write (.saveDecision i saved) (d.view JobWrite.apply i)) :=
    grown_of_grows touched longer
  have position : ((JobWrite.apply (.saveDecision i saved) (d.view JobWrite.apply i)).savedIn i).length - 1 =
      ((d.view JobWrite.apply i).savedIn i).length := by
    rw [savedIn_saveDecision, List.length_append]
    rfl
  refine ⟨touched, grown, beside.write _ _ touched (beside.lock d _ known.1), ?_⟩
  have seen : ((d.lock i (.saved i)).write i (.saveDecision i saved)).view JobWrite.apply i =
      JobWrite.apply (.saveDecision i saved) (d.view JobWrite.apply i) := by
    change Database.view (schema D).write _ i = _
    rw [view_write, view_lock]
    rfl
  change Good (some (i, ((JobWrite.apply (.saveDecision i saved) (d.view JobWrite.apply i)).savedIn i).length - 1)) _ ∧ frame _ ∧
    (JobTables.savedIn _ i)[((JobWrite.apply (.saveDecision i saved) (d.view JobWrite.apply i)).savedIn i).length - 1]? = _
  rw [seen, position]
  refine ⟨known.2.1.of_saved, lasting _ _ grown known.2.2, ?_⟩
  rw [savedIn_saveDecision, List.getElem?_append_right (Nat.le_refl _), Nat.sub_self]
  rfl

theorem succeed_establishes {decision : D} :
    Establishes (discipline D) i (fun result tables => result = .succeeded → Succeeded claim decision tables)
      (JobStatements.succeed i claim decision at_ clock) := by
  intro frame lasting d kept known
  have enduring := enduring_open none lasting
  have lastingResult : ∀ result : JobTransition, Lasting (discipline D) fun tables => result = .succeeded → Succeeded claim decision tables :=
    fun result => Lasting.forall fun _ => lasting_succeeded claim decision
  have answer : ∀ {result : JobTransition} {d : Database (JobTables D) (JobWrite D) JobLock}, Knows (discipline D) i frame d →
      (result = .succeeded → Succeeded claim decision (d.view JobWrite.apply i)) → (protocol (discipline D)).Safe i
        (Ends fun result d => Knows (discipline D) i frame d ∧ (result = .succeeded → Succeeded claim decision (d.view JobWrite.apply i)))
        (pure result : JobTask D JobTransition) d :=
    fun knows succeeded => safe_pure ((Knows.stays lasting).and (lastingResult _).enduring.stays) ⟨knows, succeeded⟩
  refine safe_nested kept enduring known (fun mark d kept marked open_ => ?_)
  refine Protocol.Safe.bind (saveDecision_safe lasting (enduring.beside_marked mark) ⟨marked, open_⟩) kept
    (fun index d kept known => ?_) fun _ _ _ _ => trivial
  refine Protocol.Safe.bind (settle_safe (lasting.and (lasting_waiting i index _)) (lasting_succeeded claim decision)
    (enduring.beside_marked mark) kept (fun _ => rfl) (fun s row open_ found settles => succeed_keeps lasting row open_ found settles) known)
    kept (fun settled d kept known => ?_) fun _ _ _ _ => trivial
  cases settled with
  | true => exact answer ⟨known.1.2.1, known.1.2.2.1⟩ fun _ => known.2 rfl
  | false =>
    refine Protocol.Safe.bind (safe_rollback mark (enduring.stays_marked mark) (Knows.stays lasting) (fun _ _ marked => marked.keep) known.1.1)
      kept (fun _ e _ knows => ?_) fun _ _ _ _ => trivial
    exact answer knows fun impossible => by cases impossible

theorem lasting_settled (claim : JobClaim) (result : JobTransition) : Lasting (discipline D) (Settled claim result) := by
  cases result with
  | succeeded => exact fun _ _ _ impossible => impossible
  | retried runAt =>
    intro s t grown given
    exact found_longer (JobPart.Grows.claims (grown (.job claim.job.jobId))) given
  | terminated reason => exact lasting_ended claim (some reason) (by simp)
  | stale => exact Lasting.true

/-- A call that writes a row by `_settle` and answers so. -/
theorem settle_establishes {result : JobTransition} (about : ∀ row, (values row).task = row.task ∧ (values row).payload = row.payload ∧
      (values row).maxAttempts = row.maxAttempts ∧ (values row).fencingToken = row.fencingToken)
    (written : (∃ runAt, result = .retried runAt) ∨
      ∃ reason, result = .terminated reason ∧ ∀ row, (values row).state = .terminal ∧ (values row).failureReason = some reason) :
    Establishes (discipline D) i (Settled claim)
      (do let settled ← JobStatements.settle i claim at_ clock values (.settle claim.job.jobId)
          return if settled then result else .stale) := by
  intro frame lasting d kept known
  have trivially : Beside (discipline D) i (· = .job claim.job.jobId) fun _ => True :=
    ⟨Stays.const True, fun _ _ _ => trivial, fun _ _ _ _ => trivial⟩
  refine Protocol.Safe.bind (settle_safe lasting (lasting_settled claim result) trivially kept (fun _ => rfl) (fun s row open_ found settles => ?_)
    ⟨trivial, known⟩) kept (fun settled d _ known => ?_) fun _ _ _ _ => trivial
  · obtain ⟨-, last, numbered⟩ := settles_last open_.1 found settles
    obtain ⟨grows, after, isRow, claims⟩ := settle_keeps lasting open_ found settles (about row)
    refine ⟨grows, after, ?_⟩
    rcases written with ⟨runAt, rfl⟩ | ⟨reason, rfl, ends⟩
    · change (JobTables.job _ claim.job.jobId).claims[claim.fencingToken - 1]? = _
      rw [claims, ← numbered, ← List.getLast?_eq_getElem?]
      exact last
    · refine ⟨⟨_, isRow, (ends row).1, fun _ _ => (ends row).2⟩, ?_, ?_⟩
      · rw [claims]
        exact last
      · rw [claims]
        exact numbered
  · have stays : ∀ answer, Stays (discipline D) i fun d => Knows (discipline D) i frame d ∧ Settled claim answer (d.view JobWrite.apply i) :=
      fun answer => (Knows.stays lasting).and (lasting_settled claim answer).enduring.stays
    cases settled with
    | true => exact safe_pure (stays _) ⟨⟨known.1.2.1, known.1.2.2⟩, known.2 rfl⟩
    | false => exact safe_pure (stays _) ⟨⟨known.1.2.1, known.1.2.2⟩, trivial⟩

theorem terminate_establishes {reason : String} :
    Establishes (discipline D) i (Settled claim) (JobStatements.terminate i claim reason at_ clock) := by
  unfold JobStatements.terminate
  split
  · exact fun _ _ _ _ _ => Protocol.Safe.done fun _ _ _ => trivial
  · rename_i text _
    exact settle_establishes (fun _ => ⟨rfl, rfl, rfl, rfl⟩) (Or.inr ⟨text, rfl, fun _ => ⟨rfl, rfl⟩⟩)

theorem retry_establishes {reason : String} {runAt : Int} :
    Establishes (discipline D) i (Settled claim) (JobStatements.retry i claim reason runAt at_ clock) := by
  unfold JobStatements.retry
  split
  · exact fun _ _ _ _ _ => Protocol.Safe.done fun _ _ _ => trivial
  rename_i text _
  dsimp only
  by_cases terminal : claim.job.maxAttempts ≤ claim.job.attempt + 1
  · simp only [terminal, decide_true, if_true]
    exact settle_establishes (fun _ => ⟨rfl, rfl, rfl, rfl⟩) (Or.inr ⟨text, rfl, fun _ => ⟨rfl, rfl⟩⟩)
  · simp only [terminal, decide_false, Bool.false_eq_true, if_false]
    exact settle_establishes (fun _ => ⟨rfl, rfl, rfl, rfl⟩) (Or.inl ⟨runAt, rfl⟩)

end Settling

end JobTables

end Pytitect
