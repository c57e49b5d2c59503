import Mathlib.Data.List.Infix
import Pytitect.Jobs.Table
import Pytitect.Lib.RowRules

namespace Pytitect

/-- What transactions lock: the row of a job, or what session `session` has saved itself. -/
inductive JobLock
  | job (jobId : String)
  | saved (session : Nat)
  deriving DecidableEq

/-- A decision that was given to `save_decision`, and the job that it was for. -/
structure SavedDecision (D : Type) where
  jobId : String
  decision : D

/-- The table of jobs, and what each session has given to `save_decision`. `claims` and `succeeded`
are no tables. They remember who has claimed a job, and which decision it has succeeded with. -/
structure JobTables (D : Type) where
  rows : Dict String JobRow
  saved : Dict Nat (List (SavedDecision D))
  claims : Dict String (List (Uuid × Int))
  succeeded : Dict String (Nat × Nat)

/-- What the statements write. -/
inductive JobWrite (D : Type)
  | schedule (jobId : String) (row : JobRow)
  | claim (jobId : String) (row : JobRow) (claim : Uuid × Int)
  | settle (jobId : String) (row : JobRow)
  | succeed (jobId : String) (row : JobRow) (place : Nat × Nat)
  | saveDecision (session : Nat) (saved : SavedDecision D)

namespace JobWrite
variable {D : Type}

/-- What has to be locked for the write. -/
def lock : JobWrite D → JobLock
  | .schedule jobId _ => .job jobId
  | .claim jobId _ _ => .job jobId
  | .settle jobId _ => .job jobId
  | .succeed jobId _ _ => .job jobId
  | .saveDecision session _ => .saved session

def apply : JobWrite D → JobTables D → JobTables D
  | .schedule jobId row, tables => { tables with rows := tables.rows.set jobId row }
  | .claim jobId row claimed, tables =>
    { tables with rows := tables.rows.set jobId row, claims := tables.claims.set jobId ((tables.claims.get? jobId).getD [] ++ [claimed]) }
  | .settle jobId row, tables => { tables with rows := tables.rows.set jobId row }
  | .succeed jobId row place, tables =>
    { tables with rows := tables.rows.set jobId row, succeeded := tables.succeeded.set jobId place }
  | .saveDecision session saved, tables =>
    { tables with saved := tables.saved.set session ((tables.saved.get? session).getD [] ++ [saved]) }

end JobWrite

/-- What belongs to a job. -/
@[ext] structure JobPart where
  row : Option JobRow
  claims : List (Uuid × Int)
  succeeded : Option (Nat × Nat)

namespace JobTables
variable {D : Type} {tables others : JobTables D} {jobId : String} {session : Nat}

def job (tables : JobTables D) (jobId : String) : JobPart :=
  ⟨tables.rows.get? jobId, (tables.claims.get? jobId).getD [], tables.succeeded.get? jobId⟩

def savedIn (tables : JobTables D) (session : Nat) : List (SavedDecision D) := (tables.saved.get? session).getD []

def Part (D : Type) : JobLock → Type
  | .job _ => JobPart
  | .saved _ => List (SavedDecision D)

/-- What a lock guards. -/
def part (tables : JobTables D) : (row : JobLock) → Part D row
  | .job jobId => tables.job jobId
  | .saved session => tables.savedIn session

@[simp] theorem job_schedule (row : JobRow) :
    (JobWrite.apply (.schedule jobId row) tables).job jobId = { tables.job jobId with row := some row } := by
  simp [JobWrite.apply, job]

@[simp] theorem job_claim (row : JobRow) (claim : Uuid × Int) :
    (JobWrite.apply (.claim jobId row claim) tables).job jobId =
      { tables.job jobId with row := some row, claims := (tables.job jobId).claims ++ [claim] } := by
  simp [JobWrite.apply, job]

@[simp] theorem job_settle (row : JobRow) :
    (JobWrite.apply (.settle jobId row) tables).job jobId = { tables.job jobId with row := some row } := by
  simp [JobWrite.apply, job]

@[simp] theorem job_succeed (row : JobRow) (place : Nat × Nat) :
    (JobWrite.apply (.succeed jobId row place) tables).job jobId =
      { tables.job jobId with row := some row, succeeded := some place } := by
  simp [JobWrite.apply, job]

@[simp] theorem savedIn_saveDecision (saved : SavedDecision D) :
    (JobWrite.apply (.saveDecision session saved) tables).savedIn session = tables.savedIn session ++ [saved] := by
  simp [JobWrite.apply, savedIn]

theorem part_untouched {write : JobWrite D} {row : JobLock} (other : write.lock ≠ row) (tables : JobTables D) :
    (write.apply tables).part row = tables.part row := by
  cases row with
  | job jobId =>
    have away : ∀ {name : String}, JobLock.job name ≠ .job jobId → jobId ≠ name := fun distinct same => distinct (by rw [same])
    change (write.apply tables).job jobId = tables.job jobId
    cases write with
    | schedule name row => simp [JobWrite.apply, job, Dict.get?_set, away other]
    | claim name row claim => simp [JobWrite.apply, job, Dict.get?_set, away other]
    | settle name row => simp [JobWrite.apply, job, Dict.get?_set, away other]
    | succeed name row place => simp [JobWrite.apply, job, Dict.get?_set, away other]
    | saveDecision _ _ => rfl
  | saved session =>
    have away : ∀ {name : Nat}, JobLock.saved name ≠ .saved session → session ≠ name := fun distinct same => distinct (by rw [same])
    change (write.apply tables).savedIn session = tables.savedIn session
    cases write with
    | saveDecision name saved => simp [JobWrite.apply, savedIn, Dict.get?_set, away other]
    | schedule _ _ => rfl
    | claim _ _ _ => rfl
    | settle _ _ => rfl
    | succeed _ _ _ => rfl

/-- What a write makes of the part it is for. -/
theorem part_own {write : JobWrite D} (same : tables.part write.lock = others.part write.lock) :
    (write.apply tables).part write.lock = (write.apply others).part write.lock := by
  cases write with
  | schedule jobId row =>
    change tables.job jobId = others.job jobId at same
    change JobTables.job _ jobId = JobTables.job _ jobId
    rw [job_schedule, job_schedule, same]
  | claim jobId row claim =>
    change tables.job jobId = others.job jobId at same
    change JobTables.job _ jobId = JobTables.job _ jobId
    rw [job_claim, job_claim, same]
  | settle jobId row =>
    change tables.job jobId = others.job jobId at same
    change JobTables.job _ jobId = JobTables.job _ jobId
    rw [job_settle, job_settle, same]
  | succeed jobId row place =>
    change tables.job jobId = others.job jobId at same
    change JobTables.job _ jobId = JobTables.job _ jobId
    rw [job_succeed, job_succeed, same]
  | saveDecision session saved =>
    change tables.savedIn session = others.savedIn session at same
    change JobTables.savedIn _ session = JobTables.savedIn _ session
    rw [savedIn_saveDecision, savedIn_saveDecision, same]

def schema (D : Type) : Schema (JobTables D) (JobWrite D) JobLock where
  Part := Part D
  part := fun row tables => tables.part row
  write := JobWrite.apply
  touches := fun write row => write.lock = row
  untouched := fun other tables => part_untouched other tables
  confined := by
    intro write row tables others same
    by_cases mine : write.lock = row
    · subst mine
      exact part_own same
    · rw [part_untouched mine, part_untouched mine, same]

end JobTables

namespace JobPart
variable {part : JobPart}

/-- The token of a job counts its claims, and a claim in force is the last one. A decision is saved
for a job that has succeeded. -/
structure Consistent (part : JobPart) : Prop where
  counted : (part.row.map (·.fencingToken)).getD 0 = part.claims.length
  claimed : ∀ row claimId claimedUntil, part.row = some row → row.claimId = some claimId → row.claimedUntil = some claimedUntil →
    part.claims.getLast? = some (claimId, claimedUntil)
  succeeded : part.succeeded.isSome → ∃ row, part.row = some row ∧ row.state = .succeeded

/-- A job keeps what it is about and its claims. One that is no longer scheduled does not change. -/
structure Grows (before after : JobPart) : Prop where
  row : ∀ row, before.row = some row → ∃ later, after.row = some later ∧ later.task = row.task ∧ later.payload = row.payload ∧
    later.maxAttempts = row.maxAttempts
  claims : before.claims <+: after.claims
  succeeded : ∀ place, before.succeeded = some place → after.succeeded = some place
  ended : ∀ row, before.row = some row → row.state ≠ .scheduled → after = before

theorem Grows.refl : Grows part part :=
  ⟨fun row found => ⟨row, found, rfl, rfl, rfl⟩, List.prefix_refl _, fun _ found => found, fun _ _ _ => rfl⟩

theorem Grows.trans {first second third : JobPart} (one : Grows first second) (two : Grows second third) : Grows first third where
  row := by
    intro row found
    obtain ⟨middle, foundMiddle, task, payload, maxAttempts⟩ := one.row row found
    obtain ⟨last, foundLast, taskLast, payloadLast, maxAttemptsLast⟩ := two.row middle foundMiddle
    exact ⟨last, foundLast, taskLast.trans task, payloadLast.trans payload, maxAttemptsLast.trans maxAttempts⟩
  claims := one.claims.trans two.claims
  succeeded := fun place found => two.succeeded place (one.succeeded place found)
  ended := by
    intro row found ended
    have same := one.ended row found ended
    have later := two.ended row (same ▸ found) ended
    exact later.trans same

/-- A job that is scheduled or unknown has succeeded with no decision. -/
theorem Consistent.undecided (consistent : part.Consistent) (running : ∀ row, part.row = some row → row.state = .scheduled) :
    part.succeeded = none := by
  by_contra other
  obtain ⟨row, found, succeeded⟩ := consistent.succeeded (Option.isSome_iff_ne_none.mpr other)
  rw [running row found] at succeeded
  cases succeeded

theorem Consistent.not_decided (consistent : part.Consistent) (running : ∀ row, part.row = some row → row.state = .scheduled) :
    ¬part.succeeded.isSome := by
  rw [consistent.undecided running]
  exact Bool.false_ne_true

theorem running_of {row : JobRow} (found : part.row = some row) (scheduled : row.state = .scheduled) :
    ∀ other, part.row = some other → other.state = .scheduled := by
  intro other present
  rw [found] at present
  cases present
  exact scheduled

end JobPart

namespace JobTables
open RowLocks
variable {D : Type} {except later : Option (Nat × Nat)} {s t u tables : JobTables D} {write : JobWrite D} {jobId : String} {session : Nat}

def Grows : (row : JobLock) → Part D row → Part D row → Prop
  | .job _ => JobPart.Grows
  | .saved _ => fun before after => (before : List (SavedDecision D)) <+: after

theorem Grows.refl : ∀ {row : JobLock} {part : Part D row}, Grows row part part
  | .job _, _ => JobPart.Grows.refl
  | .saved _, _ => List.prefix_refl _

theorem Grows.trans : ∀ {row : JobLock} {first second third : Part D row},
    Grows row first second → Grows row second third → Grows row first third
  | .job _, _, _, _, one, two => JobPart.Grows.trans one two
  | .saved _, _, _, _, one, two => List.IsPrefix.trans one two

/-- All jobs are consistent, and the saved decisions are those that jobs have succeeded with, one for
each of these jobs. A session may be in the middle of one whose job has not succeeded yet. -/
structure Good (except : Option (Nat × Nat)) (tables : JobTables D) : Prop where
  jobs : ∀ jobId, (tables.job jobId).Consistent
  saved : ∀ session index saved, (tables.savedIn session)[index]? = some saved → except ≠ some (session, index) →
    (tables.job saved.jobId).succeeded = some (session, index)
  placed : ∀ jobId session index, (tables.job jobId).succeeded = some (session, index) →
    ∃ saved, (tables.savedIn session)[index]? = some saved ∧ saved.jobId = jobId

theorem furthest_job (furthest : (schema D).Furthest Grows s t u) (jobId : String) :
    JobPart.Grows (s.job jobId) (u.job jobId) ∧ JobPart.Grows (t.job jobId) (u.job jobId) := by
  rcases furthest (.job jobId) with ⟨same, grown⟩ | ⟨same, grown⟩
  · change u.job jobId = s.job jobId at same
    exact ⟨same ▸ JobPart.Grows.refl, grown⟩
  · change u.job jobId = t.job jobId at same
    exact ⟨grown, same ▸ JobPart.Grows.refl⟩

theorem furthest_saved (furthest : (schema D).Furthest Grows s t u) (session : Nat) :
    s.savedIn session <+: u.savedIn session ∧ t.savedIn session <+: u.savedIn session := by
  rcases furthest (.saved session) with ⟨same, grown⟩ | ⟨same, grown⟩
  · change u.savedIn session = s.savedIn session at same
    exact ⟨same ▸ List.prefix_refl _, grown⟩
  · change u.savedIn session = t.savedIn session at same
    exact ⟨grown, same ▸ List.prefix_refl _⟩

theorem Good.merge (first : Good except s) (second : Good none t) (furthest : (schema D).Furthest Grows s t u) : Good except u := by
  refine ⟨fun jobId => ?_, fun session index saved found settled => ?_, fun jobId session index found => ?_⟩
  · rcases furthest (.job jobId) with ⟨same, -⟩ | ⟨same, -⟩
    · change u.job jobId = s.job jobId at same
      rw [same]
      exact first.jobs jobId
    · change u.job jobId = t.job jobId at same
      rw [same]
      exact second.jobs jobId
  · rcases furthest (.saved session) with ⟨same, -⟩ | ⟨same, -⟩
    · change u.savedIn session = s.savedIn session at same
      rw [same] at found
      exact (furthest_job furthest saved.jobId).1.succeeded _ (first.saved session index saved found settled)
    · change u.savedIn session = t.savedIn session at same
      rw [same] at found
      exact (furthest_job furthest saved.jobId).2.succeeded _ (second.saved session index saved found (by simp))
  · rcases furthest (.job jobId) with ⟨same, -⟩ | ⟨same, -⟩
    · change u.job jobId = s.job jobId at same
      rw [same] at found
      obtain ⟨saved, member, isFor⟩ := first.placed jobId session index found
      exact ⟨saved, found_longer (furthest_saved furthest session).1 member, isFor⟩
    · change u.job jobId = t.job jobId at same
      rw [same] at found
      obtain ⟨saved, member, isFor⟩ := second.placed jobId session index found
      exact ⟨saved, found_longer (furthest_saved furthest session).2 member, isFor⟩

def discipline (D : Type) : Discipline (schema D) where
  grows := Grows
  refl := Grows.refl
  trans := Grows.trans
  good := Good none
  merge := Good.merge

theorem job_other {name : String} (other : write.lock ≠ .job name) : (write.apply tables).job name = tables.job name :=
  part_untouched other tables

theorem saved_other {name : Nat} (other : write.lock ≠ .saved name) : (write.apply tables).savedIn name = tables.savedIn name :=
  part_untouched other tables

/-- A write to a job. Where it succeeds, it does so with a decision that was waiting for it. -/
theorem Good.of_job (good : Good except tables) (own : write.lock = .job jobId) (consistent : ((write.apply tables).job jobId).Consistent)
    (decided : ((write.apply tables).job jobId).succeeded = (tables.job jobId).succeeded ∧ later = except ∨
      (tables.job jobId).succeeded = none ∧ later = none ∧ ∃ place, except = some place ∧
        ((write.apply tables).job jobId).succeeded = some place ∧
        ∃ saved, (tables.savedIn place.1)[place.2]? = some saved ∧ saved.jobId = jobId) : Good later (write.apply tables) := by
  have kept : ∀ name, (write.apply tables).savedIn name = tables.savedIn name := fun name => saved_other (by rw [own]; simp)
  have others : ∀ name, name ≠ jobId → (write.apply tables).job name = tables.job name :=
    fun name other => job_other (by rw [own]; simpa using Ne.symm other)
  refine ⟨fun name => ?_, fun name index saved found settled => ?_, fun name session index found => ?_⟩
  · by_cases mine : name = jobId
    · subst mine
      exact consistent
    · rw [others name mine]
      exact good.jobs name
  · rw [kept] at found
    by_cases mine : saved.jobId = jobId
    · rcases decided with ⟨same, rfl⟩ | ⟨undecided, rfl, place, rfl, succeeded, -⟩
      · rw [mine, same, ← mine]
        exact good.saved name index saved found settled
      · by_cases waiting : place = (name, index)
        · rw [mine, succeeded, waiting]
        · have before := good.saved name index saved found fun same => waiting (Option.some.inj same)
          rw [mine, undecided] at before
          cases before
    · rw [others _ mine]
      rcases decided with ⟨-, rfl⟩ | ⟨-, rfl, place, rfl, -, waitingFor, isWaiting, isFor⟩
      · exact good.saved name index saved found settled
      · refine good.saved name index saved found fun same => mine ?_
        cases same
        rw [found] at isWaiting
        cases isWaiting
        exact isFor
  · rw [kept]
    by_cases mine : name = jobId
    · subst mine
      rcases decided with ⟨same, -⟩ | ⟨-, -, place, -, succeeded, waiting⟩
      · rw [same] at found
        exact good.placed name session index found
      · rw [succeeded] at found
        cases found
        exact waiting
    · rw [others name mine] at found
      exact good.placed name session index found

/-- A decision is saved that its job has yet to succeed with. -/
theorem Good.of_saved {saved : SavedDecision D} (good : Good none tables) :
    Good (some (session, (tables.savedIn session).length)) (JobWrite.apply (.saveDecision session saved) tables) := by
  have jobs : ∀ name, (JobWrite.apply (.saveDecision session saved) tables).job name = tables.job name :=
    fun name => job_other (by simp [JobWrite.lock])
  refine ⟨fun name => jobs name ▸ good.jobs name, fun name index other found settled => ?_, fun name place index found => ?_⟩
  · rw [jobs]
    by_cases mine : name = session
    · subst mine
      rw [savedIn_saveDecision] at found
      rcases Nat.lt_or_ge index (tables.savedIn name).length with inside | outside
      · rw [List.getElem?_append_left inside] at found
        exact good.saved name index other found (by simp)
      · have position : index = (tables.savedIn name).length := by
          have bound := (List.getElem?_eq_some_iff.mp found).1
          rw [List.length_append, List.length_singleton] at bound
          omega
        exact absurd (by rw [position]) settled
    · have elsewhere : (JobWrite.saveDecision session saved).lock ≠ .saved name := by simpa [JobWrite.lock] using Ne.symm mine
      rw [saved_other elsewhere] at found
      exact good.saved name index other found (by simp)
  · obtain ⟨other, member, isFor⟩ := good.placed name place index found
    refine ⟨other, ?_, isFor⟩
    by_cases mine : place = session
    · subst mine
      rw [savedIn_saveDecision]
      exact found_longer (List.prefix_append _ _) member
    · have elsewhere : (JobWrite.saveDecision session saved).lock ≠ .saved place := by simpa [JobWrite.lock] using Ne.symm mine
      rw [saved_other elsewhere]
      exact member

end JobTables

end Pytitect
