import Pytitect.SqlAlchemy.Jobs

namespace Pytitect.JobTables
open RowLocks
variable {D : Type} {i : Nat}

/-- A call of the job store in a transaction. -/
inductive Call (D : Type)
  | get (jobId : String)
  | schedule (job : Job)
  | claim (now limit claimTtl : Int) (claimIds : Nat → Uuid)
  | succeed (claim : JobClaim) (decision : D) (at_ clock : Int)
  | retry (claim : JobClaim) (reason : String) (runAt at_ clock : Int)
  | terminate (claim : JobClaim) (reason : String) (at_ clock : Int)

/-- What a call has answered, with the arguments that the answer is about. -/
inductive Answer (D : Type)
  | found (jobId : String) (job : Option Job)
  | scheduled (job : Job) (result : JobScheduleResult)
  | claimed (claims : List JobClaim)
  | succeeded (claim : JobClaim) (decision : D) (result : JobTransition)
  | settled (claim : JobClaim) (result : JobTransition)

def Call.task (i : Nat) : Call D → JobTask D (Answer D)
  | .get jobId => .found jobId <$> JobStatements.get i jobId
  | .schedule job => .scheduled job <$> JobStatements.schedule i job
  | .claim now limit claimTtl claimIds => .claimed <$> JobStatements.claim i now limit claimTtl claimIds
  | .succeed held decision at_ clock => .succeeded held decision <$> JobStatements.succeed i held decision at_ clock
  | .retry held reason runAt at_ clock => .settled held <$> JobStatements.retry i held reason runAt at_ clock
  | .terminate held reason at_ clock => .settled held <$> JobStatements.terminate i held reason at_ clock

/-- The answer is true of the tables. -/
def Told (tables : JobTables D) : Answer D → Prop
  | .found jobId job => Shown jobId job tables
  | .scheduled job result => Scheduled job result tables
  | .claimed claims => ∀ claim ∈ claims, Claimed claim tables
  | .succeeded claim decision result => result = .succeeded → Succeeded claim decision tables
  | .settled claim result => Settled claim result tables

theorem lasting_told (answer : Answer D) : Lasting (discipline D) fun tables => Told tables answer := by
  cases answer with
  | found jobId job => exact lasting_shown jobId job
  | scheduled job result => exact lasting_scheduled job result
  | claimed claims => exact Lasting.forall fun claim => Lasting.forall fun _ => lasting_claimed claim
  | succeeded claim decision result => exact Lasting.forall fun _ => lasting_succeeded claim decision
  | settled claim result => exact lasting_settled claim result

theorem call_establishes (call : Call D) : Establishes (discipline D) i (fun answer tables => Told tables answer) (call.task i) := by
  cases call with
  | get jobId => exact get_establishes.map (fun _ => lasting_told _) fun _ _ holds => holds
  | schedule job => exact schedule_establishes.map (fun _ => lasting_told _) fun _ _ holds => holds
  | claim now limit claimTtl claimIds => exact claim_establishes.map (fun _ => lasting_told _) fun _ _ holds => holds
  | succeed claim decision at_ clock => exact succeed_establishes.map (fun _ => lasting_told _) fun _ _ holds => holds
  | retry claim reason runAt at_ clock => exact retry_establishes.map (fun _ => lasting_told _) fun _ _ holds => holds
  | terminate claim reason at_ clock => exact terminate_establishes.map (fun _ => lasting_told _) fun _ _ holds => holds

def empty : JobTables D := ⟨.empty, .empty, .empty, .empty⟩

theorem good_empty : Good none (empty : JobTables D) where
  jobs := fun _ => ⟨rfl, fun _ _ _ found => (by cases found), fun decided => (by cases decided)⟩
  saved := fun _ _ _ found => (by cases found)
  placed := fun _ _ _ found => by cases found

/-- The sessions start on an empty table. -/
abbrev start (script : Nat → List (List (Call D))) : Sessions (JobTables D) (JobWrite D) JobLock PyError (Answer D) :=
  Sessions.start JobWrite.apply empty Call.task script

/-- Whatever sessions do to the job store, statement by statement and with failures in between, the
token of a job counts its claims, and jobs only move on. A decision is saved for a job that has
succeeded, and no other one is ever saved for it. What the store has answered in confirmed
transactions stays true. -/
theorem job_stores_safe {script : Nat → List (List (Call D))} {s t : Sessions (JobTables D) (JobWrite D) JobLock PyError (Answer D)}
    (reached : Relation.ReflTransGen Sessions.Step (start script) s) (later : Relation.ReflTransGen Sessions.Step s t) :
    (∀ jobId, (s.shared.committed.job jobId).Consistent ∧
      JobPart.Grows (s.shared.committed.job jobId) (t.shared.committed.job jobId)) ∧
    (∀ (session index : Nat) (saved : SavedDecision D), (s.shared.committed.savedIn session)[index]? = some saved →
      (∃ row, (s.shared.committed.job saved.jobId).row = some row ∧ row.state = .succeeded) ∧
      ∀ (sessionLater indexLater : Nat) (savedLater : SavedDecision D), (t.shared.committed.savedIn sessionLater)[indexLater]? = some savedLater →
        savedLater.jobId = saved.jobId → sessionLater = session ∧ indexLater = index ∧ savedLater = saved) ∧
    ∀ i answers, (s.task i).result? = some (.ok answers) → ∀ answer ∈ answers, Told t.shared.committed answer := by
  have each : ∀ i, ∀ calls ∈ script i, ∀ call ∈ calls, Establishes (discipline D) i (fun answer tables => Told tables answer)
      (Call.task i call) := fun _ _ _ call _ => call_establishes call
  obtain ⟨good, grown, answered⟩ := Sessions.run_safe good_empty lasting_told each reached later
  obtain ⟨goodLater, -, -⟩ := Sessions.run_safe good_empty lasting_told each (reached.trans later) .refl
  refine ⟨fun jobId => ⟨good.jobs jobId, grown (.job jobId)⟩, fun session index saved found => ?_, answered⟩
  have succeeded := good.saved session index saved found (by simp)
  refine ⟨(good.jobs saved.jobId).succeeded (by rw [succeeded]; rfl), fun sessionLater indexLater savedLater foundLater same => ?_⟩
  have succeededLater := goodLater.saved sessionLater indexLater savedLater foundLater (by simp)
  have still : (t.shared.committed.job saved.jobId).succeeded = some (session, index) :=
    JobPart.Grows.succeeded (grown (.job saved.jobId)) _ succeeded
  rw [same, still] at succeededLater
  cases succeededLater
  have longer : s.shared.committed.savedIn session <+: t.shared.committed.savedIn session := grown (.saved session)
  rw [found_longer longer found] at foundLater
  cases foundLater
  exact ⟨rfl, rfl, rfl⟩

theorem three_positive : (0 : Int) < 3 := by decide

def sampleJob : Job := JobStore.sampleJob "j" Sample.job_named 3 three_positive

/-- A claim of the job that runs out, and the one that replaces it. -/
def lapsedClaim : JobClaim := ⟨sampleJob, Uuid.series 'a' 0, 10, 1, Nat.one_pos⟩

def currentClaim : JobClaim := ⟨sampleJob, Uuid.series 'b' 0, 20, 2, Nat.two_pos⟩

/-- Two sessions let a job succeed, each by its own claim. -/
def sampleSessions : Nat → List (List (Call Nat))
  | 0 => [[.schedule sampleJob], [.claim 0 5 10 (Uuid.series 'a')], [.succeed lapsedClaim 0 11 11, .get "j"]]
  | 1 => [[.claim 10 5 10 (Uuid.series 'b')], [.succeed currentClaim 1 11 11]]
  | _ => []

/-- The first session has saved its decision when the second one locks the job. -/
def sampleTurns : List (Nat × RowLocks.Outcome PyError) :=
  List.replicate 5 (0, .done) ++ List.replicate 3 (1, .done) ++ List.replicate 2 (0, .done) ++ List.replicate 5 (1, .done) ++
    List.replicate 5 (0, .done)

theorem sample_run : Relation.ReflTransGen Sessions.Step (start sampleSessions) ((start sampleSessions).play sampleTurns) :=
  EventLoop.run_of_plays (fun _ _ => true) (fun _ _ _ => trivial) (by decide +kernel)

theorem sample_result : (((start sampleSessions).play sampleTurns).task 1).result? =
    some (.ok [.claimed [currentClaim], .succeeded currentClaim 1 .succeeded]) := rfl

/-- The decision that was saved for the claim that had run out is undone. -/
theorem decision_is_saved_once :
    ∃ s, Relation.ReflTransGen Sessions.Step (start sampleSessions) s ∧ (s.task 0).result?.isSome ∧
      s.shared.committed.savedIn 0 = [] ∧ s.shared.committed.savedIn 1 = [⟨"j", 1⟩] ∧
      Succeeded currentClaim 1 s.shared.committed ∧
      ∃ row, (s.shared.committed.job "j").row = some row ∧ row.state = .succeeded := by
  obtain ⟨-, saved, answered⟩ := job_stores_safe sample_run .refl
  exact ⟨_, sample_run, by decide +kernel, rfl, rfl, answered 1 _ sample_result (.succeeded currentClaim 1 .succeeded) (by simp) rfl,
    (saved 1 0 ⟨"j", 1⟩ rfl).1⟩

section Fencing
variable {claim other : JobClaim}

/-- A claim that a session was given by a transaction whose commit was confirmed. -/
def Given (s : Sessions (JobTables D) (JobWrite D) JobLock PyError (Answer D)) (claim : JobClaim) : Prop :=
  ∃ i answers claims, (s.task i).result? = some (.ok answers) ∧ .claimed claims ∈ answers ∧ claim ∈ claims

/-- A claim that has ended its job, as such a transaction has answered. -/
def Ends (s : Sessions (JobTables D) (JobWrite D) JobLock PyError (Answer D)) (claim : JobClaim) : Prop :=
  ∃ i answers, (s.task i).result? = some (.ok answers) ∧
    ((∃ decision, .succeeded claim decision .succeeded ∈ answers) ∨ ∃ reason, .settled claim (.terminated reason) ∈ answers)

/-- In any such run no token of a job is given to two claims. One claim of a job at most ends it, and
none that is given has a later token. From then on the job stays as it is. -/
theorem jobs_fenced {script : Nat → List (List (Call D))} {s t : Sessions (JobTables D) (JobWrite D) JobLock PyError (Answer D)}
    (reached : Relation.ReflTransGen Sessions.Step (start script) s) (later : Relation.ReflTransGen Sessions.Step s t) :
    (∀ claim other, Given s claim → Given s other → other.job.jobId = claim.job.jobId → other.fencingToken = claim.fencingToken →
      other.claimId = claim.claimId ∧ other.claimedUntil = claim.claimedUntil) ∧
    ∀ claim, Ends s claim → t.shared.committed.job claim.job.jobId = s.shared.committed.job claim.job.jobId ∧
      (∀ other, Given t other → other.job.jobId = claim.job.jobId → other.fencingToken ≤ claim.fencingToken) ∧
      ∀ other, Ends t other → other.job.jobId = claim.job.jobId →
        other.claimId = claim.claimId ∧ other.fencingToken = claim.fencingToken := by
  have told : ∀ {u v : Sessions (JobTables D) (JobWrite D) JobLock PyError (Answer D)},
      Relation.ReflTransGen Sessions.Step (start script) u → Relation.ReflTransGen Sessions.Step u v →
      (∀ claim, Given u claim → Claimed claim v.shared.committed) ∧
      ∀ claim, Ends u claim → ∃ state reason, state ≠ .scheduled ∧ Ended claim state reason v.shared.committed := by
    intro u v reached later
    obtain ⟨-, -, answered⟩ := Sessions.run_safe good_empty lasting_told (fun _ _ _ call _ => call_establishes call) reached later
    refine ⟨fun claim given => ?_, fun claim ends => ?_⟩
    · obtain ⟨i, answers, claims, ended, member, inside⟩ := given
      exact answered i answers ended _ member claim inside
    · obtain ⟨i, answers, ended, ⟨decision, member⟩ | ⟨reason, member⟩⟩ := ends
      · exact ⟨.succeeded, none, by simp, (answered i answers ended _ member rfl).1⟩
      · exact ⟨.terminal, some reason, by simp, answered i answers ended _ member⟩
  obtain ⟨-, grown, -⟩ := Sessions.run_safe good_empty lasting_told (fun _ _ _ call _ => call_establishes call) reached later
  refine ⟨fun claim other one two same token => ?_, fun claim ends => ?_⟩
  · have given := ((told reached .refl).1 other two).given
    rw [same, token, ((told reached .refl).1 claim one).given] at given
    exact ⟨(Prod.mk.inj (Option.some.inj given)).1.symm, (Prod.mk.inj (Option.some.inj given)).2.symm⟩
  obtain ⟨state, reason, final, ended⟩ := (told reached .refl).2 claim ends
  obtain ⟨row, isRow, inState, -⟩ := ended.ended
  have unchanged : t.shared.committed.job claim.job.jobId = s.shared.committed.job claim.job.jobId :=
    JobPart.Grows.ended (grown (.job claim.job.jobId)) row isRow (inState ▸ final)
  refine ⟨unchanged, fun other given same => ?_, fun other endsToo same => ?_⟩
  · have found := ((told (reached.trans later) .refl).1 other given).given
    rw [same, unchanged] at found
    have inside := (List.getElem?_eq_some_iff.mp found).1
    rw [ended.numbered] at inside
    have positive := other.positive
    omega
  · obtain ⟨_, _, -, endedToo⟩ := (told (reached.trans later) .refl).2 other endsToo
    have last := endedToo.last
    have numbered := endedToo.numbered
    rw [same, unchanged] at last numbered
    rw [ended.last] at last
    exact ⟨(Prod.mk.inj (Option.some.inj last)).1.symm, numbered.symm.trans ended.numbered⟩

/-- The second session has ended the job by the later claim. -/
theorem job_is_fenced :
    ∃ s, Relation.ReflTransGen Sessions.Step (start sampleSessions) s ∧ Given s lapsedClaim ∧ Given s currentClaim ∧
      lapsedClaim.fencingToken ≤ currentClaim.fencingToken ∧ Ends s currentClaim ∧
      ∀ other, Ends s other → other.job.jobId = "j" → other.fencingToken = 2 := by
  have first : (((start sampleSessions).play sampleTurns).task 0).result?.map (fun result => result.toOption.map (·.take 2)) =
      some (some [.scheduled sampleJob .scheduled, .claimed [lapsedClaim]]) := rfl
  have ends : Ends ((start sampleSessions).play sampleTurns) currentClaim := ⟨1, _, sample_result, Or.inl ⟨1, by simp⟩⟩
  have lapsed : Given ((start sampleSessions).play sampleTurns) lapsedClaim := by
    obtain ⟨result, isResult, first⟩ := Option.map_eq_some_iff.mp first
    cases result with
    | error error => cases first
    | ok answers =>
      refine ⟨0, answers, [lapsedClaim], isResult, ?_, List.mem_singleton_self _⟩
      have taken : answers.take 2 = [.scheduled sampleJob .scheduled, .claimed [lapsedClaim]] := Option.some.inj first
      have member : Answer.claimed [lapsedClaim] ∈ answers.take 2 := by
        rw [taken]
        simp
      exact List.mem_of_mem_take member
  have current : Given ((start sampleSessions).play sampleTurns) currentClaim :=
    ⟨1, _, _, sample_result, List.mem_cons_self .., List.mem_singleton_self _⟩
  obtain ⟨-, fenced⟩ := jobs_fenced sample_run .refl
  obtain ⟨-, tokens, ended⟩ := fenced currentClaim ends
  exact ⟨_, sample_run, lapsed, current, tokens lapsedClaim lapsed rfl, ends, fun other endsToo same => (ended other endsToo same).2⟩

end Fencing

end Pytitect.JobTables
