import Pytitect.Jobs.Attempts

namespace Pytitect

/-- What a handler does with a job: return a decision, raise `PermanentJobError`, or raise another
exception, of which only the name of its class is used. -/
inductive HandlerOutcome (D : Type)
  | returned (decision : D)
  | permanent (message : String)
  | raised (name : String)

structure JobRunSummary where
  claimed : Nat
  succeeded : Nat
  retried : Nat
  terminated : Nat
  deriving DecidableEq

def JobRunSummary.counting (summary : JobRunSummary) : JobTransition → JobRunSummary
  | .succeeded => { summary with succeeded := summary.succeeded + 1 }
  | .retried _ => { summary with retried := summary.retried + 1 }
  | .terminated _ => { summary with terminated := summary.terminated + 1 }
  | .stale => summary

/-- How many claims a summary accounts for. -/
def JobRunSummary.settled (summary : JobRunSummary) : Nat := summary.succeeded + summary.retried + summary.terminated

/-- `JobRunner`, less its store and clock; `delay` is that of the retry policy. -/
structure JobRunner (D : Type) where
  handlers : Dict String (Job → HandlerOutcome D)
  delay : Int → Int

namespace JobRunner
variable {D : Type}

/-- The body of the `try`; a task without a handler raises a `KeyError`. -/
def handle (runner : JobRunner D) (job : Job) : HandlerOutcome D :=
  match runner.handlers.get? job.task with
  | none => .raised "KeyError"
  | some handler => handler job

def settle (runner : JobRunner D) (now : Int) (claim : JobClaim) (s : JobStore D) : Except PyError JobTransition × JobStore D :=
  match runner.handle claim.job with
  | .permanent message => s.terminate claim message
  | .raised name =>
    match datetimeAdd now (runner.delay (claim.job.attempt + 1)) with
    | .error error => (.error error, s)
    | .ok runAt => s.retry claim name runAt
  | .returned decision => s.succeed claim decision

def settleAll (runner : JobRunner D) (now : Int) : List JobClaim → JobRunSummary → JobStore D → Except PyError JobRunSummary × JobStore D
  | [], summary, s => (.ok summary, s)
  | claim :: rest, summary, s =>
    match runner.settle now claim s with
    | (.error error, s) => (.error error, s)
    | (.ok transition, s) => runner.settleAll now rest (summary.counting transition) s

def runOnce (runner : JobRunner D) (now limit claimTtl : Int) (claimIds : Nat → Uuid) (s : JobStore D) :
    Except PyError JobRunSummary × JobStore D :=
  match s.claim now limit claimTtl claimIds with
  | (.error error, s) => (.error error, s)
  | (.ok claims, s) => runner.settleAll now claims ⟨claims.length, 0, 0, 0⟩ s

/-- The handler's answer can be written down: a reason has text in it, and the next run is in the
calendar. -/
def Settleable (runner : JobRunner D) (now : Int) (job : Job) : Prop :=
  match runner.handle job with
  | .returned _ => True
  | .permanent message => JobStore.Spoken message
  | .raised name => JobStore.Spoken name ∧ Fits now (runner.delay (job.attempt + 1))

/-- The handler records a decision. -/
def decides (runner : JobRunner D) (job : Job) : Bool :=
  match runner.handle job with
  | .returned _ => true
  | _ => false

/-- The job has succeeded, is scheduled for its next attempt, or is over. -/
def Concludes (old new : Job) : Prop :=
  new.state = .succeeded ∨ new.state = .scheduled ∧ new.attempt = old.attempt + 1 ∨ new.state = .terminal

/-- The claim holds its job, as it was when it was claimed. -/
structure Holds (s : JobStore D) (claim : JobClaim) : Prop where
  stored : s.jobs.get? claim.job.jobId = some ⟨claim.job, some claim.claimId, some claim.claimedUntil, claim.fencingToken⟩
  running : claim.job.state = .scheduled
  left : claim.job.attempt < claim.job.maxAttempts

variable {runner : JobRunner D} {now limit claimTtl : Int} {claim : JobClaim} {s t : JobStore D} {claims : List JobClaim}
  {summary : JobRunSummary} {claimIds : Nat → Uuid}

theorem Holds.valid (holds : Holds s claim) :
    s.valid claim = some ⟨claim.job, some claim.claimId, some claim.claimedUntil, claim.fencingToken⟩ := by
  simp [JobStore.valid, holds.stored, holds.running]

/-- One claim is settled: its job is concluded and nobody holds it, and no other job changes. -/
structure SettledOne (runner : JobRunner D) (claim : JobClaim) (s : JobStore D) (transition : JobTransition) (t : JobStore D) : Prop where
  counted : transition ≠ .stale
  job : ∃ item, t.jobs.get? claim.job.jobId = some item ∧ item.claimId = none ∧ item.claimedUntil = none ∧ Concludes claim.job item.job
  others : ∀ jobId, jobId ≠ claim.job.jobId → t.jobs.get? jobId = s.jobs.get? jobId
  decisions : t.decisions.length = s.decisions.length + if runner.decides claim.job then 1 else 0
  capacity : t.capacity = s.capacity

theorem SettledOne.of_settle {transition : JobTransition} {item : StoredJob} {job : Job} {more : List (String × D)}
    (counted : transition ≠ .stale) (concludes : Concludes claim.job job) (length : more.length = if runner.decides claim.job then 1 else 0) :
    SettledOne runner claim s transition { s.settle claim item job with decisions := s.decisions ++ more } where
  counted := counted
  job := ⟨_, Dict.get?_set_self .., rfl, rfl, concludes⟩
  others := fun _ other => Dict.get?_set_of_ne other
  decisions := by rw [List.length_append, length]
  capacity := rfl

theorem SettledOne.silent {transition : JobTransition} {item : StoredJob} {job : Job} (undecided : runner.decides claim.job = false)
    (counted : transition ≠ .stale) (concludes : Concludes claim.job job) :
    SettledOne runner claim s transition (s.settle claim item job) where
  counted := counted
  job := ⟨_, Dict.get?_set_self .., rfl, rfl, concludes⟩
  others := fun _ other => Dict.get?_set_of_ne other
  decisions := by rw [undecided]; rfl
  capacity := rfl

theorem jobReason_error {reason : String} (blank : ¬JobStore.Spoken reason) : ∃ error, jobReason reason = .error error := by
  cases answered : jobReason reason with
  | error error => exact ⟨error, rfl⟩
  | ok sanitized => exact absurd (JobStore.jobReason_iff.mp ⟨sanitized, answered⟩) blank

theorem succeed_holds (holds : Holds s claim) (decision : D) (decides : runner.decides claim.job = true)
    (room : s.decisions.length < s.capacity) :
    ∃ transition t, s.succeed claim decision = (.ok transition, t) ∧ SettledOne runner claim s transition t := by
  unfold JobStore.succeed
  rw [holds.valid]
  dsimp only
  rw [if_neg (by omega)]
  refine ⟨_, _, rfl, .of_settle (by simp) (Or.inl rfl) ?_⟩
  rw [decides]
  rfl

theorem terminate_holds (holds : Holds s claim) {message : String} (undecided : runner.decides claim.job = false)
    (spoken : JobStore.Spoken message) :
    ∃ transition t, s.terminate claim message = (.ok transition, t) ∧ SettledOne runner claim s transition t := by
  obtain ⟨sanitized, isReason⟩ := JobStore.jobReason_iff.mpr spoken
  unfold JobStore.terminate
  rw [isReason]
  dsimp only
  rw [holds.valid]
  exact ⟨_, _, rfl, .silent undecided (by simp) (Or.inr (Or.inr rfl))⟩

theorem retry_holds (holds : Holds s claim) {name : String} {runAt : Int} (undecided : runner.decides claim.job = false)
    (spoken : JobStore.Spoken name) :
    ∃ transition t, s.retry claim name runAt = (.ok transition, t) ∧ SettledOne runner claim s transition t := by
  obtain ⟨sanitized, isReason⟩ := JobStore.jobReason_iff.mpr spoken
  have left := holds.left
  have counted := claim.job.counted
  have admitted : 0 < claim.job.maxAttempts ∧ 0 ≤ claim.job.attempt + 1 ∧ claim.job.attempt + 1 ≤ claim.job.maxAttempts := by omega
  unfold JobStore.retry
  rw [isReason]
  dsimp only
  rw [holds.valid]
  simp only [Job.withAttempt, dif_pos admitted]
  split
  · exact ⟨_, _, rfl, .silent undecided (by simp) (Or.inr (Or.inr rfl))⟩
  · exact ⟨_, _, rfl, .silent undecided (by simp) (Or.inr (Or.inl ⟨holds.running, rfl⟩))⟩

/-- What the handler's answer makes of a claim that holds its job. -/
theorem settle_holds (now : Int) (holds : Holds s claim) (room : runner.decides claim.job = true → s.decisions.length < s.capacity) :
    (runner.Settleable now claim.job →
      ∃ transition t, runner.settle now claim s = (.ok transition, t) ∧ SettledOne runner claim s transition t) ∧
    (¬runner.Settleable now claim.job → ∃ error, (runner.settle now claim s).1 = .error error) := by
  unfold Settleable settle
  cases handled : runner.handle claim.job with
  | returned decision =>
    have decides : runner.decides claim.job = true := by simp [JobRunner.decides, handled]
    exact ⟨fun _ => succeed_holds holds decision decides (room decides), fun refused => absurd trivial refused⟩
  | permanent message =>
    have undecided : runner.decides claim.job = false := by simp [JobRunner.decides, handled]
    refine ⟨fun spoken => terminate_holds holds undecided spoken, fun blank => ?_⟩
    obtain ⟨error, refused⟩ := jobReason_error blank
    simp only [JobStore.terminate, refused]
    exact ⟨error, rfl⟩
  | raised name =>
    have undecided : runner.decides claim.job = false := by simp [JobRunner.decides, handled]
    constructor
    · rintro ⟨spoken, fits⟩
      rw [datetimeAdd_fits fits]
      exact retry_holds holds undecided spoken
    · intro refused
      by_cases fits : Fits now (runner.delay (claim.job.attempt + 1))
      · obtain ⟨error, blank⟩ := jobReason_error fun spoken => refused ⟨spoken, fits⟩
        simp only [datetimeAdd_fits fits, JobStore.retry, blank]
        exact ⟨error, rfl⟩
      · rw [datetimeAdd_overflows fits]
        exact ⟨_, rfl⟩

/-- The claims are on different jobs, each of which is held. -/
structure Pending (s : JobStore D) (claims : List JobClaim) : Prop where
  holds : ∀ claim ∈ claims, Holds s claim
  apart : (claims.map (·.job.jobId)).Nodup

theorem Pending.rest {rest : List JobClaim} {transition : JobTransition} (pending : Pending s (claim :: rest))
    (settled : SettledOne runner claim s transition t) : Pending t rest := by
  obtain ⟨own, apart⟩ := List.nodup_cons.mp pending.apart
  refine ⟨fun later member => ?_, apart⟩
  have holds := pending.holds later (List.mem_cons_of_mem _ member)
  have other : later.job.jobId ≠ claim.job.jobId := by
    intro same
    exact own (List.mem_map.mpr ⟨later, member, same⟩)
  exact ⟨(settled.others _ other).trans holds.stored, holds.running, holds.left⟩

/-- The claimed jobs are concluded and nobody holds them, the other jobs are as they were, and every
claim is counted. -/
structure SettledAll (claims : List JobClaim) (s : JobStore D) (before after : JobRunSummary) (t : JobStore D) : Prop where
  jobs : ∀ claim ∈ claims, ∃ item, t.jobs.get? claim.job.jobId = some item ∧ item.claimId = none ∧ item.claimedUntil = none ∧
    Concludes claim.job item.job
  others : ∀ jobId, jobId ∉ claims.map (·.job.jobId) → t.jobs.get? jobId = s.jobs.get? jobId
  claimed : after.claimed = before.claimed
  settled : after.settled = before.settled + claims.length

theorem counting_settled (summary : JobRunSummary) {transition : JobTransition} (counted : transition ≠ .stale) :
    (summary.counting transition).settled = summary.settled + 1 ∧ (summary.counting transition).claimed = summary.claimed := by
  cases transition with
  | stale => exact absurd rfl counted
  | succeeded =>
    refine ⟨?_, rfl⟩
    simp only [JobRunSummary.counting, JobRunSummary.settled]
    omega
  | retried runAt =>
    refine ⟨?_, rfl⟩
    simp only [JobRunSummary.counting, JobRunSummary.settled]
    omega
  | terminated reason =>
    refine ⟨?_, rfl⟩
    simp only [JobRunSummary.counting, JobRunSummary.settled]
    omega

/-- The loop settles all claims if every answer can be written down; otherwise it raises. -/
theorem settleAll_pending (runner : JobRunner D) (now : Int) (summary : JobRunSummary) (pending : Pending s claims)
    (room : s.decisions.length + claims.countP (fun claim => runner.decides claim.job) ≤ s.capacity) :
    ((∀ claim ∈ claims, runner.Settleable now claim.job) →
      ∃ after t, runner.settleAll now claims summary s = (.ok after, t) ∧ SettledAll claims s summary after t) ∧
    ((∃ claim ∈ claims, ¬runner.Settleable now claim.job) → ∃ error, (runner.settleAll now claims summary s).1 = .error error) := by
  induction claims generalizing s summary with
  | nil =>
    refine ⟨fun _ => ⟨summary, s, rfl, by simp, fun _ _ => rfl, rfl, rfl⟩, ?_⟩
    rintro ⟨_, member, -⟩
    cases member
  | cons claim rest ih =>
    rw [List.countP_cons] at room
    have first := pending.holds claim (List.mem_cons_self ..)
    obtain ⟨settles, raises⟩ := settle_holds now first fun decides => by
      rw [if_pos decides] at room
      omega
    by_cases able : runner.Settleable now claim.job
    · obtain ⟨transition, mid, did, one⟩ := settles able
      have counts := counting_settled summary one.counted
      have later := pending.rest one
      obtain ⟨restSettles, restRaises⟩ := ih (summary.counting transition) later (by
        rw [one.decisions, one.capacity]
        omega)
      simp only [settleAll, did]
      constructor
      · intro all
        obtain ⟨after, t, ran, done⟩ := restSettles fun other member => all other (List.mem_cons_of_mem _ member)
        refine ⟨after, t, ran, ?_, ?_, done.claimed.trans counts.2, ?_⟩
        · intro other member
          rcases List.mem_cons.mp member with rfl | inRest
          · obtain ⟨item, found, rest⟩ := one.job
            have own := (List.nodup_cons.mp pending.apart).1
            exact ⟨item, (done.others _ own).trans found, rest⟩
          · exact done.jobs other inRest
        · intro jobId absent
          simp only [List.map_cons, List.mem_cons, not_or] at absent
          exact (done.others jobId absent.2).trans (one.others jobId absent.1)
        · rw [done.settled, counts.1, List.length_cons]
          omega
      · rintro ⟨other, member, unable⟩
        rcases List.mem_cons.mp member with rfl | inRest
        · exact absurd able unable
        · exact restRaises ⟨other, inRest, unable⟩
    · obtain ⟨error, raised⟩ := raises able
      refine ⟨fun all => absurd (all claim (List.mem_cons_self ..)) able, fun _ => ⟨error, ?_⟩⟩
      simp only [settleAll]
      split
      · rename_i other after did
        rw [did] at raised
        cases raised
        rfl
      · rename_i transition after did
        rw [did] at raised
        cases raised

/-- What a run is to do: it returns, accounts for every claim, and leaves every claimed job concluded
and unclaimed. -/
def SettlesAll (runner : JobRunner D) (now limit claimTtl : Int) (claimIds : Nat → Uuid) (s : JobStore D) : Prop :=
  ∃ claims after summary t, s.claim now limit claimTtl claimIds = (.ok claims, after) ∧
    runner.runOnce now limit claimTtl claimIds s = (.ok summary, t) ∧ summary.claimed = claims.length ∧
    summary.succeeded + summary.retried + summary.terminated = summary.claimed ∧
    ∀ claim ∈ claims, ∃ item, t.jobs.get? claim.job.jobId = some item ∧ item.claimId = none ∧ item.claimedUntil = none ∧
      Concludes claim.job item.job

/-- The arguments are valid, the claims end within the calendar, and what the handlers answer can be
written down. -/
def Clean (runner : JobRunner D) (now limit claimTtl : Int) (s : JobStore D) : Prop :=
  claimArguments limit claimTtl = .ok () ∧ (s.ready now limit ≠ [] → Fits now claimTtl) ∧
    ∀ entry ∈ s.ready now limit, runner.Settleable now entry.2.job

open JobStore in
theorem pending_handed (keyed : Keyed s) (left : ∀ entry ∈ s.ready now limit, entry.2.job.attempt < entry.2.job.maxAttempts)
    (claimIds : Nat → Uuid) (claimedUntil : Int) :
    Pending { s with jobs := s.jobs.setAll (marked claimIds claimedUntil (s.ready now limit)) }
      (handed claimIds claimedUntil (s.ready now limit)) := by
  have ids : (handed claimIds claimedUntil (s.ready now limit)).map (·.job.jobId) = (s.ready now limit).map Prod.fst := by
    refine List.ext_getElem (by simp [handed]) fun i inHanded inReady => ?_
    simp only [handed, List.getElem_map, List.getElem_mapIdx]
    exact keyed _ _ (mem_ready (List.getElem_mem _)).1
  refine ⟨fun claim member => ?_, ids ▸ ready_distinct⟩
  obtain ⟨i, bound, rfl⟩ := List.mem_mapIdx.mp member
  have inReady := List.getElem_mem bound
  obtain ⟨found, may⟩ := mem_ready inReady
  refine ⟨?_, ?_, left _ inReady⟩
  · refine Dict.get?_setAll_of_mem ?_ (List.mem_mapIdx.mpr ⟨i, bound, ?_⟩)
    · have same : (marked claimIds claimedUntil (s.ready now limit)).map Prod.fst = (s.ready now limit).map Prod.fst := by
        refine List.ext_getElem (by simp [marked]) fun j inMarked inReady => ?_
        simp [marked]
      exact same ▸ ready_distinct
    · rw [keyed _ _ found]
  · simp only [eligible, Bool.and_eq_true, decide_eq_true_eq] at may
    exact may.1.1

theorem countP_handed (claimedUntil : Int) :
    (JobStore.handed claimIds claimedUntil (s.ready now limit)).countP (fun claim => runner.decides claim.job) =
      (s.ready now limit).countP (fun entry => runner.decides entry.2.job) := by
  have jobs : (JobStore.handed claimIds claimedUntil (s.ready now limit)).map (·.job) = (s.ready now limit).map (·.2.job) := by
    refine List.ext_getElem (by simp [JobStore.handed]) fun i inHanded inReady => ?_
    simp [JobStore.handed]
  have counts := congrArg (List.countP runner.decides) jobs
  rw [List.countP_map, List.countP_map] at counts
  exact counts

open JobStore in
/-- With room for the decisions and attempts left, a run does what it is to do if and only if it is
clean. -/
theorem settles_all_iff (keyed : Keyed s) (left : ∀ entry ∈ s.ready now limit, entry.2.job.attempt < entry.2.job.maxAttempts)
    (room : s.decisions.length + (s.ready now limit).countP (fun entry => runner.decides entry.2.job) ≤ s.capacity) :
    runner.SettlesAll now limit claimTtl claimIds s ↔ runner.Clean now limit claimTtl s := by
  unfold SettlesAll Clean
  cases valid : claimArguments limit claimTtl with
  | error error =>
    refine iff_of_false ?_ (by simp)
    rintro ⟨claims, after, _, _, claimed, -⟩
    rw [JobStore.claim, valid] at claimed
    cases claimed
  | ok =>
    by_cases fits : Fits now claimTtl
    · have pending := pending_handed keyed left claimIds (now + claimTtl)
      have claimed : s.claim now limit claimTtl claimIds = _ := claim_fits valid fits
      have able : (∀ claim ∈ handed claimIds (now + claimTtl) (s.ready now limit), runner.Settleable now claim.job) ↔
          ∀ entry ∈ s.ready now limit, runner.Settleable now entry.2.job := by
        constructor
        · intro all entry member
          obtain ⟨i, bound, rfl⟩ := List.mem_iff_getElem.mp member
          exact all _ (List.mem_mapIdx.mpr ⟨i, bound, rfl⟩)
        · intro all claim member
          obtain ⟨i, bound, rfl⟩ := List.mem_mapIdx.mp member
          exact all _ (List.getElem_mem bound)
      obtain ⟨settles, raises⟩ := settleAll_pending runner now
        ⟨(handed claimIds (now + claimTtl) (s.ready now limit)).length, 0, 0, 0⟩ pending
        (by rw [countP_handed]; exact room)
      constructor
      · rintro ⟨claims, after, summary, t, sameClaims, ran, -⟩
        refine ⟨rfl, fun _ => fits, able.mp ?_⟩
        by_contra unable
        simp only [not_forall] at unable
        obtain ⟨claim, member, refused⟩ := unable
        obtain ⟨error, raised⟩ := raises ⟨claim, member, refused⟩
        simp only [runOnce, claimed] at ran
        rw [ran] at raised
        cases raised
      · rintro ⟨-, -, all⟩
        obtain ⟨summary, t, ran, done⟩ := settles (able.mpr all)
        refine ⟨_, _, summary, t, claimed, ?_, done.claimed, ?_, done.jobs⟩
        · simp only [runOnce, claimed]
          exact ran
        · have total := done.settled
          have claims := done.claimed
          simp only [JobRunSummary.settled] at total claims
          omega
    · have claimed : s.claim now limit claimTtl claimIds = _ := claim_overflows valid fits
      cases none : s.ready now limit with
      | nil =>
        rw [none] at claimed
        refine iff_of_true ⟨[], s, ⟨0, 0, 0, 0⟩, s, claimed, ?_, rfl, rfl, by simp⟩ ⟨rfl, by simp, by simp⟩
        simp only [runOnce, claimed]
        rfl
      | cons entry rest =>
        rw [none] at claimed
        refine iff_of_false ?_ fun clean => fits (clean.2.1 (by simp))
        rintro ⟨claims, after, _, _, same, -⟩
        cases claimed.symm.trans same

/-- In any store that calls can lead to, with room for the decisions and attempts left, a run without
a competing worker does what it is to do if and only if it is clean. -/
theorem run_once_settles_iff {capacity : Nat} {past : List (JobStore.Call D × JobStore.Answer)}
    (calls : JobStore.Calls capacity past s) (left : ∀ entry ∈ s.ready now limit, entry.2.job.attempt < entry.2.job.maxAttempts)
    (room : s.decisions.length + (s.ready now limit).countP (fun entry => runner.decides entry.2.job) ≤ s.capacity) :
    runner.SettlesAll now limit claimTtl claimIds s ↔ runner.Clean now limit claimTtl s :=
  settles_all_iff calls.keyed left room

/-- The handler of every mail job raises `PermanentJobError` with this message. -/
def silentRunner (message : String) : JobRunner Unit := ⟨Dict.empty.set "mail" fun _ => .permanent message, fun _ => 1⟩

open JobStore in
theorem freshJob_calls : Calls 5 (History.transcript answer (empty 5) [(.schedule freshJob : Call Unit)])
    (History.after answer (empty 5) [.schedule freshJob]) :=
  History.ofInputs ⟨trivial, trivial⟩

open JobStore in
theorem freshJob_left : ∀ entry ∈ (History.after answer (empty 5) [(.schedule freshJob : Call Unit)]).ready 0 5,
    entry.2.job.attempt < entry.2.job.maxAttempts := by
  rintro entry (_ | ⟨_, ⟨⟩⟩)
  decide

open JobStore in
theorem silent_run_raises : ∃ (past : List (Call Unit × Answer)) (s : JobStore Unit), Calls 5 past s ∧
    (∀ entry ∈ s.ready 0 5, entry.2.job.attempt < entry.2.job.maxAttempts) ∧
    s.decisions.length + (s.ready 0 5).countP (fun entry => (silentRunner "").decides entry.2.job) ≤ s.capacity ∧
    ¬(silentRunner "").SettlesAll 0 5 10 (Uuid.series 'a') s := by
  have room : (History.after answer (empty 5) [(.schedule freshJob : Call Unit)]).decisions.length +
      ((History.after answer (empty 5) [(.schedule freshJob : Call Unit)]).ready 0 5).countP
        (fun entry => (silentRunner "").decides entry.2.job) ≤ 5 := by decide
  refine ⟨_, _, freshJob_calls, freshJob_left, room, fun settles => ?_⟩
  obtain ⟨-, -, able⟩ := (settles_all_iff freshJob_calls.keyed freshJob_left room).mp settles
  obtain ⟨c, among, -⟩ : Spoken "" := able _ (List.mem_cons_self ..)
  cases among

open JobStore in
theorem spoken_run_settles : (silentRunner "late").SettlesAll 0 5 10 (Uuid.series 'a')
    (History.after answer (empty 5) [(.schedule freshJob : Call Unit)]) := by
  refine (run_once_settles_iff freshJob_calls freshJob_left (by decide)).mpr ⟨rfl, fun _ => ⟨by decide, by decide⟩, ?_⟩
  rintro entry (_ | ⟨_, ⟨⟩⟩)
  exact spoken_late

end JobRunner

end Pytitect
