import Pytitect.Jobs.Fencing
import Pytitect.Jobs.Table
import Pytitect.Lib.Selection

namespace Pytitect
open JobStore

/-- The calls that both stores have. A settlement presents the claims that the stores issued
together; the database's clock shows the caller's time. -/
inductive JobCall (D : Type)
  | schedule (job : Job)
  | claim (now limit claimTtl : Int) (claimIds : Nat → Uuid)
  | succeed (claims : JobClaim × JobClaim) (decision : D) (at_ : Int)
  | retry (claims : JobClaim × JobClaim) (reason : String) (runAt at_ : Int)
  | terminate (claims : JobClaim × JobClaim) (reason : String) (at_ : Int)

namespace JobCall
variable {D : Type}

def toCall : JobCall D → Call D
  | .schedule job => .schedule job
  | .claim now limit claimTtl claimIds => .claim now limit claimTtl claimIds
  | .succeed claims decision _ => .succeed claims.1 decision
  | .retry claims reason runAt _ => .retry claims.1 reason runAt
  | .terminate claims reason _ => .terminate claims.1 reason

/-- The caller's time, if the call has one. -/
def time : JobCall D → Option Int
  | .schedule _ => none
  | .claim now _ _ _ => some now
  | .succeed _ _ at_ => some at_
  | .retry _ _ _ at_ => some at_
  | .terminate _ _ at_ => some at_

/-- The claims that a settlement presents. -/
def presents : JobCall D → Option (JobClaim × JobClaim)
  | .succeed claims _ _ => some claims
  | .retry claims _ _ _ => some claims
  | .terminate claims _ _ => some claims
  | .schedule _ | .claim .. => none

end JobCall

def SQLAlchemyJobStore.answer {D : Type} (store : SQLAlchemyJobStore D) : JobCall D → Answer × SQLAlchemyJobStore D
  | .schedule job => (.scheduled (.ok (store.schedule job).1), (store.schedule job).2)
  | .claim now limit claimTtl claimIds =>
    (.claimed (store.claim now limit claimTtl claimIds).1, (store.claim now limit claimTtl claimIds).2)
  | .succeed claims decision at_ =>
    (.settled (.ok (store.succeed claims.2 decision at_ at_).1), (store.succeed claims.2 decision at_ at_).2)
  | .retry claims reason runAt at_ =>
    (.settled (store.retry claims.2 reason runAt at_ at_).1, (store.retry claims.2 reason runAt at_ at_).2)
  | .terminate claims reason at_ =>
    (.settled (store.terminate claims.2 reason at_ at_).1, (store.terminate claims.2 reason at_ at_).2)

/-- The row of a job. -/
def Job.row (job : Job) (fencingToken : Nat) (claimId : Option Uuid) (claimedUntil : Option Int) : JobRow :=
  ⟨job.task, job.payload, job.runAt, job.maxAttempts, job.attempt, job.state, job.state ≠ .scheduled, job.lastFailure,
    fencingToken, claimId, claimedUntil⟩

/-- Both stores side by side. -/
structure JobStores (D : Type) where
  memory : JobStore D
  table : SQLAlchemyJobStore D

namespace JobStores
variable {D : Type}

def empty (capacity : Nat) : JobStores D := ⟨.empty capacity, .empty⟩

/-- One call, made to both stores. -/
def answer (stores : JobStores D) (call : JobCall D) : (Answer × Answer) × JobStores D :=
  (((stores.memory.answer call.toCall).1, (stores.table.answer call).1),
    ⟨(stores.memory.answer call.toCall).2, (stores.table.answer call).2⟩)

/-- What each of the stores has seen. -/
def memoryPast (past : List (JobCall D × Answer × Answer)) : List (Call D × Answer) :=
  past.map fun event => (event.1.toCall, event.2.1)

def tablePast (past : List (JobCall D × Answer × Answer)) : List (Call D × Answer) :=
  past.map fun event => (event.1.toCall, event.2.2)

/-- The claims that one call made the stores issue. -/
def pairsBy (event : JobCall D × Answer × Answer) : List (JobClaim × JobClaim) :=
  (issuedBy (event.1.toCall, event.2.1)).zip (issuedBy (event.1.toCall, event.2.2))

def pairs (past : List (JobCall D × Answer × Answer)) : List (JobClaim × JobClaim) := past.flatMap pairsBy

/-- Claim ids are fresh, the clock does not go back, jobs have an attempt left, claims are settled
before they run out, and the capacity is not reached. -/
structure Admissible (stores : JobStores D) (past : List (JobCall D × Answer × Answer)) (call : JobCall D) : Prop where
  fresh : ∀ now limit claimTtl claimIds, call = .claim now limit claimTtl claimIds →
    Function.Injective claimIds ∧ ∀ i, ¬Drawn (memoryPast past) (claimIds i)
  clock : ∀ event ∈ past, ∀ earlier now, event.1.time = some earlier → call.time = some now → earlier ≤ now
  counted : ∀ job, call = .schedule job → job.attempt < job.maxAttempts
  live : ∀ claims at_, call.presents = some claims → call.time = some at_ → claims ∈ pairs past ∧ at_ < claims.1.claimedUntil
  roomForJob : ∀ job, call = .schedule job → stores.memory.ensureCapacity 1 = .ok ()
  roomForDecision : ∀ claims decision at_, call = .succeed claims decision at_ →
    stores.memory.decisions.length < stores.memory.capacity

/-- When a call leaves both stores with the same jobs: a retry that reaches the attempt limit
passes the run time that the job has. -/
def Agreeable (stores : JobStores D) : JobCall D → Prop
  | .retry claims reason runAt _ => ∀ sanitized item, jobReason reason = .ok sanitized → stores.memory.valid claims.1 = some item →
      item.job.maxAttempts ≤ item.job.attempt + 1 → runAt = item.job.runAt
  | .schedule _ | .claim .. | .succeed .. | .terminate .. => True

/-- Two claims that differ at most in their tokens. -/
structure Twins (first second : JobClaim) : Prop where
  job : second.job = first.job
  claimId : second.claimId = first.claimId
  claimedUntil : second.claimedUntil = first.claimedUntil

/-- Equal answers, up to the tokens of the claims. -/
inductive Alike : Answer → Answer → Prop
  | same (answer : Answer) : Alike answer answer
  | claims {first second : List JobClaim} : List.Forall₂ Twins first second →
      Alike (.claimed (.ok first)) (.claimed (.ok second))

/-- The clock has come to this instant. -/
def Passed (past : List (JobCall D × Answer × Answer)) (instant : Int) : Prop :=
  ∃ event ∈ past, ∃ time, event.1.time = some time ∧ instant ≤ time

/-- A job and its row. They may hold different claim ids once the claim has run out. -/
structure Mirrors (passed : Int → Prop) (item : StoredJob) (row : JobRow) : Prop where
  columns : row = item.job.row row.fencingToken row.claimId item.claimedUntil
  held : row.claimId = item.claimId ∨ ∀ claimedUntil, item.claimedUntil = some claimedUntil → passed claimedUntil

/-- Claims on rows. -/
def rowClaiming : Claiming String JobRow JobClaim Uuid where
  target claim := claim.job.jobId
  ident := JobClaim.claimId
  held := JobRow.claimId
  agrees claim row := row.claimedUntil = some claim.claimedUntil ∧ row.fencingToken = claim.fencingToken

/-- Every job has its row, and every row its job. -/
def Aligned (passed : Int → Prop) (stores : JobStores D) : Prop :=
  ∀ jobId, Option.Rel (Mirrors passed) (stores.memory.jobs.get? jobId) (stores.table.rows.get? jobId)

variable {stores : JobStores D} {passed : Int → Prop} {item : StoredJob} {row : JobRow} {jobId : String}
  {now limit claimTtl : Int} {claimIds : Nat → Uuid}

theorem row_job (job : Job) (fencingToken : Nat) (claimId : Option Uuid) (claimedUntil : Option Int) :
    (job.row fencingToken claimId claimedUntil).job job.jobId = .ok job := by
  have named : job.jobId ≠ "" ∧ job.task ≠ "" := job.named
  have counted : 0 < job.maxAttempts ∧ 0 ≤ job.attempt ∧ job.attempt ≤ job.maxAttempts := job.counted
  have valid : validateJson job.payload .default = .ok () := job.valid
  unfold JobRow.job Job.make Job.row
  rw [dif_pos named, dif_pos counted]
  split
  · rename_i invalid
    cases valid.symm.trans invalid
  · rfl

theorem Mirrors.mono {more : Int → Prop} (mirrors : Mirrors passed item row) (grown : ∀ instant, passed instant → more instant) :
    Mirrors more item row :=
  ⟨mirrors.columns, mirrors.held.imp_right fun lapsed claimedUntil isUntil => grown _ (lapsed claimedUntil isUntil)⟩

theorem Aligned.mono {more : Int → Prop} (aligned : Aligned passed stores) (grown : ∀ instant, passed instant → more instant) :
    Aligned more stores := by
  intro jobId
  have related := aligned jobId
  generalize stores.memory.jobs.get? jobId = stored, stores.table.rows.get? jobId = kept at related ⊢
  cases related with
  | some mirrors => exact .some (mirrors.mono grown)
  | none => exact .none

theorem Aligned.found (aligned : Aligned passed stores) (found : stores.memory.jobs.get? jobId = some item) :
    ∃ row, stores.table.rows.get? jobId = some row ∧ Mirrors passed item row := by
  have related := aligned jobId
  rw [found] at related
  generalize stores.table.rows.get? jobId = stored at related
  cases related with
  | some mirrors => exact ⟨_, rfl, mirrors⟩

theorem Aligned.absent (aligned : Aligned passed stores) (absent : stores.memory.jobs.get? jobId = none) :
    stores.table.rows.get? jobId = none := by
  have related := aligned jobId
  rw [absent] at related
  generalize stores.table.rows.get? jobId = stored at related
  cases related
  rfl

/-- One job and its row are written. -/
theorem Aligned.set (aligned : Aligned passed stores) (mirrors : Mirrors passed item row) (jobId : String) (decisions : List (String × D))
    (saved : List D) : Aligned passed ⟨{ stores.memory with jobs := stores.memory.jobs.set jobId item, decisions },
      ⟨stores.table.rows.set jobId row, saved⟩⟩ := by
  intro other
  dsimp only
  rw [Dict.get?_set, Dict.get?_set]
  split
  · exact .some mirrors
  · exact aligned other

/-- The jobs of both stores are the same. -/
theorem Aligned.get (aligned : Aligned passed stores)
    (own : ∀ jobId item, stores.memory.jobs.get? jobId = some item → item.job.jobId = jobId) (jobId : String) :
    stores.table.get jobId = .ok (stores.memory.get jobId) := by
  unfold SQLAlchemyJobStore.get JobStore.get
  cases found : stores.memory.jobs.get? jobId with
  | none =>
    rw [aligned.absent found]
    rfl
  | some item =>
    obtain ⟨row, stored, mirrors⟩ := aligned.found found
    have job := row_job item.job row.fencingToken row.claimId item.claimedUntil
    rw [← mirrors.columns, own jobId item found] at job
    rw [stored]
    dsimp only
    rw [job]
    rfl

/-- The token and the claim id that the table has for a job. -/
def tokenIn (table : SQLAlchemyJobStore D) (jobId : String) : Nat := ((table.rows.get? jobId).map (·.fencingToken)).getD 0

def heldIn (table : SQLAlchemyJobStore D) (jobId : String) : Option Uuid := (table.rows.get? jobId).bind (·.claimId)

/-- The row of a job of the in-memory store. -/
def rowIn (table : SQLAlchemyJobStore D) (jobId : String) (item : StoredJob) : JobRow :=
  item.job.row (tokenIn table jobId) (heldIn table jobId) item.claimedUntil

theorem Aligned.rows (aligned : Aligned passed stores) (jobId : String) :
    stores.table.rows.get? jobId = (stores.memory.jobs.get? jobId).map (rowIn stores.table jobId) := by
  cases found : stores.memory.jobs.get? jobId with
  | none => exact aligned.absent found
  | some item =>
    obtain ⟨row, stored, mirrors⟩ := aligned.found found
    have token : tokenIn stores.table jobId = row.fencingToken := by
      rw [tokenIn, stored]
      rfl
    have held : heldIn stores.table jobId = row.claimId := by
      rw [heldIn, stored]
      rfl
    rw [stored, Option.map_some, rowIn, token, held, ← mirrors.columns]

theorem Mirrors.eligible (mirrors : Mirrors passed item row) : row.eligible now = JobStore.eligible now (jobId, item) := by
  rw [mirrors.columns]
  rfl

instance : Std.Total JobStore.Before :=
  inferInstanceAs (Std.Total (EarlierThen (fun entry : String × StoredJob => entry.2.job.runAt) fun entry => entry.2.job.jobId))

instance : IsTrans (String × StoredJob) JobStore.Before :=
  inferInstanceAs (IsTrans _ (EarlierThen (fun entry : String × StoredJob => entry.2.job.runAt) fun entry => entry.2.job.jobId))

instance : Std.Total JobRow.Before :=
  inferInstanceAs (Std.Total (EarlierThen (fun entry : String × JobRow => entry.2.runAt) fun entry => entry.1))

instance : IsTrans (String × JobRow) JobRow.Before :=
  inferInstanceAs (IsTrans _ (EarlierThen (fun entry : String × JobRow => entry.2.runAt) fun entry => entry.1))

theorem before_antisymm {a b : String × JobRow} (first : JobRow.Before a b) (second : JobRow.Before b a) : a.1 = b.1 := by
  have earlier : EarlierThen (fun entry : String × JobRow => entry.2.runAt) (fun entry => entry.1) a b := first
  exact earlier.antisymm second

/-- Both stores look at the same jobs, in the same order. -/
theorem Aligned.selected (aligned : Aligned passed stores)
    (own : ∀ jobId item, stores.memory.jobs.get? jobId = some item → item.job.jobId = jobId) (now limit : Int) :
    stores.table.selected now limit = (stores.memory.ready now limit).map (Dict.entryIn (rowIn stores.table)) := by
  unfold SQLAlchemyJobStore.selected JobStore.ready Dict.picked
  rw [List.map_take]
  refine congrArg (List.take limit.toNat) (Dict.sorted_map aligned.rows (fun entry member => ?_) (fun a inA b inB before => ?_)
    fun a b => before_antisymm)
  · rfl
  · have ownA := own a.1 a.2 (Dict.mem_items.mp inA)
    have ownB := own b.1 b.2 (Dict.mem_items.mp inB)
    rcases before with less | ⟨same, behind⟩
    · exact Or.inl less
    · refine Or.inr ⟨same, ?_⟩
      rw [ownA, ownB] at behind
      exact behind

/-- The claims that the table issues on these jobs, and the rows that it writes. -/
def handedRows (table : SQLAlchemyJobStore D) (claimIds : Nat → Uuid) (claimedUntil : Int) (count : Nat)
    (entries : List (String × StoredJob)) : List JobClaim :=
  entries.mapIdx fun i entry =>
    ⟨entry.2.job, claimIds (count + i), claimedUntil, tokenIn table entry.1 + 1, Nat.succ_pos _⟩

def markedRows (table : SQLAlchemyJobStore D) (claimIds : Nat → Uuid) (claimedUntil : Int) (count : Nat)
    (entries : List (String × StoredJob)) : List (String × JobRow) :=
  entries.mapIdx fun i entry =>
    (entry.1, entry.2.job.row (tokenIn table entry.1 + 1) (some (claimIds (count + i))) (some claimedUntil))

/-- If the deadline is within the calendar, the loop claims every selected row. -/
theorem claimRows_ok {table : SQLAlchemyJobStore D} {claimedUntil : Int} {entries : List (String × StoredJob)}
    (own : ∀ entry ∈ entries, entry.2.job.jobId = entry.1) (count : Nat) (rows : Dict String JobRow) :
    SQLAlchemyJobStore.claimRows (.ok claimedUntil) claimIds (entries.map (Dict.entryIn (rowIn table))) count rows =
      .ok (handedRows table claimIds claimedUntil count entries,
        rows.setAll (markedRows table claimIds claimedUntil count entries)) := by
  induction entries generalizing count rows with
  | nil => rfl
  | cons entry rest ih =>
    obtain ⟨jobId, item⟩ := entry
    rw [List.forall_mem_cons] at own
    obtain ⟨mine, ownRest⟩ := own
    dsimp only at mine
    subst mine
    have shift : ∀ i, count + 1 + i = count + (i + 1) := by omega
    have later := ih ownRest (count + 1)
      (rows.set item.job.jobId (item.job.row (tokenIn table item.job.jobId + 1) (some (claimIds count)) (some claimedUntil)))
    simp only [handedRows, markedRows, shift] at later
    rw [List.map_cons, Dict.entryIn, rowIn, SQLAlchemyJobStore.claimRows]
    change (JobRow.job item.job.jobId
      (item.job.row (tokenIn table item.job.jobId + 1) (some (claimIds count)) (some claimedUntil)) >>= _) = _
    rw [row_job]
    change (SQLAlchemyJobStore.claimRows (.ok claimedUntil) claimIds (rest.map (Dict.entryIn (rowIn table))) (count + 1)
      (rows.set item.job.jobId (item.job.row (tokenIn table item.job.jobId + 1) (some (claimIds count)) (some claimedUntil))) >>= _) = _
    rw [later]
    simp only [handedRows, markedRows, List.mapIdx_cons, Nat.add_zero]
    rfl

theorem twins_handed (claimedUntil : Int) (entries : List (String × StoredJob)) :
    List.Forall₂ Twins (handed claimIds claimedUntil entries) (handedRows stores.table claimIds claimedUntil 0 entries) := by
  refine List.forall₂_iff_get.mpr ⟨by simp [handed, handedRows], fun i inHanded inRows => ?_⟩
  simp only [handed, handedRows, List.get_eq_getElem, List.getElem_mapIdx, Nat.zero_add]
  exact ⟨rfl, rfl, rfl⟩

/-- The jobs that are claimed and their rows. -/
theorem Aligned.claimed (aligned : Aligned passed stores) (claimedUntil : Int) :
    Aligned passed ⟨{ stores.memory with jobs := stores.memory.jobs.setAll (marked claimIds claimedUntil (stores.memory.ready now limit)) },
      ⟨stores.table.rows.setAll (markedRows stores.table claimIds claimedUntil 0 (stores.memory.ready now limit)),
        stores.table.decisions⟩⟩ := by
  intro jobId
  have inMemory := Dict.get?_setAll_mapIdx stores.memory.jobs (fun i entry => (⟨entry.2.job, some (claimIds i), some claimedUntil,
    entry.2.fencingToken + 1⟩ : StoredJob)) (ready_distinct : ((stores.memory.ready now limit).map Prod.fst).Nodup) jobId
  have keys : (markedRows stores.table claimIds claimedUntil 0 (stores.memory.ready now limit)).map Prod.fst =
      (stores.memory.ready now limit).map Prod.fst := by
    refine List.ext_getElem? fun i => ?_
    simp [markedRows, Function.comp_def]
  rcases inMemory with ⟨i, entry, isEntry, rfl, found⟩ | ⟨absent, same⟩
  · have member : (entry.1, entry.2.job.row (tokenIn stores.table entry.1 + 1) (some (claimIds i)) (some claimedUntil)) ∈
        markedRows stores.table claimIds claimedUntil 0 (stores.memory.ready now limit) := by
      obtain ⟨bound, isAt⟩ := List.getElem?_eq_some_iff.mp isEntry
      exact List.mem_mapIdx.mpr ⟨i, bound, by rw [isAt, Nat.zero_add]⟩
    dsimp only [marked]
    rw [found, Dict.get?_setAll_of_mem (keys ▸ ready_distinct) member]
    exact .some ⟨rfl, Or.inl rfl⟩
  · dsimp only [marked]
    rw [same, Dict.get?_setAll_of_not_mem (keys ▸ absent)]
    exact aligned jobId

/-- A job that is spoiled may be claimed again: its claim, if it had one, has run out. -/
theorem Aligned.spoiled (aligned : Aligned passed stores) (came : ∀ instant, instant ≤ now → passed instant)
    {entry : String × StoredJob} (member : entry ∈ stores.memory.ready now limit) (claimId : Uuid) :
    Aligned passed ⟨{ stores.memory with jobs := stores.memory.jobs.set entry.1 (spoil claimId entry.2) }, stores.table⟩ := by
  obtain ⟨found, may⟩ := mem_ready member
  intro other
  dsimp only
  rw [Dict.get?_set]
  split
  · rename_i mine
    obtain ⟨row, stored, mirrors⟩ := aligned.found found
    rw [mine, stored]
    refine .some ⟨mirrors.columns, Or.inr fun claimedUntil isUntil => came _ ?_⟩
    unfold JobStore.eligible at may
    rw [Bool.and_eq_true] at may
    have isUntil : entry.2.claimedUntil = some claimedUntil := isUntil
    have out := may.2
    rw [isUntil] at out
    simpa using out
  · exact aligned other

/-- The rows after a claim call hold what the table has issued. -/
theorem rows_issue {issues : List JobClaim} {drawn : Uuid → Prop} (sound : rowClaiming.Sound issues drawn stores.table.rows)
    (own : ∀ jobId item, stores.memory.jobs.get? jobId = some item → item.job.jobId = jobId)
    (injective : Function.Injective claimIds) (unused : ∀ i, ¬drawn (claimIds i)) (claimedUntil : Int) :
    rowClaiming.Sound (issues ++ handedRows stores.table claimIds claimedUntil 0 (stores.memory.ready now limit))
      (fun claimId => drawn claimId ∨ ∃ i, claimIds i = claimId)
      (stores.table.rows.setAll (markedRows stores.table claimIds claimedUntil 0 (stores.memory.ready now limit))) := by
  have ids : (handedRows stores.table claimIds claimedUntil 0 (stores.memory.ready now limit)).map rowClaiming.ident =
      (List.range (stores.memory.ready now limit).length).map claimIds := by
    refine List.ext_getElem (by simp [handedRows]) fun i inHanded inRange => ?_
    simp [handedRows, rowClaiming]
  have holding : List.Forall₂ (Claiming.Sound.Holding rowClaiming)
      (handedRows stores.table claimIds claimedUntil 0 (stores.memory.ready now limit))
      (markedRows stores.table claimIds claimedUntil 0 (stores.memory.ready now limit)) := by
    refine List.forall₂_iff_get.mpr ⟨by simp [handedRows, markedRows], fun i inHanded inMarked => ?_⟩
    simp only [handedRows, markedRows, List.get_eq_getElem, List.getElem_mapIdx]
    have inReady : i < (stores.memory.ready now limit).length := by simpa [handedRows] using inHanded
    obtain ⟨found, -⟩ := mem_ready (List.getElem_mem inReady)
    exact ⟨own _ _ found, rfl, rfl, rfl⟩
  have among : ∀ claimId, claimId ∈ (List.range (stores.memory.ready now limit).length).map claimIds → ∃ i, claimIds i = claimId := by
    intro claimId member
    obtain ⟨i, -, same⟩ := List.mem_map.mp member
    exact ⟨i, same⟩
  have issued := sound.issueAll holding (ids ▸ List.nodup_range.map injective) fun claim member => by
    obtain ⟨i, same⟩ := among _ (ids ▸ List.mem_map_of_mem member)
    exact same ▸ unused i
  refine issued.drawMore fun claimId known => known.imp_right fun inIds => ?_
  rw [ids] at inIds
  exact among claimId inIds

/-- What holds of both stores after a run. -/
structure Kept (past : List (JobCall D × Answer × Answer)) (stores : JobStores D) : Prop where
  agrees : Agrees (memoryPast past) stores.memory
  table : rowClaiming.Sound (issued (tablePast past)) (Drawn (memoryPast past)) stores.table.rows
  aligned : Aligned (Passed past) stores
  paired : ∀ claims ∈ pairs past, claims.1 ∈ issued (memoryPast past) ∧ claims.2 ∈ issued (tablePast past) ∧
    Twins claims.1 claims.2
  running : ∀ jobId item, stores.memory.jobs.get? jobId = some item → item.job.state = .scheduled →
    item.job.attempt < item.job.maxAttempts

theorem Kept.start (capacity : Nat) : Kept (D := D) [] (empty capacity) where
  agrees := Agrees.start capacity
  table := Claiming.Sound.start
  aligned := fun _ => .none
  paired := by simp [pairs]
  running := fun _ _ found => (by cases found)

variable {past : List (JobCall D × Answer × Answer)} {call : JobCall D} {event : JobCall D × Answer × Answer}

theorem memoryPast_append : memoryPast (past ++ [event]) = memoryPast past ++ [(event.1.toCall, event.2.1)] :=
  List.map_append ..

theorem tablePast_append : tablePast (past ++ [event]) = tablePast past ++ [(event.1.toCall, event.2.2)] :=
  List.map_append ..

theorem pairs_append : pairs (past ++ [event]) = pairs past ++ pairsBy event := by
  simp [pairs]

theorem Passed.append {instant : Int} (passed : Passed past instant) : Passed (past ++ [event]) instant := by
  obtain ⟨earlier, member, rest⟩ := passed
  exact ⟨earlier, List.mem_append_left _ member, rest⟩

theorem Passed.last {time instant : Int} (isTime : event.1.time = some time) (before : instant ≤ time) :
    Passed (past ++ [event]) instant :=
  ⟨event, List.mem_append_right _ (List.mem_singleton_self _), time, isTime, before⟩

section
variable {first second : Answer} {memory : JobStore D} {table : SQLAlchemyJobStore D}

/-- What one call adds to what is kept: the in-memory store's part is known already. -/
theorem Kept.next (kept : Kept past stores) (fresh : Fresh (memoryPast past) call.toCall)
    (answered : stores.memory.answer call.toCall = (first, memory))
    (sound : rowClaiming.Sound (issued (tablePast past) ++ issuedBy (call.toCall, second))
      (Drawn (memoryPast (past ++ [(call, first, second)]))) table.rows)
    (aligned : Aligned (Passed (past ++ [(call, first, second)])) ⟨memory, table⟩)
    (twins : ∀ claims ∈ pairsBy (call, first, second), Twins claims.1 claims.2)
    (running : ∀ jobId item, memory.jobs.get? jobId = some item → item.job.state = .scheduled →
      item.job.attempt < item.job.maxAttempts) :
    Kept (past ++ [(call, first, second)]) ⟨memory, table⟩ := by
  refine ⟨?_, ?_, aligned, ?_, running⟩
  · have next := kept.agrees.next fresh
    rw [answered] at next
    rw [memoryPast_append]
    exact next
  · rw [tablePast_append, issued_append]
    exact sound
  · rw [memoryPast_append, tablePast_append, pairs_append, issued_append, issued_append]
    intro claims member
    rcases List.mem_append.mp member with before | now
    · obtain ⟨inMemory, inTable, same⟩ := kept.paired claims before
      exact ⟨List.mem_append_left _ inMemory, List.mem_append_left _ inTable, same⟩
    · have both := List.of_mem_zip now
      exact ⟨List.mem_append_right _ both.1, List.mem_append_right _ both.2, twins claims now⟩

/-- A call that changes neither store. -/
theorem Kept.same (kept : Kept past stores) (fresh : Fresh (memoryPast past) call.toCall)
    (answered : stores.memory.answer call.toCall = (first, stores.memory)) (silent : issuedBy (call.toCall, second) = []) :
    Kept (past ++ [(call, first, second)]) stores := by
  refine kept.next fresh answered ?_ (kept.aligned.mono fun _ => Passed.append) ?_ kept.running
  · rw [silent, List.append_nil, memoryPast_append]
    exact kept.table.drawMore fun _ => Drawn.append
  · simp [pairsBy, silent]

/-- Both stores have answered alike, and what is kept still holds. -/
def Follows (past : List (JobCall D × Answer × Answer)) (stores : JobStores D) (call : JobCall D) : Prop :=
  Kept (past ++ [(call, (stores.answer call).1)]) (stores.answer call).2 ∧
    Alike (stores.answer call).1.1 (stores.answer call).1.2

theorem Follows.of_answers (memoryAnswers : stores.memory.answer call.toCall = (first, memory))
    (tableAnswers : stores.table.answer call = (second, table)) (kept : Kept (past ++ [(call, first, second)]) ⟨memory, table⟩)
    (alike : Alike first second) : Follows past stores call := by
  rw [Follows, JobStores.answer, memoryAnswers, tableAnswers]
  exact ⟨kept, alike⟩

end

theorem Kept.schedule {job : Job} (kept : Kept past stores) (admissible : Admissible stores past (.schedule job)) :
    Follows past stores (.schedule job) := by
  by_cases present : job.jobId ∈ stores.memory.jobs.keys
  · have inMemory : stores.memory.schedule job = (.ok .duplicate, stores.memory) := if_pos present
    have inTable : stores.table.schedule job = (.duplicate, stores.table) := by
      cases found : stores.memory.jobs.get? job.jobId with
      | none => exact absurd present (Dict.get?_eq_none.mp found)
      | some item =>
        obtain ⟨row, stored, -⟩ := kept.aligned.found found
        rw [SQLAlchemyJobStore.schedule, stored]
    have memoryAnswers : stores.memory.answer (.schedule job) = (.scheduled (.ok .duplicate), stores.memory) := by
      rw [JobStore.answer, inMemory]
    refine .of_answers memoryAnswers (by rw [SQLAlchemyJobStore.answer, inTable]) ?_ (.same _)
    exact kept.same trivial memoryAnswers rfl
  · have absent := Dict.get?_eq_none.mpr present
    have inMemory : stores.memory.schedule job =
        (.ok .scheduled, { stores.memory with jobs := stores.memory.jobs.set job.jobId ⟨job, none, none, 0⟩ }) := by
      rw [JobStore.schedule, if_neg present, admissible.roomForJob job rfl]
    have inTable : stores.table.schedule job =
        (.scheduled, { stores.table with rows := stores.table.rows.set job.jobId (job.row 0 none none) }) := by
      rw [SQLAlchemyJobStore.schedule, kept.aligned.absent absent]
      rfl
    have memoryAnswers : stores.memory.answer (.schedule job) = (.scheduled (.ok .scheduled),
        { stores.memory with jobs := stores.memory.jobs.set job.jobId ⟨job, none, none, 0⟩ }) := by
      rw [JobStore.answer, inMemory]
    refine .of_answers memoryAnswers (by rw [SQLAlchemyJobStore.answer, inTable]) ?_ (.same _)
    refine kept.next trivial memoryAnswers ?_ ?_ (by simp [pairsBy, issuedBy]) fun jobId item found isScheduled => ?_
    · rw [memoryPast_append]
      change rowClaiming.Sound (issued (tablePast past) ++ []) _ _
      rw [List.append_nil]
      exact (kept.table.drawMore fun _ => Drawn.append).put (.free rfl)
    · exact (kept.aligned.mono fun _ => Passed.append).set ⟨rfl, Or.inl rfl⟩ job.jobId stores.memory.decisions stores.table.decisions
    · rcases Dict.get?_set_cases found with ⟨-, rfl⟩ | ⟨-, before⟩
      · exact admissible.counted job rfl
      · exact kept.running jobId item before isScheduled

theorem mem_pairs_twins {first second : List JobClaim} (twins : List.Forall₂ Twins first second) :
    ∀ claims ∈ first.zip second, Twins claims.1 claims.2 := by
  intro claims member
  exact (List.forall₂_iff_zip.mp twins).2 member

theorem Kept.claim (kept : Kept past stores) (admissible : Admissible stores past (.claim now limit claimTtl claimIds)) :
    Follows past stores (.claim now limit claimTtl claimIds) := by
  have fresh : Fresh (memoryPast past) (.claim now limit claimTtl claimIds) := admissible.fresh now limit claimTtl claimIds rfl
  obtain ⟨injective, unused⟩ := fresh
  have drawing : ∀ first second claimId, Drawn (memoryPast past) claimId ∨ (∃ i, claimIds i = claimId) →
      Drawn (memoryPast (past ++ [(.claim now limit claimTtl claimIds, first, second)])) claimId := by
    rintro first second claimId (known | ⟨i, rfl⟩)
    · rw [memoryPast_append]
      exact known.append
    · rw [memoryPast_append]
      exact ⟨_, List.mem_append_right _ (List.mem_singleton_self _), now, limit, claimTtl, claimIds, i, rfl, rfl⟩
  cases valid : claimArguments limit claimTtl with
  | error error =>
    have memoryAnswers : stores.memory.answer (.claim now limit claimTtl claimIds) = (.claimed (.error error), stores.memory) := by
      rw [JobStore.answer, JobStore.claim, valid]
    refine .of_answers memoryAnswers (by rw [SQLAlchemyJobStore.answer, SQLAlchemyJobStore.claim, valid]) ?_ (.same _)
    exact kept.same ⟨injective, unused⟩ memoryAnswers rfl
  | ok =>
    have selected := kept.aligned.selected kept.agrees.own now limit
    have own : ∀ entry ∈ stores.memory.ready now limit, entry.2.job.jobId = entry.1 :=
      fun entry member => kept.agrees.own _ _ (mem_ready member).1
    by_cases fits : Fits now claimTtl
    · have memoryAnswers : stores.memory.answer (.claim now limit claimTtl claimIds) =
          (.claimed (.ok (handed claimIds (now + claimTtl) (stores.memory.ready now limit))),
            { stores.memory with jobs := stores.memory.jobs.setAll (marked claimIds (now + claimTtl) (stores.memory.ready now limit)) }) := by
        rw [JobStore.answer, claim_fits valid fits]
      have tableAnswers : stores.table.answer (.claim now limit claimTtl claimIds) =
          (.claimed (.ok (handedRows stores.table claimIds (now + claimTtl) 0 (stores.memory.ready now limit))),
            ⟨stores.table.rows.setAll (markedRows stores.table claimIds (now + claimTtl) 0 (stores.memory.ready now limit)),
              stores.table.decisions⟩) := by
        rw [SQLAlchemyJobStore.answer, SQLAlchemyJobStore.claim, valid]
        dsimp only
        rw [selected, datetimeAdd_fits fits, claimRows_ok own]
      refine .of_answers memoryAnswers tableAnswers ?_ (.claims (twins_handed _ _))
      refine kept.next ⟨injective, unused⟩ memoryAnswers ?_ ((kept.aligned.mono fun _ => Passed.append).claimed _)
        (mem_pairs_twins (twins_handed _ _)) fun jobId item found isScheduled => ?_
      · exact (rows_issue kept.table kept.agrees.own injective unused _).drawMore (drawing _ _)
      · have cases := Dict.get?_setAll_mapIdx stores.memory.jobs (fun i entry => (⟨entry.2.job, some (claimIds i),
          some (now + claimTtl), entry.2.fencingToken + 1⟩ : StoredJob))
          (ready_distinct : ((stores.memory.ready now limit).map Prod.fst).Nodup) jobId
        rcases cases with ⟨i, entry, isEntry, rfl, marked⟩ | ⟨-, same⟩
        · cases marked.symm.trans found
          exact kept.running entry.1 entry.2 (mem_ready (List.mem_of_getElem? isEntry)).1 isScheduled
        · exact kept.running jobId item (same.symm.trans found) isScheduled
    · cases ready : stores.memory.ready now limit with
      | nil =>
        have memoryAnswers : stores.memory.answer (.claim now limit claimTtl claimIds) = (.claimed (.ok []), stores.memory) := by
          rw [JobStore.answer, claim_overflows valid fits, ready]
          rfl
        have tableAnswers : stores.table.answer (.claim now limit claimTtl claimIds) = (.claimed (.ok []), stores.table) := by
          rw [SQLAlchemyJobStore.answer, SQLAlchemyJobStore.claim, valid]
          dsimp only
          rw [selected, ready]
          rfl
        refine .of_answers memoryAnswers tableAnswers ?_ (.same _)
        exact kept.same ⟨injective, unused⟩ memoryAnswers rfl
      | cons entry rest =>
        have memoryAnswers : stores.memory.answer (.claim now limit claimTtl claimIds) =
            (.claimed (.error (.overflowError "date value out of range")),
              { stores.memory with jobs := stores.memory.jobs.set entry.1 (spoil (claimIds 0) entry.2) }) := by
          rw [JobStore.answer, claim_overflows valid fits, ready]
          rfl
        have tableAnswers : stores.table.answer (.claim now limit claimTtl claimIds) =
            (.claimed (.error (.overflowError "date value out of range")), stores.table) := by
          rw [SQLAlchemyJobStore.answer, SQLAlchemyJobStore.claim, valid]
          dsimp only
          rw [selected, ready, datetimeAdd_overflows fits]
          rfl
        have member : entry ∈ stores.memory.ready now limit := ready ▸ List.mem_cons_self ..
        refine .of_answers memoryAnswers tableAnswers ?_ (.same _)
        refine kept.next ⟨injective, unused⟩ memoryAnswers ?_ ?_ (by simp [pairsBy, issuedBy]) fun jobId item found isScheduled => ?_
        · rw [show issuedBy (JobCall.toCall (.claim now limit claimTtl claimIds : JobCall D),
            .claimed (.error (.overflowError "date value out of range"))) = [] from rfl, List.append_nil]
          exact kept.table.drawMore fun claimId known => drawing _ _ claimId (Or.inl known)
        · exact (kept.aligned.mono fun _ => Passed.append).spoiled (fun _ before => Passed.last rfl before) member _
        · rcases Dict.get?_set_cases found with ⟨-, rfl⟩ | ⟨-, before⟩
          · exact kept.running entry.1 entry.2 (mem_ready member).1 isScheduled
          · exact kept.running jobId item before isScheduled

/-- A settlement is refused by both stores. -/
structure Refused (stores : JobStores D) (claims : JobClaim × JobClaim) (at_ : Int) : Prop where
  memory : stores.memory.valid claims.1 = none
  table : ∀ (saved : List D) values, SQLAlchemyJobStore.settle ⟨stores.table.rows, saved⟩ claims.2 at_ at_ values =
    (false, ⟨stores.table.rows, saved⟩)

/-- A settlement is accepted by both stores, which have the job as the claims have it. -/
structure Accepted (stores : JobStores D) (claims : JobClaim × JobClaim) (at_ : Int) (item : StoredJob) (row : JobRow) : Prop where
  memory : stores.memory.valid claims.1 = some item
  sameJob : claims.2.job = item.job
  columns : row = item.job.row row.fencingToken row.claimId item.claimedUntil
  table : ∀ (saved : List D) values, SQLAlchemyJobStore.settle ⟨stores.table.rows, saved⟩ claims.2 at_ at_ values =
    (true, ⟨stores.table.rows.set claims.1.job.jobId { values row with claimId := none, claimedUntil := none }, saved⟩)

/-- While the claims run, either store holds its own claim if and only if the other does. -/
theorem Kept.holds (kept : Kept past stores) {claims : JobClaim × JobClaim} (paired : claims ∈ pairs past)
    (live : ¬Passed past claims.1.claimedUntil) (found : stores.memory.jobs.get? claims.1.job.jobId = some item)
    (stored : stores.table.rows.get? claims.1.job.jobId = some row) (mirrors : Mirrors (Passed past) item row) :
    row.claimId = some claims.2.claimId ↔ item.claimId = some claims.1.claimId := by
  obtain ⟨inMemory, inTable, twins⟩ := kept.paired claims paired
  have running : item.claimedUntil = some claims.1.claimedUntil → row.claimId = item.claimId := by
    intro until_
    exact mirrors.held.resolve_right fun lapsed => live (lapsed _ until_)
  rw [twins.claimId]
  constructor
  · intro holds
    obtain ⟨-, until_, -⟩ := kept.table.latest _ row claims.2 stored inTable (holds.trans (congrArg some twins.claimId.symm))
    rw [twins.claimedUntil, mirrors.columns] at until_
    exact (running until_).symm.trans holds
  · intro holds
    obtain ⟨-, -, until_, -⟩ := kept.agrees.sound.latest _ item claims.1 found inMemory holds
    exact (running until_).trans holds

theorem Kept.meets (kept : Kept past stores) {claims : JobClaim × JobClaim} {at_ : Int} (paired : claims ∈ pairs past)
    (before : at_ < claims.1.claimedUntil) (clock : ∀ instant, Passed past instant → instant ≤ at_) :
    Refused stores claims at_ ∨ ∃ item row, Accepted stores claims at_ item row := by
  obtain ⟨inMemory, inTable, twins⟩ := kept.paired claims paired
  have live : ¬Passed past claims.1.claimedUntil := fun passed => absurd (clock _ passed) (Int.not_le.mpr before)
  have sameId : claims.2.job.jobId = claims.1.job.jobId := congrArg Job.jobId twins.job
  cases found : stores.memory.jobs.get? claims.1.job.jobId with
  | none =>
    refine Or.inl ⟨by rw [JobStore.valid, found], fun saved values => ?_⟩
    rw [SQLAlchemyJobStore.settle, sameId]
    dsimp only
    rw [kept.aligned.absent found]
  | some item =>
    obtain ⟨row, stored, mirrors⟩ := kept.aligned.found found
    have state : row.state = item.job.state := congrArg JobRow.state mirrors.columns
    have same := kept.holds paired live found stored mirrors
    by_cases holds : item.claimId = some claims.1.claimId ∧ item.job.state = .scheduled
    · obtain ⟨held, isScheduled⟩ := holds
      obtain ⟨-, sameJob, -, token⟩ := kept.agrees.sound.latest _ item claims.1 found inMemory held
      obtain ⟨-, rowUntil, rowToken⟩ := kept.table.latest _ row claims.2 stored inTable (same.mpr held)
      have settles : row.settles claims.2 at_ at_ = true := by
        simp only [JobRow.settles, Bool.and_eq_true, decide_eq_true_eq, Int.max_self]
        exact ⟨⟨⟨⟨same.mpr held, rowToken⟩, rowUntil⟩, twins.claimedUntil ▸ before⟩, state.trans isScheduled⟩
      have current : ¬(item.claimId ≠ some claims.1.claimId ∨ item.fencingToken ≠ claims.1.fencingToken ∨
          item.job.state ≠ .scheduled) := by
        rw [not_or, not_or]
        exact ⟨not_not.mpr held, not_not.mpr token, not_not.mpr isScheduled⟩
      refine Or.inr ⟨item, row, ?_, twins.job.trans sameJob.symm, mirrors.columns, fun saved values => ?_⟩
      · rw [JobStore.valid, found]
        exact if_neg current
      · rw [SQLAlchemyJobStore.settle, sameId]
        dsimp only
        rw [stored]
        exact if_pos settles
    · have refuses : ¬row.settles claims.2 at_ at_ = true := by
        intro settles
        simp only [JobRow.settles, Bool.and_eq_true, decide_eq_true_eq] at settles
        exact holds ⟨same.mp settles.1.1.1.1, state.symm.trans settles.2⟩
      have stale : item.claimId ≠ some claims.1.claimId ∨ item.fencingToken ≠ claims.1.fencingToken ∨
          item.job.state ≠ .scheduled := by
        by_cases held : item.claimId = some claims.1.claimId
        · exact Or.inr (Or.inr fun isScheduled => holds ⟨held, isScheduled⟩)
        · exact Or.inl held
      refine Or.inl ⟨?_, fun saved values => ?_⟩
      · rw [JobStore.valid, found]
        exact if_pos stale
      · rw [SQLAlchemyJobStore.settle, sameId]
        dsimp only
        rw [stored]
        exact if_neg refuses

/-- A job that was settled is written alike, and its claim is released. -/
theorem Kept.write (kept : Kept past stores) {claims : JobClaim × JobClaim} {job : Job} {decisions : List (String × D)}
    {saved : List D} {first second : Answer} (values : JobRow → JobRow) (fresh : Fresh (memoryPast past) call.toCall)
    (answered : stores.memory.answer call.toCall = (first, { stores.memory.settle claims.1 item job with decisions }))
    (silent : issuedBy (call.toCall, second) = [])
    (writes : { values row with claimId := none, claimedUntil := none } = job.row row.fencingToken none none)
    (counted : job.state = .scheduled → job.attempt < job.maxAttempts) :
    Kept (past ++ [(call, first, second)]) ⟨{ stores.memory.settle claims.1 item job with decisions },
      ⟨stores.table.rows.set claims.1.job.jobId { values row with claimId := none, claimedUntil := none }, saved⟩⟩ := by
  refine kept.next fresh answered ?_ ?_ (by simp [pairsBy, silent]) fun jobId next found isScheduled => ?_
  · rw [silent, List.append_nil, memoryPast_append]
    exact (kept.table.drawMore fun _ => Drawn.append).put (.free rfl)
  · refine (kept.aligned.mono fun _ => Passed.append).set ⟨?_, Or.inl rfl⟩ claims.1.job.jobId decisions saved
    rw [writes]
    rfl
  · rcases Dict.get?_set_cases found with ⟨-, rfl⟩ | ⟨-, before⟩
    · exact counted isScheduled
    · exact kept.running jobId next before isScheduled

/-- The clock of a settlement has come as far as any call before. -/
theorem Admissible.clock_le (admissible : Admissible stores past call) {at_ : Int} (isTime : call.time = some at_) :
    ∀ instant, Passed past instant → instant ≤ at_ := by
  rintro instant ⟨event, member, time, isEarlier, before⟩
  exact Int.le_trans before (admissible.clock event member time at_ isEarlier isTime)

theorem Kept.succeed {claims : JobClaim × JobClaim} {decision : D} {at_ : Int} (kept : Kept past stores)
    (admissible : Admissible stores past (.succeed claims decision at_)) : Follows past stores (.succeed claims decision at_) := by
  obtain ⟨paired, before⟩ := admissible.live claims at_ rfl rfl
  have fresh : Fresh (memoryPast past) (.succeed claims.1 decision) := (kept.paired claims paired).1
  rcases kept.meets paired before (admissible.clock_le rfl) with ⟨memory, table⟩ | ⟨item, row, accepted⟩
  · have memoryAnswers : stores.memory.answer (.succeed claims.1 decision) = (.settled (.ok .stale), stores.memory) := by
      rw [JobStore.answer, JobStore.succeed, memory]
    have tableAnswers : stores.table.answer (.succeed claims decision at_) = (.settled (.ok .stale), stores.table) := by
      rw [SQLAlchemyJobStore.answer, SQLAlchemyJobStore.succeed, table]
    refine .of_answers memoryAnswers tableAnswers ?_ (.same _)
    exact kept.same fresh memoryAnswers rfl
  · have room : ¬stores.memory.capacity ≤ stores.memory.decisions.length :=
      Nat.not_le.mpr (admissible.roomForDecision claims decision at_ rfl)
    have memoryAnswers : stores.memory.answer (.succeed claims.1 decision) = (.settled (.ok .succeeded),
        { stores.memory.settle claims.1 item { item.job with state := .succeeded } with
          decisions := stores.memory.decisions ++ [(item.job.jobId, decision)] }) := by
      rw [JobStore.answer, JobStore.succeed, accepted.memory]
      dsimp only
      rw [if_neg room]
    have tableAnswers : stores.table.answer (.succeed claims decision at_) = (.settled (.ok .succeeded),
        ⟨stores.table.rows.set claims.1.job.jobId
          { row with state := .succeeded, terminal := true, claimId := none, claimedUntil := none },
          stores.table.decisions ++ [decision]⟩) := by
      rw [SQLAlchemyJobStore.answer, SQLAlchemyJobStore.succeed, accepted.table]
    refine .of_answers memoryAnswers tableAnswers ?_ (.same _)
    refine kept.write ({ · with state := .succeeded, terminal := true }) fresh memoryAnswers rfl ?_ (by simp)
    exact congrArg (fun row : JobRow => { row with state := .succeeded, terminal := true, claimId := none, claimedUntil := none })
      accepted.columns

theorem Kept.terminate {claims : JobClaim × JobClaim} {reason : String} {at_ : Int} (kept : Kept past stores)
    (admissible : Admissible stores past (.terminate claims reason at_)) : Follows past stores (.terminate claims reason at_) := by
  obtain ⟨paired, before⟩ := admissible.live claims at_ rfl rfl
  have fresh : Fresh (memoryPast past) (.terminate claims.1 reason) := (kept.paired claims paired).1
  cases proper : jobReason reason with
  | error error =>
    have memoryAnswers : stores.memory.answer (.terminate claims.1 reason) = (.settled (.error error), stores.memory) := by
      rw [JobStore.answer, JobStore.terminate, proper]
    refine .of_answers memoryAnswers (by rw [SQLAlchemyJobStore.answer, SQLAlchemyJobStore.terminate, proper]) ?_ (.same _)
    exact kept.same fresh memoryAnswers rfl
  | ok sanitized =>
    rcases kept.meets paired before (admissible.clock_le rfl) with ⟨memory, table⟩ | ⟨item, row, accepted⟩
    · have memoryAnswers : stores.memory.answer (.terminate claims.1 reason) = (.settled (.ok .stale), stores.memory) := by
        rw [JobStore.answer, JobStore.terminate, proper]
        dsimp only
        rw [memory]
      have tableAnswers : stores.table.answer (.terminate claims reason at_) = (.settled (.ok .stale), stores.table) := by
        rw [SQLAlchemyJobStore.answer, SQLAlchemyJobStore.terminate, proper]
        dsimp only
        rw [table]
      refine .of_answers memoryAnswers tableAnswers ?_ (.same _)
      exact kept.same fresh memoryAnswers rfl
    · have memoryAnswers : stores.memory.answer (.terminate claims.1 reason) = (.settled (.ok (.terminated sanitized)),
          stores.memory.settle claims.1 item { item.job with state := .terminal, lastFailure := some sanitized }) := by
        rw [JobStore.answer, JobStore.terminate, proper]
        dsimp only
        rw [accepted.memory]
      have tableAnswers : stores.table.answer (.terminate claims reason at_) = (.settled (.ok (.terminated sanitized)),
          ⟨stores.table.rows.set claims.1.job.jobId
            { row with failureReason := some sanitized, terminal := true, state := .terminal, claimId := none, claimedUntil := none },
            stores.table.decisions⟩) := by
        rw [SQLAlchemyJobStore.answer, SQLAlchemyJobStore.terminate, proper]
        dsimp only
        rw [accepted.table]
      refine .of_answers memoryAnswers tableAnswers ?_ (.same _)
      refine kept.write ({ · with failureReason := some sanitized, terminal := true, state := .terminal }) fresh memoryAnswers
        rfl ?_ (by simp)
      exact congrArg (fun row : JobRow => { row with
        failureReason := some sanitized, terminal := true, state := .terminal, claimId := none, claimedUntil := none })
        accepted.columns

theorem withAttempt_next {job : Job} (left : job.attempt < job.maxAttempts) :
    ∃ counted, job.withAttempt (job.attempt + 1) = .ok { job with attempt := job.attempt + 1, counted } := by
  have counted : 0 < job.maxAttempts ∧ 0 ≤ job.attempt + 1 ∧ job.attempt + 1 ≤ job.maxAttempts := by
    have := job.counted
    omega
  exact ⟨counted, dif_pos counted⟩

theorem Kept.retry {claims : JobClaim × JobClaim} {reason : String} {runAt at_ : Int} (kept : Kept past stores)
    (admissible : Admissible stores past (.retry claims reason runAt at_)) (agreeable : Agreeable stores (.retry claims reason runAt at_)) :
    Follows past stores (.retry claims reason runAt at_) := by
  obtain ⟨paired, before⟩ := admissible.live claims at_ rfl rfl
  have fresh : Fresh (memoryPast past) (.retry claims.1 reason runAt) := (kept.paired claims paired).1
  cases proper : jobReason reason with
  | error error =>
    have memoryAnswers : stores.memory.answer (.retry claims.1 reason runAt) = (.settled (.error error), stores.memory) := by
      rw [JobStore.answer, JobStore.retry, proper]
    refine .of_answers memoryAnswers (by rw [SQLAlchemyJobStore.answer, SQLAlchemyJobStore.retry, proper]) ?_ (.same _)
    exact kept.same fresh memoryAnswers rfl
  | ok sanitized =>
    rcases kept.meets paired before (admissible.clock_le rfl) with ⟨memory, table⟩ | ⟨item, row, accepted⟩
    · have memoryAnswers : stores.memory.answer (.retry claims.1 reason runAt) = (.settled (.ok .stale), stores.memory) := by
        rw [JobStore.answer, JobStore.retry, proper]
        dsimp only
        rw [memory]
      have tableAnswers : stores.table.answer (.retry claims reason runAt at_) = (.settled (.ok .stale), stores.table) := by
        rw [SQLAlchemyJobStore.answer, SQLAlchemyJobStore.retry, proper]
        dsimp only
        rw [table]
      refine .of_answers memoryAnswers tableAnswers ?_ (.same _)
      exact kept.same fresh memoryAnswers rfl
    · obtain ⟨found, -, -, isScheduled⟩ := valid_some accepted.memory
      obtain ⟨counted, made⟩ := withAttempt_next (kept.running _ item found isScheduled)
      by_cases final : item.job.maxAttempts ≤ item.job.attempt + 1
      · have memoryAnswers : stores.memory.answer (.retry claims.1 reason runAt) = (.settled (.ok (.terminated sanitized)),
            stores.memory.settle claims.1 item
              { item.job with attempt := item.job.attempt + 1, counted, state := .terminal, lastFailure := some sanitized }) := by
          rw [JobStore.answer, JobStore.retry, proper]
          dsimp only
          rw [accepted.memory]
          dsimp only
          rw [made]
          dsimp only
          rw [if_pos final]
        have tableAnswers : stores.table.answer (.retry claims reason runAt at_) = (.settled (.ok (.terminated sanitized)),
            ⟨stores.table.rows.set claims.1.job.jobId { row with
              attempt := item.job.attempt + 1, runAt, failureReason := some sanitized, terminal := true, state := .terminal,
              claimId := none, claimedUntil := none }, stores.table.decisions⟩) := by
          rw [SQLAlchemyJobStore.answer, SQLAlchemyJobStore.retry, proper]
          dsimp only
          rw [accepted.table, accepted.sameJob, decide_eq_true final]
          rfl
        refine .of_answers memoryAnswers tableAnswers ?_ (.same _)
        refine kept.write ({ · with
          attempt := item.job.attempt + 1, runAt, failureReason := some sanitized, terminal := true, state := .terminal })
          fresh memoryAnswers rfl ?_ (by simp)
        -- The table writes the run time of the call, and the in-memory store keeps the job's own.
        rw [agreeable sanitized item proper accepted.memory final]
        exact congrArg (fun row : JobRow => { row with
          attempt := item.job.attempt + 1, runAt := item.job.runAt, failureReason := some sanitized, terminal := true,
          state := .terminal, claimId := none, claimedUntil := none }) accepted.columns
      · have memoryAnswers : stores.memory.answer (.retry claims.1 reason runAt) = (.settled (.ok (.retried runAt)),
            stores.memory.settle claims.1 item
              { item.job with attempt := item.job.attempt + 1, counted, runAt, lastFailure := some sanitized }) := by
          rw [JobStore.answer, JobStore.retry, proper]
          dsimp only
          rw [accepted.memory]
          dsimp only
          rw [made]
          dsimp only
          rw [if_neg final]
        have tableAnswers : stores.table.answer (.retry claims reason runAt at_) = (.settled (.ok (.retried runAt)),
            ⟨stores.table.rows.set claims.1.job.jobId { row with
              attempt := item.job.attempt + 1, runAt, failureReason := some sanitized, terminal := false, state := .scheduled,
              claimId := none, claimedUntil := none }, stores.table.decisions⟩) := by
          rw [SQLAlchemyJobStore.answer, SQLAlchemyJobStore.retry, proper]
          dsimp only
          rw [accepted.table, accepted.sameJob, decide_eq_false final]
          rfl
        refine .of_answers memoryAnswers tableAnswers ?_ (.same _)
        refine kept.write ({ · with
          attempt := item.job.attempt + 1, runAt, failureReason := some sanitized, terminal := false, state := .scheduled })
          fresh memoryAnswers rfl ?_ fun _ => Int.not_le.mp final
        have written := congrArg (fun row : JobRow => { row with
          attempt := item.job.attempt + 1, runAt, failureReason := some sanitized, terminal := false, state := .scheduled,
          claimId := none, claimedUntil := none }) accepted.columns
        refine written.trans ?_
        simp only [Job.row, isScheduled, ne_eq, not_true_eq_false, decide_false]

theorem Kept.answer (kept : Kept past stores) (admissible : Admissible stores past call) (agreeable : Agreeable stores call) :
    Follows past stores call := by
  cases call with
  | schedule job => exact kept.schedule admissible
  | claim now limit claimTtl claimIds => exact kept.claim admissible
  | succeed claims decision at_ => exact kept.succeed admissible
  | retry claims reason runAt at_ => exact kept.retry admissible agreeable
  | terminate claims reason at_ => exact kept.terminate admissible

/-- In every run of agreeable calls both stores give the same answers and have the same jobs. -/
theorem job_stores_agree {capacity : Nat}
    (run : History answer (fun stores past call => Admissible stores past call ∧ Agreeable stores call) (empty capacity) past stores) :
    (∀ event ∈ past, Alike event.2.1 event.2.2) ∧ ∀ jobId, stores.table.get jobId = .ok (stores.memory.get jobId) := by
  have kept := run.answers (P := Kept) (Q := fun event => Alike event.2.1 event.2.2) (Kept.start capacity)
    (fun past stores call kept permitted => kept.answer permitted.1 permitted.2)
  exact ⟨kept.2, fun jobId => kept.1.aligned.get kept.1.agrees.own jobId⟩

/-- The only attempt of a job is claimed, and asks for a retry. -/
def lastAttempt (runAt : Int) : List (JobCall Unit) :=
  let job := sampleJob "j" Sample.job_named 1 (by decide)
  let claim : JobClaim := ⟨job, Uuid.series 'a' 0, 10, 1, Nat.one_pos⟩
  [.schedule job, .claim 0 5 10 (Uuid.series 'a'), .retry (claim, claim) "late" runAt 1]

theorem admissible_schedule {job : Job} (counted : job.attempt < job.maxAttempts) (room : stores.memory.ensureCapacity 1 = .ok ()) :
    Admissible stores past (.schedule job) where
  fresh := by simp
  clock := by simp [JobCall.time]
  counted := by simpa using counted
  live := by simp [JobCall.presents]
  roomForJob := fun _ _ => room
  roomForDecision := by simp

theorem admissible_claim (fresh : Function.Injective claimIds ∧ ∀ i, ¬Drawn (memoryPast past) (claimIds i))
    (clock : ∀ event ∈ past, ∀ earlier, event.1.time = some earlier → earlier ≤ now) :
    Admissible stores past (.claim now limit claimTtl claimIds) where
  fresh := by
    rintro now limit claimTtl claimIds same
    cases same
    exact fresh
  clock := by
    rintro event member earlier now isEarlier same
    cases same
    exact clock event member earlier isEarlier
  counted := by simp
  live := by simp [JobCall.presents]
  roomForJob := by simp
  roomForDecision := by simp

theorem admissible_retry {claims : JobClaim × JobClaim} {reason : String} {runAt at_ : Int}
    (live : claims ∈ pairs past ∧ at_ < claims.1.claimedUntil)
    (clock : ∀ event ∈ past, ∀ earlier, event.1.time = some earlier → earlier ≤ at_) :
    Admissible stores past (.retry claims reason runAt at_) where
  fresh := by simp
  clock := by
    rintro event member earlier now isEarlier same
    cases same
    exact clock event member earlier isEarlier
  counted := by simp
  live := by
    rintro presented now same isNow
    cases same
    cases isNow
    exact live
  roomForJob := by simp
  roomForDecision := by simp

theorem lastAttempt_permitted (runAt : Int) :
    History.Permitted answer (fun stores past call => Admissible stores past call) [] (empty 2) (lastAttempt runAt) := by
  simp only [History.Permitted, lastAttempt, List.nil_append, List.cons_append]
  refine ⟨admissible_schedule (by decide) rfl, admissible_claim (fresh_series [] (by simp) ?_) ?_,
    admissible_retry ⟨List.mem_cons_self .., by decide⟩ ?_, trivial⟩
  · simp [memoryPast, JobCall.toCall]
  · simp [JobCall.time]
  · simp [JobCall.time]

/-- The retry names the time at which the job was to run anyway. -/
theorem job_stores_agree_on_last_attempt : ∃ past stores,
    History answer (fun stores past call => Admissible stores past call ∧ Agreeable stores call) (empty 2) past stores ∧
      past.map (·.1) = lastAttempt 0 ∧ (past.map (·.2.2)).getLast? = some (.settled (.ok (.terminated "late"))) ∧
      stores.table.get "j" = .ok (stores.memory.get "j") := by
  obtain ⟨first, second, third, -⟩ := lastAttempt_permitted 0
  have permitted : History.Permitted answer (fun stores past call => Admissible stores past call ∧ Agreeable stores call) []
      (empty 2) (lastAttempt 0) := by
    refine ⟨⟨first, trivial⟩, ⟨second, trivial⟩, ⟨third, fun sanitized item _ valid _ => ?_⟩, trivial⟩
    cases valid
    rfl
  have run := History.ofInputs permitted
  exact ⟨_, _, run, rfl, rfl, (job_stores_agree run).2 "j"⟩

/-- The table takes the run time of the retry that ends the job; the in-memory store keeps the old one. -/
theorem job_stores_disagree_on_last_attempt : ∃ past stores,
    History answer (fun stores past call => Admissible stores past call) (empty 2) past stores ∧
      past.map (·.1) = lastAttempt 30 ∧ (stores.memory.get "j").map (·.runAt) = some 0 ∧
      (stores.table.get "j").map (Option.map (·.runAt)) = .ok (some 30) ∧
      ¬∀ jobId, stores.table.get jobId = .ok (stores.memory.get jobId) := by
  refine ⟨_, _, History.ofInputs (lastAttempt_permitted 30), rfl, rfl, rfl, fun same => ?_⟩
  have here := congrArg (Except.map (Option.map (·.runAt))) (same "j")
  cases here

end JobStores

end Pytitect
