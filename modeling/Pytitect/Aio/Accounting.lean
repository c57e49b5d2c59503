import Mathlib.Data.List.Perm.Basic
import Pytitect.Aio.Relay

namespace Pytitect

/-- The settlements that may follow a publication. -/
inductive Publication.Leads : Publication → RelaySettlement → Prop
  | confirmed {transportId : String} {named : transportId ≠ ""} : Leads (.returned (.confirmed transportId named)) .delivered
  | retried {reason : String} {retryAfter : Option Int} {named : reason ≠ ""} (availableAt : Int) :
      Leads (.returned (.retryable reason retryAfter named)) (.retry availableAt)
  | deferred {reason : String} {retryAfter : Option Int} {named : reason ≠ ""} (availableAt : Int) :
      Leads (.returned (.retryable reason retryAfter named)) (.defer availableAt)
  | exhausted {reason : String} {retryAfter : Option Int} {named : reason ≠ ""} :
      Leads (.returned (.retryable reason retryAfter named)) (.failed reason)
  | rejected {reason : String} {named : reason ≠ ""} : Leads (.returned (.rejected reason named)) (.failed reason)
  | uncertain {reason : String} : Leads (.returned (.uncertain reason)) (.uncertain reason)
  | transport {exception : String} : Leads (.transport exception) (.uncertain exception)

variable {P : Type}

def RelayWorker.held : RelayWorker P → List (OutboxClaim P)
  | .publishing claim => [claim]
  | .settling claim _ _ => [claim]
  | .raised claim _ => [claim]
  | _ => []

def RelayAct.claim : RelayAct P → OutboxClaim P
  | .published claim _ => claim
  | .settled claim _ _ => claim

namespace RelayRound
variable {claimed : Nat} {iterator : List (OutboxClaim P)} {workers rest : List (RelayWorker P)} {worker next : RelayWorker P}
  {counters more : RelayCounters} {log : List (RelayAct P)} {claim : OutboxClaim P} {act : RelayAct P} {messageId : OpaqueId}

/-- What the round has done about one message. -/
def about (messageId : OpaqueId) (log : List (RelayAct P)) : List (RelayAct P) := log.filter (·.claim.envelope.messageId = messageId)

theorem about_mine (log : List (RelayAct P)) (act : RelayAct P) :
    about act.claim.envelope.messageId (log ++ [act]) = about act.claim.envelope.messageId log ++ [act] := by
  simp [about]

theorem about_other (log : List (RelayAct P)) (other : act.claim.envelope.messageId ≠ messageId) :
    about messageId (log ++ [act]) = about messageId log := by
  simp [about, other]

/-- All that a round may do about one message. -/
inductive Trace : List (RelayAct P) → Prop
  | nothing : Trace []
  | deferred (claim : OutboxClaim P) (availableAt : Int) (result : Except PyError SettlementResult) :
      Trace [.settled claim (.defer availableAt) result]
  | published (claim : OutboxClaim P) (publication : Publication) : Trace [.published claim publication]
  | settled (claim : OutboxClaim P) (publication : Publication) (settlement : RelaySettlement) (result : Except PyError SettlementResult) :
      publication.Leads settlement → Trace [.published claim publication, .settled claim settlement result]

/-- What a worker knows about the claim in its hands. -/
def Stage (log : List (RelayAct P)) : RelayWorker P → Prop
  | .publishing claim => about claim.envelope.messageId log = []
  | .settling claim settlement _ =>
    (about claim.envelope.messageId log = [] ∧ ∃ availableAt, settlement = .defer availableAt) ∨
      ∃ publication, about claim.envelope.messageId log = [.published claim publication] ∧ publication.Leads settlement
  | _ => True

/-- Every claim is waiting, in the hands of one worker, or counted. -/
structure Accounted (claimed : Nat) (iterator : List (OutboxClaim P)) (workers : List (RelayWorker P)) (counters : RelayCounters)
    (log : List (RelayAct P)) : Prop where
  distinct : ((iterator ++ workers.flatMap RelayWorker.held).map (·.envelope.messageId)).Nodup
  waiting : ∀ claim ∈ iterator, about claim.envelope.messageId log = []
  stages : ∀ worker ∈ workers, Stage log worker
  traces : ∀ messageId, Trace (about messageId log)
  counted : counters.total + (workers.flatMap RelayWorker.held).length + iterator.length = claimed
  ended : .finished ∈ workers → iterator = []

theorem Accounted.perm {others : List (RelayWorker P)} (accounted : Accounted claimed iterator workers counters log)
    (perm : workers.Perm others) : Accounted claimed iterator others counters log where
  distinct := (((perm.flatMap_right _).append_left iterator).map _).nodup_iff.mp accounted.distinct
  waiting := accounted.waiting
  stages := fun worker member => accounted.stages worker (perm.mem_iff.mpr member)
  traces := accounted.traces
  counted := by
    rw [← (perm.flatMap_right RelayWorker.held).length_eq]
    exact accounted.counted
  ended := fun member => accounted.ended (perm.mem_iff.mpr member)

/-- A worker finds the iterator at its end. -/
theorem Accounted.finishes (accounted : Accounted claimed [] (.idle :: rest) counters log) :
    Accounted claimed [] (.finished :: rest) counters log where
  distinct := accounted.distinct
  waiting := accounted.waiting
  stages := by
    rintro worker member
    rcases List.mem_cons.mp member with rfl | later
    · trivial
    · exact accounted.stages worker (List.mem_cons_of_mem _ later)
  traces := accounted.traces
  counted := accounted.counted
  ended := fun _ => rfl

/-- A worker takes the next claim and drops it as stale. -/
theorem Accounted.drops (accounted : Accounted claimed (claim :: iterator) (.idle :: rest) counters log)
    (one : more.total = counters.total + 1) : Accounted claimed iterator (.idle :: rest) more log where
  distinct := by
    have distinct := accounted.distinct
    rw [List.cons_append, List.map_cons] at distinct
    exact (List.nodup_cons.mp distinct).2
  waiting := fun other member => accounted.waiting other (List.mem_cons_of_mem _ member)
  stages := accounted.stages
  traces := accounted.traces
  counted := by
    have counted := accounted.counted
    rw [List.length_cons] at counted
    omega
  ended := fun member => nomatch accounted.ended member

/-- A worker takes the next claim into its hands. -/
theorem Accounted.takes (accounted : Accounted claimed (claim :: iterator) (.idle :: rest) counters log) (holds : next.held = [claim])
    (stage : Stage log next) : Accounted claimed iterator (next :: rest) counters log where
  distinct := by
    have distinct := accounted.distinct
    have moved : (iterator ++ (next :: rest).flatMap RelayWorker.held).Perm
        (claim :: iterator ++ (RelayWorker.idle :: rest).flatMap RelayWorker.held) := by
      rw [List.flatMap_cons, List.flatMap_cons, holds]
      exact List.perm_middle
    exact (moved.map _).nodup_iff.mpr distinct
  waiting := fun other member => accounted.waiting other (List.mem_cons_of_mem _ member)
  stages := by
    rintro worker member
    rcases List.mem_cons.mp member with rfl | later
    · exact stage
    · exact accounted.stages worker (List.mem_cons_of_mem _ later)
  traces := accounted.traces
  counted := by
    have counted := accounted.counted
    rw [List.flatMap_cons, List.length_append, List.length_cons] at counted
    rw [List.flatMap_cons, List.length_append, holds]
    simp only [RelayWorker.held, List.length_nil, List.length_singleton] at counted ⊢
    omega
  ended := fun member => by
    rcases List.mem_cons.mp member with rfl | later
    · cases holds
    · exact nomatch accounted.ended (List.mem_cons_of_mem _ later)

/-- A worker acts on the claim in its hands, and keeps it or counts it. -/
theorem Accounted.acts (accounted : Accounted claimed iterator (worker :: rest) counters log) (act : RelayAct P) (next : RelayWorker P)
    (holds : worker.held = [act.claim]) (kept : next.held = [act.claim] ∧ more.total = counters.total ∨ next = .idle ∧ more.total = counters.total + 1)
    (stage : Stage (log ++ [act]) next) (trace : Trace (about act.claim.envelope.messageId (log ++ [act]))) :
    Accounted claimed iterator (next :: rest) more (log ++ [act]) := by
  have distinct := accounted.distinct
  have moved : (iterator ++ (worker :: rest).flatMap RelayWorker.held).Perm
      (act.claim :: (iterator ++ rest.flatMap RelayWorker.held)) := by
    rw [List.flatMap_cons, holds]
    exact List.perm_middle
  rw [(moved.map _).nodup_iff, List.map_cons, List.nodup_cons] at distinct
  obtain ⟨mine, others⟩ := distinct
  -- Nobody else has a claim for this message, and it does not wait either.
  have apart : ∀ claim ∈ iterator ++ rest.flatMap RelayWorker.held, act.claim.envelope.messageId ≠ claim.envelope.messageId :=
    fun claim member same => mine (List.mem_map.mpr ⟨claim, member, same.symm⟩)
  constructor
  · rcases kept with ⟨same, -⟩ | ⟨rfl, -⟩
    · have back : (iterator ++ (next :: rest).flatMap RelayWorker.held).Perm (act.claim :: (iterator ++ rest.flatMap RelayWorker.held)) := by
        rw [List.flatMap_cons, same]
        exact List.perm_middle
      rw [(back.map _).nodup_iff, List.map_cons, List.nodup_cons]
      exact ⟨mine, others⟩
    · exact others
  · intro claim member
    rw [about_other log (apart claim (List.mem_append_left _ member))]
    exact accounted.waiting claim member
  · intro other member
    rcases List.mem_cons.mp member with rfl | later
    · exact stage
    have before := accounted.stages other (List.mem_cons_of_mem _ later)
    have among : ∀ claim ∈ other.held, claim ∈ iterator ++ rest.flatMap RelayWorker.held := fun claim inHeld =>
      List.mem_append_right _ (List.mem_flatMap.mpr ⟨other, later, inHeld⟩)
    cases other with
    | publishing claim =>
      simp only [Stage] at before ⊢
      rw [about_other log (apart claim (among claim (List.mem_singleton_self _)))]
      exact before
    | settling claim settlement at_ =>
      simp only [Stage] at before ⊢
      rw [about_other log (apart claim (among claim (List.mem_singleton_self _)))]
      exact before
    | _ => trivial
  · intro messageId
    by_cases same : act.claim.envelope.messageId = messageId
    · exact same ▸ trace
    · rw [about_other log same]
      exact accounted.traces messageId
  · have counted := accounted.counted
    rw [List.flatMap_cons, List.length_append, holds, List.length_singleton] at counted
    rw [List.flatMap_cons, List.length_append]
    rcases kept with ⟨same, total⟩ | ⟨rfl, total⟩
    · rw [same, List.length_singleton]
      omega
    · simp only [RelayWorker.held, List.length_nil]
      omega
  · intro member
    rcases List.mem_cons.mp member with rfl | later
    · rcases kept with ⟨same, -⟩ | ⟨other, -⟩
      · cases same
      · cases other
    · exact accounted.ended (List.mem_cons_of_mem _ later)

section Places
variable {i : Nat}

theorem Accounted.first (accounted : Accounted claimed iterator workers counters log) (found : workers[i]? = some worker) :
    Accounted claimed iterator (worker :: workers.eraseIdx i) counters log := by
  obtain ⟨bound, same⟩ := List.getElem?_eq_some_iff.mp found
  exact accounted.perm (same ▸ (List.getElem_cons_eraseIdx_perm bound).symm)

theorem Accounted.back (accounted : Accounted claimed iterator (worker :: workers.eraseIdx i) counters log)
    (found : workers[i]? = some worker) : Accounted claimed iterator workers counters log := by
  obtain ⟨bound, same⟩ := List.getElem?_eq_some_iff.mp found
  exact accounted.perm (same ▸ List.getElem_cons_eraseIdx_perm bound)

theorem Accounted.put (accounted : Accounted claimed iterator (next :: workers.eraseIdx i) counters log)
    (found : workers[i]? = some worker) : Accounted claimed iterator (workers.set i next) counters log :=
  accounted.perm (List.set_perm_cons_eraseIdx (List.getElem?_eq_some_iff.mp found).1 next).symm

end Places

/-- The counters grow by one with each settlement. -/
theorem count_total (counters : RelayCounters) (settlement : RelaySettlement) (result : SettlementResult) :
    (count counters settlement result).total = counters.total + 1 := by
  unfold count
  split
  · simp only [RelayCounters.total]
    omega
  · cases settlement <;> simp only [RelayCounters.total] <;> omega

variable {policy : RetryPolicy} {s : RelayRound P} {i budget left : Nat} {now : Int} {authority open_ late : Bool}
  {delay : Except PyError Int} {settlement : RelaySettlement} {result : PublicationResult} {publication : Publication}

theorem settlementFor_leads (chosen : settlementFor policy claim now delay late budget result = (.ok settlement, left)) :
    (Publication.returned result).Leads settlement := by
  cases result with
  | uncertain reason =>
    cases chosen
    exact .uncertain
  | confirmed transportId named =>
    cases chosen
    exact .confirmed
  | rejected reason named =>
    cases chosen
    exact .rejected
  | retryable reason retryAfter named =>
    simp only [settlementFor] at chosen
    split at chosen
    · split at chosen
      · cases chosen
      · rename_i delay
        generalize schedule policy (claim.envelope.attempt + 1) delay late budget = retry at chosen
        cases due : datetimeAdd now retry.1.1 with
        | error error =>
          rw [due] at chosen
          cases chosen
        | ok availableAt =>
          rw [due] at chosen
          simp only [Except.map, Prod.mk.injEq, Except.ok.injEq] at chosen
          rw [← chosen.1]
          split
          · exact .deferred availableAt
          · exact .retried availableAt
    · cases chosen
      exact .exhausted

/-- A round in which every claim is accounted for. -/
abbrev Counts (claimed : Nat) (s : RelayRound P) : Prop := Accounted claimed s.iterator s.workers s.counters s.log

theorem Counts.taken (counts : Accounted claimed (claim :: s.iterator) s.workers s.counters s.log) (found : s.workers[i]? = some .idle)
    (now : Int) (authority open_ : Bool) : Counts claimed (s.taken i claim now authority open_) := by
  have first := counts.first found
  have fresh := counts.waiting claim List.mem_cons_self
  unfold RelayRound.taken
  split
  · have one : ({ s.counters with stale := s.counters.stale + 1 } : RelayCounters).total = s.counters.total + 1 := by
      simp only [RelayCounters.total]
      omega
    exact (first.drops one).back found
  split
  · have stage : Stage s.log (.settling claim (.defer now) now) := Or.inl ⟨fresh, now, rfl⟩
    exact (first.takes rfl stage).put found
  · have stage : Stage s.log (.publishing claim) := fresh
    exact (first.takes rfl stage).put found

theorem published_once (fresh : about claim.envelope.messageId log = []) (publication : Publication) :
    about claim.envelope.messageId (log ++ [.published claim publication]) = [.published claim publication] := by
  have mine := about_mine log (.published claim publication)
  change about claim.envelope.messageId _ = about claim.envelope.messageId _ ++ _ at mine
  rw [mine, fresh, List.nil_append]

theorem published_trace (fresh : about claim.envelope.messageId log = []) (publication : Publication) :
    Trace (about claim.envelope.messageId (log ++ [.published claim publication])) := by
  rw [published_once fresh]
  exact .published claim publication

/-- A publication ends: the claim is stale, goes on to the settlement that follows, or raises. -/
theorem Counts.published (counts : Counts claimed s) (found : s.workers[i]? = some (.publishing claim))
    (leads : ∀ settlement left, settlementFor policy claim now delay late s.budget result = (.ok settlement, left) →
      publication.Leads settlement) :
    Counts claimed (publishedAs { s with log := s.log ++ [.published claim publication] } policy i claim result now authority delay late) := by
  have first := counts.first found
  have fresh : about claim.envelope.messageId s.log = [] := first.stages _ List.mem_cons_self
  have trace := published_trace fresh publication
  unfold publishedAs
  split
  · have one : ({ s.counters with stale := s.counters.stale + 1 } : RelayCounters).total = s.counters.total + 1 := by
      simp only [RelayCounters.total]
      omega
    exact (first.acts (.published claim publication) .idle rfl (Or.inr ⟨rfl, one⟩) trivial trace).put found
  dsimp only
  split
  · rename_i error _ _
    exact (first.acts (.published claim publication) (.raised claim error) rfl (Or.inl ⟨rfl, rfl⟩) trivial trace).put found
  · rename_i settlement left chosen
    have stage : Stage (s.log ++ [.published claim publication]) (.settling claim settlement now) :=
      Or.inr ⟨publication, published_once fresh publication, leads settlement left chosen⟩
    exact (first.acts (.published claim publication) _ rfl (Or.inl ⟨rfl, rfl⟩) stage trace).put found

/-- A settlement is the last that the round does with a claim. -/
theorem settled_trace (stage : Stage log (.settling claim settlement now)) (result : Except PyError SettlementResult) :
    Trace (about claim.envelope.messageId (log ++ [.settled claim settlement result])) := by
  have mine := about_mine log (.settled claim settlement result)
  change about claim.envelope.messageId _ = about claim.envelope.messageId _ ++ _ at mine
  rw [mine]
  rcases stage with ⟨fresh, availableAt, rfl⟩ | ⟨publication, once, leads⟩
  · rw [fresh]
    exact .deferred claim availableAt result
  · rw [once]
    exact .settled claim publication settlement result leads

theorem Counts.step (counts : Counts claimed s) (input : Input P) : Counts claimed (step policy s input) := by
  cases input with
  | outside call => exact counts
  | spend budget => exact counts
  | take i now authority open_ =>
    unfold RelayRound.step
    dsimp only
    split
    · rename_i found
      split
      · rename_i ended
        unfold Counts at counts
        rw [ended] at counts
        have finished := (counts.first found).finishes.put found
        change Accounted claimed s.iterator _ _ _
        rw [ended]
        exact finished
      · rename_i claim rest next
        unfold Counts at counts
        rw [next] at counts
        exact Counts.taken (s := { s with iterator := rest }) counts found now authority open_
    · exact counts
  | publish i publication now authority delay late =>
    unfold RelayRound.step
    dsimp only
    split
    · rename_i claim found
      cases publication with
      | raised error =>
        have first := counts.first found
        have fresh : about claim.envelope.messageId s.log = [] := first.stages _ List.mem_cons_self
        exact (first.acts (.published claim (.raised error)) (.raised claim error) rfl (Or.inl ⟨rfl, rfl⟩) trivial
          (published_trace fresh _)).put found
      | transport exception =>
        refine counts.published found fun settlement left chosen => ?_
        cases chosen
        exact .transport
      | returned result => exact counts.published found fun _ _ chosen => settlementFor_leads chosen
    · exact counts
  | settle i =>
    unfold RelayRound.step
    dsimp only
    split
    · rename_i claim settlement at_ found
      have first := counts.first found
      have trace := settled_trace (first.stages _ List.mem_cons_self)
      split
      · rename_i error raised
        rw [raised]
        exact (first.acts (.settled claim settlement (.error error)) (.raised claim error) rfl (Or.inl ⟨rfl, rfl⟩) trivial
          (trace _)).put found
      · rename_i result returned
        rw [returned]
        exact (first.acts (.settled claim settlement (.ok result)) .idle rfl (Or.inr ⟨rfl, count_total ..⟩) trivial (trace _)).put found
    · exact counts

/-- Workers neither come nor go. -/
theorem step_crew (policy : RetryPolicy) (s : RelayRound P) (input : Input P) :
    (RelayRound.step policy s input).workers.length = s.workers.length := by
  have published (t : RelayRound P) (i : Nat) (claim : OutboxClaim P) (result : PublicationResult) (now : Int) (authority : Bool)
      (delay : Except PyError Int) (late : Bool) :
      (t.publishedAs policy i claim result now authority delay late).workers.length = t.workers.length := by
    unfold publishedAs
    split
    · exact List.length_set
    split
    · exact List.length_set
    · exact List.length_set
  cases input with
  | outside call => rfl
  | spend budget => rfl
  | take i now authority open_ =>
    unfold RelayRound.step
    dsimp only
    split
    · split
      · exact List.length_set
      unfold RelayRound.taken
      split
      · rfl
      split
      · exact List.length_set
      · exact List.length_set
    · rfl
  | publish i publication now authority delay late =>
    unfold RelayRound.step
    dsimp only
    split
    · cases publication with
      | raised error => exact List.length_set
      | transport exception => exact published ..
      | returned result => exact published ..
    · rfl
  | settle i =>
    unfold RelayRound.step
    dsimp only
    split
    · split
      · exact List.length_set
      · exact List.length_set
    · rfl

theorem Counts.start {claims : List (OutboxClaim P)} (separate : (claims.map (·.envelope.messageId)).Nodup)
    (store : AsyncOutboxStore P) (budget concurrency : Nat) : Counts claims.length (start store budget concurrency claims) := by
  have idle : ∀ n, (List.replicate n (RelayWorker.idle : RelayWorker P)).flatMap RelayWorker.held = [] := by
    intro n
    simp [RelayWorker.held]
  constructor
  · change ((claims ++ (List.replicate _ RelayWorker.idle).flatMap _).map _).Nodup
    rw [idle, List.append_nil]
    exact separate
  · exact fun _ _ => rfl
  · intro worker member
    rw [List.eq_of_mem_replicate member]
    trivial
  · exact fun _ => .nothing
  · change 0 + ((List.replicate _ RelayWorker.idle).flatMap _).length + claims.length = claims.length
    rw [idle, List.length_nil]
    omega
  · intro member
    cases List.eq_of_mem_replicate member

theorem Counts.run {init : RelayRound P} (counts : Counts claimed init) (run : Run policy init s) :
    Counts claimed s ∧ s.workers.length = init.workers.length := by
  induction run with
  | start => exact ⟨counts, rfl⟩
  | next input _ ih => exact ⟨ih.1.step input, (step_crew policy _ input).trans ih.2⟩

/-- A round that has returned has counted all its claims. -/
theorem Counts.returned (counts : Counts claimed s) (crew : 0 < claimed → 0 < s.workers.length) (returned : Returned s) :
    s.counters.total = claimed := by
  have counted := counts.counted
  have none_ : s.workers.flatMap RelayWorker.held = [] := by
    refine List.flatMap_eq_nil_iff.mpr fun worker member => ?_
    rw [returned worker member]
    rfl
  rw [none_, List.length_nil] at counted
  rcases Nat.eq_zero_or_pos claimed with rfl | some_
  · omega
  · obtain ⟨worker, member⟩ := List.length_pos_iff_exists_mem.mp (crew some_)
    have ended := counts.ended (returned worker member ▸ member)
    rw [ended, List.length_nil] at counted
    omega

/-- The publications among what a round has done. -/
def publications (log : List (RelayAct P)) : List Publication := log.filterMap fun
  | .published _ publication => some publication
  | .settled _ _ _ => none

theorem Trace.published_once (trace : Trace log) : (publications log).length ≤ 1 := by
  cases trace with
  | nothing => exact Nat.zero_le _
  | deferred => exact Nat.zero_le _
  | published => exact Nat.le_refl _
  | settled => exact Nat.le_refl _

/-- What comes before a settlement in a trace, and all that comes with it. -/
theorem Trace.around {before after : List (RelayAct P)} {outcome : Except PyError SettlementResult}
    (trace : Trace (before ++ .settled claim settlement outcome :: after)) :
    after = [] ∧ (before = [] ∧ (∃ availableAt, settlement = .defer availableAt) ∨
      ∃ publication, before = [.published claim publication] ∧ publication.Leads settlement) := by
  generalize whole : before ++ .settled claim settlement outcome :: after = log at trace
  cases trace with
  | nothing => simp at whole
  | deferred other availableAt result =>
    obtain ⟨rfl, same⟩ := List.append_eq_singleton_iff.mp whole |>.resolve_right (by simp)
    cases same
    exact ⟨rfl, Or.inl ⟨rfl, availableAt, rfl⟩⟩
  | published other publication =>
    cases before with
    | nil => cases whole
    | cons first rest => simp at whole
  | settled other publication final result leads =>
    cases before with
    | nil => cases whole
    | cons first rest =>
      cases rest with
      | nil =>
        cases whole
        exact ⟨rfl, Or.inr ⟨publication, rfl, leads⟩⟩
      | cons second rest => simp at whole

theorem about_split (before after : List (RelayAct P)) (act : RelayAct P) :
    about act.claim.envelope.messageId (before ++ act :: after) =
      about act.claim.envelope.messageId before ++ act :: about act.claim.envelope.messageId after := by
  simp [about]

/-- What a trace tells about each settlement: the acts on the same message are what came before it, and it. -/
theorem Accounted.around {before after : List (RelayAct P)} {outcome : Except PyError SettlementResult}
    (accounted : Accounted claimed iterator workers counters log) (split : log = before ++ .settled claim settlement outcome :: after) :
    about claim.envelope.messageId log = about claim.envelope.messageId before ++ [.settled claim settlement outcome] ∧
      (about claim.envelope.messageId before = [] ∧ (∃ availableAt, settlement = .defer availableAt) ∨
        ∃ publication, about claim.envelope.messageId before = [.published claim publication] ∧ publication.Leads settlement) := by
  have trace := accounted.traces claim.envelope.messageId
  have whole := about_split before after (.settled claim settlement outcome)
  change about claim.envelope.messageId _ = about claim.envelope.messageId before ++ _ :: about claim.envelope.messageId after at whole
  rw [split, whole] at trace
  obtain ⟨none_, cases_⟩ := trace.around
  rw [split, whole, none_]
  exact ⟨rfl, cases_⟩

end RelayRound

/-- Nobody knows whether the message was sent. -/
def Publication.Unknown : Publication → Prop
  | .returned (.uncertain _) => True
  | .transport _ => True
  | _ => False

theorem Publication.Leads.uncertain_of {publication : Publication} {settlement : RelaySettlement} (leads : publication.Leads settlement)
    (unknown : publication.Unknown) : ∃ reason, settlement = .uncertain reason := by
  cases leads with
  | uncertain => exact ⟨_, rfl⟩
  | transport => exact ⟨_, rfl⟩
  | _ => exact absurd unknown id

namespace RelayRound

/-- A round accounts for every claim: its counters add up to what it claimed when it returns; it publishes a message at
most once, records as delivered only what the publisher confirmed, and does nothing but record it with a message that
may or may not have been sent. -/
theorem relay_accounts {capacity : Nat} {past : List (AsyncOutboxStore.Call P × AsyncOutboxStore.Answer P)} {store : AsyncOutboxStore P}
    {size : P → Except PyError Int} {now limit claimTtl : Int} {maxBytes : Option Int} {claimIds : Nat → Uuid}
    {claims : List (OutboxClaim P)} {policy : RetryPolicy} {budget concurrency : Nat} {s : RelayRound P}
    (history : AsyncOutboxStore.Run capacity past store)
    (fresh : AsyncOutboxStore.Fresh past (.claim size now limit claimTtl maxBytes claimIds))
    (claimed : (store.claim size now limit claimTtl maxBytes claimIds).1 = .ok claims) (positive : 0 < concurrency)
    (run : Run policy (start (store.claim size now limit claimTtl maxBytes claimIds).2 budget concurrency claims) s) :
    (Returned s → s.counters.total = claims.length) ∧
    (∀ messageId, (publications (about messageId s.log)).length ≤ 1) ∧
    (∀ before after claim result, s.log = before ++ .settled claim .delivered result :: after →
      ∃ transportId named, .published claim (.returned (.confirmed transportId named)) ∈ before) ∧
    ∀ claim publication settlement result, .published claim publication ∈ s.log → publication.Unknown →
      .settled claim settlement result ∈ s.log → ∃ reason, settlement = .uncertain reason := by
  have agrees := AsyncOutboxStore.Agrees.run history
  obtain ⟨injective, unused⟩ := fresh.supply _ _ _ _ _ _ rfl
  have separate := ((AsyncOutboxStore.claim_served agrees.sound agrees.retained injective unused).holds claims claimed).separate
  obtain ⟨counts, crew⟩ := (Counts.start separate _ budget concurrency).run run
  have workers : 0 < claims.length → 0 < s.workers.length := by
    intro some_
    rw [crew, start, List.length_replicate]
    omega
  refine ⟨counts.returned workers, fun messageId => (counts.traces messageId).published_once, fun before after claim result split => ?_,
    fun claim publication settlement result published unknown settled => ?_⟩
  · obtain ⟨-, ⟨-, availableAt, other⟩ | ⟨publication, acts, leads⟩⟩ := counts.around split
    · cases other
    · cases leads with
      | confirmed => exact ⟨_, _, List.mem_of_mem_filter (acts ▸ List.mem_singleton_self _)⟩
  · obtain ⟨before, after, split⟩ := List.append_of_mem settled
    obtain ⟨whole, cases_⟩ := counts.around split
    have mine : .published claim publication ∈ about claim.envelope.messageId s.log := by
      refine List.mem_filter.mpr ⟨published, ?_⟩
      simp [RelayAct.claim]
    rw [whole] at mine
    rcases cases_ with ⟨none_, -⟩ | ⟨other, acts, leads⟩
    · rw [none_] at mine
      cases List.mem_singleton.mp mine
    · rw [acts] at mine
      rcases List.mem_cons.mp mine with same | last
      · cases same
        exact leads.uncertain_of unknown
      · cases List.mem_singleton.mp last

def play (policy : RetryPolicy) (s : RelayRound P) (inputs : List (Input P)) : RelayRound P := inputs.foldl (RelayRound.step policy) s

theorem run_play {policy : RetryPolicy} {init s : RelayRound P} (run : Run policy init s) (inputs : List (Input P)) :
    Run policy init (play policy s inputs) := by
  induction inputs generalizing s with
  | nil => exact run
  | cons input rest ih => exact ih (run.next input)

def sampleCalls : List (AsyncOutboxStore.Call Unit) :=
  [.add (OutboxStore.sampleEnvelope "m1" (by decide) 0), .add (OutboxStore.sampleEnvelope "m2" (by decide) 0)]

/-- One publication is confirmed and the other is lost in transport. -/
def sampleInputs : List (Input Unit) :=
  [.take 0 1 true true, .take 1 1 true true, .publish 1 (.transport "TimeoutError") 2 true (.ok 5) false,
    .publish 0 (.returned (.confirmed "t" Sample.topic_named)) 2 true (.ok 5) false, .settle 0, .settle 1, .take 1 3 true true,
    .take 0 3 true true]

def sampleStore : AsyncOutboxStore Unit := History.after AsyncOutboxStore.answer (.empty 9) sampleCalls

theorem sampleStore_run :
    AsyncOutboxStore.Run 9 (History.transcript AsyncOutboxStore.answer (.empty 9) sampleCalls) sampleStore := by
  have fresh : ∀ past (envelope : OutboxEnvelope Unit), AsyncOutboxStore.Fresh past (.add envelope) := fun _ _ =>
    ⟨fun _ _ _ _ _ _ other => (nomatch other), fun _ _ other => (nomatch other)⟩
  exact History.ofInputs ⟨fresh _ _, fresh _ _, trivial⟩

def sampleClaims : List (OutboxClaim Unit) := OutboxStore.handed (Uuid.series 'a') 10 (sampleStore.certain.ready 0 5)

def sampleStart : RelayRound Unit := start (sampleStore.claim (fun _ => .ok 1) 0 5 10 none (Uuid.series 'a')).2 3 2 sampleClaims

theorem sample_accounts :
    ∃ round : RelayRound Unit, Run .sample sampleStart round ∧ round.counters.delivered = 1 ∧
      round.counters.uncertain = 1 ∧ round.counters.total = sampleClaims.length := by
  have run : Run .sample sampleStart (play .sample sampleStart sampleInputs) := run_play .start sampleInputs
  have unused : ∀ i, ¬AsyncOutboxStore.Drawn (History.transcript AsyncOutboxStore.answer (.empty 9) sampleCalls) (Uuid.series 'a' i) := by
    rintro i ⟨event, member, size, now, limit, claimTtl, maxBytes, claimIds, j, same, -⟩
    have isCall := History.mem_transcript member
    rw [same] at isCall
    simp [sampleCalls] at isCall
  have accounts := relay_accounts sampleStore_run (AsyncOutboxStore.fresh_claim (Uuid.series_injective 'a') unused) rfl (by decide) run
  refine ⟨_, run, rfl, rfl, accounts.1 fun worker member => ?_⟩
  have workers : (play .sample sampleStart sampleInputs).workers = [.finished, .finished] := rfl
  rw [workers] at member
  simpa using member

end RelayRound

end Pytitect
