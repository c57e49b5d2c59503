import Pytitect.Processes.TimerFencing
import Pytitect.Processes.Updates
import Pytitect.SqlAlchemy.Decisions

namespace Pytitect

/-- A call of the process store in a transaction. -/
inductive ProcessCall
  | load (key : ProcessKey)
  | apply (key : ProcessKey) (expectedVersion : Int) (decision : ProcessDecision) (at_ : Int)
  | applyMessage (key : ProcessKey) (expectedVersion : Int) (decision : ProcessDecision) (identity : InboxIdentity) (token : Uuid)
    (ttl beginAt applyAt completeAt clock : Int)
  | claimTimers (now limit claimTtl : Int) (claimIds : Nat → Uuid)
  | completeTimer (claim : ProcessTimerClaim) (at_ selectClock updateClock : Int)

/-- What a call has answered, with the arguments that the answer is about. -/
inductive ProcessAnswer
  | loaded (key : ProcessKey) (state : Option ProcessState)
  | applied (key : ProcessKey) (decision : ProcessDecision) (result : ProcessApplyResult)
  | message (key : ProcessKey) (decision : ProcessDecision) (identity : InboxIdentity) (result : MessageResult)
  | claimed (claims : List ProcessTimerClaim)
  | completed (claim : ProcessTimerClaim) (completed : Bool)

def ProcessAnswer.isDuplicate : ProcessAnswer → Bool
  | .message _ _ _ (.inbox (.duplicate _)) => true
  | _ => false

def ProcessCall.task (i : Nat) : ProcessCall → WorkflowTask ProcessAnswer
  | .load key => .loaded key <$> ProcessStatements.load i key
  | .apply key expectedVersion decision at_ =>
    .applied key decision <$> ProcessStatements.apply i key expectedVersion decision none at_
  | .applyMessage key expectedVersion decision identity token ttl beginAt applyAt completeAt clock =>
    .message key decision identity <$>
      ProcessStatements.applyMessage i key expectedVersion decision identity token ttl beginAt applyAt completeAt clock
  | .claimTimers now limit claimTtl claimIds => .claimed <$> ProcessStatements.claimTimers i now limit claimTtl claimIds
  | .completeTimer claim at_ selectClock updateClock =>
    .completed claim <$> ProcessStatements.completeTimer i claim at_ selectClock updateClock

namespace WorkflowTables
open RowLocks
variable {i : Nat}

def empty : WorkflowTables := ⟨.empty, .empty, .empty, .empty, .empty, .empty, .empty, .empty⟩

theorem good_empty : Good none empty where
  processes := fun _ _ => ⟨rfl, rfl, fun _ _ found => by cases found⟩
  timers := fun _ _ => ⟨Or.inl rfl, rfl, fun _ found => (by cases found), fun _ found => (by cases found)⟩
  messages := fun _ _ found => by cases found
  handled := fun _ _ _ _ found => by cases found

/-- The sessions start on empty tables. -/
abbrev start (script : Nat → List (List ProcessCall)) : Sessions WorkflowTables WorkflowWrite WorkflowRow PyError ProcessAnswer :=
  Sessions.start WorkflowWrite.apply empty ProcessCall.task script

/-- A stored process shows its last decision. -/
theorem Good.shown {tables : WorkflowTables} (good : Good none tables) (key : ProcessKey) :
    Shown key ((tables.processes.get? key).bind (·.processState key)) tables := by
  intro state found
  obtain ⟨row, isRow, shows⟩ := Option.bind_eq_some_iff.mp found
  have consistent := good.processes key (by simp)
  unfold ProcessRow.processState at shows
  split at shows
  · rename_i positive
    cases shows
    have counted : row.version = (tables.process key).decisions.length := by
      rw [← consistent.counted, show (tables.process key).row = some row from isRow]
      rfl
    have inside : row.version - 1 < (tables.process key).decisions.length := by omega
    have last : (tables.process key).decisions.getLast? = some ((tables.process key).decisions[row.version - 1]) := by
      rw [List.getLast?_eq_getElem?, ← counted]
      exact List.getElem?_eq_getElem inside
    exact ⟨_, List.getElem?_eq_getElem inside, consistent.last row _ isRow last⟩
  · cases shows

theorem load_establishes {key : ProcessKey} :
    Establishes discipline i (fun state tables => Shown key state tables) (ProcessStatements.load i key) := by
  intro frame lasting d _ known
  have trivially : Stays discipline i fun _ => True := Stays.const True
  have loaded : (protocol discipline).Safe i
      (Ends fun state d => True ∧ (Good none (d.view WorkflowWrite.apply i) ∧ frame (d.view WorkflowWrite.apply i)) ∧
        Shown key state (d.view WorkflowWrite.apply i)) (ProcessStatements.load i key) d :=
    safe_query_beside (enduring_open none lasting) (fun state => (lasting_shown key state).enduring) trivially
      (fun _ open_ => open_.1.shown key) ⟨trivial, known⟩
  exact safe_weaken loaded fun _ _ known => known.2

/-- The answer is true of the tables. -/
def Told (tables : WorkflowTables) : ProcessAnswer → Prop
  | .loaded key state => Shown key state tables
  | .applied key decision result => Applies key decision none tables result
  | .message key decision identity result => AppliesMessage key decision identity tables result
  | .claimed claims => ∀ claim ∈ claims, Claimed claim tables
  | .completed claim completed => completed = true → Fired claim tables

theorem lasting_told (answer : ProcessAnswer) : Lasting discipline fun tables => Told tables answer := by
  cases answer with
  | loaded key state => exact lasting_shown key state
  | applied key decision result => exact lasting_applies result
  | message key decision identity result => exact lasting_appliesMessage result
  | claimed claims => exact Lasting.forall fun claim => Lasting.forall fun _ => lasting_claimed claim
  | completed claim completed => exact Lasting.forall fun _ => lasting_fired claim

theorem call_establishes (call : ProcessCall) : Establishes discipline i (fun answer tables => Told tables answer) (call.task i) := by
  cases call with
  | load key => exact load_establishes.map (fun _ => lasting_told _) fun _ _ holds => holds
  | apply key expectedVersion decision at_ => exact apply_establishes.map (fun _ => lasting_told _) fun _ _ holds => holds
  | applyMessage key expectedVersion decision identity token ttl beginAt applyAt completeAt clock =>
    exact applyMessage_establishes.map (fun _ => lasting_told _) fun _ _ holds => holds
  | claimTimers now limit claimTtl claimIds => exact claimTimers_establishes.map (fun _ => lasting_told _) fun _ _ holds => holds
  | completeTimer claim at_ selectClock updateClock =>
    exact completeTimer_establishes.map (fun _ => lasting_told _) fun _ _ holds => holds

/-- The message has led to the decision that brought the process to the version. -/
def Led (tables : WorkflowTables) (identity : InboxIdentity) (place : ProcessKey × Nat) : Prop :=
  ∃ index applied, place.2 = index + 1 ∧ (tables.process place.1).decisions[index]? = some applied ∧ applied.message = some identity

/-- Whatever sessions do to the process store, statement by statement and with failures in between,
every process is what its decisions have made of it, with their effects saved once each. A
message has led to one decision at most and is completed then. Processes, timers and messages
only move on, and what the store has answered in confirmed transactions stays true. -/
theorem process_stores_safe {script : Nat → List (List ProcessCall)}
    {s t : Sessions WorkflowTables WorkflowWrite WorkflowRow PyError ProcessAnswer}
    (reached : Relation.ReflTransGen Sessions.Step (start script) s) (later : Relation.ReflTransGen Sessions.Step s t) :
    (∀ key, (s.shared.committed.process key).Consistent ∧
      ProcessPart.Grows (s.shared.committed.process key) (t.shared.committed.process key)) ∧
    (∀ identity, (s.shared.committed.timer identity).Consistent identity ∧
      TimerPart.Grows (s.shared.committed.timer identity) (t.shared.committed.timer identity)) ∧
    (∀ identity place, Led s.shared.committed identity place →
      (∃ completedAt, Completed identity completedAt s.shared.committed) ∧
      ∀ other, Led t.shared.committed identity other → other = place) ∧
    ∀ i answers, (s.task i).result? = some (.ok answers) → ∀ answer ∈ answers, Told t.shared.committed answer := by
  have each : ∀ i, ∀ calls ∈ script i, ∀ call ∈ calls, Establishes discipline i (fun answer tables => Told tables answer)
      (ProcessCall.task i call) := fun _ _ _ call _ => call_establishes call
  obtain ⟨good, grown, answered⟩ := Sessions.run_safe good_empty lasting_told each reached later
  obtain ⟨goodLater, -, -⟩ := Sessions.run_safe good_empty lasting_told each (reached.trans later) .refl
  refine ⟨fun key => ⟨good.processes key (by simp), grown (.process key)⟩,
    fun identity => ⟨good.timers identity (by simp), grown (.timer identity)⟩, fun identity place led => ?_, answered⟩
  obtain ⟨index, applied, position, found, isFor⟩ := led
  have handled := good.handled place.1 index applied identity found isFor (by simp)
  refine ⟨?_, fun other ledOther => ?_⟩
  · obtain ⟨entry, completedAt, isEntry, completed⟩ := good.messages identity _ handled
    exact ⟨completedAt, entry, isEntry, completed⟩
  · obtain ⟨indexOther, appliedOther, positionOther, foundOther, isForOther⟩ := ledOther
    have handledOther := goodLater.handled other.1 indexOther appliedOther identity foundOther isForOther (by simp)
    have still : (t.shared.committed.message identity).handled = some (place.1, index + 1) :=
      MessagePart.Grows.handled (grown (.message identity)) _ handled
    rw [← position] at still
    rw [← positionOther, still] at handledOther
    exact (Option.some.inj handledOther).symm

theorem sampleTimers_distinct : ([ProcessManagerStore.sampleTimer "a" Sample.a_named].map (·.timerId)).Nodup := List.nodup_singleton _

/-- A decision with an effect and a timer. -/
def sampleSchedule : ProcessDecision :=
  { ProcessManagerRuntime.sampleDecision with
    schedule := [ProcessManagerStore.sampleTimer "a" Sample.a_named]
    distinctTimers := sampleTimers_distinct
    separate := fun _ _ => List.not_mem_nil }

def sampleMessage : InboxIdentity := ⟨⟨"shop", "customer", "order", Sample.scope_named⟩, ⟨"m", Sample.message_proper⟩⟩

/-- The first claim of the timer. -/
def sampleClaim : ProcessTimerClaim :=
  ⟨⟨ProcessManagerRuntime.sampleKey, "a", 3, (ProcessManagerStore.sampleTimer "a" Sample.a_named).effect, 1⟩, Uuid.series 'a' 0, 15⟩

/-- Two sessions handle one message, and two more complete one timer. -/
def sampleSessions : Nat → List (List ProcessCall)
  | 0 => [[.applyMessage ProcessManagerRuntime.sampleKey 0 sampleSchedule sampleMessage (Uuid.series 'm' 0) 10 0 0 1 1]]
  | 1 => [[.applyMessage ProcessManagerRuntime.sampleKey 1 ProcessManagerRuntime.sampleDecision sampleMessage (Uuid.series 'm' 1) 10 0 0 1 1,
    .load ProcessManagerRuntime.sampleKey]]
  | 2 => [[.claimTimers 5 9 10 (Uuid.series 'a')], [.completeTimer sampleClaim 6 6 6]]
  | 3 => [[.completeTimer sampleClaim 6 6 6]]
  | _ => []

/-- The second session waits for the message, and the last one for the timer. The first commit takes
place although its session is told otherwise. -/
def sampleTurns : List (Nat × RowLocks.Outcome PyError) :=
  List.replicate 2 (0, .done) ++ [(1, .done)] ++ List.replicate 8 (0, .done) ++ [(0, .lost (.runtimeError "")), (0, .done)] ++
    List.replicate 4 (1, .done) ++ List.replicate 6 (2, .done) ++ [(3, .done)] ++ List.replicate 2 (2, .done) ++
    List.replicate 2 (3, .done)

theorem sample_run : Relation.ReflTransGen Sessions.Step (start sampleSessions) ((start sampleSessions).play sampleTurns) :=
  EventLoop.run_of_plays (fun _ _ => true) (fun _ _ _ => trivial) (by decide +kernel)

/-- The second session finds the message completed, though no one was told of its decision. -/
theorem message_is_shared :
    ∃ s, Relation.ReflTransGen Sessions.Step (start sampleSessions) s ∧
      (s.task 0).result?.map (fun result => result.toOption.map (·.length)) = some (some 0) ∧
      (s.task 1).result?.map (fun result => result.toOption.map fun answers => answers.map ProcessAnswer.isDuplicate) =
        some (some [true, false]) ∧
      (s.shared.committed.process ProcessManagerRuntime.sampleKey).decisions.length = 1 ∧
      (s.shared.committed.process ProcessManagerRuntime.sampleKey).Consistent ∧
      ∀ answers, (s.task 1).result? = some (.ok answers) → ∀ answer ∈ answers, Told s.shared.committed answer := by
  obtain ⟨processes, -, -, answered⟩ := process_stores_safe sample_run .refl
  exact ⟨_, sample_run, by decide +kernel, by decide +kernel, by decide +kernel,
    (processes ProcessManagerRuntime.sampleKey).1, answered 1⟩

section Fencing
variable {claim other : ProcessTimerClaim} {tables : WorkflowTables}

/-- No token of a timer is given twice. -/
theorem Claimed.unique (one : Claimed claim tables) (two : Claimed other tables) (same : other.timer.identity = claim.timer.identity)
    (token : other.timer.fencingToken = claim.timer.fencingToken) : other = claim := by
  obtain ⟨stored, found, scheduled⟩ := one.scheduled
  obtain ⟨storedOther, foundOther, scheduledOther⟩ := two.scheduled
  have given := two.given
  rw [same, token, one.given] at given
  rw [same, found] at foundOther
  cases foundOther
  have timers : other.timer = claim.timer := by
    rw [scheduledOther, scheduled, token]
  obtain ⟨timer, claimId, claimedUntil⟩ := claim
  obtain ⟨timerOther, claimIdOther, claimedUntilOther⟩ := other
  cases timers
  cases Option.some.inj given
  rfl

/-- A timer that has ended by a claim is given to no one else. -/
theorem Fired.last_given (fired : Fired claim tables) (given : Claimed other tables) (same : other.timer.identity = claim.timer.identity) :
    other.timer.fencingToken ≤ claim.timer.fencingToken := by
  have found := given.given
  rw [same] at found
  have inside := (List.getElem?_eq_some_iff.mp found).1
  have numbered := fired.numbered
  omega

/-- Two claims that have completed one timer are one claim, and one effect was saved. -/
theorem Fired.unique (one : Fired claim tables) (two : Fired other tables) (same : other.timer.identity = claim.timer.identity) :
    other.claimId = claim.claimId ∧ other.timer.fencingToken = claim.timer.fencingToken ∧ other.timer.effect = claim.timer.effect := by
  have last := two.last
  have numbered := two.numbered
  have effects := two.effects
  rw [same, one.last] at last
  rw [same, one.numbered] at numbered
  rw [same, one.effects] at effects
  exact ⟨(Prod.mk.inj (Option.some.inj last)).1.symm, numbered.symm, (List.cons.inj effects).1.symm⟩

/-- A claim that a session was given by a transaction whose commit was confirmed. -/
def Given (s : Sessions WorkflowTables WorkflowWrite WorkflowRow PyError ProcessAnswer) (claim : ProcessTimerClaim) : Prop :=
  ∃ i answers claims, (s.task i).result? = some (.ok answers) ∧ .claimed claims ∈ answers ∧ claim ∈ claims

/-- A claim that has completed its timer, as such a transaction has answered. -/
def Completes (s : Sessions WorkflowTables WorkflowWrite WorkflowRow PyError ProcessAnswer) (claim : ProcessTimerClaim) : Prop :=
  ∃ i answers, (s.task i).result? = some (.ok answers) ∧ .completed claim true ∈ answers

/-- In any such run no token of a timer is given to two claims. One claim of a timer at most
completes it, and none that is given has a later token. From then on the timer stays as it is, with
the effect of the claim as the only one saved. -/
theorem timers_fenced {script : Nat → List (List ProcessCall)}
    {s t : Sessions WorkflowTables WorkflowWrite WorkflowRow PyError ProcessAnswer}
    (reached : Relation.ReflTransGen Sessions.Step (start script) s) (later : Relation.ReflTransGen Sessions.Step s t) :
    (∀ claim other, Given s claim → Given s other → other.timer.identity = claim.timer.identity →
      other.timer.fencingToken = claim.timer.fencingToken → other = claim) ∧
    ∀ claim, Completes s claim →
      (t.shared.committed.timer claim.timer.identity = s.shared.committed.timer claim.timer.identity ∧
        (t.shared.committed.timer claim.timer.identity).effects = [claim.timer.effect]) ∧
      (∀ other, Given t other → other.timer.identity = claim.timer.identity →
        other.timer.fencingToken ≤ claim.timer.fencingToken) ∧
      ∀ other, Completes t other → other.timer.identity = claim.timer.identity →
        other.claimId = claim.claimId ∧ other.timer.fencingToken = claim.timer.fencingToken := by
  have told : ∀ {u v : Sessions WorkflowTables WorkflowWrite WorkflowRow PyError ProcessAnswer},
      Relation.ReflTransGen Sessions.Step (start script) u → Relation.ReflTransGen Sessions.Step u v →
      (∀ claim, Given u claim → Claimed claim v.shared.committed) ∧ ∀ claim, Completes u claim → Fired claim v.shared.committed := by
    intro u v reached later
    obtain ⟨-, -, answered⟩ := Sessions.run_safe good_empty lasting_told (fun _ _ _ call _ => call_establishes call) reached later
    refine ⟨fun claim given => ?_, fun claim completes => ?_⟩
    · obtain ⟨i, answers, claims, ended, member, inside⟩ := given
      exact answered i answers ended _ member claim inside
    · obtain ⟨i, answers, ended, member⟩ := completes
      exact answered i answers ended _ member rfl
  obtain ⟨-, grown, -⟩ := Sessions.run_safe good_empty lasting_told (fun _ _ _ call _ => call_establishes call) reached later
  refine ⟨fun claim other one two => ((told reached later).1 claim one).unique ((told reached later).1 other two),
    fun claim completes => ⟨?_, fun other given same => ?_, fun other completesToo same => ?_⟩⟩
  · obtain ⟨stored, isStored, ended⟩ := ((told reached .refl).2 claim completes).ended
    exact ⟨TimerPart.Grows.ended (grown (.timer claim.timer.identity)) stored isStored ended,
      ((told reached later).2 claim completes).effects⟩
  · exact ((told reached later).2 claim completes).last_given ((told (reached.trans later) .refl).1 other given) same
  · obtain ⟨ids, tokens, -⟩ := ((told reached later).2 claim completes).unique ((told (reached.trans later) .refl).2 other completesToo) same
    exact ⟨ids, tokens⟩

/-- Two sessions try to complete a timer by one claim. -/
theorem timer_is_fenced :
    ∃ s, Relation.ReflTransGen Sessions.Step (start sampleSessions) s ∧ Given s sampleClaim ∧ Completes s sampleClaim ∧
      (s.task 3).result?.isSome ∧ (s.shared.committed.timer sampleClaim.timer.identity).effects = [sampleClaim.timer.effect] := by
  have ended : (((start sampleSessions).play sampleTurns).task 2).result? =
      some (.ok [.claimed [sampleClaim], .completed sampleClaim true]) := rfl
  have completes : Completes ((start sampleSessions).play sampleTurns) sampleClaim := ⟨2, _, ended, by simp⟩
  obtain ⟨-, fenced⟩ := timers_fenced sample_run .refl
  exact ⟨_, sample_run, ⟨2, _, _, ended, List.mem_cons_self .., List.mem_singleton_self _⟩, completes, by decide +kernel,
    (fenced sampleClaim completes).1.2⟩

end Fencing

end WorkflowTables

end Pytitect
