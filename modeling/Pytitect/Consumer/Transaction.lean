import Pytitect.Consumer.Protocol

namespace Pytitect

namespace AsyncConsumer
variable {δ D : Type} {who : Nat → InboxIdentity} {i : Nat} {s t : Shared D}

/-- The call holds the lock and has committed nothing. -/
def Inside (i : Nat) (s : Shared D) : Prop := s.lock = some i ∧ Uncommitted i s

theorem Inside.later (inside : Inside i s) (seen : Sees i s t) : Inside i t :=
  ⟨seen.lock.mpr inside.1, inside.2.later seen⟩

theorem Holding.inside (holding : Holding who i s) : Inside i s := ⟨holding.lock, holding.uncommitted⟩

/-- An operation of the call's own unit of work keeps the protocol; only what
it leaves of the unit is to be shown. -/
theorem withUnit_safe {α : Type} {before : Shared D → Prop} {post : Except Failure α → Shared D → Prop}
    {operation : Operation} {f : Outside D → UnitOfWorkFactory D → UnitOfWork D → Except PyError α × UnitOfWork D}
    (stable : ∀ s t, Sees i s t → before s → before t)
    (stableAfter : ∀ result s t, Sees i s t → post result s → post result t)
    (keeps : ∀ input s, before s → post ((f input s.factory (s.units i)).1.mapError .other)
      { s with units := Function.update s.units i (f input s.factory (s.units i)).2 }) (now : before s) :
    (protocol D who).Safe i post (withUnit i operation f) s := by
  refine Protocol.Safe.when (fun s t seen _ => stable s t seen) (fun result s t seen _ => stableAfter result s t seen)
    (fun input s sound holds _ _ => ⟨?_, ?_, keeps input s holds⟩) now
  · exact ⟨sound.accounted, sound.entry, sound.acked⟩
  · exact ⟨fun j other => Function.update_of_ne other _ _, fun _ _ => Iff.rfl, Or.inl ⟨rfl, rfl⟩⟩

/-- A wait that changes nothing: what held before it still holds. -/
theorem wait_safe {α : Type} {before : Shared D → Prop} {operation : Operation} {answer : Outside D → Except Failure α}
    (stable : ∀ s t, Sees i s t → before s → before t) (now : before s) :
    (protocol D who).Safe i (fun _ => before) (.act operation fun input s => (answer input, s)) s :=
  Protocol.Safe.when (fun s t seen _ => stable s t seen) (fun _ s t seen _ => stable s t seen)
    (fun _ _ sound holds _ _ => ⟨sound, ⟨fun _ _ => rfl, fun _ _ => Iff.rfl, Or.inl ⟨rfl, rfl⟩⟩, holds⟩) now

/-- The message has been completed before. -/
structure Duplicate (who : Nat → InboxIdentity) (i : Nat) (s : Shared D) : Prop extends Entered who i s where
  committed : Committed who s (who i)

theorem Duplicate.later (duplicate : Duplicate who i s) (seen : Sees i s t) : Duplicate who i t :=
  ⟨duplicate.toEntered.later seen, duplicate.committed.mono seen.grows⟩

/-- What a reservation tells the call. -/
def Answered (who : Nat → InboxIdentity) (i : Nat) : Except Failure InboxDecision → Shared D → Prop
  | .ok (.accepted _), s => Reserved who i [] s
  | .ok (.duplicate _), s => Duplicate who i s
  | _, s => Inside i s

theorem Answered.later {result : Except Failure InboxDecision} (answered : Answered who i result s) (seen : Sees i s t) :
    Answered who i result t := by
  rcases result with failure | _ | _ | _ | _
  · exact Inside.later answered seen
  · exact Reserved.later answered seen
  · exact Duplicate.later answered seen
  · exact Inside.later answered seen
  · exact Inside.later answered seen

theorem reserveMessage_safe {token : Uuid} {ttl : Int} (entered : Entered who i s) :
    (protocol D who).Safe i (Answered who i) (reserveMessage i (who i) token ttl) s := by
  refine withUnit_safe (fun _ _ seen holds => Entered.later holds seen) (fun _ _ _ seen => fun answered => answered.later seen)
    (fun input s entered => ?_) entered
  have active := entered.active
  unfold UnitOfWork.reserveMessage
  simp only [active, Bool.not_true, Bool.false_eq_true, if_false]
  rcases InboxStore.begin_begun (s.units i).inbox (who i) token.hex input.now ttl with
    ⟨expiresAt, answer, incomplete, entries⟩ | ⟨-, never, duplicate⟩
  · have missing : (s.units i).inbox.entries.get? (who i) = none := by
      cases found : (s.units i).inbox.entries.get? (who i) with
      | none => rfl
      | some entry => simpa [incomplete entry found] using (entered.own entry found).1
    have absent : s.factory.inbox.entries.get? (who i) = none := by
      by_contra present
      have copied := entered.covers (who i) (Option.isSome_iff_ne_none.mpr present)
      simp [missing] at copied
    rw [answer]
    refine ⟨⟨entered.lock, by simpa [UnitOfWork.active] using active, entered.uncommitted, fun identity present => ?_,
      fun identity entry different found => ?_⟩, by simpa using entered.staged, by simpa using entered.completions, absent⟩
    · simp only [Function.update_self, entries]
      split
      · rfl
      · exact entered.covers identity present
    · simp only [Function.update_self, entries, different, if_false] at found
      exact entered.others identity entry different found
  · cases answer : ((s.units i).inbox.begin (who i) token.hex input.now ttl).1 with
    | error error => exact entered.inside
    | ok decision =>
      cases decision with
      | accepted granted => exact absurd answer (never granted)
      | duplicate completedAt =>
        obtain ⟨same, entry, found, completed⟩ := duplicate completedAt answer
        have committed := (entered.own entry found).2
        refine ⟨?_, committed⟩
        have unchanged : { s with units := Function.update s.units i { s.units i with
            inbox := ((s.units i).inbox.begin (who i) token.hex input.now ttl).2 } } = s := by
          rw [same]
          simp
        exact unchanged.symm ▸ entered
      | inProgress retryAfter => exact entered.inside
      | capacityExceeded capacity => exact entered.inside

/-- An operation that gives the call `holds`, or fails inside the unit of work. -/
def OrInside {α : Type} (i : Nat) (holds : α → Shared D → Prop) : Except Failure α → Shared D → Prop
  | .ok value, s => holds value s
  | .error _, s => Inside i s

theorem OrInside.later {α : Type} {holds : α → Shared D → Prop}
    (stable : ∀ value s t, Sees i s t → holds value s → holds value t) {result : Except Failure α}
    (now : OrInside i holds result s) (seen : Sees i s t) : OrInside i holds result t := by
  cases result with
  | ok value => exact stable value s t seen now
  | error failure => exact Inside.later now seen

theorem saveDecision_safe {decision : D} (reserved : Reserved who i [] s) :
    (protocol D who).Safe i (OrInside i fun _ => Reserved who i [decision]) (saveDecision i decision) s := by
  refine withUnit_safe (fun _ _ seen holds => Reserved.later holds seen)
    (fun _ _ _ seen now => now.later (fun _ _ _ seen holds => Reserved.later holds seen) seen)
    (fun input s reserved => ?_) reserved
  unfold UnitOfWork.saveDecision
  simp only [reserved.active, Bool.not_true, Bool.false_eq_true, if_false]
  split
  · exact reserved.inside
  · have unit := reserved.active
    refine ⟨⟨reserved.lock, by simpa [UnitOfWork.active] using unit, reserved.uncommitted, ?_, ?_⟩, ?_, ?_, reserved.absent⟩
    · simpa using reserved.covers
    · intro identity entry different found
      exact reserved.others identity entry different (by simpa using found)
    · simp [reserved.staged]
    · simpa using reserved.completions

/-- Completed, or not allowed to. -/
def CompletedIf (who : Nat → InboxIdentity) (i : Nat) (completed : Bool) (s : Shared D) : Prop :=
  if completed then Completed who i s else Inside i s

theorem CompletedIf.later {completed : Bool} (now : CompletedIf who i completed s) (seen : Sees i s t) :
    CompletedIf who i completed t := by
  cases completed with
  | true => exact Completed.later now seen
  | false => exact Inside.later now seen

theorem completeMessage_safe {token : Uuid} {decision : D} (reserved : Reserved who i [decision] s) :
    (protocol D who).Safe i (OrInside i (CompletedIf who i)) (completeMessage i (who i) token) s := by
  refine withUnit_safe (fun _ _ seen holds => Reserved.later holds seen)
    (fun _ _ _ seen now => now.later (fun _ _ _ seen holds => holds.later seen) seen)
    (fun input s reserved => ?_) reserved
  unfold UnitOfWork.completeMessage
  simp only [reserved.active, Bool.not_true, Bool.false_eq_true, if_false]
  split
  · exact reserved.inside
  cases done : ((s.units i).inbox.complete (who i) token.hex input.now).1 with
  | false =>
    rw [← Prod.eta ((s.units i).inbox.complete (who i) token.hex input.now), done]
    exact reserved.inside
  | true =>
    obtain ⟨entry, found, -, -, completed⟩ := InboxStore.complete_true done
    rw [← Prod.eta ((s.units i).inbox.complete (who i) token.hex input.now), done, completed]
    have unit := reserved.active
    refine ⟨⟨reserved.lock, by simpa [UnitOfWork.active] using unit, reserved.uncommitted, fun identity present => ?_,
      fun identity other different present => ?_⟩, ⟨decision, by simpa using reserved.staged⟩,
      ⟨token.hex, input.now, by simp [reserved.completions]⟩, reserved.absent⟩
    · simp only [Function.update_self, Dict.get?_set]
      split
      · rfl
      · exact reserved.covers identity present
    · simp only [Function.update_self, Dict.get?_set, different, if_false] at present
      exact reserved.others identity other different present

/-- What is left of a commit: the lock is still held, and unless it failed the
message has a committed decision. -/
def AfterCommit (who : Nat → InboxIdentity) (i : Nat) (result : Except Failure Unit) (s : Shared D) : Prop :=
  s.lock = some i ∧ (result = .ok () → Committed who s (who i))

theorem AfterCommit.later {result : Except Failure Unit} (after : AfterCommit who i result s) (seen : Sees i s t) :
    AfterCommit who i result t :=
  ⟨seen.lock.mpr after.1, fun success => (after.2 success).mono seen.grows⟩

/-- A commit that fails changes the call's unit of work only; one that
succeeds replaces the inbox by the copy, adds the staged decisions, and goes on
record. -/
theorem commitUnit_cases (active : (s.units i).active) :
    (∃ failure unit, commitUnit i s = (.error failure, { s with units := Function.update s.units i unit })) ∨
    ∃ inbox unit, UnitOfWork.applyCompletions (s.units i).completions (s.units i).inbox = (true, inbox) ∧
      commitUnit i s = (.ok (), { s with
        factory := { s.factory with
          inbox := { s.factory.inbox with entries := inbox.entries }
          decisions := s.factory.decisions ++ (s.units i).staged }
        units := Function.update s.units i unit
        commits := s.commits ++ [⟨i, (s.units i).staged, (s.units i).completions.map Completion.identity⟩] }) := by
  unfold commitUnit
  rcases UnitOfWork.commit_cases s.factory active with ⟨error, rolledBack, failed⟩ | ⟨inbox, applied, committed⟩
  · rw [failed]
    exact Or.inl ⟨_, _, rfl⟩
  · rw [committed]
    exact Or.inr ⟨inbox, _, applied, rfl⟩

/-- The commit of a call keeps the protocol once the copy it puts in place is
known: every entry of it is completed and backed by the commits, this one
included, and it has all the entries of the inbox. -/
theorem commit_safe {before : Shared D → Prop} (stable : ∀ s t, Sees i s t → before s → before t)
    (holding : ∀ s, before s → Holding who i s)
    (ready : ∀ s inbox, Sound who s → before s →
      UnitOfWork.applyCompletions (s.units i).completions (s.units i).inbox = (true, inbox) →
      ∀ t : Shared D, t.factory.inbox.entries = inbox.entries →
        t.commits = s.commits ++ [⟨i, (s.units i).staged, (s.units i).completions.map Completion.identity⟩] →
        (∀ identity entry, inbox.entries.get? identity = some entry → entry.completedAt.isSome ∧ Committed who t identity) ∧
          Commits who i s t ∧ Committed who t (who i)) (now : before s) :
    (protocol D who).Safe i (AfterCommit who i) (commit i) s := by
  refine Protocol.Safe.when (fun s t seen _ => stable s t seen) (fun _ _ _ seen _ after => after.later seen)
    (fun input s sound held _ _ => ?_) now
  have inside := holding s held
  rcases commitUnit_cases inside.active with ⟨failure, unit, failed⟩ | ⟨inbox, unit, applied, committed⟩
  · rw [failed]
    refine ⟨⟨sound.accounted, sound.entry, sound.acked⟩, ⟨fun j other => Function.update_of_ne other _ _, fun _ _ => Iff.rfl,
      Or.inl ⟨rfl, rfl⟩⟩, inside.lock, by simp⟩
  · rw [committed]
    obtain ⟨backed, adds, mine⟩ := ready s inbox sound held applied { s with
      factory := { s.factory with
        inbox := { s.factory.inbox with entries := inbox.entries }
        decisions := s.factory.decisions ++ (s.units i).staged }
      units := Function.update s.units i unit
      commits := s.commits ++ [⟨i, (s.units i).staged, (s.units i).completions.map Completion.identity⟩] } rfl rfl
    refine ⟨⟨?_, backed, fun j acked => (sound.acked j acked).mono fun record member => List.mem_append_left _ member⟩,
      ⟨fun j other => Function.update_of_ne other _ _, fun _ _ => Iff.rfl, Or.inr ⟨inside.lock, adds⟩⟩,
      inside.lock, fun _ => mine⟩
    simp [sound.accounted]

theorem commit_duplicate_safe (duplicate : Duplicate who i s) :
    (protocol D who).Safe i (AfterCommit who i) (commit i) s := by
  refine commit_safe ?_ ?_ ?_ duplicate
  · exact fun _ _ seen held => held.later seen
  · exact fun _ held => held.toHolding
  intro s inbox sound held applied t entries commits
  rw [held.completions] at applied commits
  rw [held.staged] at commits
  cases applied
  have grows : ∀ record ∈ s.commits, record ∈ t.commits := by
    intro record member
    rw [commits]
    exact List.mem_append_left _ member
  refine ⟨fun identity entry found => ?_, ⟨fun identity present => ?_, _, rfl, commits, Or.inl rfl⟩, held.committed.mono grows⟩
  · by_cases own : identity = who i
    · subst own
      obtain ⟨completed, -⟩ := held.own entry found
      exact ⟨completed, held.committed.mono grows⟩
    · obtain ⟨completed, backed⟩ := held.others identity entry own found
      exact ⟨completed, backed.mono grows⟩
  · rw [entries]
    exact held.covers identity present

theorem commit_completed_safe (completed : Completed who i s) :
    (protocol D who).Safe i (AfterCommit who i) (commit i) s := by
  refine commit_safe ?_ ?_ ?_ completed
  · exact fun _ _ seen held => held.later seen
  · exact fun _ held => held.toHolding
  intro s inbox sound held applied t entries commits
  obtain ⟨decision, staged⟩ := held.staged
  obtain ⟨token, now, completions⟩ := held.completions
  rw [completions] at applied commits
  rw [staged] at commits
  have grows : ∀ record ∈ s.commits, record ∈ t.commits := by
    intro record member
    rw [commits]
    exact List.mem_append_left _ member
  have mine : Committed who t (who i) := ⟨⟨i, [decision], [who i]⟩, by simp [commits], rfl, ⟨decision, rfl⟩, rfl⟩
  -- The completion is applied a second time, to the entry of the copy it completed before.
  cases done : ((s.units i).inbox.complete (who i) token now).1 with
  | false =>
    unfold UnitOfWork.applyCompletions at applied
    rw [← Prod.eta ((s.units i).inbox.complete (who i) token now), done] at applied
    cases applied
  | true =>
    obtain ⟨entry, found, -, -, completed⟩ := InboxStore.complete_true done
    unfold UnitOfWork.applyCompletions at applied
    rw [← Prod.eta ((s.units i).inbox.complete (who i) token now), done, completed] at applied
    cases applied
    refine ⟨fun identity other present => ?_, ⟨fun identity present => ?_, _, rfl, commits, Or.inr ⟨⟨decision, rfl⟩, held.absent, ?_⟩⟩,
      mine⟩
    · rw [Dict.get?_set] at present
      split at present
      · rename_i own
        cases present
        exact ⟨rfl, own ▸ mine⟩
      · rename_i different
        obtain ⟨completed, backed⟩ := held.others identity other different present
        exact ⟨completed, backed.mono grows⟩
    · rw [entries, Dict.get?_set]
      split
      · rfl
      · exact held.covers identity present
    · rw [entries, Dict.get?_set_self]
      rfl

/-- What a part of the transaction ends in, failures carrying the flag of that part. -/
def Flagged {α : Type} (committing : Bool) (mid : Except Failure α → Shared D → Prop) :
    Except (Bool × Failure) α → Shared D → Prop
  | .ok value, s => mid (.ok value) s
  | .error (flag, failure), s => flag = committing ∧ mid (.error failure) s

/-- A part of the transaction followed by the rest of it. -/
theorem during_bind {α β : Type} {committing : Bool} {mid : Except Failure α → Shared D → Prop}
    {post : Except (Bool × Failure) β → Shared D → Prop} {part : Call D α}
    {rest : α → Coroutine (Shared D) (Outside D) Operation (Bool × Failure) β}
    (safe : (protocol D who).Safe i mid part s) (sound : Sound who s)
    (returned : ∀ value u, Sound who u → mid (.ok value) u → (protocol D who).Safe i post (rest value) u)
    (raised : ∀ failure u, mid (.error failure) u → post (.error (committing, failure)) u) :
    (protocol D who).Safe i post (during committing part >>= rest) s := by
  have flagged : (protocol D who).Safe i (Flagged committing mid) (during committing part) s :=
    safe.mapError sound (fun _ _ _ holds => holds) (fun _ _ _ holds => ⟨rfl, holds⟩)
  refine flagged.bind sound returned ?_
  rintro ⟨flag, failure⟩ u _ ⟨rfl, holds⟩
  exact raised failure u holds

/-- How the block inside the unit of work leaves things: still under the lock. -/
def Leaves (who : Nat → InboxIdentity) (i : Nat) (result : Except (Bool × Failure) Outcome) (s : Shared D) : Prop :=
  s.lock = some i ∧ Ended who i result s

theorem Leaves.later {result : Except (Bool × Failure) Outcome} (leaves : Leaves who i result s) (seen : Sees i s t) :
    Leaves who i result t :=
  ⟨seen.lock.mpr leaves.1, leaves.2.later seen⟩

theorem acknowledged_safe (safe : (protocol D who).Safe i (AfterCommit who i) (commit i) s) (sound : Sound who s) :
    (protocol D who).Safe i (Leaves who i) (do during true (commit i); pure .acknowledged) s := by
  refine during_bind safe sound (fun _ u _ after => ?_) (fun _ _ after => ⟨after.1, trivial⟩)
  exact fun t seen _ => Leaves.later ⟨after.1, after.2 rfl⟩ seen

theorem rollback_safe (inside : Inside i s) : (protocol D who).Safe i (fun _ => Inside i) (rollback i) s :=
  withUnit_safe (fun _ _ seen inside => Inside.later inside seen) (fun _ _ _ seen inside => inside.later seen)
    (fun _ _ inside => inside) inside

theorem refused_safe (inside : Inside i s) (sound : Sound who s) :
    (protocol D who).Safe i (Leaves who i) (do during false (rollback i); pure .retried) s :=
  during_bind (rollback_safe inside) sound (fun _ _ _ inside _ seen _ => Leaves.later inside seen) fun _ _ inside => inside

/-- The block inside the unit of work keeps the protocol. -/
theorem attempt_safe {c : AsyncConsumer δ} {message : Message δ} {token : Uuid} (mine : c.identity message = who i)
    (sound : Sound who s) (entered : Entered who i s) :
    (protocol D who).Safe i (Leaves who i) (attempt i c message token) s := by
  have failed : ∀ failure (u : Shared D), Inside i u → Leaves who i (.error (false, failure)) u :=
    fun _ _ inside => inside
  unfold attempt
  rw [mine]
  refine during_bind (reserveMessage_safe entered) sound (fun answer u sound answered => ?_) failed
  cases answer with
  | duplicate completedAt => exact acknowledged_safe (commit_duplicate_safe answered) sound
  | inProgress retryAfter => exact refused_safe answered sound
  | capacityExceeded capacity => exact refused_safe answered sound
  | accepted granted =>
    refine during_bind (wait_safe (fun _ _ seen held => Reserved.later held seen) answered) sound
      (fun decision u sound reserved => ?_) fun failure u reserved => failed failure u reserved.inside
    refine during_bind (saveDecision_safe reserved) sound (fun _ u sound reserved => ?_) failed
    refine during_bind (wait_safe (fun _ _ seen held => Reserved.later held seen) reserved) sound
      (fun authority u sound reserved => ?_) fun failure u reserved => failed failure u reserved.inside
    cases authority with
    | false => exact fun t seen _ => failed _ t (Inside.later (Holding.inside reserved.toHolding) seen)
    | true =>
      refine during_bind (completeMessage_safe reserved) sound (fun completed u sound holds => ?_) failed
      cases completed with
      | false => exact fun t seen _ => failed _ t (Inside.later holds seen)
      | true => exact acknowledged_safe (commit_completed_safe holds) sound

/-- The call has not entered its unit of work yet. -/
structure Idle (i : Nat) (s : Shared D) : Prop where
  lock : s.lock ≠ some i
  unit : ∃ capacity, s.units i = ⟨.empty capacity, [], [], [], false, false⟩
  uncommitted : Uncommitted i s

theorem Idle.later (idle : Idle i s) (seen : Sees i s t) : Idle i t :=
  ⟨fun held => idle.lock (seen.lock.mp held), seen.unit ▸ idle.unit, idle.uncommitted.later seen⟩

/-- Entering the unit of work: either the call holds it, or it has failed without it. -/
def Enters (who : Nat → InboxIdentity) (i : Nat) : Except Failure Unit → Shared D → Prop
  | .ok _, s => Entered who i s
  | .error _, s => Idle i s

theorem Enters.later {result : Except Failure Unit} (enters : Enters who i result s) (seen : Sees i s t) :
    Enters who i result t := by
  cases result with
  | ok value => exact Entered.later enters seen
  | error failure => exact Idle.later enters seen

theorem enter_safe (idle : Idle i s) : (protocol D who).Safe i (Enters who i) (enter i) s := by
  refine Protocol.Safe.when (fun _ _ seen _ idle => Idle.later idle seen) (fun _ _ _ seen _ enters => enters.later seen)
    (fun input s sound idle enabled _ => ?_) idle
  obtain ⟨capacity, unit⟩ := idle.unit
  cases interrupt : input.interrupt with
  | some cause =>
    simp only [unit, Bool.false_eq_true, if_false]
    exact ⟨sound, ⟨fun _ _ => rfl, fun _ _ => Iff.rfl, Or.inl ⟨rfl, rfl⟩⟩, idle⟩
  | none =>
    have free : s.lock = none := by simpa [unit, interrupt] using enabled
    simp only [unit, Bool.false_eq_true, if_false]
    refine ⟨⟨sound.accounted, sound.entry, sound.acked⟩, ⟨fun j other => Function.update_of_ne other _ _, fun j other => ?_,
      Or.inl ⟨rfl, rfl⟩⟩, ⟨⟨rfl, ?_, idle.uncommitted, ?_, ?_⟩, ?_, ?_, ?_, ?_⟩⟩
    · simp [free, other.symm]
    · simp [UnitOfWork.enter, UnitOfWork.active]
    · simp [UnitOfWork.enter]
    · intro identity entry _ found
      exact sound.entry identity entry (by simpa [UnitOfWork.enter] using found)
    · simp [UnitOfWork.enter]
    · simp [UnitOfWork.enter]
    · simp [UnitOfWork.enter]
    · intro entry found
      exact sound.entry (who i) entry (by simpa [UnitOfWork.enter] using found)

/-- Leaving the unit of work never fails, and gives up the lock. -/
theorem exit_safe {result : Except (Bool × Failure) Outcome} (sound : Sound who s) (leaves : Leaves who i result s) :
    (protocol D who).Safe i (Protocol.Cleaned (Ended who i) result) (during false (exit i)) s := by
  have exits : (protocol D who).Safe i (fun exited t => exited = .ok () ∧ Ended who i result t) (exit i) s := by
    refine Protocol.Safe.when (fun _ _ seen _ leaves => Leaves.later leaves seen)
      (fun _ _ _ seen _ ended => ⟨ended.1, ended.2.later seen⟩) (fun input s sound leaves _ _ => ?_) leaves
    refine ⟨⟨sound.accounted, sound.entry, sound.acked⟩, ⟨fun j other => Function.update_of_ne other _ _, fun j other => ?_,
      Or.inl ⟨rfl, rfl⟩⟩, rfl, ?_⟩
    · simp [leaves.1, other.symm]
    · rcases result with ⟨_ | _, failure⟩ | _ | _ <;> exact leaves.2
  exact exits.mapError sound (fun _ _ _ ended => ended.2) fun _ _ _ ended => nomatch ended.1

theorem transact_safe {c : AsyncConsumer δ} {message : Message δ} {token : Uuid} (mine : c.identity message = who i)
    (sound : Sound who s) (idle : Idle i s) :
    (protocol D who).Safe i (Ended who i) (transact i c message token) s := by
  refine Protocol.Safe.mapError (during_bind (enter_safe idle) sound (fun _ u sound entered => ?_)
    fun failure u idle => Idle.uncommitted idle) sound (fun _ _ _ ended => ended) ?_
  · exact (attempt_safe mine sound entered).ensure sound fun result u sound leaves => exit_safe sound leaves
  · rintro ⟨_ | _, failure⟩ u _ ended
    · exact ended
    · trivial

/-- What the call has committed when it is over. -/
def Settled (i : Nat) : Except Failure DeliveryDisposition → Shared D → Prop
  | .ok .retry, s => Uncommitted i s
  | _, _ => True

/-- An operation that is no business of the factory. -/
theorem aside_safe {α : Type} {operation : Operation} {f : Outside D → Shared D → Except Failure α × Shared D}
    (same : ∀ input s, (f input s).2 = { s with
      quarantine := (f input s).2.quarantine
      retried := (f input s).2.retried
      terminated := (f input s).2.terminated }) (none_ : Uncommitted i s) :
    (protocol D who).Safe i (fun _ => Uncommitted i) (.act operation f) s := by
  refine Protocol.Safe.when (fun _ _ seen _ none_ => Uncommitted.later none_ seen)
    (fun _ _ _ seen _ none_ => none_.later seen) (fun input s sound none_ _ _ => ?_) none_
  rw [same]
  exact ⟨⟨sound.accounted, sound.entry, sound.acked⟩, ⟨fun _ _ => rfl, fun _ _ => Iff.rfl, Or.inl ⟨rfl, rfl⟩⟩, none_⟩

theorem ack_safe (committed : Committed who s (who i)) :
    (protocol D who).Safe i (fun _ _ => True) (ack i) s := by
  refine Protocol.Safe.when (fun _ _ seen _ committed => Committed.mono committed (Sees.grows seen))
    (fun _ _ _ _ _ _ => trivial) (fun input s sound committed _ _ => ?_) committed
  refine ⟨⟨sound.accounted, sound.entry, fun j acked => ?_⟩, ⟨fun _ _ => rfl, fun _ _ => Iff.rfl, Or.inl ⟨rfl, rfl⟩⟩, trivial⟩
  rcases List.mem_append.mp acked with earlier | now
  · exact sound.acked j earlier
  · rw [List.mem_singleton.mp now]
    exact committed

theorem retryDelivery_safe (sound : Sound who s) (none_ : Uncommitted i s) :
    (protocol D who).Safe i (Settled i) (retryDelivery i) s :=
  (aside_safe (fun _ _ => rfl) none_).bind sound (fun _ _ _ none_ _ seen _ => Uncommitted.later none_ seen)
    fun _ _ _ _ => trivial

theorem raise_safe {failure : Failure} :
    (protocol D who).Safe i (Settled i) (Coroutine.raise failure : Call D DeliveryDisposition) s :=
  fun _ _ _ => trivial

variable {sha256 : List UInt8 → String} {c : AsyncConsumer δ} {message : Message δ}

theorem quarantineDelivery_safe {reason : String} {failedAt : Int} (sound : Sound who s) (none_ : Uncommitted i s) :
    (protocol D who).Safe i (Settled i) (quarantineDelivery sha256 i c message reason failedAt) s := by
  unfold quarantineDelivery
  split
  · exact raise_safe
  split
  · exact retryDelivery_safe sound none_
  refine Protocol.Safe.andThen (aside_safe (fun input s => ?_) none_) sound fun result u sound after => ?_
  · cases input.interrupt <;> rfl
  · have none_ := after u Sees.refl sound
    split
    · exact raise_safe
    · exact retryDelivery_safe sound none_
    · exact (aside_safe (fun _ _ => rfl) none_).bind sound (fun _ _ _ _ _ _ _ => trivial) fun _ _ _ _ => trivial

theorem processDelivery_safe (mine : c.identity message = who i) (sound : Sound who s) (idle : Idle i s) :
    (protocol D who).Safe i (Settled i) (processDelivery sha256 i c message) s := by
  refine Protocol.Safe.bind (wait_safe (fun _ _ seen idle => Idle.later idle seen) idle) sound
    (fun token u sound idle => ?_) fun _ _ _ _ => trivial
  refine Protocol.Safe.andThen (transact_safe mine sound idle) sound fun result u sound after => ?_
  have ended := after u Sees.refl sound
  split
  · exact (ack_safe ended).bind sound (fun _ _ _ _ _ _ _ => trivial) fun _ _ _ _ => trivial
  · exact retryDelivery_safe sound ended
  · exact (aside_safe (fun _ _ => rfl) ended).bind sound (fun _ _ sound none_ => quarantineDelivery_safe sound none_)
      fun _ _ _ _ => trivial
  · exact retryDelivery_safe sound ended
  · exact retryDelivery_safe sound ended
  · exact raise_safe

theorem delivery_safe {delivery : Delivery δ} (mine : delivery.identity = who i) (sound : Sound who s) (idle : Idle i s) :
    (protocol D who).Safe i (Settled i) (delivery.run sha256 i) s := by
  unfold Delivery.run
  split
  · refine Protocol.Safe.bind (wait_safe (fun _ _ seen idle => Idle.later idle seen) idle) sound
      (fun late u sound idle => ?_) fun _ _ _ _ => trivial
    split
    · exact retryDelivery_safe sound idle.uncommitted
    · exact (processDelivery_safe mine sound idle).mapError sound (fun _ _ _ settled => settled) fun _ _ _ _ => trivial
  · refine Protocol.Safe.bind (wait_safe (fun _ _ seen idle => Idle.later idle seen) idle) sound
      (fun busy u sound idle => ?_) fun _ _ _ _ => trivial
    split
    · exact raise_safe
    split
    · exact raise_safe
    split
    · exact raise_safe
    · exact processDelivery_safe mine sound idle

end AsyncConsumer

end Pytitect
