import Pytitect.Consumer.Process

namespace Pytitect

namespace AsyncConsumer
variable {δ D : Type} (who : Nat → InboxIdentity)

/-- A call for this message has committed a decision together with the
completion of the message. -/
def Committed (s : Shared D) (identity : InboxIdentity) : Prop :=
  ∃ record ∈ s.commits, who record.call = identity ∧ (∃ decision, record.decisions = [decision]) ∧
    record.completed = [identity]

/-- The call has committed nothing. -/
def Uncommitted (i : Nat) (s : Shared D) : Prop := ∀ record ∈ s.commits, record.call ≠ i

/-- What holds of the shared state between any two turns. -/
structure Sound (s : Shared D) : Prop where
  accounted : s.factory.decisions = s.commits.flatMap Commit.decisions
  entry : ∀ identity entry, s.factory.inbox.entries.get? identity = some entry →
    entry.completedAt.isSome ∧ Committed who s identity
  acked : ∀ i ∈ s.acked, Committed who s (who i)

/-- A commit of the call: either nothing, or one decision of a message that was
not completed and now is. No entry of the inbox is lost. -/
def Commits (i : Nat) (s t : Shared D) : Prop :=
  (∀ identity, (s.factory.inbox.entries.get? identity).isSome → (t.factory.inbox.entries.get? identity).isSome) ∧
  ∃ record : Commit D, record.call = i ∧ t.commits = s.commits ++ [record] ∧
    (record.decisions = [] ∨ (∃ decision, record.decisions = [decision]) ∧
      s.factory.inbox.entries.get? (who i) = none ∧ (t.factory.inbox.entries.get? (who i)).isSome)

/-- What a call may do in one turn: it keeps to its own unit of work, takes
the lock from nobody, and commits only under the lock. -/
structure Does (i : Nat) (s t : Shared D) : Prop where
  units : ∀ j ≠ i, t.units j = s.units j
  lock : ∀ j ≠ i, t.lock = some j ↔ s.lock = some j
  commits : t.factory = s.factory ∧ t.commits = s.commits ∨ s.lock = some i ∧ Commits who i s t

/-- What a call may see of the others: its unit of work is its own, nobody
takes its lock, and while it holds the lock the inbox can only shrink. -/
structure Sees (i : Nat) (s t : Shared D) : Prop where
  unit : t.units i = s.units i
  lock : t.lock = some i ↔ s.lock = some i
  held : s.lock = some i → InboxStore.Shrunk s.factory.inbox t.factory.inbox
  mine : ∀ record ∈ t.commits, record.call = i → record ∈ s.commits
  grows : ∀ record ∈ s.commits, record ∈ t.commits

variable {who} {i j : Nat} {s t u : Shared D} {identity : InboxIdentity}

theorem Committed.mono (committed : Committed who s identity) (grows : ∀ record ∈ s.commits, record ∈ t.commits) :
    Committed who t identity := by
  obtain ⟨record, member, rest⟩ := committed
  exact ⟨record, grows record member, rest⟩

theorem Sees.refl : Sees i s s := ⟨rfl, Iff.rfl, fun _ => .refl, fun _ member _ => member, fun _ member => member⟩

theorem Sees.trans (first : Sees i s t) (second : Sees i t u) : Sees i s u where
  unit := second.unit.trans first.unit
  lock := second.lock.trans first.lock
  held mine := (first.held mine).trans (second.held (first.lock.mpr mine))
  mine record member own := first.mine record (second.mine record member own) own
  grows record member := second.grows record (first.grows record member)

theorem Does.seen (other : j ≠ i) (done : Does who j s t) : Sees i s t where
  unit := done.units i other.symm
  lock := done.lock i other.symm
  held mine := by
    rcases done.commits with ⟨same, -⟩ | ⟨theirs, -⟩
    · rw [same]
      exact .refl
    · exact absurd (Option.some.inj (theirs.symm.trans mine)) other
  mine record member own := by
    rcases done.commits with ⟨-, same⟩ | ⟨-, -, new, call, grown, -⟩
    · exact same ▸ member
    · rw [grown] at member
      rcases List.mem_append.mp member with old | last
      · exact old
      · rw [List.mem_singleton.mp last] at own
        exact absurd (call.symm.trans own) other
  grows record member := by
    rcases done.commits with ⟨-, same⟩ | ⟨-, -, new, -, grown, -⟩
    · exact same ▸ member
    · rw [grown]
      exact List.mem_append_left _ member

theorem Maintained.seen (maintained : Maintained s t) : Sees i s t := by
  obtain ⟨plan, rfl⟩ := maintained
  exact ⟨rfl, Iff.rfl, fun _ => InboxStore.purge_shrunk _ plan, fun _ member _ => member, fun _ member => member⟩

theorem Maintained.sound (sound : Sound who s) (maintained : Maintained s t) : Sound who t := by
  obtain ⟨plan, rfl⟩ := maintained
  refine ⟨sound.accounted, fun identity entry found => ?_, sound.acked⟩
  exact sound.entry identity entry (InboxStore.purge_shrunk _ plan identity entry found)

variable (D who) in
def protocol : Protocol (Shared D) Operation where
  permits _ _ := True
  inv := Sound who
  does := Does who
  sees := Sees
  outside := Maintained
  refl := Sees.refl
  trans := Sees.trans
  seen := Does.seen
  seenOutside _ := Maintained.seen
  keptOutside := Maintained.sound

theorem Uncommitted.later (none_ : Uncommitted i s) (seen : Sees i s t) : Uncommitted i t :=
  fun record member own => none_ record (seen.mine record member own) own

/-- The call is inside its unit of work: it holds the lock, it has committed
nothing, and its copy of the inbox has every entry of the inbox; what the copy
has of other messages has been committed. -/
structure Holding (who : Nat → InboxIdentity) (i : Nat) (s : Shared D) : Prop where
  lock : s.lock = some i
  active : (s.units i).active
  uncommitted : Uncommitted i s
  covers : ∀ identity, (s.factory.inbox.entries.get? identity).isSome →
    ((s.units i).inbox.entries.get? identity).isSome
  others : ∀ identity entry, identity ≠ who i → (s.units i).inbox.entries.get? identity = some entry →
    entry.completedAt.isSome ∧ Committed who s identity

theorem Holding.later (holding : Holding who i s) (seen : Sees i s t) : Holding who i t where
  lock := seen.lock.mpr holding.lock
  active := seen.unit ▸ holding.active
  uncommitted := holding.uncommitted.later seen
  covers identity present := by
    obtain ⟨entry, found⟩ := Option.isSome_iff_exists.mp present
    rw [seen.unit]
    exact holding.covers identity (by simp [seen.held holding.lock identity entry found])
  others identity entry different found := by
    rw [seen.unit] at found
    obtain ⟨completed, committed⟩ := holding.others identity entry different found
    exact ⟨completed, committed.mono seen.grows⟩

/-- The unit of work has just been entered. -/
structure Entered (who : Nat → InboxIdentity) (i : Nat) (s : Shared D) : Prop extends Holding who i s where
  staged : (s.units i).staged = []
  reservations : (s.units i).reservations = []
  completions : (s.units i).completions = []
  own : ∀ entry, (s.units i).inbox.entries.get? (who i) = some entry →
    entry.completedAt.isSome ∧ Committed who s (who i)

theorem Entered.later (entered : Entered who i s) (seen : Sees i s t) : Entered who i t := by
  have unit := seen.unit
  refine ⟨entered.toHolding.later seen, ?_, ?_, ?_, fun entry found => ?_⟩
  · exact unit ▸ entered.staged
  · exact unit ▸ entered.reservations
  · exact unit ▸ entered.completions
  · obtain ⟨completed, committed⟩ := entered.own entry (unit ▸ found)
    exact ⟨completed, committed.mono seen.grows⟩

/-- The message is reserved for the call and not completed anywhere. -/
structure Reserved (who : Nat → InboxIdentity) (i : Nat) (staged : List D) (s : Shared D) : Prop
    extends Holding who i s where
  staged : (s.units i).staged = staged
  completions : (s.units i).completions = []
  absent : s.factory.inbox.entries.get? (who i) = none

/-- The message is completed in the copy, with its decision staged. -/
structure Completed (who : Nat → InboxIdentity) (i : Nat) (s : Shared D) : Prop extends Holding who i s where
  staged : ∃ decision, (s.units i).staged = [decision]
  completions : ∃ token now, (s.units i).completions = [⟨who i, token, now⟩]
  absent : s.factory.inbox.entries.get? (who i) = none

theorem absent_later (holding : Holding who i s) (absent : s.factory.inbox.entries.get? identity = none)
    (seen : Sees i s t) : t.factory.inbox.entries.get? identity = none := by
  cases found : t.factory.inbox.entries.get? identity with
  | none => rfl
  | some entry => simp [seen.held holding.lock identity entry found] at absent

theorem Reserved.later {staged : List D} (reserved : Reserved who i staged s) (seen : Sees i s t) :
    Reserved who i staged t :=
  ⟨reserved.toHolding.later seen, seen.unit ▸ reserved.staged, seen.unit ▸ reserved.completions,
    absent_later reserved.toHolding reserved.absent seen⟩

theorem Completed.later (completed : Completed who i s) (seen : Sees i s t) : Completed who i t :=
  ⟨completed.toHolding.later seen, seen.unit ▸ completed.staged, seen.unit ▸ completed.completions,
    absent_later completed.toHolding completed.absent seen⟩

/-- What a call that has ended, or failed with that value of `committing`, has committed. -/
def Ended (who : Nat → InboxIdentity) (i : Nat) : Except (Bool × Failure) Outcome → Shared D → Prop
  | .ok .acknowledged, s => Committed who s (who i)
  | .ok .retried, s => Uncommitted i s
  | .error (false, _), s => Uncommitted i s
  | .error (true, _), _ => True

theorem Ended.later {result : Except (Bool × Failure) Outcome} (ended : Ended who i result s) (seen : Sees i s t) :
    Ended who i result t := by
  rcases result with ⟨_ | _, failure⟩ | _ | _
  · exact Uncommitted.later ended seen
  · trivial
  · exact Committed.mono ended seen.grows
  · exact Uncommitted.later ended seen

end AsyncConsumer

end Pytitect
