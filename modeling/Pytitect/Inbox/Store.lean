import Pytitect.Core
import Pytitect.Lib.Dict
import Pytitect.Lib.Selection

namespace Pytitect

@[ext]
structure InboxScope where
  ns : String
  source : String
  consumer : String
  nonempty : ns ≠ "" ∧ source ≠ "" ∧ consumer ≠ ""

instance : DecidableEq InboxScope := fun _ _ => decidable_of_iff _ InboxScope.ext_iff.symm

/-- What a message is known by: its scope and its id. -/
structure InboxIdentity where
  scope : InboxScope
  messageId : OpaqueId
  deriving DecidableEq

inductive InboxDecision
  | accepted (token : String)
  | duplicate (completedAt : Int)
  | inProgress (retryAfter : Int)
  | capacityExceeded (capacity : Nat)
  deriving DecidableEq

structure InboxEntry where
  token : String
  expiresAt : Int
  completedAt : Option Int
  deriving DecidableEq

@[ext]
structure PurgeInboxPlan where
  cutoff : Int
  batchSize : Nat
  dryRun : Bool
  positive : 0 < batchSize

instance : DecidableEq PurgeInboxPlan := fun _ _ => decidable_of_iff _ PurgeInboxPlan.ext_iff.symm

/-- The instant from which an entry counts as old: its completion, or the end
of its reservation. -/
def InboxEntry.eligibleAt (entry : InboxEntry) : Int := entry.completedAt.getD entry.expiresAt

/-- `InMemoryInboxStore`. -/
structure InboxStore where
  capacity : Nat
  entries : Dict InboxIdentity InboxEntry

namespace InboxStore

def empty (capacity : Nat) : InboxStore := ⟨capacity, .empty⟩

/-- The part of `begin` after a live entry has been ruled out. The expiry is
computed last, when an expired entry has already been popped. -/
def claim (s : InboxStore) (identity : InboxIdentity) (token : String) (now ttl : Int) :
    Except PyError InboxDecision × InboxStore :=
  if s.capacity ≤ s.entries.size then (.ok (.capacityExceeded s.capacity), s)
  else
    match datetimeAdd now ttl with
    | .error error => (.error error, s)
    | .ok expiresAt => (.ok (.accepted token), { s with entries := s.entries.set identity ⟨token, expiresAt, none⟩ })

def begin (s : InboxStore) (identity : InboxIdentity) (token : String) (now ttl : Int) :
    Except PyError InboxDecision × InboxStore :=
  if token = "" ∨ ttl ≤ 0 then (.error (.valueError "token and a positive ttl are required"), s)
  else
    match s.entries.get? identity with
    | none => s.claim identity token now ttl
    | some entry =>
      match entry.completedAt with
      | some completedAt => (.ok (.duplicate completedAt), s)
      | none =>
        if now < entry.expiresAt then (.ok (.inProgress entry.expiresAt), s)
        else claim { s with entries := s.entries.pop identity } identity token now ttl

def complete (s : InboxStore) (identity : InboxIdentity) (token : String) (now : Int) : Bool × InboxStore :=
  match s.entries.get? identity with
  | none => (false, s)
  | some entry =>
    if entry.token ≠ token ∨ entry.expiresAt ≤ now then (false, s)
    else (true, { s with entries := s.entries.set identity { entry with completedAt := some now } })

def abandon (s : InboxStore) (identity : InboxIdentity) (token : String) : Bool × InboxStore :=
  match s.entries.get? identity with
  | none => (false, s)
  | some entry =>
    if entry.token ≠ token ∨ entry.completedAt.isSome then (false, s)
    else (true, { s with entries := s.entries.pop identity })

/-- The order of `purge`: oldest first, then the identity. -/
def purgeOrder (a b : InboxIdentity × InboxEntry) : Bool :=
  ((compare a.2.eligibleAt b.2.eligibleAt).then
    ((compare a.1.scope.ns b.1.scope.ns).then
      ((compare a.1.scope.source b.1.scope.source).then
        ((compare a.1.scope.consumer b.1.scope.consumer).then
          (compare a.1.messageId.value b.1.messageId.value))))).isLE

def purgeSelected (s : InboxStore) (plan : PurgeInboxPlan) : List (InboxIdentity × InboxEntry) :=
  (s.entries.items.filter (fun item => item.2.eligibleAt ≤ plan.cutoff)).firstBy purgeOrder plan.batchSize

def purge (s : InboxStore) (plan : PurgeInboxPlan) : MaintenanceSummary × InboxStore :=
  let selected := s.purgeSelected plan
  (⟨selected.length, if plan.dryRun then 0 else selected.length, plan.dryRun⟩,
    if plan.dryRun then s else { s with entries := s.entries.popAll (selected.map Prod.fst) })

variable {s t : InboxStore} {identity other : InboxIdentity} {token : String} {now ttl : Int}

/-- The entries of `t` are those of `s`, save that some are gone. -/
def Shrunk (s t : InboxStore) : Prop :=
  ∀ identity entry, t.entries.get? identity = some entry → s.entries.get? identity = some entry

theorem Shrunk.refl : Shrunk s s := fun _ _ found => found

theorem Shrunk.trans {u : InboxStore} (first : Shrunk s t) (second : Shrunk t u) : Shrunk s u :=
  fun identity entry found => first identity entry (second identity entry found)

theorem shrunk_pop : Shrunk s { s with entries := s.entries.pop identity } := by
  intro other entry found
  dsimp only at found
  rw [Dict.get?_pop] at found
  split at found
  · cases found
  · exact found

theorem purge_shrunk (s : InboxStore) (plan : PurgeInboxPlan) : Shrunk s (s.purge plan).2 := by
  intro other entry found
  unfold purge at found
  dsimp only at found
  split at found
  · exact found
  · dsimp only at found
    rw [Dict.get?_popAll] at found
    split at found
    · cases found
    · exact found

/-- How `begin` may end: it reserves an identity that was not completed, or it
answers without a reservation and at most drops an expired one. -/
def Begun (s : InboxStore) (identity : InboxIdentity) (token : String)
    (answer : Except PyError InboxDecision × InboxStore) : Prop :=
  (∃ expiresAt, answer.1 = .ok (.accepted token) ∧
    (∀ entry, s.entries.get? identity = some entry → entry.completedAt = none) ∧
    ∀ other, answer.2.entries.get? other =
      if other = identity then some ⟨token, expiresAt, none⟩ else s.entries.get? other) ∨
  Shrunk s answer.2 ∧ (∀ granted, answer.1 ≠ .ok (.accepted granted)) ∧
    ∀ completedAt, answer.1 = .ok (.duplicate completedAt) → answer.2 = s ∧
      ∃ entry, s.entries.get? identity = some entry ∧ entry.completedAt = some completedAt

theorem claim_begun (shrunk : Shrunk s t)
    (others : ∀ other ≠ identity, t.entries.get? other = s.entries.get? other)
    (pending : ∀ entry, s.entries.get? identity = some entry → entry.completedAt = none) :
    Begun s identity token (t.claim identity token now ttl) := by
  unfold claim
  split
  · exact Or.inr ⟨shrunk, by simp, by simp⟩
  split
  · exact Or.inr ⟨shrunk, by simp, by simp⟩
  · rename_i expiresAt _
    refine Or.inl ⟨expiresAt, rfl, pending, fun other => ?_⟩
    dsimp only
    rw [Dict.get?_set]
    split
    · rfl
    · rename_i different
      exact others other different

theorem begin_begun (s : InboxStore) (identity : InboxIdentity) (token : String) (now ttl : Int) :
    Begun s identity token (s.begin identity token now ttl) := by
  unfold begin
  split
  · exact Or.inr ⟨Shrunk.refl, by simp, by simp⟩
  split
  · rename_i absent
    exact claim_begun Shrunk.refl (fun _ _ => rfl) (by simp [absent])
  · rename_i entry found
    have pending : entry.completedAt = none → ∀ held, s.entries.get? identity = some held → held.completedAt = none := by
      intro incomplete held same
      cases found.symm.trans same
      exact incomplete
    split
    · rename_i completedAt completed
      refine Or.inr ⟨Shrunk.refl, by simp, fun instant same => ⟨rfl, entry, found, ?_⟩⟩
      cases same
      exact completed
    · rename_i incomplete
      split
      · exact Or.inr ⟨Shrunk.refl, by simp, by simp⟩
      · exact claim_begun shrunk_pop (fun other different => by simp [different]) (pending incomplete)

/-- `complete` succeeds for the live holder and records the completion. -/
theorem complete_true (done : (s.complete identity token now).1 = true) :
    ∃ entry, s.entries.get? identity = some entry ∧ entry.token = token ∧ now < entry.expiresAt ∧
      (s.complete identity token now).2 = { s with entries := s.entries.set identity { entry with completedAt := some now } } := by
  unfold complete at done ⊢
  cases found : s.entries.get? identity with
  | none => simp [found] at done
  | some entry =>
    simp only [found] at done ⊢
    split at done
    · cases done
    · rename_i authority
      rw [if_neg authority]
      push Not at authority
      exact ⟨entry, rfl, authority.1, authority.2, rfl⟩

theorem complete_false (refused : (s.complete identity token now).1 = false) :
    (s.complete identity token now).2 = s := by
  unfold complete at refused ⊢
  cases found : s.entries.get? identity with
  | none => rfl
  | some entry =>
    simp only [found] at refused ⊢
    split at refused
    · rename_i stale
      rw [if_pos stale]
    · cases refused

end InboxStore

end Pytitect
