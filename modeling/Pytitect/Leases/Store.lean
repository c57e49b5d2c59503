import Pytitect.Core
import Pytitect.Lib.Dict
import Pytitect.Lib.History

namespace Pytitect

@[ext]
structure Lease (R : Type) where
  resource : R
  owner : String
  fencingToken : Nat
  expiresAt : Int
  named : owner ≠ ""
  positive : 0 < fencingToken

instance {R : Type} [DecidableEq R] : DecidableEq (Lease R) := fun _ _ => decidable_of_iff _ Lease.ext_iff.symm

@[ext]
structure LeaseAuthority where
  owner : String
  fencingToken : Nat
  expiresAt : Int
  named : owner ≠ ""
  positive : 0 < fencingToken

instance : DecidableEq LeaseAuthority := fun _ _ => decidable_of_iff _ LeaseAuthority.ext_iff.symm

inductive AcquireResult (R : Type)
  | acquired (lease : Lease R)
  | busy (owner : String) (retryAfter : Int)
  deriving DecidableEq

inductive RenewResult (R : Type)
  | renewed (lease : Lease R)
  | stale
  deriving DecidableEq

inductive ReleaseResult
  | released
  | stale
  deriving DecidableEq

inductive FencedResult (ρ : Type)
  | committed (value : ρ)
  | stale
  deriving DecidableEq

/-- `FencedCommit.commit`: the authority read under the consumer's lock is
compared with the presented lease, and the mutation runs in the same callback. -/
def FencedCommit.commit {R ρ : Type} (authority : Option LeaseAuthority) (lease : Lease R) (now : Int)
    (mutation : Except PyError ρ) : Except PyError (FencedResult ρ) :=
  match authority with
  | none => .ok .stale
  | some authority =>
    if authority.fencingToken ≠ lease.fencingToken ∨ authority.owner ≠ lease.owner ∨ authority.expiresAt ≤ now then .ok .stale
    else mutation.map .committed

/-- `InMemoryLeaseStore`: the leases that were neither released nor replaced,
and the last token of every resource that was ever leased. -/
structure LeaseStore (R : Type) where
  capacity : Nat
  leases : Dict R (Lease R)
  tokens : Dict R Nat

namespace LeaseStore
variable {R ρ : Type} [DecidableEq R]

def empty (capacity : Nat) : LeaseStore R := ⟨capacity, .empty, .empty⟩

def nextToken (s : LeaseStore R) (resource : R) : Nat := (s.tokens.get? resource).getD 0 + 1

/-- `acquire` once no unexpired lease stands in its way. -/
def grant (s : LeaseStore R) (resource : R) (owner : String) (named : owner ≠ "") (now ttl : Int) :
    Except PyError (AcquireResult R) × LeaseStore R :=
  if resource ∉ s.tokens.keys ∧ s.capacity ≤ s.tokens.size then
    (.error (.overflowError "lease authority capacity exceeded"), s)
  else
    match datetimeAdd now ttl with
    | .error error => (.error error, s)
    | .ok expiresAt =>
      let lease : Lease R := ⟨resource, owner, s.nextToken resource, expiresAt, named, Nat.succ_pos _⟩
      (.ok (.acquired lease),
        { s with tokens := s.tokens.set resource (s.nextToken resource), leases := s.leases.set resource lease })

def acquire (s : LeaseStore R) (resource : R) (owner : String) (now ttl : Int) :
    Except PyError (AcquireResult R) × LeaseStore R :=
  if valid : owner ≠ "" ∧ 0 < ttl then
    match s.leases.get? resource with
    | some current =>
      if now < current.expiresAt then (.ok (.busy current.owner current.expiresAt), s)
      else s.grant resource owner valid.1 now ttl
    | none => s.grant resource owner valid.1 now ttl
  else (.error (.valueError "owner and positive ttl are required"), s)

def renew (s : LeaseStore R) (lease : Lease R) (now ttl : Int) : Except PyError (RenewResult R) × LeaseStore R :=
  if ttl ≤ 0 then (.error (.valueError "ttl must be positive"), s)
  else if s.leases.get? lease.resource ≠ some lease ∨ lease.expiresAt ≤ now then (.ok .stale, s)
  else
    match datetimeAdd now ttl with
    | .error error => (.error error, s)
    | .ok expiresAt =>
      let renewed := { lease with expiresAt }
      (.ok (.renewed renewed), { s with leases := s.leases.set lease.resource renewed })

def release (s : LeaseStore R) (lease : Lease R) (now : Int) : ReleaseResult × LeaseStore R :=
  if s.leases.get? lease.resource ≠ some lease ∨ lease.expiresAt ≤ now then (.stale, s)
  else (.released, { s with leases := s.leases.pop lease.resource })

/-- What a consumer's `locked_authority` reads from `current`. -/
def authority (s : LeaseStore R) (resource : R) : Option LeaseAuthority :=
  (s.leases.get? resource).map fun lease => ⟨lease.owner, lease.fencingToken, lease.expiresAt, lease.named, lease.positive⟩

/-- A call at the instant its clock shows. A commit comes with what its
mutation would return or raise. -/
inductive Call (R ρ : Type)
  | acquire (resource : R) (owner : String) (now ttl : Int)
  | renew (lease : Lease R) (now ttl : Int)
  | release (lease : Lease R) (now : Int)
  | commit (lease : Lease R) (now : Int) (mutation : Except PyError ρ)

inductive Answer (R ρ : Type)
  | acquire (result : Except PyError (AcquireResult R))
  | renew (result : Except PyError (RenewResult R))
  | release (result : ReleaseResult)
  | commit (result : Except PyError (FencedResult ρ))

def answer (s : LeaseStore R) : Call R ρ → Answer R ρ × LeaseStore R
  | .acquire resource owner now ttl => ((.acquire (s.acquire resource owner now ttl).1), (s.acquire resource owner now ttl).2)
  | .renew lease now ttl => (.renew (s.renew lease now ttl).1, (s.renew lease now ttl).2)
  | .release lease now => (.release (s.release lease now).1, (s.release lease now).2)
  | .commit lease now mutation => (.commit (FencedCommit.commit (s.authority lease.resource) lease now mutation), s)

/-- The lease that one call issued, if it issued one. -/
def grantedBy : Call R ρ × Answer R ρ → Option (Lease R)
  | (.acquire _ _ _ _, .acquire (.ok (.acquired lease))) => some lease
  | _ => none

/-- The lease that a call presented with success: it was renewed or released,
or a mutation ran under it. -/
def authorisedBy : Call R ρ × Answer R ρ → Option (Lease R)
  | (.renew lease _ _, .renew (.ok (.renewed _))) => some lease
  | (.release lease _, .release .released) => some lease
  | (.commit _ _ _, .commit (.ok .stale)) => none
  | (.commit lease _ _, .commit _) => some lease
  | _ => none

/-- What one call can do. -/
inductive Step (s : LeaseStore R) : Call R ρ × Answer R ρ → LeaseStore R → Prop
  | refuses {event} : grantedBy event = none → authorisedBy event = none → Step s event s
  | issues (lease : Lease R) (now ttl : Int) : lease.fencingToken = s.nextToken lease.resource →
      Step s (.acquire lease.resource lease.owner now ttl, .acquire (.ok (.acquired lease)))
        { s with
          tokens := s.tokens.set lease.resource lease.fencingToken
          leases := s.leases.set lease.resource lease }
  | renews (lease : Lease R) (now ttl expiresAt : Int) : s.leases.get? lease.resource = some lease → now < lease.expiresAt →
      Step s (.renew lease now ttl, .renew (.ok (.renewed { lease with expiresAt })))
        { s with leases := s.leases.set lease.resource { lease with expiresAt } }
  | releases (lease : Lease R) (now : Int) : s.leases.get? lease.resource = some lease → now < lease.expiresAt →
      Step s (.release lease now, .release .released) { s with leases := s.leases.pop lease.resource }
  | mutates (lease current : Lease R) (now : Int) (mutation : Except PyError ρ) :
      s.leases.get? lease.resource = some current → current.fencingToken = lease.fencingToken →
      current.owner = lease.owner → now < current.expiresAt →
      Step s (.commit lease now mutation, .commit (mutation.map .committed)) s

theorem grant_step (s : LeaseStore R) (resource : R) (owner : String) (named : owner ≠ "") (now ttl : Int) :
    Step s ((.acquire resource owner now ttl : Call R ρ), .acquire (s.grant resource owner named now ttl).1)
      (s.grant resource owner named now ttl).2 := by
  unfold grant
  split
  · exact .refuses rfl rfl
  cases datetimeAdd now ttl with
  | error error => exact .refuses rfl rfl
  | ok expiresAt => exact .issues ⟨resource, owner, s.nextToken resource, expiresAt, named, _⟩ now ttl rfl

theorem acquire_step (s : LeaseStore R) (resource : R) (owner : String) (now ttl : Int) :
    Step s ((.acquire resource owner now ttl : Call R ρ), .acquire (s.acquire resource owner now ttl).1)
      (s.acquire resource owner now ttl).2 := by
  unfold acquire
  split
  · rename_i valid
    split
    · split
      · exact .refuses rfl rfl
      · exact s.grant_step resource owner valid.1 now ttl
    · exact s.grant_step resource owner valid.1 now ttl
  · exact .refuses rfl rfl

theorem renew_step (s : LeaseStore R) (lease : Lease R) (now ttl : Int) :
    Step s ((.renew lease now ttl : Call R ρ), .renew (s.renew lease now ttl).1) (s.renew lease now ttl).2 := by
  unfold renew
  split
  · exact .refuses rfl rfl
  split
  · exact .refuses rfl rfl
  rename_i current
  push Not at current
  cases datetimeAdd now ttl with
  | error error => exact .refuses rfl rfl
  | ok expiresAt => exact .renews lease now ttl expiresAt current.1 current.2

theorem release_step (s : LeaseStore R) (lease : Lease R) (now : Int) :
    Step s ((.release lease now : Call R ρ), .release (s.release lease now).1) (s.release lease now).2 := by
  unfold release
  split
  · exact .refuses rfl rfl
  · rename_i current
    push Not at current
    exact .releases lease now current.1 current.2

theorem commit_step (s : LeaseStore R) (lease : Lease R) (now : Int) (mutation : Except PyError ρ) :
    Step s (.commit lease now mutation, .commit (FencedCommit.commit (s.authority lease.resource) lease now mutation)) s := by
  unfold FencedCommit.commit authority
  cases found : s.leases.get? lease.resource with
  | none => exact .refuses rfl rfl
  | some current =>
    simp only [Option.map_some]
    split
    · exact .refuses rfl rfl
    · rename_i same
      push Not at same
      exact .mutates lease current now mutation found same.1 same.2.1 same.2.2

theorem answer_step (s : LeaseStore R) (call : Call R ρ) : Step s (call, (s.answer call).1) (s.answer call).2 := by
  cases call with
  | acquire resource owner now ttl => exact s.acquire_step resource owner now ttl
  | renew lease now ttl => exact s.renew_step lease now ttl
  | release lease now => exact s.release_step lease now
  | commit lease now mutation => exact s.commit_step lease now mutation

end LeaseStore

end Pytitect
