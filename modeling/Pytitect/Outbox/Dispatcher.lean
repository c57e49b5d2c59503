import Pytitect.Outbox.Custody

namespace Pytitect

/-- `RetryPolicy`; the delay before an attempt is some positive duration. -/
structure RetryPolicy where
  maxAttempts : Nat
  delay : Nat → Int
  positive : 0 < maxAttempts ∧ ∀ attempt, 0 < delay attempt

/-- Two attempts, five seconds apart. -/
def RetryPolicy.sample : RetryPolicy := ⟨2, fun _ => 5_000_000, by decide, fun _ => by decide⟩

/-- What the handler returns; what is no `DeliveryResult` at all counts as a failure. -/
inductive DeliveryResult
  | delivered
  | retryable (reason : String) (named : reason ≠ "")
  | permanentFailure (reason : String) (named : reason ≠ "")
  | other

structure DispatchSummary where
  claimed : Nat
  delivered : Nat
  retried : Nat
  failed : Nat

def DispatchSummary.total (summary : DispatchSummary) : Nat := summary.delivered + summary.retried + summary.failed

/-- A call of `OneRoundDispatcher.dispatch` at the top of its loop: the claims that it has still to handle, or
what it raised. -/
structure DispatchRound (P : Type) where
  now : Int
  claims : List (OutboxClaim P)
  remaining : Except PyError (List (OutboxClaim P))
  summary : DispatchSummary

namespace DispatchRound
variable {P : Type}

def start (now : Int) (claims : List (OutboxClaim P)) : DispatchRound P := ⟨now, claims, .ok claims, ⟨claims.length, 0, 0, 0⟩⟩

/-- The settlement that the loop makes of what the handler returned. -/
def settlement (policy : RetryPolicy) (now : Int) (claim : OutboxClaim P) : DeliveryResult → Except PyError (OutboxStore.Call P)
  | .delivered => .ok (.delivered claim now)
  | .retryable reason _ =>
    if claim.envelope.attempt + 1 < policy.maxAttempts then
      (datetimeAdd now (policy.delay (claim.envelope.attempt + 1))).map fun availableAt => .retry claim availableAt
    else .ok (.failed claim reason now)
  | .permanentFailure reason _ => .ok (.failed claim reason now)
  | .other => .ok (.failed claim "failed" now)

/-- The counters after a settlement, which add what it returned. -/
def count (summary : DispatchSummary) : OutboxStore.Call P → OutboxStore.Answer P → Except PyError DispatchSummary
  | .delivered _ _, .settled (.ok success) => .ok { summary with delivered := summary.delivered + success.toNat }
  | .retry _ _, .settled (.ok success) => .ok { summary with retried := summary.retried + success.toNat }
  | .failed _ _ _, .settled (.ok success) => .ok { summary with failed := summary.failed + success.toNat }
  | _, .settled (.error error) => .error error
  | _, _ => .ok summary

/-- The round after a settlement. -/
def settled (round : DispatchRound P) (rest : List (OutboxClaim P)) (call : OutboxStore.Call P) (answer : OutboxStore.Answer P) :
    DispatchRound P :=
  match count round.summary call answer with
  | .error error => { round with remaining := .error error }
  | .ok summary => { round with remaining := .ok rest, summary }

end DispatchRound

/-- A store and the rounds of its dispatchers. -/
structure Dispatching (P : Type) where
  store : OutboxStore P
  rounds : List (DispatchRound P)

namespace Dispatching
variable {P : Type}

/-- Somebody adds a message or cleans up, a dispatcher begins a round, or the handler of a round returns or raises. -/
inductive Input (P : Type)
  | call (call : OutboxStore.Call P)
  | begin_ (now limit claimTtl : Int) (claimIds : Nat → Uuid)
  | handle (index : Nat) (result : Except PyError DeliveryResult)

/-- What happens next; it is noted which call of the store is made. -/
def step (policy : RetryPolicy) (s : Dispatching P) :
    Input P → Option (OutboxStore.Call P × OutboxStore.Answer P) × Dispatching P
  | .call call => (some (call, (s.store.answer call).1), { s with store := (s.store.answer call).2 })
  | .begin_ now limit claimTtl claimIds =>
    let call := .claim now limit claimTtl claimIds
    let rounds :=
      match (s.store.claim now limit claimTtl claimIds).1 with
      | .error _ => s.rounds
      | .ok claims => s.rounds ++ [DispatchRound.start now claims]
    (some (call, (s.store.answer call).1), ⟨(s.store.answer call).2, rounds⟩)
  | .handle index result =>
    match s.rounds[index]? with
    | none => (none, s)
    | some round =>
      match round.remaining with
      | .error _ => (none, s)
      | .ok [] => (none, s)
      | .ok (claim :: rest) =>
        match result >>= DispatchRound.settlement policy round.now claim with
        | .error error => (none, { s with rounds := s.rounds.set index { round with remaining := .error error } })
        | .ok call =>
          let answered := s.store.answer call
          (some (call, answered.1), ⟨answered.2, s.rounds.set index (round.settled rest call answered.1)⟩)

/-- The calls of the store so far. -/
def calls (past : List (Input P × Option (OutboxStore.Call P × OutboxStore.Answer P))) :
    List (OutboxStore.Call P × OutboxStore.Answer P) := past.filterMap Prod.snd

/-- Claims are made and settled by dispatchers only, and `uuid4` supplies no id twice. -/
def Allowed (past : List (Input P × Option (OutboxStore.Call P × OutboxStore.Answer P))) : Input P → Prop
  | .call call => ¬call.Claims ∧ call.presented = none
  | .begin_ _ _ _ claimIds => Function.Injective claimIds ∧ ∀ i, ¬OutboxStore.Drawn (calls past) (claimIds i)
  | .handle _ _ => True

/-- Any rounds of any number of dispatchers in any interleaving. -/
abbrev Run (policy : RetryPolicy) (capacity : Nat) :
    List (Input P × Option (OutboxStore.Call P × OutboxStore.Answer P)) → Dispatching P → Prop :=
  History (step policy) (fun _ => Allowed) ⟨.empty capacity, []⟩

end Dispatching

end Pytitect
