import Pytitect.Aio.Uncertainty
import Pytitect.Outbox.Dispatcher

namespace Pytitect

inductive PublicationResult
  | confirmed (transportId : String) (named : transportId ≠ "")
  | retryable (reason : String) (retryAfter : Option Int) (named : reason ≠ "")
  | rejected (reason : String) (named : reason ≠ "")
  | uncertain (reason : String)

/-- How a publication ends: with a result, a transport exception (`TimeoutError`, `ConnectionError`, `OSError`), or
any other exception, a cancellation included. -/
inductive Publication
  | returned (result : PublicationResult)
  | transport (exception : String)
  | raised (error : PyError)

/-- A settlement that a relay asks of its store. -/
inductive RelaySettlement
  | delivered
  | retry (availableAt : Int)
  | defer (availableAt : Int)
  | failed (reason : String)
  | uncertain (reason : String)

structure RelayCounters where
  delivered : Nat
  retried : Nat
  failed : Nat
  deferred : Nat
  stale : Nat
  uncertain : Nat

def RelayCounters.total (counters : RelayCounters) : Nat :=
  counters.delivered + counters.retried + counters.failed + counters.deferred + counters.stale + counters.uncertain

/-- A worker of a round: about to take the next claim, waiting for the publisher, waiting for the store, at its end,
or stopped by an exception. -/
inductive RelayWorker (P : Type)
  | idle
  | publishing (claim : OutboxClaim P)
  | settling (claim : OutboxClaim P) (settlement : RelaySettlement) (at_ : Int)
  | finished
  | raised (claim : OutboxClaim P) (error : PyError)

/-- What a round does with a claim, as its publisher and its store see it. -/
inductive RelayAct (P : Type)
  | published (claim : OutboxClaim P) (publication : Publication)
  | settled (claim : OutboxClaim P) (settlement : RelaySettlement) (result : Except PyError SettlementResult)

/-- A round of `AsyncRelay` after its claim call: workers that share one iterator and one table of counters. `log` is
what they have done so far. -/
structure RelayRound (P : Type) where
  store : AsyncOutboxStore P
  budget : Nat
  iterator : List (OutboxClaim P)
  workers : List (RelayWorker P)
  counters : RelayCounters
  log : List (RelayAct P)

namespace RelayRound
variable {P : Type}

def start (store : AsyncOutboxStore P) (budget concurrency : Nat) (claims : List (OutboxClaim P)) : RelayRound P :=
  ⟨store, budget, claims, List.replicate (min concurrency claims.length) .idle, ⟨0, 0, 0, 0, 0, 0⟩, []⟩

/-- `RetryComposition.schedule`: the delay, whether it is only a deferral, and the budget that is left. `delay` is what
the jitter and `retry_after` make of the delay of the policy, `late` says that it reaches the deadline of the round. -/
def schedule (policy : RetryPolicy) (attempt : Nat) (delay : Int) (late : Bool) (budget : Nat) : (Int × Bool) × Nat :=
  if policy.maxAttempts ≤ attempt then ((delay, true), budget)
  else if late then ((delay, true), budget)
  else if budget = 0 then ((delay, true), budget)
  else ((delay, false), budget - 1)

/-- The settlement after a publication, and the budget that is left. -/
def settlementFor (policy : RetryPolicy) (claim : OutboxClaim P) (now : Int) (delay : Except PyError Int) (late : Bool) (budget : Nat) :
    PublicationResult → Except PyError RelaySettlement × Nat
  | .uncertain reason => (.ok (.uncertain reason), budget)
  | .confirmed _ _ => (.ok .delivered, budget)
  | .retryable reason _ _ =>
    if claim.envelope.attempt + 1 < policy.maxAttempts then
      match delay with
      | .error error => (.error error, budget)
      | .ok delay =>
        let retry := schedule policy (claim.envelope.attempt + 1) delay late budget
        ((datetimeAdd now retry.1.1).map fun availableAt => if retry.1.2 then .defer availableAt else .retry availableAt, retry.2)
    else (.ok (.failed reason), budget)
  | .rejected reason _ => (.ok (.failed reason), budget)

/-- The store carries out a settlement. -/
def perform (store : AsyncOutboxStore P) (claim : OutboxClaim P) (at_ : Int) :
    RelaySettlement → Except PyError SettlementResult × AsyncOutboxStore P
  | .delivered => (.ok (store.delivered claim at_).1, (store.delivered claim at_).2)
  | .retry availableAt => (.ok (store.retry claim availableAt at_).1, (store.retry claim availableAt at_).2)
  | .defer availableAt => (.ok (store.defer claim availableAt at_).1, (store.defer claim availableAt at_).2)
  | .failed reason => store.failed claim reason at_
  | .uncertain reason => store.uncertain claim reason at_

/-- `counters[outcome] += 1`; the outcome of a stale settlement is `stale`. -/
def count (counters : RelayCounters) (settlement : RelaySettlement) (result : SettlementResult) : RelayCounters :=
  if result = .stale then { counters with stale := counters.stale + 1 }
  else
    match settlement with
    | .delivered => { counters with delivered := counters.delivered + 1 }
    | .retry _ => { counters with retried := counters.retried + 1 }
    | .defer _ => { counters with deferred := counters.deferred + 1 }
    | .failed _ => { counters with failed := counters.failed + 1 }
    | .uncertain _ => { counters with uncertain := counters.uncertain + 1 }

/-- What happens next: somebody else calls the store or spends the budget, an idle worker goes on, a publication
ends, or the store settles. `authority` and `open_` say that the deadlines of the claims and of the round have time left. -/
inductive Input (P : Type)
  | outside (call : AsyncOutboxStore.Call P)
  | spend (budget : Nat)
  | take (worker : Nat) (now : Int) (authority open_ : Bool)
  | publish (worker : Nat) (publication : Publication) (now : Int) (authority : Bool) (delay : Except PyError Int) (late : Bool)
  | settle (worker : Nat)

/-- The next claim of the iterator: too late for it, too late for the round, or published. -/
def taken (s : RelayRound P) (i : Nat) (claim : OutboxClaim P) (now : Int) (authority open_ : Bool) : RelayRound P :=
  if claim.claimedUntil ≤ now ∨ ¬authority then { s with counters := { s.counters with stale := s.counters.stale + 1 } }
  else if ¬open_ then { s with workers := s.workers.set i (.settling claim (.defer now) now) }
  else { s with workers := s.workers.set i (.publishing claim) }

/-- A publication has ended with this result. -/
def publishedAs (s : RelayRound P) (policy : RetryPolicy) (i : Nat) (claim : OutboxClaim P) (result : PublicationResult) (now : Int)
    (authority : Bool) (delay : Except PyError Int) (late : Bool) : RelayRound P :=
  if ¬authority then
    { s with counters := { s.counters with stale := s.counters.stale + 1 }, workers := s.workers.set i .idle }
  else
    match settlementFor policy claim now delay late s.budget result with
    | (.error error, budget) => { s with budget, workers := s.workers.set i (.raised claim error) }
    | (.ok settlement, budget) => { s with budget, workers := s.workers.set i (.settling claim settlement now) }

def step (policy : RetryPolicy) (s : RelayRound P) : Input P → RelayRound P
  | .outside call => { s with store := (s.store.answer call).2 }
  | .spend budget => { s with budget }
  | .take i now authority open_ =>
    match s.workers[i]? with
    | some .idle =>
      match s.iterator with
      | [] => { s with workers := s.workers.set i .finished }
      | claim :: rest => taken { s with iterator := rest } i claim now authority open_
    | _ => s
  | .publish i publication now authority delay late =>
    match s.workers[i]? with
    | some (.publishing claim) =>
      let s := { s with log := s.log ++ [RelayAct.published claim publication] }
      match publication with
      | .raised error => { s with workers := s.workers.set i (.raised claim error) }
      | .transport exception => publishedAs s policy i claim (.uncertain exception) now authority delay late
      | .returned result => publishedAs s policy i claim result now authority delay late
    | _ => s
  | .settle i =>
    match s.workers[i]? with
    | some (.settling claim settlement at_) =>
      let performed := perform s.store claim at_ settlement
      let s := { s with store := performed.2, log := s.log ++ [RelayAct.settled claim settlement performed.1] }
      match performed.1 with
      | .error error => { s with workers := s.workers.set i (.raised claim error) }
      | .ok result => { s with counters := count s.counters settlement result, workers := s.workers.set i .idle }
    | _ => s

/-- The round so far, whatever happens in whatever order. -/
inductive Run (policy : RetryPolicy) (init : RelayRound P) : RelayRound P → Prop
  | start : Run policy init init
  | next {s : RelayRound P} (input : Input P) : Run policy init s → Run policy init (step policy s input)

/-- All workers are at their ends, so that the round returns its summary. -/
def Returned (s : RelayRound P) : Prop := ∀ worker ∈ s.workers, worker = .finished

end RelayRound

end Pytitect
