import Mathlib.Data.Rat.Floor
import Pytitect.Aio.Relay

namespace Pytitect

/-- `policy.delay`: attempts count from one. -/
def RetryPolicy.delayFor (policy : RetryPolicy) (attempt : Int) : Except PyError Int :=
  if attempt < 1 then .error (.valueError "attempt must be at least one") else .ok (policy.delay attempt.toNat)

/-- A `datetime`: the instant, and whether it is timezone-aware UTC. -/
structure Moment where
  instant : Int
  utc : Bool

/-- `Deadline`: when it expires on its clock, in seconds, and what the clock reads or raises next. -/
structure Deadline where
  expiresAt : ℚ
  monotonic : Except PyError ℚ

def Deadline.remaining (deadline : Deadline) : Except PyError ℚ := deadline.monotonic.map fun read => max 0 (deadline.expiresAt - read)

structure RetryBudget where
  remaining : Nat
  deriving DecidableEq

def RetryBudget.take (budget : RetryBudget) : Bool × RetryBudget :=
  if budget.remaining = 0 then (false, budget) else (true, ⟨budget.remaining - 1⟩)

/-- `RetryScheduled` and `RetryDeferred`. -/
inductive RetryDecision
  | scheduled (delay : Int)
  | deferred (delay : Int) (reason : String)
  deriving DecidableEq

def RetryDecision.isScheduled : Except PyError RetryDecision → Bool
  | .ok (.scheduled _) => true
  | _ => false

/-- A duration times a fraction, to the nearest microsecond and to the even one of two. -/
def scaleDuration (duration : Int) (fraction : ℚ) : Int :=
  let exact := duration * fraction
  let below := ⌊exact⌋
  if exact - below < 1 / 2 ∨ exact - below = 1 / 2 ∧ below % 2 = 0 then below else below + 1

def totalSeconds (duration : Int) : ℚ := duration / 1000000

/-- One call of `schedule` by a composition with this policy. The jitter returns a fraction, a value
that is not finite (`none`), or it raises. -/
structure RetryCall where
  policy : RetryPolicy
  attempt : Int
  now : Moment
  deadline : Deadline
  retryAfter : Option Moment
  jitter : Except PyError (Option ℚ)

namespace RetryCall

/-- The delay before the refusals: that of the policy, jittered, and no less than the server asks for. -/
def delay (call : RetryCall) : Except PyError Int :=
  if !call.now.utc then .error (.valueError "retry timestamps must be UTC")
  else do
    match ← call.jitter with
    | none => .error (.valueError "jitter must return a finite value in [0, 1]")
    | some fraction =>
      if ¬(0 ≤ fraction ∧ fraction ≤ 1) then .error (.valueError "jitter must return a finite value in [0, 1]")
      else do
        let delay := scaleDuration (← call.policy.delayFor call.attempt) fraction
        match call.retryAfter with
        | none => .ok delay
        | some retryAfter =>
          if !retryAfter.utc then .error (.valueError "retry_after must be UTC")
          else .ok (max delay (retryAfter.instant - call.now.instant))

/-- `RetryComposition.schedule`. -/
def schedule (call : RetryCall) (budget : RetryBudget) : Except PyError RetryDecision × RetryBudget :=
  match call.delay with
  | .error error => (.error error, budget)
  | .ok delay =>
    if call.policy.maxAttempts ≤ call.attempt then (.ok (.deferred delay "attempts"), budget)
    else
      match call.deadline.remaining with
      | .error error => (.error error, budget)
      | .ok remaining =>
        if remaining ≤ totalSeconds delay then (.ok (.deferred delay "deadline"), budget)
        else
          match budget.take with
          | (false, budget) => (.ok (.deferred delay "budget"), budget)
          | (true, budget) => (.ok (.scheduled delay), budget)

/-- What a call can do: take one retry from the budget once everything else has let it pass, or leave
the budget as it is. -/
inductive Scheduled (call : RetryCall) (budget : RetryBudget) : Except PyError RetryDecision → RetryBudget → Prop
  | kept {answer : Except PyError RetryDecision} : RetryDecision.isScheduled answer = false → Scheduled call budget answer budget
  | taken (delay : Int) (remaining : ℚ) : call.delay = .ok delay → call.attempt < call.policy.maxAttempts →
      call.deadline.remaining = .ok remaining → totalSeconds delay < remaining → 0 < budget.remaining →
      Scheduled call budget (.ok (.scheduled delay)) ⟨budget.remaining - 1⟩

theorem schedule_scheduled (call : RetryCall) (budget : RetryBudget) :
    Scheduled call budget (call.schedule budget).1 (call.schedule budget).2 := by
  unfold schedule
  cases delayed : call.delay with
  | error error => exact .kept rfl
  | ok delay =>
    dsimp only
    by_cases spent : (call.policy.maxAttempts : Int) ≤ call.attempt
    · rw [if_pos spent]
      exact .kept rfl
    rw [if_neg spent]
    cases read : call.deadline.remaining with
    | error error => exact .kept rfl
    | ok remaining =>
      dsimp only
      by_cases late : remaining ≤ totalSeconds delay
      · rw [if_pos late]
        exact .kept rfl
      rw [if_neg late, RetryBudget.take]
      by_cases empty : budget.remaining = 0
      · rw [if_pos empty]
        exact .kept rfl
      · rw [if_neg empty]
        exact .taken delay remaining delayed (by omega) read (not_le.mp late) (by omega)

/-- The server's `retry_after` is a minimum. -/
theorem delay_ge {call : RetryCall} {delay : Int} {retryAfter : Moment} (delayed : call.delay = .ok delay)
    (asked : call.retryAfter = some retryAfter) : retryAfter.instant - call.now.instant ≤ delay := by
  unfold RetryCall.delay at delayed
  rw [asked] at delayed
  split at delayed
  · cases delayed
  obtain ⟨jitter, -, delayed⟩ := bind_ok delayed
  cases jitter with
  | none => cases delayed
  | some fraction =>
    dsimp only at delayed
    split at delayed
    · cases delayed
    obtain ⟨own, -, delayed⟩ := bind_ok delayed
    split at delayed
    · cases delayed
    · rw [← Except.ok.inj delayed]
      exact le_max_right _ _

/-- Any calls, of any compositions that share the budget. -/
abbrev Run (allowance : Nat) : List (RetryCall × Except PyError RetryDecision) → RetryBudget → Prop :=
  History (fun budget call => call.schedule budget) (fun _ _ _ => True) ⟨allowance⟩

/-- What a scheduled retry guarantees about its call. -/
def Justified : RetryCall × Except PyError RetryDecision → Prop
  | (call, .ok (.scheduled delay)) => call.attempt < call.policy.maxAttempts ∧
      (∀ retryAfter, call.retryAfter = some retryAfter → retryAfter.instant - call.now.instant ≤ delay) ∧
      ∃ remaining, call.deadline.remaining = .ok remaining ∧ totalSeconds delay < remaining
  | _ => True

theorem Scheduled.justified {call : RetryCall} {budget after : RetryBudget} {answer : Except PyError RetryDecision}
    (scheduled : Scheduled call budget answer after) : Justified (call, answer) := by
  cases scheduled with
  | kept refused =>
    rcases answer with error | ⟨delay⟩ | ⟨delay, reason⟩
    · trivial
    · cases refused
    · trivial
  | taken delay remaining delayed early read inTime _ =>
    exact ⟨early, fun retryAfter asked => delay_ge delayed asked, remaining, read, inTime⟩

/-- Each call either schedules a retry and takes one from the budget, or consumes nothing. -/
theorem Scheduled.balance {call : RetryCall} {budget after : RetryBudget} {answer : Except PyError RetryDecision}
    (scheduled : Scheduled call budget answer after) :
    after.remaining + (if RetryDecision.isScheduled answer then 1 else 0) = budget.remaining := by
  cases scheduled with
  | kept refused => simp [refused]
  | taken delay remaining _ _ _ _ enough =>
    simp only [RetryDecision.isScheduled, if_true]
    omega

/-- Whatever is asked of a shared budget in whatever order, what remains and the scheduled retries make
up the allowance; a call that defers or raises leaves the budget as it is, and a scheduled retry is
below the attempt limit, no earlier than the server asked for, and before the deadline. -/
theorem budget_exact {allowance : Nat} {past : List (RetryCall × Except PyError RetryDecision)} {budget : RetryBudget}
    (run : Run allowance past budget) :
    budget.remaining + past.countP (fun event => RetryDecision.isScheduled event.2) = allowance ∧
    (∀ event ∈ past, Justified event) ∧
    ∀ call : RetryCall, RetryDecision.isScheduled (call.schedule budget).1 = false → (call.schedule budget).2 = budget := by
  refine ⟨?_, ?_, fun call refused => ?_⟩
  · induction run with
    | start => rfl
    | @next past budget call run _ ih =>
      have balance := (schedule_scheduled call budget).balance
      rw [List.countP_append, List.countP_singleton]
      dsimp only
      omega
  · intro event member
    obtain ⟨before, -, -, same⟩ := run.answered member
    have scheduled := schedule_scheduled event.1 before
    rw [← same] at scheduled
    exact scheduled.justified
  · have scheduled := schedule_scheduled call budget
    generalize (call.schedule budget).1 = answer at scheduled refused
    generalize (call.schedule budget).2 = after at scheduled ⊢
    cases scheduled with
    | kept _ => rfl
    | taken => cases refused

/-- The relay carries the budget and the delay on by themselves: its `schedule` is this one. -/
theorem schedule_relay (call : RetryCall) (attempt : Nat) (delay : Int) (remaining : ℚ) (budget : Nat)
    (same : call.attempt = attempt) (delayed : call.delay = .ok delay) (read : call.deadline.remaining = .ok remaining) :
    (RelayRound.schedule call.policy attempt delay (decide (remaining ≤ totalSeconds delay)) budget).2 = (call.schedule ⟨budget⟩).2.remaining ∧
    ((RelayRound.schedule call.policy attempt delay (decide (remaining ≤ totalSeconds delay)) budget).1 = (delay, false) ↔
      (call.schedule ⟨budget⟩).1 = .ok (.scheduled delay)) := by
  unfold RelayRound.schedule schedule RetryBudget.take
  rw [delayed, read, same]
  dsimp only
  by_cases spent : call.policy.maxAttempts ≤ attempt
  · simp [spent]
  · by_cases late : remaining ≤ totalSeconds delay
    · simp [spent, late]
    · by_cases empty : budget = 0
      · simp [spent, late, empty]
      · simp [spent, late, empty]

/-- A second attempt with half the delay of the policy. -/
def sampleRetry (retryAfter : Option Moment) : RetryCall :=
  ⟨.sample, 1, ⟨0, true⟩, ⟨10, .ok 4⟩, retryAfter, .ok (some (1 / 2))⟩

/-- One allowed retry is scheduled, the next is deferred, and so is one that the deadline comes before. -/
theorem sample_retries : ∃ past budget, Run 1 past budget ∧
    past.map Prod.snd = [.ok (.deferred 7_000_000 "deadline"), .ok (.scheduled 2_500_000), .ok (.deferred 2_500_000 "budget")] ∧
    budget.remaining + past.countP (fun event => RetryDecision.isScheduled event.2) = 1 := by
  have permitted : History.Permitted (fun budget call => RetryCall.schedule call budget) (fun _ _ _ => True) [] ⟨1⟩
      [sampleRetry (some ⟨7_000_000, true⟩), sampleRetry none, sampleRetry none] := ⟨trivial, trivial, trivial, trivial⟩
  have run : Run 1 _ _ := History.ofInputs permitted
  exact ⟨_, _, run, by decide +kernel, (budget_exact run).1⟩

end RetryCall

end Pytitect
