import Mathlib.Data.Int.Order.Basic
import Mathlib.Tactic.Common

namespace Pytitect

/-- The exceptions the modelled code raises or lets through. `raised` is an
exception of a caller's callback, which the code never inspects. -/
inductive PyError
  | valueError (message : String)
  | overflowError (message : String)
  | runtimeError (message : String)
  | lookupError (message : String)
  | unicodeError
  | raised (name : String)
  deriving DecidableEq, Repr

/-- A computation that succeeds succeeded at its first step. -/
theorem bind_ok {ε α β : Type} {first : Except ε α} {next : α → Except ε β} {value : β}
    (passed : (first >>= next) = .ok value) : ∃ found, first = .ok found ∧ next found = .ok value := by
  cases first with
  | error error => cases passed
  | ok found => exact ⟨found, rfl, passed⟩

theorem bind_ok_iff {ε α β : Type} {first : Except ε α} {next : α → Except ε β} {value : β} :
    (first >>= next) = .ok value ↔ ∃ found, first = .ok found ∧ next found = .ok value := by
  constructor
  · exact bind_ok
  · rintro ⟨found, rfl, passed⟩
    exact passed

/-- Every error of the result is one of those. -/
def Only {ε α : Type} (allowed : ε → Prop) (result : Except ε α) : Prop := ∀ error, result = .error error → allowed error

namespace Only
variable {ε α β : Type} {allowed : ε → Prop}

theorem ok (value : α) : Only allowed (.ok value) := by
  intro error absurd
  cases absurd

theorem error {error : ε} (holds : allowed error) : Only allowed (.error error : Except ε α) := by
  intro other same
  rw [← Except.error.inj same]
  exact holds

theorem bind {first : Except ε α} {next : α → Except ε β} (before : Only allowed first)
    (after : ∀ value, first = .ok value → Only allowed (next value)) : Only allowed (first >>= next) := by
  cases first with
  | error raised => exact error (before raised rfl)
  | ok value => exact after value rfl

theorem mono {other : ε → Prop} {result : Except ε α} (weaker : ∀ error, allowed error → other error)
    (only : Only allowed result) : Only other result :=
  fun error raised => weaker error (only error raised)

end Only

/-- Instants are timezone-aware UTC, in microseconds since the epoch, and
durations are in microseconds; the calendar runs from 0001-01-01T00:00:00
to 9999-12-31T23:59:59.999999. -/
def minDatetime : Int := -62135596800000000

def maxDatetime : Int := 253402300799999999

/-- An instant outside the calendar is refused. -/
def datetimeCheck (instant : Int) : Except PyError Int :=
  if minDatetime ≤ instant ∧ instant ≤ maxDatetime then .ok instant
  else .error (.overflowError "date value out of range")

def datetimeAdd (instant duration : Int) : Except PyError Int := datetimeCheck (instant + duration)

def datetimeSub (instant duration : Int) : Except PyError Int := datetimeCheck (instant - duration)

theorem datetimeCheck_ok {instant result : Int} (fits : datetimeCheck instant = .ok result) :
    result = instant := by
  unfold datetimeCheck at fits
  split at fits
  · exact (Except.ok.inj fits).symm
  · cases fits

theorem datetimeAdd_ok {instant duration result : Int} (fits : datetimeAdd instant duration = .ok result) :
    result = instant + duration :=
  datetimeCheck_ok fits

theorem datetimeSub_ok {instant duration result : Int} (fits : datetimeSub instant duration = .ok result) :
    result = instant - duration :=
  datetimeCheck_ok fits

/-- The sum is an instant of the calendar. -/
def Fits (instant duration : Int) : Prop := minDatetime ≤ instant + duration ∧ instant + duration ≤ maxDatetime

theorem datetimeAdd_fits {instant duration : Int} (fits : Fits instant duration) :
    datetimeAdd instant duration = .ok (instant + duration) :=
  if_pos fits

theorem datetimeAdd_overflows {instant duration : Int} (beyond : ¬Fits instant duration) :
    datetimeAdd instant duration = .error (.overflowError "date value out of range") :=
  if_neg beyond

theorem fits_of_datetimeAdd {instant duration result : Int} (fits : datetimeAdd instant duration = .ok result) :
    Fits instant duration := by
  by_contra beyond
  rw [datetimeAdd_overflows beyond] at fits
  cases fits

/-- The text of a fresh `uuid4`, which is never empty. -/
structure Uuid where
  hex : String
  nonempty : hex ≠ ""
  deriving DecidableEq

/-- Ids with a common first letter, no two of them alike. -/
def Uuid.series (letter : Char) (i : Nat) : Uuid := ⟨String.ofList (letter :: List.replicate i 'x'), by simp⟩

theorem Uuid.series_injective (letter : Char) : Function.Injective (Uuid.series letter) := by
  intro i j same
  have lengths := congrArg (fun uuid : Uuid => uuid.hex.toList.length) same
  simpa [Uuid.series] using lengths

theorem Uuid.series_disjoint {first second : Char} (different : first ≠ second) (i j : Nat) :
    Uuid.series first i ≠ Uuid.series second j := by
  intro same
  have heads := congrArg (fun uuid : Uuid => uuid.hex.toList.head?) same
  simp [Uuid.series, different] at heads

/-- What `str.strip` removes: the characters Python counts as white space. -/
def isSpace (c : Char) : Bool :=
  let n := c.toNat
  (0x09 ≤ n && n ≤ 0x0d) || (0x1c ≤ n && n ≤ 0x20) || n == 0x85 || n == 0xa0 || n == 0x1680 ||
    (0x2000 ≤ n && n ≤ 0x200a) || n == 0x2028 || n == 0x2029 || n == 0x202f || n == 0x205f || n == 0x3000

/-- `value == value.strip()`: no white space at either end. -/
def trimmed (value : String) : Bool :=
  match value.toList.head?, value.toList.getLast? with
  | some first, some last => !isSpace first && !isSpace last
  | _, _ => true

/-- An identifier whose representation has no domain semantics. -/
structure OpaqueId where
  value : String
  proper : value ≠ "" ∧ trimmed value
  deriving DecidableEq

/-- `PurgeIdempotencyPlan`: a finite clean-up of retained records. -/
structure PurgeIdempotencyPlan where
  cutoff : Int
  batchSize : Nat
  dryRun : Bool
  includeUncertain : Bool
  positive : 0 < batchSize
  deriving DecidableEq

structure MaintenanceSummary where
  selected : Nat
  affected : Nat
  dryRun : Bool
  deriving DecidableEq, Repr

/-! What the sample runs of several modules need to know of their literals. -/

theorem Sample.a_named : "a" ≠ "" := by decide
theorem Sample.b_named : "b" ≠ "" := by decide
theorem Sample.e1_named : "e1" ≠ "" := by decide
theorem Sample.e2_named : "e2" ≠ "" := by decide
theorem Sample.job_named : "j" ≠ "" := by decide
theorem Sample.topic_named : "t" ≠ "" := by decide
theorem Sample.message_proper : "m" ≠ "" ∧ trimmed "m" := by decide
theorem Sample.order_proper : "order" ≠ "" ∧ trimmed "order" := by decide
theorem Sample.schedule_named : "s" ≠ "" ∧ "mail" ≠ "" := by decide
theorem Sample.effect_named : "e" ≠ "" ∧ "go" ≠ "" := by decide
theorem Sample.process_named : "p" ≠ "" ∧ "1" ≠ "" := by decide
theorem Sample.scope_named : "shop" ≠ "" ∧ "customer" ≠ "" ∧ "order" ≠ "" := by decide
theorem Sample.policy_positive : (0 : Int) < 5 ∧ (0 : Int) < 10 ∧ (0 : Int) < 10 := by decide

end Pytitect
