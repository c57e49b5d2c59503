import Pytitect.Inbox.Store

namespace Pytitect

/-- What a unit of work reserved: the message and the token it presented. -/
structure Reservation where
  identity : InboxIdentity
  token : String
  deriving DecidableEq

structure Completion where
  identity : InboxIdentity
  token : String
  now : Int
  deriving DecidableEq

/-- `InMemoryAsyncUnitOfWorkFactory`: what its units of work commit to. -/
structure UnitOfWorkFactory (D : Type) where
  capacity : Nat
  inbox : InboxStore
  decisions : List D

/-- `_InMemoryAsyncUnitOfWork`: a private copy of the inbox and what has been
staged on it. -/
structure UnitOfWork (D : Type) where
  inbox : InboxStore
  staged : List D
  reservations : List Reservation
  completions : List Completion
  entered : Bool
  finished : Bool

def UnitOfWorkFactory.empty {D : Type} (capacity : Nat) : UnitOfWorkFactory D := ⟨capacity, .empty capacity, []⟩

/-- `__call__`: a new unit of work, not yet entered. -/
def UnitOfWorkFactory.unit {D : Type} (factory : UnitOfWorkFactory D) : UnitOfWork D :=
  ⟨.empty factory.capacity, [], [], [], false, false⟩

namespace UnitOfWork
variable {D : Type}

def active (unit : UnitOfWork D) : Bool := unit.entered && !unit.finished

def inactive {α : Type} : Except PyError α := .error (.runtimeError "unit of work is not active")

/-- The part of `__aenter__` after the lock has been acquired. -/
def enter (factory : UnitOfWorkFactory D) (unit : UnitOfWork D) : UnitOfWork D :=
  { unit with inbox := { unit.inbox with entries := factory.inbox.entries }, entered := true }

def reserveMessage (unit : UnitOfWork D) (identity : InboxIdentity) (token : String) (now ttl : Int) :
    Except PyError InboxDecision × UnitOfWork D :=
  if !unit.active then (inactive, unit)
  else
    let answer := unit.inbox.begin identity token now ttl
    (answer.1,
      { unit with
        inbox := answer.2
        reservations :=
          match answer.1 with
          | .ok (.accepted _) => unit.reservations ++ [⟨identity, token⟩]
          | _ => unit.reservations })

def completeMessage (unit : UnitOfWork D) (identity : InboxIdentity) (token : String) (now : Int) :
    Except PyError Bool × UnitOfWork D :=
  if !unit.active then (inactive, unit)
  else if ⟨identity, token⟩ ∉ unit.reservations then (.ok false, unit)
  else
    match unit.inbox.complete identity token now with
    | (false, inbox) => (.ok false, { unit with inbox })
    | (true, inbox) => (.ok true, { unit with inbox, completions := unit.completions ++ [⟨identity, token, now⟩] })

def saveDecision (factory : UnitOfWorkFactory D) (unit : UnitOfWork D) (decision : D) :
    Except PyError Unit × UnitOfWork D :=
  if !unit.active then (inactive, unit)
  else if factory.capacity ≤ factory.decisions.length + unit.staged.length then
    (.error (.overflowError "unit-of-work decision capacity exceeded"), unit)
  else (.ok (), { unit with staged := unit.staged ++ [decision] })

def rollback (unit : UnitOfWork D) : UnitOfWork D :=
  if unit.finished then unit
  else
    { unit with
      inbox := unit.reservations.foldl (fun inbox held => (inbox.abandon held.identity held.token).2) unit.inbox
      staged := []
      completions := []
      finished := true }

/-- The loop of `commit`: every completion is applied again. -/
def applyCompletions : List Completion → InboxStore → Bool × InboxStore
  | [], inbox => (true, inbox)
  | completion :: rest, inbox =>
    match inbox.complete completion.identity completion.token completion.now with
    | (false, inbox) => (false, inbox)
    | (true, inbox) => applyCompletions rest inbox

def commit (factory : UnitOfWorkFactory D) (unit : UnitOfWork D) :
    Except PyError Unit × UnitOfWork D × UnitOfWorkFactory D :=
  if !unit.active then (inactive, unit, factory)
  else
    match applyCompletions unit.completions unit.inbox with
    | (false, inbox) =>
      (.error (.runtimeError "inbox completion compare-and-set failed"), rollback { unit with inbox }, factory)
    | (true, inbox) =>
      (.ok (), { unit with inbox, finished := true },
        { factory with
          inbox := { factory.inbox with entries := inbox.entries }
          decisions := factory.decisions ++ unit.staged })

/-- An active unit of work commits what it has staged, or nothing at all. -/
theorem commit_cases (factory : UnitOfWorkFactory D) {unit : UnitOfWork D} (active : unit.active) :
    (∃ error rolledBack, commit factory unit = (.error error, rolledBack, factory)) ∨
    ∃ inbox, applyCompletions unit.completions unit.inbox = (true, inbox) ∧
      commit factory unit = (.ok (), { unit with inbox, finished := true },
        { factory with
          inbox := { factory.inbox with entries := inbox.entries }
          decisions := factory.decisions ++ unit.staged }) := by
  unfold commit
  simp only [active, Bool.not_true, Bool.false_eq_true, if_false]
  rcases applyCompletions unit.completions unit.inbox with ⟨_ | _, inbox⟩
  · exact Or.inl ⟨_, _, rfl⟩
  · exact Or.inr ⟨inbox, rfl, rfl⟩

end UnitOfWork

end Pytitect
