import Pytitect.Consumer.Quarantine
import Pytitect.Consumer.UnitOfWork
import Pytitect.Lib.Coroutine

namespace Pytitect

inductive DeliveryDisposition
  | ack
  | retry
  | terminated (quarantineId : String)
  deriving DecidableEq

/-- A `CancelledError` at an await: of the whole task, from the time limit of
the handler, or from the time left to a delivery taken from the queue. -/
inductive Interrupt
  | cancelled
  | expired
  | overdue
  deriving DecidableEq

/-- The exceptions `_process` tells apart. -/
inductive Failure
  | interrupted (cause : Interrupt)
  | timeout
  | retryable (message : String)
  | permanent (reason : String)
  | busy
  | other (error : PyError)
  deriving DecidableEq

/-- An `AsyncConsumer`: what its calls read. The codec is one of the caller's
choice, and the handler answers from outside. -/
structure AsyncConsumer (δ : Type) where
  consumer : String
  ns : String
  reservationTtl : Int
  quarantinePolicy : QuarantinePolicy
  codec : Message δ → Except PyError (List UInt8)
  maxMessageBytes : Nat
  proper : consumer ≠ "" ∧ ns ≠ "" ∧ 0 < reservationTtl ∧ 0 < maxMessageBytes

/-- What the outside supplies when a call passes an await: the clock, a fresh
token, whether the authority deadline still has time, how the handler and the
broker answered, and whether the wait was cut short. -/
structure Outside (D : Type) where
  now : Int
  token : Uuid
  remaining : Bool
  handled : Except Failure D
  answered : Except Failure Unit
  interrupt : Option Interrupt
  late : Bool
  busy : Bool

/-- What a call meets when nothing goes wrong. -/
def Outside.calm {D : Type} (decision : D) : Outside D :=
  ⟨100, ⟨"t", Sample.topic_named⟩, true, .ok decision, .ok (), none, false, false⟩

/-- What a call waits for. -/
inductive Operation
  | arrive
  | draw
  | enter
  | reserve
  | handle
  | save
  | complete
  | commit
  | rollback
  | exit
  | clock
  | add (record : RejectedDelivery)
  | ack
  | retry
  | terminate

/-- A commit as it happened: by which call, with which decisions, and the
messages it completed. -/
structure Commit (D : Type) where
  call : Nat
  decisions : List D
  completed : List InboxIdentity

/-- What all calls share: the factory with its lock, each call's own unit of
work, the quarantine, and which deliveries the broker has seen settled.
`commits` only records what was committed. -/
structure Shared (D : Type) where
  factory : UnitOfWorkFactory D
  lock : Option Nat
  units : Nat → UnitOfWork D
  quarantine : RejectedDeliveryStore
  acked : List Nat
  retried : List Nat
  terminated : List Nat
  commits : List (Commit D)

def Shared.start (D : Type) (capacity quarantineCapacity : Nat) : Shared D :=
  ⟨.empty capacity, none, fun _ => (UnitOfWorkFactory.empty capacity).unit, .empty quarantineCapacity, [], [], [], []⟩

/-- How the transaction of a call ended. -/
inductive Outcome
  | acknowledged
  | retried
  deriving DecidableEq

namespace AsyncConsumer
variable {δ D α : Type}

def identity (c : AsyncConsumer δ) (message : Message δ) : InboxIdentity :=
  ⟨⟨c.ns, message.source, c.consumer, c.proper.2.1, message.identified.2.1, c.proper.1⟩,
    ⟨message.id, message.identified.1⟩⟩

/-- The id under which a rejected delivery is kept. -/
def quarantineId (c : AsyncConsumer δ) (message : Message δ) : String :=
  c.consumer ++ ":" ++ message.source ++ ":" ++ message.id

/-- A step of a call, as a coroutine over what the calls share. -/
abbrev Call (D α : Type) := Coroutine (Shared D) (Outside D) Operation Failure α

section
variable (i : Nat)

/-- An operation of the call's own unit of work. -/
def withUnit (operation : Operation)
    (f : Outside D → UnitOfWorkFactory D → UnitOfWork D → Except PyError α × UnitOfWork D) : Call D α :=
  .act operation fun input s =>
    ((f input s.factory (s.units i)).1.mapError .other,
      { s with units := Function.update s.units i (f input s.factory (s.units i)).2 })

/-- `__aenter__`: wait for the lock, then copy the inbox. -/
def enter : Call D Unit :=
  .when .enter (fun input s => (s.units i).entered || input.interrupt.isSome || s.lock.isNone) fun input s =>
    if (s.units i).entered then (.error (.other (.runtimeError "unit of work is single-use")), s)
    else
      match input.interrupt with
      | some cause => (.error (.interrupted cause), s)
      | none =>
        (.ok (), { s with lock := some i, units := Function.update s.units i (UnitOfWork.enter s.factory (s.units i)) })

def reserveMessage (identity : InboxIdentity) (token : Uuid) (ttl : Int) : Call D InboxDecision :=
  withUnit i .reserve fun input _ unit => unit.reserveMessage identity token.hex input.now ttl

def saveDecision (decision : D) : Call D Unit :=
  withUnit i .save fun _ factory unit => unit.saveDecision factory decision

def completeMessage (identity : InboxIdentity) (token : Uuid) : Call D Bool :=
  withUnit i .complete fun input _ unit => unit.completeMessage identity token.hex input.now

def rollback : Call D Unit := withUnit i .rollback fun _ _ unit => (.ok (), unit.rollback)

/-- The commit of the call's unit of work, which also goes on record. -/
def commitUnit (s : Shared D) : Except Failure Unit × Shared D :=
  match UnitOfWork.commit s.factory (s.units i) with
  | (.error error, unit, factory) =>
    (.error (.other error), { s with factory, units := Function.update s.units i unit })
  | (.ok (), unit, factory) =>
    (.ok (), { s with
      factory
      units := Function.update s.units i unit
      commits := s.commits ++ [⟨i, (s.units i).staged, (s.units i).completions.map Completion.identity⟩] })

def commit : Call D Unit := .act .commit fun _ => commitUnit i

/-- `__aexit__`: roll back what is not finished, then release the lock. -/
def exit : Call D Unit :=
  .act .exit fun _ s => (.ok (), { s with units := Function.update s.units i (s.units i).rollback, lock := none })

/-- The handler is awaited; it returns a decision or raises. -/
def handle : Call D D := .act .handle fun input s => (input.handled, s)

def ack : Call D Unit := .act .ack fun input s => (input.answered, { s with acked := s.acked ++ [i] })

def retry : Call D Unit := .act .retry fun input s => (input.answered, { s with retried := s.retried ++ [i] })

def terminate : Call D Unit :=
  .act .terminate fun input s => (input.answered, { s with terminated := s.terminated ++ [i] })

/-- `authority_deadline.remaining`. -/
def remaining : Call D Bool := .act .clock fun input s => (.ok input.remaining, s)

def draw : Call D Uuid := .act .draw fun input s => (.ok input.token, s)

def now : Call D Int := .act .clock fun input s => (.ok input.now, s)

/-- `quarantine.add`; its lock is the one await of it that can be cut short. -/
def add (record : RejectedDelivery) : Call D Bool :=
  .act (.add record) fun input s =>
    match input.interrupt with
    | some cause => (.error (.interrupted cause), s)
    | none =>
      ((s.quarantine.add record).1.mapError .other, { s with quarantine := (s.quarantine.add record).2 })

end

section
variable (sha256 : List UInt8 → String) (i : Nat) (c : AsyncConsumer δ) (message : Message δ)

/-- A part of the transaction with the value `committing` has during it. -/
def during (committing : Bool) (part : Call D α) : Coroutine (Shared D) (Outside D) Operation (Bool × Failure) α :=
  part.mapError (committing, ·)

/-- `asyncio.timeout`: its own cancellation leaves the block as a `TimeoutError`. -/
def expire (cause : Interrupt) (failure : Failure) : Failure :=
  if failure = .interrupted cause then .timeout else failure

/-- The block inside the unit of work. -/
def attempt (token : Uuid) : Coroutine (Shared D) (Outside D) Operation (Bool × Failure) Outcome := do
  match ← during false (reserveMessage i (c.identity message) token c.reservationTtl) with
  | .duplicate _ =>
    during true (commit i)
    pure .acknowledged
  | .accepted _ =>
    let decision ← during false handle
    during false (saveDecision i decision)
    let authority ← during false remaining
    let completed ← if authority then during false (completeMessage i (c.identity message) token) else pure false
    if completed then
      during true (commit i)
      pure .acknowledged
    else Coroutine.raise (false, .retryable "inbox execution authority expired")
  | _ =>
    during false (rollback i)
    pure .retried

/-- The body of the `try`: what it raises carries the value of `committing`. -/
def transact (token : Uuid) : Coroutine (Shared D) (Outside D) Operation (Bool × Failure) Outcome :=
  Coroutine.mapError (fun raised => (raised.1, expire .expired raised.2)) do
    during false (enter i)
    (attempt i c message token).ensure (during false (exit i))

def retryDelivery : Call D DeliveryDisposition := do
  retry i
  pure .retry

def quarantineDelivery (reason : String) (failedAt : Int) : Call D DeliveryDisposition :=
  match c.codec message with
  | .error error => Coroutine.raise (.other error)
  | .ok encoded =>
    match rejectedDelivery sha256 (c.quarantineId message) message.id message.source c.consumer failedAt reason encoded
        c.quarantinePolicy (Dict.empty.set "event_type" message.type) with
    | .error _ => retryDelivery i
    | .ok record =>
      (add record).andThen fun
        | .error (.interrupted cause) => Coroutine.raise (.interrupted cause)
        | .error _ => retryDelivery i
        | .ok _ => do
          terminate i
          pure (.terminated record.quarantineId)

/-- `_process`. -/
def processDelivery : Call D DeliveryDisposition := do
  let token ← draw
  (transact i c message token).andThen fun
    | .ok .acknowledged => do
      ack i
      pure .ack
    | .ok .retried => retryDelivery i
    | .error (false, .permanent reason) => do
      let failedAt ← now
      quarantineDelivery sha256 i c message reason failedAt
    | .error (false, .timeout) => retryDelivery i
    | .error (false, .retryable _) => retryDelivery i
    | .error (_, failure) => Coroutine.raise failure

/-- `process`: a single delivery, if the consumer has room for it. -/
def process : Call D DeliveryDisposition := do
  let busy ← Coroutine.act .arrive fun input s => (.ok input.busy, s)
  if busy then Coroutine.raise .busy
  else
    match c.codec message with
    | .error error => Coroutine.raise (.other error)
    | .ok encoded =>
      if c.maxMessageBytes < encoded.length then
        Coroutine.raise (.other (.valueError "delivery exceeds configured message byte limit"))
      else processDelivery sha256 i c message

/-- A delivery that `run` takes from its queue, perhaps too late to handle it. -/
def consume : Call D DeliveryDisposition := do
  let late ← Coroutine.act .arrive fun input s => (.ok input.late, s)
  if late then retryDelivery i
  else (processDelivery sha256 i c message).mapError (expire .overdue)

end

/-- A call under way: by which consumer, of which delivery, and whether it was
made through `process` or from the queue of `run`. -/
structure Delivery (δ : Type) where
  consumer : AsyncConsumer δ
  message : Message δ
  queued : Bool

def Delivery.identity (delivery : Delivery δ) : InboxIdentity := delivery.consumer.identity delivery.message

def Delivery.quarantineId (delivery : Delivery δ) : String := delivery.consumer.quarantineId delivery.message

def Delivery.run (delivery : Delivery δ) (sha256 : List UInt8 → String) (i : Nat) : Call D DeliveryDisposition :=
  if delivery.queued then consume sha256 i delivery.consumer delivery.message
  else process sha256 i delivery.consumer delivery.message

/-- The maintenance of the inbox. -/
def Maintained (s t : Shared D) : Prop :=
  ∃ plan : PurgeInboxPlan, t = { s with factory := { s.factory with inbox := (s.factory.inbox.purge plan).2 } }

/-- Any number of calls on one factory and one quarantine, none yet begun. -/
def start (D : Type) (sha256 : List UInt8 → String) (capacity quarantineCapacity : Nat) (deliveries : Nat → Delivery δ) :
    EventLoop (Shared D) (Outside D) Operation Failure DeliveryDisposition :=
  ⟨.start D capacity quarantineCapacity, fun i => (deliveries i).run sha256 i⟩

end AsyncConsumer

end Pytitect
