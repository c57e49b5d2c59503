import Pytitect.Core
import Pytitect.Lib.Blocks
import Pytitect.Lib.Dict

namespace Pytitect

structure Checkpoint where
  value : List UInt8
  nonempty : value ≠ []
  deriving DecidableEq

structure CheckpointItem (P : Type) where
  checkpoint : Checkpoint
  payload : P

/-- `_validate_stream` -/
def validateStream (stream : String) : Except PyError Unit :=
  if stream = "" then .error (.valueError "stream must not be empty") else .ok ()

/-- `InMemoryCheckpointStore`. -/
structure CheckpointStore where
  capacity : Nat
  values : Dict String Checkpoint

namespace CheckpointStore

def empty (capacity : Nat) : CheckpointStore := ⟨capacity, .empty⟩

def load (s : CheckpointStore) (stream : String) : Except PyError (Option Checkpoint) := do
  validateStream stream
  return s.values.get? stream

def advance (s : CheckpointStore) (stream : String) (expected : Option Checkpoint) (checkpoint : Checkpoint) :
    Except PyError Bool × CheckpointStore :=
  match validateStream stream with
  | .error error => (.error error, s)
  | .ok () =>
    if s.values.get? stream ≠ expected then (.ok false, s)
    else if stream ∉ s.values.keys ∧ s.capacity ≤ s.values.size then
      (.error (.overflowError "checkpoint capacity exceeded"), s)
    else (.ok true, { s with values := s.values.set stream checkpoint })

end CheckpointStore

structure CheckpointBatchResult where
  applied : Nat
  previous : Option Checkpoint
  pending : Option Checkpoint

/-- `StateCommittedCheckpointConfirmed` and `StateCommittedCheckpointUnconfirmed`. -/
inductive DeferredCheckpointResult
  | confirmed (batch : CheckpointBatchResult)
  | unconfirmed (batch : CheckpointBatchResult)

/-- A change of the checkpoint store by another worker. -/
structure RivalAdvance where
  stream : String
  expected : Option Checkpoint
  checkpoint : Checkpoint

/-- The arguments of `apply`, and what goes on during the call: the iterator yields items or raises,
`apply_state` makes changes and may raise after them, other workers advance checkpoints, and the end
of the atomic block may raise. -/
structure DeferredCall (P E : Type) where
  stream : String
  items : List (Except PyError (CheckpointItem P))
  applyState : Nat → P → List E × Except PyError Unit
  rivals : List RivalAdvance
  closing : Except PyError Unit

namespace DeferredCall
variable {P E : Type}

/-- The loop over the items: how many were applied, and the last checkpoint. -/
def applyItems (applyState : Nat → P → List E × Except PyError Unit) :
    List (Except PyError (CheckpointItem P)) → Nat → Option Checkpoint → Blocks E →
      Except PyError (Nat × Option Checkpoint) × Blocks E
  | [], applied, last, blocks => (.ok (applied, last), blocks)
  | .error error :: _, _, _, blocks => (.error error, blocks)
  | .ok item :: rest, applied, _, blocks =>
    match applyState applied item.payload with
    | (changes, .error error) => (.error error, blocks.write changes)
    | (changes, .ok ()) => applyItems applyState rest (applied + 1) (some item.checkpoint) (blocks.write changes)

/-- What the other workers do to the store. -/
def afterRivals (s : CheckpointStore) (rivals : List RivalAdvance) : CheckpointStore :=
  rivals.foldl (fun s rival => (s.advance rival.stream rival.expected rival.checkpoint).2) s

/-- `DeferredCheckpointCoordinator.apply`. The checkpoint is advanced when the block of the call has
ended, whether or not that block is inside another one; `on_commit` is not used. -/
def apply (call : DeferredCall P E) (blocks : Blocks E) (checkpoints : CheckpointStore) :
    Except PyError DeferredCheckpointResult × Blocks E × CheckpointStore :=
  match checkpoints.load call.stream with
  | .error error => (.error error, blocks, checkpoints)
  | .ok previous =>
    let meanwhile := afterRivals checkpoints call.rivals
    match applyItems call.applyState call.items 0 none blocks.enter with
    | (.error error, inner) => (.error error, inner.rollback, meanwhile)
    | (.ok (applied, last), inner) =>
      match call.closing with
      | .error error => (.error error, inner.rollback, meanwhile)
      | .ok () =>
        let batch := ⟨applied, previous, last⟩
        match last with
        | none => (.ok (.confirmed batch), inner.commit, meanwhile)
        | some checkpoint =>
          match meanwhile.advance call.stream previous checkpoint with
          | (.error error, after) => (.error error, inner.commit, after)
          | (.ok true, after) => (.ok (.confirmed batch), inner.commit, after)
          | (.ok false, after) => (.ok (.unconfirmed batch), inner.commit, after)

end DeferredCall

end Pytitect
