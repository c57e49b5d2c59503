import Pytitect.Checkpoints.Coordinator
import Pytitect.Lib.Coroutine

namespace Pytitect

inductive AtomicCheckpointResult
  | confirmed (batch : CheckpointBatchResult)
  | stale (previous attempted : Option Checkpoint)

/-- What leaves the transaction: `_RollbackStaleCheckpoint`, or any other exception. -/
inductive CheckpointRaise
  | stale (previous attempted : Option Checkpoint)
  | error (error : PyError)

/-- What a transaction has committed: the state effects it made, the checkpoint it started from, and
the checkpoint it set, if it set one. No operation reads it. -/
structure CheckpointCommit (E : Type) where
  worker : Option Nat
  stream : String
  previous : Option Checkpoint
  effects : List E
  checkpoint : Option Checkpoint

/-- The database that the state store and the checkpoint store share. -/
structure CheckpointDatabase (E : Type) where
  checkpoints : CheckpointStore
  state : List E
  commits : List (CheckpointCommit E)

/-- The arguments of `apply`, and what goes on during the call: the iterator yields items or raises,
`apply_state` makes changes and may raise after them, and the end of the atomic block may raise. -/
structure AtomicCall (P E : Type) where
  stream : String
  items : List (Except CheckpointRaise (CheckpointItem P))
  applyState : Nat → P → List E × Except CheckpointRaise Unit
  closing : Except PyError Unit

namespace AtomicCall
variable {P E α : Type}

/-- Work in a database whose other users act between its steps. -/
abbrev Task (E α : Type) : Type := Coroutine (CheckpointDatabase E) Unit Unit CheckpointRaise α

def onDatabase (f : CheckpointDatabase E → Except CheckpointRaise α × CheckpointDatabase E) : Task E α :=
  Coroutine.act () fun _ => f

/-- The loop over the items: how many were applied, the last checkpoint, and the changes so far. They
belong to the open transaction, so the database does not have them yet. -/
def applyItems (applyState : Nat → P → List E × Except CheckpointRaise Unit) :
    List (Except CheckpointRaise (CheckpointItem P)) → Nat → Option Checkpoint → List E → Task E (Nat × Option Checkpoint × List E)
  | [], applied, last, changes => pure (applied, last, changes)
  | item :: rest, applied, _, changes => do
    let item ← onDatabase fun db => (item, db)
    match applyState applied item.payload with
    | (_, .error error) => .raise error
    | (made, .ok ()) => applyItems applyState rest (applied + 1) (some item.checkpoint) (changes ++ made)

/-- The end of the transaction. Where it advances the checkpoint it locks the row until it ends, so
for all others the two are one step. -/
def finish (call : AtomicCall P E) (worker applied : Nat) (previous last : Option Checkpoint) (changes : List E)
    (db : CheckpointDatabase E) : Except CheckpointRaise CheckpointBatchResult × CheckpointDatabase E :=
  let committed (checkpoints : CheckpointStore) : Except CheckpointRaise CheckpointBatchResult × CheckpointDatabase E :=
    match call.closing with
    | .error error => (.error (.error error), db)
    | .ok () =>
      (.ok ⟨applied, previous, last⟩,
        ⟨checkpoints, db.state ++ changes, db.commits ++ [⟨some worker, call.stream, previous, changes, last⟩]⟩)
  match last with
  | none => committed db.checkpoints
  | some checkpoint =>
    match db.checkpoints.advance call.stream previous checkpoint with
    | (.error error, _) => (.error (.error error), db)
    | (.ok false, _) => (.error (.stale previous last), db)
    | (.ok true, checkpoints) => committed checkpoints

/-- The atomic block. -/
def transaction (call : AtomicCall P E) (worker : Nat) : Task E CheckpointBatchResult := do
  let previous ← onDatabase fun db => ((db.checkpoints.load call.stream).mapError .error, db)
  let (applied, last, changes) ← applyItems call.applyState call.items 0 none []
  onDatabase (call.finish worker applied previous last changes)

/-- `AtomicCheckpointCoordinator.apply`. -/
def apply (call : AtomicCall P E) (worker : Nat) : Task E AtomicCheckpointResult :=
  match validateStream call.stream with
  | .error error => .raise (.error error)
  | .ok () => (call.transaction worker).andThen fun
    | .ok batch => .done (.ok (.confirmed batch))
    | .error (.stale previous attempted) => .done (.ok (.stale previous attempted))
    | .error (.error error) => .raise (.error error)

/-- The items, all of which the iterator yields and `apply_state` accepts. -/
def Applies (applyState : Nat → P → List E × Except CheckpointRaise Unit) :
    List (Except CheckpointRaise (CheckpointItem P)) → Nat → List (CheckpointItem P) → List E → Prop
  | [], _, items, effects => items = [] ∧ effects = []
  | item :: rest, applied, items, effects => ∃ first later made following, item = .ok first ∧
      applyState applied first.payload = (made, .ok ()) ∧ Applies applyState rest (applied + 1) later following ∧
      items = first :: later ∧ effects = made ++ following

end AtomicCall

namespace CheckpointDatabase
variable {E : Type}

/-- What other writers do: they change the state, and advance the checkpoint of any stream. -/
inductive Rival (db : CheckpointDatabase E) : CheckpointDatabase E → Prop
  | advance (stream : String) (expected : Option Checkpoint) (checkpoint : Checkpoint) (effects : List E) (checkpoints : CheckpointStore) :
      db.checkpoints.advance stream expected checkpoint = (.ok true, checkpoints) →
      Rival db ⟨checkpoints, db.state ++ effects, db.commits ++ [⟨none, stream, expected, effects, some checkpoint⟩]⟩
  | change (stream : String) (effects : List E) :
      Rival db ⟨db.checkpoints, db.state ++ effects, db.commits ++ [⟨none, stream, none, effects, none⟩]⟩

/-- The checkpoint of a stream after some commits. -/
def latest (init : CheckpointStore) (commits : List (CheckpointCommit E)) (stream : String) : Option Checkpoint :=
  commits.foldl (fun held commit => if commit.stream = stream then commit.checkpoint.or held else held) (init.values.get? stream)

/-- The database is what its commits have made of it, and each checkpoint was set on the one before it. -/
structure Sound (init : CheckpointDatabase E) (db : CheckpointDatabase E) : Prop where
  state : db.state = init.state ++ db.commits.flatMap (·.effects)
  held : ∀ stream, db.checkpoints.values.get? stream = latest init.checkpoints db.commits stream
  chained : ∀ before commit after, db.commits = before ++ commit :: after → ∀ checkpoint, commit.checkpoint = some checkpoint →
    commit.previous = latest init.checkpoints before commit.stream

theorem latest_append (init : CheckpointStore) (commits : List (CheckpointCommit E)) (commit : CheckpointCommit E) (stream : String) :
    latest init (commits ++ [commit]) stream =
      if commit.stream = stream then commit.checkpoint.or (latest init commits stream) else latest init commits stream := by
  unfold latest
  rw [List.foldl_append]
  rfl

end CheckpointDatabase

end Pytitect
