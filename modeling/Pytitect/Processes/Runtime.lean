import Pytitect.Lib.Coroutine
import Pytitect.Processes.Store

namespace Pytitect

abbrev ProcessDecider : Type := Option ProcessState → JsonValue → Except PyError ProcessDecision

/-- `ProcessManagerRegistry.require`. -/
def requireDecider (registry : Dict String ProcessDecider) (name : String) : Except PyError ProcessDecider :=
  match registry.get? name with
  | none => .error (.lookupError ("unknown process manager: " ++ name))
  | some decide => .ok decide

/-- A committed decision: who computed it from which state, and the state it led to. -/
structure ProcessCommit where
  worker : Nat
  key : ProcessKey
  before : Option ProcessState
  decision : ProcessDecision
  after : ProcessState

/-- The store the workers share, with the history of what they committed. -/
structure ProcessWorld where
  store : ProcessManagerStore
  commits : List ProcessCommit

namespace ProcessManagerRuntime

/-- A call of a worker; its clock is read when the decision is applied. -/
abbrev Task : Type := Coroutine ProcessWorld Int Unit PyError ProcessApplyResult

/-- `store.apply`, which enters a committed decision into the history. -/
def applyDecision (worker : Nat) (key : ProcessKey) (before : Option ProcessState) (decision : ProcessDecision)
    (at_ : Int) (world : ProcessWorld) : Except PyError ProcessApplyResult × ProcessWorld :=
  let expected : Nat := (before.map (·.version)).getD 0
  match world.store.apply key expected decision at_ with
  | (.ok (.applied after effects scheduled cancelled), store) =>
    (.ok (.applied after effects scheduled cancelled), ⟨store, world.commits ++ [⟨worker, key, before, decision, after⟩]⟩)
  | (result, store) => (result, { world with store })

/-- A call of `handle` on some runtime: the registry is the runtime's own. -/
structure HandleCall where
  registry : Dict String ProcessDecider
  key : ProcessKey
  input : JsonValue

/-- What the call decides once it has loaded the state. -/
def HandleCall.decide (call : HandleCall) (current : Option ProcessState) : Except PyError ProcessDecision := do
  let decide ← requireDecider call.registry call.key.name
  decide current call.input

def HandleCall.handle (call : HandleCall) (worker : Nat) : Task :=
  match validateJson call.input .default with
  | .error error => Coroutine.raise error
  | .ok () => do
    let current ← Coroutine.act () fun _ world => (.ok (world.store.load call.key), world)
    match call.decide current with
    | .error error => Coroutine.raise error
    | .ok decision => Coroutine.act () fun at_ world => applyDecision worker call.key current decision at_ world

/-- Workers on an empty store, one call each. -/
def start (capacity : Nat) (calls : Nat → HandleCall) : EventLoop ProcessWorld Int Unit PyError ProcessApplyResult :=
  ⟨⟨.empty capacity, []⟩, fun i => (calls i).handle i⟩

/-- Any worker takes its next step. -/
abbrev Step : EventLoop ProcessWorld Int Unit PyError ProcessApplyResult →
    EventLoop ProcessWorld Int Unit PyError ProcessApplyResult → Prop :=
  EventLoop.Step (fun _ _ => False) fun _ _ => True

end ProcessManagerRuntime

end Pytitect
