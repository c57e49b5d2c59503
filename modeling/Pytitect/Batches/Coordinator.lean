import Pytitect.Batches.Store
import Pytitect.Lib.Program

namespace Pytitect

structure BatchLimits where
  maxItems : Nat
  maxBytes : Nat
  positive : 0 < maxItems ∧ 0 < maxBytes

structure BatchItem (P : Type) where
  itemId : String
  payload : P
  valid : itemId ≠ "" ∧ trimmed itemId = true

inductive BatchResult (R : Type)
  | committed (receipts : List (BatchItemReceipt R))
  | replay (receipts : List (BatchItemReceipt R))
  | refused (refusal : BatchRefusal)
  | itemsCommittedEnvelopeUnconfirmed (receipts : List (BatchItemReceipt R))
  deriving DecidableEq

/-- A write of `mutate` in the consumer's database, with how the call ended. -/
structure Mutation (P R : Type) where
  item : BatchItem P
  outcome : Except PyError R

/-- What surrounds the coordinator. The clock, the supply of `uuid4` and the
consumer's `mutate` may answer differently at every call, so each is a
function of how often it has been asked; canonical JSON and its digests
depend on their argument alone. -/
structure Environment (P R : Type) where
  clock : Nat → Int
  uuid : Nat → Uuid
  mutate : Nat → BatchItem P → String → Except PyError R
  itemFingerprint : P → Except PyError RequestFingerprint
  batchFingerprint : BatchPolicy → List (BatchItem P) → Except PyError RequestFingerprint
  canonicalSize : List (BatchItem P) → Except PyError Nat
  databaseAlias : String
  limits : BatchLimits

/-- An environment to evaluate the coordinator in: every mutation yields 7 and
the `n`-th `uuid4` is a row of `n + 1` letters. -/
def Environment.counting (clock : Nat → Int) : Environment Nat Nat where
  clock := clock
  uuid n := ⟨String.ofList (List.replicate (n + 1) 'u'), by simp [String.ext_iff, List.replicate_succ]⟩
  mutate _ _ _ := .ok 7
  itemFingerprint payload := .ok ⟨toString payload⟩
  batchFingerprint _ _ := .ok ⟨"batch"⟩
  canonicalSize _ := .ok 1
  databaseAlias := "default"
  limits := ⟨10, 10, by decide⟩

theorem Environment.counting_fresh (clock : Nat → Int) : Function.Injective (Environment.counting clock).uuid := by
  intro n m same
  have lengths := congrArg (fun token : Uuid => token.hex.length) same
  simpa [Environment.counting] using lengths

/-- The two stores and the consumer's database, which a transaction covers,
and the counters of the outside world, which no rollback turns back. -/
structure World (P R : Type) where
  batches : MutationBatchStore R
  items : IdempotencyStore (BatchItemReceipt R)
  effects : List (Mutation P R)
  reads : Nat
  draws : Nat
  calls : Nat

/-- What leaves a transaction body: the internal `_RollbackBatch` or any other exception. -/
inductive BatchFailure
  | rollback (refusal : BatchRefusal)
  | raised (error : PyError)

/-- The decisions of an item reservation that let the item go on. -/
inductive ItemGrant (R : Type)
  | execute (token : ReservationToken)
  | replay (receipt : BatchItemReceipt R)

/-- `_item_decision`: a refusal, or the grant the caller continues with. -/
def itemDecision {R : Type} (itemId : String) :
    IdempotencyDecision (BatchItemReceipt R) → Except BatchRefusal (ItemGrant R)
  | .conflict reason => .error (.conflict (some itemId) reason)
  | .inProgress retryAfter => .error (.inProgress (some itemId) retryAfter)
  | .uncertain reason => .error (.uncertain (some itemId) reason)
  | .execute token => .ok (.execute token)
  | .replay receipt => .ok (.replay receipt)

def unprovableReason : String := "a committed item receipt is no longer provable within retention"

/-- `IdempotencyScope(namespace, batch_id, f"mutation-item:{item_id}")`. -/
def itemScope (identity : BatchIdentity) (itemId : String) : Except PyError IdempotencyScope :=
  if nonempty : identity.ns ≠ "" ∧ identity.batchId ≠ "" ∧ "mutation-item:" ++ itemId ≠ "" then
    .ok ⟨identity.ns, identity.batchId, "mutation-item:" ++ itemId, nonempty⟩
  else .error (.valueError "idempotency scope parts must not be empty")

namespace Coordinator
variable {P R : Type}

/-- Undo every write of a transaction body. -/
def rollback (before after : World P R) : World P R :=
  { after with batches := before.batches, items := before.items, effects := before.effects }

def atomic {α : Type} (body : Program (World P R) BatchFailure α) : Program (World P R) BatchFailure α :=
  Program.atomic rollback body

def ofExcept {α : Type} : Except PyError α → Program (World P R) BatchFailure α
  | .ok a => pure a
  | .error error => Program.raise (.raised error)

def onBatches {α : Type} (operation : MutationBatchStore R → Except PyError α × MutationBatchStore R) :
    Program (World P R) BatchFailure α :=
  Program.zoom World.batches (fun batches w => { w with batches }) .raised operation

def onItems {α : Type} (operation : IdempotencyStore (BatchItemReceipt R) →
    Except PyError α × IdempotencyStore (BatchItemReceipt R)) : Program (World P R) BatchFailure α :=
  Program.zoom World.items (fun items w => { w with items }) .raised operation

variable (env : Environment P R)

/-- `self._clock.now()`. -/
def now : Program (World P R) BatchFailure Int := fun w =>
  (.ok (env.clock w.reads), { w with reads := w.reads + 1 })

def uuid : Program (World P R) BatchFailure Uuid := fun w =>
  (.ok (env.uuid w.draws), { w with draws := w.draws + 1 })

/-- `mutate(item, self._using)`: the write happens before the call returns or raises. -/
def mutate (item : BatchItem P) : Program (World P R) BatchFailure R := fun w =>
  let outcome := env.mutate w.calls item env.databaseAlias
  (outcome.mapError .raised, { w with effects := w.effects ++ [⟨item, outcome⟩], calls := w.calls + 1 })

/-- `_begin`. -/
def begin (identity : BatchIdentity) (fingerprint : RequestFingerprint) (totalItems : Nat)
    (policy : IdempotencyPolicy) : Program (World P R) BatchFailure (MutationBatchBeginResult R) := do
  let instant ← now env
  let token ← uuid env
  onBatches (·.begin identity fingerprint totalItems instant policy.executionLeaseTtl token)

/-- `_reserve_item`. -/
def reserveItem (identity : BatchIdentity) (item : BatchItem P) (policy : IdempotencyPolicy) :
    Program (World P R) BatchFailure (IdempotencyDecision (BatchItemReceipt R)) := do
  let scope ← ofExcept (itemScope identity item.itemId)
  let fingerprint ← ofExcept (env.itemFingerprint item.payload)
  let instant ← now env
  let token ← uuid env
  onItems (·.reserve scope item.itemId fingerprint instant policy.executionLeaseTtl ⟨token.hex, token.nonempty⟩)

variable [DecidableEq R]

/-- `_renew_batch`. -/
def renewBatch (lease : MutationBatchLease R) (itemId : Option String) (policy : IdempotencyPolicy) :
    Program (World P R) BatchFailure (MutationBatchLease R) := do
  let instant ← now env
  match ← onBatches (·.renew lease instant policy.executionLeaseTtl) with
  | .renewed lease => pure lease
  | .stale reason => Program.raise (.rollback (.uncertain itemId reason))

/-- The loop of `_prove_prefix` over `zip(items, receipts, strict=True)`. -/
def provePrefixLoop (policy : IdempotencyPolicy) :
    List (BatchItem P) → List (BatchItemReceipt R) → MutationBatchLease R → List (BatchItemReceipt R) →
      Program (World P R) BatchFailure (MutationBatchLease R × List (BatchItemReceipt R))
  | [], [], lease, proven => pure (lease, proven)
  | item :: items, stored :: receipts, lease, proven => do
    let lease ← renewBatch env lease (some item.itemId) policy
    let decision ← reserveItem env lease.identity item policy
    if decision = .replay stored then
      provePrefixLoop policy items receipts lease (proven ++ [{ stored with replayed := true }])
    else
      if let .execute token := decision then
        let instant ← now env
        let _ ← onItems (·.abandon token instant)
      let instant ← now env
      let _ ← onBatches (·.markUncertain lease unprovableReason instant policy.uncertaintyRetentionTtl)
      Program.raise (.rollback (.uncertain (some item.itemId) unprovableReason))
  | [], _ :: _, _, _ => Program.raise (.raised (.valueError "zip() argument 2 is longer than argument 1"))
  | _ :: _, [], _, _ => Program.raise (.raised (.valueError "zip() argument 2 is shorter than argument 1"))

/-- `_prove_prefix`. -/
def provePrefix (lease : MutationBatchLease R) (items : List (BatchItem P)) (policy : IdempotencyPolicy) :
    Program (World P R) BatchFailure (MutationBatchLease R × List (BatchItemReceipt R)) :=
  if lease.resumed = false then pure (lease, lease.receipts)
  else provePrefixLoop env policy (items.take lease.nextIndex) lease.receipts lease []

/-- The receipt of a granted item: the retained one, or that of a new mutation
whose receipt has been stored under the item's own lease. -/
def settleItem (item : BatchItem P) (grant : ItemGrant R) (policy : IdempotencyPolicy) :
    Program (World P R) BatchFailure (BatchItemReceipt R) :=
  match grant with
  | .replay value =>
    if value.itemId ≠ item.itemId then
      Program.raise (.rollback (.uncertain (some item.itemId) "stored item receipt identity does not match"))
    else pure { value with replayed := true }
  | .execute token => do
    let instant ← now env
    match ← onItems (·.renew token instant policy.executionLeaseTtl) with
    | .stale _ =>
      Program.raise (.rollback (.uncertain (some item.itemId) "item lease renewal failed before mutation"))
    | .renewed _ =>
      let result ← mutate env item
      let receipt : BatchItemReceipt R := ⟨item.itemId, result, false⟩
      let instant ← now env
      match ← onItems (·.complete token receipt instant policy.resultRetentionTtl) with
      | .stale _ =>
        Program.raise (.rollback (.uncertain (some item.itemId) "item receipt CAS failed; mutation rolled back"))
      | .completed _ => pure receipt

/-- `_apply_reserved_item`. -/
def applyReservedItem (lease : MutationBatchLease R) (item : BatchItem P) (grant : ItemGrant R)
    (policy : IdempotencyPolicy) : Program (World P R) BatchFailure (MutationBatchLease R × BatchItemReceipt R) := do
  let lease ← renewBatch env lease (some item.itemId) policy
  let receipt ← settleItem env item grant policy
  let instant ← now env
  match ← onBatches (·.advance lease { receipt with replayed := false } instant policy.executionLeaseTtl) with
  | .stale _ =>
    Program.raise (.rollback (.uncertain (some item.itemId) "batch progress CAS failed; item rolled back"))
  | .progressed lease => pure (lease, receipt)

/-- Reserve an item and let a refusal abandon the transaction. -/
def grantItem (identity : BatchIdentity) (item : BatchItem P) (policy : IdempotencyPolicy) :
    Program (World P R) BatchFailure (ItemGrant R) := do
  match itemDecision item.itemId (← reserveItem env identity item policy) with
  | .error refusal => Program.raise (.rollback refusal)
  | .ok grant => pure grant

/-- `_apply_item`. -/
def applyItem (identity : BatchIdentity) (lease : MutationBatchLease R) (item : BatchItem P)
    (policy : IdempotencyPolicy) : Program (World P R) BatchFailure (MutationBatchLease R × BatchItemReceipt R) := do
  let lease ← renewBatch env lease (some item.itemId) policy
  let grant ← grantItem env identity item policy
  applyReservedItem env lease item grant policy

/-- `_finish`. -/
def finish (lease : MutationBatchLease R) (policy : IdempotencyPolicy) : Program (World P R) BatchFailure Bool := do
  let instant ← now env
  match ← onBatches (·.renew lease instant policy.executionLeaseTtl) with
  | .stale _ => pure false
  | .renewed lease =>
    let instant ← now env
    match ← onBatches (·.complete lease instant policy.resultRetentionTtl) with
    | .completed _ => pure true
    | .stale _ => pure false

/-- The first loop of `_all_or_nothing`: reserve every item before any mutation. -/
def reserveAll (identity : BatchIdentity) (policy : IdempotencyPolicy) :
    List (BatchItem P) → MutationBatchLease R → List (BatchItem P × ItemGrant R) →
      Program (World P R) BatchFailure (MutationBatchLease R × List (BatchItem P × ItemGrant R))
  | [], lease, reservations => pure (lease, reservations)
  | item :: items, lease, reservations => do
    let lease ← renewBatch env lease (some item.itemId) policy
    let grant ← grantItem env identity item policy
    reserveAll identity policy items lease (reservations ++ [(item, grant)])

/-- The second loop of `_all_or_nothing`. -/
def applyAll (policy : IdempotencyPolicy) :
    List (BatchItem P × ItemGrant R) → MutationBatchLease R → List (BatchItemReceipt R) →
      Program (World P R) BatchFailure (MutationBatchLease R × List (BatchItemReceipt R))
  | [], lease, receipts => pure (lease, receipts)
  | (item, grant) :: reservations, lease, receipts => do
    let (lease, receipt) ← applyReservedItem env lease item grant policy
    applyAll policy reservations lease (receipts ++ [receipt])

/-- The transaction body of `_all_or_nothing`. -/
def allOrNothingBody (identity : BatchIdentity) (fingerprint : RequestFingerprint) (items : List (BatchItem P))
    (policy : IdempotencyPolicy) : Program (World P R) BatchFailure (BatchResult R) := do
  match ← begin env identity fingerprint items.length policy with
  | .replay receipts => pure (.replay receipts)
  | .refused refusal => Program.raise (.rollback refusal)
  | .lease decision =>
    let (lease, receipts) ← provePrefix env decision items policy
    let (lease, reservations) ← reserveAll env identity policy (items.drop lease.nextIndex) lease []
    let (lease, receipts) ← applyAll env policy reservations lease receipts
    if ← finish env lease policy then pure (.committed receipts)
    else Program.raise (.rollback (.uncertain none "final batch CAS failed"))

/-- `except _RollbackBatch as failure: return failure.result`. -/
def caught : BatchFailure → Except PyError (BatchResult R)
  | .rollback refusal => .ok (.refused refusal)
  | .raised error => .error error

def allOrNothing (identity : BatchIdentity) (fingerprint : RequestFingerprint) (items : List (BatchItem P))
    (policy : IdempotencyPolicy) : Program (World P R) PyError (BatchResult R) :=
  Program.recover caught (atomic (allOrNothingBody env identity fingerprint items policy))

/-- `except _RollbackBatch` around one block of `_per_item`. -/
def settled {α : Type} (body : Program (World P R) BatchFailure α) :
    Program (World P R) PyError (Except BatchRefusal α) :=
  Program.recover
    (fun failure =>
      match failure with
      | .rollback refusal => .ok (.error refusal)
      | .raised error => .error error)
    (do return .ok (← body))

/-- The item loop of `_per_item` and its final transaction. -/
def perItemLoop (identity : BatchIdentity) (policy : IdempotencyPolicy) :
    List (BatchItem P) → MutationBatchLease R → List (BatchItemReceipt R) →
      Program (World P R) PyError (BatchResult R)
  | [], lease, receipts => do
    match ← settled (atomic (finish env lease policy)) with
    | .error refusal => pure (.refused refusal)
    | .ok true => pure (.committed receipts)
    | .ok false => pure (.itemsCommittedEnvelopeUnconfirmed receipts)
  | item :: items, lease, receipts => do
    match ← settled (atomic (applyItem env identity lease item policy)) with
    | .error refusal => pure (.refused refusal)
    | .ok (lease, receipt) => perItemLoop identity policy items lease (receipts ++ [receipt])

/-- `_per_item`: the first store call runs outside any transaction. -/
def perItem (identity : BatchIdentity) (fingerprint : RequestFingerprint) (items : List (BatchItem P))
    (policy : IdempotencyPolicy) : Program (World P R) PyError (BatchResult R) := do
  match ← settled (begin env identity fingerprint items.length policy) with
  | .error refusal => pure (.refused refusal)
  | .ok (.replay receipts) => pure (.replay receipts)
  | .ok (.refused refusal) => pure (.refused refusal)
  | .ok (.lease decision) =>
    match ← settled (atomic (provePrefix env decision items policy)) with
    | .error refusal => pure (.refused refusal)
    | .ok (lease, receipts) => perItemLoop env identity policy (items.drop lease.nextIndex) lease receipts

/-- `_validate_items`. -/
def validateItems (items : List (BatchItem P)) : Except PyError Unit :=
  if env.limits.maxItems < items.length then .error (.valueError "batch exceeds max_items")
  else if ¬(items.map BatchItem.itemId).Nodup then .error (.valueError "batch item IDs must be unique")
  else
    match env.canonicalSize items with
    | .error error => .error error
    | .ok size => if env.limits.maxBytes < size then .error (.valueError "batch exceeds max_bytes") else .ok ()

/-- `MutationBatchCoordinator.execute`. -/
def execute (identity : BatchIdentity) (items : List (BatchItem P)) (policy : BatchPolicy)
    (idempotencyPolicy : IdempotencyPolicy) : Program (World P R) PyError (BatchResult R) :=
  if identity.batchId = "" ∨ identity.ns = "" then
    Program.raise (.valueError "batch_id and namespace are required")
  else
    match validateItems env items with
    | .error error => Program.raise error
    | .ok () =>
      match env.batchFingerprint policy items with
      | .error error => Program.raise error
      | .ok fingerprint =>
        match policy with
        | .allOrNothing => allOrNothing env identity fingerprint items idempotencyPolicy
        | .perItem => perItem env identity fingerprint items idempotencyPolicy

end Coordinator

end Pytitect
