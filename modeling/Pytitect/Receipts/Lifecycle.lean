import Pytitect.Receipts.Store
import Pytitect.Lib.History
import Mathlib.Logic.Relation

namespace Pytitect

section
variable {T M : Type} [MetadataMapping M]

namespace Receipt

/-- What no change touches, and the clock that no change turns back. -/
structure Kept (first last : Receipt T M) : Prop where
  receiptId : last.receiptId = first.receiptId
  kind : last.kind = first.kind
  createdAt : last.createdAt = first.createdAt
  metadata : last.metadata = first.metadata
  updatedAt : first.updatedAt ≤ last.updatedAt

/-- A change along the declared transitions. -/
structure Declared (receipt target : Receipt T M) : Prop where
  kept : Kept receipt target
  state : target.state ∈ receipt.state.transitions
  result : target.state = .completed → target.result.isSome

/-- A reconciliation of an uncertain receipt to a confirmed terminal state. -/
structure Confirms (receipt target : Receipt T M) : Prop where
  kept : Kept receipt target
  uncertain : receipt.state = .uncertain
  state : target.state.confirmed = true
  result : target.state = .completed → target.result.isSome

def Moves (receipt target : Receipt T M) : Prop := Declared receipt target ∨ Confirms receipt target

/-- What becomes of a receipt while it is stored. -/
structure Evolves (first last : Receipt T M) : Prop where
  path : Relation.ReflTransGen Moves first last
  kept : Kept first last
  settled : first.state.confirmed = true → last = first
  completed : last.state = .completed → last = first ∨ last.result.isSome

variable {receipt target first middle last : Receipt T M}

theorem Kept.refl : Kept receipt receipt := ⟨rfl, rfl, rfl, rfl, Int.le_refl _⟩

theorem Kept.trans (early : Kept first middle) (late : Kept middle last) : Kept first last :=
  ⟨late.receiptId.trans early.receiptId, late.kind.trans early.kind, late.createdAt.trans early.createdAt,
    late.metadata.trans early.metadata, Int.le_trans early.updatedAt late.updatedAt⟩

theorem Moves.kept (moves : Moves receipt target) : Kept receipt target :=
  moves.elim (·.kept) (·.kept)

theorem Moves.result (moves : Moves receipt target) (completed : target.state = .completed) : target.result.isSome :=
  moves.elim (·.result completed) (·.result completed)

/-- A completed, rejected or conflicted receipt cannot move. -/
theorem Moves.unsettled (moves : Moves receipt target) : receipt.state.confirmed = false := by
  rcases moves with declared | confirms
  · have listed := declared.state
    cases state : receipt.state with
    | accepted | processing | uncertain => rfl
    | completed | rejected | conflicted => simp [state, ReceiptState.transitions] at listed
  · rw [confirms.uncertain]
    rfl

theorem Evolves.refl (receipt : Receipt T M) : Evolves receipt receipt :=
  ⟨.refl, .refl, fun _ => rfl, fun _ => Or.inl rfl⟩

theorem Evolves.moved (evolves : Evolves first middle) (moves : Moves middle last) : Evolves first last := by
  refine ⟨evolves.path.tail moves, evolves.kept.trans moves.kept, fun settled => ?_, fun completed => Or.inr (moves.result completed)⟩
  have unsettled := moves.unsettled
  rw [evolves.settled settled, settled] at unsettled
  cases unsettled

/-- What `transition` proposes is a declared change. -/
theorem transition_declared {at_ : Int} {state : ReceiptState} {result : Option T}
    (proposed : receipt.transition state at_ result = .transitioned target) : Declared receipt target := by
  unfold transition at proposed
  split at proposed
  · cases proposed
  split at proposed
  · cases proposed
  split at proposed
  · cases proposed
  · rename_i early listed carries
    cases proposed
    refine ⟨⟨rfl, rfl, rfl, rfl, Int.not_lt.mp early⟩, Decidable.not_not.mp listed, fun completed => ?_⟩
    cases given : result with
    | none => exact absurd ⟨completed, by rw [given]; rfl⟩ carries
    | some value => simp [replaced]

theorem validReconciliation_iff : receipt.validReconciliation target = true ↔ Confirms receipt target := by
  simp only [validReconciliation, Bool.and_eq_true, Bool.or_eq_true, decide_eq_true_eq]
  constructor
  · rintro ⟨⟨⟨⟨⟨⟨⟨uncertain, confirmed⟩, sameId⟩, sameKind⟩, sameCreation⟩, later⟩, sameMetadata⟩, carries⟩
    refine ⟨⟨sameId, sameKind, sameCreation, sameMetadata, later⟩, uncertain, confirmed, fun completed => ?_⟩
    exact carries.resolve_left (absurd completed)
  · rintro ⟨⟨sameId, sameKind, sameCreation, sameMetadata, later⟩, uncertain, confirmed, carries⟩
    refine ⟨⟨⟨⟨⟨⟨⟨uncertain, confirmed⟩, sameId⟩, sameKind⟩, sameCreation⟩, later⟩, sameMetadata⟩, ?_⟩
    by_cases completed : target.state = .completed
    · exact Or.inr (carries completed)
    · exact Or.inl completed

variable [DecidableEq T]

theorem proposes_iff : receipt.proposes target = true ↔
    receipt.transition target.state target.updatedAt target.result = .transitioned target := by
  unfold proposes
  split
  · rename_i proposed found
    rw [found, TransitionResult.transitioned.injEq, decide_eq_true_eq]
  · rename_i found
    rw [found]
    exact ⟨fun absurd => (by cases absurd), fun absurd => (by cases absurd)⟩

end Receipt

open Receipt

/-- The calls of the store and of its reconciler. -/
inductive ReceiptCall (T M : Type) [MetadataMapping M]
  | add (receipt : Receipt T M)
  | transition (receipt target : Receipt T M)
  | reconcileUncertain (receipt target : Receipt T M)
  | purge (plan : PurgeReceiptsPlan)
  | reconcile (receiptId : OpaqueId) (target : ReceiptState) (at_ : Int) (result : Option T)

inductive ReceiptAnswer (T M : Type) [MetadataMapping M]
  | added (result : Except PyError Bool)
  | changed (result : Bool)
  | purged (summary : MaintenanceSummary)
  | reconciled (result : Except PyError (ReconciliationResult T M))

namespace ReceiptStore
variable {s : ReceiptStore T M} {receipt target : Receipt T M} {receiptId : OpaqueId}

/-- Every receipt is stored under its own id. -/
def Keyed (s : ReceiptStore T M) : Prop := ∀ receiptId receipt, s.get receiptId = some receipt → receipt.receiptId = receiptId

theorem keyed_set {receipts : Dict OpaqueId (Receipt T M)} {capacity capacity' : Nat}
    (keyed : Keyed ⟨capacity, receipts⟩) (receipt : Receipt T M) : Keyed ⟨capacity', receipts.set receipt.receiptId receipt⟩ := by
  intro id stored found
  rcases Dict.get?_set_cases found with ⟨rfl, rfl⟩ | ⟨-, old⟩
  · rfl
  · exact keyed id stored old

/-- `add` stores a receipt whose id is free, or changes nothing. -/
theorem add_cases (s : ReceiptStore T M) (receipt : Receipt T M) :
    (s.add receipt).2 = s ∧ (s.add receipt).1 ≠ .ok true ∨
      s.get receipt.receiptId = none ∧ (s.add receipt).1 = .ok true ∧
        (s.add receipt).2 = { s with receipts := s.receipts.set receipt.receiptId receipt } := by
  unfold add
  split
  · exact Or.inl ⟨rfl, by simp⟩
  split
  · exact Or.inl ⟨rfl, by simp⟩
  · rename_i absent _
    exact Or.inr ⟨Dict.get?_eq_none.mpr absent, rfl, rfl⟩

/-- What a plan selects is stored, in one of the states that the plan removes. -/
theorem purgeSelected_stored {plan : PurgeReceiptsPlan} (keyed : Keyed s) (selected : receipt ∈ s.purgeSelected plan) :
    s.get receipt.receiptId = some receipt ∧ plan.terminal receipt.state = true := by
  have listed := List.mem_of_mem_firstBy selected
  rw [List.mem_filter, Bool.and_eq_true] at listed
  obtain ⟨stored, removable, -⟩ := listed
  obtain ⟨⟨id, _⟩, member, rfl⟩ := List.mem_map.mp stored
  have found : s.get id = some _ := Dict.mem_items.mp member
  have same := keyed id _ found
  exact ⟨same ▸ found, removable⟩

theorem purge_cases (keyed : Keyed s) (plan : PurgeReceiptsPlan) (receiptId : OpaqueId) :
    (s.purge plan).2.get receiptId = s.get receiptId ∨
      (s.purge plan).2.get receiptId = none ∧ ∃ receipt, s.get receiptId = some receipt ∧ plan.terminal receipt.state = true := by
  unfold purge
  dsimp only
  split
  · exact Or.inl rfl
  · unfold get
    rw [Dict.get?_popAll]
    split
    · rename_i removed
      obtain ⟨receipt, selected, rfl⟩ := List.mem_map.mp removed
      exact Or.inr ⟨rfl, receipt, purgeSelected_stored keyed selected⟩
    · exact Or.inl rfl

theorem purge_shrinks (s : ReceiptStore T M) (plan : PurgeReceiptsPlan) {receiptId : OpaqueId}
    (found : (s.purge plan).2.get receiptId = some receipt) : s.get receiptId = some receipt := by
  unfold purge get at *
  dsimp only at found
  split at found
  · exact found
  · rw [Dict.get?_popAll] at found
    split at found
    · cases found
    · exact found

variable [DecidableEq T]

/-- A compare-and-set replaces the stored receipt by the target, or changes nothing. -/
theorem compareAndSet_cases (s : ReceiptStore T M) (receipt target : Receipt T M) :
    s.compareAndSet receipt target = (false, s) ∧ s.get receipt.receiptId ≠ some receipt ∨
      s.compareAndSet receipt target = (true, { s with receipts := s.receipts.set receipt.receiptId target }) ∧
        s.get receipt.receiptId = some receipt := by
  unfold compareAndSet
  split
  · rename_i other
    exact Or.inl ⟨rfl, other⟩
  · rename_i same
    exact Or.inr ⟨rfl, Decidable.not_not.mp same⟩

theorem transition_cases (s : ReceiptStore T M) (receipt target : Receipt T M) :
    s.transition receipt target = (false, s) ∨ Declared receipt target ∧ s.get receipt.receiptId = some receipt ∧
      s.transition receipt target = (true, { s with receipts := s.receipts.set receipt.receiptId target }) := by
  unfold transition
  split
  · rename_i proposed
    rcases s.compareAndSet_cases receipt target with ⟨refused, -⟩ | ⟨done, stored⟩
    · exact Or.inl refused
    · exact Or.inr ⟨transition_declared (proposes_iff.mp proposed), stored, done⟩
  · exact Or.inl rfl

theorem reconcileUncertain_cases (s : ReceiptStore T M) (receipt target : Receipt T M) :
    s.reconcileUncertain receipt target = (false, s) ∨ Confirms receipt target ∧ s.get receipt.receiptId = some receipt ∧
      s.reconcileUncertain receipt target = (true, { s with receipts := s.receipts.set receipt.receiptId target }) := by
  unfold reconcileUncertain
  split
  · rename_i valid
    rcases s.compareAndSet_cases receipt target with ⟨refused, -⟩ | ⟨done, stored⟩
    · exact Or.inl refused
    · exact Or.inr ⟨validReconciliation_iff.mp valid, stored, done⟩
  · exact Or.inl rfl

/-- The reconciler changes nothing, or what `reconcile_uncertain` changes. -/
theorem reconcile_cases (keyed : Keyed s) (receiptId : OpaqueId) (state : ReceiptState) (at_ : Int) (result : Option T) :
    (ReceiptReconciler.reconcile s receiptId state at_ result).2 = s ∨
      ∃ receipt target, receipt.receiptId = receiptId ∧ Confirms receipt target ∧ s.get receiptId = some receipt ∧
        (ReceiptReconciler.reconcile s receiptId state at_ result).2 =
          { s with receipts := s.receipts.set receiptId target } := by
  unfold ReceiptReconciler.reconcile
  split
  · exact Or.inl rfl
  split
  · exact Or.inl rfl
  rename_i current found
  split
  · exact Or.inl rfl
  split
  · exact Or.inl rfl
  split
  · exact Or.inl rfl
  rename_i early _
  dsimp only
  have own := keyed receiptId current found
  rcases s.reconcileUncertain_cases current (current.replaced state at_ result (Int.not_lt.mp early)) with
    refused | ⟨confirms, -, done⟩
  · rw [refused]
    exact Or.inl rfl
  · rw [done, own]
    exact Or.inr ⟨current, _, own, confirms, found, rfl⟩

/-- One call to the store or to its reconciler. -/
def answer (s : ReceiptStore T M) : ReceiptCall T M → ReceiptAnswer T M × ReceiptStore T M
  | .add receipt => (.added (s.add receipt).1, (s.add receipt).2)
  | .transition receipt target => (.changed (s.transition receipt target).1, (s.transition receipt target).2)
  | .reconcileUncertain receipt target =>
    (.changed (s.reconcileUncertain receipt target).1, (s.reconcileUncertain receipt target).2)
  | .purge plan => (.purged (s.purge plan).1, (s.purge plan).2)
  | .reconcile receiptId target at_ result =>
    (.reconciled (ReceiptReconciler.reconcile s receiptId target at_ result).1,
      (ReceiptReconciler.reconcile s receiptId target at_ result).2)

/-- What a call may do to the receipt of one id. -/
inductive Change (s : ReceiptStore T M) (receiptId : OpaqueId) : ReceiptCall T M → Option (Receipt T M) → Prop
  | none {call after} : after = s.get receiptId → Change s receiptId call after
  | added (receipt : Receipt T M) : s.get receiptId = .none → receipt.receiptId = receiptId →
      Change s receiptId (.add receipt) (some receipt)
  | transitioned (receipt target : Receipt T M) : s.get receiptId = some receipt → Declared receipt target →
      Change s receiptId (.transition receipt target) (some target)
  | confirmed (receipt target : Receipt T M) : s.get receiptId = some receipt → Confirms receipt target →
      Change s receiptId (.reconcileUncertain receipt target) (some target)
  | reconciled (receipt target : Receipt T M) (state at_ result) : s.get receiptId = some receipt → Confirms receipt target →
      Change s receiptId (.reconcile receiptId state at_ result) (some target)
  | removed (receipt : Receipt T M) (plan : PurgeReceiptsPlan) : s.get receiptId = some receipt →
      plan.terminal receipt.state = true → Change s receiptId (.purge plan) .none

omit [DecidableEq T] in
theorem get_set {capacity : Nat} {receipts : Dict OpaqueId (Receipt T M)} {id : OpaqueId} :
    (ReceiptStore.mk capacity (receipts.set receiptId target)).get id =
      if id = receiptId then some target else receipts.get? id :=
  Dict.get?_set receipts receiptId id target

/-- Every call changes the receipt of each id in one of the permitted ways. -/
theorem answer_change (keyed : Keyed s) (call : ReceiptCall T M) (receiptId : OpaqueId) :
    Change s receiptId call ((s.answer call).2.get receiptId) := by
  cases call with
  | add receipt =>
    rcases s.add_cases receipt with ⟨same, -⟩ | ⟨absent, -, done⟩
    · simp only [answer, same]
      exact .none rfl
    · simp only [answer, done, get_set]
      split
      · rename_i own
        subst own
        exact .added receipt absent rfl
      · exact .none rfl
  | transition receipt target =>
    rcases s.transition_cases receipt target with refused | ⟨declared, stored, done⟩
    · simp only [answer, refused]
      exact .none rfl
    · simp only [answer, done, get_set]
      split
      · rename_i own
        subst own
        exact .transitioned receipt target stored declared
      · exact .none rfl
  | reconcileUncertain receipt target =>
    rcases s.reconcileUncertain_cases receipt target with refused | ⟨confirms, stored, done⟩
    · simp only [answer, refused]
      exact .none rfl
    · simp only [answer, done, get_set]
      split
      · rename_i own
        subst own
        exact .confirmed receipt target stored confirms
      · exact .none rfl
  | purge plan =>
    rcases purge_cases keyed plan receiptId with same | ⟨gone, receipt, stored, removable⟩
    · simp only [answer, same]
      exact .none rfl
    · simp only [answer, gone]
      exact .removed receipt plan stored removable
  | reconcile id state at_ result =>
    rcases reconcile_cases keyed id state at_ result with same | ⟨receipt, target, -, confirms, stored, done⟩
    · simp only [answer, same]
      exact .none rfl
    · simp only [answer, done, get_set]
      split
      · rename_i own
        subst own
        exact .reconciled receipt target state at_ result stored confirms
      · exact .none rfl

theorem keyed_answer (keyed : Keyed s) (call : ReceiptCall T M) : Keyed (s.answer call).2 := by
  intro id stored found
  have change := answer_change keyed call id
  rw [found] at change
  cases change with
  | none same => exact keyed id stored same.symm
  | added _ _ own => exact own
  | transitioned receipt _ present declared => exact declared.kept.receiptId.trans (keyed id receipt present)
  | confirmed receipt _ present confirms => exact confirms.kept.receiptId.trans (keyed id receipt present)
  | reconciled receipt _ _ _ _ present confirms => exact confirms.kept.receiptId.trans (keyed id receipt present)

/-- Any calls, in any order. -/
abbrev Run (init : ReceiptStore T M) (past : List (ReceiptCall T M × ReceiptAnswer T M)) (s : ReceiptStore T M) : Prop :=
  History answer (fun _ _ _ => True) init past s

theorem run_keyed {init : ReceiptStore T M} {past : List (ReceiptCall T M × ReceiptAnswer T M)} (keyed : Keyed init)
    (run : Run init past s) : Keyed s :=
  run.state_invariant keyed fun _ _ call keyed _ => keyed_answer keyed call

/-- A purge of the run that removed the receipt which the first one had become. -/
def Removed (init : ReceiptStore T M) (past : List (ReceiptCall T M × ReceiptAnswer T M)) (first : Receipt T M)
    (receiptId : OpaqueId) : Prop :=
  ∃ before plan summary after u last, past = before ++ (.purge plan, summary) :: after ∧ Run init before u ∧
    u.get receiptId = some last ∧ Evolves first last ∧ plan.terminal last.state = true ∧ (u.purge plan).2.get receiptId = none

/-- A stored receipt evolves until a purge removes it. -/
theorem run_evolves {init : ReceiptStore T M} {past : List (ReceiptCall T M × ReceiptAnswer T M)} (keyed : Keyed init)
    (run : Run init past s) {first : Receipt T M} (stored : init.get receiptId = some first) :
    (∃ last, s.get receiptId = some last ∧ Evolves first last) ∨ Removed init past first receiptId := by
  induction run with
  | start => exact Or.inl ⟨first, stored, .refl first⟩
  | @next past s call run _ ih =>
    rcases ih with ⟨last, present, evolves⟩ | ⟨before, plan, summary, after, u, last, split, rest⟩
    · have change := answer_change (run_keyed keyed run) call receiptId
      generalize found : (s.answer call).2.get receiptId = after at change
      cases change with
      | none same => exact Or.inl ⟨last, same.trans present, evolves⟩
      | added _ absent => rw [present] at absent; cases absent
      | transitioned receipt target same declared =>
        cases present.symm.trans same
        exact Or.inl ⟨target, rfl, evolves.moved (Or.inl declared)⟩
      | confirmed receipt target same confirms =>
        cases present.symm.trans same
        exact Or.inl ⟨target, rfl, evolves.moved (Or.inr confirms)⟩
      | reconciled receipt target _ _ _ same confirms =>
        cases present.symm.trans same
        exact Or.inl ⟨target, rfl, evolves.moved (Or.inr confirms)⟩
      | removed receipt plan same removable =>
        cases present.symm.trans same
        exact Or.inr ⟨past, plan, _, [], s, last, rfl, run, present, evolves, removable, found⟩
    · refine Or.inr ⟨before, plan, summary, after ++ [(call, (s.answer call).1)], u, last, ?_, rest⟩
      rw [split, List.append_assoc, List.cons_append]

/-- From any reachable state on, a call changes the receipt of an id only in a permitted way,
and the receipt evolves along these ways until a purge removes it. -/
theorem receipts_follow_lifecycle (capacity : Nat) {past : List (ReceiptCall T M × ReceiptAnswer T M)} {s : ReceiptStore T M}
    (run : Run (.empty capacity) past s) :
    (∀ call receiptId, Change s receiptId call ((s.answer call).2.get receiptId)) ∧
      ∀ future t, Run s future t → ∀ receiptId first, s.get receiptId = some first →
        (∃ last, t.get receiptId = some last ∧ Evolves first last) ∨ Removed s future first receiptId := by
  have keyed : Keyed s := run_keyed (by intro id receipt found; cases found) run
  exact ⟨fun call receiptId => answer_change keyed call receiptId,
    fun future t further receiptId first stored => run_evolves keyed further stored⟩

end ReceiptStore

end

/-- Receipts without metadata. -/
instance noMetadata : MetadataMapping Unit := ⟨inferInstance, fun _ => 0, fun _ => .ok ()⟩

namespace ReceiptStore

/-- A command receipt of an order, for a state, a time and a result. -/
def orderReceipt (state : ReceiptState) (elapsed : Nat) (result : Option Nat) : Receipt Nat Unit :=
  ⟨⟨"order", Sample.order_proper⟩, .command, true, state, 0, elapsed, result, (), by omega, by decide⟩

def orderAdded : List (ReceiptCall Nat Unit) := [.add (orderReceipt .accepted 0 none)]

def orderSettled : List (ReceiptCall Nat Unit) :=
  [.transition (orderReceipt .accepted 0 none) (orderReceipt .processing 1 none),
    .transition (orderReceipt .processing 1 none) (orderReceipt .completed 2 (some 7))]

theorem order_completed : ∃ past s future t, Run (.empty 2) past s ∧ Run s future t ∧
    s.get ⟨"order", by decide⟩ = some (orderReceipt .accepted 0 none) ∧
    t.get ⟨"order", by decide⟩ = some (orderReceipt .completed 2 (some 7)) ∧
    ((∃ last, t.get ⟨"order", by decide⟩ = some last ∧ Receipt.Evolves (orderReceipt .accepted 0 none) last) ∨
      Removed s future (orderReceipt .accepted 0 none) ⟨"order", by decide⟩) := by
  have adding : Run (.empty 2) _ (History.after answer (.empty 2) orderAdded) := History.ofInputs ⟨trivial, trivial⟩
  have settling : Run (History.after answer (.empty 2) orderAdded) _
      (History.after answer (History.after answer (.empty 2) orderAdded) orderSettled) :=
    History.ofInputs ⟨trivial, trivial, trivial⟩
  exact ⟨_, _, _, _, adding, settling, by decide +kernel, by decide +kernel,
    (receipts_follow_lifecycle 2 adding).2 _ _ settling _ _ (by decide +kernel)⟩

end ReceiptStore

end Pytitect
