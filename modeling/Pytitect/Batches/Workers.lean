import Mathlib.Logic.Function.Basic
import Mathlib.Logic.Relation
import Pytitect.Batches.Transactions

namespace Pytitect

/-- Where a call of `execute` with `BatchPolicy.PER_ITEM` stands between two
of its steps against the stores. -/
inductive Phase (P R : Type)
  | called
  | proving (lease : MutationBatchLease R)
  | applying (rest : List (BatchItem P)) (lease : MutationBatchLease R) (receipts : List (BatchItemReceipt R))
  | returned (result : BatchResult R)
  | raised (error : PyError)

namespace Phase
variable {P R : Type}

/-- The phase after a block whose `_RollbackBatch` ends the call with its refusal. -/
def after {α : Type} (next : α → Phase P R) : Except PyError (Except BatchRefusal α) → Phase P R
  | .error error => .raised error
  | .ok (.error refusal) => .returned (.refused refusal)
  | .ok (.ok value) => next value

def begun : MutationBatchBeginResult R → Phase P R
  | .replay receipts => .returned (.replay receipts)
  | .refused refusal => .returned (.refused refusal)
  | .lease lease => .proving lease

/-- How many turns a phase can still need. -/
def budget (items : List (BatchItem P)) : Phase P R → Nat
  | .called => items.length + 3
  | .proving _ => items.length + 2
  | .applying rest _ _ => rest.length + 1
  | .returned _ => 0
  | .raised _ => 0

theorem budget_after {items : List (BatchItem P)} {α : Type} {next : α → Phase P R} {bound : Nat}
    (within : ∀ value, budget items (next value) ≤ bound) (ended : Except PyError (Except BatchRefusal α)) :
    budget items (after next ended) ≤ bound := by
  rcases ended with error | refusal | value
  · exact Nat.zero_le _
  · exact Nat.zero_le _
  · exact within value

end Phase

namespace Coordinator
variable {P R : Type} [DecidableEq R] (env : Environment P R) (identity : BatchIdentity) (items : List (BatchItem P))

/-- One step of a call: the `begin` of the batch, which no transaction
covers, or one whole transaction. -/
def turn (policy : IdempotencyPolicy) : Phase P R → World P R → Phase P R × World P R
  | .called, w =>
    if identity.batchId = "" ∨ identity.ns = "" then
      (.raised (.valueError "batch_id and namespace are required"), w)
    else
      match validateItems env items with
      | .error error => (.raised error, w)
      | .ok () =>
        match env.batchFingerprint .perItem items with
        | .error error => (.raised error, w)
        | .ok fingerprint =>
          (settled (begin env identity fingerprint items.length policy) w).map (Phase.after Phase.begun) id
  | .proving lease, w =>
    (settled (atomic (provePrefix env lease items policy)) w).map
      (Phase.after fun proven => .applying (items.drop proven.1.nextIndex) proven.1 proven.2) id
  | .applying [] lease receipts, w =>
    (settled (atomic (finish env lease policy)) w).map
      (Phase.after fun completed =>
        .returned (if completed then .committed receipts else .itemsCommittedEnvelopeUnconfirmed receipts)) id
  | .applying (item :: rest) lease receipts, w =>
    (settled (atomic (applyItem env identity lease item policy)) w).map
      (Phase.after fun applied => .applying rest applied.1 (receipts ++ [applied.2])) id
  | .returned result, w => (.returned result, w)
  | .raised error, w => (.raised error, w)

/-- What remains of the call in each phase. -/
def remainder (policy : IdempotencyPolicy) : Phase P R → Program (World P R) PyError (BatchResult R)
  | .called => execute env identity items .perItem policy
  | .proving lease => do
    match ← settled (atomic (provePrefix env lease items policy)) with
    | .error refusal => pure (.refused refusal)
    | .ok (lease, receipts) => perItemLoop env identity policy (items.drop lease.nextIndex) lease receipts
  | .applying rest lease receipts => perItemLoop env identity policy rest lease receipts
  | .returned result => pure result
  | .raised error => Program.raise error

/-- A turn does the first part of what remains and leaves the rest of it. -/
theorem remainder_turn (policy : IdempotencyPolicy) (phase : Phase P R) (w : World P R) :
    remainder env identity items policy phase w =
      remainder env identity items policy (turn env identity items policy phase w).1
        (turn env identity items policy phase w).2 := by
  cases phase with
  | called =>
    simp only [remainder, turn, execute]
    split
    · rfl
    cases validateItems env items with
    | error error => rfl
    | ok valid =>
      cases env.batchFingerprint .perItem items with
      | error error => rfl
      | ok fingerprint =>
        simp only [perItem, bind]
        rcases settled (begin env identity fingerprint items.length policy) w with ⟨_ | _ | _ | _ | _, v⟩ <;> rfl
  | proving lease =>
    simp only [remainder, turn, bind]
    rcases settled (atomic (provePrefix env lease items policy)) w with ⟨_ | _ | _, v⟩ <;> rfl
  | applying rest lease receipts =>
    cases rest with
    | nil =>
      simp only [remainder, turn, perItemLoop, bind]
      rcases settled (atomic (finish env lease policy)) w with ⟨_ | _ | _ | _, v⟩ <;> rfl
    | cons item rest =>
      simp only [remainder, turn, perItemLoop, bind]
      rcases settled (atomic (applyItem env identity lease item policy)) w with ⟨_ | _ | _, v⟩ <;> rfl
  | returned result => rfl
  | raised error => rfl

theorem budget_turn (policy : IdempotencyPolicy) (phase : Phase P R) (w : World P R) :
    (turn env identity items policy phase w).1.budget items ≤ phase.budget items - 1 := by
  cases phase with
  | called =>
    simp only [turn]
    split
    · exact Nat.zero_le _
    cases validateItems env items with
    | error error => exact Nat.zero_le _
    | ok valid =>
      cases env.batchFingerprint .perItem items with
      | error error => exact Nat.zero_le _
      | ok fingerprint =>
        refine Phase.budget_after (fun decision => ?_) _
        cases decision <;> simp [Phase.begun, Phase.budget]
  | proving lease => exact Phase.budget_after (fun proven => by simp [Phase.budget]) _
  | applying rest lease receipts =>
    cases rest with
    | nil => exact Phase.budget_after (fun completed => by simp [Phase.budget]) _
    | cons item rest => exact Phase.budget_after (fun applied => by simp [Phase.budget]) _
  | returned result => exact Nat.zero_le _
  | raised error => exact Nat.zero_le _

/-- The state of a call after `n` turns with nobody else at work. -/
def turns (policy : IdempotencyPolicy) : Nat → Phase P R × World P R → Phase P R × World P R
  | 0, state => state
  | n + 1, state => turns policy n (turn env identity items policy state.1 state.2)

theorem turns_end (policy : IdempotencyPolicy) (n : Nat) (state : Phase P R × World P R)
    (within : state.1.budget items ≤ n) :
    (turns env identity items policy n state).1.budget items = 0 ∧
      remainder env identity items policy state.1 state.2 =
        remainder env identity items policy (turns env identity items policy n state).1
          (turns env identity items policy n state).2 := by
  induction n generalizing state with
  | zero => exact ⟨Nat.le_zero.mp within, rfl⟩
  | succ n ih =>
    have less := budget_turn env identity items policy state.1 state.2
    obtain ⟨ended, same⟩ := ih (turn env identity items policy state.1 state.2) (by omega)
    exact ⟨ended, (remainder_turn env identity items policy state.1 state.2).trans same⟩

/-- Left alone, a call is the sequence of its turns and ends after at most `items.length + 3` of them. -/
theorem execute_eq_turns (policy : IdempotencyPolicy) (w : World P R) :
    ∃ phase v, turns env identity items policy (items.length + 3) (.called, w) = (phase, v) ∧
      ((∃ result, phase = .returned result ∧ execute env identity items .perItem policy w = (.ok result, v)) ∨
        ∃ error, phase = .raised error ∧ execute env identity items .perItem policy w = (.error error, v)) := by
  obtain ⟨ended, same⟩ := turns_end env identity items policy (items.length + 3) (.called, w) (Nat.le_refl _)
  rcases last : turns env identity items policy (items.length + 3) (.called, w) with ⟨phase, v⟩
  rw [last] at ended same
  refine ⟨phase, v, rfl, ?_⟩
  cases phase with
  | called => simp [Phase.budget] at ended
  | proving lease => simp [Phase.budget] at ended
  | applying rest lease receipts => simp [Phase.budget] at ended
  | returned result => exact Or.inl ⟨result, rfl, same⟩
  | raised error => exact Or.inr ⟨error, rfl, same⟩

end Coordinator

end Pytitect
