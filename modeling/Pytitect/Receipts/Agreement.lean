import Pytitect.Receipts.Tables
import Pytitect.Receipts.Lifecycle

namespace Pytitect
open Receipt

/-- The three stores side by side. -/
structure ReceiptStores (T M : Type) [MetadataMapping M] where
  memory : ReceiptStore T M
  sql : SQLAlchemyReceiptStore M
  django : DjangoReceiptStore M

/-- The calls that all three stores have. -/
inductive ReceiptChange (T M : Type) [MetadataMapping M]
  | add (receipt : Receipt T M)
  | transition (receipt target : Receipt T M)
  | reconcileUncertain (receipt target : Receipt T M)

/-- What the three stores answer to one call. -/
structure ReceiptAnswers where
  memory : Except PyError Bool
  sql : Except PyError Bool
  django : Except PyError Bool

section
variable {T M : Type} [MetadataMapping M] (serializer : PayloadSerializer T) (codec : ResultCodec T)

/-- A result that the Django column takes and gives back: it passes `validate_json`
and is not written as null. -/
def Storable (result : Option T) : Prop :=
  codec.validate result = .ok () ∧ ∀ value, result = some value → codec.encode value ≠ .null

/-- A stored receipt is the presented one as soon as it has its state and `updated_at`. -/
def Current (memory : ReceiptStore T M) (receipt : Receipt T M) : Prop :=
  ∀ stored, memory.get receipt.receiptId = some stored → stored.state = receipt.state →
    stored.updatedAt = receipt.updatedAt → stored = receipt

theorem ResultCodec.read_column {codec : ResultCodec T} (inverse : ∀ value, codec.decode (codec.encode value) = value) {result : Option T}
    (storable : Storable codec result) : codec.read (codec.column result) = result := by
  cases result with
  | none => rfl
  | some value =>
    have written := storable.2 value rfl
    have read : ∀ json : JsonValue, json ≠ .null → codec.read json = some (codec.decode json) := by
      intro json other
      cases json with
      | null => exact absurd rfl other
      | _ => rfl
    rw [ResultCodec.column, Option.map_some, Option.getD_some, read _ written, inverse]

variable [DecidableEq T]

/-- When a call is answered alike. -/
def ReceiptChange.Agreeable (memory : ReceiptStore T M) : ReceiptChange T M → Prop
  | .add receipt => receipt.typed = true ∧ Storable codec receipt.result ∧ MetadataMapping.validate receipt.metadata = .ok ()
  | .transition receipt target =>
    receipt.proposes target = true → Storable codec target.result ∧ Current memory receipt
  | .reconcileUncertain receipt target =>
    receipt.validReconciliation target = true → target.typed = true ∧ Storable codec target.result ∧ Current memory receipt

/-- The capacity of the in-memory store is not reached. -/
def ReceiptChange.HasRoom (memory : ReceiptStore T M) : ReceiptChange T M → Prop
  | .add receipt => receipt.receiptId ∈ memory.receipts.keys ∨ memory.receipts.size < memory.capacity
  | .transition .. | .reconcileUncertain .. => True

namespace ReceiptStores

def empty (capacity : Nat) : ReceiptStores T M := ⟨.empty capacity, .empty, .empty⟩

/-- One call, made to each of the stores. -/
def answer (stores : ReceiptStores T M) : ReceiptChange T M → ReceiptAnswers × ReceiptStores T M
  | .add receipt =>
    (⟨(stores.memory.add receipt).1, .ok (stores.sql.add serializer receipt).1, (stores.django.add codec receipt).1⟩,
      ⟨(stores.memory.add receipt).2, (stores.sql.add serializer receipt).2, (stores.django.add codec receipt).2⟩)
  | .transition receipt target =>
    (⟨.ok (stores.memory.transition receipt target).1, .ok (stores.sql.transition serializer receipt target).1,
        (stores.django.transition codec receipt target).1⟩,
      ⟨(stores.memory.transition receipt target).2, (stores.sql.transition serializer receipt target).2,
        (stores.django.transition codec receipt target).2⟩)
  | .reconcileUncertain receipt target =>
    (⟨.ok (stores.memory.reconcileUncertain receipt target).1, .ok (stores.sql.reconcileUncertain serializer receipt target).1,
        (stores.django.reconcileUncertain codec receipt target).1⟩,
      ⟨(stores.memory.reconcileUncertain receipt target).2, (stores.sql.reconcileUncertain serializer receipt target).2,
        (stores.django.reconcileUncertain codec receipt target).2⟩)

/-- What the tables must be able to say of a stored receipt. -/
structure Tabular (codec : ResultCodec T) (receiptId : OpaqueId) (receipt : Receipt T M) : Prop where
  receiptId : receipt.receiptId = receiptId
  typed : receipt.typed = true
  result : codec.read (codec.column receipt.result) = receipt.result

/-- The rows of both tables are those of the stored receipts. -/
structure Aligned (stores : ReceiptStores T M) : Prop where
  tabular : ∀ receiptId receipt, stores.memory.get receiptId = some receipt → Tabular codec receiptId receipt
  sql : ∀ receiptId, stores.sql.rows.get? receiptId =
    (stores.memory.get receiptId).map (SQLAlchemyReceiptStore.values serializer)
  django : ∀ receiptId, stores.django.rows.get? receiptId =
    (stores.memory.get receiptId).map (DjangoReceiptStore.rowOf codec)

/-- The answers are one boolean. -/
def Alike (answers : ReceiptAnswers) : Prop :=
  ∃ result : Bool, answers.memory = .ok result ∧ answers.sql = .ok result ∧ answers.django = .ok result

/-- A store that says `True` held the presented receipt and now holds the target. -/
def ComparesAndSets (before after : OpaqueId → Except PyError (Option (Receipt T M))) (answer : Except PyError Bool)
    (receipt target : Receipt T M) : Prop :=
  answer = .ok true → before receipt.receiptId = .ok (some receipt) ∧ after receipt.receiptId = .ok (some target)

/-- Each of the stores does so. -/
def AllCompareAndSet (before after : ReceiptStores T M) (answers : ReceiptAnswers) (receipt target : Receipt T M) : Prop :=
  ComparesAndSets (fun id => .ok (before.memory.get id)) (fun id => .ok (after.memory.get id)) answers.memory receipt target ∧
    ComparesAndSets (before.sql.get serializer) (after.sql.get serializer) answers.sql receipt target ∧
    ComparesAndSets (before.django.get codec) (after.django.get codec) answers.django receipt target

section
variable {serializer codec} {stores : ReceiptStores T M} {receipt target : Receipt T M} {receiptId : OpaqueId}

omit [DecidableEq T] in
theorem Aligned.get_sql (aligned : Aligned serializer codec stores)
    (inverse : ∀ value, serializer.decode (serializer.encode value) = value) (receiptId : OpaqueId) :
    stores.sql.get serializer receiptId = .ok (stores.memory.get receiptId) := by
  rw [SQLAlchemyReceiptStore.get, aligned.sql]
  cases found : stores.memory.get receiptId with
  | none => rfl
  | some receipt =>
    obtain ⟨own, ofKind, -⟩ := aligned.tabular receiptId _ found
    obtain ⟨_, kind, typed, state, created, updated, result, metadata, ordered, bounded⟩ := receipt
    have decoded : (result.map serializer.encode).map serializer.decode = result := by
      rw [Option.map_map, show serializer.decode ∘ serializer.encode = id from funext inverse, Option.map_id_fun, id]
    dsimp only at own ofKind
    subst own ofKind
    simp only [Option.map_some, receiptOf, ReceiptRow.receipt, SQLAlchemyReceiptStore.values, ordered, bounded, dif_pos,
      decoded]
    rfl

omit [DecidableEq T] in
theorem Aligned.get_django (aligned : Aligned serializer codec stores) (receiptId : OpaqueId) :
    stores.django.get codec receiptId = .ok (stores.memory.get receiptId) := by
  rw [DjangoReceiptStore.get, aligned.django]
  cases found : stores.memory.get receiptId with
  | none => rfl
  | some receipt =>
    obtain ⟨own, ofKind, result⟩ := aligned.tabular receiptId _ found
    obtain ⟨_, kind, typed, state, created, updated, stored, metadata, ordered, bounded⟩ := receipt
    dsimp only at own ofKind result
    subst own ofKind
    simp only [Option.map_some, receiptOf, ReceiptRow.receipt, DjangoReceiptStore.rowOf, ordered, bounded, dif_pos, result]
    rfl

omit [DecidableEq T] in
/-- A receipt stored in memory, and its rows in the tables. -/
theorem Aligned.store (aligned : Aligned serializer codec stores) {sql : SQLAlchemyReceiptStore M} {django : DjangoReceiptStore M}
    (tabular : Tabular codec receiptId target)
    (rows : ∀ id, sql.rows.get? id =
      if id = receiptId then some (SQLAlchemyReceiptStore.values serializer target) else stores.sql.rows.get? id)
    (rows' : ∀ id, django.rows.get? id =
      if id = receiptId then some (DjangoReceiptStore.rowOf codec target) else stores.django.rows.get? id) :
    Aligned serializer codec
      ⟨{ stores.memory with receipts := stores.memory.receipts.set receiptId target }, sql, django⟩ := by
  refine ⟨fun id stored found => ?_, fun id => ?_, fun id => ?_⟩
  · rw [ReceiptStore.get_set] at found
    split at found
    · rename_i own
      cases found
      exact own ▸ tabular
    · exact aligned.tabular id stored found
  · dsimp only
    rw [rows, ReceiptStore.get_set]
    split
    · rfl
    · exact aligned.sql id
  · dsimp only
    rw [rows', ReceiptStore.get_set]
    split
    · rfl
    · exact aligned.django id

/-- A change that keeps what the tables do not compare is answered alike, and the stores stay aligned. -/
theorem Aligned.change (aligned : Aligned serializer codec stores) (kept : Kept receipt target)
    (typed : target.typed = receipt.typed ∨ target.typed = true)
    (inverse : ∀ value, codec.decode (codec.encode value) = value) (storable : Storable codec target.result)
    (current : Current stores.memory receipt) :
    ∃ result, (stores.memory.compareAndSet receipt target).1 = result ∧
      (stores.sql.cas serializer receipt target).1 = result ∧ (stores.django.change codec receipt target).1 = .ok result ∧
      Aligned serializer codec ⟨(stores.memory.compareAndSet receipt target).2, (stores.sql.cas serializer receipt target).2,
        (stores.django.change codec receipt target).2⟩ ∧
      (result = true → stores.memory.get receipt.receiptId = some receipt ∧
        (stores.memory.compareAndSet receipt target).2.get receipt.receiptId = some target) := by
  have row := aligned.sql receipt.receiptId
  have row' := aligned.django receipt.receiptId
  unfold SQLAlchemyReceiptStore.cas DjangoReceiptStore.change
  rw [storable.1, row, row']
  rcases stores.memory.compareAndSet_cases receipt target with ⟨refused, other⟩ | ⟨done, stored⟩
  · rw [refused]
    cases found : stores.memory.get receipt.receiptId with
    | none => exact ⟨false, rfl, rfl, rfl, aligned, by simp⟩
    | some present =>
      have apart : ¬(present.state = receipt.state ∧ present.updatedAt = receipt.updatedAt) := by
        rintro ⟨sameState, sameTime⟩
        exact other (found.trans (congrArg some (current present found sameState sameTime)))
      have columns : SQLAlchemyReceiptStore.values serializer present ≠ SQLAlchemyReceiptStore.values serializer receipt :=
        fun same => apart ⟨congrArg ReceiptRow.state same, congrArg ReceiptRow.updatedAt same⟩
      have column : (DjangoReceiptStore.rowOf codec present).state ≠ receipt.state ∨
          (DjangoReceiptStore.rowOf codec present).updatedAt ≠ receipt.updatedAt := not_and_or.mp apart
      simp only [Option.map_some, if_pos columns, if_pos column]
      exact ⟨false, rfl, rfl, rfl, aligned, by simp⟩
  · rw [done, stored]
    have tabular := aligned.tabular _ _ stored
    have same : ¬((DjangoReceiptStore.rowOf codec receipt).state ≠ receipt.state ∨
        (DjangoReceiptStore.rowOf codec receipt).updatedAt ≠ receipt.updatedAt) := by
      simp [DjangoReceiptStore.rowOf]
    simp only [Option.map_some, ne_eq, not_true_eq_false, if_false, if_neg same]
    refine ⟨true, rfl, rfl, rfl, ?_, fun _ => ⟨trivial, ?_⟩⟩
    · refine aligned.store ⟨kept.receiptId, typed.elim (·.trans tabular.typed) (·), codec.read_column inverse storable⟩
        (fun id => ?_) (fun id => ?_)
      · rw [Dict.get?_set, kept.receiptId, Dict.get?_pop]
        split <;> rfl
      · have written : { DjangoReceiptStore.rowOf codec receipt with
            state := target.state, updatedAt := target.updatedAt, result := codec.column target.result } =
            DjangoReceiptStore.rowOf codec target := by
          simp only [DjangoReceiptStore.rowOf, kept.kind, kept.createdAt, kept.metadata]
        rw [Dict.get?_set, written]
    · rw [ReceiptStore.get_set, if_pos rfl]

theorem Aligned.add (aligned : Aligned serializer codec stores) (inverse : ∀ value, codec.decode (codec.encode value) = value)
    (agreeable : (ReceiptChange.add receipt).Agreeable codec stores.memory)
    (room : (ReceiptChange.add receipt).HasRoom stores.memory) :
    Alike (stores.answer serializer codec (.add receipt)).1 ∧
      Aligned serializer codec (stores.answer serializer codec (.add receipt)).2 := by
  obtain ⟨typed, storable, valid⟩ := agreeable
  have row := aligned.sql receipt.receiptId
  have row' := aligned.django receipt.receiptId
  have validated : (codec.validate receipt.result >>= fun _ => MetadataMapping.validate receipt.metadata) = .ok () := by
    rw [storable.1]
    exact valid
  simp only [answer, SQLAlchemyReceiptStore.add, DjangoReceiptStore.add, ReceiptStore.add, validated, row, row']
  by_cases present : receipt.receiptId ∈ stores.memory.receipts.keys
  · rw [if_pos present]
    cases found : stores.memory.get receipt.receiptId with
    | none => exact absurd present (Dict.get?_eq_none.mp found)
    | some stored => exact ⟨⟨false, rfl, rfl, rfl⟩, aligned⟩
  · have absent : stores.memory.get receipt.receiptId = none := Dict.get?_eq_none.mpr present
    have space : ¬stores.memory.capacity ≤ stores.memory.receipts.size := by
      have bound := room.resolve_left present
      omega
    rw [if_neg present, if_neg space, absent]
    refine ⟨⟨true, rfl, rfl, rfl⟩, ?_⟩
    exact aligned.store ⟨rfl, typed, codec.read_column inverse storable⟩ (fun id => Dict.get?_set ..) (fun id => Dict.get?_set ..)

theorem proposes_typed (proposed : receipt.proposes target = true) : target.typed = receipt.typed := by
  have transitioned := proposes_iff.mp proposed
  unfold transition at transitioned
  split at transitioned
  · cases transitioned
  split at transitioned
  · cases transitioned
  split at transitioned
  · cases transitioned
  · exact (congrArg Receipt.typed (TransitionResult.transitioned.inj transitioned)).symm

/-- A change by either of the two calls, after the check of its own. -/
theorem Aligned.settle (aligned : Aligned serializer codec stores)
    (inverse : ∀ value, codec.decode (codec.encode value) = value) {call : ReceiptChange T M}
    (agreeable : call.Agreeable codec stores.memory) (room : call.HasRoom stores.memory) :
    Alike (stores.answer serializer codec call).1 ∧ Aligned serializer codec (stores.answer serializer codec call).2 ∧
      ∀ receipt target, call = .transition receipt target ∨ call = .reconcileUncertain receipt target →
        (stores.answer serializer codec call).1.memory = .ok true → stores.memory.get receipt.receiptId = some receipt ∧
          (stores.answer serializer codec call).2.memory.get receipt.receiptId = some target := by
  cases call with
  | add receipt =>
    have added := aligned.add inverse agreeable room
    refine ⟨added.1, added.2, ?_⟩
    rintro receipt target (other | other)
    · cases other
    · cases other
  | transition receipt target =>
    simp only [answer, ReceiptStore.transition, SQLAlchemyReceiptStore.transition, DjangoReceiptStore.transition]
    by_cases proposed : receipt.proposes target = true
    · obtain ⟨storable, current⟩ := agreeable proposed
      obtain ⟨result, memory, sql, django, after, sets⟩ := aligned.change (transition_declared (proposes_iff.mp proposed)).kept
        (.inl (proposes_typed proposed)) inverse storable current
      simp only [if_pos proposed]
      refine ⟨⟨result, congrArg _ memory, congrArg _ sql, django⟩, after, ?_⟩
      rintro _ _ (same | same) success
      · cases same
        exact sets (memory.symm.trans (Except.ok.inj success))
      · cases same
    · simp only [if_neg proposed]
      exact ⟨⟨false, rfl, rfl, rfl⟩, aligned, by simp⟩
  | reconcileUncertain receipt target =>
    simp only [answer, ReceiptStore.reconcileUncertain, SQLAlchemyReceiptStore.reconcileUncertain,
      DjangoReceiptStore.reconcileUncertain]
    by_cases valid : receipt.validReconciliation target = true
    · obtain ⟨typed, storable, current⟩ := agreeable valid
      obtain ⟨result, memory, sql, django, after, sets⟩ := aligned.change (validReconciliation_iff.mp valid).kept
        (.inr typed) inverse storable current
      simp only [if_pos valid]
      refine ⟨⟨result, congrArg _ memory, congrArg _ sql, django⟩, after, ?_⟩
      rintro _ _ (same | same) success
      · cases same
      · cases same
        exact sets (memory.symm.trans (Except.ok.inj success))
    · simp only [if_neg valid]
      exact ⟨⟨false, rfl, rfl, rfl⟩, aligned, by simp⟩

omit [DecidableEq T] in
theorem Aligned.empty (capacity : Nat) : Aligned serializer codec (ReceiptStores.empty (T := T) (M := M) capacity) :=
  ⟨fun _ _ absurd => (by cases absurd), fun _ => rfl, fun _ => rfl⟩

omit [DecidableEq T] in
/-- Once the answers are alike, what holds of the one store holds of all. -/
theorem Aligned.sets {after : ReceiptStores T M} {answers : ReceiptAnswers} (aligned : Aligned serializer codec stores)
    (aligned' : Aligned serializer codec after) (inverse : ∀ value, serializer.decode (serializer.encode value) = value)
    (alike : Alike answers)
    (sets : answers.memory = .ok true →
      stores.memory.get receipt.receiptId = some receipt ∧ after.memory.get receipt.receiptId = some target) :
    AllCompareAndSet serializer codec stores after answers receipt target := by
  obtain ⟨result, memory, sql, django⟩ := alike
  refine ⟨fun success => ?_, fun success => ?_, fun success => ?_⟩
  · obtain ⟨before, later⟩ := sets success
    exact ⟨congrArg Except.ok before, congrArg Except.ok later⟩
  · rw [aligned.get_sql inverse, aligned'.get_sql inverse]
    obtain ⟨before, later⟩ := sets (memory.trans (sql.symm.trans success))
    exact ⟨congrArg Except.ok before, congrArg Except.ok later⟩
  · rw [aligned.get_django, aligned'.get_django]
    obtain ⟨before, later⟩ := sets (memory.trans (django.symm.trans success))
    exact ⟨congrArg Except.ok before, congrArg Except.ok later⟩

/-- In every run of agreeable calls the three stores give one boolean to every call and hold
the same receipts, and each of them compares before it sets. -/
theorem receipt_stores_agree (inverse : ∀ value, serializer.decode (serializer.encode value) = value)
    (inverse' : ∀ value, codec.decode (codec.encode value) = value) {capacity : Nat}
    {past : List (ReceiptChange T M × ReceiptAnswers)}
    (run : History (answer serializer codec)
      (fun stores _ call => call.HasRoom stores.memory ∧ call.Agreeable codec stores.memory) (.empty capacity) past stores) :
    (∀ event ∈ past, Alike event.2) ∧
      (∀ receiptId, stores.sql.get serializer receiptId = .ok (stores.memory.get receiptId) ∧
        stores.django.get codec receiptId = .ok (stores.memory.get receiptId)) ∧
      ∀ receipt target call, call = .transition receipt target ∨ call = .reconcileUncertain receipt target →
        call.Agreeable codec stores.memory →
        AllCompareAndSet serializer codec stores (stores.answer serializer codec call).2
          (stores.answer serializer codec call).1 receipt target := by
  have kept := run.answers (P := fun _ stores => Aligned serializer codec stores) (Q := fun event => Alike event.2)
    (.empty capacity) (fun past stores call aligned permitted => by
      obtain ⟨alike, after, -⟩ := aligned.settle inverse' permitted.2 permitted.1
      exact ⟨after, alike⟩)
  obtain ⟨aligned, alike⟩ := kept
  refine ⟨alike, fun id => ⟨aligned.get_sql inverse id, aligned.get_django id⟩, fun receipt target call isChange agreeable => ?_⟩
  have room : call.HasRoom stores.memory := by
    rcases isChange with rfl | rfl <;> trivial
  obtain ⟨alike, after, sets⟩ := aligned.settle inverse' agreeable room
  exact aligned.sets after inverse alike (sets receipt target isChange)

omit [DecidableEq T] in
theorem current_of {memory : ReceiptStore T M} (stored : memory.get receipt.receiptId = some receipt) : Current memory receipt := by
  intro other found _ _
  exact Option.some.inj (found.symm.trans stored)

end

open ReceiptStore (orderReceipt)

/-- Numbers in unary, to run the stores on. -/
def unary : PayloadSerializer Nat := ⟨fun n => List.replicate n 0x31, List.length⟩

def numeric : ResultCodec Nat :=
  ⟨fun n => .int n, fun value => match value with
    | .int n => n.toNat
    | _ => 0⟩

/-- An order that is accepted and processed, and an answer that comes too late. -/
def processedOrder : List (ReceiptChange Nat Unit) :=
  [.add (orderReceipt .accepted 0 none), .transition (orderReceipt .accepted 0 none) (orderReceipt .processing 1 none),
    .transition (orderReceipt .accepted 0 none) (orderReceipt .rejected 2 none)]

theorem stores_agree_on_order : ∃ (past : List (ReceiptChange Nat Unit × ReceiptAnswers)) (stores : ReceiptStores Nat Unit),
    History (answer unary numeric)
      (fun stores _ call => call.HasRoom stores.memory ∧ call.Agreeable numeric stores.memory) (.empty 2) past stores ∧
    (∀ event ∈ past, Alike event.2) ∧ past.map (·.2.django) = [.ok true, .ok true, .ok false] := by
  have permitted : History.Permitted (answer unary numeric)
      (fun stores _ call => call.HasRoom stores.memory ∧ call.Agreeable numeric stores.memory) [] (.empty 2) processedOrder := by
    refine ⟨⟨.inr (by decide), rfl, ⟨rfl, by simp [orderReceipt]⟩, rfl⟩,
      ⟨trivial, fun _ => ⟨⟨rfl, by simp [orderReceipt]⟩, current_of (by decide +kernel)⟩⟩,
      ⟨trivial, fun _ => ⟨⟨rfl, by simp [orderReceipt]⟩, ?_⟩⟩, trivial⟩
    intro stored found sameState
    have present : (History.after (answer unary numeric) (.empty 2) (processedOrder.take 2)).memory.get
        (orderReceipt .accepted 0 none).receiptId = some (orderReceipt .processing 1 none) := by decide +kernel
    cases found.symm.trans present
    cases sameState
  have run := History.ofInputs permitted
  exact ⟨_, _, run, (receipt_stores_agree (fun n => List.length_replicate) (fun _ => rfl) run).1, by decide +kernel⟩

/-- The same id, state and times, but another kind. -/
def alteredOrder (state : ReceiptState) (elapsed : Nat) : Receipt Nat Unit :=
  { orderReceipt state elapsed none with kind := .mutation }

/-- A receipt of another kind than the stored one: only the Django store lets it pass. -/
theorem altered_receipt_passes : (∀ n, unary.decode (unary.encode n) = n) ∧ (∀ n, numeric.decode (numeric.encode n) = n) ∧
    ∃ (past : List (ReceiptChange Nat Unit × ReceiptAnswers)) (stores : ReceiptStores Nat Unit), History (answer unary numeric) (fun stores _ call => call.HasRoom stores.memory) (.empty 2) past stores ∧
      past.map (fun event => (event.2.memory, event.2.sql, event.2.django)) =
        [(.ok true, .ok true, .ok true), (.ok false, .ok false, .ok true)] ∧
      stores.memory.get ⟨"order", by decide⟩ = some (orderReceipt .accepted 0 none) ∧
      stores.django.get numeric ⟨"order", by decide⟩ = .ok (some (orderReceipt .processing 1 none)) ∧
      ¬∀ event ∈ past, Alike event.2 := by
  have permitted : History.Permitted (answer unary numeric) (fun stores _ call => call.HasRoom stores.memory) [] (.empty 2)
      [.add (orderReceipt .accepted 0 none), .transition (alteredOrder .accepted 0) (alteredOrder .processing 1)] :=
    ⟨.inr (by decide), trivial, trivial⟩
  refine ⟨fun n => List.length_replicate, fun _ => rfl, _, _, History.ofInputs permitted, by decide +kernel, by decide +kernel,
    rfl, fun alike => ?_⟩
  obtain ⟨result, memory, -, django⟩ := alike _ (List.mem_of_getLast? rfl)
  have refused : (.ok result : Except PyError Bool) = .ok false := memory.symm.trans rfl
  have passed : (.ok result : Except PyError Bool) = .ok true := django.symm.trans rfl
  cases refused.symm.trans passed

end ReceiptStores

end

end Pytitect
