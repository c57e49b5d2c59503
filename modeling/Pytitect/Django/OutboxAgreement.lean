import Pytitect.Django.Outbox
import Pytitect.Outbox.Lifecycle

namespace Pytitect
open OutboxStore

section
variable {P : Type} (encodePayload : P → JsonValue) (decodePayload : JsonValue → P)

/-- The calls that both stores have, with what `uuid4` supplies during a claim. -/
inductive OutboxCall (P : Type)
  | add (envelope : OutboxEnvelope P)
  | claim (now limit claimTtl : Int) (claimIds : Nat → Uuid)
  | delivered (claim : OutboxClaim P) (at_ : Int)
  | retry (claim : OutboxClaim P) (availableAt : Int)
  | failed (claim : OutboxClaim P) (reason : String) (at_ : Int)

def OutboxCall.toCall : OutboxCall P → Call P
  | .add envelope => .add envelope
  | .claim now limit claimTtl claimIds => .claim now limit claimTtl claimIds
  | .delivered given at_ => .delivered given at_
  | .retry given availableAt => .retry given availableAt
  | .failed given reason at_ => .failed given reason at_

/-- Both stores side by side. -/
structure OutboxStores (P : Type) where
  memory : OutboxStore P
  django : DjangoOutboxStore

def DjangoOutboxStore.answer (store : DjangoOutboxStore) : OutboxCall P → Answer P × DjangoOutboxStore
  | .add envelope => (.added (store.add encodePayload envelope).1, (store.add encodePayload envelope).2)
  | .claim now limit claimTtl claimIds =>
    (.claimed (store.claim decodePayload now limit claimTtl claimIds).1, (store.claim decodePayload now limit claimTtl claimIds).2)
  | .delivered claim at_ => (.settled (.ok (store.delivered claim at_).1), (store.delivered claim at_).2)
  | .retry claim availableAt => (.settled (.ok (store.retry claim availableAt).1), (store.retry claim availableAt).2)
  | .failed claim reason at_ => (.settled (store.failed claim reason at_).1, (store.failed claim reason at_).2)

/-- The row that stands for a message, with the claim id that the table has. -/
def StoredMessage.row (item : StoredMessage P) (claimId : Option Uuid) : OutboxRow :=
  ⟨item.envelope.topic, encodePayload item.envelope.payload, item.envelope.occurredAt, item.envelope.availableAt,
    item.envelope.attempt, claimId, item.claimedUntil, item.deliveredAt, item.failureReason, item.failedAt⟩

namespace OutboxStores

def empty (capacity : Nat) : OutboxStores P := ⟨.empty capacity, .empty⟩

/-- One call, made to both stores. -/
def answer (stores : OutboxStores P) (call : OutboxCall P) : (Answer P × Answer P) × OutboxStores P :=
  (((stores.memory.answer call.toCall).1, (stores.django.answer encodePayload decodePayload call).1),
    ⟨(stores.memory.answer call.toCall).2, (stores.django.answer encodePayload decodePayload call).2⟩)

/-- What the in-memory store has seen. -/
def memoryPast (past : List (OutboxCall P × Answer P × Answer P)) : List (Call P × Answer P) :=
  past.map fun event => (event.1.toCall, event.2.1)

/-- Payloads fit into the column, the capacity is not reached, claim ids are fresh and
settlements present issued claims. -/
structure Admissible (stores : OutboxStores P) (past : List (OutboxCall P × Answer P × Answer P)) (call : OutboxCall P) : Prop where
  fresh : Fresh (memoryPast past) call.toCall
  payload : ∀ envelope, call = .add envelope → validateJson (encodePayload envelope.payload) .default = .ok ()
  room : ∀ envelope, call = .add envelope → stores.memory.items.size < stores.memory.capacity

/-- When a call is answered alike: a claim whose deadline lies beyond the calendar does not
reach a message whose earlier claim is still in the table. -/
def Agreeable (stores : OutboxStores P) : OutboxCall P → Prop
  | .claim now limit claimTtl _ =>
    Fits now claimTtl ∨ ∀ entry, (stores.memory.ready now limit).head? = some entry →
      ∀ row, stores.django.rows.get? entry.1 = some row → row.claimId = none
  | .add _ | .delivered .. | .retry .. | .failed .. => True

/-- A message and its row. The table may lack a claim id that was never issued. -/
structure Mirrors (issues : List (OutboxClaim P)) (item : StoredMessage P) (row : OutboxRow) : Prop where
  columns : row = item.row encodePayload row.claimId
  claimed : row.claimId = item.claimId ∨ row.claimId = none ∧ ∀ claim ∈ issues, item.claimId ≠ some claim.claimId
  idle : item.deliveredAt ≠ none ∨ item.failureReason ≠ none → row.claimId = none

/-- A message that holds an issued claim is still as the claim has it. -/
def Snapshot (issues : List (OutboxClaim P)) (memory : OutboxStore P) : Prop :=
  ∀ messageId item claim, memory.items.get? messageId = some item → claim ∈ issues → item.claimId = some claim.claimId →
    claim.envelope = item.envelope

/-- Every message has its row, and every row its message. -/
def Aligned (issues : List (OutboxClaim P)) (stores : OutboxStores P) : Prop :=
  ∀ messageId, Option.Rel (Mirrors encodePayload issues) (stores.memory.items.get? messageId) (stores.django.rows.get? messageId)

variable {encodePayload decodePayload} {issues claims : List (OutboxClaim P)} {stores : OutboxStores P} {item : StoredMessage P}
  {row : OutboxRow} {messageId : OpaqueId} {claim : OutboxClaim P} {now limit claimTtl : Int} {claimIds : Nat → Uuid}

theorem Mirrors.holds (mirrors : Mirrors encodePayload issues item row) (issued : claim ∈ issues) :
    row.claimId = some claim.claimId ↔ item.claimId = some claim.claimId := by
  rcases mirrors.claimed with same | ⟨nothing, unissued⟩
  · rw [same]
  · rw [nothing]
    exact ⟨fun absurd => (by cases absurd), fun held => absurd held (unissued claim issued)⟩

theorem Mirrors.eligible (mirrors : Mirrors encodePayload issues item row) :
    row.eligible now = OutboxStore.eligible now (messageId, item) := by
  rw [mirrors.columns]
  simp only [OutboxRow.eligible, OutboxStore.eligible, StoredMessage.row]
  ac_rfl

theorem Aligned.found (aligned : Aligned encodePayload issues stores) (found : stores.memory.items.get? messageId = some item) :
    ∃ row, stores.django.rows.get? messageId = some row ∧ Mirrors encodePayload issues item row := by
  have related := aligned messageId
  rw [found] at related
  generalize stores.django.rows.get? messageId = stored at related
  cases related with
  | some mirrors => exact ⟨_, rfl, mirrors⟩

theorem Aligned.absent (aligned : Aligned encodePayload issues stores) (absent : stores.memory.items.get? messageId = none) :
    stores.django.rows.get? messageId = none := by
  have related := aligned messageId
  rw [absent] at related
  generalize stores.django.rows.get? messageId = stored at related
  cases related
  rfl

/-- One message and its row are written. -/
theorem Aligned.set (aligned : Aligned encodePayload issues stores) (mirrors : Mirrors encodePayload issues item row) :
    Aligned encodePayload issues ⟨{ stores.memory with items := stores.memory.items.set messageId item },
      ⟨stores.django.rows.set messageId row⟩⟩ := by
  intro other
  dsimp only
  rw [Dict.get?_set, Dict.get?_set]
  split
  · exact .some mirrors
  · exact aligned other

theorem Aligned.add (aligned : Aligned encodePayload issues stores) {envelope : OutboxEnvelope P}
    (payload : validateJson (encodePayload envelope.payload) .default = .ok ())
    (room : stores.memory.items.size < stores.memory.capacity) :
    (stores.memory.add envelope).1 = (stores.django.add encodePayload envelope).1 ∧
      Aligned encodePayload issues ⟨(stores.memory.add envelope).2, (stores.django.add encodePayload envelope).2⟩ := by
  unfold OutboxStore.add DjangoOutboxStore.add
  rw [payload]
  by_cases present : envelope.messageId ∈ stores.memory.items.keys
  · rw [if_pos present]
    cases found : stores.memory.items.get? envelope.messageId with
    | none => exact absurd present (Dict.get?_eq_none.mp found)
    | some item =>
      obtain ⟨row, stored, -⟩ := aligned.found found
      rw [stored]
      exact ⟨rfl, aligned⟩
  · rw [if_neg present, if_neg (Nat.not_le.mpr room), aligned.absent (Dict.get?_eq_none.mpr present)]
    exact ⟨rfl, aligned.set ⟨rfl, Or.inl rfl, fun ended => (by rcases ended with other | other <;> exact absurd rfl other)⟩⟩

/-- A settlement tests the row as the in-memory store tests the message, and writes the same. -/
theorem Aligned.settle (aligned : Aligned encodePayload issues stores)
    (change : StoredMessage P → StoredMessage P) {test : OutboxRow → Bool} {write : OutboxRow → OutboxRow}
    (tests : ∀ item row, stores.memory.items.get? claim.envelope.messageId = some item → Mirrors encodePayload issues item row →
      (test row = true ↔ item.claimId = some claim.claimId ∧ item.deliveredAt = none ∧ item.failureReason = none))
    (writes : ∀ item row, stores.memory.items.get? claim.envelope.messageId = some item → item.claimId = some claim.claimId →
      Mirrors encodePayload issues item row →
      write row = StoredMessage.row encodePayload { change item with claimId := none, claimedUntil := none } none) :
    (stores.memory.settle claim change).1 = (stores.django.update claim.envelope.messageId test write).1 ∧
      Aligned encodePayload issues ⟨(stores.memory.settle claim change).2,
        (stores.django.update claim.envelope.messageId test write).2⟩ := by
  unfold OutboxStore.settle OutboxStore.valid DjangoOutboxStore.update
  cases found : stores.memory.items.get? claim.envelope.messageId with
  | none =>
    rw [aligned.absent found]
    exact ⟨rfl, aligned⟩
  | some item =>
    obtain ⟨row, stored, mirrors⟩ := aligned.found found
    have passes := tests item row found mirrors
    rw [stored]
    dsimp only
    by_cases held : test row = true
    · obtain ⟨own, undelivered, unfailed⟩ := passes.mp held
      have current : ¬(item.claimId ≠ some claim.claimId ∨ item.deliveredAt ≠ none ∨ item.failureReason ≠ none) := by
        rw [not_or, not_or]
        exact ⟨not_not.mpr own, not_not.mpr undelivered, not_not.mpr unfailed⟩
      rw [if_pos held, if_neg current, writes item row found own mirrors]
      exact ⟨rfl, aligned.set ⟨rfl, Or.inl rfl, fun _ => rfl⟩⟩
    · have stale : item.claimId ≠ some claim.claimId ∨ item.deliveredAt ≠ none ∨ item.failureReason ≠ none := by
        by_contra current
        rw [not_or, not_or] at current
        exact held (passes.mpr ⟨not_not.mp current.1, not_not.mp current.2.1, not_not.mp current.2.2⟩)
      rw [if_neg held, if_pos stale]
      exact ⟨rfl, aligned⟩

theorem Mirrors.held (mirrors : Mirrors encodePayload issues item row) (issued : claim ∈ issues) :
    row.held claim.claimId = true ↔ item.claimId = some claim.claimId ∧ item.deliveredAt = none ∧ item.failureReason = none := by
  have same := mirrors.columns
  have delivered : row.deliveredAt = item.deliveredAt := congrArg OutboxRow.deliveredAt same
  have failed : row.failureReason = item.failureReason := congrArg OutboxRow.failureReason same
  simp only [OutboxRow.held, Bool.and_eq_true, decide_eq_true_eq, mirrors.holds issued, delivered, failed,
    Option.isNone_iff_eq_none, and_assoc]

/-- The filter of `retry` names the claim alone, but a message that has ended holds no claim. -/
theorem Mirrors.retried (mirrors : Mirrors encodePayload issues item row) (issued : claim ∈ issues) :
    row.claimId = some claim.claimId ↔ item.claimId = some claim.claimId ∧ item.deliveredAt = none ∧ item.failureReason = none := by
  constructor
  · intro holds
    refine ⟨(mirrors.holds issued).mp holds, ?_, ?_⟩
    · by_contra delivered
      rw [mirrors.idle (Or.inl delivered)] at holds
      cases holds
    · by_contra failed
      rw [mirrors.idle (Or.inr failed)] at holds
      cases holds
  · rintro ⟨holds, -, -⟩
    exact (mirrors.holds issued).mpr holds

/-- The claim id that the table has for a message. -/
def heldIn (django : DjangoOutboxStore) (messageId : OpaqueId) : Option Uuid :=
  (django.rows.get? messageId).bind OutboxRow.claimId

/-- The row of a message of the in-memory store. -/
def rowIn (encodePayload : P → JsonValue) (django : DjangoOutboxStore) (messageId : OpaqueId) (item : StoredMessage P) : OutboxRow :=
  item.row encodePayload (heldIn django messageId)

theorem Aligned.rows (aligned : Aligned encodePayload issues stores) (messageId : OpaqueId) :
    stores.django.rows.get? messageId =
      (stores.memory.items.get? messageId).map (rowIn encodePayload stores.django messageId) := by
  cases found : stores.memory.items.get? messageId with
  | none => exact aligned.absent found
  | some item =>
    obtain ⟨row, stored, mirrors⟩ := aligned.found found
    have held : heldIn stores.django messageId = row.claimId := by
      rw [heldIn, stored]
      rfl
    rw [stored, Option.map_some, rowIn, held, ← mirrors.columns]

instance : Std.Total OutboxRow.Before :=
  inferInstanceAs (Std.Total (EarlierThen (fun entry : OpaqueId × OutboxRow => entry.2.availableAt) fun entry => entry.1.value))

instance : IsTrans (OpaqueId × OutboxRow) OutboxRow.Before :=
  inferInstanceAs (IsTrans _ (EarlierThen (fun entry : OpaqueId × OutboxRow => entry.2.availableAt) fun entry => entry.1.value))

theorem before_antisymm {a b : OpaqueId × OutboxRow} (first : OutboxRow.Before a b) (second : OutboxRow.Before b a) : a.1 = b.1 := by
  have earlier : EarlierThen (fun entry : OpaqueId × OutboxRow => entry.2.availableAt) (fun entry => entry.1.value) a b := first
  have sameId : a.1.value = b.1.value := earlier.antisymm second
  obtain ⟨⟨idA, properA⟩, _⟩ := a
  obtain ⟨⟨idB, properB⟩, _⟩ := b
  dsimp only at sameId
  subst sameId
  rfl

/-- Both stores look at the same messages, in the same order. -/
theorem Aligned.selected (aligned : Aligned encodePayload issues stores)
    (own : ∀ messageId item, stores.memory.items.get? messageId = some item → item.envelope.messageId = messageId) (now limit : Int) :
    stores.django.selected now limit = (stores.memory.ready now limit).map (Dict.entryIn (rowIn encodePayload stores.django)) := by
  unfold DjangoOutboxStore.selected OutboxStore.ready Dict.picked
  rw [List.map_take]
  refine congrArg (List.take limit.toNat) (Dict.sorted_map aligned.rows (fun entry member => ?_) (fun a inA b inB before => ?_)
    fun a b => before_antisymm)
  · obtain ⟨row, stored, mirrors⟩ := aligned.found (Dict.mem_items.mp member)
    have same := aligned.rows entry.1
    rw [stored, Dict.mem_items.mp member, Option.map_some, Option.some.injEq] at same
    rw [Dict.entryIn, ← same]
    exact mirrors.eligible
  · have ownA := own a.1 a.2 (Dict.mem_items.mp inA)
    have ownB := own b.1 b.2 (Dict.mem_items.mp inB)
    rcases before with less | ⟨same, behind⟩
    · exact Or.inl less
    · refine Or.inr ⟨same, ?_⟩
      rw [ownA, ownB] at behind
      exact behind

/-- The rows that the loop writes. -/
def markedRows (encodePayload : P → JsonValue) (claimIds : Nat → Uuid) (claimedUntil : Int) (count : Nat)
    (entries : List (OpaqueId × StoredMessage P)) : List (OpaqueId × OutboxRow) :=
  entries.mapIdx fun i entry =>
    (entry.1, { entry.2 with claimedUntil := some claimedUntil : StoredMessage P }.row encodePayload (some (claimIds (count + i))))

/-- If the deadline is within the calendar, the loop claims every selected row. -/
theorem claimRows_ok (inverse : ∀ payload, decodePayload (encodePayload payload) = payload) {claimedUntil : Int}
    {django : DjangoOutboxStore} {entries : List (OpaqueId × StoredMessage P)}
    (own : ∀ entry ∈ entries, entry.2.envelope.messageId = entry.1) (count : Nat) (rows : Dict OpaqueId OutboxRow) :
    DjangoOutboxStore.claimRows decodePayload (.ok claimedUntil) claimIds (entries.map (Dict.entryIn (rowIn encodePayload django))) count rows =
      .ok (entries.mapIdx fun i entry => ⟨claimIds (count + i), entry.2.envelope, claimedUntil⟩,
        rows.setAll (markedRows encodePayload claimIds claimedUntil count entries)) := by
  induction entries generalizing count rows with
  | nil => rfl
  | cons entry rest ih =>
    obtain ⟨messageId, item⟩ := entry
    rw [List.forall_mem_cons] at own
    obtain ⟨mine, ownRest⟩ := own
    dsimp only at mine
    subst mine
    have shift : ∀ i, count + 1 + i = count + (i + 1) := by omega
    have envelope : ({ item with claimedUntil := some claimedUntil : StoredMessage P }.row encodePayload
        (some (claimIds count))).envelope decodePayload item.envelope.messageId = .ok item.envelope := by
      simp only [OutboxRow.envelope, StoredMessage.row, inverse, dif_pos item.envelope.named]
    have later := ih ownRest (count + 1)
      (rows.set item.envelope.messageId ({ item with claimedUntil := some claimedUntil : StoredMessage P }.row encodePayload (some (claimIds count))))
    simp only [markedRows, shift] at later
    rw [List.map_cons, Dict.entryIn, rowIn, DjangoOutboxStore.claimRows]
    change (OutboxRow.envelope decodePayload item.envelope.messageId ({ item with claimedUntil := some claimedUntil : StoredMessage P }.row
      encodePayload (some (claimIds count))) >>= _) = _
    rw [envelope]
    change (DjangoOutboxStore.claimRows decodePayload (.ok claimedUntil) claimIds (rest.map (Dict.entryIn (rowIn encodePayload django))) (count + 1)
      (rows.set item.envelope.messageId ({ item with claimedUntil := some claimedUntil : StoredMessage P }.row encodePayload (some (claimIds count)))) >>= _) = _
    rw [later]
    simp only [markedRows, List.mapIdx_cons, Nat.add_zero]
    rfl

theorem Mirrors.grow (mirrors : Mirrors encodePayload issues item row)
    (other : ∀ claim ∈ claims, item.claimId ≠ some claim.claimId) : Mirrors encodePayload (issues ++ claims) item row :=
  ⟨mirrors.columns, mirrors.claimed.imp_right fun spoiled => ⟨spoiled.1, fun claim member =>
    (List.mem_append.mp member).elim (spoiled.2 claim) (other claim)⟩, mirrors.idle⟩

section
variable {drawn : Uuid → Prop}

/-- What `uuid4` supplies to a call is in no message yet. -/
theorem handed_unheld (sound : Sound issues drawn stores.memory.items) (unused : ∀ i, ¬drawn (claimIds i)) {claimedUntil : Int}
    {entries : List (OpaqueId × StoredMessage P)} (found : stores.memory.items.get? messageId = some item) :
    ∀ claim ∈ handed claimIds claimedUntil entries, item.claimId ≠ some claim.claimId := by
  intro claim member held
  obtain ⟨i, bound, rfl⟩ := List.mem_mapIdx.mp member
  exact unused i (sound.taken _ item _ found held)

theorem Aligned.claimed (aligned : Aligned encodePayload issues stores) (sound : Sound issues drawn stores.memory.items)
    (unused : ∀ i, ¬drawn (claimIds i)) (claimedUntil : Int) :
    Aligned encodePayload (issues ++ handed claimIds claimedUntil (stores.memory.ready now limit))
      ⟨{ stores.memory with items := stores.memory.items.setAll (marked claimIds claimedUntil (stores.memory.ready now limit)) },
        ⟨stores.django.rows.setAll (markedRows encodePayload claimIds claimedUntil 0 (stores.memory.ready now limit))⟩⟩ := by
  have keys : (markedRows encodePayload claimIds claimedUntil 0 (stores.memory.ready now limit)).map Prod.fst =
      (stores.memory.ready now limit).map Prod.fst := by
    refine List.ext_getElem? fun i => ?_
    simp [markedRows, Function.comp_def]
  intro messageId
  dsimp only
  rcases get?_marked_cases stores.memory.items claimIds claimedUntil ready_distinct messageId with
    ⟨i, entry, isEntry, rfl, memory⟩ | ⟨absent, memory⟩
  · obtain ⟨found, may⟩ := mem_ready (List.mem_of_getElem? isEntry)
    obtain ⟨-, undelivered, unfailed, -⟩ := eligible_iff.mp may
    have member : (entry.1, { entry.2 with claimedUntil := some claimedUntil : StoredMessage P }.row encodePayload
        (some (claimIds i))) ∈ markedRows encodePayload claimIds claimedUntil 0 (stores.memory.ready now limit) := by
      obtain ⟨bound, isAt⟩ := List.getElem?_eq_some_iff.mp isEntry
      exact List.mem_mapIdx.mpr ⟨i, bound, by rw [isAt, Nat.zero_add]⟩
    rw [memory, Dict.get?_setAll_of_mem (keys ▸ ready_distinct) member]
    refine .some ⟨rfl, Or.inl rfl, fun ended => ?_⟩
    exact ended.elim (absurd undelivered) (absurd unfailed)
  · rw [memory, Dict.get?_setAll_of_not_mem (keys ▸ absent)]
    cases found : stores.memory.items.get? messageId with
    | none =>
      rw [aligned.absent found]
      exact .none
    | some item =>
      obtain ⟨row, stored, mirrors⟩ := aligned.found found
      rw [stored]
      exact .some (mirrors.grow (handed_unheld sound unused found))

theorem Aligned.spoiled (aligned : Aligned encodePayload issues stores) (sound : Sound issues drawn stores.memory.items)
    (unused : ∀ i, ¬drawn (claimIds i)) (found : stores.memory.items.get? messageId = some item)
    (free : ∀ row, stores.django.rows.get? messageId = some row → row.claimId = none) :
    Aligned encodePayload issues
      ⟨{ stores.memory with items := stores.memory.items.set messageId { item with claimId := some (claimIds 0) } }, stores.django⟩ := by
  intro other
  dsimp only
  rw [Dict.get?_set]
  split
  · rename_i mine
    obtain ⟨row, stored, mirrors⟩ := aligned.found found
    rw [mine, stored]
    refine .some ⟨mirrors.columns, Or.inr ⟨free row stored, fun claim member same => ?_⟩, mirrors.idle⟩
    exact unused 0 (Option.some.inj same ▸ sound.supplied claim member)
  · exact aligned other

/-- A claim call hands out the same claims, or raises the same exception. -/
theorem Aligned.claimCall (aligned : Aligned encodePayload issues stores) (sound : Sound issues drawn stores.memory.items)
    (inverse : ∀ payload, decodePayload (encodePayload payload) = payload) (unused : ∀ i, ¬drawn (claimIds i))
    (agreeable : Agreeable stores (.claim now limit claimTtl claimIds)) :
    (stores.memory.claim now limit claimTtl claimIds).1 = (stores.django.claim decodePayload now limit claimTtl claimIds).1 ∧
      Aligned encodePayload (issues ++ issuedBy (.claim now limit claimTtl claimIds,
          .claimed (stores.memory.claim now limit claimTtl claimIds).1))
        ⟨(stores.memory.claim now limit claimTtl claimIds).2,
          (stores.django.claim decodePayload now limit claimTtl claimIds).2⟩ := by
  have unchanged : Aligned encodePayload (issues ++ []) stores := (List.append_nil issues).symm ▸ aligned
  by_cases positive : limit ≤ 0
  · rw [OutboxStore.claim, DjangoOutboxStore.claim, if_pos positive, if_pos positive]
    exact ⟨rfl, unchanged⟩
  by_cases lasting : claimTtl ≤ 0
  · rw [OutboxStore.claim, DjangoOutboxStore.claim, if_neg positive, if_neg positive, if_pos lasting, if_pos lasting]
    exact ⟨rfl, unchanged⟩
  rw [DjangoOutboxStore.claim, if_neg positive, if_neg lasting, aligned.selected sound.own]
  by_cases fits : Fits now claimTtl
  · rw [claim_fits positive lasting fits, datetimeAdd_fits fits,
      claimRows_ok inverse (fun entry member => sound.ready_own member) 0]
    simp only [Nat.zero_add]
    exact ⟨rfl, aligned.claimed sound unused _⟩
  · rw [claim_overflows positive lasting fits, datetimeAdd_overflows fits]
    cases ready : stores.memory.ready now limit with
    | nil => exact ⟨rfl, unchanged⟩
    | cons entry rest =>
      obtain ⟨found, -⟩ := mem_ready (ready ▸ List.mem_cons_self (l := rest))
      have free := agreeable.resolve_left fits entry (by rw [ready]; rfl)
      refine ⟨rfl, ?_⟩
      have spoiled := aligned.spoiled sound unused found free
      exact (List.append_nil issues).symm ▸ spoiled

end

theorem Snapshot.keep {memory after : OutboxStore P} (snapshot : Snapshot issues memory)
    (changed : ∀ messageId item, after.items.get? messageId = some item →
      (∀ claim ∈ issues, item.claimId ≠ some claim.claimId) ∨
        ∃ old, memory.items.get? messageId = some old ∧ old.claimId = item.claimId ∧ old.envelope = item.envelope) :
    Snapshot issues after := by
  intro messageId item claim found issued holds
  rcases changed messageId item found with free | ⟨old, was, sameId, sameEnvelope⟩
  · exact absurd holds (free claim issued)
  · rw [← sameEnvelope]
    exact snapshot messageId old claim was issued (sameId.trans holds)

theorem Snapshot.set {memory : OutboxStore P} (snapshot : Snapshot issues memory) {next : StoredMessage P}
    (free : ∀ claim ∈ issues, next.claimId ≠ some claim.claimId) (messageId : OpaqueId) :
    Snapshot issues { memory with items := memory.items.set messageId next } := by
  refine snapshot.keep fun other value found => ?_
  rcases Dict.get?_set_cases found with ⟨-, rfl⟩ | ⟨-, before⟩
  · exact Or.inl free
  · exact Or.inr ⟨value, before, rfl, rfl⟩

theorem Snapshot.settled {memory after : OutboxStore P} {change : StoredMessage P → StoredMessage P} {success : Bool}
    (snapshot : Snapshot issues memory) (settled : Settled memory claim change success after) : Snapshot issues after := by
  cases settled with
  | stale => exact snapshot
  | done => exact snapshot.set (fun claim _ held => (by cases held)) _

theorem Snapshot.added {memory after : OutboxStore P} {envelope : OutboxEnvelope P} {outcome : Except PyError OutboxAddResult}
    (snapshot : Snapshot issues memory) (added : Added memory envelope outcome after) : Snapshot issues after := by
  cases added with
  | refused => exact snapshot
  | stored => exact snapshot.set (fun claim _ held => (by cases held)) _

theorem append_silent {event : Call P × Answer P} (silent : issuedBy event = []) : issues ++ issuedBy event = issues := by
  rw [silent, List.append_nil]

/-- What a claim call hands out is what the messages have. -/
theorem Snapshot.claimed {memory after : OutboxStore P} {drawn : Uuid → Prop} {result : Except PyError (List (OutboxClaim P))}
    (snapshot : Snapshot issues memory) (sound : Sound issues drawn memory.items) (injective : Function.Injective claimIds)
    (unused : ∀ i, ¬drawn (claimIds i)) (claimed : Claimed memory now limit claimTtl claimIds result after) :
    Snapshot (issues ++ issuedBy (.claim now limit claimTtl claimIds, .claimed result)) after := by
  have unissued : ∀ i, ∀ claim ∈ issues, claimIds i ≠ claim.claimId :=
    fun i claim member same => unused i (same ▸ sound.supplied claim member)
  cases claimed with
  | refused =>
    rw [append_silent rfl]
    exact snapshot
  | spoiled error messageId item found =>
    rw [append_silent rfl]
    exact snapshot.set (fun claim member held => unissued 0 claim member (Option.some.inj held)) messageId
  | allReady =>
    intro messageId item claim found member holds
    dsimp only at found
    rw [issuedBy, List.mem_append] at member
    rcases get?_marked_cases memory.items claimIds (now + claimTtl) ready_distinct messageId with
      ⟨i, entry, isEntry, -, marked⟩ | ⟨-, same⟩
    · cases marked.symm.trans found
      have own : claimIds i = claim.claimId := Option.some.inj holds
      rcases member with old | new
      · exact absurd own (unissued i claim old)
      · obtain ⟨j, bound, rfl⟩ := List.mem_mapIdx.mp new
        have sameIndex := injective own
        subst sameIndex
        rw [List.getElem?_eq_getElem bound, Option.some.injEq] at isEntry
        dsimp only
        rw [isEntry]
    · rw [same] at found
      rcases member with old | new
      · exact snapshot messageId item claim found old holds
      · obtain ⟨i, bound, rfl⟩ := List.mem_mapIdx.mp new
        exact absurd (sound.taken messageId item _ found holds) (unused i)

/-- What holds of both stores after a run. -/
structure Kept (encodePayload : P → JsonValue) (past : List (OutboxCall P × Answer P × Answer P)) (stores : OutboxStores P) :
    Prop where
  agrees : Agrees (memoryPast past) stores.memory
  aligned : Aligned encodePayload (issued (memoryPast past)) stores
  snapshot : Snapshot (issued (memoryPast past)) stores.memory

theorem Kept.start (capacity : Nat) : Kept encodePayload [] (OutboxStores.empty capacity) where
  agrees := ⟨Sound.start.drawMore (by simp), fun _ => .none⟩
  aligned := fun _ => .none
  snapshot := fun _ _ _ found => (by cases found)

variable {past : List (OutboxCall P × Answer P × Answer P)} {call : OutboxCall P}

theorem memoryPast_append (event : OutboxCall P × Answer P × Answer P) :
    memoryPast (past ++ [event]) = memoryPast past ++ [(event.1.toCall, event.2.1)] :=
  List.map_append ..

/-- Both stores answer alike, and stay aligned. -/
theorem Kept.alike (kept : Kept encodePayload past stores) (inverse : ∀ payload, decodePayload (encodePayload payload) = payload)
    (admissible : Admissible encodePayload stores past call) (agreeable : Agreeable stores call) :
    (stores.memory.answer call.toCall).1 = (stores.django.answer encodePayload decodePayload call).1 ∧
      Aligned encodePayload (issued (memoryPast past) ++ issuedBy (call.toCall, (stores.memory.answer call.toCall).1))
        (stores.answer encodePayload decodePayload call).2 := by
  obtain ⟨agrees, aligned, snapshot⟩ := kept
  cases call with
  | add envelope =>
    obtain ⟨same, after⟩ := aligned.add (admissible.payload envelope rfl) (admissible.room envelope rfl)
    rw [append_silent rfl]
    exact ⟨congrArg Answer.added same, after⟩
  | claim now limit claimTtl claimIds =>
    obtain ⟨same, after⟩ := aligned.claimCall agrees.sound inverse admissible.fresh.2 agreeable
    exact ⟨congrArg Answer.claimed same, after⟩
  | delivered claim at_ =>
    have issued : claim ∈ issued (memoryPast past) := admissible.fresh
    obtain ⟨same, after⟩ := aligned.settle (markDelivered at_) (fun item row found mirrors => mirrors.held issued)
      fun item row found held mirrors => congrArg
        (fun row : OutboxRow => { row with deliveredAt := some at_, claimId := none, claimedUntil := none }) mirrors.columns
    rw [append_silent rfl]
    exact ⟨congrArg (fun settled => Answer.settled (.ok settled)) same, after⟩
  | retry claim availableAt =>
    have issued : claim ∈ issued (memoryPast past) := admissible.fresh
    have writes : ∀ item row, stores.memory.items.get? claim.envelope.messageId = some item → item.claimId = some claim.claimId →
        Mirrors encodePayload (OutboxStore.issued (memoryPast past)) item row →
        { row with attempt := claim.envelope.attempt + 1, availableAt, claimId := none, claimedUntil := none } =
          StoredMessage.row encodePayload { markRetried availableAt item with claimId := none, claimedUntil := none } none := by
      intro item row found held mirrors
      -- The attempt is counted from the claim, which has what the message has.
      rw [snapshot _ item claim found issued held]
      exact congrArg (fun row : OutboxRow =>
        { row with attempt := item.envelope.attempt + 1, availableAt, claimId := none, claimedUntil := none }) mirrors.columns
    obtain ⟨same, after⟩ := aligned.settle (markRetried availableAt)
      (fun item row found mirrors => decide_eq_true_iff.trans (mirrors.retried issued)) writes
    rw [append_silent rfl]
    exact ⟨congrArg (fun settled => Answer.settled (.ok settled)) same, after⟩
  | failed claim reason at_ =>
    have issued : claim ∈ issued (memoryPast past) := admissible.fresh
    rw [append_silent rfl]
    simp only [OutboxStores.answer, OutboxCall.toCall, OutboxStore.answer, DjangoOutboxStore.answer, OutboxStore.failed,
      DjangoOutboxStore.failed]
    split
    · exact ⟨rfl, aligned⟩
    · obtain ⟨same, after⟩ := aligned.settle (markFailed reason at_) (fun item row found mirrors => mirrors.held issued)
        fun item row found held mirrors => congrArg (fun row : OutboxRow =>
          { row with failureReason := some reason, failedAt := some at_, claimId := none, claimedUntil := none }) mirrors.columns
      exact ⟨congrArg (fun settled => Answer.settled (.ok settled)) same, after⟩

theorem Kept.snapshot_next (kept : Kept encodePayload past stores) (fresh : Fresh (memoryPast past) call.toCall) :
    Snapshot (issued (memoryPast past) ++ issuedBy (call.toCall, (stores.memory.answer call.toCall).1))
      (stores.memory.answer call.toCall).2 := by
  obtain ⟨agrees, -, snapshot⟩ := kept
  cases call with
  | add envelope =>
    rw [append_silent rfl]
    exact snapshot.added (stores.memory.add_added envelope)
  | claim now limit claimTtl claimIds =>
    exact snapshot.claimed agrees.sound fresh.1 fresh.2 (stores.memory.claim_claimed now limit claimTtl claimIds)
  | delivered claim at_ =>
    rw [append_silent rfl]
    exact snapshot.settled (stores.memory.settle_settled claim (markDelivered at_))
  | retry claim availableAt =>
    rw [append_silent rfl]
    exact snapshot.settled (stores.memory.settle_settled claim (markRetried availableAt))
  | failed claim reason at_ =>
    rw [append_silent rfl]
    rcases stores.memory.failed_settled claim reason at_ with ⟨error, raised⟩ | ⟨-, success, after, returned, settled⟩
    · rw [OutboxCall.toCall, OutboxStore.answer, raised]
      exact snapshot
    · rw [OutboxCall.toCall, OutboxStore.answer, returned]
      exact snapshot.settled settled

theorem Kept.answer (kept : Kept encodePayload past stores) (inverse : ∀ payload, decodePayload (encodePayload payload) = payload)
    (admissible : Admissible encodePayload stores past call) (agreeable : Agreeable stores call) :
    Kept encodePayload (past ++ [(call, (stores.answer encodePayload decodePayload call).1)])
      (stores.answer encodePayload decodePayload call).2 := by
  refine ⟨?_, ?_, ?_⟩
  · rw [memoryPast_append]
    exact kept.agrees.next admissible.fresh
  · rw [memoryPast_append, issued_append]
    exact (kept.alike inverse admissible agreeable).2
  · rw [memoryPast_append, issued_append]
    exact kept.snapshot_next admissible.fresh

/-- A claim runs out and is replaced; then the old claim tries to deliver, and the new one asks
for a retry. -/
def replacedClaim : List (OutboxCall Unit) :=
  let envelope := sampleEnvelope "m" Sample.message_proper 0
  [.add envelope, .claim 0 5 10 (Uuid.series 'a'), .claim 10 5 10 (Uuid.series 'b'),
    .delivered ⟨Uuid.series 'a' 0, envelope, 10⟩ 11, .retry ⟨Uuid.series 'b' 0, envelope, 20⟩ 30]

/-- A call that adds nothing needs neither room nor a payload that fits. -/
theorem Admissible.of_fresh (fresh : Fresh (memoryPast past) call.toCall) (adds : ∀ envelope, call ≠ .add envelope) :
    Admissible encodePayload stores past call :=
  ⟨fresh, fun envelope same => absurd same (adds envelope), fun envelope same => absurd same (adds envelope)⟩

/-- A claim call whose deadline is beyond the calendar takes the message from its earlier holder in
the in-memory store, and changes nothing in the table. -/
def spoiledClaim : List (OutboxCall Unit) :=
  let envelope := sampleEnvelope "m" Sample.message_proper 0
  [.add envelope, .claim 0 5 10 (Uuid.series 'a'), .claim 10 5 maxDatetime (Uuid.series 'b'),
    .delivered ⟨Uuid.series 'a' 0, envelope, 10⟩ 11]

end OutboxStores

end

end Pytitect
