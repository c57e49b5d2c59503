import Pytitect.Batches.AtMostOnce

namespace Pytitect

/-- Where the receipt of a batch item is kept in the item store. -/
def itemKey (identity : BatchIdentity) (named : identity.ns ≠ "" ∧ identity.batchId ≠ "") (itemId : String) :
    IdempotencyIdentity :=
  ⟨⟨identity.ns, identity.batchId, "mutation-item:" ++ itemId, named.1, named.2, by simp [String.ext_iff]⟩, itemId⟩

theorem itemScope_key {identity : BatchIdentity} (named : identity.ns ≠ "" ∧ identity.batchId ≠ "") {itemId : String}
    {scope : IdempotencyScope} (inScope : itemScope identity itemId = .ok scope) :
    (⟨scope, itemId⟩ : IdempotencyIdentity) = itemKey identity named itemId := by
  unfold itemScope at inScope
  split at inScope
  · cases inScope
    rfl
  · cases inScope

theorem itemKey_injective {identity : BatchIdentity} {named : identity.ns ≠ "" ∧ identity.batchId ≠ ""}
    {itemId other : String} (same : itemKey identity named itemId = itemKey identity named other) : itemId = other :=
  congrArg IdempotencyIdentity.key same

namespace Coordinator
variable {P R : Type} {w u : World P R} {env : Environment P R} {identity : BatchIdentity}
  {items : List (BatchItem P)}

/-- The entry an item had before the call, if any, expired at an instant the call read. -/
def Lapsed (env : Environment P R) (w u : World P R) (key : IdempotencyIdentity) : Prop :=
  ∀ entry, w.items.entries.get? key = some entry →
    ∃ n, w.reads ≤ n ∧ n < u.reads ∧ entry.expired (env.clock n) = true

/-- What a committed batch leaves of one of its items: the receipt it already
had, which stays unless it expires meanwhile, or one new mutation and its receipt. -/
inductive Fate (env : Environment P R) (w u : World P R) (key : IdempotencyIdentity) (item : BatchItem P) :
    BatchItemReceipt R → List (Mutation P R) → Prop
  | recorded {entry receipt value} : w.items.entries.get? key = some entry → entry.state = .completed value →
      receipt.itemId = value.itemId → receipt.result = value.result → Aged env w u key →
      Fate env w u key item receipt []
  | mutated {entry result} : Lapsed env w u key → u.items.entries.get? key = some entry →
      entry.state = .completed ⟨item.itemId, result, false⟩ →
      Fate env w u key item ⟨item.itemId, result, false⟩ [⟨item, .ok result⟩]

/-- Old entries of the token index are only ever dropped. -/
theorem purgeExpired_tokens {s : IdempotencyStore (BatchItemReceipt R)} {now : Int} {token : ReservationToken}
    {owner : IdempotencyIdentity} (found : (s.purgeExpired now).tokens.get? token = some owner) :
    s.tokens.get? token = some owner := by
  change (s.tokens.popAll _).get? token = some owner at found
  rw [Dict.get?_popAll] at found
  split at found
  · cases found
  · exact found

/-- The first loop reserves every item: afterwards each is granted its earlier
receipt, or a token that nobody else can own. -/
structure ReservedAll (env : Environment P R) (identity : BatchIdentity)
    (named : identity.ns ≠ "" ∧ identity.batchId ≠ "") (w u : World P R)
    (reservations : List (BatchItem P × ItemGrant R)) : Prop where
  effects : u.effects = w.effects
  reads : w.reads ≤ u.reads
  draws : w.draws ≤ u.draws
  new : ∀ item token, (item, .execute token) ∈ reservations → ∃ n, w.draws ≤ n ∧ n < u.draws ∧ token = drawn env n
  replayed : ∀ item value, (item, .replay value) ∈ reservations → ∃ entry,
    w.items.entries.get? (itemKey identity named item.itemId) = some entry ∧ entry.state = .completed value
  lapsed : ∀ item token, (item, .execute token) ∈ reservations → Lapsed env w u (itemKey identity named item.itemId)
  owned : ∀ item token, (item, .execute token) ∈ reservations → ∀ owner, u.items.tokens.get? token = some owner →
    owner = itemKey identity named item.itemId
  aged : ∀ key, (∀ item token, (item, .execute token) ∈ reservations → key ≠ itemKey identity named item.itemId) →
    Aged env w u key
  indexed : ∀ token owner, (∀ n, w.draws ≤ n → token ≠ drawn env n) → u.items.tokens.get? token = some owner →
    w.items.tokens.get? token = some owner

namespace ReservedAll
variable {named : identity.ns ≠ "" ∧ identity.batchId ≠ ""}

theorem nil (w : World P R) : ReservedAll env identity named w w [] where
  effects := rfl
  reads := Nat.le_refl _
  draws := Nat.le_refl _
  new := by simp
  replayed := by simp
  lapsed := by simp
  owned := by simp
  aged _ _ := Or.inl rfl
  indexed _ _ _ found := found

/-- Reservations of different items add up: later ones neither touch the entries
nor draw the tokens of earlier ones. -/
theorem append {v : World P R} {xs ys : List (BatchItem P × ItemGrant R)} (fresh : Function.Injective env.uuid)
    (first : ReservedAll env identity named w v xs) (second : ReservedAll env identity named v u ys)
    (apart : ∀ x ∈ xs, ∀ y ∈ ys, x.1.itemId ≠ y.1.itemId) : ReservedAll env identity named w u (xs ++ ys) := by
  have early := first.reads
  have late := second.reads
  have drawsEarly := first.draws
  have drawsLate := second.draws
  have untouched : ∀ item grant, (item, grant) ∈ ys → Aged env w v (itemKey identity named item.itemId) := by
    intro item grant member
    refine first.aged _ fun other token executed same => ?_
    exact apart _ executed _ member (itemKey_injective same).symm
  refine ⟨second.effects.trans first.effects, by omega, by omega, ?_, ?_, ?_, ?_, ?_, ?_⟩
  · intro item token member
    rcases List.mem_append.mp member with old | new
    · obtain ⟨n, from_, upto, same⟩ := first.new item token old
      exact ⟨n, from_, by omega, same⟩
    · obtain ⟨n, from_, upto, same⟩ := second.new item token new
      exact ⟨n, by omega, upto, same⟩
  · intro item value member
    rcases List.mem_append.mp member with old | new
    · exact first.replayed item value old
    · obtain ⟨entry, found, state⟩ := second.replayed item value new
      exact ⟨entry, (untouched item _ new).kept found, state⟩
  · intro item token member entry found
    rcases List.mem_append.mp member with old | new
    · obtain ⟨n, from_, upto, expired⟩ := first.lapsed item token old entry found
      exact ⟨n, from_, by omega, expired⟩
    · rcases untouched item _ new with same | ⟨gone, n, foundGone, _, from_, upto, expired⟩
      · obtain ⟨n, from_, upto, expired⟩ := second.lapsed item token new entry (same.trans found)
        exact ⟨n, by omega, upto, expired⟩
      · cases Option.some.inj (foundGone.symm.trans found)
        exact ⟨n, from_, by omega, expired⟩
  · intro item token member owner found
    rcases List.mem_append.mp member with old | new
    · obtain ⟨n, -, before, same⟩ := first.new item token old
      refine first.owned item token old owner (second.indexed token owner (fun m later again => ?_) found)
      have equal := drawn_injective fresh (same.symm.trans again)
      omega
    · exact second.owned item token new owner found
  · intro key avoids
    have before := first.aged key fun item token member => avoids item token (List.mem_append_left _ member)
    have after := second.aged key fun item token member => avoids item token (List.mem_append_right _ member)
    exact before.trans after early late
  · intro token owner old found
    exact first.indexed token owner old (second.indexed token owner (fun n later => old n (by omega)) found)

end ReservedAll

theorem grantItem_reserved (named : identity.ns ≠ "" ∧ identity.batchId ≠ "") {item : BatchItem P}
    {policy : IdempotencyPolicy} {grant : ItemGrant R}
    (run : (grantItem env identity item policy).Returns w grant u) :
    ReservedAll env identity named w u [(item, grant)] := by
  obtain ⟨scope, fingerprint, store, inScope, -, rfl, decided⟩ := grantItem_returns run
  rw [itemScope_key named inScope] at decided
  have read : w.reads < w.reads + 1 := Nat.lt_succ_self _
  rcases decided with ⟨entry, value, found, state, -, rfl, tokens, entries⟩ | ⟨expiresAt, absent, rfl, tokens, entries⟩
  · refine ⟨rfl, Nat.le_succ _, Nat.le_succ _, by simp, ?_, by simp, by simp, ?_, ?_⟩
    · intro other kept member
      simp only [List.mem_singleton, Prod.mk.injEq, ItemGrant.replay.injEq] at member
      obtain ⟨rfl, rfl⟩ := member
      rw [IdempotencyStore.purgeExpired_get?, Option.filter_eq_some_iff] at found
      exact ⟨entry, found.1, state⟩
    · exact fun key _ => aged_purge read (entries key)
    · intro token owner _ indexed
      rw [tokens] at indexed
      exact purgeExpired_tokens indexed
  · refine ⟨rfl, Nat.le_succ _, Nat.le_succ _, ?_, by simp, ?_, ?_, ?_, ?_⟩
    · intro other token member
      simp only [List.mem_singleton, Prod.mk.injEq, ItemGrant.execute.injEq] at member
      exact ⟨w.draws, Nat.le_refl _, Nat.lt_succ_self _, member.2⟩
    · intro other token member before foundBefore
      simp only [List.mem_singleton, Prod.mk.injEq, ItemGrant.execute.injEq] at member
      obtain ⟨rfl, rfl⟩ := member
      rw [IdempotencyStore.purgeExpired_get?, foundBefore] at absent
      refine ⟨w.reads, Nat.le_refl _, read, ?_⟩
      by_contra alive
      simp [Option.filter, alive] at absent
    · intro other token member owner found
      simp only [List.mem_singleton, Prod.mk.injEq, ItemGrant.execute.injEq] at member
      obtain ⟨rfl, rfl⟩ := member
      rw [tokens, Dict.get?_set_self] at found
      exact (Option.some.inj found).symm
    · intro key avoids
      refine aged_purge read ?_
      rw [entries, if_neg (avoids item _ (List.mem_singleton_self _))]
    · intro token owner old found
      rw [tokens, Dict.get?_set_of_ne (old w.draws (Nat.le_refl _))] at found
      exact purgeExpired_tokens found

variable [DecidableEq R]

theorem renewBatch_reserved (named : identity.ns ≠ "" ∧ identity.batchId ≠ "") {lease renewed : MutationBatchLease R}
    {itemId : Option String} {policy : IdempotencyPolicy}
    (run : (renewBatch env lease itemId policy).Returns w renewed u) : ReservedAll env identity named w u [] := by
  obtain ⟨current, held, made, rfl⟩ := renewBatch_returns run
  exact ⟨rfl, Nat.le_succ _, Nat.le_refl _, by simp, by simp, by simp, by simp, fun _ _ => Or.inl rfl,
    fun _ _ _ found => found⟩

theorem reserveAll_returns (fresh : Function.Injective env.uuid)
    (named : identity.ns ≠ "" ∧ identity.batchId ≠ "") {policy : IdempotencyPolicy}
    {lease renewed : MutationBatchLease R} {before all : List (BatchItem P × ItemGrant R)}
    (distinct : (items.map BatchItem.itemId).Nodup)
    (run : (reserveAll env identity policy items lease before).Returns w (renewed, all) u) :
    renewed.identity = lease.identity ∧ renewed.receipts = lease.receipts ∧
      ∃ reservations, all = before ++ reservations ∧ reservations.map Prod.fst = items ∧
        ReservedAll env identity named w u reservations := by
  induction items generalizing w lease before with
  | nil =>
    simp only [reserveAll, Program.returns_pure, Prod.mk.injEq] at run
    obtain ⟨⟨rfl, rfl⟩, rfl⟩ := run
    exact ⟨rfl, rfl, [], by simp, rfl, .nil _⟩
  | cons item items ih =>
    simp only [List.map_cons, List.nodup_cons] at distinct
    simp only [reserveAll, Program.returns_bind] at run
    obtain ⟨fresh₁, r, renewal, grant, g, granting, run⟩ := run
    obtain ⟨-, sameIdentity, -, sameReceipts⟩ := renewBatch_quiet renewal
    obtain ⟨lastIdentity, lastReceipts, reservations, rfl, submitted, rest⟩ := ih distinct.2 run
    refine ⟨lastIdentity.trans sameIdentity, lastReceipts.trans sameReceipts, (item, grant) :: reservations, by simp,
      by simp [submitted], ?_⟩
    have head := (renewBatch_reserved named renewal).append fresh (grantItem_reserved named granting) (by simp)
    refine head.append fresh rest ?_
    intro x inHead y inRest same
    simp only [List.nil_append, List.mem_singleton] at inHead
    subst x
    refine distinct.1 (same ▸ ?_)
    exact List.mem_map_of_mem (submitted ▸ List.mem_map_of_mem inRest)

/-- How a granted item ends in the second loop. -/
inductive Settled (identity : BatchIdentity) (named : identity.ns ≠ "" ∧ identity.batchId ≠ "") (u : World P R) :
    BatchItem P × ItemGrant R → BatchItemReceipt R × List (Mutation P R) → Prop
  | replay {item value} : Settled identity named u (item, .replay value) ({ value with replayed := false }, [])
  | execute {item token entry result} : u.items.entries.get? (itemKey identity named item.itemId) = some entry →
      entry.state = .completed ⟨item.itemId, result, false⟩ →
      Settled identity named u (item, .execute token) (⟨item.itemId, result, false⟩, [⟨item, .ok result⟩])

/-- The key does not belong to an item that was granted execution. -/
def Avoids (identity : BatchIdentity) (named : identity.ns ≠ "" ∧ identity.batchId ≠ "")
    (reservations : List (BatchItem P × ItemGrant R)) (key : IdempotencyIdentity) : Prop :=
  ∀ item token, (item, .execute token) ∈ reservations → key ≠ itemKey identity named item.itemId

theorem applyReservedItem_settled (named : identity.ns ≠ "" ∧ identity.batchId ≠ "") {policy : IdempotencyPolicy}
    {lease progressed : MutationBatchLease R} {item : BatchItem P} {grant : ItemGrant R} {receipt : BatchItemReceipt R}
    (owned : ∀ token, grant = .execute token → ∀ owner, w.items.tokens.get? token = some owner →
      owner = itemKey identity named item.itemId)
    (run : (applyReservedItem env lease item grant policy).Returns w (progressed, receipt) u) :
    progressed.identity = lease.identity ∧
      progressed.receipts = lease.receipts ++ [{ receipt with replayed := false }] ∧ w.reads ≤ u.reads ∧
      u.items.tokens = w.items.tokens ∧
      (∀ key, Avoids identity named [(item, grant)] key → u.items.entries.get? key = w.items.entries.get? key) ∧
      ∃ fate, Settled identity named u (item, grant) fate ∧ { receipt with replayed := false } = fate.1 ∧
        u.effects = w.effects ++ fate.2 := by
  obtain ⟨current, t, batches, -, settling, -, lastIdentity, -, lastReceipts, sameItems, sameEffects, -, -, later, -, -, -⟩ :=
    applyReservedItem_returns run
  refine ⟨lastIdentity, lastReceipts, ?_⟩
  rcases settleItem_returns settling with ⟨value, rfl, sameItem, rfl, rfl⟩ |
    ⟨token, owner, entry, result, entries, rfl, held, rfl, completed, rfl⟩
  · dsimp only at later
    refine ⟨by omega, by rw [sameItems], fun key _ => by rw [sameItems], _, .replay, rfl, by simp [sameEffects]⟩
  · dsimp only at later
    obtain ⟨index, -⟩ := IdempotencyStore.executing_some.mp held
    cases owned token rfl owner index
    refine ⟨by omega, by rw [sameItems], ?_, (⟨item.itemId, result, false⟩, [⟨item, .ok result⟩]), ?_, rfl, sameEffects⟩
    · intro key avoids
      rw [sameItems]
      exact (completed key).trans (if_neg (avoids item token (List.mem_singleton_self _)))
    · have found : u.items.entries.get? (itemKey identity named item.itemId) = some ⟨token, entry.fingerprint,
          env.clock (w.reads + 1 + 1) + policy.resultRetentionTtl, .completed ⟨item.itemId, result, false⟩⟩ := by
        rw [sameItems]
        exact (completed _).trans (if_pos rfl)
      exact .execute found rfl

/-- The second loop settles the granted items in order and appends their receipts to the batch. -/
theorem applyAll_returns (named : identity.ns ≠ "" ∧ identity.batchId ≠ "") {policy : IdempotencyPolicy}
    {lease progressed : MutationBatchLease R} {reservations : List (BatchItem P × ItemGrant R)}
    {receipts all : List (BatchItemReceipt R)} (distinct : (reservations.map (·.1.itemId)).Nodup)
    (owned : ∀ item token, (item, .execute token) ∈ reservations → ∀ owner, w.items.tokens.get? token = some owner →
      owner = itemKey identity named item.itemId)
    (run : (applyAll env policy reservations lease receipts).Returns w (progressed, all) u) :
    progressed.identity = lease.identity ∧ w.reads ≤ u.reads ∧
      (∀ key, Avoids identity named reservations key → u.items.entries.get? key = w.items.entries.get? key) ∧
      ∃ fates, List.Forall₂ (Settled identity named u) reservations fates ∧
        progressed.receipts = lease.receipts ++ fates.map Prod.fst ∧
        u.effects = w.effects ++ (fates.map Prod.snd).flatten ∧
        all.map ({ · with replayed := false }) = receipts.map ({ · with replayed := false }) ++ fates.map Prod.fst := by
  induction reservations generalizing w lease receipts with
  | nil =>
    simp only [applyAll, Program.returns_pure, Prod.mk.injEq] at run
    obtain ⟨⟨rfl, rfl⟩, rfl⟩ := run
    exact ⟨rfl, Nat.le_refl _, fun _ _ => rfl, [], .nil, by simp, by simp, by simp⟩
  | cons reservation reservations ih =>
    obtain ⟨item, grant⟩ := reservation
    simp only [List.map_cons, List.nodup_cons] at distinct
    simp only [applyAll, Program.returns_bind] at run
    obtain ⟨⟨next, receipt⟩, v, applying, run⟩ := run
    obtain ⟨sameIdentity, nextReceipts, early, tokens, others, fate, head, answer, grown⟩ :=
      applyReservedItem_settled named (fun token granted => owned item token (granted ▸ List.mem_cons_self)) applying
    obtain ⟨lastIdentity, late, rest, fates, tail, lastReceipts, lastEffects, answers⟩ := ih distinct.2
      (fun other token member owner found => owned other token (List.mem_cons_of_mem _ member) owner (tokens ▸ found)) run
    refine ⟨lastIdentity.trans sameIdentity, Nat.le_trans early late, ?_, fate :: fates, .cons ?_ tail,
      by simp [lastReceipts, nextReceipts, answer], by simp [lastEffects, grown], by simp [answers, answer]⟩
    · intro key avoids
      rw [rest key fun other token member => avoids other token (List.mem_cons_of_mem _ member)]
      exact others key fun other token member => avoids other token (by simp_all)
    · -- The items still to come have other keys, so the entry of this one is not touched again.
      have settledKey : u.items.entries.get? (itemKey identity named item.itemId) =
          v.items.entries.get? (itemKey identity named item.itemId) := by
        refine rest _ fun other token member same => distinct.1 ?_
        rw [itemKey_injective same]
        exact List.mem_map_of_mem (f := fun reservation : BatchItem P × ItemGrant R => reservation.1.itemId) member
      cases head with
      | replay => exact .replay
      | execute found state => exact .execute (settledKey.trans found) state

/-- A batch committed as a whole: a completed batch with one receipt for each
submitted item, in their order, and the mutations of the items that had none. -/
structure Committed (env : Environment P R) (identity : BatchIdentity)
    (named : identity.ns ≠ "" ∧ identity.batchId ≠ "") (items : List (BatchItem P)) (w u : World P R)
    (receipts : List (BatchItemReceipt R)) : Prop where
  batch : ∃ stored, u.batches.entries.get? identity = some stored ∧ stored.state = .completed ∧
    ∃ fates : List (BatchItemReceipt R × List (Mutation P R)),
      List.Forall₂ (fun item fate => Fate env w u (itemKey identity named item.itemId) item fate.1 fate.2) items fates ∧
      stored.receipts = fates.map Prod.fst ∧ u.effects = w.effects ++ (fates.map Prod.snd).flatten
  answer : ∀ stored, u.batches.entries.get? identity = some stored →
    receipts.map ({ · with replayed := false }) = stored.receipts.map ({ · with replayed := false })

/-- The items whose receipts are proven and those still to be applied make up the submitted ones. -/
theorem provePrefix_returns {lease renewed : MutationBatchLease R} {policy : IdempotencyPolicy}
    {receipts : List (BatchItemReceipt R)} (begun : lease.resumed = false → lease.receipts = [])
    (run : (provePrefix env lease items policy).Returns w (renewed, receipts) u) :
    Quiet env w u ∧ renewed.identity = lease.identity ∧ renewed.nextIndex = lease.nextIndex ∧
      renewed.receipts = lease.receipts ∧
      receipts.map ({ · with replayed := false }) = lease.receipts.map ({ · with replayed := false }) ∧
      List.Forall₂ (fun item stored => ∃ scope entry, itemScope lease.identity item.itemId = .ok scope ∧
        w.items.entries.get? ⟨scope, item.itemId⟩ = some entry ∧ entry.state = .completed stored)
        (items.take lease.nextIndex) lease.receipts := by
  unfold provePrefix at run
  split at run
  · rename_i isNew
    simp only [Program.returns_pure, Prod.mk.injEq] at run
    obtain ⟨⟨rfl, rfl⟩, rfl⟩ := run
    refine ⟨.refl _, rfl, rfl, rfl, rfl, ?_⟩
    rw [renewed.agree, begun isNew]
    exact .nil
  · obtain ⟨calm, sameIdentity, sameIndex, sameReceipts, rfl, proven⟩ := provePrefixLoop_returns run
    exact ⟨calm, sameIdentity, sameIndex, sameReceipts, by simp, proven⟩

omit [DecidableEq R] in
theorem Settled.original {named : identity.ns ≠ "" ∧ identity.batchId ≠ ""}
    {reservations : List (BatchItem P × ItemGrant R)} {fates : List (BatchItemReceipt R × List (Mutation P R))}
    (settled : List.Forall₂ (Settled identity named u) reservations fates) :
    (fates.map Prod.fst).map ({ · with replayed := false }) = fates.map Prod.fst := by
  induction settled with
  | nil => rfl
  | cons head _ ih =>
    simp only [List.map_cons, ih]
    cases head with
    | replay => rfl
    | execute => rfl

omit [DecidableEq R] in
theorem Fate.widen {v x : World P R} {key : IdempotencyIdentity} {item : BatchItem P} {receipt : BatchItemReceipt R}
    {effects : List (Mutation P R)} (fate : Fate env v x key item receipt effects) (sameBefore : v.items = w.items)
    (sameAfter : u.items = x.items) (early : w.reads ≤ v.reads) (late : x.reads ≤ u.reads) :
    Fate env w u key item receipt effects := by
  cases fate with
  | recorded found state sameItem sameResult aged =>
    refine .recorded (sameBefore ▸ found) state sameItem sameResult ?_
    rcases aged with same | ⟨entry, n, foundBefore, gone, from_, upto, expired⟩
    · exact Or.inl (by rw [sameAfter, same, sameBefore])
    · exact Or.inr ⟨entry, n, sameBefore ▸ foundBefore, sameAfter ▸ gone, by omega, by omega, expired⟩
  | mutated lapsed found state =>
    refine .mutated ?_ (sameAfter ▸ found) state
    intro entry foundBefore
    obtain ⟨n, from_, upto, expired⟩ := lapsed entry (sameBefore ▸ foundBefore)
    exact ⟨n, by omega, by omega, expired⟩

omit [DecidableEq R] in
/-- Proven, granted and settled: each submitted item has met its fate. -/
theorem fates_of_items {v x : World P R} {named : identity.ns ≠ "" ∧ identity.batchId ≠ ""}
    {reservations : List (BatchItem P × ItemGrant R)} {fates : List (BatchItemReceipt R × List (Mutation P R))}
    {receipts : List (BatchItemReceipt R)} {proven : Nat} (distinct : (items.map BatchItem.itemId).Nodup)
    (calm : Quiet env w v) (grants : ReservedAll env identity named v x reservations) (late : x.reads ≤ u.reads)
    (submitted : reservations.map Prod.fst = items.drop proven)
    (untouched : ∀ key, Avoids identity named reservations key → u.items.entries.get? key = x.items.entries.get? key)
    (recorded : List.Forall₂ (fun item stored => ∃ entry,
      w.items.entries.get? (itemKey identity named item.itemId) = some entry ∧ entry.state = .completed stored)
      (items.take proven) receipts)
    (settled : List.Forall₂ (Settled identity named u) reservations fates) :
    List.Forall₂ (fun item fate => Fate env w u (itemKey identity named item.itemId) item fate.1 fate.2) items
      (receipts.map (·, []) ++ fates) := by
  have early := calm.reads
  have middle := grants.reads
  have aged : ∀ key, Avoids identity named reservations key → Aged env w u key := by
    intro key avoids
    have reserved := (calm.aged key).trans (grants.aged key avoids) early middle
    exact reserved.trans (Or.inl (untouched key avoids)) (by omega) late
  have distinctSplit : ((items.take proven).map BatchItem.itemId ++ (items.drop proven).map BatchItem.itemId).Nodup := by
    rw [← List.map_append, List.take_append_drop]
    exact distinct
  obtain ⟨-, distinctRest, apart⟩ := List.nodup_append.mp distinctSplit
  rw [← submitted, List.map_map] at distinctRest apart
  have first : List.Forall₂ (fun item fate => Fate env w u (itemKey identity named item.itemId) item fate.1 fate.2)
      (items.take proven) (receipts.map (·, [])) := by
    rw [List.forall₂_map_right_iff]
    have members : ∀ item ∈ items.take proven, item ∈ items.take proven := fun _ member => member
    refine ((List.forall₂_and_left _ _).mpr ⟨members, recorded⟩).imp fun item stored fact => ?_
    obtain ⟨member, entry, found, state⟩ := fact
    refine .recorded found state rfl rfl (aged _ fun other token executed same => ?_)
    exact apart _ (List.mem_map_of_mem member) _ (List.mem_map_of_mem executed) (itemKey_injective same)
  have second : List.Forall₂ (fun item fate => Fate env w u (itemKey identity named item.itemId) item fate.1 fate.2)
      (items.drop proven) fates := by
    rw [← submitted, List.forall₂_map_left_iff]
    have members : ∀ reservation ∈ reservations, reservation ∈ reservations := fun _ member => member
    refine ((List.forall₂_and_left _ _).mpr ⟨members, settled⟩).imp fun reservation fate fact => ?_
    obtain ⟨member, fact⟩ := fact
    cases fact with
    | @replay item value =>
      obtain ⟨entry, found, state⟩ := grants.replayed item value member
      refine .recorded ((calm.aged _).kept found) state rfl rfl (aged _ fun other token executed same => ?_)
      have equal := List.inj_on_of_nodup_map distinctRest member executed (itemKey_injective same)
      cases congrArg Prod.snd equal
    | @execute item token entry result found state =>
      refine .mutated ?_ found state
      intro before foundBefore
      rcases calm.aged (itemKey identity named item.itemId) with same | ⟨gone, n, foundGone, _, from_, upto, expired⟩
      · obtain ⟨n, from_, upto, expired⟩ := grants.lapsed item token member before (same.trans foundBefore)
        exact ⟨n, by omega, by omega, expired⟩
      · cases Option.some.inj (foundGone.symm.trans foundBefore)
        exact ⟨n, from_, by omega, expired⟩
  have both := List.rel_append first second
  dsimp only at both
  rwa [List.take_append_drop] at both

theorem allOrNothingBody_returns (fresh : Function.Injective env.uuid)
    (named : identity.ns ≠ "" ∧ identity.batchId ≠ "") {fingerprint : RequestFingerprint} {policy : IdempotencyPolicy}
    {result : BatchResult R} (distinct : (items.map BatchItem.itemId).Nodup)
    (run : (allOrNothingBody env identity fingerprint items policy).Returns w result u) :
    (∃ receipts, result = .committed receipts ∧ Committed env identity named items w u receipts) ∨
    ∃ receipts, result = .replay receipts ∧ u.effects = w.effects ∧ u.items = w.items ∧ w.reads < u.reads ∧
      ∀ other, u.batches.entries.get? other =
        (w.batches.purgeTerminal (env.clock w.reads)).entries.get? other := by
  simp only [allOrNothingBody, Program.returns_bind, begin_returns] at run
  obtain ⟨decision, b, ⟨batches, begun, rfl⟩, run⟩ := run
  cases decision with
  | refused refusal => simp at run
  | replay receipts =>
    simp only [Program.returns_pure] at run
    obtain ⟨rfl, rfl⟩ := run
    exact Or.inr ⟨receipts, rfl, rfl, rfl, Nat.lt_succ_self _, MutationBatchStore.begin_replay begun⟩
  | lease lease =>
    left
    obtain ⟨mine, total, isNew⟩ := MutationBatchStore.begin_lease (congrArg Prod.fst begun)
    simp only [Program.returns_bind] at run
    obtain ⟨⟨proven, receipts⟩, v, proving, ⟨reserved, reservations⟩, x, reserving, ⟨applied, all⟩, y, applying,
      completed, u', finishing, run⟩ := run
    dsimp only at reserving applying finishing run
    obtain ⟨calm, provenIdentity, provenIndex, provenReceipts, provenAnswers, recorded⟩ := provePrefix_returns isNew proving
    rw [provenIndex] at reserving
    have distinctRest : ((items.drop lease.nextIndex).map BatchItem.itemId).Nodup :=
      distinct.sublist ((List.drop_sublist _ _).map _)
    obtain ⟨reservedIdentity, reservedReceipts, _, rfl, submitted, grants⟩ :=
      reserveAll_returns fresh named distinctRest reserving
    have distinctGranted : (reservations.map (·.1.itemId)).Nodup := by
      rw [← submitted, List.map_map] at distinctRest
      exact distinctRest
    obtain ⟨appliedIdentity, appliedReads, untouched, fates, settledFates, appliedReceipts, appliedEffects, answers⟩ :=
      applyAll_returns named distinctGranted grants.owned applying
    have finishedReads : y.reads ≤ u'.reads := by
      have later : y.reads ≤ (finish env applied policy y).2.reads := (Forward.finish applied policy y).1
      rwa [show finish env applied policy y = (.ok completed, u') from finishing] at later
    cases completed with
    | false => simp at run
    | true =>
      simp only [if_true, Program.returns_pure] at run
      obtain ⟨rfl, rfl⟩ := run
      rcases finish_returns finishing with ⟨impossible, -⟩ | ⟨-, current, expiresAt, retainedUntil, active, finished,
        sameItems, sameEffects, -, completedBatch⟩
      · cases impossible
      have same : applied.identity = identity :=
        appliedIdentity.trans (reservedIdentity.trans (provenIdentity.trans mine))
      have heldReceipts := (MutationBatchStore.active_some.mp active).2.2.2.2.2.2.2
      have found := completedBatch identity
      rw [if_pos same.symm] at found
      refine ⟨all, rfl, ⟨_, found, rfl, lease.receipts.map (·, []) ++ fates, ?_, ?_, ?_⟩, ?_⟩
      · have recordedKeys : List.Forall₂ (fun item stored => ∃ entry,
            w.items.entries.get? (itemKey identity named item.itemId) = some entry ∧ entry.state = .completed stored)
            (items.take lease.nextIndex) lease.receipts := by
          refine recorded.imp fun item stored fact => ?_
          obtain ⟨scope, entry, inScope, foundEntry, state⟩ := fact
          rw [mine] at inScope
          rw [itemScope_key named inScope] at foundEntry
          exact ⟨entry, foundEntry, state⟩
        refine (fates_of_items distinct calm grants appliedReads submitted untouched recordedKeys settledFates).imp ?_
        exact fun item fate fact => fact.widen rfl sameItems (Nat.le_succ _) finishedReads
      · simp [heldReceipts, appliedReceipts, reservedReceipts, provenReceipts, Function.comp_def]
      · have noEffects : (List.map (Prod.snd ∘ fun receipt : BatchItemReceipt R => (receipt, ([] : List (Mutation P R))))
            lease.receipts).flatten = [] := by
          simp [Function.comp_def]
        rw [List.map_append, List.map_map, List.flatten_append, noEffects, List.nil_append, sameEffects, appliedEffects,
          grants.effects, calm.effects]
      · intro stored foundAgain
        cases foundAgain.symm.trans found
        rw [answers, provenAnswers, ← Settled.original settledFates]
        simp [heldReceipts, appliedReceipts, reservedReceipts, provenReceipts]

/-- A call without effect: no mutation and no entry of either store is added or
changed; batches that had expired when the call read the clock may be gone. -/
structure Undone (env : Environment P R) (w u : World P R) : Prop where
  effects : u.effects = w.effects
  items : ∀ key, u.items.entries.get? key = w.items.entries.get? key
  batches : ∀ other, u.batches.entries.get? other = w.batches.entries.get? other ∨
    ∃ stored n, w.batches.entries.get? other = some stored ∧ u.batches.entries.get? other = none ∧ w.reads ≤ n ∧
      n < u.reads ∧ stored.expired (env.clock n) = true

omit [DecidableEq R] in
theorem undone_of_purge (sameEffects : u.effects = w.effects) (sameItems : u.items = w.items) (read : w.reads < u.reads)
    (purged : ∀ other, u.batches.entries.get? other =
      (w.batches.purgeTerminal (env.clock w.reads)).entries.get? other) : Undone env w u := by
  refine ⟨sameEffects, by simp [sameItems], fun other => ?_⟩
  rw [purged, MutationBatchStore.purgeTerminal_get?]
  cases found : w.batches.entries.get? other with
  | none => exact Or.inl rfl
  | some stored =>
    by_cases gone : stored.expired (env.clock w.reads) = true
    · exact Or.inr ⟨stored, w.reads, rfl, by simp [Option.filter, gone], Nat.le_refl _, read, gone⟩
    · exact Or.inl (by simp [Option.filter, gone])

/-- A batch executed all or nothing either commits every item with its receipt
and the completed batch, or leaves no trace, however it ends. -/
theorem all_or_nothing_atomic (fresh : Function.Injective env.uuid) {policy : IdempotencyPolicy}
    {result : Except PyError (BatchResult R)}
    (run : execute env identity items .allOrNothing policy w = (result, u)) :
    (∃ receipts named, result = .ok (.committed receipts) ∧ Committed env identity named items w u receipts) ∨
    ((∀ receipts, result ≠ .ok (.committed receipts)) ∧ Undone env w u) := by
  have untouched : Undone env w w := ⟨rfl, fun _ => rfl, fun _ => Or.inl rfl⟩
  unfold execute at run
  split at run
  · cases run
    exact Or.inr ⟨by simp, untouched⟩
  rename_i required
  obtain ⟨hasBatch, hasNamespace⟩ := not_or.mp required
  cases valid : validateItems env items with
  | error error =>
    simp only [valid] at run
    cases run
    exact Or.inr ⟨by simp, untouched⟩
  | ok checked =>
    have distinct : (items.map BatchItem.itemId).Nodup := by
      unfold validateItems at valid
      split at valid
      · cases valid
      split at valid
      · cases valid
      · rename_i unique
        exact not_not.mp unique
    simp only [valid] at run
    cases printed : env.batchFingerprint .allOrNothing items with
    | error error =>
      simp only [printed] at run
      cases run
      exact Or.inr ⟨by simp, untouched⟩
    | ok fingerprint =>
      simp only [printed, allOrNothing, Program.recover, atomic, Program.atomic] at run
      rcases body : allOrNothingBody env identity fingerprint items policy w with ⟨ended, v⟩
      rw [body] at run
      cases ended with
      | ok answer =>
        cases run
        rcases allOrNothingBody_returns fresh ⟨hasNamespace, hasBatch⟩ distinct body with
          ⟨receipts, rfl, committed⟩ | ⟨receipts, rfl, sameEffects, sameItems, read, purged⟩
        · exact Or.inl ⟨receipts, ⟨hasNamespace, hasBatch⟩, rfl, committed⟩
        · exact Or.inr ⟨by simp, undone_of_purge sameEffects sameItems read purged⟩
      | error failure =>
        cases failure with
        | rollback refusal =>
          cases run
          exact Or.inr ⟨by simp [caught], rfl, fun _ => rfl, fun _ => Or.inl rfl⟩
        | raised error =>
          cases run
          exact Or.inr ⟨by simp [caught], rfl, fun _ => rfl, fun _ => Or.inl rfl⟩

/-- Two items under one batch, one after the other mutated and committed. -/
theorem two_items_committed :
    ∃ (items : List (BatchItem Nat)) (policy : IdempotencyPolicy) (w u : World Nat Nat) (named : _),
      items.map BatchItem.itemId = ["a", "b"] ∧ w.effects = [] ∧
      execute (.counting (↑·)) ⟨"ns", "b"⟩ items .allOrNothing policy w =
        (.ok (.committed [⟨"a", 7, false⟩, ⟨"b", 7, false⟩]), u) ∧
      Committed (.counting (↑·)) ⟨"ns", "b"⟩ named items w u [⟨"a", 7, false⟩, ⟨"b", 7, false⟩] := by
  let items : List (BatchItem Nat) := [⟨"a", 3, by decide⟩, ⟨"b", 4, by decide⟩]
  let policy : IdempotencyPolicy := ⟨20, 1000, 1000, by decide⟩
  let w : World Nat Nat := ⟨.empty 4, .empty 4, [], 0, 0, 0⟩
  have run : execute (.counting (↑·)) ⟨"ns", "b"⟩ items .allOrNothing policy w =
      (.ok (.committed [⟨"a", 7, false⟩, ⟨"b", 7, false⟩]),
        (execute (.counting (↑·)) ⟨"ns", "b"⟩ items .allOrNothing policy w).2) :=
    Program.run_eq (by decide +kernel)
  rcases all_or_nothing_atomic (Environment.counting_fresh _) run with ⟨receipts, named, same, committed⟩ | ⟨not, -⟩
  · cases same
    exact ⟨items, policy, w, _, named, rfl, rfl, run, committed⟩
  · exact absurd rfl (not _)

/-- The receipt an item already had expires while the call runs: item `a` is
replayed at 2, its entry ends at 10, and the reservation of `b` at 11 drops
it, so that the committed batch leaves no receipt of `a` in the item store. -/
theorem receipt_expires_during_commit :
    ∃ (items : List (BatchItem Nat)) (policy : IdempotencyPolicy) (w u : World Nat Nat) (scope : IdempotencyScope),
      items.map BatchItem.itemId = ["a", "b"] ∧ itemScope ⟨"ns", "b"⟩ "a" = .ok scope ∧
      execute (.counting fun n => if n < 4 then n else n + 7) ⟨"ns", "b"⟩ items .allOrNothing policy w =
        (.ok (.committed [⟨"a", 5, true⟩, ⟨"b", 7, false⟩]), u) ∧
      (w.items.entries.get? ⟨scope, "a"⟩).map Entry.state = some (.completed ⟨"a", 5, false⟩) ∧
      u.items.entries.get? ⟨scope, "a"⟩ = none := by
  let items : List (BatchItem Nat) := [⟨"a", 3, by decide⟩, ⟨"b", 4, by decide⟩]
  let policy : IdempotencyPolicy := ⟨20, 1000, 1000, by decide⟩
  let scope : IdempotencyScope := ⟨"ns", "b", "mutation-item:a", by decide⟩
  let entry : Entry (BatchItemReceipt Nat) := ⟨⟨"t", by decide⟩, ⟨toString 3⟩, 10, .completed ⟨"a", 5, false⟩⟩
  let store : IdempotencyStore (BatchItemReceipt Nat) :=
    ⟨4, Dict.empty.set ⟨scope, "a"⟩ entry, Dict.empty.set entry.token ⟨scope, "a"⟩⟩
  let w : World Nat Nat := ⟨.empty 4, store, [], 0, 0, 0⟩
  refine ⟨items, policy, w, _, scope, rfl, rfl, Program.run_eq ?_, by decide +kernel, ?_⟩
  · decide +kernel
  · decide +kernel

end Coordinator

end Pytitect
