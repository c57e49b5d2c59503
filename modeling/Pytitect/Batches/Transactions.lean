import Pytitect.Batches.Steps

namespace Pytitect

namespace Coordinator
variable {P R : Type} {w u : World P R}

open Program

@[simp] theorem ofExcept_returns {α : Type} {answer : Except PyError α} {a : α} :
    (ofExcept answer : Program (World P R) BatchFailure α).Returns w a u ↔ answer = .ok a ∧ u = w := by
  cases answer with
  | ok b =>
    simp only [ofExcept, returns_pure, Except.ok.injEq]
    exact ⟨fun same => ⟨same.1.symm, same.2⟩, fun same => ⟨same.1.symm, same.2⟩⟩
  | error error => simp [ofExcept]

theorem onBatches_returns {α : Type}
    {operation : MutationBatchStore R → Except PyError α × MutationBatchStore R} {a : α} :
    (onBatches operation : Program (World P R) BatchFailure α).Returns w a u ↔
      ∃ batches, operation w.batches = (.ok a, batches) ∧ u = { w with batches } :=
  returns_zoom

theorem onItems_returns {α : Type} {operation : IdempotencyStore (BatchItemReceipt R) →
      Except PyError α × IdempotencyStore (BatchItemReceipt R)} {a : α} :
    (onItems operation : Program (World P R) BatchFailure α).Returns w a u ↔
      ∃ items, operation w.items = (.ok a, items) ∧ u = { w with items } :=
  returns_zoom

variable {env : Environment P R}

@[simp] theorem now_returns {instant : Int} :
    (now env).Returns w instant u ↔ instant = env.clock w.reads ∧ u = { w with reads := w.reads + 1 } := by
  simp only [Returns, now, Prod.mk.injEq, Except.ok.injEq]
  exact ⟨fun same => ⟨same.1.symm, same.2.symm⟩, fun same => ⟨same.1.symm, same.2.symm⟩⟩

@[simp] theorem uuid_returns {token : Uuid} :
    (uuid env).Returns w token u ↔ token = env.uuid w.draws ∧ u = { w with draws := w.draws + 1 } := by
  simp only [Returns, uuid, Prod.mk.injEq, Except.ok.injEq]
  exact ⟨fun same => ⟨same.1.symm, same.2.symm⟩, fun same => ⟨same.1.symm, same.2.symm⟩⟩

theorem mutate_returns {item : BatchItem P} {result : R} :
    (mutate env item).Returns w result u ↔
      env.mutate w.calls item env.databaseAlias = .ok result ∧
        u = { w with effects := w.effects ++ [⟨item, .ok result⟩], calls := w.calls + 1 } := by
  simp only [Returns, mutate, Prod.mk.injEq]
  cases outcome : env.mutate w.calls item env.databaseAlias with
  | ok value =>
    simp only [Except.mapError, Except.ok.injEq]
    constructor
    · intro same
      obtain ⟨rfl, rfl⟩ := same
      exact ⟨rfl, rfl⟩
    · intro same
      obtain ⟨rfl, rfl⟩ := same
      exact ⟨rfl, rfl⟩
  | error error => simp [Except.mapError]

theorem begin_returns {identity : BatchIdentity} {fingerprint : RequestFingerprint} {totalItems : Nat}
    {policy : IdempotencyPolicy} {decision : MutationBatchBeginResult R} :
    (begin env identity fingerprint totalItems policy).Returns w decision u ↔
      ∃ batches, w.batches.begin identity fingerprint totalItems (env.clock w.reads) policy.executionLeaseTtl
          (env.uuid w.draws) = (.ok decision, batches) ∧
        u = { w with batches, reads := w.reads + 1, draws := w.draws + 1 } := by
  simp [begin, returns_bind, onBatches_returns]

/-- The item reservation token made from the `n`-th `uuid4`. -/
def drawn (env : Environment P R) (n : Nat) : ReservationToken := ⟨(env.uuid n).hex, (env.uuid n).nonempty⟩

theorem reserveItem_returns {identity : BatchIdentity} {item : BatchItem P} {policy : IdempotencyPolicy}
    {decision : IdempotencyDecision (BatchItemReceipt R)} :
    (reserveItem env identity item policy).Returns w decision u ↔
      ∃ scope fingerprint items, itemScope identity item.itemId = .ok scope ∧
        env.itemFingerprint item.payload = .ok fingerprint ∧
        w.items.reserve scope item.itemId fingerprint (env.clock w.reads) policy.executionLeaseTtl
          (drawn env w.draws) = (.ok decision, items) ∧
        u = { w with items, reads := w.reads + 1, draws := w.draws + 1 } := by
  simp only [reserveItem, returns_bind, ofExcept_returns, now_returns, uuid_returns, onItems_returns]
  constructor
  · intro run
    obtain ⟨scope, v, ⟨inScope, rfl⟩, fingerprint, v, ⟨printed, rfl⟩, instant, v, ⟨rfl, rfl⟩, token, v,
      ⟨rfl, rfl⟩, items, reserved, rfl⟩ := run
    exact ⟨scope, fingerprint, items, inScope, printed, reserved, rfl⟩
  · intro run
    obtain ⟨scope, fingerprint, items, inScope, printed, reserved, rfl⟩ := run
    exact ⟨scope, _, ⟨inScope, rfl⟩, fingerprint, _, ⟨printed, rfl⟩, _, _, ⟨rfl, rfl⟩, _, _, ⟨rfl, rfl⟩, items,
      reserved, rfl⟩

/-- A granted item forgets what has expired and then finds its completed entry,
or reserves itself under a new token. -/
theorem grantItem_returns {identity : BatchIdentity} {item : BatchItem P} {policy : IdempotencyPolicy}
    {grant : ItemGrant R} (run : (grantItem env identity item policy).Returns w grant u) :
    ∃ scope fingerprint items, itemScope identity item.itemId = .ok scope ∧
      env.itemFingerprint item.payload = .ok fingerprint ∧
      u = { w with items, reads := w.reads + 1, draws := w.draws + 1 } ∧
      ((∃ entry value, (w.items.purgeExpired (env.clock w.reads)).entries.get? ⟨scope, item.itemId⟩ = some entry ∧
          entry.state = .completed value ∧ entry.fingerprint = fingerprint ∧ grant = .replay value ∧
          items.tokens = (w.items.purgeExpired (env.clock w.reads)).tokens ∧
          ∀ key, items.entries.get? key = (w.items.purgeExpired (env.clock w.reads)).entries.get? key) ∨
        (∃ expiresAt, (w.items.purgeExpired (env.clock w.reads)).entries.get? ⟨scope, item.itemId⟩ = none ∧
          grant = .execute (drawn env w.draws) ∧
          items.tokens = (w.items.purgeExpired (env.clock w.reads)).tokens.set (drawn env w.draws)
            ⟨scope, item.itemId⟩ ∧
          ∀ key, items.entries.get? key = if key = ⟨scope, item.itemId⟩
            then some ⟨drawn env w.draws, fingerprint, expiresAt, .reserved⟩
            else (w.items.purgeExpired (env.clock w.reads)).entries.get? key)) := by
  simp only [grantItem, returns_bind, reserveItem_returns] at run
  obtain ⟨decision, v, ⟨scope, fingerprint, items, inScope, printed, reserved, rfl⟩, run⟩ := run
  refine ⟨scope, fingerprint, items, inScope, printed, ?_⟩
  rcases w.items.reserve_cases scope item.itemId fingerprint (env.clock w.reads) policy.executionLeaseTtl
    (drawn env w.draws) with
    ⟨_, ended⟩ | ⟨_, ended⟩ | ⟨current, found, ended⟩ | ⟨_, ended⟩ | ⟨expiresAt, -, absent, -, ended⟩
  · cases congrArg Prod.fst (ended.symm.trans reserved)
  · cases congrArg Prod.fst (ended.symm.trans reserved)
  · cases ended.symm.trans reserved
    by_cases same : current.fingerprint = fingerprint
    · cases state : current.state with
      | completed value =>
        simp only [Entry.decide, same, ne_eq, not_true_eq_false, if_false, state, itemDecision, returns_pure] at run
        obtain ⟨rfl, rfl⟩ := run
        exact ⟨rfl, Or.inl ⟨current, value, found, state, same, rfl, rfl, by simp⟩⟩
      | reserved => simp [Entry.decide, same, state, itemDecision] at run
      | uncertain reason => simp [Entry.decide, same, state, itemDecision] at run
    · simp [Entry.decide, same, itemDecision] at run
  · cases ended.symm.trans reserved
    simp [itemDecision] at run
  · cases ended.symm.trans reserved
    simp only [itemDecision, returns_pure] at run
    obtain ⟨rfl, rfl⟩ := run
    exact ⟨rfl, Or.inr ⟨expiresAt, absent, rfl, rfl, fun key => Dict.get?_set _ _ _ _⟩⟩

/-- A settled item replays its retained receipt and changes nothing, or runs
its mutation once and completes the entry its token is authoritative for. -/
theorem settleItem_returns {item : BatchItem P} {grant : ItemGrant R} {policy : IdempotencyPolicy}
    {receipt : BatchItemReceipt R} (run : (settleItem env item grant policy).Returns w receipt u) :
    (∃ value, grant = .replay value ∧ value.itemId = item.itemId ∧ receipt = { value with replayed := true } ∧
      u = w) ∨
    ∃ token owner entry result entries, grant = .execute token ∧
      w.items.executing token (env.clock w.reads) = some (owner, entry) ∧
      receipt = ⟨item.itemId, result, false⟩ ∧
      (∀ identity, entries.get? identity = if identity = owner
        then some ⟨token, entry.fingerprint, env.clock (w.reads + 1) + policy.resultRetentionTtl, .completed receipt⟩
        else w.items.entries.get? identity) ∧
      u = { w with
        items := { w.items with entries }
        effects := w.effects ++ [⟨item, .ok result⟩]
        reads := w.reads + 2
        calls := w.calls + 1 } := by
  cases grant with
  | replay value =>
    left
    unfold settleItem at run
    dsimp only at run
    split at run
    · simp at run
    · rename_i same
      simp only [returns_pure] at run
      exact ⟨value, rfl, not_not.mp same, run.1, run.2⟩
  | execute token =>
    right
    simp only [settleItem, returns_bind, now_returns, onItems_returns] at run
    obtain ⟨instant, v, ⟨rfl, rfl⟩, renewal, v, ⟨items, renewed, rfl⟩, run⟩ := run
    cases renewal with
    | stale reason => simp at run
    | renewed expiresAt =>
      obtain ⟨owner, entry, held, rfl, rfl⟩ := IdempotencyStore.renew_renewed renewed
      simp only [returns_bind, mutate_returns, now_returns, onItems_returns] at run
      obtain ⟨result, v, ⟨-, rfl⟩, instant, v, ⟨rfl, rfl⟩, completion, v, ⟨items, completed, rfl⟩, run⟩ := run
      cases completion with
      | stale reason => simp at run
      | completed retainedUntil =>
        simp only [returns_pure] at run
        obtain ⟨rfl, rfl⟩ := run
        obtain ⟨again, current, stillHeld, rfl, rfl⟩ := IdempotencyStore.complete_completed completed
        obtain ⟨index, -, sameToken, -⟩ := IdempotencyStore.executing_some.mp held
        obtain ⟨indexAgain, foundAgain, -⟩ := IdempotencyStore.executing_some.mp stillHeld
        -- The token index has not moved, so the completed entry is the renewed one.
        cases Option.some.inj (index.symm.trans indexAgain)
        rw [Dict.get?_set_self] at foundAgain
        cases Option.some.inj foundAgain
        refine ⟨token, owner, entry, result, _, rfl, held, rfl, ?_, rfl⟩
        intro identity
        by_cases mine : identity = owner
        · simp [mine, sameToken]
        · simp [Dict.get?_set, mine]

variable [DecidableEq R]

/-- A renewal inside a transaction moves the expiry of the stored batch; the
lease goes on with the same token and the same progress. -/
theorem renewBatch_returns {lease renewed : MutationBatchLease R} {itemId : Option String}
    {policy : IdempotencyPolicy} (run : (renewBatch env lease itemId policy).Returns w renewed u) :
    ∃ current, w.batches.active lease (env.clock w.reads) = some current ∧
      StoredBatch.lease { current with leaseExpiresAt := env.clock w.reads + policy.executionLeaseTtl }
        lease.identity lease.resumed = .ok renewed ∧
      u = { w with
        batches := w.batches.write lease.identity
          { current with leaseExpiresAt := env.clock w.reads + policy.executionLeaseTtl }
        reads := w.reads + 1 } := by
  simp only [renewBatch, returns_bind, now_returns, onBatches_returns] at run
  obtain ⟨instant, v, ⟨rfl, rfl⟩, answer, v, ⟨batches, renewal, rfl⟩, run⟩ := run
  cases answer with
  | stale reason => simp at run
  | renewed lease' =>
    simp only [returns_pure] at run
    obtain ⟨rfl, rfl⟩ := run
    obtain ⟨current, expiresAt, held, rfl, rfl, made⟩ := MutationBatchStore.renew_renewed renewal
    exact ⟨current, held, made, rfl⟩

/-- An applied item settles under the batch lease and advances the stored
batch by exactly its receipt. -/
theorem applyReservedItem_returns {lease progressed : MutationBatchLease R} {item : BatchItem P}
    {grant : ItemGrant R} {policy : IdempotencyPolicy} {receipt : BatchItemReceipt R}
    (run : (applyReservedItem env lease item grant policy).Returns w (progressed, receipt) u) :
    ∃ current v batches, w.batches.active lease (env.clock w.reads) = some current ∧
      (settleItem env item grant policy).Returns { w with batches, reads := w.reads + 1 } receipt v ∧
      current.nextIndex < current.totalItems ∧
      progressed.identity = lease.identity ∧ progressed.nextIndex = lease.nextIndex + 1 ∧
      progressed.receipts = lease.receipts ++ [{ receipt with replayed := false }] ∧
      u.items = v.items ∧ u.effects = v.effects ∧ u.draws = v.draws ∧ u.calls = v.calls ∧ v.reads ≤ u.reads ∧
      u.batches.capacity = w.batches.capacity ∧ u.batches.tokens = w.batches.tokens ∧
      ∃ expiresAt, ∀ identity, u.batches.entries.get? identity = if identity = lease.identity
        then some { current with
          receipts := current.receipts ++ [{ receipt with replayed := false }], nextIndex := current.nextIndex + 1
          state := .partiallyCommitted, leaseExpiresAt := expiresAt }
        else w.batches.entries.get? identity := by
  simp only [applyReservedItem, returns_bind, now_returns, onBatches_returns] at run
  obtain ⟨renewed, v, renewal, settled, t, settling, instant, r, ⟨rfl, rfl⟩, answer, r, ⟨batches, advance, rfl⟩, run⟩ :=
    run
  cases answer with
  | stale reason => simp at run
  | progressed fresh =>
    simp only [returns_pure, Prod.mk.injEq] at run
    obtain ⟨⟨rfl, rfl⟩, rfl⟩ := run
    obtain ⟨current, held, made, rfl⟩ := renewBatch_returns renewal
    obtain ⟨sameIdentity, -, -, sameIndex, -, sameReceipts, -⟩ := MutationBatchStore.lease_ok made
    have unmoved : t.batches = w.batches.write lease.identity
        { current with leaseExpiresAt := env.clock w.reads + policy.executionLeaseTtl } := by
      rcases settleItem_returns settling with ⟨_, _, _, _, rfl⟩ | ⟨_, _, _, _, _, _, _, _, _, rfl⟩
      · rfl
      · rfl
    obtain ⟨stored, expiresAt, active, room, rfl, remade⟩ := MutationBatchStore.advance_progressed advance
    obtain ⟨identityAgain, -, -, indexAgain, -, receiptsAgain, -⟩ := MutationBatchStore.lease_ok remade
    obtain ⟨-, found, -⟩ := MutationBatchStore.active_some.mp active
    rw [sameIdentity, unmoved] at found
    simp only [MutationBatchStore.write, Dict.get?_set_self, Option.some.injEq] at found
    subst stored
    obtain ⟨-, -, -, -, -, -, heldIndex, heldReceipts⟩ := MutationBatchStore.active_some.mp held
    refine ⟨current, t, _, held, settling, room, identityAgain.trans sameIdentity, ?_, ?_, rfl, rfl, rfl, rfl, by simp,
      by simp [unmoved, MutationBatchStore.write], by simp [unmoved, MutationBatchStore.write], expiresAt, ?_⟩
    · rw [indexAgain, ← heldIndex]
    · rw [receiptsAgain, ← heldReceipts]
    · intro identity
      by_cases mine : identity = lease.identity
      · simp [MutationBatchStore.write, sameIdentity, mine]
      · simp [MutationBatchStore.write, sameIdentity, unmoved, Dict.get?_set, mine]

end Coordinator

namespace Coordinator
variable {P R : Type} {w u : World P R} {env : Environment P R}

open Program

/-- A program that never turns the clock's readings or the supply of `uuid4` back, however it ends. -/
def Forward {ε α : Type} (p : Program (World P R) ε α) : Prop :=
  ∀ w, w.reads ≤ (p w).2.reads ∧ w.draws ≤ (p w).2.draws

namespace Forward
variable {ε α β : Type}

theorem pure (a : α) : Forward (Pure.pure a : Program (World P R) ε α) :=
  fun _ => ⟨Nat.le_refl _, Nat.le_refl _⟩

theorem raise (error : ε) : Forward (Program.raise error : Program (World P R) ε α) :=
  fun _ => ⟨Nat.le_refl _, Nat.le_refl _⟩

theorem bind {p : Program (World P R) ε α} {f : α → Program (World P R) ε β} (first : Forward p)
    (rest : ∀ a, Forward (f a)) : Forward (p >>= f) := by
  intro w
  have before := first w
  simp only [Bind.bind]
  rcases run : p w with ⟨result, v⟩
  rw [run] at before
  cases result with
  | ok a => exact ⟨Nat.le_trans before.1 (rest a v).1, Nat.le_trans before.2 (rest a v).2⟩
  | error error => exact before

theorem ofExcept (answer : Except PyError α) :
    Forward (Coordinator.ofExcept answer : Program (World P R) BatchFailure α) := by
  cases answer with
  | ok a => exact pure a
  | error error => exact raise _

theorem onBatches (operation : MutationBatchStore R → Except PyError α × MutationBatchStore R) :
    Forward (Coordinator.onBatches operation : Program (World P R) BatchFailure α) := by
  intro w
  simp only [Coordinator.onBatches, zoom]
  rcases operation w.batches with ⟨_ | _, _⟩ <;> exact ⟨Nat.le_refl _, Nat.le_refl _⟩

theorem onItems (operation : IdempotencyStore (BatchItemReceipt R) →
      Except PyError α × IdempotencyStore (BatchItemReceipt R)) :
    Forward (Coordinator.onItems operation : Program (World P R) BatchFailure α) := by
  intro w
  simp only [Coordinator.onItems, zoom]
  rcases operation w.items with ⟨_ | _, _⟩ <;> exact ⟨Nat.le_refl _, Nat.le_refl _⟩

theorem now : Forward (Coordinator.now env) := fun _ => ⟨Nat.le_succ _, Nat.le_refl _⟩

theorem uuid : Forward (Coordinator.uuid env) := fun _ => ⟨Nat.le_refl _, Nat.le_succ _⟩

theorem mutate (item : BatchItem P) : Forward (Coordinator.mutate env item) :=
  fun _ => ⟨Nat.le_refl _, Nat.le_refl _⟩

theorem reserveItem (identity : BatchIdentity) (item : BatchItem P) (policy : IdempotencyPolicy) :
    Forward (Coordinator.reserveItem env identity item policy) :=
  bind (ofExcept _) fun _ => bind (ofExcept _) fun _ => bind now fun _ => bind uuid fun _ => onItems _

theorem settleItem (item : BatchItem P) (grant : ItemGrant R) (policy : IdempotencyPolicy) :
    Forward (Coordinator.settleItem env item grant policy) := by
  cases grant with
  | replay value =>
    unfold Coordinator.settleItem
    dsimp only
    split
    · exact raise _
    · exact pure _
  | execute token =>
    refine bind now fun _ => bind (onItems _) fun renewal => ?_
    cases renewal with
    | stale reason => exact raise _
    | renewed expiresAt =>
      refine bind (mutate _) fun result => bind now fun _ => bind (onItems _) fun completion => ?_
      cases completion with
      | stale reason => exact raise _
      | completed retainedUntil => exact pure _

variable [DecidableEq R]

theorem renewBatch (lease : MutationBatchLease R) (itemId : Option String) (policy : IdempotencyPolicy) :
    Forward (Coordinator.renewBatch env lease itemId policy) := by
  refine bind now fun _ => bind (onBatches _) fun answer => ?_
  cases answer with
  | renewed lease => exact pure _
  | stale reason => exact raise _

theorem provePrefixLoop (policy : IdempotencyPolicy) (items : List (BatchItem P))
    (receipts : List (BatchItemReceipt R)) (lease : MutationBatchLease R) (proven : List (BatchItemReceipt R)) :
    Forward (Coordinator.provePrefixLoop env policy items receipts lease proven) := by
  induction items, receipts, lease, proven using Coordinator.provePrefixLoop.induct with
  | case1 lease proven => exact pure _
  | case2 item items stored receipts lease proven ih =>
    unfold Coordinator.provePrefixLoop
    refine bind (renewBatch _ _ _) fun lease => bind (reserveItem _ _ _) fun decision => ?_
    split
    · exact ih _
    · have marking : Forward (do
          let instant ← Coordinator.now env
          let _ ← Coordinator.onBatches
            (·.markUncertain lease unprovableReason instant policy.uncertaintyRetentionTtl)
          Program.raise (.rollback (.uncertain (some item.itemId) unprovableReason)) :
          Program (World P R) BatchFailure (MutationBatchLease R × List (BatchItemReceipt R))) :=
        bind now fun _ => bind (onBatches _) fun _ => raise _
      split
      · exact bind now fun _ => bind (onItems _) fun _ => marking
      · exact marking
  | case3 receipt receipts lease proven => exact raise _
  | case4 item items lease proven => exact raise _

theorem applyItem (identity : BatchIdentity) (lease : MutationBatchLease R) (item : BatchItem P)
    (policy : IdempotencyPolicy) : Forward (Coordinator.applyItem env identity lease item policy) := by
  refine bind (renewBatch _ _ _) fun lease => bind (bind (reserveItem _ _ _) fun decision => ?_) fun grant => ?_
  · split
    · exact raise _
    · exact pure _
  · refine bind (renewBatch _ _ _) fun lease => bind (settleItem _ _ _) fun receipt => bind now fun _ =>
      bind (onBatches _) fun answer => ?_
    cases answer with
    | stale reason => exact raise _
    | progressed lease => exact pure _

theorem finish (lease : MutationBatchLease R) (policy : IdempotencyPolicy) :
    Forward (Coordinator.finish env lease policy) := by
  refine bind now fun _ => bind (onBatches _) fun renewal => ?_
  cases renewal with
  | stale reason => exact pure _
  | renewed lease =>
    refine bind now fun _ => bind (onBatches _) fun completion => ?_
    cases completion with
    | completed retainedUntil => exact pure _
    | stale reason => exact pure _

end Forward

/-- An item entry is as it was, or has expired at one of the instants read. -/
def Aged (env : Environment P R) (w u : World P R) (key : IdempotencyIdentity) : Prop :=
  u.items.entries.get? key = w.items.entries.get? key ∨
    ∃ entry n, w.items.entries.get? key = some entry ∧ u.items.entries.get? key = none ∧ w.reads ≤ n ∧ n < u.reads ∧
      entry.expired (env.clock n) = true

theorem Aged.trans {v : World P R} {key : IdempotencyIdentity} (first : Aged env w v key) (second : Aged env v u key)
    (early : w.reads ≤ v.reads) (late : v.reads ≤ u.reads) : Aged env w u key := by
  rcases second with same | ⟨entry, n, found, gone, from_, upto, expired⟩
  · rcases first with old | ⟨entry, n, found, gone, from_, upto, expired⟩
    · exact Or.inl (same.trans old)
    · exact Or.inr ⟨entry, n, found, same.trans gone, from_, by omega, expired⟩
  · rcases first with old | ⟨_, _, _, absent, _⟩
    · exact Or.inr ⟨entry, n, old ▸ found, gone, by omega, upto, expired⟩
    · rw [absent] at found
      cases found

theorem Aged.kept {key : IdempotencyIdentity} {entry : Entry (BatchItemReceipt R)} (aged : Aged env w u key)
    (found : u.items.entries.get? key = some entry) : w.items.entries.get? key = some entry := by
  rcases aged with same | ⟨_, _, _, gone, _⟩
  · exact same ▸ found
  · rw [gone] at found
    cases found

theorem aged_purge {key : IdempotencyIdentity} (read : w.reads < u.reads)
    (purged : u.items.entries.get? key = (w.items.purgeExpired (env.clock w.reads)).entries.get? key) :
    Aged env w u key := by
  unfold Aged
  rw [purged, IdempotencyStore.purgeExpired_get?]
  cases found : w.items.entries.get? key with
  | none => exact Or.inl rfl
  | some entry =>
    by_cases gone : entry.expired (env.clock w.reads) = true
    · exact Or.inr ⟨entry, w.reads, rfl, by simp [Option.filter, gone], Nat.le_refl _, read, gone⟩
    · exact Or.inl (by simp [Option.filter, gone])

/-- What a renewal or a replay leaves behind: no effect, no new entry and no
progress; entries of items may have aged, and a batch lease may run longer. -/
structure Quiet (env : Environment P R) (w u : World P R) : Prop where
  effects : u.effects = w.effects
  reads : w.reads ≤ u.reads
  draws : w.draws ≤ u.draws
  aged : ∀ key, Aged env w u key
  progress : ∀ identity, u.batches.entries.get? identity = w.batches.entries.get? identity ∨
    ∃ stored expiresAt, w.batches.entries.get? identity = some stored ∧
      u.batches.entries.get? identity = some { stored with leaseExpiresAt := expiresAt }

namespace Quiet

theorem refl (w : World P R) : Quiet env w w :=
  ⟨rfl, Nat.le_refl _, Nat.le_refl _, fun _ => Or.inl rfl, fun _ => Or.inl rfl⟩

theorem trans {v : World P R} (first : Quiet env w v) (second : Quiet env v u) : Quiet env w u where
  effects := second.effects.trans first.effects
  reads := Nat.le_trans first.reads second.reads
  draws := Nat.le_trans first.draws second.draws
  aged key := (first.aged key).trans (second.aged key) first.reads second.reads
  progress identity := by
    rcases second.progress identity with same | ⟨stored, expiresAt, found, moved⟩
    · rw [same]
      exact first.progress identity
    · rcases first.progress identity with old | ⟨before, _, foundBefore, movedBefore⟩
      · exact Or.inr ⟨stored, expiresAt, old ▸ found, moved⟩
      · cases Option.some.inj (movedBefore.symm.trans found)
        exact Or.inr ⟨before, expiresAt, foundBefore, moved⟩

end Quiet

theorem quiet_purge {w u : World P R} (sameEffects : u.effects = w.effects) (sameBatches : u.batches = w.batches)
    (read : u.reads = w.reads + 1) (draws : w.draws ≤ u.draws)
    (purged : ∀ key, u.items.entries.get? key =
      (w.items.purgeExpired (env.clock w.reads)).entries.get? key) : Quiet env w u where
  effects := sameEffects
  reads := by omega
  draws := draws
  aged key := aged_purge (by omega) (purged key)
  progress identity := Or.inl (by rw [sameBatches])

variable [DecidableEq R]

theorem renewBatch_quiet {lease renewed : MutationBatchLease R} {itemId : Option String}
    {policy : IdempotencyPolicy} (run : (renewBatch env lease itemId policy).Returns w renewed u) :
    Quiet env w u ∧ renewed.identity = lease.identity ∧ renewed.nextIndex = lease.nextIndex ∧
      renewed.receipts = lease.receipts := by
  obtain ⟨current, held, made, rfl⟩ := renewBatch_returns run
  obtain ⟨sameIdentity, -, -, sameIndex, -, sameReceipts, -⟩ := MutationBatchStore.lease_ok made
  obtain ⟨-, found, -, -, -, -, heldIndex, heldReceipts⟩ := MutationBatchStore.active_some.mp held
  refine ⟨⟨rfl, Nat.le_succ _, Nat.le_refl _, fun _ => Or.inl rfl, ?_⟩, sameIdentity, sameIndex.trans heldIndex,
    sameReceipts.trans heldReceipts⟩
  intro identity
  by_cases mine : identity = lease.identity
  · subst mine
    exact Or.inr ⟨current, env.clock w.reads + policy.executionLeaseTtl, found, by simp [MutationBatchStore.write]⟩
  · exact Or.inl (by simp [MutationBatchStore.write, Dict.get?_set, mine])

omit [DecidableEq R] in
/-- A reservation that replays has found a completed entry with the same fingerprint. -/
theorem reserveItem_replay {identity : BatchIdentity} {item : BatchItem P} {policy : IdempotencyPolicy}
    {value : BatchItemReceipt R} (run : (reserveItem env identity item policy).Returns w (.replay value) u) :
    Quiet env w u ∧ ∃ scope entry, itemScope identity item.itemId = .ok scope ∧
      w.items.entries.get? ⟨scope, item.itemId⟩ = some entry ∧ entry.state = .completed value ∧
      env.itemFingerprint item.payload = .ok entry.fingerprint ∧ entry.expired (env.clock w.reads) = false := by
  rw [reserveItem_returns] at run
  obtain ⟨scope, fingerprint, items, inScope, printed, reserved, rfl⟩ := run
  rcases w.items.reserve_cases scope item.itemId fingerprint (env.clock w.reads) policy.executionLeaseTtl
    (drawn env w.draws) with
    ⟨_, ended⟩ | ⟨_, ended⟩ | ⟨current, found, ended⟩ | ⟨_, ended⟩ | ⟨expiresAt, -, absent, -, ended⟩
  · cases congrArg Prod.fst (ended.symm.trans reserved)
  · cases congrArg Prod.fst (ended.symm.trans reserved)
  · obtain ⟨decided, rfl⟩ := Prod.mk.inj (ended.symm.trans reserved)
    refine ⟨quiet_purge rfl rfl rfl (Nat.le_succ _) (by simp), scope, current, inScope, ?_⟩
    rw [IdempotencyStore.purgeExpired_get?, Option.filter_eq_some_iff] at found
    refine ⟨found.1, ?_⟩
    unfold Entry.decide at decided
    split at decided
    · cases decided
    · rename_i same
      split at decided
      · rename_i stored state
        cases decided
        exact ⟨state, not_not.mp same ▸ printed, by simpa using found.2⟩
      · cases decided
      · cases decided
  · cases congrArg Prod.fst (ended.symm.trans reserved)
  · cases congrArg Prod.fst (ended.symm.trans reserved)

/-- A proven prefix is quiet, and every receipt of it was found in a completed
entry of its item. -/
theorem provePrefixLoop_returns {policy : IdempotencyPolicy} {items : List (BatchItem P)}
    {receipts : List (BatchItemReceipt R)} {lease renewed : MutationBatchLease R}
    {proven all : List (BatchItemReceipt R)}
    (run : (provePrefixLoop env policy items receipts lease proven).Returns w (renewed, all) u) :
    Quiet env w u ∧ renewed.identity = lease.identity ∧ renewed.nextIndex = lease.nextIndex ∧
      renewed.receipts = lease.receipts ∧ all = proven ++ receipts.map ({ · with replayed := true }) ∧
      List.Forall₂ (fun item stored => ∃ scope entry, itemScope lease.identity item.itemId = .ok scope ∧
        w.items.entries.get? ⟨scope, item.itemId⟩ = some entry ∧ entry.state = .completed stored) items receipts := by
  induction items, receipts, lease, proven using provePrefixLoop.induct generalizing w with
  | case1 lease proven =>
    simp only [provePrefixLoop, returns_pure, Prod.mk.injEq] at run
    obtain ⟨⟨rfl, rfl⟩, rfl⟩ := run
    exact ⟨Quiet.refl _, rfl, rfl, rfl, by simp, .nil⟩
  | case2 item items stored receipts lease proven ih =>
    unfold provePrefixLoop at run
    simp only [returns_bind] at run
    obtain ⟨fresh, v, renewal, decision, v', reservation, run⟩ := run
    obtain ⟨calm, sameIdentity, sameIndex, sameReceipts⟩ := renewBatch_quiet renewal
    split at run
    · rename_i decided
      subst decided
      obtain ⟨calmer, scope, entry, inScope, found, state, -⟩ := reserveItem_replay reservation
      obtain ⟨rest, lastIdentity, lastIndex, lastReceipts, rfl, pairs⟩ := ih fresh run
      refine ⟨(calm.trans calmer).trans rest, lastIdentity.trans sameIdentity, lastIndex.trans sameIndex,
        lastReceipts.trans sameReceipts, by simp, .cons ⟨scope, entry, sameIdentity ▸ inScope, (calm.aged _).kept found, state⟩ ?_⟩
      refine pairs.imp fun later laterStored pair => ?_
      obtain ⟨laterScope, laterEntry, laterInScope, laterFound, laterState⟩ := pair
      exact ⟨laterScope, laterEntry, sameIdentity ▸ laterInScope, ((calm.trans calmer).aged _).kept laterFound, laterState⟩
    · split at run
      · simp [returns_bind] at run
      · simp [returns_bind] at run
  | case3 receipt receipts lease proven => simp [provePrefixLoop] at run
  | case4 item items lease proven => simp [provePrefixLoop] at run

/-- The last transaction completes the batch its lease still holds, or is quiet. -/
theorem finish_returns {lease : MutationBatchLease R} {policy : IdempotencyPolicy} {completed : Bool}
    (run : (finish env lease policy).Returns w completed u) :
    (completed = false ∧ Quiet env w u) ∨
    (completed = true ∧ ∃ current expiresAt retainedUntil, w.batches.active lease (env.clock w.reads) = some current ∧
      current.nextIndex = current.totalItems ∧ u.items = w.items ∧ u.effects = w.effects ∧ u.draws = w.draws ∧
      ∀ identity, u.batches.entries.get? identity = if identity = lease.identity
        then some { current with
          leaseExpiresAt := expiresAt, state := .completed, retentionExpiresAt := some retainedUntil }
        else w.batches.entries.get? identity) := by
  simp only [finish, returns_bind, now_returns, onBatches_returns] at run
  obtain ⟨instant, v, ⟨rfl, rfl⟩, renewal, v, ⟨batches, renewing, rfl⟩, run⟩ := run
  cases renewal with
  | stale reason =>
    cases MutationBatchStore.renew_stale renewing
    simp only [returns_pure] at run
    obtain ⟨rfl, rfl⟩ := run
    exact Or.inl ⟨rfl, rfl, Nat.le_succ _, Nat.le_refl _, fun _ => Or.inl rfl, fun _ => Or.inl rfl⟩
  | renewed fresh =>
    simp only [returns_bind, now_returns, onBatches_returns] at run
    obtain ⟨instant, v, ⟨rfl, rfl⟩, completion, v, ⟨last, completing, rfl⟩, run⟩ := run
    have renewedBatch : (renewBatch env lease none policy).Returns w fresh { w with batches, reads := w.reads + 1 } := by
      simp only [renewBatch, returns_bind, now_returns, onBatches_returns]
      exact ⟨_, _, ⟨rfl, rfl⟩, .renewed fresh, _, ⟨batches, renewing, rfl⟩, by simp⟩
    cases completion with
    | stale reason =>
      cases MutationBatchStore.complete_stale completing
      simp only [returns_pure] at run
      obtain ⟨rfl, rfl⟩ := run
      have calm := (renewBatch_quiet renewedBatch).1
      exact Or.inl ⟨rfl, calm.effects, Nat.le_add_right _ 2, calm.draws, fun _ => Or.inl rfl, calm.progress⟩
    | completed retainedUntil =>
      simp only [returns_pure] at run
      obtain ⟨rfl, rfl⟩ := run
      obtain ⟨current, expiresAt, held, rfl, rfl, made⟩ := MutationBatchStore.renew_renewed renewing
      obtain ⟨stored, active, finished, rfl⟩ := MutationBatchStore.complete_completed completing
      obtain ⟨sameIdentity, -⟩ := MutationBatchStore.lease_ok made
      obtain ⟨-, found, -⟩ := MutationBatchStore.active_some.mp active
      rw [sameIdentity] at found
      simp only [MutationBatchStore.write, Dict.get?_set_self, Option.some.injEq] at found
      subst stored
      refine Or.inr ⟨rfl, current, env.clock w.reads + policy.executionLeaseTtl, retainedUntil, held, finished, rfl, rfl, rfl, ?_⟩
      intro identity
      by_cases mine : identity = lease.identity
      · simp [MutationBatchStore.write, sameIdentity, mine]
      · simp [MutationBatchStore.write, sameIdentity, Dict.get?_set, mine]

end Coordinator

end Pytitect
