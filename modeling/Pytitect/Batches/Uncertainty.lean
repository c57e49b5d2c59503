import Pytitect.Batches.AllOrNothing

namespace Pytitect

namespace MutationBatchStore
variable {R : Type}

/-- The lease is the current one of the batch it names. -/
structure Holds (s : MutationBatchStore R) (lease : MutationBatchLease R) (current : StoredBatch R) : Prop where
  indexed : s.tokens.get? lease.token = some lease.identity
  found : s.entries.get? lease.identity = some current
  token : current.token = lease.token
  executing : current.state.executing = true
  expiry : current.leaseExpiresAt = lease.expiresAt
  index : current.nextIndex = lease.nextIndex
  receipts : current.receipts = lease.receipts
  total : current.totalItems = lease.totalItems

theorem lease_made {stored : StoredBatch R} {identity : BatchIdentity} {resumed : Bool}
    (named : identity.ns ≠ "" ∧ identity.batchId ≠ "") (executing : stored.state.executing = true)
    (progress : stored.nextIndex ≤ stored.totalItems) (agree : stored.nextIndex = stored.receipts.length) :
    ∃ lease, stored.lease identity resumed = .ok lease := by
  unfold StoredBatch.lease
  rw [dif_pos named, dif_pos executing, dif_pos progress, dif_pos agree]
  exact ⟨_, rfl⟩

variable [DecidableEq R] {s : MutationBatchStore R} {lease : MutationBatchLease R} {current : StoredBatch R}

theorem Holds.active (holds : Holds s lease current) {now : Int} (early : now < lease.expiresAt) :
    s.active lease now = some current :=
  active_some.mpr ⟨holds.indexed, holds.found, holds.token, holds.executing, holds.expiry ▸ early, holds.expiry,
    holds.index, holds.receipts⟩

theorem Holds.lapsed (holds : Holds s lease current) {now : Int} (late : lease.expiresAt ≤ now) :
    s.active lease now = none := by
  cases held : s.active lease now with
  | none => rfl
  | some other =>
    obtain ⟨-, found, -, -, alive, -⟩ := active_some.mp held
    cases holds.found.symm.trans found
    have expiry := holds.expiry
    omega

/-- A current lease is renewed while it lasts, and is then current again. -/
theorem Holds.renew (holds : Holds s lease current) {now leaseTtl : Int} (positive : 0 < leaseTtl)
    (early : now < lease.expiresAt) (fits : Fits now leaseTtl) :
    ∃ renewed t, s.renew lease now leaseTtl = (.ok (.renewed renewed), t) ∧ renewed.identity = lease.identity ∧
      renewed.expiresAt = now + leaseTtl ∧ Holds t renewed { current with leaseExpiresAt := now + leaseTtl } := by
  have progress : current.nextIndex ≤ current.totalItems := by
    rw [holds.index, holds.total]
    exact lease.progress
  have agree : current.nextIndex = current.receipts.length := by
    rw [holds.index, holds.receipts]
    exact lease.agree
  obtain ⟨renewed, made⟩ : ∃ renewed,
      StoredBatch.lease { current with leaseExpiresAt := now + leaseTtl } lease.identity lease.resumed = .ok renewed :=
    lease_made lease.named holds.executing progress agree
  obtain ⟨sameIdentity, sameToken, -, sameIndex, sameTotal, sameReceipts, expiry, -⟩ := lease_ok made
  refine ⟨renewed, s.write lease.identity { current with leaseExpiresAt := now + leaseTtl }, ?_, sameIdentity, expiry, ?_⟩
  · unfold MutationBatchStore.renew
    rw [if_neg (by omega), holds.active early]
    simp only [datetimeAdd_fits fits, made, Except.map]
  · refine ⟨?_, by simp [write, sameIdentity], sameToken.symm, holds.executing, expiry.symm, sameIndex.symm,
      sameReceipts.symm, sameTotal.symm⟩
    rw [sameToken, sameIdentity]
    exact holds.token ▸ holds.indexed

/-- Marking a current lease raises only for an instant beyond the calendar. -/
theorem Holds.markUncertain (holds : Holds s lease current) (reason : String) {now retentionTtl : Int}
    (positive : 0 < retentionTtl) (stated : reason ≠ "") :
    (∃ result t, s.markUncertain lease reason now retentionTtl = (.ok result, t)) ↔
      (now < lease.expiresAt → Fits now retentionTtl) := by
  unfold MutationBatchStore.markUncertain
  rw [if_neg (by omega), if_neg stated]
  by_cases early : now < lease.expiresAt
  · rw [holds.active early]
    by_cases fits : Fits now retentionTtl
    · simp [datetimeAdd_fits fits, fits]
    · simp [datetimeAdd_overflows fits, fits, early]
  · rw [holds.lapsed (by omega)]
    simp [early]

end MutationBatchStore

namespace IdempotencyStore
variable {T : Type} {s : IdempotencyStore T} {key : IdempotencyIdentity} {now leaseTtl : Int}

/-- The entry of the key is a completed one with this value, and retained at the instant. -/
def Provable (s : IdempotencyStore T) (key : IdempotencyIdentity) (fingerprint : RequestFingerprint) (value : T)
    (now : Int) : Prop :=
  ∃ entry, s.entries.get? key = some entry ∧ entry.expired now = false ∧ entry.fingerprint = fingerprint ∧
    entry.state = .completed value

/-- The key is free at the instant and the store has room for it. -/
def grants (s : IdempotencyStore T) (key : IdempotencyIdentity) (now : Int) : Bool :=
  ((s.purgeExpired now).entries.get? key).isNone && decide ((s.purgeExpired now).entries.size < s.capacity)

theorem abandon_ok (s : IdempotencyStore T) (token : ReservationToken) (now : Int) :
    ∃ result t, s.abandon token now = (.ok result, t) := by
  unfold abandon
  split
  · exact ⟨_, _, rfl⟩
  · exact ⟨_, _, rfl⟩

/-- The store after a replay of the key. -/
def afterReplay (s : IdempotencyStore T) (key : IdempotencyIdentity) (now : Int) : IdempotencyStore T :=
  { s.purgeExpired now with entries := (s.purgeExpired now).entries.moveToEnd key }

theorem reserve_provable {fingerprint : RequestFingerprint} {value : T} (provable : s.Provable key fingerprint value now)
    (keyed : key.key ≠ "") (positive : 0 < leaseTtl) (token : ReservationToken) :
    s.reserve key.scope key.key fingerprint now leaseTtl token = (.ok (.replay value), s.afterReplay key now) := by
  obtain ⟨entry, found, kept, same, state⟩ := provable
  have present : (s.purgeExpired now).entries.get? key = some entry := by
    rw [purgeExpired_get?, found]
    simp [Option.filter, kept]
  unfold reserve
  rw [if_neg keyed, if_neg (by omega)]
  simp [present, Entry.decide, same, state, afterReplay]

/-- Without proof the reservation answers anything but the replay, or raises
when it would grant a lease beyond the calendar. -/
theorem reserve_unprovable {fingerprint : RequestFingerprint} {value : T}
    (unprovable : ¬s.Provable key fingerprint value now) (keyed : key.key ≠ "") (positive : 0 < leaseTtl)
    (token : ReservationToken) :
    (s.grants key now = true ∧ ¬Fits now leaseTtl ∧ ∃ error t,
      s.reserve key.scope key.key fingerprint now leaseTtl token = (.error error, t)) ∨
    (s.grants key now = true ∧ Fits now leaseTtl ∧ ∃ t,
      s.reserve key.scope key.key fingerprint now leaseTtl token = (.ok (.execute token), t)) ∨
    (s.grants key now = false ∧ ∃ decision t,
      s.reserve key.scope key.key fingerprint now leaseTtl token = (.ok decision, t) ∧ decision ≠ .replay value ∧
      ∀ token, decision ≠ .execute token) := by
  unfold reserve grants
  rw [if_neg keyed, if_neg (by omega)]
  dsimp only
  cases present : (s.purgeExpired now).entries.get? key with
  | some entry =>
    refine Or.inr (Or.inr ⟨rfl, entry.decide fingerprint, _, rfl, ?_, ?_⟩)
    · intro replayed
      rw [purgeExpired_get?, Option.filter_eq_some_iff] at present
      unfold Entry.decide at replayed
      split at replayed
      · cases replayed
      · rename_i same
        split at replayed
        · rename_i state
          cases replayed
          exact unprovable ⟨entry, present.1, by simpa using present.2, not_not.mp same, state⟩
        · cases replayed
        · cases replayed
    · intro other executed
      unfold Entry.decide at executed
      split at executed
      · cases executed
      · split at executed <;> cases executed
  | none =>
    by_cases room : (s.purgeExpired now).entries.size < s.capacity
    · rw [purgeExpired_capacity, if_neg (by omega)]
      by_cases fits : Fits now leaseTtl
      · exact Or.inr (Or.inl ⟨by simp [room], fits, by simp [datetimeAdd_fits fits]⟩)
      · exact Or.inl ⟨by simp [room], fits, by simp [datetimeAdd_overflows fits]⟩
    · rw [purgeExpired_capacity, if_pos (by omega)]
      exact Or.inr (Or.inr ⟨by simp [room], _, _, rfl, by simp, by simp⟩)

end IdempotencyStore

theorem itemScope_ok {identity : BatchIdentity} (named : identity.ns ≠ "" ∧ identity.batchId ≠ "") (itemId : String) :
    itemScope identity itemId = .ok (itemKey identity named itemId).scope :=
  dif_pos (itemKey identity named itemId).scope.nonempty

namespace Coordinator
variable {P R : Type} {w u : World P R} {env : Environment P R} {identity : BatchIdentity} {item : BatchItem P}
  {policy : IdempotencyPolicy}

/-- The prefix of a resumed batch, proven in its order from an instant on, comes
to a receipt that is not provable, with the batch lease renewed up to there
and no instant beyond the calendar. Each item takes two readings of the clock:
one renews the lease, one reserves the item. -/
def Unproven (env : Environment P R) (key : String → IdempotencyIdentity) (policy : IdempotencyPolicy) :
    List (BatchItem P) → List (BatchItemReceipt R) → Int → Nat → IdempotencyStore (BatchItemReceipt R) → Prop
  | item :: items, stored :: receipts, expiresAt, reads, store =>
    env.clock reads < expiresAt ∧ Fits (env.clock reads) policy.executionLeaseTtl ∧
    ∃ fingerprint, env.itemFingerprint item.payload = .ok fingerprint ∧
      ((store.Provable (key item.itemId) fingerprint stored (env.clock (reads + 1)) ∧
          Unproven env key policy items receipts (env.clock reads + policy.executionLeaseTtl) (reads + 2)
            (store.afterReplay (key item.itemId) (env.clock (reads + 1)))) ∨
        (¬store.Provable (key item.itemId) fingerprint stored (env.clock (reads + 1)) ∧
          (store.grants (key item.itemId) (env.clock (reads + 1)) = true →
            Fits (env.clock (reads + 1)) policy.executionLeaseTtl) ∧
          ∀ instant, instant = env.clock
              (if store.grants (key item.itemId) (env.clock (reads + 1)) then reads + 3 else reads + 2) →
            instant < env.clock reads + policy.executionLeaseTtl → Fits instant policy.uncertaintyRetentionTtl))
  | _, _, _, _, _ => False

/-- The failure of a prefix that can no longer be proved. -/
def unprovable (itemId : String) : BatchFailure := .rollback (.uncertain (some itemId) unprovableReason)

variable (policy w) in
theorem reserveItem_run (named : identity.ns ≠ "" ∧ identity.batchId ≠ "") {fingerprint : RequestFingerprint}
    (printed : env.itemFingerprint item.payload = .ok fingerprint) :
    reserveItem env identity item policy w =
      ((w.items.reserve (itemKey identity named item.itemId).scope item.itemId fingerprint (env.clock w.reads)
          policy.executionLeaseTtl (drawn env w.draws)).1.mapError .raised,
        { w with
          items := (w.items.reserve (itemKey identity named item.itemId).scope item.itemId fingerprint
            (env.clock w.reads) policy.executionLeaseTtl (drawn env w.draws)).2
          reads := w.reads + 1
          draws := w.draws + 1 }) := by
  simp only [reserveItem, itemScope_ok named, printed, ofExcept, Bind.bind, Pure.pure, now, uuid, onItems, Program.zoom,
    drawn]
  rcases w.items.reserve (itemKey identity named item.itemId).scope item.itemId fingerprint (env.clock w.reads)
    policy.executionLeaseTtl ⟨(env.uuid w.draws).hex, (env.uuid w.draws).nonempty⟩ with ⟨_ | _, _⟩ <;> rfl

variable (policy) in
theorem reserveItem_answered (named : identity.ns ≠ "" ∧ identity.batchId ≠ "") {fingerprint : RequestFingerprint}
    (printed : env.itemFingerprint item.payload = .ok fingerprint)
    {answer : Except PyError (IdempotencyDecision (BatchItemReceipt R))} {t : IdempotencyStore (BatchItemReceipt R)}
    (run : w.items.reserve (itemKey identity named item.itemId).scope (itemKey identity named item.itemId).key fingerprint
      (env.clock w.reads) policy.executionLeaseTtl (drawn env w.draws) = (answer, t)) :
    reserveItem env identity item policy w =
      (answer.mapError .raised, { w with items := t, reads := w.reads + 1, draws := w.draws + 1 }) := by
  rw [reserveItem_run w policy named printed]
  rw [show (itemKey identity named item.itemId).key = item.itemId from rfl] at run
  rw [run]

theorem reserveItem_unprinted (named : identity.ns ≠ "" ∧ identity.batchId ≠ "") {error : PyError}
    (printed : env.itemFingerprint item.payload = .error error) :
    reserveItem env identity item policy w = (.error (.raised error), w) := by
  simp only [reserveItem, itemScope_ok named, printed, ofExcept, Bind.bind, Pure.pure, Program.raise]

variable [DecidableEq R]

theorem renewBatch_holds {lease : MutationBatchLease R} {current : StoredBatch R} (itemId : Option String)
    (holds : w.batches.Holds lease current)
    (early : env.clock w.reads < lease.expiresAt) (fits : Fits (env.clock w.reads) policy.executionLeaseTtl) :
    ∃ renewed batches stored, (renewBatch env lease itemId policy).Returns w renewed
        { w with batches, reads := w.reads + 1 } ∧ renewed.identity = lease.identity ∧
      renewed.expiresAt = env.clock w.reads + policy.executionLeaseTtl ∧ batches.Holds renewed stored := by
  obtain ⟨renewed, batches, run, sameIdentity, expiry, holdsAgain⟩ := holds.renew policy.positive.1 early fits
  refine ⟨renewed, batches, _, ?_, sameIdentity, expiry, holdsAgain⟩
  simp only [renewBatch, Program.returns_bind, now_returns, onBatches_returns]
  exact ⟨_, _, ⟨rfl, rfl⟩, .renewed renewed, _, ⟨batches, run, rfl⟩, by simp⟩

/-- A renewal that fails is never mistaken for a prefix that cannot be proved. -/
theorem renewBatch_fails {lease : MutationBatchLease R} {current : StoredBatch R} (itemId : Option String)
    (holds : w.batches.Holds lease current)
    (fails : ¬(env.clock w.reads < lease.expiresAt ∧ Fits (env.clock w.reads) policy.executionLeaseTtl)) :
    ∃ failure v, (renewBatch env lease itemId policy).Raises w failure v ∧ ∀ id, failure ≠ unprovable id := by
  have positive := policy.positive.1
  by_cases early : env.clock w.reads < lease.expiresAt
  · have beyond : ¬Fits (env.clock w.reads) policy.executionLeaseTtl := fun fits => fails ⟨early, fits⟩
    have run : w.batches.renew lease (env.clock w.reads) policy.executionLeaseTtl =
        (.error (.overflowError "date value out of range"), w.batches) := by
      unfold MutationBatchStore.renew
      rw [if_neg (by omega), holds.active early]
      simp only [datetimeAdd_overflows beyond]
    refine ⟨.raised (.overflowError "date value out of range"), { w with reads := w.reads + 1 }, ?_, by simp [unprovable]⟩
    simp [Program.Raises, renewBatch, Bind.bind, now, onBatches, Program.zoom, run]
  · have run : w.batches.renew lease (env.clock w.reads) policy.executionLeaseTtl =
        (.ok (.stale staleLeaseReason), w.batches) := by
      unfold MutationBatchStore.renew
      rw [if_neg (by omega), holds.lapsed (by omega)]
    refine ⟨.rollback (.uncertain itemId staleLeaseReason), { w with reads := w.reads + 1 }, ?_, ?_⟩
    · simp [Program.Raises, renewBatch, Bind.bind, now, onBatches, Program.zoom, run, Program.raise]
    · intro id same
      simp only [unprovable, BatchFailure.rollback.injEq, BatchRefusal.uncertain.injEq] at same
      exact absurd same.2 (by decide)

variable (env policy) in
/-- The end of the loop at a receipt without proof: it fails as unprovable unless
marking the batch raises. -/
theorem marking_raises {lease : MutationBatchLease R} {current : StoredBatch R} {α : Type}
    (holds : w.batches.Holds lease current) (itemId : String) :
    (∃ id v, Program.Raises (do
        let instant ← now env
        let _ ← onBatches (·.markUncertain lease unprovableReason instant policy.uncertaintyRetentionTtl)
        Program.raise (.rollback (.uncertain (some itemId) unprovableReason)) : Program (World P R) BatchFailure α)
        w (unprovable id) v) ↔
      (env.clock w.reads < lease.expiresAt → Fits (env.clock w.reads) policy.uncertaintyRetentionTtl) := by
  rw [← holds.markUncertain unprovableReason policy.positive.2.2 (by decide)]
  rcases run : w.batches.markUncertain lease unprovableReason (env.clock w.reads) policy.uncertaintyRetentionTtl with
    ⟨result, batches⟩
  cases result with
  | error error => simp [Program.Raises, Bind.bind, now, onBatches, Program.zoom, run, unprovable]
  | ok answer =>
    simp [Program.Raises, Bind.bind, now, onBatches, Program.zoom, run, unprovable, Program.raise]

/-- At a receipt without proof, under a lease that has just been renewed, the
loop fails as unprovable unless the reservation or the marking raises. -/
theorem provePrefixLoop_unprovable (named : identity.ns ≠ "" ∧ identity.batchId ≠ "") {items : List (BatchItem P)}
    {stored : BatchItemReceipt R} {receipts : List (BatchItemReceipt R)} {lease renewed : MutationBatchLease R}
    {proven : List (BatchItemReceipt R)} {current : StoredBatch R} {batches : MutationBatchStore R}
    {fingerprint : RequestFingerprint} (printed : env.itemFingerprint item.payload = .ok fingerprint)
    (renewal : (renewBatch env lease (some item.itemId) policy).Returns w renewed { w with batches, reads := w.reads + 1 })
    (mine : renewed.identity = identity) (holds : batches.Holds renewed current)
    (missing : ¬w.items.Provable (itemKey identity named item.itemId) fingerprint stored (env.clock (w.reads + 1))) :
    (∃ id v, (provePrefixLoop env policy (item :: items) (stored :: receipts) lease proven).Raises w (unprovable id) v) ↔
      (w.items.grants (itemKey identity named item.itemId) (env.clock (w.reads + 1)) = true →
        Fits (env.clock (w.reads + 1)) policy.executionLeaseTtl) ∧
      ∀ instant, instant = env.clock (if w.items.grants (itemKey identity named item.itemId) (env.clock (w.reads + 1))
          then w.reads + 3 else w.reads + 2) →
        instant < renewed.expiresAt → Fits instant policy.uncertaintyRetentionTtl := by
  have keyed : (itemKey identity named item.itemId).key ≠ "" := item.valid.1
  simp only [Program.Raises, provePrefixLoop, Program.bind_returned renewal, mine]
  rcases IdempotencyStore.reserve_unprovable missing keyed policy.positive.1 (drawn env w.draws) with
    ⟨granted, beyond, error, t, answer⟩ | ⟨granted, within, t, answer⟩ | ⟨refused, decision, t, answer, other, idle⟩
  · have reserved := reserveItem_answered (w := { w with batches, reads := w.reads + 1 }) policy named printed answer
    rw [Program.bind_raised reserved]
    simp [unprovable, granted, beyond]
  · have reserved := reserveItem_answered (w := { w with batches, reads := w.reads + 1 }) policy named printed answer
    rw [Program.bind_returned reserved, if_neg (by simp)]
    obtain ⟨released, rest, abandoned⟩ := IdempotencyStore.abandon_ok t (drawn env w.draws) (env.clock (w.reads + 2))
    have releasing : (onItems (·.abandon (drawn env w.draws) (env.clock (w.reads + 2)))).Returns
        ⟨batches, t, w.effects, w.reads + 3, w.draws + 1, w.calls⟩ released
        ⟨batches, rest, w.effects, w.reads + 3, w.draws + 1, w.calls⟩ :=
      onItems_returns.mpr ⟨rest, abandoned, rfl⟩
    have marked := marking_raises env policy (α := MutationBatchLease R × List (BatchItemReceipt R))
      (w := ⟨batches, rest, w.effects, w.reads + 3, w.draws + 1, w.calls⟩) holds item.itemId
    simp only [granted, if_true, within, imp_self, true_and, forall_eq, ← marked]
    rw [Program.bind_returned (now_returns.mpr ⟨rfl, rfl⟩), Program.bind_returned releasing]
    rfl
  · have reserved := reserveItem_answered (w := { w with batches, reads := w.reads + 1 }) policy named printed answer
    rw [Program.bind_returned reserved, if_neg other]
    have marked := marking_raises env policy (α := MutationBatchLease R × List (BatchItemReceipt R))
      (w := ⟨batches, t, w.effects, w.reads + 2, w.draws + 1, w.calls⟩) holds item.itemId
    simp only [refused, Bool.false_eq_true, if_false, false_implies, true_and, forall_eq, ← marked]
    cases decision with
    | execute token => exact absurd rfl (idle token)
    | replay value => rfl
    | conflict reason => rfl
    | inProgress retryAfter => rfl
    | uncertain reason => rfl

/-- The loop fails as unprovable exactly when its prefix comes to a receipt without proof. -/
theorem provePrefixLoop_raises (named : identity.ns ≠ "" ∧ identity.batchId ≠ "") {items : List (BatchItem P)}
    {receipts : List (BatchItemReceipt R)} {lease : MutationBatchLease R} {proven : List (BatchItemReceipt R)}
    {current : StoredBatch R} (holds : w.batches.Holds lease current) (mine : lease.identity = identity) :
    (∃ id v, (provePrefixLoop env policy items receipts lease proven).Raises w (unprovable id) v) ↔
      Unproven env (itemKey identity named) policy items receipts lease.expiresAt w.reads w.items := by
  induction items, receipts, lease, proven using provePrefixLoop.induct generalizing w current with
  | case1 lease proven => simp [provePrefixLoop, Unproven]
  | case3 receipt receipts lease proven => simp [provePrefixLoop, Unproven, unprovable]
  | case4 item items lease proven => simp [provePrefixLoop, Unproven, unprovable]
  | case2 item items stored receipts lease proven ih =>
    unfold Unproven
    by_cases renewable : env.clock w.reads < lease.expiresAt ∧ Fits (env.clock w.reads) policy.executionLeaseTtl
    · obtain ⟨early, fits⟩ := renewable
      obtain ⟨renewed, batches, after, renewal, sameIdentity, expiry, holdsAgain⟩ :=
        renewBatch_holds (some item.itemId) holds early fits
      have mineAgain := sameIdentity.trans mine
      simp only [early, fits, true_and]
      cases printed : env.itemFingerprint item.payload with
      | error error =>
        simp only [Program.Raises, provePrefixLoop, Program.bind_returned renewal]
        rw [mineAgain, Program.bind_raised (reserveItem_unprinted named printed)]
        simp [unprovable]
      | ok fingerprint =>
        simp only [Except.ok.injEq, exists_eq_left', ← expiry]
        by_cases provable : w.items.Provable (itemKey identity named item.itemId) fingerprint stored (env.clock (w.reads + 1))
        · have replay := IdempotencyStore.reserve_provable provable item.valid.1 policy.positive.1 (drawn env w.draws)
          have reserved := reserveItem_answered (w := { w with batches, reads := w.reads + 1 }) policy named printed replay
          simp only [provable, true_and, not_true_eq_false, false_and, or_false]
          rw [← ih renewed holdsAgain mineAgain (w := ⟨batches, _, _, _, _, _⟩)]
          simp only [Program.Raises, provePrefixLoop, Program.bind_returned renewal]
          rw [mineAgain, Program.bind_returned reserved, if_pos rfl]
        · simp only [provable, false_and, not_false_eq_true, true_and, false_or]
          exact provePrefixLoop_unprovable named printed renewal mineAgain holdsAgain provable
    · obtain ⟨failure, v, raised, other⟩ := renewBatch_fails (some item.itemId) holds renewable
      have never : ¬∃ id v, (provePrefixLoop env policy (item :: items) (stored :: receipts) lease proven).Raises w
          (unprovable id) v := by
        intro event
        obtain ⟨id, u, event⟩ := event
        simp only [Program.Raises, provePrefixLoop, Program.bind_raised raised, Prod.mk.injEq, Except.error.injEq] at event
        exact other id event.1
      simp only [never, false_iff]
      intro fact
      exact renewable ⟨fact.1, fact.2.1⟩

end Coordinator

end Pytitect
