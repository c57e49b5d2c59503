import Pytitect.Batches.Workers

namespace Pytitect

structure Worker (P R : Type) where
  policy : IdempotencyPolicy
  phase : Phase P R

/-- Any number of workers at work on one batch, each inside at most one call. -/
structure System (P R : Type) where
  world : World P R
  workers : Nat → Option (Worker P R)

namespace Coordinator
variable {P R : Type} {w u : World P R}

/-- An idle worker calls `execute`, a worker in a call takes its next turn, or
a worker is gone: its call is over, or it crashed between two of its turns. -/
inductive Step [DecidableEq R] (env : Environment P R) (identity : BatchIdentity) (items : List (BatchItem P)) :
    System P R → System P R → Prop
  | call {s} (i : Nat) (policy : IdempotencyPolicy) : s.workers i = none →
      Step env identity items s { s with workers := Function.update s.workers i (some ⟨policy, .called⟩) }
  | turn {s} (i : Nat) {worker} : s.workers i = some worker →
      Step env identity items s
        ⟨(turn env identity items worker.policy worker.phase s.world).2,
          Function.update s.workers i
            (some ⟨worker.policy, (turn env identity items worker.policy worker.phase s.world).1⟩)⟩
  | gone {s} (i : Nat) : Step env identity items s { s with workers := Function.update s.workers i none }

/-- How often a mutation of the item has been committed. -/
def commits (w : World P R) (itemId : String) : Nat := (w.effects.filter (·.item.itemId = itemId)).length

/-- The receipt of an item whose mutation has been committed with that result. -/
def Backed (w : World P R) (receipt : BatchItemReceipt R) : Prop :=
  receipt.replayed = false ∧ ∃ effect ∈ w.effects, effect.item.itemId = receipt.itemId ∧ effect.outcome = .ok receipt.result

/-- The receipts are those of a prefix of the submitted items, in their order. -/
def PrefixReceipts (w : World P R) (items : List (BatchItem P)) (receipts : List (BatchItemReceipt R)) : Prop :=
  receipts.map BatchItemReceipt.itemId = (items.take receipts.length).map BatchItem.itemId ∧
    ∀ receipt ∈ receipts, Backed w receipt

/-- The entry of the item, if there is one, is the same reservation afterwards. -/
def Retained (identity : BatchIdentity) (itemId : String) (w u : World P R) : Prop :=
  ∀ scope entry, itemScope identity itemId = .ok scope → w.items.entries.get? ⟨scope, itemId⟩ = some entry →
    ∃ kept, u.items.entries.get? ⟨scope, itemId⟩ = some kept ∧ kept.token = entry.token

/-- Neither the batch nor one of its items has been recorded yet. -/
def Unrecorded (identity : BatchIdentity) (items : List (BatchItem P)) (w : World P R) : Prop :=
  w.batches.entries.get? identity = none ∧ ∀ item ∈ items, ∀ scope, itemScope identity item.itemId = .ok scope →
    w.items.entries.get? ⟨scope, item.itemId⟩ = none

/-- What holds of the stores between any two turns. -/
structure Sound (env : Environment P R) (identity : BatchIdentity) (items : List (BatchItem P)) (w : World P R) :
    Prop where
  batch : ∀ stored, w.batches.entries.get? identity = some stored →
    stored.nextIndex = stored.receipts.length ∧ PrefixReceipts w items stored.receipts
  entry : ∀ item ∈ items, ∀ scope entry, itemScope identity item.itemId = .ok scope →
    w.items.entries.get? ⟨scope, item.itemId⟩ = some entry →
    (∃ n < w.draws, entry.token = drawn env n) ∧
      ∃ receipt, entry.state = .completed receipt ∧ receipt.itemId = item.itemId ∧ Backed w receipt

/-- What a worker holds between two of its turns. -/
def Phase.Sound (identity : BatchIdentity) (items : List (BatchItem P)) : Phase P R → Prop
  | .proving lease => lease.identity = identity
  | .applying rest lease _ => lease.identity = identity ∧ rest = items.drop lease.nextIndex
  | _ => True

/-- What one turn adds to the committed effects: nothing, or one mutation of an
item whose new entry is kept under a token not drawn before. -/
def Adds (env : Environment P R) (identity : BatchIdentity) (items : List (BatchItem P)) (w u : World P R) : Prop :=
  u.effects = w.effects ∨ ∃ item ∈ items, ∃ result scope entry n,
    u.effects = w.effects ++ [⟨item, .ok result⟩] ∧ itemScope identity item.itemId = .ok scope ∧
      u.items.entries.get? ⟨scope, item.itemId⟩ = some entry ∧ entry.token = drawn env n ∧ w.draws ≤ n

theorem Backed.mono {receipt : BatchItemReceipt R} (backed : Backed w receipt)
    (more : ∀ effect ∈ w.effects, effect ∈ u.effects) : Backed u receipt := by
  obtain ⟨original, effect, member, same, outcome⟩ := backed
  exact ⟨original, effect, more effect member, same, outcome⟩

theorem PrefixReceipts.mono {items : List (BatchItem P)} {receipts : List (BatchItemReceipt R)}
    (proper : PrefixReceipts w items receipts) (more : ∀ effect ∈ w.effects, effect ∈ u.effects) :
    PrefixReceipts u items receipts :=
  ⟨proper.1, fun receipt member => (proper.2 receipt member).mono more⟩

theorem PrefixReceipts.snoc {items rest : List (BatchItem P)} {item : BatchItem P}
    {receipts : List (BatchItemReceipt R)} {receipt : BatchItemReceipt R}
    (proper : PrefixReceipts w items receipts) (next : items.drop receipts.length = item :: rest)
    (same : receipt.itemId = item.itemId) (backed : Backed w receipt) :
    PrefixReceipts w items (receipts ++ [receipt]) := by
  constructor
  · have extended : items.take (receipts.length + 1) = items.take receipts.length ++ [item] := by
      rw [List.take_add, next]
      simp
    simp [extended, proper.1, same]
  · intro other member
    rcases List.mem_append.mp member with old | new
    · exact proper.2 other old
    · exact List.mem_singleton.mp new ▸ backed

variable {env : Environment P R} {identity : BatchIdentity} {items : List (BatchItem P)}

theorem Sound.quiet (sound : Sound env identity items w) (quiet : Quiet env w u) : Sound env identity items u where
  batch stored found := by
    have more : ∀ effect ∈ w.effects, effect ∈ u.effects := fun effect member => quiet.effects ▸ member
    rcases quiet.progress identity with same | ⟨before, expiresAt, foundBefore, moved⟩
    · obtain ⟨agree, proper⟩ := sound.batch stored (same ▸ found)
      exact ⟨agree, proper.mono more⟩
    · cases Option.some.inj (moved.symm.trans found)
      obtain ⟨agree, proper⟩ := sound.batch before foundBefore
      exact ⟨agree, proper.mono more⟩
  entry item member scope entry inScope found := by
    obtain ⟨⟨n, drawnBefore, token⟩, receipt, state, same, backed⟩ :=
      sound.entry item member scope entry inScope ((quiet.aged _).kept found)
    have draws := quiet.draws
    exact ⟨⟨n, by omega, token⟩, receipt, state, same, backed.mono fun effect present => quiet.effects ▸ present⟩

/-- A rolled back transaction leaves only the counters of the outside world behind. -/
theorem rollback_quiet (reads : w.reads ≤ u.reads) (draws : w.draws ≤ u.draws) : Quiet env w (rollback w u) :=
  ⟨rfl, reads, draws, fun _ => Or.inl rfl, fun _ => Or.inl rfl⟩

variable (env identity items) in
/-- A transaction either commits what its body returned, or is undone and ends the call. -/
theorem settled_atomic {α : Type} {body : Program (World P R) BatchFailure α} (forward : Forward body)
    (next : α → Phase P R) (w : World P R) :
    (∃ value v, body.Returns w value v ∧
      (settled (atomic body) w).map (Phase.after next) id = (next value, v)) ∨
    ∃ phase v, Phase.Sound identity items phase ∧ Quiet env w v ∧
      (settled (atomic body) w).map (Phase.after next) id = (phase, v) := by
  have later := forward w
  rcases run : body w with ⟨result, v⟩
  rw [run] at later
  cases result with
  | ok value =>
    refine Or.inl ⟨value, v, run, ?_⟩
    simp [settled, atomic, Program.atomic, Program.recover, Bind.bind, Pure.pure, run, Phase.after]
  | error failure =>
    have calm : Quiet env w (rollback w v) := rollback_quiet later.1 later.2
    cases failure with
    | rollback refusal =>
      refine Or.inr ⟨.returned (.refused refusal), rollback w v, trivial, calm, ?_⟩
      simp [settled, atomic, Program.atomic, Program.recover, Bind.bind, run, Phase.after]
    | raised error =>
      refine Or.inr ⟨.raised error, rollback w v, trivial, calm, ?_⟩
      simp [settled, atomic, Program.atomic, Program.recover, Bind.bind, run, Phase.after]

variable [DecidableEq R]

/-- An item applied in its own transaction: after the renewal and the clean-up
(`v`) its receipt is either the retained one, or that of a mutation which is
committed together with the completed entry under a newly drawn token. -/
theorem applyItem_returns {lease progressed : MutationBatchLease R} {item : BatchItem P}
    {policy : IdempotencyPolicy} {receipt : BatchItemReceipt R}
    (run : (applyItem env identity lease item policy).Returns w (progressed, receipt) u) :
    ∃ v scope current expiresAt value, Quiet env w v ∧ itemScope identity item.itemId = .ok scope ∧
      v.batches.entries.get? lease.identity = some current ∧ current.nextIndex = lease.nextIndex ∧
      progressed.identity = lease.identity ∧ progressed.nextIndex = lease.nextIndex + 1 ∧
      value.itemId = item.itemId ∧ value.replayed = false ∧ u.draws = v.draws + 1 ∧
      (∀ identity, u.batches.entries.get? identity = if identity = lease.identity
        then some { current with
          receipts := current.receipts ++ [value], nextIndex := current.nextIndex + 1
          state := .partiallyCommitted, leaseExpiresAt := expiresAt }
        else v.batches.entries.get? identity) ∧
      ((u.effects = v.effects ∧ (∀ key, u.items.entries.get? key = v.items.entries.get? key) ∧
          ∃ entry kept, v.items.entries.get? ⟨scope, item.itemId⟩ = some entry ∧ entry.state = .completed kept ∧
            value = { kept with replayed := false }) ∨
        (u.effects = v.effects ++ [⟨item, .ok value.result⟩] ∧
          ∃ entry, entry.token = drawn env v.draws ∧ entry.state = .completed value ∧
            ∀ key, u.items.entries.get? key = if key = ⟨scope, item.itemId⟩ then some entry
              else v.items.entries.get? key)) := by
  simp only [applyItem, Program.returns_bind] at run
  obtain ⟨renewed, r, renewal, grant, g, granting, applying⟩ := run
  obtain ⟨calm, sameIdentity, sameIndex, -⟩ := renewBatch_quiet renewal
  obtain ⟨scope, fingerprint, store, inScope, -, rfl, decided⟩ := grantItem_returns granting
  obtain ⟨current, t, batches, held, settling, -, lastIdentity, lastIndex, -, sameItems, sameEffects, sameDraws, -, -, -,
    -, expiresAt, advanced⟩ := applyReservedItem_returns applying
  obtain ⟨-, found, -, -, -, -, heldIndex, -⟩ := MutationBatchStore.active_some.mp held
  have purge : Quiet env r { r with items := r.items.purgeExpired (env.clock r.reads), reads := r.reads + 1 } :=
    quiet_purge rfl rfl rfl (Nat.le_refl _) fun _ => rfl
  refine ⟨_, scope, current, expiresAt, { receipt with replayed := false }, calm.trans purge, inScope,
    sameIdentity ▸ found, heldIndex.trans sameIndex, lastIdentity.trans sameIdentity, lastIndex.trans (by rw [sameIndex]),
    ?_⟩
  rw [sameIdentity] at advanced
  rcases settleItem_returns settling with ⟨kept, rfl, sameItem, rfl, rfl⟩ |
    ⟨token, owner, entry, result, entries, rfl, heldToken, rfl, completed, rfl⟩
  · rcases decided with ⟨entry, value, present, state, -, granted, -, purged⟩ | ⟨_, _, granted, _⟩
    · cases granted
      refine ⟨sameItem, rfl, sameDraws, advanced, Or.inl ⟨sameEffects, ?_, entry, kept, present, state, rfl⟩⟩
      intro key
      rw [sameItems]
      exact purged key
    · cases granted
  · rcases decided with ⟨_, _, _, _, _, granted, _⟩ | ⟨_, -, granted, indexed, stored⟩
    · cases granted
    · cases granted
      obtain ⟨index, -⟩ := IdempotencyStore.executing_some.mp heldToken
      dsimp only at index indexed
      rw [indexed, Dict.get?_set_self] at index
      cases Option.some.inj index
      refine ⟨rfl, rfl, sameDraws, advanced, Or.inr ⟨sameEffects,
        ⟨drawn env r.draws, entry.fingerprint, env.clock (r.reads + 1 + 1 + 1) + policy.resultRetentionTtl,
          .completed ⟨item.itemId, result, false⟩⟩, rfl, rfl, ?_⟩⟩
      intro key
      rw [sameItems]
      refine (completed key).trans ?_
      by_cases own : key = ⟨scope, item.itemId⟩
      · rw [if_pos own, if_pos own]
      · rw [if_neg own, if_neg own]
        exact (stored key).trans (if_neg own)

theorem applyItem_sound {lease progressed : MutationBatchLease R} {item : BatchItem P} {rest : List (BatchItem P)}
    {policy : IdempotencyPolicy} {receipt : BatchItemReceipt R} (sound : Sound env identity items w)
    (mine : lease.identity = identity) (next : items.drop lease.nextIndex = item :: rest)
    (run : (applyItem env identity lease item policy).Returns w (progressed, receipt) u) :
    Sound env identity items u ∧ Adds env identity items w u ∧ progressed.identity = identity ∧
      progressed.nextIndex = lease.nextIndex + 1 := by
  have submitted : item ∈ items := List.mem_of_mem_drop (next ▸ List.mem_cons_self)
  obtain ⟨v, scope, current, expiresAt, value, calm, inScope, found, heldIndex, lastIdentity, lastIndex, sameItem,
    original, draws, advanced, outcome⟩ := applyItem_returns run
  subst mine
  have soundBefore := sound.quiet calm
  obtain ⟨agree, proper⟩ := soundBefore.batch current found
  have position : items.drop current.receipts.length = item :: rest := by
    rw [← agree, heldIndex]
    exact next
  rcases outcome with ⟨sameEffects, sameEntries, entry, kept, present, state, rfl⟩ |
    ⟨newEffect, entry, token, state, newEntries⟩
  · have more : ∀ effect ∈ v.effects, effect ∈ u.effects := fun effect member => sameEffects ▸ member
    refine ⟨⟨?_, ?_⟩, Or.inl (sameEffects.trans calm.effects), lastIdentity, lastIndex⟩
    · intro stored now
      rw [advanced, if_pos rfl] at now
      cases now
      obtain ⟨-, receipt, stateAgain, -, backed⟩ := soundBefore.entry item submitted scope entry inScope present
      cases state.symm.trans stateAgain
      refine ⟨by simp [agree], (proper.mono more).snoc position sameItem ?_⟩
      exact ⟨rfl, (backed.mono more).2⟩
    · intro other member otherScope otherEntry otherInScope otherFound
      rw [sameEntries] at otherFound
      obtain ⟨⟨n, earlier, token⟩, receipt, completed, same, backed⟩ :=
        soundBefore.entry other member otherScope otherEntry otherInScope otherFound
      exact ⟨⟨n, by omega, token⟩, receipt, completed, same, backed.mono more⟩
  · have more : ∀ effect ∈ v.effects, effect ∈ u.effects := fun effect member => by simp [newEffect, member]
    have backed : Backed u value := ⟨original, ⟨item, .ok value.result⟩, by simp [newEffect], sameItem.symm, rfl⟩
    refine ⟨⟨?_, ?_⟩, Or.inr ⟨item, submitted, value.result, scope, entry, v.draws, ?_⟩, lastIdentity, lastIndex⟩
    · intro stored now
      rw [advanced, if_pos rfl] at now
      cases now
      exact ⟨by simp [agree], (proper.mono more).snoc position sameItem backed⟩
    · intro other member otherScope otherEntry otherInScope otherFound
      rw [newEntries] at otherFound
      split at otherFound
      · rename_i own
        cases otherFound
        have same : other.itemId = item.itemId := congrArg IdempotencyIdentity.key own
        exact ⟨⟨v.draws, by omega, token⟩, value, state, sameItem.trans same.symm, backed⟩
      · obtain ⟨⟨n, earlier, token⟩, receipt, completed, same, backed⟩ :=
          soundBefore.entry other member otherScope otherEntry otherInScope otherFound
        exact ⟨⟨n, by omega, token⟩, receipt, completed, same, backed.mono more⟩
    · refine ⟨by rw [newEffect, calm.effects], inScope, ?_, token, calm.draws⟩
      rw [newEntries, if_pos rfl]

omit [DecidableEq R] in
variable (env identity items) in
/-- `begin` runs outside any transaction, so what it wrote before an error stays. -/
theorem settled_begin (fingerprint : RequestFingerprint) (totalItems : Nat)
    (policy : IdempotencyPolicy) (w : World P R) :
    ∃ phase : Phase P R,
      (settled (begin env identity fingerprint totalItems policy) w).map (Phase.after Phase.begun) id =
        (phase, { w with
          batches := (w.batches.begin identity fingerprint totalItems (env.clock w.reads) policy.executionLeaseTtl
            (env.uuid w.draws)).2
          reads := w.reads + 1
          draws := w.draws + 1 }) ∧ Phase.Sound identity items phase := by
  rcases run : w.batches.begin identity fingerprint totalItems (env.clock w.reads) policy.executionLeaseTtl
    (env.uuid w.draws) with ⟨result, batches⟩
  cases result with
  | error error =>
    refine ⟨.raised error, ?_, trivial⟩
    simp [settled, Program.recover, begin, now, uuid, onBatches, Program.zoom, Bind.bind, run, Phase.after]
  | ok decision =>
    refine ⟨Phase.begun decision, ?_, ?_⟩
    · simp [settled, Program.recover, begin, now, uuid, onBatches, Program.zoom, Bind.bind, Pure.pure, run, Phase.after]
    · cases decision with
      | replay receipts => exact trivial
      | refused refusal => exact trivial
      | lease lease => exact (MutationBatchStore.begin_lease (congrArg Prod.fst run)).1

/-- What a turn owes: sound stores, a sound call and no effect but its own. -/
def SoundTurn (env : Environment P R) (identity : BatchIdentity) (items : List (BatchItem P)) (w : World P R)
    (result : Phase P R × World P R) : Prop :=
  Sound env identity items result.2 ∧ Phase.Sound identity items result.1 ∧ Adds env identity items w result.2

omit [DecidableEq R] in
theorem Sound.quietTurn (sound : Sound env identity items w) (calm : Quiet env w u) {phase : Phase P R}
    (held : Phase.Sound identity items phase) : SoundTurn env identity items w (phase, u) :=
  ⟨sound.quiet calm, held, Or.inl calm.effects⟩

omit [DecidableEq R] in
/-- A transaction that fails leaves sound stores behind, so only its success is left to examine. -/
theorem Sound.atomic {α : Type} {body : Program (World P R) BatchFailure α} (sound : Sound env identity items w)
    (forward : Forward body) (next : α → Phase P R)
    (succeeds : ∀ value v, body.Returns w value v → SoundTurn env identity items w (next value, v)) :
    SoundTurn env identity items w ((settled (Coordinator.atomic body) w).map (Phase.after next) id) := by
  rcases settled_atomic env identity items forward next w with ⟨value, v, run, same⟩ | ⟨phase, v, ended, calm, same⟩
  · rw [same]
    exact succeeds value v run
  · rw [same]
    exact sound.quietTurn calm ended

theorem called_sound (policy : IdempotencyPolicy) (sound : Sound env identity items w) :
    SoundTurn env identity items w (turn env identity items policy .called w) := by
  simp only [turn]
  split
  · exact ⟨sound, trivial, Or.inl rfl⟩
  cases validateItems env items with
  | error error => exact ⟨sound, trivial, Or.inl rfl⟩
  | ok valid =>
    cases env.batchFingerprint .perItem items with
    | error error => exact ⟨sound, trivial, Or.inl rfl⟩
    | ok fingerprint =>
      obtain ⟨phase, run, begun⟩ := settled_begin env identity items fingerprint items.length policy w
      dsimp only
      rw [run]
      refine ⟨⟨?_, ?_⟩, begun, Or.inl rfl⟩
      · intro stored found
        rcases MutationBatchStore.begin_progress found with ⟨before, present, receipts, index⟩ | ⟨receipts, index⟩
        · rw [receipts, index]
          exact sound.batch before present
        · simp [receipts, index, PrefixReceipts]
      · intro item member scope entry inScope found
        obtain ⟨⟨n, earlier, token⟩, receipt, state, same, backed⟩ := sound.entry item member scope entry inScope found
        exact ⟨⟨n, Nat.lt_succ_of_lt earlier, token⟩, receipt, state, same, backed⟩

theorem proving_sound (policy : IdempotencyPolicy) {lease : MutationBatchLease R} (sound : Sound env identity items w)
    (held : Phase.Sound identity items (.proving lease)) :
    SoundTurn env identity items w (turn env identity items policy (.proving lease) w) := by
  have forward : Forward (provePrefix env lease items policy) := by
    unfold provePrefix
    split
    · exact .pure _
    · exact .provePrefixLoop _ _ _ _ _
  refine sound.atomic forward (fun proven => .applying (items.drop proven.1.nextIndex) proven.1 proven.2)
    fun proven v run => ?_
  unfold provePrefix at run
  split at run
  · simp only [Program.returns_pure] at run
    obtain ⟨rfl, rfl⟩ := run
    exact ⟨sound, ⟨held, rfl⟩, Or.inl rfl⟩
  · obtain ⟨calm, sameIdentity, -⟩ := provePrefixLoop_returns run
    exact sound.quietTurn calm ⟨sameIdentity.trans held, rfl⟩

theorem finishing_sound (policy : IdempotencyPolicy) {lease : MutationBatchLease R} {receipts : List (BatchItemReceipt R)}
    (sound : Sound env identity items w) (mine : lease.identity = identity) :
    SoundTurn env identity items w (turn env identity items policy (.applying [] lease receipts) w) := by
  refine sound.atomic (.finish lease policy) (fun completed => .returned (if completed then .committed receipts
    else .itemsCommittedEnvelopeUnconfirmed receipts)) fun completed v run => ?_
  rcases finish_returns run with ⟨-, calm⟩ | ⟨-, current, expiresAt, retainedUntil, active, -, sameItems,
    sameEffects, sameDraws, completedBatch⟩
  · exact sound.quietTurn calm trivial
  · obtain ⟨-, found, -⟩ := MutationBatchStore.active_some.mp active
    have more : ∀ effect ∈ w.effects, effect ∈ v.effects := fun effect member => sameEffects ▸ member
    refine ⟨⟨?_, ?_⟩, trivial, Or.inl sameEffects⟩
    · intro stored present
      rw [completedBatch, if_pos mine.symm] at present
      cases present
      obtain ⟨agree, proper⟩ := sound.batch current (mine ▸ found)
      exact ⟨agree, proper.mono more⟩
    · intro item member scope entry inScope present
      rw [sameItems] at present
      obtain ⟨drawnBefore, receipt, state, sameItem, backed⟩ := sound.entry item member scope entry inScope present
      exact ⟨sameDraws ▸ drawnBefore, receipt, state, sameItem, backed.mono more⟩

theorem applying_sound (policy : IdempotencyPolicy) {item : BatchItem P} {rest : List (BatchItem P)}
    {lease : MutationBatchLease R} {receipts : List (BatchItemReceipt R)} (sound : Sound env identity items w)
    (held : Phase.Sound identity items (.applying (item :: rest) lease receipts)) :
    SoundTurn env identity items w (turn env identity items policy (.applying (item :: rest) lease receipts) w) := by
  obtain ⟨mine, position⟩ := held
  refine sound.atomic (.applyItem identity lease item policy)
    (fun applied => .applying rest applied.1 (receipts ++ [applied.2])) fun applied v run => ?_
  obtain ⟨soundAfter, adds, sameIdentity, nextIndex⟩ := applyItem_sound sound mine position.symm run
  refine ⟨soundAfter, ⟨sameIdentity, ?_⟩, adds⟩
  rw [nextIndex, ← List.drop_drop, ← position]
  simp

/-- Every turn of every call keeps the stores and the call sound. -/
theorem turn_sound (policy : IdempotencyPolicy) {phase : Phase P R} (sound : Sound env identity items w)
    (held : Phase.Sound identity items phase) :
    Sound env identity items (turn env identity items policy phase w).2 ∧
      Phase.Sound identity items (turn env identity items policy phase w).1 ∧
      Adds env identity items w (turn env identity items policy phase w).2 := by
  cases phase with
  | called => exact called_sound policy sound
  | proving lease => exact proving_sound policy sound held
  | applying rest lease receipts =>
    cases rest with
    | nil => exact finishing_sound policy sound held.1
    | cons item rest => exact applying_sound policy sound held
  | returned result => exact ⟨sound, trivial, Or.inl rfl⟩
  | raised error => exact ⟨sound, trivial, Or.inl rfl⟩

/-- The stores are sound and so is every call in progress. -/
def SystemSound (env : Environment P R) (identity : BatchIdentity) (items : List (BatchItem P)) (s : System P R) :
    Prop :=
  Sound env identity items s.world ∧
    ∀ i worker, s.workers i = some worker → Phase.Sound identity items worker.phase

theorem Step.sound {s t : System P R} (step : Step env identity items s t) (sound : SystemSound env identity items s) :
    SystemSound env identity items t ∧ Adds env identity items s.world t.world := by
  obtain ⟨stores, calls⟩ := sound
  have others : ∀ i (phase : Option (Worker P R)), (∀ worker, phase = some worker → Phase.Sound identity items worker.phase) →
      ∀ j worker, Function.update s.workers i phase j = some worker → Phase.Sound identity items worker.phase := by
    intro i phase mine j worker found
    by_cases same : j = i
    · subst same
      exact mine worker (by simpa using found)
    · exact calls j worker (by simpa [Function.update_of_ne same] using found)
  cases step with
  | call i policy idle => exact ⟨⟨stores, others i _ (by rintro _ ⟨⟩; trivial)⟩, Or.inl rfl⟩
  | @turn i worker busy =>
    obtain ⟨storesAfter, callAfter, adds⟩ := turn_sound worker.policy stores (calls i worker busy)
    exact ⟨⟨storesAfter, others i _ (by rintro _ ⟨⟩; exact callAfter)⟩, adds⟩
  | gone i => exact ⟨⟨stores, others i _ (by simp)⟩, Or.inl rfl⟩

omit [DecidableEq R] in
theorem Sound.start (unrecorded : Unrecorded identity items w) :
    SystemSound env identity items ⟨w, fun _ => none⟩ := by
  refine ⟨⟨?_, ?_⟩, by simp⟩
  · intro stored found
    simp [unrecorded.1] at found
  · intro item member scope entry inScope found
    simp [unrecorded.2 item member scope inScope] at found

theorem run_sound {s t : System P R} (run : Relation.ReflTransGen (Step env identity items) s t)
    (sound : SystemSound env identity items s) : SystemSound env identity items t := by
  induction run with
  | refl => exact sound
  | tail _ step ih => exact (step.sound ih).1

omit [DecidableEq R] in
theorem drawn_injective (fresh : Function.Injective env.uuid) {n m : Nat} (same : drawn env n = drawn env m) : n = m := by
  refine fresh ?_
  have sameHex : (env.uuid n).hex = (env.uuid m).hex := congrArg ReservationToken.value same
  rcases first : env.uuid n with ⟨hex, nonempty⟩
  rcases second : env.uuid m with ⟨hex', nonempty'⟩
  rw [first, second] at sameHex
  cases sameHex
  rfl

omit [DecidableEq R] in
/-- A turn that retains the entry of an item commits no mutation of that item. -/
theorem commits_of_retained (fresh : Function.Injective env.uuid) (sound : Sound env identity items w)
    (adds : Adds env identity items w u) {item : BatchItem P} (member : item ∈ items)
    (retained : Retained identity item.itemId w u) {scope : IdempotencyScope} {entry : Entry (BatchItemReceipt R)}
    (inScope : itemScope identity item.itemId = .ok scope)
    (found : w.items.entries.get? ⟨scope, item.itemId⟩ = some entry) :
    commits u item.itemId = commits w item.itemId := by
  unfold commits
  rcases adds with same | ⟨other, _, result, otherScope, new, n, grown, otherInScope, foundNew, token, later⟩
  · rw [same]
  · by_cases mine : other.itemId = item.itemId
    · rw [mine] at otherInScope foundNew
      cases inScope.symm.trans otherInScope
      obtain ⟨kept, foundKept, sameToken⟩ := retained scope entry inScope found
      cases foundNew.symm.trans foundKept
      obtain ⟨⟨m, earlier, drawnEarlier⟩, -⟩ := sound.entry item member scope entry inScope found
      have again := drawn_injective fresh (token.symm.trans (sameToken.trans drawnEarlier))
      omega
    · simp [grown, mine]

omit [DecidableEq R] in
/-- A turn commits at most one mutation of an item, and then its entry is there. -/
theorem commits_le (adds : Adds env identity items w u) (itemId : String) :
    commits u itemId = commits w itemId ∨ commits u itemId = commits w itemId + 1 ∧
      ∃ scope entry, itemScope identity itemId = .ok scope ∧ u.items.entries.get? ⟨scope, itemId⟩ = some entry := by
  unfold commits
  rcases adds with same | ⟨other, _, result, scope, entry, n, grown, inScope, found, -⟩
  · rw [same]
    exact Or.inl rfl
  · by_cases mine : other.itemId = itemId
    · refine Or.inr ⟨by simp [grown, mine], scope, entry, mine ▸ inScope, mine ▸ found⟩
    · simp [grown, mine]

/-- The steps of a run during which the entry of an item, once there, stays there. -/
def RetainingStep (env : Environment P R) (identity : BatchIdentity) (items : List (BatchItem P)) (itemId : String)
    (s t : System P R) : Prop :=
  Step env identity items s t ∧ Retained identity itemId s.world t.world

theorem commits_while_retained (fresh : Function.Injective env.uuid) {s t : System P R}
    (sound : SystemSound env identity items s) {item : BatchItem P} (member : item ∈ items)
    (run : Relation.ReflTransGen (RetainingStep env identity items item.itemId) s t) {scope : IdempotencyScope}
    {entry : Entry (BatchItemReceipt R)} (inScope : itemScope identity item.itemId = .ok scope)
    (found : s.world.items.entries.get? ⟨scope, item.itemId⟩ = some entry) :
    commits t.world item.itemId = commits s.world item.itemId := by
  have carried : SystemSound env identity items t ∧ commits t.world item.itemId = commits s.world item.itemId ∧
      ∃ kept, t.world.items.entries.get? ⟨scope, item.itemId⟩ = some kept := by
    induction run with
    | refl => exact ⟨sound, rfl, entry, found⟩
    | tail _ step ih =>
      obtain ⟨soundBefore, same, kept, foundKept⟩ := ih
      obtain ⟨soundAfter, adds⟩ := step.1.sound soundBefore
      obtain ⟨still, foundStill, -⟩ := step.2 scope kept inScope foundKept
      refine ⟨soundAfter, ?_, still, foundStill⟩
      exact (commits_of_retained fresh soundBefore.1 adds member step.2 inScope foundKept).trans same
  exact carried.2.1

end Coordinator

end Pytitect
