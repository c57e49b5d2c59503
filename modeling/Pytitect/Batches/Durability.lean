import Pytitect.Batches.Uncertainty

namespace Pytitect

namespace MutationBatchStore
variable {R : Type} [DecidableEq R]

/-- One call of the store, with everything the caller passes. -/
inductive Call (R : Type)
  | begin (identity : BatchIdentity) (fingerprint : RequestFingerprint) (totalItems : Nat) (now leaseTtl : Int)
      (token : Uuid)
  | renew (lease : MutationBatchLease R) (now leaseTtl : Int)
  | advance (lease : MutationBatchLease R) (receipt : BatchItemReceipt R) (now leaseTtl : Int)
  | complete (lease : MutationBatchLease R) (now retentionTtl : Int)
  | markUncertain (lease : MutationBatchLease R) (reason : String) (now retentionTtl : Int)
  | purge (plan : PurgeIdempotencyPlan)

inductive Answer (R : Type)
  | begun (result : Except PyError (MutationBatchBeginResult R))
  | renewal (result : Except PyError (MutationBatchRenewResult R))
  | progress (result : Except PyError (MutationBatchAdvanceResult R))
  | completion (result : Except PyError MutationBatchCompleteResult)
  | marking (result : Except PyError MutationBatchUncertainResult)
  | summary (result : MaintenanceSummary)

def answer (s : MutationBatchStore R) : Call R → Answer R × MutationBatchStore R
  | .begin identity fingerprint totalItems now leaseTtl token =>
    (s.begin identity fingerprint totalItems now leaseTtl token).map .begun id
  | .renew lease now leaseTtl => (s.renew lease now leaseTtl).map .renewal id
  | .advance lease receipt now leaseTtl => (s.advance lease receipt now leaseTtl).map .progress id
  | .complete lease now retentionTtl => (s.complete lease now retentionTtl).map .completion id
  | .markUncertain lease reason now retentionTtl => (s.markUncertain lease reason now retentionTtl).map .marking id
  | .purge plan => (s.purge plan).map .summary id

/-- The lease a call presents as its authority. -/
def Call.presented : Call R → Option (MutationBatchLease R)
  | .renew lease _ _ => some lease
  | .advance lease _ _ _ => some lease
  | .complete lease _ _ => some lease
  | .markUncertain lease _ _ _ => some lease
  | .begin .. => none
  | .purge _ => none

/-- A call that presents a lease changes nothing, or the lease is current and
the call rewrites the batch it names. -/
theorem presented_cases (s : MutationBatchStore R) {call : Call R} {lease : MutationBatchLease R}
    (presents : call.presented = some lease) :
    (s.answer call).2 = s ∨ ∃ now current stored tokens, s.active lease now = some current ∧
      (s.answer call).2 = { s.write lease.identity stored with tokens } := by
  cases call with
  | begin => cases presents
  | purge => cases presents
  | renew given now leaseTtl =>
    cases presents
    simp only [answer, renew, Prod.map_snd, id_eq]
    split
    · exact Or.inl rfl
    split
    · exact Or.inl rfl
    · rename_i current held
      split
      · exact Or.inl rfl
      · exact Or.inr ⟨now, current, _, _, held, rfl⟩
  | advance given receipt now leaseTtl =>
    cases presents
    simp only [answer, advance, Prod.map_snd, id_eq]
    split
    · exact Or.inl rfl
    split
    · exact Or.inl rfl
    · rename_i current held
      split
      · exact Or.inl rfl
      split
      · exact Or.inr ⟨now, current, _, _, held, rfl⟩
      · exact Or.inr ⟨now, current, _, _, held, rfl⟩
  | complete given now retentionTtl =>
    cases presents
    simp only [answer, complete, Prod.map_snd, id_eq]
    split
    · exact Or.inl rfl
    split
    · exact Or.inl rfl
    · rename_i current held
      split
      · exact Or.inl rfl
      split
      · exact Or.inr ⟨now, current, _, _, held, rfl⟩
      · exact Or.inr ⟨now, current, _, _, held, rfl⟩
  | markUncertain given reason now retentionTtl =>
    cases presents
    simp only [answer, markUncertain, Prod.map_snd, id_eq]
    split
    · exact Or.inl rfl
    split
    · exact Or.inl rfl
    split
    · exact Or.inl rfl
    · rename_i current held
      split
      · exact Or.inr ⟨now, current, _, _, held, rfl⟩
      · exact Or.inr ⟨now, current, _, _, held, rfl⟩

/-- A purge that may drop uncertainty leaves this batch in place. -/
def Spares (identity : BatchIdentity) (s : MutationBatchStore R) : Call R → Prop
  | .purge plan => plan.includeUncertain = true → (s.purge plan).2.entries.get? identity ≠ none
  | _ => True

omit [DecidableEq R] in
theorem purge_get? (s : MutationBatchStore R) (plan : PurgeIdempotencyPlan) (identity : BatchIdentity) :
    (s.purge plan).2.entries.get? identity = s.entries.get? identity ∨
      ∃ stored, s.entries.get? identity = some stored ∧ stored.purgeable plan = true ∧
        (s.purge plan).2.entries.get? identity = none := by
  unfold purge
  dsimp only
  split
  · exact Or.inl rfl
  · rw [Dict.get?_popAll]
    split
    · rename_i member
      obtain ⟨⟨owner, stored⟩, chosen, same⟩ := List.mem_map.mp member
      change owner = identity at same
      subst owner
      obtain ⟨present, eligible⟩ := List.mem_filter.mp (List.mem_of_mem_firstBy chosen)
      exact Or.inr ⟨stored, Dict.mem_items.mp present, eligible, rfl⟩
    · exact Or.inl rfl

omit [DecidableEq R] in
/-- What `begin` does to a batch that is not the one begun, or that is terminal. -/
theorem begin_get? {s : MutationBatchStore R} {identity asked : BatchIdentity} {fingerprint : RequestFingerprint}
    {totalItems : Nat} {now leaseTtl : Int} {token : Uuid} {stored : StoredBatch R}
    (found : s.entries.get? identity = some stored) (terminal : stored.state.executing = false)
    (retained : stored.expired now = false) :
    (s.begin asked fingerprint totalItems now leaseTtl token).2.entries.get? identity = some stored := by
  have purged : (s.purgeTerminal now).entries.get? identity = some stored := by
    rw [purgeTerminal_get?, found]
    simp [Option.filter, retained]
  rcases s.begin_cases asked fingerprint totalItems now leaseTtl token with
    ⟨_, run⟩ | ⟨_, run⟩ | ⟨_, _, _, _, run⟩ | ⟨_, run⟩ | ⟨current, _, _, _, present, open_, _, _, run⟩ |
      ⟨_, _, absent, _, _, run⟩
  · rw [run]
    exact found
  · rw [run]
    exact purged
  · rw [run]
    simpa using purged
  · rw [run]
    exact purged
  · by_cases mine : identity = asked
    · subst asked
      cases purged.symm.trans present
      simp [(decide_none open_).2.2.1] at terminal
    · rw [run]
      simpa [Dict.get?_set_of_ne mine] using purged
  · by_cases mine : identity = asked
    · subst asked
      cases purged.symm.trans absent
    · rw [run]
      simpa [Dict.get?_set_of_ne mine] using purged

/-- An uncertain batch survives every call but a purge that asks for it. -/
theorem uncertain_kept {s : MutationBatchStore R} {call : Call R} {identity : BatchIdentity} {stored : StoredBatch R}
    (found : s.entries.get? identity = some stored) (uncertain : stored.state = .uncertain)
    (spared : Spares identity s call) : (s.answer call).2.entries.get? identity = some stored := by
  cases presents : call.presented with
  | some lease =>
    rcases s.presented_cases presents with same | ⟨now, current, rewritten, tokens, held, run⟩
    · rw [same]
      exact found
    · obtain ⟨-, present, -, executing, -⟩ := active_some.mp held
      have other : identity ≠ lease.identity := by
        intro mine
        cases found.symm.trans (mine ▸ present)
        simp [uncertain, MutationBatchState.executing] at executing
      rw [run]
      simpa [write, Dict.get?_set_of_ne other] using found
  | none =>
    cases call with
    | renew => cases presents
    | advance => cases presents
    | complete => cases presents
    | markUncertain => cases presents
    | begin asked fingerprint totalItems now leaseTtl token =>
      exact begin_get? found (by simp [uncertain, MutationBatchState.executing])
        (by simp [StoredBatch.expired, uncertain])
    | purge plan =>
      rcases s.purge_get? plan identity with same | ⟨dropped, present, eligible, gone⟩
      · exact same.trans found
      · cases found.symm.trans present
        simp only [StoredBatch.purgeable, uncertain, reduceCtorEq, decide_false, decide_true, Bool.and_true,
          Bool.false_or, Bool.and_eq_true] at eligible
        exact absurd gone (spared eligible.1)

omit [DecidableEq R] in
/-- An uncertain batch answers every `begin` with its uncertainty or a conflict. -/
theorem begin_uncertain {s : MutationBatchStore R} {identity : BatchIdentity} {fingerprint : RequestFingerprint}
    {totalItems : Nat} {now leaseTtl : Int} {token : Uuid} {stored : StoredBatch R}
    (found : s.entries.get? identity = some stored) (uncertain : stored.state = .uncertain) (positive : 0 < leaseTtl)
    (named : identity.ns ≠ "" ∧ identity.batchId ≠ "") :
    ∃ reason, (s.begin identity fingerprint totalItems now leaseTtl token).1 = .ok (.refused (.uncertain none reason)) ∨
      (s.begin identity fingerprint totalItems now leaseTtl token).1 = .ok (.refused (.conflict none reason)) := by
  have purged : (s.purgeTerminal now).entries.get? identity = some stored := by
    rw [purgeTerminal_get?, found]
    simp [Option.filter, StoredBatch.expired, uncertain]
  unfold begin
  rw [if_neg (by omega), if_neg (by simp [named])]
  simp only [purged]
  by_cases same : stored.fingerprint ≠ fingerprint ∨ stored.totalItems ≠ totalItems
  · have decided : stored.decide fingerprint totalItems now =
        some (.refused (.conflict none "the batch ID was used with different items")) := if_pos same
    simp only [decided]
    exact ⟨_, Or.inr rfl⟩
  · have decided : ∃ reason, stored.decide fingerprint totalItems now = some (.refused (.uncertain none reason)) := by
      unfold StoredBatch.decide
      rw [if_neg same, if_neg (by simp [uncertain]), if_pos uncertain]
      exact ⟨_, rfl⟩
    obtain ⟨reason, decided⟩ := decided
    simp only [decided]
    exact ⟨reason, Or.inl rfl⟩

/-- The batch is uncertain, and every later `begin` for it answers so, or with a
conflict, until a purge that includes uncertainty removes it. -/
def Durable (identity : BatchIdentity) (s : MutationBatchStore R) : Prop :=
  (∃ stored, s.entries.get? identity = some stored ∧ stored.state = .uncertain) ∧
  ∀ past t, History answer (fun s _ => Spares identity s) s past t →
    ∀ fingerprint totalItems now leaseTtl token, 0 < leaseTtl → ∃ reason,
      (t.begin identity fingerprint totalItems now leaseTtl token).1 = .ok (.refused (.uncertain none reason)) ∨
      (t.begin identity fingerprint totalItems now leaseTtl token).1 = .ok (.refused (.conflict none reason))

/-- In the store itself the mark is durable: it takes no more than the state. -/
theorem durable_iff {s : MutationBatchStore R} {identity : BatchIdentity}
    (named : identity.ns ≠ "" ∧ identity.batchId ≠ "") :
    Durable identity s ↔ ∃ stored, s.entries.get? identity = some stored ∧ stored.state = .uncertain := by
  refine ⟨fun durable => durable.1, fun marked => ⟨marked, ?_⟩⟩
  obtain ⟨stored, found, uncertain⟩ := marked
  intro past t history fingerprint totalItems now leaseTtl token positive
  have kept := history.state_invariant (P := fun s => s.entries.get? identity = some stored) found
    fun _ _ _ present spared => uncertain_kept present uncertain spared
  exact begin_uncertain kept uncertain positive named

omit [DecidableEq R] in
/-- A resumed lease comes from a batch whose lease ran out, and is then the current one. -/
theorem begin_resumed {s t : MutationBatchStore R} {identity : BatchIdentity} {fingerprint : RequestFingerprint}
    {totalItems : Nat} {now leaseTtl : Int} {token : Uuid} {lease : MutationBatchLease R}
    (run : s.begin identity fingerprint totalItems now leaseTtl token = (.ok (.lease lease), t))
    (resumed : lease.resumed = true) :
    ∃ current stored, s.entries.get? identity = some current ∧ current.decide fingerprint totalItems now = none ∧
      Fits now leaseTtl ∧ lease.identity = identity ∧ lease.expiresAt = now + leaseTtl ∧
      lease.nextIndex = current.nextIndex ∧ lease.totalItems = current.totalItems ∧
      lease.receipts = current.receipts ∧ t.Holds lease stored := by
  rcases s.begin_cases identity fingerprint totalItems now leaseTtl token with
    ⟨_, ended⟩ | ⟨_, ended⟩ | ⟨_, _, _, decided, ended⟩ | ⟨_, ended⟩ |
      ⟨current, taken, _, _, present, open_, moved, made, ended⟩ | ⟨_, _, _, fresh, made, ended⟩
  · cases congrArg Prod.fst (ended.symm.trans run)
  · cases congrArg Prod.fst (ended.symm.trans run)
  · cases congrArg Prod.fst (ended.symm.trans run)
    exact absurd decided decide_not_lease
  · cases congrArg Prod.fst (ended.symm.trans run)
  · obtain ⟨answer, rfl⟩ := Prod.mk.inj (ended.symm.trans run)
    obtain ⟨_, same, leased, expiry, indexed, fits⟩ := made _ answer
    cases same
    obtain ⟨sameIdentity, sameToken, -, sameIndex, sameTotal, sameReceipts, sameExpiry, -⟩ := lease_ok leased
    rw [purgeTerminal_get?, Option.filter_eq_some_iff] at present
    have executing := (decide_none open_).2.2.1
    have fields : taken.token = token ∧ taken.state = current.state ∧ taken.nextIndex = current.nextIndex ∧
        taken.totalItems = current.totalItems ∧ taken.receipts = current.receipts := by
      rcases moved with rfl | rfl
      · exact ⟨rfl, rfl, rfl, rfl, rfl⟩
      · exact ⟨rfl, rfl, rfl, rfl, rfl⟩
    obtain ⟨newToken, state, index, total, receipts⟩ := fields
    refine ⟨current, taken, present.1, open_, fits, sameIdentity, expiry, sameIndex.trans index, sameTotal.trans total,
      sameReceipts.trans receipts, ?_⟩
    exact ⟨by rw [sameToken, newToken, sameIdentity]; exact indexed, by simp [sameIdentity], sameToken.symm,
      by rw [state]; exact executing, sameExpiry.symm, sameIndex.symm, sameReceipts.symm, sameTotal.symm⟩
  · obtain ⟨answer, rfl⟩ := Prod.mk.inj (ended.symm.trans run)
    obtain ⟨_, same, leased⟩ := made _ answer
    cases same
    have isNew := (lease_ok leased).2.2.2.2.2.2.2
    rw [isNew] at resumed
    cases resumed

omit [DecidableEq R] in
/-- A batch whose lease ran out is resumed. -/
theorem begin_resumes {s : MutationBatchStore R} {identity : BatchIdentity} {fingerprint : RequestFingerprint}
    {totalItems : Nat} {now leaseTtl : Int} {current : StoredBatch R} (token : Uuid)
    (named : identity.ns ≠ "" ∧ identity.batchId ≠ "") (positive : 0 < leaseTtl)
    (found : s.entries.get? identity = some current) (open_ : current.decide fingerprint totalItems now = none)
    (fits : Fits now leaseTtl) (progress : current.nextIndex ≤ current.totalItems)
    (agree : current.nextIndex = current.receipts.length) :
    ∃ lease t, s.begin identity fingerprint totalItems now leaseTtl token = (.ok (.lease lease), t) ∧
      lease.resumed = true := by
  obtain ⟨-, -, executing, -⟩ := decide_none open_
  have purged : (s.purgeTerminal now).entries.get? identity = some current := by
    have retained : current.expired now = false := by
      unfold StoredBatch.expired
      cases state : current.state <;> simp_all [MutationBatchState.executing]
    rw [purgeTerminal_get?, found]
    simp [Option.filter, retained]
  obtain ⟨lease, made⟩ : ∃ lease,
      StoredBatch.lease { current with token, leaseExpiresAt := now + leaseTtl } identity true = .ok lease :=
    lease_made named executing progress agree
  have granted : (s.begin identity fingerprint totalItems now leaseTtl token).1 = .ok (.lease lease) := by
    unfold begin
    rw [if_neg (by omega), if_neg (by simp [named])]
    simp only [purged, open_, datetimeAdd_fits fits, made, Except.map]
  exact ⟨lease, _, Prod.ext granted rfl, (lease_ok made).2.2.2.2.2.2.2⟩

end MutationBatchStore

namespace Coordinator
variable {P R : Type} [DecidableEq R] {w u : World P R} {env : Environment P R} {identity : BatchIdentity}
  {items : List (BatchItem P)} {batchPolicy : BatchPolicy} {policy : IdempotencyPolicy}

/-- The call resumed a batch and came to a committed receipt that it could not prove. -/
def FailedProof (env : Environment P R) (identity : BatchIdentity) (items : List (BatchItem P))
    (batchPolicy : BatchPolicy) (policy : IdempotencyPolicy) (w : World P R) (itemId : String) : Prop :=
  ∃ fingerprint lease b v, env.batchFingerprint batchPolicy items = .ok fingerprint ∧
    (begin env identity fingerprint items.length policy).Returns w (.lease lease) b ∧
    (provePrefix env lease items policy).Raises b (unprovable itemId) v

/-- A call that reports an unprovable receipt leaves the batch durably uncertain. -/
def MarksUncertain (env : Environment P R) (identity : BatchIdentity) (items : List (BatchItem P))
    (batchPolicy : BatchPolicy) (policy : IdempotencyPolicy) (w : World P R) : Prop :=
  ∀ itemId u, execute env identity items batchPolicy policy w =
      (.ok (.refused (.uncertain (some itemId) unprovableReason)), u) →
    FailedProof env identity items batchPolicy policy w itemId → u.batches.Durable identity

/-- The state before the call in which it meets an unprovable receipt: the batch
is stored with the same items, its lease has run out, and its prefix fails. -/
def PrefixFails (env : Environment P R) (identity : BatchIdentity) (items : List (BatchItem P))
    (batchPolicy : BatchPolicy) (policy : IdempotencyPolicy) (w : World P R) : Prop :=
  ∃ named fingerprint current, validateItems env items = .ok () ∧
    env.batchFingerprint batchPolicy items = .ok fingerprint ∧ w.batches.entries.get? identity = some current ∧
    current.decide fingerprint items.length (env.clock w.reads) = none ∧
    Fits (env.clock w.reads) policy.executionLeaseTtl ∧ current.nextIndex ≤ current.totalItems ∧
    current.nextIndex = current.receipts.length ∧
    Unproven env (itemKey identity named) policy (items.take current.nextIndex) current.receipts
      (env.clock w.reads + policy.executionLeaseTtl) (w.reads + 1) w.items

/-- A failed proof resumes the stored batch and runs through its prefix. -/
theorem failedProof_iff (named : identity.ns ≠ "" ∧ identity.batchId ≠ "") (valid : validateItems env items = .ok ()) :
    (∃ itemId, FailedProof env identity items batchPolicy policy w itemId) ↔
      PrefixFails env identity items batchPolicy policy w := by
  constructor
  · intro event
    obtain ⟨itemId, fingerprint, lease, b, v, printed, begun, failed⟩ := event
    obtain ⟨batches, leased, rfl⟩ := begin_returns.mp begun
    unfold provePrefix at failed
    split at failed
    · simp at failed
    rename_i resumed
    obtain ⟨current, stored, found, open_, fits, mine, expiry, index, total, receipts, holds⟩ :=
      MutationBatchStore.begin_resumed leased (by simpa using resumed)
    have fails := (provePrefixLoop_raises (w := { w with batches, reads := w.reads + 1, draws := w.draws + 1 })
      named holds mine).mp ⟨itemId, v, failed⟩
    rw [expiry, index, receipts] at fails
    exact ⟨named, fingerprint, current, valid, printed, found, open_, fits, by rw [← index, ← total]; exact lease.progress,
      by rw [← index, ← receipts]; exact lease.agree, fails⟩
  · intro fails
    obtain ⟨_, fingerprint, current, -, printed, found, open_, fits, progress, agree, unproven⟩ := fails
    obtain ⟨lease, batches, begun, resumed⟩ := MutationBatchStore.begin_resumes (env.uuid w.draws) named policy.positive.1
      found open_ fits progress agree
    obtain ⟨again, stored, foundAgain, -, -, mine, expiry, index, -, receipts, holds⟩ :=
      MutationBatchStore.begin_resumed begun resumed
    obtain rfl : again = current := Option.some.inj (foundAgain.symm.trans found)
    rw [← expiry, ← index, ← receipts] at unproven
    obtain ⟨itemId, v, failed⟩ : ∃ itemId v,
        (provePrefixLoop env policy (items.take lease.nextIndex) lease.receipts lease []).Raises
          { w with batches, reads := w.reads + 1, draws := w.draws + 1 } (unprovable itemId) v :=
      (provePrefixLoop_raises named holds mine).mpr unproven
    refine ⟨itemId, fingerprint, lease, _, v, printed, begin_returns.mpr ⟨batches, begun, rfl⟩, ?_⟩
    unfold provePrefix
    rw [if_neg (by simp [resumed])]
    exact failed

/-- The mark is made inside the transaction that the failure abandons, so the
batch stays in an executing state under either policy. -/
theorem execute_of_failedProof (named : identity.ns ≠ "" ∧ identity.batchId ≠ "")
    (valid : validateItems env items = .ok ()) {itemId : String}
    (event : FailedProof env identity items batchPolicy policy w itemId) :
    ∃ u stored, execute env identity items batchPolicy policy w =
        (.ok (.refused (.uncertain (some itemId) unprovableReason)), u) ∧
      u.batches.entries.get? identity = some stored ∧ stored.state.executing = true := by
  obtain ⟨fingerprint, lease, b, v, printed, begun, failed⟩ := event
  have resumed : lease.resumed = true := by
    unfold provePrefix at failed
    split at failed
    · simp at failed
    · rename_i resumed
      simpa using resumed
  obtain ⟨batches, leased, rfl⟩ := begin_returns.mp begun
  obtain ⟨current, stored, found, open_, -, mine, -, -, -, -, holds⟩ := MutationBatchStore.begin_resumed leased resumed
  unfold execute
  rw [if_neg (by simp [named])]
  simp only [valid, printed]
  cases batchPolicy with
  | allOrNothing =>
    refine ⟨rollback w v, current, ?_, found, (MutationBatchStore.decide_none open_).2.2.1⟩
    simp only [allOrNothing, Program.recover, atomic, Program.atomic, allOrNothingBody]
    rw [Program.bind_returned begun]
    dsimp only
    rw [Program.bind_raised failed]
    rfl
  | perItem =>
    refine ⟨rollback { w with batches, reads := w.reads + 1, draws := w.draws + 1 } v, stored, ?_, mine ▸ holds.found,
      holds.executing⟩
    have started : (settled (begin env identity fingerprint items.length policy)).Returns w (.ok (.lease lease))
        { w with batches, reads := w.reads + 1, draws := w.draws + 1 } := by
      simp only [Program.Returns, settled, Program.recover]
      rw [Program.bind_returned begun]
      rfl
    have abandoned : (atomic (provePrefix env lease items policy)).Raises
        { w with batches, reads := w.reads + 1, draws := w.draws + 1 } (unprovable itemId)
        (rollback { w with batches, reads := w.reads + 1, draws := w.draws + 1 } v) :=
      Program.raises_atomic.mpr ⟨v, failed, rfl⟩
    have undone : (settled (atomic (provePrefix env lease items policy))).Returns
        { w with batches, reads := w.reads + 1, draws := w.draws + 1 }
        (.error (.uncertain (some itemId) unprovableReason))
        (rollback { w with batches, reads := w.reads + 1, draws := w.draws + 1 } v) := by
      simp only [Program.Returns, settled, Program.recover]
      rw [Program.bind_raised abandoned]
      rfl
    simp only [perItem]
    rw [Program.bind_returned started]
    dsimp only
    rw [Program.bind_returned undone]
    rfl

/-- A call leaves an unprovable batch uncertain exactly when it does not meet one. -/
theorem marks_uncertain_iff :
    MarksUncertain env identity items batchPolicy policy w ↔ ¬PrefixFails env identity items batchPolicy policy w := by
  constructor
  · intro marks fails
    obtain ⟨named, -, -, valid, -⟩ := id fails
    obtain ⟨itemId, event⟩ := (failedProof_iff named valid).mpr fails
    obtain ⟨u, stored, run, found, executing⟩ := execute_of_failedProof named valid event
    obtain ⟨marked, foundMarked, uncertain⟩ := (marks itemId u run event).1
    cases found.symm.trans foundMarked
    simp [uncertain, MutationBatchState.executing] at executing
  · intro proven itemId u run event
    refine absurd ?_ proven
    unfold execute at run
    split at run
    · cases congrArg Prod.fst run
    rename_i required
    obtain ⟨hasBatch, hasNamespace⟩ := not_or.mp required
    cases valid : validateItems env items with
    | error error =>
      simp only [valid] at run
      cases congrArg Prod.fst run
    | ok checked => exact (failedProof_iff ⟨hasNamespace, hasBatch⟩ valid).mp ⟨itemId, event⟩

/-- The second item of a batch raises; when the batch is resumed, the receipt of
the first is past its retention. The call reports so and the batch stays
partially committed, ready to be resumed again. -/
theorem mark_lost_on_rollback :
    ∃ (env : Environment Nat Nat) (items : List (BatchItem Nat)) (policy : IdempotencyPolicy) (w u : World Nat Nat),
      w = (execute env ⟨"ns", "b"⟩ items .perItem policy ⟨.empty 4, .empty 4, [], 0, 0, 0⟩).2 ∧
      execute env ⟨"ns", "b"⟩ items .perItem policy w =
        (.ok (.refused (.uncertain (some "a") unprovableReason)), u) ∧
      FailedProof env ⟨"ns", "b"⟩ items .perItem policy w "a" ∧
      (u.batches.entries.get? ⟨"ns", "b"⟩).map StoredBatch.state = some .partiallyCommitted ∧
      ¬u.batches.Durable ⟨"ns", "b"⟩ := by
  let env : Environment Nat Nat :=
    { Environment.counting (fun n => if n < 11 then n else 100 + n) with
      mutate := fun n _ _ => if n = 1 then .error (.raised "boom") else .ok 7 }
  let items : List (BatchItem Nat) := [⟨"a", 3, by decide⟩, ⟨"b", 4, by decide⟩]
  let policy : IdempotencyPolicy := ⟨20, 50, 1000, by decide⟩
  let w := (execute env ⟨"ns", "b"⟩ items .perItem policy ⟨.empty 4, .empty 4, [], 0, 0, 0⟩).2
  have reported : (execute env ⟨"ns", "b"⟩ items .perItem policy w).1 =
      .ok (.refused (.uncertain (some "a") unprovableReason)) := by decide +kernel
  have kept : ((execute env ⟨"ns", "b"⟩ items .perItem policy w).2.batches.entries.get? ⟨"ns", "b"⟩).map
      StoredBatch.state = some .partiallyCommitted := by decide +kernel
  have fails : PrefixFails env ⟨"ns", "b"⟩ items .perItem policy w := by
    let current : StoredBatch Nat :=
      ⟨⟨"batch"⟩, 2, ⟨"u", by decide⟩, .partiallyCommitted, 1, [⟨"a", 7, false⟩], 26, none, none⟩
    have found : w.batches.entries.get? ⟨"ns", "b"⟩ = some current := by decide +kernel
    have reads : w.reads = 11 := by decide +kernel
    have gone : (w.items.entries.get? (itemKey ⟨"ns", "b"⟩ (by decide) "a")).all (·.expired 113) = true := by
      decide +kernel
    refine ⟨by decide, ⟨"batch"⟩, current, by decide +kernel, rfl, found, ?_, ?_, by decide, by decide, ?_⟩
    · rw [reads]
      rfl
    · rw [reads]
      unfold Fits
      decide
    · rw [reads]
      refine ⟨by decide, by unfold Fits; decide, ⟨toString 3⟩, rfl, Or.inr ⟨?_, ?_, ?_⟩⟩
      · intro provable
        obtain ⟨entry, present, alive, -⟩ := provable
        change entry.expired 113 = false at alive
        rw [present] at gone
        simp [alive] at gone
      · intro _
        unfold Fits
        decide
      · intro instant reading _
        split at reading
        · subst reading
          unfold Fits
          decide
        · subst reading
          unfold Fits
          decide
  have valid : validateItems env items = .ok () := by decide +kernel
  obtain ⟨itemId, event⟩ := (failedProof_iff (by decide) valid).mpr fails
  obtain ⟨u, stored, run, found, executing⟩ := execute_of_failedProof (by decide) valid event
  rw [run] at reported kept
  simp only [Except.ok.injEq, BatchResult.refused.injEq, BatchRefusal.uncertain.injEq, Option.some.injEq, and_true] at reported
  subst itemId
  refine ⟨env, items, policy, w, u, rfl, run, event, kept, ?_⟩
  intro durable
  obtain ⟨marked, foundMarked, uncertain⟩ := durable.1
  rw [foundMarked] at kept
  simp [uncertain] at kept

end Coordinator

end Pytitect
