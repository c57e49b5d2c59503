import Pytitect.Batches.Coordinator
import Pytitect.Idempotency.Transitions

namespace Pytitect

namespace MutationBatchStore
variable {R : Type} [DecidableEq R]

theorem active_some {s : MutationBatchStore R} {lease : MutationBatchLease R} {now : Int} {current : StoredBatch R} :
    s.active lease now = some current ↔
      s.tokens.get? lease.token = some lease.identity ∧ s.entries.get? lease.identity = some current ∧
        current.token = lease.token ∧ current.state.executing = true ∧ now < current.leaseExpiresAt ∧
        current.leaseExpiresAt = lease.expiresAt ∧ current.nextIndex = lease.nextIndex ∧
        current.receipts = lease.receipts := by
  unfold active
  by_cases indexed : s.tokens.get? lease.token = some lease.identity
  · simp only [indexed, ne_eq, not_true_eq_false, if_false, true_and]
    cases found : s.entries.get? lease.identity with
    | none => simp
    | some stored =>
      dsimp only
      constructor
      · intro granted
        split at granted
        · cases granted
        · rename_i authority
          have held : stored.token = lease.token ∧ stored.state.executing = true ∧ now < stored.leaseExpiresAt ∧
              stored.leaseExpiresAt = lease.expiresAt ∧ stored.nextIndex = lease.nextIndex ∧
              stored.receipts = lease.receipts := by
            simpa only [not_or, not_not, not_le, Bool.not_eq_false] using authority
          cases granted
          exact ⟨rfl, held⟩
      · intro granted
        obtain ⟨same, held⟩ := granted
        cases same
        rw [if_neg]
        simpa only [not_or, not_not, not_le, Bool.not_eq_false] using held
  · simp [indexed]

omit [DecidableEq R] in
theorem lease_ok {stored : StoredBatch R} {identity : BatchIdentity} {resumed : Bool}
    {lease : MutationBatchLease R} (made : stored.lease identity resumed = .ok lease) :
    lease.identity = identity ∧ lease.token = stored.token ∧ lease.state = stored.state ∧
      lease.nextIndex = stored.nextIndex ∧ lease.totalItems = stored.totalItems ∧
      lease.receipts = stored.receipts ∧ lease.expiresAt = stored.leaseExpiresAt ∧ lease.resumed = resumed := by
  unfold StoredBatch.lease at made
  split at made
  · split at made
    · split at made
      · split at made
        · cases made
          exact ⟨rfl, rfl, rfl, rfl, rfl, rfl, rfl, rfl⟩
        · cases made
      · cases made
    · cases made
  · cases made

/-- A renewal that succeeds moves the expiry of the stored batch and nothing else. -/
theorem renew_renewed {s t : MutationBatchStore R} {lease renewed : MutationBatchLease R} {now leaseTtl : Int}
    (run : s.renew lease now leaseTtl = (.ok (.renewed renewed), t)) :
    ∃ current expiresAt, s.active lease now = some current ∧ expiresAt = now + leaseTtl ∧
      t = s.write lease.identity { current with leaseExpiresAt := expiresAt } ∧
      StoredBatch.lease { current with leaseExpiresAt := expiresAt } lease.identity lease.resumed = .ok renewed := by
  unfold renew at run
  split at run
  · cases congrArg Prod.fst run
  cases held : s.active lease now with
  | none =>
    simp only [held] at run
    cases congrArg Prod.fst run
  | some current =>
    simp only [held] at run
    cases expiry : datetimeAdd now leaseTtl with
    | error error =>
      simp only [expiry] at run
      cases congrArg Prod.fst run
    | ok expiresAt =>
      simp only [expiry, Prod.mk.injEq] at run
      obtain ⟨made, rfl⟩ := run
      cases built : StoredBatch.lease { current with leaseExpiresAt := expiresAt } lease.identity lease.resumed with
      | error error =>
        rw [built] at made
        cases made
      | ok fresh =>
        rw [built] at made
        cases made
        exact ⟨current, expiresAt, rfl, datetimeAdd_ok expiry, rfl, built⟩

/-- An advance that succeeds appends one receipt to what the lease had seen. -/
theorem advance_progressed {s t : MutationBatchStore R} {lease progressed : MutationBatchLease R}
    {receipt : BatchItemReceipt R} {now leaseTtl : Int}
    (run : s.advance lease receipt now leaseTtl = (.ok (.progressed progressed), t)) :
    ∃ current expiresAt, s.active lease now = some current ∧ current.nextIndex < current.totalItems ∧
      t = s.write lease.identity { current with
        receipts := current.receipts ++ [receipt], nextIndex := current.nextIndex + 1,
        state := .partiallyCommitted, leaseExpiresAt := expiresAt } ∧
      StoredBatch.lease { current with
        receipts := current.receipts ++ [receipt], nextIndex := current.nextIndex + 1,
        state := .partiallyCommitted, leaseExpiresAt := expiresAt } lease.identity lease.resumed = .ok progressed := by
  unfold advance at run
  split at run
  · cases congrArg Prod.fst run
  cases held : s.active lease now with
  | none =>
    simp only [held] at run
    cases congrArg Prod.fst run
  | some current =>
    simp only [held] at run
    split at run
    · cases congrArg Prod.fst run
    rename_i room
    cases expiry : datetimeAdd now leaseTtl with
    | error error =>
      simp only [expiry] at run
      cases congrArg Prod.fst run
    | ok expiresAt =>
      simp only [expiry, Prod.mk.injEq] at run
      obtain ⟨made, rfl⟩ := run
      cases built : StoredBatch.lease { current with
        receipts := current.receipts ++ [receipt], nextIndex := current.nextIndex + 1,
        state := .partiallyCommitted, leaseExpiresAt := expiresAt } lease.identity lease.resumed with
      | error error =>
        rw [built] at made
        cases made
      | ok fresh =>
        rw [built] at made
        cases made
        exact ⟨current, expiresAt, rfl, by omega, rfl, built⟩

theorem renew_stale {s t : MutationBatchStore R} {lease : MutationBatchLease R} {now leaseTtl : Int} {reason : String}
    (run : s.renew lease now leaseTtl = (.ok (.stale reason), t)) : t = s := by
  unfold renew at run
  split at run
  · cases congrArg Prod.fst run
  split at run
  · exact (congrArg Prod.snd run).symm
  · rename_i current held
    split at run
    · cases congrArg Prod.fst run
    · rename_i expiresAt expiry
      obtain ⟨made, -⟩ := Prod.mk.inj run
      cases built : StoredBatch.lease { current with leaseExpiresAt := expiresAt } lease.identity lease.resumed with
      | error error =>
        rw [built] at made
        cases made
      | ok fresh =>
        rw [built] at made
        cases made

/-- A completion that succeeds has a receipt for every item and makes the batch terminal. -/
theorem complete_completed {s t : MutationBatchStore R} {lease : MutationBatchLease R} {now retentionTtl : Int}
    {retainedUntil : Int} (run : s.complete lease now retentionTtl = (.ok (.completed retainedUntil), t)) :
    ∃ current, s.active lease now = some current ∧ current.nextIndex = current.totalItems ∧
      t = { s.write lease.identity
          { current with state := .completed, retentionExpiresAt := some retainedUntil } with
        tokens := s.tokens.pop current.token } := by
  unfold complete at run
  split at run
  · cases congrArg Prod.fst run
  cases held : s.active lease now with
  | none =>
    simp only [held] at run
    cases congrArg Prod.fst run
  | some current =>
    simp only [held] at run
    split at run
    · cases congrArg Prod.fst run
    rename_i finished
    cases expiry : datetimeAdd now retentionTtl with
    | error error =>
      simp only [expiry] at run
      cases congrArg Prod.fst run
    | ok instant =>
      simp only [expiry, Prod.mk.injEq, Except.ok.injEq, MutationBatchCompleteResult.completed.injEq] at run
      obtain ⟨rfl, rfl⟩ := run
      exact ⟨current, rfl, not_not.mp finished, rfl⟩

theorem complete_stale {s t : MutationBatchStore R} {lease : MutationBatchLease R} {now retentionTtl : Int}
    {reason : String} (run : s.complete lease now retentionTtl = (.ok (.stale reason), t)) : t = s := by
  unfold complete at run
  split at run
  · cases congrArg Prod.fst run
  split at run
  · exact (congrArg Prod.snd run).symm
  split at run
  · exact (congrArg Prod.snd run).symm
  · split at run
    · cases congrArg Prod.fst run
    · cases congrArg Prod.fst run

omit [DecidableEq R] in
theorem purgeTerminal_get? (s : MutationBatchStore R) (now : Int) (identity : BatchIdentity) :
    (s.purgeTerminal now).entries.get? identity =
      (s.entries.get? identity).filter (fun stored => !stored.expired now) := by
  change (s.entries.popAll _).get? identity = _
  rw [Dict.get?_popAll]
  cases found : s.entries.get? identity with
  | none => simp
  | some stored =>
    have selected : identity ∈ (s.entries.items.filter (fun item => item.2.expired now)).map Prod.fst ↔
        stored.expired now = true := by
      simp only [List.mem_map, List.mem_filter, Prod.exists, exists_and_right, exists_eq_right]
      constructor
      · intro chosen
        obtain ⟨other, member, gone⟩ := chosen
        rw [Dict.mem_items, found] at member
        cases member
        exact gone
      · intro gone
        exact ⟨stored, Dict.mem_items.mpr found, gone⟩
    by_cases gone : stored.expired now = true
    · simp [selected, gone, Option.filter]
    · simp [selected, gone, Option.filter]

omit [DecidableEq R] in
theorem decide_none {current : StoredBatch R} {fingerprint : RequestFingerprint} {totalItems : Nat} {now : Int}
    (open_ : current.decide fingerprint totalItems now = none) :
    current.fingerprint = fingerprint ∧ current.totalItems = totalItems ∧ current.state.executing = true ∧
      current.leaseExpiresAt ≤ now := by
  unfold StoredBatch.decide at open_
  split at open_
  · cases open_
  rename_i same
  split at open_
  · cases open_
  rename_i notCompleted
  split at open_
  · cases open_
  rename_i notUncertain
  split at open_
  · cases open_
  rename_i lapsed
  obtain ⟨sameFingerprint, sameTotal⟩ := not_or.mp same
  refine ⟨not_not.mp sameFingerprint, not_not.mp sameTotal, ?_, by omega⟩
  cases state : current.state <;> simp_all [MutationBatchState.executing]

omit [DecidableEq R] in
/-- A present batch is never answered with a lease before its old one has run out. -/
theorem decide_not_lease {current : StoredBatch R} {fingerprint : RequestFingerprint} {totalItems : Nat} {now : Int}
    {lease : MutationBatchLease R} : current.decide fingerprint totalItems now ≠ some (.lease lease) := by
  unfold StoredBatch.decide
  split
  · simp
  split
  · simp
  split
  · simp
  split <;> simp

omit [DecidableEq R] in
/-- Every way `begin` can end, with the state it leaves behind: refused arguments, an answer
for a present batch, a takeover, a full store, a new batch, or an instant beyond the calendar. -/
theorem begin_cases (s : MutationBatchStore R) (identity : BatchIdentity) (fingerprint : RequestFingerprint)
    (totalItems : Nat) (now leaseTtl : Int) (token : Uuid) :
    (∃ error, s.begin identity fingerprint totalItems now leaseTtl token = (.error error, s)) ∨
    (∃ error, s.begin identity fingerprint totalItems now leaseTtl token = (.error error, s.purgeTerminal now)) ∨
    (∃ current result, (s.purgeTerminal now).entries.get? identity = some current ∧
      current.decide fingerprint totalItems now = some result ∧
      s.begin identity fingerprint totalItems now leaseTtl token =
        (.ok result, { s.purgeTerminal now with entries := (s.purgeTerminal now).entries.moveToEnd identity })) ∨
    (∃ reason, s.begin identity fingerprint totalItems now leaseTtl token =
      (.ok (.refused (.uncertain none reason)), s.purgeTerminal now)) ∨
    (∃ current taken result tokens, (s.purgeTerminal now).entries.get? identity = some current ∧
      current.decide fingerprint totalItems now = none ∧
      (taken = { current with token } ∨ taken = { current with token, leaseExpiresAt := now + leaseTtl }) ∧
      (∀ decision, result = .ok decision → ∃ lease, decision = .lease lease ∧
        taken.lease identity true = .ok lease ∧ lease.expiresAt = now + leaseTtl ∧
        tokens.get? token = some identity ∧ Fits now leaseTtl) ∧
      s.begin identity fingerprint totalItems now leaseTtl token =
        (result, ⟨s.capacity, ((s.purgeTerminal now).entries.moveToEnd identity).set identity taken, tokens⟩)) ∨
    (∃ fresh result, (s.purgeTerminal now).entries.get? identity = none ∧
      fresh = ⟨fingerprint, totalItems, token, .processing, 0, [], now + leaseTtl, none, none⟩ ∧
      (∀ decision, result = .ok decision → ∃ lease, decision = .lease lease ∧
        fresh.lease identity false = .ok lease) ∧
      s.begin identity fingerprint totalItems now leaseTtl token =
        (result, ⟨s.capacity, (s.purgeTerminal now).entries.set identity fresh, s.tokens.set token identity⟩)) := by
  unfold begin
  split
  · exact Or.inl ⟨_, rfl⟩
  split
  · exact Or.inl ⟨_, rfl⟩
  dsimp only
  split
  · rename_i current found
    split
    · rename_i result decided
      exact Or.inr (Or.inr (Or.inl ⟨current, result, found, decided, rfl⟩))
    · rename_i undecided
      refine Or.inr (Or.inr (Or.inr (Or.inr (Or.inl ?_))))
      split
      · rename_i error overflow
        exact ⟨current, _, .error error, _, found, undecided, Or.inl rfl, by simp, rfl⟩
      · rename_i expiresAt expiry
        cases datetimeAdd_ok expiry
        refine ⟨current, _, _, _, found, undecided, Or.inr rfl, ?_, rfl⟩
        intro decision granted
        cases made : StoredBatch.lease { current with token, leaseExpiresAt := now + leaseTtl } identity true with
        | error error =>
          rw [made] at granted
          cases granted
        | ok lease =>
          rw [made] at granted
          cases granted
          exact ⟨lease, rfl, rfl, (lease_ok made).2.2.2.2.2.2.1, by simp, fits_of_datetimeAdd expiry⟩
  · rename_i absent
    split
    · exact Or.inr (Or.inr (Or.inr (Or.inl ⟨_, rfl⟩)))
    split
    · exact Or.inr (Or.inl ⟨_, rfl⟩)
    · rename_i expiresAt expiry
      cases datetimeAdd_ok expiry
      refine Or.inr (Or.inr (Or.inr (Or.inr (Or.inr ⟨_, _, absent, rfl, ?_, rfl⟩))))
      intro decision granted
      cases made : StoredBatch.lease
        ⟨fingerprint, totalItems, token, .processing, 0, [], now + leaseTtl, none, none⟩ identity false with
      | error error =>
        rw [made] at granted
        cases granted
      | ok lease =>
        rw [made] at granted
        cases granted
        exact ⟨lease, rfl, rfl⟩

omit [DecidableEq R] in
/-- A lease is for the batch and the number of items it was asked for, and only
a resumed one comes with receipts. -/
theorem begin_lease {s : MutationBatchStore R} {identity : BatchIdentity} {fingerprint : RequestFingerprint}
    {totalItems : Nat} {now leaseTtl : Int} {token : Uuid} {lease : MutationBatchLease R}
    (granted : (s.begin identity fingerprint totalItems now leaseTtl token).1 = .ok (.lease lease)) :
    lease.identity = identity ∧ lease.totalItems = totalItems ∧ (lease.resumed = false → lease.receipts = []) := by
  rcases s.begin_cases identity fingerprint totalItems now leaseTtl token with
    ⟨_, run⟩ | ⟨_, run⟩ | ⟨_, _, _, decided, run⟩ | ⟨_, run⟩ | ⟨current, _, _, _, _, undecided, taken, made, run⟩ |
      ⟨_, _, _, fresh, made, run⟩
  · simp [run] at granted
  · simp [run] at granted
  · rw [run] at granted
    cases granted
    exact absurd decided decide_not_lease
  · simp [run] at granted
  · rw [run] at granted
    obtain ⟨_, same, leased, -⟩ := made _ granted
    cases same
    obtain ⟨sameIdentity, -, -, -, sameTotal, -, -, resumed⟩ := lease_ok leased
    have total : lease.totalItems = current.totalItems := by
      rcases taken with rfl | rfl
      · exact sameTotal
      · exact sameTotal
    exact ⟨sameIdentity, total.trans (decide_none undecided).2.1, by simp [resumed]⟩
  · rw [run] at granted
    obtain ⟨_, same, leased⟩ := made _ granted
    cases same
    obtain ⟨sameIdentity, -, -, -, sameTotal, noReceipts, -⟩ := lease_ok leased
    subst fresh
    exact ⟨sameIdentity, sameTotal, fun _ => noReceipts⟩

omit [DecidableEq R] in
/-- A replayed batch changes no entry; what had expired is dropped. -/
theorem begin_replay {s t : MutationBatchStore R} {identity : BatchIdentity} {fingerprint : RequestFingerprint}
    {totalItems : Nat} {now leaseTtl : Int} {token : Uuid} {receipts : List (BatchItemReceipt R)}
    (run : s.begin identity fingerprint totalItems now leaseTtl token = (.ok (.replay receipts), t)) (other : BatchIdentity) :
    t.entries.get? other = (s.purgeTerminal now).entries.get? other := by
  rcases s.begin_cases identity fingerprint totalItems now leaseTtl token with
    ⟨_, ended⟩ | ⟨_, ended⟩ | ⟨_, _, _, _, ended⟩ | ⟨_, ended⟩ | ⟨_, _, _, _, _, _, _, made, ended⟩ |
      ⟨_, _, _, _, made, ended⟩
  · cases congrArg Prod.fst (ended.symm.trans run)
  · cases congrArg Prod.fst (ended.symm.trans run)
  · obtain ⟨-, rfl⟩ := Prod.mk.inj (ended.symm.trans run)
    simp
  · cases congrArg Prod.fst (ended.symm.trans run)
  · obtain ⟨_, leased, -⟩ := made _ (congrArg Prod.fst (ended.symm.trans run))
    cases leased
  · obtain ⟨_, leased, -⟩ := made _ (congrArg Prod.fst (ended.symm.trans run))
    cases leased

omit [DecidableEq R] in
/-- `begin` never makes progress: what is stored afterwards was stored before, or is a new batch. -/
theorem begin_progress {s : MutationBatchStore R} {identity : BatchIdentity} {fingerprint : RequestFingerprint}
    {totalItems : Nat} {now leaseTtl : Int} {token : Uuid} {stored : StoredBatch R}
    (found : (s.begin identity fingerprint totalItems now leaseTtl token).2.entries.get? identity = some stored) :
    (∃ before, s.entries.get? identity = some before ∧ stored.receipts = before.receipts ∧
      stored.nextIndex = before.nextIndex) ∨ (stored.receipts = [] ∧ stored.nextIndex = 0) := by
  have purged : ∀ {current}, (s.purgeTerminal now).entries.get? identity = some current →
      s.entries.get? identity = some current := by
    intro current present
    rw [purgeTerminal_get?, Option.filter_eq_some_iff] at present
    exact present.1
  rcases s.begin_cases identity fingerprint totalItems now leaseTtl token with
    ⟨_, run⟩ | ⟨_, run⟩ | ⟨_, _, _, _, run⟩ | ⟨_, run⟩ | ⟨current, taken, _, _, present, _, moved, _, run⟩ |
      ⟨_, _, _, fresh, _, run⟩
  · rw [run] at found
    exact Or.inl ⟨stored, found, rfl, rfl⟩
  · rw [run] at found
    exact Or.inl ⟨stored, purged found, rfl, rfl⟩
  · rw [run] at found
    simp only [Dict.get?_moveToEnd] at found
    exact Or.inl ⟨stored, purged found, rfl, rfl⟩
  · rw [run] at found
    exact Or.inl ⟨stored, purged found, rfl, rfl⟩
  · rw [run] at found
    simp only [Dict.get?_set_self, Option.some.injEq] at found
    subst stored
    rcases moved with rfl | rfl
    · exact Or.inl ⟨current, purged present, rfl, rfl⟩
    · exact Or.inl ⟨current, purged present, rfl, rfl⟩
  · rw [run] at found
    simp only [Dict.get?_set_self, Option.some.injEq] at found
    subst stored
    subst fresh
    exact Or.inr ⟨rfl, rfl⟩

end MutationBatchStore

end Pytitect
