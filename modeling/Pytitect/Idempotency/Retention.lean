import Pytitect.Idempotency.Fencing

namespace Pytitect.IdempotencyStore
variable {T : Type}

/-- No reservation and no purge looks at an instant from `limit` on. -/
def HorizonBefore (limit : Int) (call : Call T) : Prop :=
  ∀ horizon, call.horizon = some horizon → horizon < limit

/-- A purge that may drop uncertainty leaves this identity in place. -/
def SparesUncertain (identity : IdempotencyIdentity) (s : IdempotencyStore T) (call : Call T) : Prop :=
  call.dropsUncertain = true → (s.answer call).2.entries.get? identity ≠ none

theorem not_executing {s : IdempotencyStore T} {token : ReservationToken} {now : Int}
    {identity : IdempotencyIdentity} {entry : Entry T} (settled : entry.state ≠ .reserved) :
    s.executing token now ≠ some (identity, entry) :=
  fun held => settled (executing_some.mp held).2.2.2.1

/-- A completed entry survives every call that does not look past its expiry. -/
theorem completed_kept {s : IdempotencyStore T} {call : Call T} {identity : IdempotencyIdentity}
    {entry : Entry T} {value : T} (found : s.entries.get? identity = some entry)
    (completed : entry.state = .completed value) (before : HorizonBefore entry.expiresAt call) :
    (s.answer call).2.entries.get? identity = some entry := by
  have settled : entry.state ≠ .reserved := by simp [completed]
  have change := s.answer_entry call identity
  rw [found] at change
  generalize after : (s.answer call).2.entries.get? identity = result at change
  cases change with
  | same => rfl
  | forgotten horizon reached _ =>
    have early := before _ horizon
    omega
  | released _ held => exact absurd held (not_executing settled)
  | @reserved _ _ _ _ now _ _ _ isReserve _ _ expired =>
    subst isReserve
    have gone := expired entry rfl
    simp only [Entry.expired, Bool.and_eq_true, decide_eq_true_eq] at gone
    have early := before now rfl
    omega
  | rewritten _ held => exact absurd held (not_executing settled)

/-- An uncertain entry survives every call but a purge that asks for it. -/
theorem uncertain_kept {s : IdempotencyStore T} {call : Call T} {identity : IdempotencyIdentity}
    {entry : Entry T} {reason : String} (found : s.entries.get? identity = some entry)
    (uncertain : entry.state = .uncertain reason) (spared : SparesUncertain identity s call) :
    (s.answer call).2.entries.get? identity = some entry := by
  have settled : entry.state ≠ .reserved := by simp [uncertain]
  have flagged : entry.state.isUncertain = true := by simp [uncertain, EntryState.isUncertain]
  have change := s.answer_entry call identity
  rw [found] at change
  unfold SparesUncertain at spared
  generalize after : (s.answer call).2.entries.get? identity = result at change spared
  cases change with
  | same => rfl
  | forgotten _ _ drops => exact absurd rfl (spared (drops flagged))
  | released _ held => exact absurd held (not_executing settled)
  | reserved _ _ _ expired =>
    have gone := expired entry rfl
    simp [Entry.expired, flagged] at gone
  | rewritten _ held => exact absurd held (not_executing settled)

/-- A present entry that is not forgotten by the call decides a reservation. -/
theorem reserve_present {s : IdempotencyStore T} {identity : IdempotencyIdentity} {entry : Entry T}
    (found : s.entries.get? identity = some entry) (keyed : identity.key ≠ "")
    {now : Int} (kept : entry.expired now = false) {leaseTtl : Int} (positive : 0 < leaseTtl)
    (fingerprint : RequestFingerprint) (token : ReservationToken) :
    (s.reserve identity.scope identity.key fingerprint now leaseTtl token).1 = .ok (entry.decide fingerprint) := by
  have present : (s.purgeExpired now).entries.get? identity = some entry := by
    rw [purgeExpired_get?, found]
    simp [Option.filter, kept]
  unfold reserve
  rw [if_neg keyed, if_neg (by omega)]
  simp only [present]

theorem Run.keyed {capacity : Nat} {past : List (Call T × Answer T)} {s : IdempotencyStore T}
    (run : Run capacity past s) {identity : IdempotencyIdentity} {entry : Entry T}
    (found : s.entries.get? identity = some entry) : identity.key ≠ "" := by
  have all : ∀ identity entry, s.entries.get? identity = some entry → identity.key ≠ "" := by
    refine run.state_invariant (P := fun s => ∀ identity entry, s.entries.get? identity = some entry →
      identity.key ≠ "") (by simp [empty]) ?_
    intro _ s call previous _ identity entry found
    have change := s.answer_entry call identity
    rw [found] at change
    generalize before : s.entries.get? identity = old at change
    cases change with
    | same => exact previous identity entry before
    | reserved _ isIdentity keyed _ => exact isIdentity ▸ keyed
    | rewritten _ held => exact previous identity _ before
  exact all identity entry found

/-- From a successful completion on, every reservation of the identity replays
the stored value, or conflicts, while no call looks past the retention; from
a successful uncertainty mark on, every reservation answers with the stored
reason, or conflicts, until a purge with `include_uncertain` removes it. -/
theorem replay_stable_and_uncertainty_kept {capacity : Nat} {past : List (Call T × Answer T)}
    {s : IdempotencyStore T} (run : Run capacity past s) :
    (∀ token value now retentionTtl retainedUntil t,
      s.complete token value now retentionTtl = (.ok (.completed retainedUntil), t) →
      ∃ identity entry, s.executing token now = some (identity, entry) ∧
        ∀ later u, History answer (fun _ _ => HorizonBefore retainedUntil) t later u →
          ∀ fingerprint instant leaseTtl fresh, instant < retainedUntil → 0 < leaseTtl →
            (u.reserve identity.scope identity.key fingerprint instant leaseTtl fresh).1 =
              .ok (if fingerprint = entry.fingerprint then .replay value else .conflict conflictReason)) ∧
    (∀ token reason now retentionTtl retainedUntil t,
      s.markUncertain token reason now retentionTtl = (.ok (.markedUncertain retainedUntil), t) →
      ∃ identity entry, s.executing token now = some (identity, entry) ∧
        ∀ later u, History answer (fun state _ => SparesUncertain identity state) t later u →
          ∀ fingerprint instant leaseTtl fresh, 0 < leaseTtl →
            (u.reserve identity.scope identity.key fingerprint instant leaseTtl fresh).1 =
              .ok (if fingerprint = entry.fingerprint then .uncertain reason else .conflict conflictReason)) := by
  constructor
  · intro token value now retentionTtl retainedUntil t completed
    obtain ⟨identity, entry, held, -, rfl⟩ := complete_completed completed
    have found := Dict.get?_set_self s.entries identity
      { entry with expiresAt := retainedUntil, state := .completed value }
    refine ⟨identity, entry, held, ?_⟩
    intro later u history fingerprint instant leaseTtl fresh early positive
    have kept := history.state_invariant (P := fun u => u.entries.get? identity = some
      { entry with state := .completed value, expiresAt := retainedUntil }) found
      fun _ _ _ present before => completed_kept present rfl before
    have keyed := run.keyed (executing_some.mp held).2.1
    have alive : Entry.expired (T := T) { entry with state := .completed value, expiresAt := retainedUntil } instant = false := by
      simp only [Entry.expired, Bool.and_eq_false_iff, decide_eq_false_iff_not]
      exact Or.inl (by omega)
    rw [reserve_present kept keyed alive positive]
    by_cases same : fingerprint = entry.fingerprint
    · simp [Entry.decide, same]
    · simp [Entry.decide, same, Ne.symm same]
  · intro token reason now retentionTtl retainedUntil t marked
    obtain ⟨stated, identity, entry, held, rfl⟩ := markUncertain_marked marked
    have found := Dict.get?_set_self s.entries identity
      { entry with expiresAt := retainedUntil, state := .uncertain reason }
    refine ⟨identity, entry, held, ?_⟩
    intro later u history fingerprint instant leaseTtl fresh positive
    have kept := history.state_invariant (P := fun u => u.entries.get? identity = some
      { entry with state := .uncertain reason, expiresAt := retainedUntil }) found
      fun _ _ _ present spared => uncertain_kept present rfl spared
    have keyed := run.keyed (executing_some.mp held).2.1
    have alive : Entry.expired (T := T) { entry with state := .uncertain reason, expiresAt := retainedUntil } instant = false := by
      simp [Entry.expired, EntryState.isUncertain]
    rw [reserve_present kept keyed alive positive]
    by_cases same : fingerprint = entry.fingerprint
    · simp [Entry.decide, same, stated]
    · simp [Entry.decide, same, Ne.symm same]

theorem replay_after_one_reservation :
    ∃ (past : List (Call Nat × Answer Nat)) (s t : IdempotencyStore Nat) (token : ReservationToken),
      Run 1 past s ∧ s.complete token 7 1 10 = (.ok (.completed 11), t) ∧
      ∃ identity entry, s.executing token 1 = some (identity, entry) ∧
        ∀ fingerprint, (t.reserve identity.scope identity.key fingerprint 5 5 token).1 =
          .ok (if fingerprint = entry.fingerprint then .replay 7 else .conflict conflictReason) := by
  let scope : IdempotencyScope := ⟨"shop", "customer", "order", by decide⟩
  let token : ReservationToken := ⟨"a", by decide⟩
  obtain ⟨past, s, t, run, completed⟩ : ∃ past s t, Run (T := Nat) 1 past s ∧
      s.complete token 7 1 10 = (.ok (.completed 11), t) := by
    refine ⟨_, _, _, .next (.reserve scope "key" ⟨"f"⟩ 0 5 token) .start ?_, rfl⟩
    simp [FreshToken, issued]
  obtain ⟨identity, entry, held, stable⟩ :=
    (replay_stable_and_uncertainty_kept run).1 token 7 1 10 11 t completed
  exact ⟨past, s, t, token, run, completed, identity, entry, held,
    fun fingerprint => stable [] t .start fingerprint 5 5 token (by decide) (by decide)⟩

end Pytitect.IdempotencyStore
