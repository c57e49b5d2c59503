import Pytitect.Idempotency.Store
import Pytitect.Lib.History

namespace Pytitect

@[simp] theorem EntryState.isReserved_iff {T : Type} {state : EntryState T} :
    state.isReserved = true ↔ state = .reserved := by
  cases state <;> simp [EntryState.isReserved]

namespace IdempotencyStore
variable {T : Type}

@[simp] theorem remove_capacity (s : IdempotencyStore T) (selected : List (IdempotencyIdentity × Entry T)) :
    (s.remove selected).capacity = s.capacity := rfl

@[simp] theorem purgeExpired_capacity (s : IdempotencyStore T) (now : Int) :
    (s.purgeExpired now).capacity = s.capacity := rfl

theorem remove_size_le (s : IdempotencyStore T) (selected : List (IdempotencyIdentity × Entry T)) :
    (s.remove selected).entries.size ≤ s.entries.size :=
  s.entries.size_popAll_le _

theorem remove_get? (s : IdempotencyStore T) (selected : List (IdempotencyIdentity × Entry T)) (identity : IdempotencyIdentity) :
    (s.remove selected).entries.get? identity =
      if identity ∈ selected.map Prod.fst then none else s.entries.get? identity :=
  s.entries.get?_popAll _ _

/-- Implicit clean-up drops exactly the expired entries that are not uncertain. -/
theorem purgeExpired_get? (s : IdempotencyStore T) (now : Int) (identity : IdempotencyIdentity) :
    (s.purgeExpired now).entries.get? identity =
      (s.entries.get? identity).filter (fun entry => !entry.expired now) := by
  rw [purgeExpired, remove_get?]
  cases found : s.entries.get? identity with
  | none => simp
  | some entry =>
    have selected : identity ∈ (s.entries.items.filter (fun item => item.2.expired now)).map Prod.fst ↔
        entry.expired now = true := by
      simp only [List.mem_map, List.mem_filter, Prod.exists, exists_and_right, exists_eq_right]
      constructor
      · rintro ⟨other, member, gone⟩
        rw [Dict.mem_items, found] at member
        cases member
        exact gone
      · intro gone
        exact ⟨entry, Dict.mem_items.mpr found, gone⟩
    by_cases gone : entry.expired now = true
    · simp [selected, gone, Option.filter]
    · simp [selected, gone, Option.filter]

theorem executing_some {s : IdempotencyStore T} {token : ReservationToken} {now : Int}
    {identity : IdempotencyIdentity} {entry : Entry T} :
    s.executing token now = some (identity, entry) ↔
      s.tokens.get? token = some identity ∧ s.entries.get? identity = some entry ∧
        entry.token = token ∧ entry.state = .reserved ∧ now < entry.expiresAt := by
  unfold executing
  cases atToken : s.tokens.get? token with
  | none => simp
  | some owner =>
    simp only [Option.some.injEq]
    cases atOwner : s.entries.get? owner with
    | none =>
      simp only [reduceCtorEq, false_iff]
      rintro ⟨rfl, found, -⟩
      simp [atOwner] at found
    | some current =>
      dsimp only
      constructor
      · intro granted
        split at granted
        · cases granted
        · rename_i authority
          have held : current.token = token ∧ current.state = .reserved ∧ now < current.expiresAt := by
            simpa only [not_or, not_not, not_le, EntryState.isReserved_iff] using authority
          cases granted
          exact ⟨rfl, atOwner, held⟩
      · rintro ⟨rfl, found, sameToken, reserved, alive⟩
        have same : current = entry := Option.some.inj (atOwner.symm.trans found)
        subst current
        rw [if_neg]
        simp only [not_or, not_not, not_le, EntryState.isReserved_iff]
        exact ⟨sameToken, reserved, alive⟩

/-- One call of the store, with everything the caller passes. A `reserve`
also carries the token that `uuid4` would supply to it. -/
inductive Call (T : Type)
  | reserve (scope : IdempotencyScope) (key : String) (fingerprint : RequestFingerprint) (now : Int)
      (leaseTtl : Int) (token : ReservationToken)
  | renew (token : ReservationToken) (now : Int) (leaseTtl : Int)
  | complete (token : ReservationToken) (value : T) (now : Int) (retentionTtl : Int)
  | markUncertain (token : ReservationToken) (reason : String) (now : Int) (retentionTtl : Int)
  | abandon (token : ReservationToken) (now : Int)
  | purge (plan : PurgeIdempotencyPlan)

inductive Answer (T : Type)
  | decision (result : Except PyError (IdempotencyDecision T))
  | renewal (result : Except PyError RenewReservationResult)
  | completion (result : Except PyError CompleteReservationResult)
  | marking (result : Except PyError MarkUncertainResult)
  | abandonment (result : Except PyError AbandonReservationResult)
  | summary (result : MaintenanceSummary)
  deriving DecidableEq

def answer (s : IdempotencyStore T) : Call T → Answer T × IdempotencyStore T
  | .reserve scope key fingerprint now leaseTtl token =>
    ((s.reserve scope key fingerprint now leaseTtl token).map .decision id)
  | .renew token now leaseTtl => (s.renew token now leaseTtl).map .renewal id
  | .complete token value now retentionTtl => (s.complete token value now retentionTtl).map .completion id
  | .markUncertain token reason now retentionTtl =>
    (s.markUncertain token reason now retentionTtl).map .marking id
  | .abandon token now => (s.abandon token now).map .abandonment id
  | .purge plan => (s.purge plan).map .summary id

/-- The token a call presents as its authority. -/
def Call.presented : Call T → Option ReservationToken
  | .renew token _ _ => some token
  | .complete token _ _ _ => some token
  | .markUncertain token _ _ _ => some token
  | .abandon token _ => some token
  | .reserve .. => none
  | .purge _ => none

/-- The instant up to which a call forgets what has expired. -/
def Call.horizon : Call T → Option Int
  | .reserve _ _ _ now _ _ => some now
  | .purge plan => some plan.cutoff
  | _ => none

/-- The call may remove uncertain entries. -/
def Call.dropsUncertain : Call T → Bool
  | .purge plan => plan.includeUncertain
  | _ => false

/-- Whether a call that presents a token has been granted what it asked for. -/
def Answer.granted : Answer T → Bool
  | .renewal (.ok (.renewed _)) => true
  | .completion (.ok (.completed _)) => true
  | .marking (.ok (.markedUncertain _)) => true
  | .abandonment (.ok .abandoned) => true
  | _ => false

/-- What one call can do to the entry of one identity, guards included. -/
inductive EntryChange (call : Call T) (s : IdempotencyStore T) (identity : IdempotencyIdentity) :
    Option (Entry T) → Option (Entry T) → Prop
  | same {entry} : EntryChange call s identity entry entry
  | forgotten {entry horizon} : call.horizon = some horizon → entry.expiresAt ≤ horizon →
      (entry.state.isUncertain = true → call.dropsUncertain = true) →
      EntryChange call s identity (some entry) none
  | released {entry token now} : call.presented = some token → s.executing token now = some (identity, entry) →
      EntryChange call s identity (some entry) none
  | reserved {before key scope fingerprint now leaseTtl token expiresAt} :
      call = .reserve scope key fingerprint now leaseTtl token → identity = ⟨scope, key⟩ → key ≠ "" →
      (∀ entry, before = some entry → entry.expired now = true) →
      EntryChange call s identity before (some ⟨token, fingerprint, expiresAt, .reserved⟩)
  | rewritten {entry token now expiresAt state} : call.presented = some token →
      s.executing token now = some (identity, entry) →
      EntryChange call s identity (some entry) (some { entry with expiresAt, state })

/-- Every way a reservation can end, with the state it leaves behind. -/
theorem reserve_cases (s : IdempotencyStore T) (scope : IdempotencyScope) (key : String)
    (fingerprint : RequestFingerprint) (now : Int) (leaseTtl : Int) (token : ReservationToken) :
    (∃ error, s.reserve scope key fingerprint now leaseTtl token = (.error error, s)) ∨
    (∃ error, s.reserve scope key fingerprint now leaseTtl token = (.error error, s.purgeExpired now)) ∨
    (∃ current, (s.purgeExpired now).entries.get? ⟨scope, key⟩ = some current ∧
      s.reserve scope key fingerprint now leaseTtl token =
        (.ok (current.decide fingerprint),
          { s.purgeExpired now with entries := (s.purgeExpired now).entries.moveToEnd ⟨scope, key⟩ })) ∨
    (∃ reason, s.reserve scope key fingerprint now leaseTtl token =
      (.ok (.uncertain reason), s.purgeExpired now)) ∨
    (∃ expiresAt, key ≠ "" ∧ (s.purgeExpired now).entries.get? ⟨scope, key⟩ = none ∧
      (s.purgeExpired now).entries.size < s.capacity ∧
      s.reserve scope key fingerprint now leaseTtl token =
        (.ok (.execute token),
          { s.purgeExpired now with
            entries := (s.purgeExpired now).entries.set ⟨scope, key⟩ ⟨token, fingerprint, expiresAt, .reserved⟩
            tokens := (s.purgeExpired now).tokens.set token ⟨scope, key⟩ })) := by
  unfold reserve
  split
  · exact Or.inl ⟨_, rfl⟩
  rename_i keyed
  split
  · exact Or.inl ⟨_, rfl⟩
  dsimp only
  split
  · rename_i current found
    exact Or.inr (Or.inr (Or.inl ⟨current, found, rfl⟩))
  · rename_i absent
    split
    · exact Or.inr (Or.inr (Or.inr (Or.inl ⟨_, rfl⟩)))
    · rename_i room
      split
      · exact Or.inr (Or.inl ⟨_, rfl⟩)
      · rename_i expiresAt fits
        exact Or.inr (Or.inr (Or.inr (Or.inr ⟨expiresAt, keyed, absent, Nat.lt_of_not_le room, rfl⟩)))

/-- Settling an entry is refused without a trace, or rewrites the state and
the expiry of the entry the token owns. -/
theorem updateExecuting_cases {R : Type} (s : IdempotencyStore T) (token : ReservationToken) (now : Int)
    (stale : R) (state : Entry T → EntryState T) (expiry : Except PyError Int) (result : Int → R) :
    s.updateExecuting token now stale (fun entry =>
        Entry.expireAt { entry with state := state entry } expiry result) = (.ok stale, s) ∨
    ∃ identity entry expiresAt, s.executing token now = some (identity, entry) ∧
      (s.updateExecuting token now stale (fun entry =>
        Entry.expireAt { entry with state := state entry } expiry result)).2 =
        { s with entries := s.entries.set identity { entry with expiresAt, state := state entry } } := by
  unfold updateExecuting
  cases held : s.executing token now with
  | none => exact Or.inl rfl
  | some found =>
    obtain ⟨identity, entry⟩ := found
    cases expiry with
    | error error => exact Or.inr ⟨identity, entry, entry.expiresAt, rfl, rfl⟩
    | ok expiresAt => exact Or.inr ⟨identity, entry, expiresAt, rfl, rfl⟩

/-- Settling an entry with any other answer than the stale one needs authority
over it, and then rewrites the state and the expiry of that entry alone. -/
theorem updateExecuting_settled {R : Type} {s t : IdempotencyStore T} {token : ReservationToken} {now : Int}
    {stale answer : R} (state : Entry T → EntryState T) {expiry : Except PyError Int} {result : Int → R}
    (run : s.updateExecuting token now stale (fun entry =>
      Entry.expireAt { entry with state := state entry } expiry result) = (.ok answer, t)) (fresh : answer ≠ stale) :
    ∃ identity entry expiresAt, s.executing token now = some (identity, entry) ∧ expiry = .ok expiresAt ∧
      answer = result expiresAt ∧
      t = { s with entries := s.entries.set identity { entry with expiresAt, state := state entry } } := by
  unfold updateExecuting at run
  cases held : s.executing token now with
  | none =>
    simp only [held, Prod.mk.injEq, Except.ok.injEq] at run
    exact absurd run.1.symm fresh
  | some found =>
    cases expiry with
    | error error =>
      simp only [held, Entry.expireAt] at run
      cases congrArg Prod.fst run
    | ok expiresAt =>
      simp only [held, Entry.expireAt, Prod.mk.injEq, Except.ok.injEq] at run
      exact ⟨found.1, found.2, expiresAt, rfl, rfl, run.1.symm, run.2.symm⟩

theorem renew_renewed {s t : IdempotencyStore T} {token : ReservationToken} {now leaseTtl expiresAt : Int}
    (run : s.renew token now leaseTtl = (.ok (.renewed expiresAt), t)) :
    ∃ identity entry, s.executing token now = some (identity, entry) ∧ expiresAt = now + leaseTtl ∧
      t = { s with entries := s.entries.set identity { entry with expiresAt } } := by
  unfold renew at run
  split at run
  · cases congrArg Prod.fst run
  obtain ⟨identity, entry, instant, held, expiry, same, rfl⟩ :=
    updateExecuting_settled Entry.state run (by simp)
  cases same
  exact ⟨identity, entry, held, datetimeAdd_ok expiry, rfl⟩

theorem complete_completed {s t : IdempotencyStore T} {token : ReservationToken} {value : T}
    {now retentionTtl retainedUntil : Int}
    (run : s.complete token value now retentionTtl = (.ok (.completed retainedUntil), t)) :
    ∃ identity entry, s.executing token now = some (identity, entry) ∧ retainedUntil = now + retentionTtl ∧
      t = { s with
        entries := s.entries.set identity { entry with expiresAt := retainedUntil, state := .completed value } } := by
  unfold complete at run
  split at run
  · cases congrArg Prod.fst run
  obtain ⟨identity, entry, instant, held, expiry, same, rfl⟩ :=
    updateExecuting_settled (fun _ => .completed value) run (by simp)
  cases same
  exact ⟨identity, entry, held, datetimeAdd_ok expiry, rfl⟩

theorem markUncertain_marked {s t : IdempotencyStore T} {token : ReservationToken} {reason : String}
    {now retentionTtl retainedUntil : Int}
    (run : s.markUncertain token reason now retentionTtl = (.ok (.markedUncertain retainedUntil), t)) :
    reason ≠ "" ∧ ∃ identity entry, s.executing token now = some (identity, entry) ∧
      t = { s with
        entries := s.entries.set identity { entry with expiresAt := retainedUntil, state := .uncertain reason } } := by
  unfold markUncertain at run
  split at run
  · cases congrArg Prod.fst run
  rename_i stated
  split at run
  · cases congrArg Prod.fst run
  obtain ⟨identity, entry, instant, held, -, same, rfl⟩ :=
    updateExecuting_settled (fun _ => .uncertain reason) run (by simp)
  cases same
  exact ⟨stated, identity, entry, held, rfl⟩

/-- A call that presents a token is refused and changes nothing, or the token
is authoritative and the call rewrites or drops exactly the entry it owns. -/
theorem presented_cases (s : IdempotencyStore T) {call : Call T} {token : ReservationToken}
    (presents : call.presented = some token) :
    ((s.answer call).2 = s ∧ (s.answer call).1.granted = false) ∨
    ∃ now identity entry, s.executing token now = some (identity, entry) ∧
      ((∃ expiresAt state, (s.answer call).2 =
          { s with entries := s.entries.set identity { entry with expiresAt, state } }) ∨
        (s.answer call).2 = { s with entries := s.entries.pop identity, tokens := s.tokens.pop token }) := by
  cases call with
  | reserve => cases presents
  | purge => cases presents
  | renew given now leaseTtl =>
    cases presents
    simp only [answer, renew]
    split
    · exact Or.inl ⟨rfl, rfl⟩
    · rcases s.updateExecuting_cases token now (.stale staleReason) Entry.state (datetimeAdd now leaseTtl)
        RenewReservationResult.renewed with refused | ⟨identity, entry, expiresAt, held, run⟩
      · rw [refused]
        exact Or.inl ⟨rfl, rfl⟩
      · exact Or.inr ⟨now, identity, entry, held, Or.inl ⟨expiresAt, _, run⟩⟩
  | complete given value now retentionTtl =>
    cases presents
    simp only [answer, complete]
    split
    · exact Or.inl ⟨rfl, rfl⟩
    · rcases s.updateExecuting_cases token now (.stale staleReason) (fun _ => .completed value)
        (datetimeAdd now retentionTtl) CompleteReservationResult.completed with
        refused | ⟨identity, entry, expiresAt, held, run⟩
      · rw [refused]
        exact Or.inl ⟨rfl, rfl⟩
      · exact Or.inr ⟨now, identity, entry, held, Or.inl ⟨expiresAt, _, run⟩⟩
  | markUncertain given reason now retentionTtl =>
    cases presents
    simp only [answer, markUncertain]
    split
    · exact Or.inl ⟨rfl, rfl⟩
    split
    · exact Or.inl ⟨rfl, rfl⟩
    · rcases s.updateExecuting_cases token now (.stale staleReason) (fun _ => .uncertain reason)
        (datetimeAdd now retentionTtl) MarkUncertainResult.markedUncertain with
        refused | ⟨identity, entry, expiresAt, held, run⟩
      · rw [refused]
        exact Or.inl ⟨rfl, rfl⟩
      · exact Or.inr ⟨now, identity, entry, held, Or.inl ⟨expiresAt, _, run⟩⟩
  | abandon given now =>
    cases presents
    simp only [answer, abandon]
    cases held : s.executing token now with
    | none => exact Or.inl ⟨rfl, rfl⟩
    | some found => exact Or.inr ⟨now, found.1, found.2, held, Or.inr rfl⟩

theorem purge_cases (s : IdempotencyStore T) (plan : PurgeIdempotencyPlan) :
    (s.purge plan).2 = s ∨ ∃ selected, (s.purge plan).2 = s.remove selected ∧
      ∀ item ∈ selected, item ∈ s.entries.items ∧ item.2.purgeable plan = true := by
  unfold purge
  dsimp only
  split
  · exact Or.inl rfl
  · refine Or.inr ⟨_, rfl, ?_⟩
    intro item member
    have eligible := List.mem_of_mem_firstBy member
    simpa only [List.mem_filter] using eligible

theorem answer_capacity (s : IdempotencyStore T) (call : Call T) : (s.answer call).2.capacity = s.capacity := by
  cases presents : call.presented with
  | some token =>
    rcases s.presented_cases presents with ⟨same, -⟩ | ⟨_, _, _, _, ⟨_, _, run⟩ | run⟩
    · rw [same]
    · rw [run]
    · rw [run]
  | none =>
    cases call with
    | renew => cases presents
    | complete => cases presents
    | markUncertain => cases presents
    | abandon => cases presents
    | purge plan =>
      simp only [answer, Prod.map_snd, id_eq]
      rcases s.purge_cases plan with same | ⟨selected, run, -⟩
      · rw [same]
      · rw [run, remove_capacity]
    | reserve scope key fingerprint now leaseTtl token =>
      simp only [answer, Prod.map_snd, id_eq]
      rcases s.reserve_cases scope key fingerprint now leaseTtl token with
        ⟨_, run⟩ | ⟨_, run⟩ | ⟨_, _, run⟩ | ⟨_, run⟩ | ⟨_, _, _, _, run⟩ <;> rw [run] <;> rfl

/-- A call that presents a token reaches the entry the token owns, and no other. -/
theorem presented_entry (s : IdempotencyStore T) {call : Call T} {token : ReservationToken}
    (presents : call.presented = some token) (identity : IdempotencyIdentity) :
    EntryChange call s identity (s.entries.get? identity) ((s.answer call).2.entries.get? identity) := by
  rcases s.presented_cases presents with ⟨same, -⟩ | ⟨now, owner, entry, held, change⟩
  · rw [same]
    exact .same
  · have atOwner := (executing_some.mp held).2.1
    by_cases mine : identity = owner
    · subst owner
      rw [atOwner]
      rcases change with ⟨expiresAt, state, run⟩ | run
      · rw [run]
        simpa using EntryChange.rewritten presents held
      · rw [run]
        simpa using EntryChange.released presents held
    · rcases change with ⟨expiresAt, state, run⟩ | run
      · rw [run, Dict.get?_set_of_ne mine]
        exact .same
      · rw [run]
        simpa [mine] using EntryChange.same

theorem purge_entry (s : IdempotencyStore T) (plan : PurgeIdempotencyPlan) (identity : IdempotencyIdentity) :
    EntryChange (.purge plan) s identity (s.entries.get? identity) ((s.purge plan).2.entries.get? identity) := by
  rcases s.purge_cases plan with same | ⟨selected, run, eligible⟩
  · rw [same]
    exact .same
  · rw [run, remove_get?]
    split
    · rename_i member
      obtain ⟨⟨owner, entry⟩, chosen, same⟩ := List.mem_map.mp member
      change owner = identity at same
      subst owner
      obtain ⟨stored, gone⟩ := eligible _ chosen
      rw [Dict.mem_items.mp stored]
      simp only [Entry.purgeable, Bool.and_eq_true, decide_eq_true_eq, Bool.or_eq_true] at gone
      refine .forgotten rfl gone.1 ?_
      intro uncertain
      rcases gone.2 with certain | included
      · simp [uncertain] at certain
      · exact included
    · exact .same

/-- The clean-up before a reservation forgets an expired entry or leaves it. -/
theorem purgeExpired_entry (s : IdempotencyStore T) {call : Call T} {now : Int} (horizon : call.horizon = some now)
    (identity : IdempotencyIdentity) :
    EntryChange call s identity (s.entries.get? identity) ((s.purgeExpired now).entries.get? identity) := by
  rw [purgeExpired_get?]
  cases found : s.entries.get? identity with
  | none => exact .same
  | some entry =>
    by_cases gone : entry.expired now = true
    · have dropped : (some entry).filter (fun entry => !entry.expired now) = none := by
        simp [Option.filter, gone]
      rw [dropped]
      simp only [Entry.expired, Bool.and_eq_true, decide_eq_true_eq] at gone
      exact .forgotten horizon gone.1 (fun uncertain => by simp [uncertain] at gone)
    · have kept : (some entry).filter (fun entry => !entry.expired now) = some entry := by
        simp [Option.filter, gone]
      rw [kept]
      exact .same

theorem reserve_entry (s : IdempotencyStore T) (scope : IdempotencyScope) (key : String) (fingerprint : RequestFingerprint)
    (now leaseTtl : Int) (token : ReservationToken) (identity : IdempotencyIdentity) :
    EntryChange (.reserve scope key fingerprint now leaseTtl token) s identity (s.entries.get? identity)
      ((s.reserve scope key fingerprint now leaseTtl token).2.entries.get? identity) := by
  have purged : EntryChange (.reserve scope key fingerprint now leaseTtl token) s identity (s.entries.get? identity)
      ((s.purgeExpired now).entries.get? identity) := s.purgeExpired_entry rfl identity
  rcases s.reserve_cases scope key fingerprint now leaseTtl token with
    ⟨_, run⟩ | ⟨_, run⟩ | ⟨current, found, run⟩ | ⟨_, run⟩ | ⟨expiresAt, keyed, absent, room, run⟩
  · rw [run]
    exact .same
  · rw [run]
    exact purged
  · rw [run]
    simpa using purged
  · rw [run]
    exact purged
  · rw [run]
    by_cases mine : identity = ⟨scope, key⟩
    · subst mine
      simp only [Dict.get?_set_self]
      refine .reserved rfl rfl keyed ?_
      intro entry found
      rw [purgeExpired_get?, found] at absent
      by_contra alive
      simp [Option.filter, alive] at absent
    · rw [Dict.get?_set_of_ne mine]
      exact purged

/-- The one inversion lemma for entries: whatever is called, the entry of an
identity changes in one of the ways listed by `EntryChange`. -/
theorem answer_entry (s : IdempotencyStore T) (call : Call T) (identity : IdempotencyIdentity) :
    EntryChange call s identity (s.entries.get? identity) ((s.answer call).2.entries.get? identity) := by
  cases call with
  | reserve scope key fingerprint now leaseTtl token =>
    exact s.reserve_entry scope key fingerprint now leaseTtl token identity
  | renew => exact s.presented_entry rfl identity
  | complete => exact s.presented_entry rfl identity
  | markUncertain => exact s.presented_entry rfl identity
  | abandon => exact s.presented_entry rfl identity
  | purge plan => exact s.purge_entry plan identity

end IdempotencyStore

end Pytitect
