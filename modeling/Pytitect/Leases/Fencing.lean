import Mathlib.Data.List.Range
import Pytitect.Leases.Store

namespace Pytitect.LeaseStore
variable {R ρ : Type} [DecidableEq R]

/-- Any sequence of calls at any times. -/
abbrev Run (capacity : Nat) : List (Call R ρ × Answer R ρ) → LeaseStore R → Prop :=
  History answer (fun _ _ _ => True) (empty capacity)

/-- The leases issued for a resource, oldest first. -/
def granted (resource : R) (past : List (Call R ρ × Answer R ρ)) : List (Lease R) :=
  (past.filterMap grantedBy).filter (·.resource = resource)

/-- The lease under which one call mutated, if it did. -/
def mutatedBy : Call R ρ × Answer R ρ → Option (Lease R)
  | (.commit lease now mutation, result) => authorisedBy (.commit lease now mutation, result)
  | _ => none

variable {past : List (Call R ρ × Answer R ρ)} {event : Call R ρ × Answer R ρ} {s t : LeaseStore R} {resource : R}
  {lease : Lease R}

theorem granted_unchanged (none : grantedBy event = none) : granted resource (past ++ [event]) = granted resource past := by
  simp [granted, none]

theorem granted_issued (issued : grantedBy event = some lease) :
    granted resource (past ++ [event]) = granted resource past ++ if lease.resource = resource then [lease] else [] := by
  by_cases same : lease.resource = resource <;> simp [granted, issued, same]

/-- The counter of a resource is the number of its leases, whose tokens are
1, 2, 3 and so on. A lease in the store carries the last token, for its owner. -/
structure Fenced (past : List (Call R ρ × Answer R ρ)) (s : LeaseStore R) : Prop where
  counted : ∀ resource, (granted resource past).map (·.fencingToken) = List.range' 1 ((s.tokens.get? resource).getD 0)
  held : ∀ resource lease, s.leases.get? resource = some lease →
    lease.resource = resource ∧ s.tokens.get? resource = some lease.fencingToken ∧
      ∃ grant ∈ granted resource past, grant.fencingToken = lease.fencingToken ∧ grant.owner = lease.owner

namespace Fenced

theorem start (capacity : Nat) : Fenced ([] : List (Call R ρ × Answer R ρ)) (empty capacity) where
  counted := by simp [granted, empty]
  held := by simp [empty]

theorem issue (fenced : Fenced past s) (issued : grantedBy event = some lease)
    (next : lease.fencingToken = s.nextToken lease.resource) :
    Fenced (past ++ [event])
      { s with
        tokens := s.tokens.set lease.resource lease.fencingToken
        leases := s.leases.set lease.resource lease } where
  counted := by
    intro resource
    have before := fenced.counted resource
    rw [granted_issued issued]
    by_cases same : lease.resource = resource
    · subst same
      have last : List.range' 1 (s.nextToken lease.resource) =
          List.range' 1 ((s.tokens.get? lease.resource).getD 0) ++ [s.nextToken lease.resource] := by
        rw [nextToken, List.range'_1_concat, Nat.add_comm]
      simp [before, next, last]
    · simp [same, before, Dict.get?_set_of_ne (Ne.symm same)]
  held := by
    intro resource other found
    rw [granted_issued issued]
    by_cases same : resource = lease.resource
    · subst same
      simp only [Dict.get?_set_self, Option.some.injEq] at found ⊢
      subst found
      exact ⟨rfl, rfl, lease, by simp, rfl, rfl⟩
    · simp only [Dict.get?_set_of_ne same] at found ⊢
      obtain ⟨own, token, grant, member, agrees⟩ := fenced.held resource other found
      exact ⟨own, token, grant, List.mem_append_left _ member, agrees⟩

theorem renewal (fenced : Fenced past s) (none : grantedBy event = none)
    (current : s.leases.get? lease.resource = some lease) (expiresAt : Int) :
    Fenced (past ++ [event]) { s with leases := s.leases.set lease.resource { lease with expiresAt } } where
  counted := by
    intro resource
    rw [granted_unchanged none]
    exact fenced.counted resource
  held := by
    intro resource other found
    rw [granted_unchanged none]
    by_cases same : resource = lease.resource
    · subst same
      simp only [Dict.get?_set_self, Option.some.injEq] at found
      subst found
      exact fenced.held lease.resource lease current
    · simp only [Dict.get?_set_of_ne same] at found
      exact fenced.held resource other found

theorem removal (fenced : Fenced past s) (none : grantedBy event = none) (resource : R) :
    Fenced (past ++ [event]) { s with leases := s.leases.pop resource } where
  counted := by
    intro resource
    rw [granted_unchanged none]
    exact fenced.counted resource
  held := by
    intro other lease found
    rw [granted_unchanged none]
    simp only [Dict.get?_pop] at found
    split at found
    · cases found
    · exact fenced.held other lease found

theorem unchanged (fenced : Fenced past s) (none : grantedBy event = none) : Fenced (past ++ [event]) s where
  counted := by
    intro resource
    rw [granted_unchanged none]
    exact fenced.counted resource
  held := by
    intro resource lease found
    rw [granted_unchanged none]
    exact fenced.held resource lease found

theorem step (fenced : Fenced past s) (step : Step s event t) : Fenced (past ++ [event]) t := by
  cases step with
  | refuses none _ => exact fenced.unchanged none
  | issues lease now ttl next => exact fenced.issue rfl next
  | renews lease now ttl expiresAt current _ => exact fenced.renewal rfl current expiresAt
  | releases lease now _ _ => exact fenced.removal rfl lease.resource
  | mutates lease current now mutation _ _ _ _ => exact fenced.unchanged rfl

/-- A lease is presented with success only while its token is the last of its
resource, and only by the owner it was issued to. -/
theorem authorised (fenced : Fenced past s) (step : Step s event t) (success : authorisedBy event = some lease) :
    s.tokens.get? lease.resource = some lease.fencingToken ∧
      ∃ grant ∈ granted lease.resource past, grant.fencingToken = lease.fencingToken ∧ grant.owner = lease.owner := by
  cases step with
  | refuses _ none => cases none.symm.trans success
  | issues lease now ttl next => cases success
  | renews lease now ttl expiresAt current _ =>
    cases success
    exact (fenced.held _ _ current).2
  | releases lease now current _ =>
    cases success
    exact (fenced.held _ _ current).2
  | mutates presented current now mutation found token owner _ =>
    have mine : presented = lease := by
      cases mutation with
      | ok value => exact Option.some.inj success
      | error error => exact Option.some.inj success
    subst mine
    rw [← token, ← owner]
    exact (fenced.held _ _ found).2

theorem run {capacity : Nat} (history : Run capacity past s) : Fenced past s :=
  history.invariant (start capacity) fun _ s call fenced _ => fenced.step (s.answer_step call)

theorem token_le (fenced : Fenced past s) {token : Nat} (last : s.tokens.get? resource = some token)
    (member : lease ∈ granted resource past) : lease.fencingToken ≤ token := by
  have inRange := List.mem_map_of_mem (f := (·.fencingToken)) member
  rw [fenced.counted resource, last] at inRange
  have bounds := List.mem_range'_1.mp inRange
  simp only [Option.getD_some] at bounds
  omega

/-- A token is issued to one owner. -/
theorem owner_unique (fenced : Fenced past s) {first second : Lease R} (one : first ∈ granted resource past)
    (two : second ∈ granted resource past) (same : first.fencingToken = second.fencingToken) : first = second := by
  have distinct : ((granted resource past).map (·.fencingToken)).Nodup := by
    rw [fenced.counted resource]
    exact List.nodup_range'
  exact List.inj_on_of_nodup_map distinct one two same

end Fenced

theorem granted_mono {later : List (Call R ρ × Answer R ρ)} (member : lease ∈ granted resource past) :
    lease ∈ granted resource (past ++ later) := by
  unfold granted at member ⊢
  rw [List.filterMap_append, List.filter_append]
  exact List.mem_append_left _ member

/-- Whoever presented a lease with success had been issued its token. -/
theorem presented_granted {capacity : Nat} (history : Run capacity past s) (member : event ∈ past)
    (success : authorisedBy event = some lease) :
    ∃ grant ∈ granted lease.resource past, grant.fencingToken = lease.fencingToken ∧ grant.owner = lease.owner := by
  induction history with
  | start => cases member
  | @next past s call run _ ih =>
    rcases List.mem_append.mp member with earlier | last
    · obtain ⟨grant, issued, agrees⟩ := ih earlier
      exact ⟨grant, granted_mono issued, agrees⟩
    · cases List.mem_singleton.mp last
      obtain ⟨-, grant, issued, agrees⟩ := (Fenced.run run).authorised (s.answer_step call) success
      exact ⟨grant, granted_mono issued, agrees⟩

omit [DecidableEq R] in
theorem authorisedBy_of_mutatedBy (mutated : mutatedBy event = some lease) : authorisedBy event = some lease := by
  obtain ⟨call, result⟩ := event
  cases call with
  | commit presented now mutation => exact mutated
  | acquire resource owner now ttl => cases mutated
  | renew presented now ttl => cases mutated
  | release presented now => cases mutated

/-- The tokens of a resource are 1, 2, 3 and so on in the order of issue. Once a
token has been issued, no smaller one of its resource is presented with success,
so the mutations of a resource never go back to an earlier token, and all those
under one token are by one owner. -/
theorem tokens_fence {capacity : Nat} (history : Run capacity past s) :
    (∀ resource, (granted resource past).map (·.fencingToken) = List.range' 1 (granted resource past).length) ∧
    (past.Pairwise fun earlier later => ∀ issued presented, grantedBy earlier = some issued →
      authorisedBy later = some presented → presented.resource = issued.resource →
      issued.fencingToken ≤ presented.fencingToken) ∧
    past.Pairwise fun earlier later => ∀ first second, mutatedBy earlier = some first → mutatedBy later = some second →
      second.resource = first.resource → first.fencingToken ≤ second.fencingToken ∧
        (first.fencingToken = second.fencingToken → first.owner = second.owner) := by
  refine ⟨fun resource => ?_, ?_, ?_⟩
  · have counted := (Fenced.run history).counted resource
    have length : (granted resource past).length = (s.tokens.get? resource).getD 0 := by
      simpa using congrArg List.length counted
    rw [length]
    exact counted
  · refine history.pairwise fun past s call run _ earlier member issued presented grants success same => ?_
    have fenced := Fenced.run run
    obtain ⟨last, -⟩ := fenced.authorised (s.answer_step call) success
    refine fenced.token_le last ?_
    rw [same]
    exact List.mem_filter.mpr ⟨List.mem_filterMap.mpr ⟨earlier, member, grants⟩, by simp⟩
  · refine history.pairwise fun past s call run _ earlier member first second one two same => ?_
    have fenced := Fenced.run run
    obtain ⟨last, grant, issued, token, owner⟩ :=
      fenced.authorised (s.answer_step call) (authorisedBy_of_mutatedBy two)
    obtain ⟨older, issuedBefore, olderToken, olderOwner⟩ :=
      presented_granted run member (authorisedBy_of_mutatedBy one)
    rw [← same] at issuedBefore
    refine ⟨olderToken ▸ fenced.token_le last issuedBefore, fun equal => ?_⟩
    have sameGrant := fenced.owner_unique issuedBefore issued (olderToken.trans (equal.trans token.symm))
    rw [← olderOwner, sameGrant, owner]

/-- A lease for one resource. -/
def sampleLease (owner : String) (named : owner ≠ "") (token : Nat) (expiresAt : Int) : Lease Nat :=
  ⟨0, owner, token + 1, expiresAt, named, Nat.succ_pos _⟩

/-- Owner `b` takes over an expired lease of `a`, which then tries to renew it
and to mutate under it. -/
def takeover : List (Call Nat Unit) :=
  [.acquire 0 "a" 0 5, .acquire 0 "b" 5 5, .renew (sampleLease "a" Sample.a_named 0 5) 1 5,
    .commit (sampleLease "a" Sample.a_named 0 5) 6 (.ok ()), .commit (sampleLease "b" Sample.b_named 1 10) 6 (.ok ())]

theorem takeover_fenced :
    ∃ (past : List (Call Nat Unit × Answer Nat Unit)) (s : LeaseStore Nat), Run 4 past s ∧
      (granted 0 past).map (·.fencingToken) = [1, 2] ∧ (past.filterMap authorisedBy).map (·.owner) = ["b"] ∧
      past.Pairwise fun earlier later => ∀ issued presented, grantedBy earlier = some issued →
        authorisedBy later = some presented → presented.resource = issued.resource →
        issued.fencingToken ≤ presented.fencingToken := by
  have run : Run 4 (History.transcript answer (empty 4) takeover) (History.after answer (empty 4) takeover) :=
    History.ofInputs (by simp [History.Permitted, takeover])
  exact ⟨_, _, run, by decide, by decide, (tokens_fence run).2.1⟩

end Pytitect.LeaseStore
