import Pytitect.Batches.Durability

namespace Pytitect.MutationBatchStore
variable {R : Type}

/-- The lease that one call issued. -/
def issuedBy : Call R × Answer R → Option (MutationBatchLease R)
  | (_, .begun (.ok (.lease lease))) => some lease
  | (_, .renewal (.ok (.renewed lease))) => some lease
  | (_, .progress (.ok (.progressed lease))) => some lease
  | _ => none

def issued (past : List (Call R × Answer R)) : List (MutationBatchLease R) := past.filterMap issuedBy

/-- The leases issued for one batch, oldest first. -/
def issuedFor (identity : BatchIdentity) (issues : List (MutationBatchLease R)) : List (MutationBatchLease R) :=
  issues.filter (·.identity = identity)

/-- `uuid4` supplied the token to some call. -/
def Drawn (past : List (Call R × Answer R)) (token : Uuid) : Prop :=
  ∃ event ∈ past, ∃ identity fingerprint totalItems now leaseTtl,
    event.1 = .begin identity fingerprint totalItems now leaseTtl token

/-- `uuid4` supplies no token twice, and the other calls present issued leases. -/
structure Fresh (past : List (Call R × Answer R)) (call : Call R) : Prop where
  supply : ∀ identity fingerprint totalItems now leaseTtl token,
    call = .begin identity fingerprint totalItems now leaseTtl token → ¬Drawn past token
  issued : ∀ lease, call.presented = some lease → lease ∈ issued past

/-- The batch is begun anew. -/
def begunBy (identity : BatchIdentity) : Call R × Answer R → Bool
  | (_, .begun (.ok (.lease lease))) => lease.identity = identity && !lease.resumed
  | _ => false

/-- An advance was not refused: when its new expiry overflows, the receipt is
already recorded. -/
def recorded : Except PyError (MutationBatchAdvanceResult R) → Bool
  | .ok (.progressed _) => true
  | .error (.overflowError _) => true
  | _ => false

/-- The receipt that one call recorded for the batch. -/
def recordedBy (identity : BatchIdentity) : Call R × Answer R → List (BatchItemReceipt R)
  | (.advance lease receipt _ _, .progress result) => if lease.identity = identity ∧ recorded result then [receipt] else []
  | _ => []

/-- The receipts recorded since the batch was begun, oldest first. -/
def advanced (identity : BatchIdentity) (past : List (Call R × Answer R)) : List (BatchItemReceipt R) :=
  past.foldl (fun receipts event => if begunBy identity event then [] else receipts ++ recordedBy identity event) []

/-- A purge that may drop what is uncertain. -/
def forgets : Call R → Bool
  | .purge plan => plan.includeUncertain
  | _ => false

variable [DecidableEq R]

/-- Any calls at any times, with fresh tokens and issued leases. -/
abbrev Run (capacity : Nat) : List (Call R × Answer R) → MutationBatchStore R → Prop :=
  History answer (fun _ => Fresh) (empty capacity)

variable {s : MutationBatchStore R} {past : List (Call R × Answer R)}

/-- A refused call: stale, or with arguments that are not valid. -/
def refused : Answer R → Bool
  | .renewal (.ok (.stale _)) => true
  | .progress (.ok (.stale _)) => true
  | .completion (.ok (.stale _)) => true
  | .marking (.ok (.stale _)) => true
  | .renewal (.error (.valueError _)) => true
  | .progress (.error (.valueError _)) => true
  | .completion (.error (.valueError _)) => true
  | .marking (.error (.valueError _)) => true
  | _ => false

/-- How the batch of a presented lease moves. -/
structure Moved (lease : MutationBatchLease R) (event : Call R × Answer R) (current next : StoredBatch R) : Prop where
  token : next.token = current.token
  total : next.totalItems = current.totalItems
  receipts : next.receipts = current.receipts ++ recordedBy lease.identity event
  index : next.nextIndex = current.nextIndex + (recordedBy lease.identity event).length
  room : recordedBy lease.identity event ≠ [] → current.nextIndex < current.totalItems
  state : next.state.executing = true → next.nextIndex = current.nextIndex → next.state = current.state
  completed : next.state = .completed → next.nextIndex = next.totalItems
  issues : ∀ made, issuedBy event = some made → next.lease lease.identity lease.resumed = .ok made
  silent : ∀ made, next.lease lease.identity lease.resumed = .ok made → issuedBy event = none → current.nextIndex < next.nextIndex

/-- What a call that presents a lease can do: nothing, or move the batch of a lease
that is current. -/
inductive Presents (s : MutationBatchStore R) (call : Call R) (lease : MutationBatchLease R) :
    Answer R → MutationBatchStore R → Prop
  | idle {answer : Answer R} : (∀ identity, recordedBy identity (call, answer) = []) → issuedBy (call, answer) = none →
      Presents s call lease answer s
  | moved {answer : Answer R} (now : Int) (current next : StoredBatch R) (tokens : Dict Uuid BatchIdentity) :
      s.active lease now = some current → Moved lease (call, answer) current next →
      Presents s call lease answer { s.write lease.identity next with tokens }

omit [DecidableEq R] in
theorem lease_executing {stored : StoredBatch R} {identity : BatchIdentity} {resumed : Bool} {lease : MutationBatchLease R}
    (made : stored.lease identity resumed = .ok lease) : stored.state.executing = true := by
  have state := (lease_ok made).2.2.1
  rw [← state]
  exact lease.executing

/-- A stored batch whose progress and receipts agree. -/
structure Proper (identity : BatchIdentity) (stored : StoredBatch R) : Prop where
  named : identity.ns ≠ "" ∧ identity.batchId ≠ ""
  agree : stored.nextIndex = stored.receipts.length
  bound : stored.nextIndex ≤ stored.totalItems
  completed : stored.state = .completed → stored.nextIndex = stored.totalItems

def WellFormed (s : MutationBatchStore R) : Prop :=
  ∀ identity stored, s.entries.get? identity = some stored → Proper identity stored

theorem active_running {lease : MutationBatchLease R} {now : Int} {current : StoredBatch R}
    (held : s.active lease now = some current) : current.state ≠ .completed ∧ current.state ≠ .uncertain := by
  obtain ⟨-, -, -, executing, -⟩ := active_some.mp held
  constructor
  · rintro same
    simp [same, MutationBatchState.executing] at executing
  · rintro same
    simp [same, MutationBatchState.executing] at executing

theorem datetimeAdd_error {instant duration : Int} {error : PyError} (raised : datetimeAdd instant duration = .error error) :
    ∃ message, error = .overflowError message := by
  unfold datetimeAdd datetimeCheck at raised
  split at raised
  · cases raised
  · cases raised
    exact ⟨_, rfl⟩

theorem renew_presents (proper : WellFormed s) (lease : MutationBatchLease R) (now leaseTtl : Int) :
    Presents s (.renew lease now leaseTtl) lease (.renewal (s.renew lease now leaseTtl).1) (s.renew lease now leaseTtl).2 := by
  unfold renew
  split
  · exact .idle (fun _ => rfl) rfl
  split
  · exact .idle (fun _ => rfl) rfl
  rename_i current held
  split
  · exact .idle (fun _ => rfl) rfl
  rename_i expiresAt _
  obtain ⟨-, found, -, executing, -⟩ := active_some.mp held
  have fits := proper _ _ found
  obtain ⟨made, built⟩ : ∃ made, StoredBatch.lease { current with leaseExpiresAt := expiresAt } lease.identity lease.resumed = .ok made :=
    lease_made fits.named executing fits.bound fits.agree
  have running := active_running held
  dsimp only
  rw [built]
  refine .moved now current { current with leaseExpiresAt := expiresAt } s.tokens held ?_
  refine ⟨rfl, rfl, by simp [recordedBy], rfl, by simp [recordedBy], fun _ _ => rfl, fun ended => absurd ended running.1, ?_, ?_⟩
  · intro other isIssued
    cases isIssued
    exact built
  · intro other _ none
    cases none

theorem advance_presents (proper : WellFormed s) (lease : MutationBatchLease R) (receipt : BatchItemReceipt R)
    (now leaseTtl : Int) :
    Presents s (.advance lease receipt now leaseTtl) lease (.progress (s.advance lease receipt now leaseTtl).1)
      (s.advance lease receipt now leaseTtl).2 := by
  unfold advance
  split
  · exact .idle (fun _ => by simp [recordedBy, recorded]) rfl
  split
  · exact .idle (fun _ => by simp [recordedBy, recorded]) rfl
  rename_i current held
  split
  · exact .idle (fun _ => by simp [recordedBy, recorded]) rfl
  rename_i room
  dsimp only
  split
  · rename_i error overflow
    obtain ⟨message, rfl⟩ := datetimeAdd_error overflow
    refine .moved now current _ s.tokens held ?_
    refine ⟨rfl, rfl, by simp [recordedBy, recorded], by simp [recordedBy, recorded], fun _ => by omega, ?_, by simp, ?_, ?_⟩
    · intro _ same
      simp at same
    · intro made isIssued
      cases isIssued
    · intro made built _
      exact Nat.lt_succ_self _
  · rename_i expiresAt _
    obtain ⟨-, found, -, executing, -⟩ := active_some.mp held
    have fits := proper _ _ found
    obtain ⟨made, built⟩ : ∃ made, StoredBatch.lease { current with
        receipts := current.receipts ++ [receipt]
        nextIndex := current.nextIndex + 1
        state := .partiallyCommitted
        leaseExpiresAt := expiresAt } lease.identity lease.resumed = .ok made :=
      lease_made fits.named rfl (by dsimp only; omega) (by simp [fits.agree])
    rw [built]
    refine .moved now current _ s.tokens held ?_
    refine ⟨rfl, rfl, by simp [recordedBy, recorded, Except.map], by simp [recordedBy, recorded, Except.map], fun _ => by omega,
      ?_, by simp, ?_, ?_⟩
    · intro _ same
      simp at same
    · intro other isIssued
      cases isIssued
      exact built
    · intro other _ none
      cases none

omit [DecidableEq R] in
/-- A batch that ends keeps its progress. -/
theorem Moved.ended {lease : MutationBatchLease R} {event : Call R × Answer R} {current next : StoredBatch R}
    (nothing : recordedBy lease.identity event = []) (silent : issuedBy event = none)
    (kept : next = { current with
      state := next.state, retentionExpiresAt := next.retentionExpiresAt, uncertaintyReason := next.uncertaintyReason })
    (terminal : next.state.executing = false) (full : next.state = .completed → current.nextIndex = current.totalItems) :
    Moved lease event current next where
  token := by rw [kept]
  total := by rw [kept]
  receipts := by rw [nothing, kept, List.append_nil]
  index := by rw [nothing, kept, List.length_nil, Nat.add_zero]
  room := fun some => absurd nothing some
  state := by
    intro executing
    rw [terminal] at executing
    cases executing
  completed := by
    intro done
    rw [kept]
    exact full done
  issues := by
    intro made some
    rw [silent] at some
    cases some
  silent := by
    intro made built
    rw [lease_executing built] at terminal
    cases terminal

theorem complete_presents (s : MutationBatchStore R) (lease : MutationBatchLease R) (now retentionTtl : Int) :
    Presents s (.complete lease now retentionTtl) lease (.completion (s.complete lease now retentionTtl).1)
      (s.complete lease now retentionTtl).2 := by
  unfold complete
  split
  · exact .idle (fun _ => rfl) rfl
  split
  · exact .idle (fun _ => rfl) rfl
  rename_i current held
  split
  · exact .idle (fun _ => rfl) rfl
  rename_i finished
  rw [not_not] at finished
  dsimp only
  split
  · exact .moved now current _ s.tokens held (.ended rfl rfl rfl rfl fun _ => finished)
  · exact .moved now current _ _ held (.ended rfl rfl rfl rfl fun _ => finished)

theorem markUncertain_presents (s : MutationBatchStore R) (lease : MutationBatchLease R) (reason : String)
    (now retentionTtl : Int) :
    Presents s (.markUncertain lease reason now retentionTtl) lease (.marking (s.markUncertain lease reason now retentionTtl).1)
      (s.markUncertain lease reason now retentionTtl).2 := by
  unfold markUncertain
  split
  · exact .idle (fun _ => rfl) rfl
  split
  · exact .idle (fun _ => rfl) rfl
  split
  · exact .idle (fun _ => rfl) rfl
  rename_i current held
  dsimp only
  split
  · exact .moved now current _ s.tokens held (.ended rfl rfl rfl rfl nofun)
  · exact .moved now current _ _ held (.ended rfl rfl rfl rfl nofun)

theorem answer_presents (proper : WellFormed s) {call : Call R} {lease : MutationBatchLease R}
    (presents : call.presented = some lease) : Presents s call lease (s.answer call).1 (s.answer call).2 := by
  cases call with
  | begin => cases presents
  | purge => cases presents
  | renew given now leaseTtl =>
    cases presents
    exact renew_presents proper lease now leaseTtl
  | advance given receipt now leaseTtl =>
    cases presents
    exact advance_presents proper lease receipt now leaseTtl
  | complete given now retentionTtl =>
    cases presents
    exact s.complete_presents lease now retentionTtl
  | markUncertain given reason now retentionTtl =>
    cases presents
    exact s.markUncertain_presents lease reason now retentionTtl

omit [DecidableEq R] in
theorem lease_ext {a b : MutationBatchLease R} (identity : a.identity = b.identity) (token : a.token = b.token)
    (state : a.state = b.state) (nextIndex : a.nextIndex = b.nextIndex) (totalItems : a.totalItems = b.totalItems)
    (receipts : a.receipts = b.receipts) (expiresAt : a.expiresAt = b.expiresAt) (resumed : a.resumed = b.resumed) : a = b := by
  cases a
  cases b
  simp_all

/-- How the leases issued for a batch stand to it: those with its token are behind
it or level with it, and the last one is current unless an advance overflowed. -/
structure Authority (issues : List (MutationBatchLease R)) (identity : BatchIdentity) (stored : StoredBatch R) : Prop where
  behind : ∀ lease ∈ issues, lease.identity = identity → lease.token = stored.token →
    lease.totalItems = stored.totalItems ∧ lease.nextIndex ≤ stored.nextIndex ∧
      (stored.state.executing = true → lease.nextIndex = stored.nextIndex → lease.state = stored.state)
  latest : stored.state.executing = true →
    (∃ last, (issuedFor identity issues).getLast? = some last ∧ last.token = stored.token ∧
      last.expiresAt = stored.leaseExpiresAt ∧ last.nextIndex = stored.nextIndex ∧ last.receipts = stored.receipts ∧
      ∀ lease ∈ issues, lease.identity = identity → lease.token = stored.token → lease.resumed = last.resumed) ∨
    ∀ lease ∈ issues, lease.identity = identity → lease.token = stored.token → lease.nextIndex < stored.nextIndex

section Authority
omit [DecidableEq R]
variable {issues : List (MutationBatchLease R)} {identity : BatchIdentity} {stored : StoredBatch R}

theorem last_mem {last : MutationBatchLease R} (isLast : (issuedFor identity issues).getLast? = some last) :
    last ∈ issues ∧ last.identity = identity := by
  have member := List.mem_of_getLast? isLast
  obtain ⟨inIssues, mine⟩ := List.mem_filter.mp member
  exact ⟨inIssues, of_decide_eq_true mine⟩

theorem Authority.other (authority : Authority issues identity stored) {issue : Option (MutationBatchLease R)}
    (different : ∀ lease, issue = some lease → lease.identity ≠ identity) :
    Authority (issues ++ issue.toList) identity stored := by
  cases issue with
  | none => simpa using authority
  | some made =>
    have old : ∀ lease ∈ issues ++ [made], lease.identity = identity → lease ∈ issues := by
      intro lease member mine
      rcases List.mem_append.mp member with before | new
      · exact before
      · cases List.mem_singleton.mp new
        exact absurd mine (different made rfl)
    have same : issuedFor identity (issues ++ [made]) = issuedFor identity issues := by
      simp [issuedFor, different made rfl]
    refine ⟨fun lease member mine => authority.behind lease (old lease member mine) mine, fun executing => ?_⟩
    rw [Option.toList_some, same]
    refine (authority.latest executing).imp ?_ fun less lease member mine => less lease (old lease member mine) mine
    rintro ⟨last, isLast, token, expiresAt, nextIndex, receipts, resumed⟩
    exact ⟨last, isLast, token, expiresAt, nextIndex, receipts, fun lease member mine => resumed lease (old lease member mine) mine⟩

/-- A batch under a new token. -/
theorem Authority.renewed {issue : Option (MutationBatchLease R)} {resumed : Bool}
    (unused : ∀ lease ∈ issues, lease.token ≠ stored.token)
    (made : ∀ lease, issue = some lease → stored.lease identity resumed = .ok lease) :
    Authority (issues ++ issue.toList) identity stored := by
  cases issue with
  | none =>
    rw [Option.toList_none, List.append_nil]
    exact ⟨fun lease member _ token => absurd token (unused lease member),
      fun _ => Or.inr fun lease member _ token => absurd token (unused lease member)⟩
  | some lease =>
    obtain ⟨sameIdentity, token, state, nextIndex, total, receipts, expiresAt, -⟩ := lease_ok (made lease rfl)
    have only : ∀ other ∈ issues ++ [lease], other.token = stored.token → other = lease := by
      intro other member token
      rcases List.mem_append.mp member with before | new
      · exact absurd token (unused other before)
      · exact List.mem_singleton.mp new
    refine ⟨fun other member _ sameToken => ?_, fun _ => Or.inl ⟨lease, ?_, token, expiresAt, nextIndex, receipts, ?_⟩⟩
    · cases only other member sameToken
      exact ⟨total, Nat.le_of_eq nextIndex, fun _ _ => state⟩
    · simp [issuedFor, sameIdentity]
    · intro other member _ sameToken
      cases only other member sameToken
      rfl

end Authority

section Moves
variable {issues : List (MutationBatchLease R)} {lease : MutationBatchLease R} {now : Int} {current : StoredBatch R}

/-- A lease that a batch accepts is the last one issued for it. -/
theorem Authority.accepts (authority : Authority issues lease.identity current) (held : s.active lease now = some current)
    (member : lease ∈ issues) :
    (issuedFor lease.identity issues).getLast? = some lease ∧
      ∀ other ∈ issues, other.identity = lease.identity → other.token = current.token → other.resumed = lease.resumed := by
  obtain ⟨-, -, token, executing, -, expiresAt, nextIndex, receipts⟩ := active_some.mp held
  rcases authority.latest executing with ⟨last, isLast, sameToken, sameExpiry, sameIndex, sameReceipts, resumed⟩ | less
  · obtain ⟨inIssues, mine⟩ := last_mem isLast
    obtain ⟨total, -, state⟩ := authority.behind lease member rfl token.symm
    obtain ⟨totalLast, -, stateLast⟩ := authority.behind last inIssues mine sameToken
    have same : last = lease := lease_ext mine (sameToken.trans token) ((stateLast executing sameIndex).trans
      (state executing nextIndex.symm).symm) (sameIndex.trans nextIndex) (totalLast.trans total.symm) (sameReceipts.trans receipts)
      (sameExpiry.trans expiresAt) (resumed lease member rfl token.symm).symm
    subst same
    exact ⟨isLast, resumed⟩
  · have behind := less lease member rfl token.symm
    omega

/-- The batch moves, and its authority with it. -/
theorem Authority.moved {event : Call R × Answer R} {next : StoredBatch R} (authority : Authority issues lease.identity current)
    (held : s.active lease now = some current) (member : lease ∈ issues) (moved : Moved lease event current next)
    (leased : next.state.executing = true → ∃ made, next.lease lease.identity lease.resumed = .ok made) :
    Authority (issues ++ (issuedBy event).toList) lease.identity next := by
  obtain ⟨-, -, token, executing, -⟩ := active_some.mp held
  have further : current.nextIndex ≤ next.nextIndex := by
    rw [moved.index]
    exact Nat.le_add_right _ _
  have behind : ∀ other ∈ issues, other.identity = lease.identity → other.token = next.token →
      other.totalItems = next.totalItems ∧ other.nextIndex ≤ current.nextIndex ∧
        (other.nextIndex = current.nextIndex → other.state = current.state) := by
    intro other inIssues mine sameToken
    obtain ⟨total, index, state⟩ := authority.behind other inIssues mine (sameToken.trans moved.token)
    exact ⟨total.trans moved.total.symm, index, state executing⟩
  cases issue : issuedBy event with
  | none =>
    rw [Option.toList_none, List.append_nil]
    have ahead : next.state.executing = true → current.nextIndex < next.nextIndex := by
      intro running
      obtain ⟨made, built⟩ := leased running
      exact moved.silent made built issue
    refine ⟨fun other inIssues mine sameToken => ?_, fun running => Or.inr fun other inIssues mine sameToken => ?_⟩
    · obtain ⟨total, index, -⟩ := behind other inIssues mine sameToken
      refine ⟨total, Nat.le_trans index further, fun running level => ?_⟩
      have less := ahead running
      omega
    · obtain ⟨-, index, -⟩ := behind other inIssues mine sameToken
      exact Nat.lt_of_le_of_lt index (ahead running)
  | some made =>
    obtain ⟨sameIdentity, madeToken, state, nextIndex, total, receipts, expiresAt, madeResumed⟩ := lease_ok (moved.issues made issue)
    obtain ⟨-, resumed⟩ := authority.accepts held member
    refine ⟨fun other inBoth mine sameToken => ?_, fun _ => Or.inl ⟨made, ?_, madeToken, expiresAt, nextIndex, receipts, ?_⟩⟩
    · rcases List.mem_append.mp inBoth with old | new
      · obtain ⟨totalOther, index, stateOther⟩ := behind other old mine sameToken
        refine ⟨totalOther, Nat.le_trans index further, fun running level => ?_⟩
        have unmoved : next.nextIndex = current.nextIndex := by omega
        rw [moved.state running unmoved]
        exact stateOther (by omega)
      · cases List.mem_singleton.mp new
        exact ⟨total, Nat.le_of_eq nextIndex, fun _ _ => state⟩
    · simp [issuedFor, sameIdentity]
    · intro other inBoth mine sameToken
      rcases List.mem_append.mp inBoth with old | new
      · exact (resumed other old mine (sameToken.trans moved.token)).trans madeResumed.symm
      · cases List.mem_singleton.mp new
        rfl

end Moves

/-- The stored batches after a run. -/
structure Agrees (past : List (Call R × Answer R)) (s : MutationBatchStore R) : Prop where
  proper : WellFormed s
  recorded : ∀ identity stored, s.entries.get? identity = some stored → stored.receipts = advanced identity past
  drawn : ∀ identity stored, s.entries.get? identity = some stored → Drawn past stored.token
  supplied : ∀ lease ∈ issued past, Drawn past lease.token
  authority : ∀ identity stored, s.entries.get? identity = some stored → Authority (issued past) identity stored

section Append
omit [DecidableEq R]
variable (past : List (Call R × Answer R)) (event : Call R × Answer R)

theorem issued_append : issued (past ++ [event]) = issued past ++ (issuedBy event).toList := by
  cases issue : issuedBy event <;> simp [issued, issue]

theorem advanced_append (identity : BatchIdentity) : advanced identity (past ++ [event]) =
    if begunBy identity event then [] else advanced identity past ++ recordedBy identity event := by
  simp [advanced]

variable {past event} in
theorem Drawn.append {token : Uuid} (drawn : Drawn past token) : Drawn (past ++ [event]) token := by
  obtain ⟨earlier, member, rest⟩ := drawn
  exact ⟨earlier, List.mem_append_left _ member, rest⟩

end Append

/-- What the answer of a call and the batches it leaves say about one another. -/
structure Follows (past : List (Call R × Answer R)) (event : Call R × Answer R) (t : MutationBatchStore R) : Prop where
  proper : WellFormed t
  recorded : ∀ identity stored, t.entries.get? identity = some stored →
    stored.receipts = if begunBy identity event then [] else advanced identity past ++ recordedBy identity event
  drawn : ∀ identity stored, t.entries.get? identity = some stored → Drawn (past ++ [event]) stored.token
  supplied : ∀ lease, issuedBy event = some lease → Drawn (past ++ [event]) lease.token
  authority : ∀ identity stored, t.entries.get? identity = some stored →
    Authority (issued past ++ (issuedBy event).toList) identity stored

omit [DecidableEq R] in
theorem Agrees.follows {event : Call R × Answer R} {t : MutationBatchStore R} (agrees : Agrees past s)
    (follows : Follows past event t) : Agrees (past ++ [event]) t where
  proper := follows.proper
  recorded := by
    intro identity stored found
    rw [advanced_append]
    exact follows.recorded identity stored found
  drawn := follows.drawn
  supplied := by
    intro lease member
    rw [issued_append] at member
    rcases List.mem_append.mp member with old | new
    · exact (agrees.supplied lease old).append
    · exact follows.supplied lease (Option.mem_toList.mp new)
  authority := by
    intro identity stored found
    rw [issued_append]
    exact follows.authority identity stored found

omit [DecidableEq R] in
/-- A call that at most drops batches. -/
theorem Agrees.shrinks {event : Call R × Answer R} {t : MutationBatchStore R} (agrees : Agrees past s)
    (kept : ∀ identity stored, t.entries.get? identity = some stored → s.entries.get? identity = some stored)
    (silent : issuedBy event = none) (nothing : ∀ identity, recordedBy identity event = [])
    (old : ∀ identity, begunBy identity event = false) : Follows past event t where
  proper := fun identity stored found => agrees.proper identity stored (kept identity stored found)
  recorded := by
    intro identity stored found
    rw [old, nothing, List.append_nil]
    exact agrees.recorded identity stored (kept identity stored found)
  drawn := fun identity stored found => (agrees.drawn identity stored (kept identity stored found)).append
  supplied := by
    intro lease issue
    cases silent.symm.trans issue
  authority := by
    intro identity stored found
    rw [silent, Option.toList_none, List.append_nil]
    exact agrees.authority identity stored (kept identity stored found)

omit [DecidableEq R] in
theorem recordedBy_other {call : Call R} {lease : MutationBatchLease R} {answer : Answer R} {identity : BatchIdentity}
    (presents : call.presented = some lease) (different : identity ≠ lease.identity) :
    recordedBy identity (call, answer) = [] := by
  unfold recordedBy
  split
  · rename_i _ given _ _ _ _ same
    cases same
    cases presents
    rw [if_neg fun both => different both.1.symm]
  · rfl

omit [DecidableEq R] in
theorem recordedBy_length (identity : BatchIdentity) (event : Call R × Answer R) : (recordedBy identity event).length ≤ 1 := by
  unfold recordedBy
  split
  · split <;> simp
  · simp

omit [DecidableEq R] in
theorem Moved.proper {lease : MutationBatchLease R} {event : Call R × Answer R} {current next : StoredBatch R}
    (moved : Moved lease event current next) (fits : Proper lease.identity current) : Proper lease.identity next where
  named := fits.named
  agree := by
    rw [moved.index, moved.receipts, List.length_append, fits.agree]
  bound := by
    rw [moved.total, moved.index]
    have one := recordedBy_length lease.identity event
    have bound := fits.bound
    by_cases nothing : recordedBy lease.identity event = []
    · rw [nothing, List.length_nil]
      exact bound
    · have room := moved.room nothing
      omega
  completed := moved.completed

theorem Agrees.presents {call : Call R} {lease : MutationBatchLease R} {answer : Answer R} {t : MutationBatchStore R}
    (agrees : Agrees past s) (presents : call.presented = some lease) (member : lease ∈ issued past)
    (old : ∀ identity, begunBy identity (call, answer) = false) (effect : Presents s call lease answer t) :
    Follows past (call, answer) t := by
  cases effect with
  | idle nothing silent => exact agrees.shrinks (fun _ _ => id) silent nothing old
  | moved now current next tokens held moved =>
    obtain ⟨-, found, -⟩ := active_some.mp held
    have fits := moved.proper (agrees.proper _ _ found)
    constructor
    · intro identity stored foundNow
      rcases Dict.get?_set_cases foundNow with ⟨rfl, rfl⟩ | ⟨-, foundOther⟩
      · exact fits
      · exact agrees.proper identity stored foundOther
    · intro identity stored foundNow
      rw [old]
      rcases Dict.get?_set_cases foundNow with ⟨rfl, rfl⟩ | ⟨different, foundOther⟩
      · exact moved.receipts.trans (congrArg (· ++ _) (agrees.recorded _ current found))
      · rw [recordedBy_other presents different]
        exact (agrees.recorded identity stored foundOther).trans (List.append_nil _).symm
    · intro identity stored foundNow
      rcases Dict.get?_set_cases foundNow with ⟨rfl, rfl⟩ | ⟨-, foundOther⟩
      · rw [moved.token]
        exact (agrees.drawn _ current found).append
      · exact (agrees.drawn identity stored foundOther).append
    · intro made issue
      rw [(lease_ok (moved.issues made issue)).2.1, moved.token]
      exact (agrees.drawn _ current found).append
    · intro identity stored foundNow
      rcases Dict.get?_set_cases foundNow with ⟨rfl, rfl⟩ | ⟨different, foundOther⟩
      · exact (agrees.authority _ current found).moved held member moved
          fun running => lease_made fits.named running fits.bound fits.agree
      · refine (agrees.authority identity stored foundOther).other fun made issue mine => ?_
        exact different (mine.symm.trans (lease_ok (moved.issues made issue)).1)

omit [DecidableEq R] in
/-- A call that puts a batch under a new token, begun anew or taken over. -/
theorem Agrees.put {event : Call R × Answer R} {t : MutationBatchStore R} (agrees : Agrees past s) (identity : BatchIdentity)
    (stored : StoredBatch R) (resumed : Bool) (fresh : ¬Drawn past stored.token) (drawn : Drawn (past ++ [event]) stored.token)
    (put : t.entries.get? identity = some stored)
    (kept : ∀ other value, other ≠ identity → t.entries.get? other = some value → s.entries.get? other = some value)
    (proper : Proper identity stored) (made : ∀ lease, issuedBy event = some lease → stored.lease identity resumed = .ok lease)
    (nothing : ∀ other, recordedBy other event = []) (old : ∀ other, other ≠ identity → begunBy other event = false)
    (receipts : stored.receipts = if begunBy identity event then [] else advanced identity past) : Follows past event t := by
  have either : ∀ {other value}, t.entries.get? other = some value →
      other = identity ∧ value = stored ∨ other ≠ identity ∧ s.entries.get? other = some value := by
    intro other value found
    by_cases mine : other = identity
    · subst mine
      exact Or.inl ⟨rfl, Option.some.inj (found.symm.trans put)⟩
    · exact Or.inr ⟨mine, kept other value mine found⟩
  constructor
  · intro other value found
    rcases either found with ⟨rfl, rfl⟩ | ⟨-, before⟩
    · exact proper
    · exact agrees.proper other value before
  · intro other value found
    rcases either found with ⟨rfl, rfl⟩ | ⟨different, before⟩
    · rw [nothing, List.append_nil]
      exact receipts
    · rw [old other different, nothing, List.append_nil]
      exact agrees.recorded other value before
  · intro other value found
    rcases either found with ⟨rfl, rfl⟩ | ⟨-, before⟩
    · exact drawn
    · exact (agrees.drawn other value before).append
  · intro lease issue
    rw [(lease_ok (made lease issue)).2.1]
    exact drawn
  · intro other value found
    rcases either found with ⟨rfl, rfl⟩ | ⟨different, before⟩
    · exact .renewed (fun lease member token => fresh (token ▸ agrees.supplied lease member)) made
    · refine (agrees.authority other value before).other fun lease issue mine => ?_
      exact different (mine.symm.trans (lease_ok (made lease issue)).1)

omit [DecidableEq R] in
theorem purgeTerminal_kept {now : Int} {identity : BatchIdentity} {stored : StoredBatch R}
    (found : (s.purgeTerminal now).entries.get? identity = some stored) : s.entries.get? identity = some stored := by
  rw [purgeTerminal_get?, Option.filter_eq_some_iff] at found
  exact found.1

omit [DecidableEq R] in
theorem Agrees.begin (agrees : Agrees past s) (identity : BatchIdentity) (fingerprint : RequestFingerprint) (totalItems : Nat)
    (now leaseTtl : Int) (token : Uuid) (fresh : ¬Drawn past token) :
    Follows past (.begin identity fingerprint totalItems now leaseTtl token,
      .begun (s.begin identity fingerprint totalItems now leaseTtl token).1)
      (s.begin identity fingerprint totalItems now leaseTtl token).2 := by
  have drawn : ∀ answer, Drawn (past ++ [(.begin identity fingerprint totalItems now leaseTtl token, answer)]) token :=
    fun answer => ⟨_, List.mem_append_right _ (List.mem_singleton_self _), identity, fingerprint, totalItems, now, leaseTtl, rfl⟩
  unfold MutationBatchStore.begin
  split
  · exact agrees.shrinks (fun _ _ => id) rfl (fun _ => rfl) (fun _ => rfl)
  split
  · exact agrees.shrinks (fun _ _ => id) rfl (fun _ => rfl) (fun _ => rfl)
  rename_i named
  push Not at named
  dsimp only
  split
  · rename_i current found
    have before := purgeTerminal_kept found
    have fits := agrees.proper identity current before
    split
    · rename_i result decided
      have silent : issuedBy (R := R) (.begin identity fingerprint totalItems now leaseTtl token, .begun (.ok result)) = none ∧
          ∀ other, begunBy (R := R) other (.begin identity fingerprint totalItems now leaseTtl token, .begun (.ok result)) = false := by
        cases result with
        | lease lease => exact absurd decided decide_not_lease
        | replay => exact ⟨rfl, fun _ => rfl⟩
        | refused => exact ⟨rfl, fun _ => rfl⟩
      refine agrees.shrinks (fun other value foundOther => ?_) silent.1 (fun _ => rfl) silent.2
      rw [Dict.get?_moveToEnd] at foundOther
      exact purgeTerminal_kept foundOther
    · rename_i undecided
      have kept : ∀ next other value, other ≠ identity →
          (((s.purgeTerminal now).entries.moveToEnd identity).set identity next).get? other = some value →
          s.entries.get? other = some value := by
        intro next other value different foundOther
        rw [Dict.get?_set_of_ne different, Dict.get?_moveToEnd] at foundOther
        exact purgeTerminal_kept foundOther
      split
      · exact agrees.put identity { current with token } true fresh (drawn _) (Dict.get?_set_self ..) (kept _)
          ⟨fits.named, fits.agree, fits.bound, fits.completed⟩ (by simp [issuedBy]) (fun _ => rfl) (fun _ _ => rfl)
          (agrees.recorded identity current before)
      · rename_i expiresAt _
        obtain ⟨-, -, executing, -⟩ := decide_none undecided
        obtain ⟨made, built⟩ : ∃ made, StoredBatch.lease { current with token, leaseExpiresAt := expiresAt } identity true = .ok made :=
          lease_made fits.named executing fits.bound fits.agree
        have resumed : made.resumed = true := (lease_ok built).2.2.2.2.2.2.2
        rw [built]
        refine agrees.put identity { current with token, leaseExpiresAt := expiresAt } true fresh (drawn _) (Dict.get?_set_self ..)
          (kept _) ⟨fits.named, fits.agree, fits.bound, fits.completed⟩ (fun lease issue => ?_) (fun _ => rfl)
          (fun _ _ => by simp [begunBy, Except.map, resumed]) ?_
        · cases issue
          exact built
        · simpa [begunBy, Except.map, resumed] using agrees.recorded identity current before
  · split
    · exact agrees.shrinks (fun _ _ => purgeTerminal_kept) rfl (fun _ => rfl) (fun _ => rfl)
    split
    · exact agrees.shrinks (fun _ _ => purgeTerminal_kept) rfl (fun _ => rfl) (fun _ => rfl)
    · rename_i expiresAt _
      obtain ⟨made, built⟩ : ∃ made, StoredBatch.lease (R := R)
          ⟨fingerprint, totalItems, token, .processing, 0, [], expiresAt, none, none⟩ identity false = .ok made :=
        lease_made named rfl (Nat.zero_le _) rfl
      obtain ⟨mine, -, -, -, -, -, -, resumed⟩ := lease_ok built
      rw [built]
      refine agrees.put identity ⟨fingerprint, totalItems, token, .processing, 0, [], expiresAt, none, none⟩ false fresh (drawn _)
        (Dict.get?_set_self ..) (fun other value different found => ?_) ⟨named, rfl, Nat.zero_le _, by simp⟩ (fun lease issue => ?_)
        (fun _ => rfl) (fun other different => ?_) ?_
      · change ((s.purgeTerminal now).entries.set identity _).get? other = some value at found
        rw [Dict.get?_set_of_ne different] at found
        exact purgeTerminal_kept found
      · cases issue
        exact built
      · simp [begunBy, Except.map, mine, Ne.symm different]
      · simp [begunBy, Except.map, mine, resumed]

theorem Agrees.next (agrees : Agrees past s) {call : Call R} (fresh : Fresh past call) :
    Follows past (call, (s.answer call).1) (s.answer call).2 := by
  cases presents : call.presented with
  | some lease =>
    refine agrees.presents presents (fresh.issued lease presents) ?_ (answer_presents agrees.proper presents)
    intro identity
    cases call with
    | begin => cases presents
    | purge => cases presents
    | _ => rfl
  | none =>
    cases call with
    | begin identity fingerprint totalItems now leaseTtl token =>
      exact agrees.begin identity fingerprint totalItems now leaseTtl token (fresh.supply _ _ _ _ _ _ rfl)
    | purge plan =>
      refine agrees.shrinks (fun identity stored found => ?_) rfl (fun _ => rfl) (fun _ => rfl)
      rcases s.purge_get? plan identity with same | ⟨_, _, _, gone⟩
      · exact same.symm.trans found
      · cases gone.symm.trans found
    | _ => cases presents

theorem Agrees.run {capacity : Nat} (history : Run capacity past s) : Agrees past s := by
  refine history.invariant ?_ fun past s call agrees fresh => agrees.follows (agrees.next fresh)
  exact ⟨nofun, nofun, nofun, nofun, nofun⟩

/-- A lease that is not current is refused, and the store stays as it is. -/
theorem refused_of_inactive {call : Call R} {lease : MutationBatchLease R} (presents : call.presented = some lease)
    (inactive : ∀ now, s.active lease now = none) : refused (s.answer call).1 = true ∧ (s.answer call).2 = s := by
  cases call with
  | begin => cases presents
  | purge => cases presents
  | renew given now leaseTtl =>
    cases presents
    simp only [answer, renew, inactive, Prod.map_fst, Prod.map_snd, id_eq]
    split
    · exact ⟨rfl, rfl⟩
    · exact ⟨rfl, rfl⟩
  | advance given receipt now leaseTtl =>
    cases presents
    simp only [answer, advance, inactive, Prod.map_fst, Prod.map_snd, id_eq]
    split
    · exact ⟨rfl, rfl⟩
    · exact ⟨rfl, rfl⟩
  | complete given now retentionTtl =>
    cases presents
    simp only [answer, complete, inactive, Prod.map_fst, Prod.map_snd, id_eq]
    split
    · exact ⟨rfl, rfl⟩
    · exact ⟨rfl, rfl⟩
  | markUncertain given reason now retentionTtl =>
    cases presents
    simp only [answer, markUncertain, inactive, Prod.map_fst, Prod.map_snd, id_eq]
    split
    · exact ⟨rfl, rfl⟩
    split
    · exact ⟨rfl, rfl⟩
    · exact ⟨rfl, rfl⟩

/-- The lease is the last one issued for its batch, and what the stored batch would
issue now. -/
def IsCurrent (past : List (Call R × Answer R)) (s : MutationBatchStore R) (lease : MutationBatchLease R) : Prop :=
  (issuedFor lease.identity (issued past)).getLast? = some lease ∧
    ∃ stored, s.entries.get? lease.identity = some stored ∧ stored.lease lease.identity lease.resumed = .ok lease

theorem Agrees.refuses (agrees : Agrees past s) {lease : MutationBatchLease R} (member : lease ∈ issued past)
    (replaced : ¬IsCurrent past s lease) (now : Int) : s.active lease now = none := by
  cases held : s.active lease now with
  | none => rfl
  | some current =>
    obtain ⟨-, found, token, executing, -, expiresAt, nextIndex, receipts⟩ := active_some.mp held
    have authority := agrees.authority _ current found
    have fits := agrees.proper _ current found
    obtain ⟨total, -, state⟩ := authority.behind lease member rfl token.symm
    obtain ⟨made, built⟩ := lease_made fits.named executing fits.bound fits.agree
    obtain ⟨sameIdentity, sameToken, sameState, sameIndex, sameTotal, sameReceipts, sameExpiry, sameResumed⟩ := lease_ok built
    have same : made = lease := lease_ext sameIdentity (sameToken.trans token) (sameState.trans (state executing nextIndex.symm).symm)
      (sameIndex.trans nextIndex) (sameTotal.trans total.symm) (sameReceipts.trans receipts) (sameExpiry.trans expiresAt) sameResumed
    subst same
    exact absurd ⟨(authority.accepts held member).1, current, found, built⟩ replaced

/-- A batch that is uncertain gets no lease. -/
theorem Agrees.unleased (agrees : Agrees past s) {call : Call R} {identity : BatchIdentity} {stored : StoredBatch R}
    (found : s.entries.get? identity = some stored) (uncertain : stored.state = .uncertain) {lease : MutationBatchLease R}
    (issue : issuedBy (call, (s.answer call).1) = some lease) : lease.identity ≠ identity := by
  intro mine
  cases presents : call.presented with
  | some presented =>
    have effect := answer_presents agrees.proper presents
    generalize (s.answer call).1 = answered at effect issue
    generalize (s.answer call).2 = after at effect
    cases effect with
    | idle _ silent => cases silent.symm.trans issue
    | moved now current next tokens held moved =>
      obtain ⟨-, foundCurrent, -⟩ := active_some.mp held
      rw [← (lease_ok (moved.issues lease issue)).1, mine, found] at foundCurrent
      cases foundCurrent
      exact (active_running held).2 uncertain
  | none =>
    cases call with
    | begin asked fingerprint totalItems now leaseTtl token =>
      have granted : (s.begin asked fingerprint totalItems now leaseTtl token).1 = .ok (.lease lease) := by
        change issuedBy (_, .begun (s.begin asked fingerprint totalItems now leaseTtl token).1) = some lease at issue
        cases result : (s.begin asked fingerprint totalItems now leaseTtl token).1 with
        | error error =>
          rw [result] at issue
          cases issue
        | ok decision =>
          rw [result] at issue
          cases decision with
          | lease given =>
            cases issue
            rfl
          | replay => cases issue
          | refused => cases issue
      cases (begin_lease granted).1.symm.trans mine
      have positive : 0 < leaseTtl := by
        by_contra short
        rw [MutationBatchStore.begin, if_pos (by omega)] at granted
        cases granted
      obtain ⟨reason, refusal | refusal⟩ := begin_uncertain found uncertain positive (agrees.proper _ _ found).named
      · cases granted.symm.trans refusal
      · cases granted.symm.trans refusal
    | purge plan => cases issue
    | _ => cases presents

omit [DecidableEq R] in
theorem decide_replay {current : StoredBatch R} {fingerprint : RequestFingerprint} {totalItems : Nat} {now : Int}
    {receipts : List (BatchItemReceipt R)} (decided : current.decide fingerprint totalItems now = some (.replay receipts)) :
    receipts = current.receipts := by
  unfold StoredBatch.decide at decided
  split at decided
  · cases decided
  split at decided
  · cases decided
    rfl
  split at decided
  · cases decided
  split at decided
  · cases decided
  · cases decided

omit [DecidableEq R] in
/-- What is replayed are the receipts of the stored batch. -/
theorem begin_replays {identity : BatchIdentity} {fingerprint : RequestFingerprint} {totalItems : Nat} {now leaseTtl : Int}
    {token : Uuid} {receipts : List (BatchItemReceipt R)}
    (replayed : (s.begin identity fingerprint totalItems now leaseTtl token).1 = .ok (.replay receipts)) :
    ∃ current, s.entries.get? identity = some current ∧ receipts = current.receipts := by
  rcases s.begin_cases identity fingerprint totalItems now leaseTtl token with
    ⟨_, run⟩ | ⟨_, run⟩ | ⟨current, result, found, decided, run⟩ | ⟨_, run⟩ | ⟨_, _, _, _, _, _, _, made, run⟩ |
      ⟨_, _, _, _, made, run⟩
  · cases (congrArg Prod.fst run).symm.trans replayed
  · cases (congrArg Prod.fst run).symm.trans replayed
  · cases (congrArg Prod.fst run).symm.trans replayed
    exact ⟨current, purgeTerminal_kept found, decide_replay decided⟩
  · cases (congrArg Prod.fst run).symm.trans replayed
  · obtain ⟨_, leased, -⟩ := made _ ((congrArg Prod.fst run).symm.trans replayed)
    cases leased
  · obtain ⟨_, leased, -⟩ := made _ ((congrArg Prod.fst run).symm.trans replayed)
    cases leased

/-- Calls that may follow a past. -/
abbrev Continues (past : List (Call R × Answer R)) : MutationBatchStore R → List (Call R × Answer R) → MutationBatchStore R → Prop :=
  History answer fun _ later => Fresh (past ++ later)

/-- As long as no purge includes uncertainty, an uncertain batch stays and gets no lease. -/
theorem uncertain_unleased {capacity : Nat} (history : Run capacity past s) {identity : BatchIdentity} {stored : StoredBatch R}
    (found : s.entries.get? identity = some stored) (uncertain : stored.state = .uncertain)
    {rest : List (Call R × Answer R)} {t : MutationBatchStore R} (continued : Continues past s rest t)
    (remembered : ∀ event ∈ rest, forgets event.1 = false) :
    t.entries.get? identity = some stored ∧
      ∀ event ∈ rest, ∀ lease, issuedBy event = some lease → lease.identity ≠ identity := by
  induction continued with
  | start => exact ⟨found, by simp⟩
  | @next rest t call further fresh ih =>
    obtain ⟨still, unleased⟩ := ih fun event member => remembered event (List.mem_append_left _ member)
    have agrees := Agrees.run (history.append further)
    have spared : Spares identity t call := by
      cases call with
      | purge plan =>
        intro included
        have remembers := remembered _ (List.mem_append_right _ (List.mem_singleton_self _))
        simp [forgets, included] at remembers
      | _ => trivial
    refine ⟨uncertain_kept still uncertain spared, fun event member => ?_⟩
    rcases List.mem_append.mp member with old | new
    · exact unleased event old
    · cases List.mem_singleton.mp new
      exact fun lease issue => agrees.unleased still uncertain issue

omit [DecidableEq R] in
/-- What is replayed is what was recorded since the batch was begun. -/
theorem Agrees.replays (agrees : Agrees past s) {identity : BatchIdentity} {fingerprint : RequestFingerprint} {totalItems : Nat}
    {now leaseTtl : Int} {token : Uuid} {receipts : List (BatchItemReceipt R)}
    (replayed : (s.begin identity fingerprint totalItems now leaseTtl token).1 = .ok (.replay receipts)) :
    receipts = advanced identity past := by
  obtain ⟨current, found, isCurrent⟩ := begin_replays replayed
  rw [isCurrent]
  exact agrees.recorded identity current found

/-- Every stored batch has one receipt for each item it has passed, those recorded
since it was begun, and they are what is replayed; a lease that is not current is
refused; and an uncertain batch gets no lease until it may be purged. -/
theorem batch_ledger {capacity : Nat} (history : Run capacity past s) :
    (∀ identity stored, s.entries.get? identity = some stored →
      stored.nextIndex = stored.receipts.length ∧ stored.nextIndex ≤ stored.totalItems ∧
        stored.receipts = advanced identity past ∧ (stored.state = .completed → stored.receipts.length = stored.totalItems)) ∧
    (∀ call, Fresh past call → ∀ identity before after, s.entries.get? identity = some before →
      (s.answer call).2.entries.get? identity = some after →
      before.receipts <+: after.receipts ∨ begunBy identity (call, (s.answer call).1) = true) ∧
    (∀ call lease, call.presented = some lease → lease ∈ issued past → ¬IsCurrent past s lease →
      refused (s.answer call).1 = true ∧ (s.answer call).2 = s) ∧
    (∀ identity stored, s.entries.get? identity = some stored → stored.state = .uncertain →
      ∀ rest t, Continues past s rest t → (∀ event ∈ rest, forgets event.1 = false) →
        t.entries.get? identity = some stored ∧
          ∀ event ∈ rest, ∀ lease, issuedBy event = some lease → lease.identity ≠ identity) ∧
    ∀ identity fingerprint totalItems now leaseTtl token receipts,
      (s.begin identity fingerprint totalItems now leaseTtl token).1 = .ok (.replay receipts) →
      receipts = advanced identity past := by
  have agrees := Agrees.run history
  refine ⟨fun identity stored found => ?_, fun call fresh identity before after found foundAfter => ?_,
    fun call lease presents member replaced => refused_of_inactive presents (agrees.refuses member replaced),
    fun identity stored found uncertain rest t continued remembered =>
      uncertain_unleased history found uncertain continued remembered,
    fun identity fingerprint totalItems now leaseTtl token receipts replayed => agrees.replays replayed⟩
  · have fits := agrees.proper identity stored found
    exact ⟨fits.agree, fits.bound, agrees.recorded identity stored found, fun done => fits.agree.symm.trans (fits.completed done)⟩
  · have receipts := (agrees.next fresh).recorded identity after foundAfter
    split at receipts
    · rename_i anew
      exact Or.inr anew
    · rw [receipts, agrees.recorded identity before found]
      exact Or.inl (List.prefix_append _ _)

def sampleLease (state : MutationBatchState) (executing : state.executing = true) (receipts : List (BatchItemReceipt Nat))
    (fits : receipts.length ≤ 1) (expiresAt : Int) : MutationBatchLease Nat :=
  ⟨⟨"n", "b"⟩, Uuid.series 'a' 0, state, receipts.length, 1, receipts, expiresAt, false, by decide, executing, fits, rfl⟩

/-- A batch of one item: it is begun, advanced twice under the first lease, completed
under the second and begun again. -/
def sampleCalls : List (Call Nat) :=
  let first := sampleLease .processing rfl [] (by decide) 10
  let second := sampleLease .partiallyCommitted rfl [⟨"i", 7, false⟩] (by decide) 11
  [.begin ⟨"n", "b"⟩ ⟨"f"⟩ 1 0 10 (Uuid.series 'a' 0), .advance first ⟨"i", 7, false⟩ 1 10, .advance first ⟨"i", 8, false⟩ 2 10,
    .complete second 3 100, .begin ⟨"n", "b"⟩ ⟨"f"⟩ 1 4 10 (Uuid.series 'a' 1)]

theorem replayed_after_completion :
    ∃ (past : List (Call Nat × Answer Nat)) (s : MutationBatchStore Nat), Run 9 past s ∧ (issued past).map (·.nextIndex) = [0, 1] ∧
      (s.entries.items.map fun entry => (entry.2.state, entry.2.receipts)) = [(.completed, [⟨"i", 7, false⟩])] ∧
      ∀ identity stored, s.entries.get? identity = some stored → stored.receipts = advanced identity past := by
  have run : Run 9 (History.transcript answer (empty 9) sampleCalls) (History.after answer (empty 9) sampleCalls) := by
    refine History.ofInputs ?_
    simp only [History.Permitted, sampleCalls, List.nil_append, List.cons_append]
    refine ⟨⟨?_, by simp [Call.presented]⟩, ⟨by simp, ?_⟩, ⟨by simp, ?_⟩, ⟨by simp, ?_⟩, ⟨?_, by simp [Call.presented]⟩, trivial⟩
    · rintro _ _ _ _ _ _ _ ⟨event, member, -⟩
      cases member
    · rintro lease same
      cases same
      decide +kernel
    · rintro lease same
      cases same
      decide +kernel
    · rintro lease same
      cases same
      decide +kernel
    · rintro _ _ _ _ _ token same ⟨event, member, identity, fingerprint, totalItems, now, leaseTtl, drawn⟩
      simp only [List.mem_cons, List.not_mem_nil, or_false] at member
      cases same
      rcases member with rfl | rfl | rfl | rfl <;> cases drawn
  exact ⟨_, _, run, by decide +kernel, by decide +kernel, fun identity stored found => ((batch_ledger run).1 identity stored found).2.2.1⟩

end Pytitect.MutationBatchStore
