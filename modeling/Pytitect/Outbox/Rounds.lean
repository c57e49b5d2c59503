import Pytitect.Outbox.Budget
import Pytitect.Outbox.Dispatcher

namespace Pytitect
variable {P : Type} {policy : RetryPolicy} {capacity : Nat}

namespace DispatchRound
variable {round : DispatchRound P} {claim : OutboxClaim P} {rest : List (OutboxClaim P)} {call : OutboxStore.Call P}
  {past : List (OutboxStore.Call P × OutboxStore.Answer P)} {event : OutboxStore.Call P × OutboxStore.Answer P}
  {s : OutboxStore P} {now : Int}

/-- The claims that the round may still settle. -/
def left (round : DispatchRound P) : List (OutboxClaim P) :=
  match round.remaining with
  | .ok claims => claims
  | .error _ => []

/-- A round settles the claim in hand, and asks for a retry only while attempts are left. -/
structure Settlement (policy : RetryPolicy) (claim : OutboxClaim P) (call : OutboxStore.Call P) : Prop where
  presented : call.presented = some claim
  notClaims : ¬call.Claims
  budget : ∀ other availableAt, call = .retry other availableAt → other.envelope.attempt + 1 < policy.maxAttempts
  answer : ∀ s : OutboxStore P, (s.answer call).1 = .settled (.ok (s.valid claim).isSome)

theorem Settlement.failed (policy : RetryPolicy) (claim : OutboxClaim P) (now : Int) {reason : String} (named : reason ≠ "") :
    Settlement policy claim (.failed claim reason now) where
  presented := rfl
  notClaims := id
  budget := fun _ _ other => nomatch other
  answer := fun s => by
    change OutboxStore.Answer.settled (s.failed claim reason now).1 = _
    rw [OutboxStore.failed, if_neg named, s.settle_success]

theorem settlement_ok {result : DeliveryResult} (settles : settlement policy now claim result = .ok call) :
    Settlement policy claim call := by
  have answers (s : OutboxStore P) (change : StoredMessage P → StoredMessage P) :
      OutboxStore.Answer.settled (P := P) (.ok (s.settle claim change).1) = .settled (.ok (s.valid claim).isSome) := by
    rw [s.settle_success]
  cases result with
  | delivered =>
    cases settles
    exact ⟨rfl, id, (fun _ _ other => nomatch other), fun s => answers s _⟩
  | retryable reason named =>
    simp only [settlement] at settles
    split at settles
    · rename_i attempts
      cases due : datetimeAdd now (policy.delay (claim.envelope.attempt + 1)) with
      | error error =>
        rw [due] at settles
        cases settles
      | ok availableAt =>
        rw [due] at settles
        cases settles
        refine ⟨rfl, id, fun other _ same => ?_, fun s => answers s _⟩
        cases same
        exact attempts
    · cases settles
      exact .failed policy claim now named
  | permanentFailure reason named =>
    cases settles
    exact .failed policy claim now named
  | other =>
    cases settles
    exact .failed policy claim now (by decide)

/-- The counters grow by one if the settlement succeeded. -/
theorem Settlement.count (settlement : Settlement policy claim call) (s : OutboxStore P) (summary : DispatchSummary) :
    ∃ next, DispatchRound.count summary call (s.answer call).1 = .ok next ∧ next.claimed = summary.claimed ∧
      next.total = summary.total + (s.valid claim).isSome.toNat := by
  rw [settlement.answer s]
  cases call with
  | delivered =>
    refine ⟨_, rfl, rfl, ?_⟩
    simp only [DispatchSummary.total]
    omega
  | retry =>
    refine ⟨_, rfl, rfl, ?_⟩
    simp only [DispatchSummary.total]
    omega
  | failed =>
    refine ⟨_, rfl, rfl, ?_⟩
    simp only [DispatchSummary.total]
    omega
  | _ => cases settlement.presented

/-- What holds of a round at any time. -/
structure Kept (capacity : Nat) (past : List (OutboxStore.Call P × OutboxStore.Answer P)) (round : DispatchRound P) : Prop where
  issued : ∀ claim ∈ round.claims, claim ∈ OutboxStore.issued past
  left : ∀ claim ∈ round.left, claim ∈ round.claims
  distinct : round.left.Nodup
  pending : ∀ claim ∈ round.left, ¬OutboxStore.Presented claim past
  claimed : round.summary.claimed = round.claims.length
  bounded : round.summary.total + round.left.length ≤ round.claims.length
  exactly : ∀ left, round.remaining = .ok left → round.summary.total + left.length = round.claims.length ∨
    ∃ claim ∈ round.claims, OutboxStore.TakenFirst capacity claim past

/-- A call that presents none of the claims of the round. -/
theorem Kept.mono (kept : Kept capacity past round) (others : ∀ claim ∈ round.left, event.1.presented ≠ some claim) :
    Kept capacity (past ++ [event]) round where
  issued := fun claim member => by
    rw [OutboxStore.issued_append]
    exact List.mem_append_left _ (kept.issued claim member)
  left := kept.left
  distinct := kept.distinct
  pending := by
    rintro claim member ⟨earlier, among, presented⟩
    rcases List.mem_append.mp among with old | new
    · exact kept.pending claim member ⟨earlier, old, presented⟩
    · cases List.mem_singleton.mp new
      exact others claim member presented
  claimed := kept.claimed
  bounded := kept.bounded
  exactly := fun left isLeft => (kept.exactly left isLeft).imp_right fun ⟨claim, member, taken⟩ => ⟨claim, member, taken.append⟩

/-- A round that raises stops. -/
theorem Kept.raised (kept : Kept capacity past round) (error : PyError) : Kept capacity past { round with remaining := .error error } where
  issued := kept.issued
  left := fun _ member => nomatch member
  distinct := List.nodup_nil
  pending := fun _ member => nomatch member
  claimed := kept.claimed
  bounded := Nat.le_trans (Nat.add_le_add_left (Nat.zero_le _) _) kept.bounded
  exactly := fun _ isLeft => nomatch isLeft

/-- The round settles its next claim. Where that fails, the claim was taken over before. -/
theorem Kept.settles (history : OutboxStore.Run capacity past s) (kept : Kept capacity past round)
    (next : round.remaining = .ok (claim :: rest)) (settlement : Settlement policy claim call) :
    Kept capacity (past ++ [(call, (s.answer call).1)]) (round.settled rest call (s.answer call).1) := by
  obtain ⟨summary, counted, claimed, total⟩ := settlement.count s round.summary
  have left : round.left = claim :: rest := by
    unfold DispatchRound.left
    rw [next]
  have after : round.settled rest call (s.answer call).1 = { round with remaining := .ok rest, summary } := by
    unfold settled
    rw [counted]
  obtain ⟨others, distinct⟩ := List.nodup_cons.mp (left ▸ kept.distinct)
  have mine : claim ∈ round.left := left ▸ List.mem_cons_self
  have whole := kept.bounded
  rw [left, List.length_cons] at whole
  rw [after]
  have one : (s.valid claim).isSome.toNat ≤ 1 := Bool.toNat_le _
  refine ⟨fun other member => ?_, fun other member => ?_, distinct, ?_, claimed.trans kept.claimed, ?_, ?_⟩
  · rw [OutboxStore.issued_append]
    exact List.mem_append_left _ (kept.issued other member)
  · exact kept.left other (left ▸ List.mem_cons_of_mem _ member)
  · rintro other member ⟨earlier, among, presented⟩
    rcases List.mem_append.mp among with old | new
    · exact kept.pending other (left ▸ List.mem_cons_of_mem _ member) ⟨earlier, old, presented⟩
    · cases List.mem_singleton.mp new
      cases settlement.presented.symm.trans presented
      exact others member
  · change summary.total + rest.length ≤ round.claims.length
    omega
  · rintro _ ⟨rfl⟩
    dsimp only
    rcases kept.exactly _ next with same | ⟨missed, member, taken⟩
    · cases valid : (s.valid claim).isSome with
      | true =>
        rw [valid, Bool.toNat_true] at total
        rw [List.length_cons] at same
        left
        omega
      | false =>
        right
        refine ⟨claim, kept.left claim mine, past, (call, (s.answer call).1), [], rfl, settlement.presented, ?_⟩
        rcases (OutboxStore.run_kept history claim (kept.issued claim (kept.left claim mine))).accounted with held | taken | presented
        · cases held.symm.trans valid
        · exact taken
        · exact absurd presented (kept.pending claim mine)
    · exact Or.inr ⟨missed, member, taken.append⟩

theorem Kept.started {claims : List (OutboxClaim P)} (now : Int) (issued : ∀ claim ∈ claims, claim ∈ OutboxStore.issued past)
    (distinct : claims.Nodup) (pending : ∀ claim ∈ claims, ¬OutboxStore.Presented claim past) :
    Kept capacity past (start now claims) where
  issued := issued
  left := fun _ member => member
  distinct := distinct
  pending := pending
  claimed := rfl
  bounded := by
    change 0 + claims.length ≤ claims.length
    omega
  exactly := by
    rintro _ ⟨rfl⟩
    left
    change 0 + claims.length = claims.length
    omega

end DispatchRound

namespace Dispatching
variable {s : Dispatching P} {past : List (Input P × Option (OutboxStore.Call P × OutboxStore.Answer P))}
  {made : List (OutboxStore.Call P × OutboxStore.Answer P)} {call : OutboxStore.Call P} {claim : OutboxClaim P}

/-- The rounds of all dispatchers; no claim is left to two of them. -/
structure Ordered (policy : RetryPolicy) (capacity : Nat) (made : List (OutboxStore.Call P × OutboxStore.Answer P)) (s : Dispatching P) :
    Prop where
  history : OutboxStore.Run capacity made s.store
  within : OutboxStore.Within policy.maxAttempts made
  kept : ∀ (i : Nat) (round : DispatchRound P), s.rounds[i]? = some round → round.Kept capacity made
  apart : ∀ (i j : Nat) (first second : DispatchRound P) (claim : OutboxClaim P), s.rounds[i]? = some first → s.rounds[j]? = some second → claim ∈ first.left →
    claim ∈ second.left → i = j

/-- A call that settles nothing, made by no round. -/
theorem Ordered.outside (ordered : Ordered policy capacity made s) (fresh : OutboxStore.Fresh made call) (silent : call.presented = none) :
    Ordered policy capacity (made ++ [(call, (s.store.answer call).1)]) { s with store := (s.store.answer call).2 } where
  history := ordered.history.next call fresh
  within := ordered.within.next ordered.history fresh fun _ _ retry => by
    subst retry
    cases silent
  kept := fun i round found => (ordered.kept i round found).mono fun _ _ presented => nomatch silent.symm.trans presented
  apart := ordered.apart

/-- A round begins with claims that no other round has. -/
theorem Ordered.begins {now limit claimTtl : Int} {claimIds : Nat → Uuid} {claims : List (OutboxClaim P)}
    (ordered : Ordered policy capacity made s) (fresh : OutboxStore.Fresh made (.claim now limit claimTtl claimIds))
    (returned : (s.store.claim now limit claimTtl claimIds).1 = .ok claims) :
    let call : OutboxStore.Call P := .claim now limit claimTtl claimIds
    Ordered policy capacity (made ++ [(call, (s.store.answer call).1)])
      ⟨(s.store.answer call).2, s.rounds ++ [DispatchRound.start now claims]⟩ := by
  intro call
  have after := ordered.outside fresh rfl
  have handed : OutboxStore.issuedBy (call, (s.store.answer call).1) = claims := by
    change OutboxStore.issuedBy (call, .claimed (s.store.claim now limit claimTtl claimIds).1) = claims
    rw [returned]
    rfl
  obtain ⟨distinct, new⟩ := ordered.history.handed_new fresh
  rw [handed] at distinct new
  have started : (DispatchRound.start now claims).Kept capacity (made ++ [(call, (s.store.answer call).1)]) := by
    refine .started now (fun claim member => ?_) distinct fun claim member => ?_
    · rw [OutboxStore.issued_append, handed]
      exact List.mem_append_right _ member
    · rintro ⟨event, among, presented⟩
      rcases List.mem_append.mp among with old | last
      · exact new claim member (ordered.history.presented_issued ⟨event, old, presented⟩)
      · cases List.mem_singleton.mp last
        cases presented
  have cases_ : ∀ i round, (s.rounds ++ [DispatchRound.start now claims])[i]? = some round →
      s.rounds[i]? = some round ∨ i = s.rounds.length ∧ round = DispatchRound.start now claims := by
    intro i round found
    rcases Nat.lt_or_ge i s.rounds.length with before | last
    · rw [List.getElem?_append_left before] at found
      exact Or.inl found
    · rw [List.getElem?_append_right last] at found
      rw [List.getElem?_singleton] at found
      split at found
      · cases found
        exact Or.inr ⟨by omega, rfl⟩
      · cases found
  have fromOld : ∀ (i : Nat) (round : DispatchRound P), s.rounds[i]? = some round → ∀ claim ∈ round.left, claim ∉ claims :=
    fun i round found claim member isNew =>
      new claim isNew ((ordered.kept i round found).issued claim ((ordered.kept i round found).left claim member))
  refine ⟨after.history, after.within, fun i round found => ?_, fun i j first second claim one two inFirst inSecond => ?_⟩
  · rcases cases_ i round found with old | ⟨-, rfl⟩
    · exact after.kept i round old
    · exact started
  · rcases cases_ i first one with oldOne | ⟨lastOne, rfl⟩
    · rcases cases_ j second two with oldTwo | ⟨-, rfl⟩
      · exact ordered.apart i j first second claim oldOne oldTwo inFirst inSecond
      · exact absurd inSecond (fromOld i first oldOne claim inFirst)
    · rcases cases_ j second two with oldTwo | ⟨lastTwo, rfl⟩
      · exact absurd inFirst (fromOld j second oldTwo claim inSecond)
      · exact lastOne.trans lastTwo.symm

/-- A round is replaced by one that has no more claims left. -/
theorem Ordered.put {t : OutboxStore P} {round next : DispatchRound P} {index : Nat}
    {later : List (OutboxStore.Call P × OutboxStore.Answer P)} (ordered : Ordered policy capacity made s)
    (history : OutboxStore.Run capacity later t) (within : OutboxStore.Within policy.maxAttempts later)
    (found : s.rounds[index]? = some round) (kept : next.Kept capacity later) (fewer : ∀ claim ∈ next.left, claim ∈ round.left)
    (others : ∀ (i : Nat) (other : DispatchRound P), s.rounds[i]? = some other → i ≠ index → other.Kept capacity later) :
    Ordered policy capacity later ⟨t, s.rounds.set index next⟩ := by
  have bound := (List.getElem?_eq_some_iff.mp found).1
  have places : ∀ (i : Nat) (other : DispatchRound P), (s.rounds.set index next)[i]? = some other →
      i = index ∧ other = next ∨ i ≠ index ∧ s.rounds[i]? = some other := by
    intro i other isOther
    by_cases same : i = index
    · subst same
      rw [List.getElem?_set_self bound] at isOther
      exact Or.inl ⟨rfl, (Option.some.inj isOther).symm⟩
    · rw [List.getElem?_set_ne (Ne.symm same)] at isOther
      exact Or.inr ⟨same, isOther⟩
  -- What a round has left it had left before.
  have origin : ∀ (i : Nat) (other : DispatchRound P), (s.rounds.set index next)[i]? = some other →
      ∃ old : DispatchRound P, s.rounds[i]? = some old ∧ ∀ claim ∈ other.left, claim ∈ old.left := by
    intro i other isOther
    rcases places i other isOther with ⟨rfl, rfl⟩ | ⟨-, before⟩
    · exact ⟨round, found, fewer⟩
    · exact ⟨other, before, fun _ member => member⟩
  refine ⟨history, within, fun i other isOther => ?_, fun i j first second claim one two inFirst inSecond => ?_⟩
  · rcases places i other isOther with ⟨-, rfl⟩ | ⟨different, before⟩
    · exact kept
    · exact others i other before different
  · obtain ⟨oldFirst, wasFirst, fromFirst⟩ := origin i first one
    obtain ⟨oldSecond, wasSecond, fromSecond⟩ := origin j second two
    exact ordered.apart i j oldFirst oldSecond claim wasFirst wasSecond (fromFirst claim inFirst) (fromSecond claim inSecond)

/-- A round settles its next claim, which no other round has. -/
theorem Ordered.settles {index : Nat} {round : DispatchRound P} {rest : List (OutboxClaim P)} (ordered : Ordered policy capacity made s)
    (found : s.rounds[index]? = some round) (next : round.remaining = .ok (claim :: rest))
    (settlement : DispatchRound.Settlement policy claim call) :
    Ordered policy capacity (made ++ [(call, (s.store.answer call).1)])
      ⟨(s.store.answer call).2, s.rounds.set index (round.settled rest call (s.store.answer call).1)⟩ := by
  have kept := ordered.kept index round found
  have left : round.left = claim :: rest := by
    unfold DispatchRound.left
    rw [next]
  have mine : claim ∈ round.left := left ▸ List.mem_cons_self
  have fresh : OutboxStore.Fresh made call := by
    have isIssued := kept.issued claim (kept.left claim mine)
    cases call with
    | delivered => cases settlement.presented; exact isIssued
    | retry => cases settlement.presented; exact isIssued
    | failed => cases settlement.presented; exact isIssued
    | _ => cases settlement.presented
  have budget : ∀ other availableAt, call = .retry other availableAt → other.envelope.attempt + 1 < policy.maxAttempts :=
    settlement.budget
  refine ordered.put (ordered.history.next call fresh) (ordered.within.next ordered.history fresh budget) found
    (kept.settles ordered.history next settlement) (fun other member => ?_) fun i other isOther different => ?_
  · rw [left]
    unfold DispatchRound.left DispatchRound.settled at member
    split at member
    · rename_i remaining
      split at remaining
      · cases remaining
      · cases remaining
        exact List.mem_cons_of_mem _ member
    · cases member
  · refine (ordered.kept i other isOther).mono fun theirs member presented => ?_
    cases settlement.presented.symm.trans presented
    exact different (ordered.apart i index other round claim isOther found member mine)

theorem calls_none (input : Input P) : calls (past ++ [(input, none)]) = calls past := by
  simp [calls]

theorem calls_some (input : Input P) (made : OutboxStore.Call P × OutboxStore.Answer P) :
    calls (past ++ [(input, some made)]) = calls past ++ [made] := by
  simp [calls]

theorem Ordered.next (ordered : Ordered policy capacity (calls past) s) {input : Input P} (allowed : Allowed past input) :
    Ordered policy capacity (calls (past ++ [(input, (step policy s input).1)])) (step policy s input).2 := by
  cases input with
  | call call =>
    obtain ⟨notClaims, silent⟩ := allowed
    have fresh : OutboxStore.Fresh (calls past) call := by
      cases call with
      | add => trivial
      | claim => exact absurd trivial notClaims
      | delivered => cases silent
      | retry => cases silent
      | failed => cases silent
      | purgeDelivered => trivial
      | archiveFailed => trivial
    rw [step, calls_some]
    exact ordered.outside fresh silent
  | begin_ now limit claimTtl claimIds =>
    rw [step, calls_some]
    cases returned : (s.store.claim now limit claimTtl claimIds).1 with
    | error error => exact ordered.outside allowed rfl
    | ok claims => exact ordered.begins allowed returned
  | handle index result =>
    rw [step]
    cases found : s.rounds[index]? with
    | none =>
      rw [calls_none]
      exact ordered
    | some round =>
      have kept := ordered.kept index round found
      dsimp only
      cases next : round.remaining with
      | error error =>
        rw [calls_none]
        exact ordered
      | ok left =>
        cases left with
        | nil =>
          rw [calls_none]
          exact ordered
        | cons claim rest =>
          dsimp only
          cases settles : result >>= DispatchRound.settlement policy round.now claim with
          | error error =>
            rw [calls_none]
            exact ordered.put ordered.history ordered.within found (kept.raised error) (fun _ member => nomatch member)
              fun i other isOther _ => ordered.kept i other isOther
          | ok call =>
            obtain ⟨outcome, -, chosen⟩ := bind_ok settles
            rw [calls_some]
            exact ordered.settles found next (DispatchRound.settlement_ok chosen)

theorem Ordered.run (history : Run policy capacity past s) : Ordered policy capacity (calls past) s := by
  refine history.invariant (P := fun past s => Ordered policy capacity (calls past) s) ?_ fun _ _ _ ordered allowed => ordered.next allowed
  exact ⟨.start, (fun _ _ none_ => nomatch none_), (fun _ _ none_ => nomatch none_), fun _ _ _ _ _ none_ => nomatch none_⟩

/-- However the rounds of all dispatchers interleave: a message that is added with attempts left never uses them
up, is settled at most as often as it has attempts left, and for good at most once; and a round counts no more
settlements than claims, and as many if each of its claims was settled before it was taken over. -/
theorem rounds_bounded (history : Run policy capacity past s) :
    (∀ messageId record, OutboxStore.message messageId (calls past) = some record → record.added.attempt < policy.maxAttempts →
      (∃ item, s.store.items.get? messageId = some item ∧ item.envelope.attempt < policy.maxAttempts) ∧
      OutboxStore.settlements OutboxStore.settledBy messageId (calls past) ≤ policy.maxAttempts - record.added.attempt ∧
      OutboxStore.settlements OutboxStore.endedBy messageId (calls past) ≤ 1) ∧
    ∀ round ∈ s.rounds, round.summary.total ≤ round.summary.claimed ∧
      (round.remaining = .ok [] → (∀ claim ∈ round.claims, ¬OutboxStore.TakenFirst capacity claim (calls past)) →
        round.summary.total = round.summary.claimed) := by
  have ordered := Ordered.run history
  constructor
  · intro messageId record isRecord left
    have attempts := ordered.within messageId record isRecord left
    have tallied := OutboxStore.run_tallied ordered.history messageId record isRecord
    have reflected := (OutboxStore.Agrees.run ordered.history).reflected messageId
    rw [isRecord] at reflected
    generalize stored : s.store.items.get? messageId = value at reflected
    cases reflected with
    | some reflects =>
      have ended : OutboxStore.settlements OutboxStore.endedBy messageId (calls past) ≤ 1 := by
        rw [tallied.ended]
        split <;> omega
      have settled := tallied.settled
      have attempt := reflects.attempt
      exact ⟨⟨_, rfl, by omega⟩, by omega, ended⟩
  · intro round member
    obtain ⟨i, found⟩ := List.mem_iff_getElem?.mp member
    have kept := ordered.kept i round found
    have bounded := kept.bounded
    rw [kept.claimed]
    refine ⟨by omega, fun returned untaken => ?_⟩
    rcases kept.exactly [] returned with same | ⟨claim, among, taken⟩
    · exact same
    · exact absurd taken (untaken claim among)

/-- The claim of a first round runs out and a second round takes the message over. -/
def sampleInputs : List (Input Unit) :=
  [.call (.add (OutboxStore.sampleEnvelope "m" Sample.message_proper 0)), .begin_ 0 5 10 (Uuid.series 'a'), .begin_ 10 5 10 (Uuid.series 'b'),
    .handle 0 (.ok .delivered), .handle 1 (.ok (.retryable "busy" (by decide)))]

theorem overlapping_rounds :
    ∃ (past : List (Input Unit × Option (OutboxStore.Call Unit × OutboxStore.Answer Unit))) (s : Dispatching Unit),
      Run .sample 9 past s ∧ s.rounds.map (fun round => (round.summary.claimed, round.summary.total)) = [(1, 0), (1, 1)] ∧
      ∀ round ∈ s.rounds, round.summary.total ≤ round.summary.claimed := by
  have run : Run .sample 9 (History.transcript (step .sample) ⟨.empty 9, []⟩ sampleInputs)
      (History.after (step .sample) ⟨.empty 9, []⟩ sampleInputs) := by
    refine History.ofInputs ?_
    simp only [History.Permitted, sampleInputs, List.nil_append, List.cons_append]
    refine ⟨⟨id, rfl⟩, OutboxStore.fresh_series [] (by simp) ?_, OutboxStore.fresh_series ['a'] (by decide) ?_, trivial, trivial, trivial⟩
    · simp [calls, step]
    · simp +contextual [calls, step]
  exact ⟨_, _, run, by decide +kernel, fun round member => ((rounds_bounded run).2 round member).1⟩

end Dispatching

end Pytitect
