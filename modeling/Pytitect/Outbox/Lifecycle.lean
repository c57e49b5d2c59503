import Pytitect.Lib.History
import Pytitect.Outbox.Claims

namespace Pytitect.OutboxStore
variable {P : Type}

/-- A call with what `uuid4` supplies during it and how `archive` behaves. -/
inductive Call (P : Type)
  | add (envelope : OutboxEnvelope P)
  | claim (now limit claimTtl : Int) (claimIds : Nat → Uuid)
  | delivered (claim : OutboxClaim P) (at_ : Int)
  | retry (claim : OutboxClaim P) (availableAt : Int)
  | failed (claim : OutboxClaim P) (reason : String) (at_ : Int)
  | purgeDelivered (plan : OutboxPlan)
  | archiveFailed (plan : OutboxPlan) (archive : List (FailedOutboxEnvelope P) → Except PyError Unit)

/-- What a call returns or raises. For a clean-up it is noted too which messages it
removed. -/
inductive Answer (P : Type)
  | added (result : Except PyError OutboxAddResult)
  | claimed (result : Except PyError (List (OutboxClaim P)))
  | settled (result : Except PyError Bool)
  | cleaned (result : Except PyError MaintenanceSummary) (removed : List OpaqueId)

/-- The messages of the first store that the second has no longer. -/
def missing (s t : OutboxStore P) : List OpaqueId := s.items.keys.filter (· ∉ t.items.keys)

def answer (s : OutboxStore P) : Call P → Answer P × OutboxStore P
  | .add envelope => (.added (s.add envelope).1, (s.add envelope).2)
  | .claim now limit claimTtl claimIds =>
    (.claimed (s.claim now limit claimTtl claimIds).1, (s.claim now limit claimTtl claimIds).2)
  | .delivered claim at_ => (.settled (.ok (s.delivered claim at_).1), (s.delivered claim at_).2)
  | .retry claim availableAt => (.settled (.ok (s.retry claim availableAt).1), (s.retry claim availableAt).2)
  | .failed claim reason at_ => (.settled (s.failed claim reason at_).1, (s.failed claim reason at_).2)
  | .purgeDelivered plan =>
    (.cleaned (.ok (s.purgeDelivered plan).1) (s.missing (s.purgeDelivered plan).2), (s.purgeDelivered plan).2)
  | .archiveFailed plan archive =>
    (.cleaned (s.archiveFailed plan archive).1 (s.missing (s.archiveFailed plan archive).2), (s.archiveFailed plan archive).2)

/-- The claims that one call issued. -/
def issuedBy : Call P × Answer P → List (OutboxClaim P)
  | (_, .claimed (.ok claims)) => claims
  | _ => []

def issued (past : List (Call P × Answer P)) : List (OutboxClaim P) := past.flatMap issuedBy

/-- `uuid4` supplied the id to some call. -/
def Drawn (past : List (Call P × Answer P)) (claimId : Uuid) : Prop :=
  ∃ event ∈ past, ∃ now limit claimTtl claimIds i, event.1 = .claim now limit claimTtl claimIds ∧ claimIds i = claimId

/-- `uuid4` supplies no id twice, and settlements present issued claims. -/
def Fresh (past : List (Call P × Answer P)) : Call P → Prop
  | .claim _ _ _ claimIds => Function.Injective claimIds ∧ ∀ i, ¬Drawn past (claimIds i)
  | .delivered claim _ => claim ∈ issued past
  | .retry claim _ => claim ∈ issued past
  | .failed claim _ _ => claim ∈ issued past
  | _ => True

/-- Any calls at any times, with fresh claim ids and issued claims. -/
abbrev Run (capacity : Nat) : List (Call P × Answer P) → OutboxStore P → Prop :=
  History answer (fun _ => Fresh) (empty capacity)

inductive Ending
  | delivered
  | failed
  deriving DecidableEq

/-- What the calls since it was added have done to a message: its retries, its
last claim unless that was settled, and how it ended. -/
structure Message (P : Type) where
  added : OutboxEnvelope P
  retries : Nat
  pending : Option (OutboxClaim P)
  ended : Option Ending

/-- The message after a claim call. -/
def followClaims (messageId : OpaqueId) (message : Option (Message P)) :
    Except PyError (List (OutboxClaim P)) → Option (Message P)
  | .ok claims =>
    match (issuedFor messageId claims).getLast? with
    | some claim => message.map ({ · with pending := some claim })
    | none => message
  | .error _ => message

/-- The message after a settlement that presents the claim. -/
def followSettled (messageId : OpaqueId) (message : Option (Message P)) (claim : OutboxClaim P)
    (progress : Message P → Message P) : Except PyError Bool → Option (Message P)
  | .ok true => if claim.envelope.messageId = messageId then message.map progress else message
  | _ => message

/-- The message after one more call. -/
def follow (messageId : OpaqueId) (message : Option (Message P)) : Call P × Answer P → Option (Message P)
  | (.add envelope, .added (.ok .added)) =>
    if envelope.messageId = messageId then some ⟨envelope, 0, none, none⟩ else message
  | (.claim _ _ _ _, .claimed result) => followClaims messageId message result
  | (.delivered claim _, .settled result) =>
    followSettled messageId message claim ({ · with pending := none, ended := some .delivered }) result
  | (.retry claim _, .settled result) =>
    followSettled messageId message claim (fun m => { m with pending := none, retries := m.retries + 1 }) result
  | (.failed claim _ _, .settled result) =>
    followSettled messageId message claim ({ · with pending := none, ended := some .failed }) result
  | (_, .cleaned _ removed) => if messageId ∈ removed then none else message
  | _ => message

/-- A message that was added and not removed, as the calls so far have it. -/
def message (messageId : OpaqueId) (past : List (Call P × Answer P)) : Option (Message P) :=
  past.foldl (follow messageId) none

/-- The stored message is what the calls made of it. -/
structure Reflects (message : Message P) (item : StoredMessage P) : Prop where
  attempt : item.envelope.attempt = message.added.attempt + message.retries
  delivered : item.deliveredAt.isSome ↔ message.ended = some .delivered
  failed : item.failureReason.isSome ↔ message.ended = some .failed
  pending : item.claimedUntil = message.pending.map (·.claimedUntil)

variable {s t : OutboxStore P} {past : List (Call P × Answer P)} {claim : OutboxClaim P}
  {change : StoredMessage P → StoredMessage P} {messageId : OpaqueId}

theorem reflected_stored {message : Option (Message P)} {item : StoredMessage P}
    (reflected : Option.Rel Reflects message (s.items.get? messageId)) (found : s.items.get? messageId = some item) :
    ∃ record, message = some record ∧ Reflects record item := by
  rw [found] at reflected
  cases reflected with
  | some reflects => exact ⟨_, rfl, reflects⟩

/-- A settlement changes the message it is about, and the others stay. -/
theorem Settled.reflects {success : Bool} {progress : Message P → Message P} {before : OpaqueId → Option (Message P)}
    (settled : Settled s claim change success t) (reflected : ∀ messageId, Option.Rel Reflects (before messageId) (s.items.get? messageId))
    (forward : ∀ message item, Reflects message item → item.deliveredAt = none → item.failureReason = none →
      Reflects (progress message) { change item with claimId := none, claimedUntil := none }) (messageId : OpaqueId) :
    Option.Rel Reflects (followSettled messageId (before messageId) claim progress (.ok success)) (t.items.get? messageId) := by
  cases settled with
  | stale => exact reflected messageId
  | done item found _ undelivered unfailed =>
    dsimp only [followSettled]
    rw [Dict.get?_set]
    by_cases mine : claim.envelope.messageId = messageId
    · subst mine
      obtain ⟨message, isBefore, reflects⟩ := reflected_stored (reflected _) found
      rw [if_pos rfl, if_pos rfl, isBefore]
      exact .some (forward message item reflects undelivered unfailed)
    · rw [if_neg mine, if_neg (Ne.symm mine)]
      exact reflected messageId

theorem Reflects.running {message : Message P} {item : StoredMessage P} (reflects : Reflects message item)
    (undelivered : item.deliveredAt = none) (unfailed : item.failureReason = none) : message.ended = none := by
  cases ended : message.ended with
  | none => rfl
  | some ending =>
    cases ending with
    | delivered =>
      have delivered := reflects.delivered.mpr ended
      simp [undelivered] at delivered
    | failed =>
      have failed := reflects.failed.mpr ended
      simp [unfailed] at failed

variable {now limit claimTtl : Int} {claimIds : Nat → Uuid} {result : Except PyError (List (OutboxClaim P))}
  {before : OpaqueId → Option (Message P)}

/-- A claim call notes the claims it hands out; a spoiled claim still runs. -/
theorem Claimed.reflects {issues : List (OutboxClaim P)} {drawn : Uuid → Prop} (sound : Sound issues drawn s.items)
    (claimed : Claimed s now limit claimTtl claimIds result t)
    (reflected : ∀ messageId, Option.Rel Reflects (before messageId) (s.items.get? messageId)) (messageId : OpaqueId) :
    Option.Rel Reflects (followClaims messageId (before messageId) result) (t.items.get? messageId) := by
  cases claimed with
  | refused => exact reflected messageId
  | spoiled error spoiledId item found =>
    dsimp only [followClaims]
    rw [Dict.get?_set]
    split
    · rename_i mine
      subst mine
      obtain ⟨message, isBefore, reflects⟩ := reflected_stored (reflected _) found
      rw [isBefore]
      exact .some ⟨reflects.attempt, reflects.delivered, reflects.failed, reflects.pending⟩
    · exact reflected messageId
  | allReady =>
    dsimp only [followClaims]
    have messages : (handed claimIds (now + claimTtl) (s.ready now limit)).map (·.envelope.messageId) =
        (s.ready now limit).map Prod.fst := handed_messages sound
    rcases get?_marked_cases s.items claimIds (now + claimTtl) ready_distinct messageId with
      ⟨i, entry, isEntry, mine, marked⟩ | ⟨absent, same⟩
    · obtain ⟨found, -⟩ := mem_ready (List.mem_of_getElem? isEntry)
      rw [mine] at found
      obtain ⟨message, isBefore, reflects⟩ := reflected_stored (reflected _) found
      have member : ⟨claimIds i, entry.2.envelope, now + claimTtl⟩ ∈ handed claimIds (now + claimTtl) (s.ready now limit) := by
        obtain ⟨bound, isAt⟩ := List.getElem?_eq_some_iff.mp isEntry
        exact List.mem_mapIdx.mpr ⟨i, bound, by rw [isAt]⟩
      have one := issuedFor_of_separate (messages ▸ ready_distinct) member
      rw [(sound.own _ _ found : entry.2.envelope.messageId = messageId)] at one
      rw [marked, isBefore, one]
      exact .some ⟨reflects.attempt, reflects.delivered, reflects.failed, rfl⟩
    · have none : issuedFor messageId (handed claimIds (now + claimTtl) (s.ready now limit)) = [] := by
        refine List.filter_eq_nil_iff.mpr fun claim member => ?_
        rw [decide_eq_true_iff]
        intro mine
        exact absent (messages ▸ List.mem_map.mpr ⟨claim, member, mine⟩)
      rw [none, same]
      exact reflected messageId

/-- A clean-up pops some messages. -/
theorem purgeDelivered_popped (s : OutboxStore P) (plan : OutboxPlan) :
    ∃ gone, (s.purgeDelivered plan).2.items = s.items.popAll gone := by
  unfold purgeDelivered
  dsimp only
  split
  · exact ⟨[], rfl⟩
  · exact ⟨_, rfl⟩

theorem archiveFailed_popped (s : OutboxStore P) (plan : OutboxPlan)
    (archive : List (FailedOutboxEnvelope P) → Except PyError Unit) :
    ∃ gone, (s.archiveFailed plan archive).2.items = s.items.popAll gone := by
  unfold archiveFailed
  dsimp only
  split
  · exact ⟨[], rfl⟩
  split
  · exact ⟨[], rfl⟩
  · exact ⟨_, rfl⟩

theorem mem_missing : messageId ∈ s.missing t ↔ messageId ∈ s.items.keys ∧ t.items.get? messageId = none := by
  rw [missing, List.mem_filter, decide_eq_true_iff, Dict.get?_eq_none]

theorem get?_of_popped {gone : List OpaqueId} (popped : t.items = s.items.popAll gone) (messageId : OpaqueId) :
    t.items.get? messageId = if messageId ∈ s.missing t then none else s.items.get? messageId := by
  have popping := Dict.get?_popAll s.items gone messageId
  rw [← popped] at popping
  cases found : t.items.get? messageId with
  | none =>
    split
    · rfl
    · rename_i kept
      refine (Dict.get?_eq_none.mpr fun stored => ?_).symm
      exact kept (mem_missing.mpr ⟨stored, found⟩)
  | some item =>
    have kept : messageId ∉ s.missing t := by
      intro lost
      cases found.symm.trans (mem_missing.mp lost).2
    rw [if_neg kept]
    rw [found] at popping
    split at popping
    · cases popping
    · exact popping

theorem Sound.popped {issues : List (OutboxClaim P)} {drawn : Uuid → Prop} (sound : Sound issues drawn s.items)
    {gone : List OpaqueId} (popped : t.items = s.items.popAll gone) : Sound issues drawn t.items := by
  refine sound.keep fun messageId item found => ?_
  rw [get?_of_popped popped] at found
  split at found
  · cases found
  · exact ⟨sound.own _ _ found, Or.inr ⟨item, found, rfl, rfl⟩⟩

theorem reflects_popped {gone : List OpaqueId} (popped : t.items = s.items.popAll gone)
    (reflected : ∀ messageId, Option.Rel Reflects (before messageId) (s.items.get? messageId)) (messageId : OpaqueId) :
    Option.Rel Reflects (if messageId ∈ s.missing t then none else before messageId) (t.items.get? messageId) := by
  rw [get?_of_popped popped]
  split
  · exact .none
  · exact reflected messageId

/-- The stored messages after a run. -/
structure Agrees (past : List (Call P × Answer P)) (s : OutboxStore P) : Prop where
  sound : Sound (issued past) (Drawn past) s.items
  reflected : ∀ messageId, Option.Rel Reflects (message messageId past) (s.items.get? messageId)

theorem message_append (messageId : OpaqueId) (past : List (Call P × Answer P)) (event : Call P × Answer P) :
    message messageId (past ++ [event]) = follow messageId (message messageId past) event := by
  simp [message]

theorem issued_append (past : List (Call P × Answer P)) (event : Call P × Answer P) :
    issued (past ++ [event]) = issued past ++ issuedBy event := by
  simp [issued]

theorem Drawn.append {event : Call P × Answer P} {claimId : Uuid} (drawn : Drawn past claimId) :
    Drawn (past ++ [event]) claimId := by
  obtain ⟨earlier, member, rest⟩ := drawn
  exact ⟨earlier, List.mem_append_left _ member, rest⟩

theorem Agrees.next_sound (agrees : Agrees past s) {call : Call P} (fresh : Fresh past call) :
    Sound (issued past ++ issuedBy (call, (s.answer call).1)) (Drawn (past ++ [(call, (s.answer call).1)])) (s.answer call).2.items := by
  have sound : Sound (issued past) (Drawn (past ++ [(call, (s.answer call).1)])) s.items :=
    agrees.sound.drawMore fun _ => Drawn.append
  cases call with
  | add envelope => simpa [issuedBy, answer] using sound.added (s.add_added envelope)
  | claim now limit claimTtl claimIds =>
    obtain ⟨injective, unused⟩ := fresh
    obtain ⟨marked, holds⟩ := agrees.sound.claimed injective unused (s.claim_claimed now limit claimTtl claimIds)
    have supplied : Sound (issued past) (Drawn (past ++ [(.claim now limit claimTtl claimIds,
        (s.answer (.claim now limit claimTtl claimIds)).1)])) (s.claim now limit claimTtl claimIds).2.items := by
      refine marked.drawMore ?_
      rintro claimId (known | ⟨i, rfl⟩)
      · exact known.append
      · exact ⟨_, List.mem_append_right _ (List.mem_singleton_self _), now, limit, claimTtl, claimIds, i, rfl, rfl⟩
    generalize Drawn (past ++ _) = drawn at supplied ⊢
    change Sound (issued past ++ issuedBy (_, .claimed (s.claim now limit claimTtl claimIds).1)) drawn
      (s.claim now limit claimTtl claimIds).2.items
    cases returned : (s.claim now limit claimTtl claimIds).1 with
    | error error => simpa [issuedBy] using supplied
    | ok claims => exact supplied.report (holds claims returned)
  | delivered claim at_ =>
    have settled : Settled s claim (markDelivered at_) (s.delivered claim at_).1 (s.delivered claim at_).2 :=
      s.settle_settled claim _
    simpa [issuedBy, answer] using sound.settled settled fun _ => rfl
  | retry claim availableAt =>
    have settled : Settled s claim (markRetried availableAt) (s.retry claim availableAt).1 (s.retry claim availableAt).2 :=
      s.settle_settled claim _
    simpa [issuedBy, answer] using sound.settled settled fun _ => rfl
  | failed claim reason at_ =>
    generalize Drawn (past ++ _) = drawn at sound ⊢
    rcases s.failed_settled claim reason at_ with ⟨error, raised⟩ | ⟨-, success, after, returned, settled⟩
    · simpa [issuedBy, answer, raised] using sound
    · simpa [issuedBy, answer, returned] using sound.settled settled fun _ => rfl
  | purgeDelivered plan =>
    obtain ⟨gone, popped⟩ := s.purgeDelivered_popped plan
    simpa [issuedBy, answer] using sound.popped popped
  | archiveFailed plan archive =>
    obtain ⟨gone, popped⟩ := s.archiveFailed_popped plan archive
    simpa [issuedBy, answer] using sound.popped popped

theorem Agrees.next_reflected (agrees : Agrees past s) (call : Call P) (messageId : OpaqueId) :
    Option.Rel Reflects (follow messageId (message messageId past) (call, (s.answer call).1)) ((s.answer call).2.items.get? messageId) := by
  have reflected := agrees.reflected
  cases call with
  | add envelope =>
    have added := s.add_added envelope
    simp only [answer]
    generalize s.add envelope = pair at added ⊢
    obtain ⟨outcome, after⟩ := pair
    cases added with
    | refused refused =>
      rcases outcome with error | (_ | _)
      · exact reflected messageId
      · exact absurd rfl refused
      · exact reflected messageId
    | stored absent =>
      dsimp only [follow]
      rw [Dict.get?_set]
      by_cases mine : envelope.messageId = messageId
      · rw [if_pos mine, if_pos mine.symm]
        exact .some ⟨rfl, by simp, by simp, rfl⟩
      · rw [if_neg mine, if_neg (Ne.symm mine)]
        exact reflected messageId
  | claim now limit claimTtl claimIds =>
    exact (s.claim_claimed now limit claimTtl claimIds).reflects agrees.sound reflected messageId
  | delivered claim at_ =>
    have settled : Settled s claim (markDelivered at_) (s.delivered claim at_).1 (s.delivered claim at_).2 :=
      s.settle_settled claim _
    refine settled.reflects reflected (fun message item reflects undelivered unfailed => ?_) messageId
    exact ⟨reflects.attempt, by simp [markDelivered], by simp [markDelivered, unfailed], rfl⟩
  | retry claim availableAt =>
    have settled : Settled s claim (markRetried availableAt) (s.retry claim availableAt).1 (s.retry claim availableAt).2 :=
      s.settle_settled claim _
    refine settled.reflects reflected (fun message item reflects undelivered unfailed => ?_) messageId
    exact ⟨congrArg (· + 1) reflects.attempt, reflects.delivered, reflects.failed, rfl⟩
  | failed claim reason at_ =>
    rcases s.failed_settled claim reason at_ with ⟨error, raised⟩ | ⟨-, success, after, returned, settled⟩
    · rw [answer, raised]
      exact reflected messageId
    · rw [answer, returned]
      refine settled.reflects reflected (fun message item reflects undelivered unfailed => ?_) messageId
      exact ⟨reflects.attempt, by simp [markFailed, undelivered], by simp [markFailed], rfl⟩
  | purgeDelivered plan =>
    obtain ⟨gone, popped⟩ := s.purgeDelivered_popped plan
    exact reflects_popped popped reflected messageId
  | archiveFailed plan archive =>
    obtain ⟨gone, popped⟩ := s.archiveFailed_popped plan archive
    exact reflects_popped popped reflected messageId

theorem Agrees.next (agrees : Agrees past s) {call : Call P} (fresh : Fresh past call) :
    Agrees (past ++ [(call, (s.answer call).1)]) (s.answer call).2 := by
  constructor
  · rw [issued_append]
    exact agrees.next_sound fresh
  · intro messageId
    rw [message_append]
    exact agrees.next_reflected call messageId

theorem Agrees.run {capacity : Nat} (history : Run capacity past s) : Agrees past s :=
  history.invariant ⟨Sound.start.drawMore (by simp), fun _ => .none⟩ fun _ _ _ agrees fresh => agrees.next fresh

/-- The message of a claim, if it was settled. -/
def settledWith (claim : OutboxClaim P) : Except PyError Bool → List OpaqueId
  | .ok true => [claim.envelope.messageId]
  | _ => []

/-- The messages that one call claimed or settled. -/
def touchedBy : Call P × Answer P → List OpaqueId
  | (_, .claimed (.ok claims)) => claims.map (·.envelope.messageId)
  | (.delivered claim _, .settled result) => settledWith claim result
  | (.retry claim _, .settled result) => settledWith claim result
  | (.failed claim _ _, .settled result) => settledWith claim result
  | _ => []

theorem mem_settledWith {outcome : Except PyError Bool} (member : messageId ∈ settledWith claim outcome) :
    messageId = claim.envelope.messageId ∧ outcome = .ok true := by
  unfold settledWith at member
  split at member
  · exact ⟨List.mem_singleton.mp member, rfl⟩
  · cases member

/-- Some settlement with this claim would succeed. -/
def CanSettle (s : OutboxStore P) (claim : OutboxClaim P) : Prop :=
  (∃ at_, (s.delivered claim at_).1 = true) ∨ (∃ availableAt, (s.retry claim availableAt).1 = true) ∨
    ∃ reason at_, (s.failed claim reason at_).1 = .ok true

theorem CanSettle.held (can : CanSettle s claim) :
    ∃ item, s.items.get? claim.envelope.messageId = some item ∧ item.claimId = some claim.claimId ∧
      item.deliveredAt = none ∧ item.failureReason = none := by
  rcases can with ⟨at_, success⟩ | ⟨availableAt, success⟩ | ⟨reason, at_, success⟩
  · exact (s.settle_settled claim _).held success
  · exact (s.settle_settled claim _).held success
  · rcases s.failed_settled claim reason at_ with ⟨error, raised⟩ | ⟨-, succeeded, after, returned, settled⟩
    · rw [raised] at success
      cases success
    · rw [returned] at success
      exact settled.held (Except.ok.inj success)

/-- Whatever a call claims or settles is a message that has not ended. -/
theorem Agrees.touched (agrees : Agrees past s) {call : Call P} (touched : messageId ∈ touchedBy (call, (s.answer call).1)) :
    ∃ record, message messageId past = some record ∧ record.ended = none := by
  have settles : ∀ {claim : OutboxClaim P}, CanSettle s claim → ∃ item, s.items.get? claim.envelope.messageId = some item ∧
      item.deliveredAt = none ∧ item.failureReason = none := by
    intro claim can
    obtain ⟨item, found, -, ended⟩ := can.held
    exact ⟨item, found, ended⟩
  have running : ∃ item, s.items.get? messageId = some item ∧ item.deliveredAt = none ∧ item.failureReason = none := by
    cases call with
    | add => cases touched
    | purgeDelivered => cases touched
    | archiveFailed => cases touched
    | claim now limit claimTtl claimIds =>
      change messageId ∈ touchedBy (_, .claimed (s.claim now limit claimTtl claimIds).1) at touched
      cases returned : (s.claim now limit claimTtl claimIds).1 with
      | error error =>
        rw [returned] at touched
        cases touched
      | ok claims =>
        rw [returned] at touched
        obtain ⟨claim, member, rfl⟩ := List.mem_map.mp touched
        obtain ⟨item, found, may⟩ := agrees.sound.claimed_eligible returned member
        exact ⟨item, found, (eligible_iff.mp may).2.1, (eligible_iff.mp may).2.2.1⟩
    | delivered claim at_ =>
      obtain ⟨rfl, success⟩ := mem_settledWith touched
      exact settles (Or.inl ⟨at_, Except.ok.inj success⟩)
    | retry claim availableAt =>
      obtain ⟨rfl, success⟩ := mem_settledWith touched
      exact settles (Or.inr (Or.inl ⟨availableAt, Except.ok.inj success⟩))
    | failed claim reason at_ =>
      obtain ⟨rfl, success⟩ := mem_settledWith touched
      exact settles (Or.inr (Or.inr ⟨reason, at_, success⟩))
  obtain ⟨item, found, undelivered, unfailed⟩ := running
  obtain ⟨record, isRecord, reflects⟩ := reflected_stored (agrees.reflected messageId) found
  exact ⟨record, isRecord, reflects.running undelivered unfailed⟩

/-- What a claim call does, after the calls so far: it returns the first messages
that are eligible, in order, and none whose last claim is unsettled and runs on. -/
structure Serves (past : List (Call P × Answer P)) (s : OutboxStore P) (now limit claimTtl : Int) (claimIds : Nat → Uuid) :
    Prop where
  returns : 0 < limit → 0 < claimTtl → Fits now claimTtl →
    (s.claim now limit claimTtl claimIds).1 = .ok (handed claimIds (now + claimTtl) (s.ready now limit))
  exactly : ∀ claims, (s.claim now limit claimTtl claimIds).1 = .ok claims →
    claims.map (·.envelope) = (s.ready now limit).map (·.2.envelope)
  ordered : (s.ready now limit).Pairwise Before
  first : ∀ messageId item, s.items.get? messageId = some item → eligible now (messageId, item) = true →
    (messageId, item) ∈ s.ready now limit ∨
      (s.ready now limit).length = limit.toNat ∧ ∀ chosen ∈ s.ready now limit, Before chosen (messageId, item)
  expired : ∀ claims, (s.claim now limit claimTtl claimIds).1 = .ok claims → ∀ claim ∈ claims,
    ∃ record, message claim.envelope.messageId past = some record ∧
      ∀ pending, record.pending = some pending → pending.claimedUntil ≤ now

theorem handed_envelopes (claimedUntil : Int) (entries : List (OpaqueId × StoredMessage P)) :
    (handed claimIds claimedUntil entries).map (·.envelope) = entries.map (·.2.envelope) := by
  refine List.ext_getElem? fun i => ?_
  simp [handed, Function.comp_def]

theorem Agrees.serves (agrees : Agrees past s) (now limit claimTtl : Int) (claimIds : Nat → Uuid) :
    Serves past s now limit claimTtl claimIds where
  returns := claim_returns
  exactly := by
    intro claims returned
    rw [claim_returned returned, handed_envelopes]
  ordered := ready_ordered
  first := fun _ _ => ready_first
  expired := by
    intro claims returned claim member
    obtain ⟨item, found, may⟩ := agrees.sound.claimed_eligible returned member
    obtain ⟨record, isRecord, reflects⟩ := reflected_stored (agrees.reflected _) found
    refine ⟨record, isRecord, fun pending isPending => ?_⟩
    have until_ := reflects.pending
    rw [isPending] at until_
    exact (eligible_iff.mp may).2.2.2 _ until_

/-- One claim at most can settle a message, and a message ends once; its attempts
are counted, its id is taken until it is removed, and claim calls are served in
order. -/
theorem outbox_state_machine {capacity : Nat} (history : Run capacity past s) :
    (((issued past).map (·.claimId)).Nodup ∧ ∀ first ∈ issued past, ∀ second ∈ issued past,
      first.envelope.messageId = second.envelope.messageId → CanSettle s first → CanSettle s second → first = second) ∧
    (∀ messageId, Option.Rel Reflects (message messageId past) (s.items.get? messageId)) ∧
    (∀ messageId item, s.items.get? messageId = some item → item.deliveredAt = none ∨ item.failureReason = none) ∧
    (∀ before event after, past = before ++ event :: after → ∀ messageId ∈ touchedBy event,
      ∃ record, message messageId before = some record ∧ record.ended = none) ∧
    (∀ envelope record, message envelope.messageId past = some record → s.add envelope = (.ok .duplicate, s)) ∧
    ∀ now limit claimTtl claimIds, Serves past s now limit claimTtl claimIds := by
  have agrees := Agrees.run history
  refine ⟨⟨agrees.sound.distinct, fun first inFirst second inSecond same canFirst canSecond => ?_⟩, agrees.reflected,
    fun messageId item found => ?_, fun before event after split => ?_, fun envelope record isRecord => ?_, agrees.serves⟩
  · obtain ⟨item, found, holds, -⟩ := canFirst.held
    obtain ⟨other, foundOther, holdsOther, -⟩ := canSecond.held
    rw [← same] at foundOther
    cases found.symm.trans foundOther
    exact List.inj_on_of_nodup_map agrees.sound.distinct inFirst inSecond (Option.some.inj (holds.symm.trans holdsOther))
  · obtain ⟨record, -, reflects⟩ := reflected_stored (agrees.reflected messageId) found
    by_contra both
    push Not at both
    have delivered := reflects.delivered.mp (Option.isSome_iff_ne_none.mpr both.1)
    have failed := reflects.failed.mp (Option.isSome_iff_ne_none.mpr both.2)
    cases delivered.symm.trans failed
  · exact history.each
      (P := fun before event => ∀ messageId ∈ touchedBy event, ∃ record, message messageId before = some record ∧ record.ended = none)
      (fun past s call run _ messageId touched => (Agrees.run run).touched touched) split
  · have stored := agrees.reflected envelope.messageId
    rw [isRecord] at stored
    have present : envelope.messageId ∈ s.items.keys := by
      by_contra absent
      rw [Dict.get?_eq_none.mpr absent] at stored
      cases stored
    exact if_pos present

/-- A series of ids is fresh after claim calls that were supplied from other series. -/
theorem fresh_series {letter : Char} (used : List Char) (other : letter ∉ used)
    (supplied : ∀ event ∈ past, ∀ now limit claimTtl claimIds, event.1 = .claim now limit claimTtl claimIds →
      claimIds ∈ used.map Uuid.series) :
    Function.Injective (Uuid.series letter) ∧ ∀ i, ¬Drawn past (Uuid.series letter i) := by
  refine ⟨Uuid.series_injective letter, ?_⟩
  rintro i ⟨event, member, now, limit, claimTtl, claimIds, j, isClaim, drawn⟩
  obtain ⟨taken, among, rfl⟩ := List.mem_map.mp (supplied event member now limit claimTtl claimIds isClaim)
  have different : taken ≠ letter := fun same => other (same ▸ among)
  exact Uuid.series_disjoint different j i drawn

def sampleEnvelope (value : String) (proper : value ≠ "" ∧ trimmed value) (availableAt : Int) : OutboxEnvelope Unit :=
  ⟨⟨value, proper⟩, "t", (), 0, availableAt, 0, Sample.topic_named⟩

/-- A claim runs out and is replaced; then the old claim tries to deliver, the new
one asks for a retry, and the message is added again. -/
def sampleCalls : List (Call Unit) :=
  let envelope := sampleEnvelope "m" Sample.message_proper 0
  [.add envelope, .claim 0 5 10 (Uuid.series 'a'), .claim 10 5 10 (Uuid.series 'b'),
    .delivered ⟨Uuid.series 'a' 0, envelope, 10⟩ 11, .retry ⟨Uuid.series 'b' 0, envelope, 20⟩ 30, .add envelope]

theorem late_settlement_refused :
    ∃ (past : List (Call Unit × Answer Unit)) (s : OutboxStore Unit), Run 9 past s ∧ (issued past).map (·.claimedUntil) = [10, 20] ∧
      (past.flatMap touchedBy).length = 3 ∧
      (∀ messageId, Option.Rel Reflects (message messageId past) (s.items.get? messageId)) ∧
      (s.items.items.map fun entry => (entry.2.envelope.attempt, entry.2.envelope.availableAt)) = [(1, 30)] := by
  have run : Run 9 (History.transcript answer (empty 9) sampleCalls) (History.after answer (empty 9) sampleCalls) := by
    refine History.ofInputs ?_
    simp only [History.Permitted, sampleCalls, List.nil_append, List.cons_append]
    refine ⟨trivial, fresh_series [] (by simp) (by simp), fresh_series ['a'] (by decide) (by simp +contextual), ?_, ?_, trivial, trivial⟩
    · change _ ∈ issued _
      decide +kernel
    · change _ ∈ issued _
      decide +kernel
  exact ⟨_, _, run, by decide +kernel, by decide +kernel, (outbox_state_machine run).2.1, by decide +kernel⟩

end Pytitect.OutboxStore
