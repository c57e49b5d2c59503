import Pytitect.Lib.History
import Pytitect.Outbox.Claims
import Pytitect.Aio.Outbox

namespace Pytitect.AsyncOutboxStore
variable {P : Type}
open OutboxStore (Sound Holds issuedFor Settled)

/-- A call with what `uuid4` supplies during it and how `_size` behaves. -/
inductive Call (P : Type)
  | add (envelope : OutboxEnvelope P)
  | claim (size : P → Except PyError Int) (now limit claimTtl : Int) (maxBytes : Option Int) (claimIds : Nat → Uuid)
  | delivered (claim : OutboxClaim P) (at_ : Int)
  | retry (claim : OutboxClaim P) (availableAt at_ : Int)
  | defer (claim : OutboxClaim P) (availableAt at_ : Int)
  | failed (claim : OutboxClaim P) (reason : String) (at_ : Int)
  | uncertain (claim : OutboxClaim P) (reason : String) (at_ : Int)
  | resolveUncertain (messageId : OpaqueId) (expectedAt : Int) (delivered : Bool) (availableAt at_ : Int)

inductive Answer (P : Type)
  | added (result : Except PyError OutboxAddResult)
  | claimed (result : Except PyError (List (OutboxClaim P)))
  | settled (result : Except PyError SettlementResult)

def answer (s : AsyncOutboxStore P) : Call P → Answer P × AsyncOutboxStore P
  | .add envelope => (.added (s.add envelope).1, (s.add envelope).2)
  | .claim size now limit claimTtl maxBytes claimIds =>
    (.claimed (s.claim size now limit claimTtl maxBytes claimIds).1, (s.claim size now limit claimTtl maxBytes claimIds).2)
  | .delivered claim at_ => (.settled (.ok (s.delivered claim at_).1), (s.delivered claim at_).2)
  | .retry claim availableAt at_ => (.settled (.ok (s.retry claim availableAt at_).1), (s.retry claim availableAt at_).2)
  | .defer claim availableAt at_ => (.settled (.ok (s.defer claim availableAt at_).1), (s.defer claim availableAt at_).2)
  | .failed claim reason at_ => (.settled (s.failed claim reason at_).1, (s.failed claim reason at_).2)
  | .uncertain claim reason at_ => (.settled (s.uncertain claim reason at_).1, (s.uncertain claim reason at_).2)
  | .resolveUncertain messageId expectedAt delivered availableAt at_ =>
    (.settled (s.resolveUncertain messageId expectedAt delivered availableAt at_).1,
      (s.resolveUncertain messageId expectedAt delivered availableAt at_).2)

/-- The claims that one call issued. -/
def issuedBy : Call P × Answer P → List (OutboxClaim P)
  | (_, .claimed (.ok claims)) => claims
  | _ => []

def issued (past : List (Call P × Answer P)) : List (OutboxClaim P) := past.flatMap issuedBy

/-- The claim that a call presents, with the time of the call. -/
def presented : Call P → Option (OutboxClaim P × Int)
  | .delivered claim at_ => some (claim, at_)
  | .retry claim _ at_ => some (claim, at_)
  | .defer claim _ at_ => some (claim, at_)
  | .failed claim _ at_ => some (claim, at_)
  | .uncertain claim _ at_ => some (claim, at_)
  | _ => none

/-- The settlement was not refused. -/
def succeeded : Answer P → Bool
  | .settled (.ok .applied) => true
  | .settled (.ok .deferred) => true
  | _ => false

/-- `uuid4` supplied the id to some call. -/
def Drawn (past : List (Call P × Answer P)) (claimId : Uuid) : Prop :=
  ∃ event ∈ past, ∃ size now limit claimTtl maxBytes claimIds i,
    event.1 = .claim size now limit claimTtl maxBytes claimIds ∧ claimIds i = claimId

/-- `uuid4` supplies no id twice, and settlements present issued claims. -/
structure Fresh (past : List (Call P × Answer P)) (call : Call P) : Prop where
  supply : ∀ size now limit claimTtl maxBytes claimIds, call = .claim size now limit claimTtl maxBytes claimIds →
    Function.Injective claimIds ∧ ∀ i, ¬Drawn past (claimIds i)
  issued : ∀ claim at_, presented call = some (claim, at_) → claim ∈ issued past

/-- Any calls at any times, with fresh claim ids and issued claims. -/
abbrev Run (capacity : Nat) : List (Call P × Answer P) → AsyncOutboxStore P → Prop :=
  History answer (fun _ => Fresh) (empty capacity)

/-- The mark on a message after one more call: set by `uncertain`, and taken away by
`resolve_uncertain`. -/
def followMark (messageId : OpaqueId) (mark : Option Int) : Call P × Answer P → Option Int
  | (.uncertain claim _ at_, .settled (.ok .applied)) => if claim.envelope.messageId = messageId then some at_ else mark
  | (.resolveUncertain resolved _ _ _ _, .settled (.ok .applied)) => if resolved = messageId then none else mark
  | _ => mark

/-- When the message was marked uncertain, if that is not resolved. -/
def mark (messageId : OpaqueId) (past : List (Call P × Answer P)) : Option Int :=
  past.foldl (followMark messageId) none

/-- The messages that one call returned or settled. -/
def touchedBy : Call P × Answer P → List OpaqueId
  | (_, .claimed (.ok claims)) => claims.map (·.envelope.messageId)
  | (call, answer) => if succeeded answer then (presented call).toList.map (·.1.envelope.messageId) else []

/-- Every message held as uncertain is there, and nobody has a claim on it. -/
def Retained (s : AsyncOutboxStore P) : Prop :=
  ∀ messageId stamp, s.uncertainAt.get? messageId = some stamp →
    ∃ item, s.store.items.get? messageId = some item ∧ item.claimId = none

/-- The stored messages after a run. -/
structure Agrees (past : List (Call P × Answer P)) (s : AsyncOutboxStore P) : Prop where
  sound : Sound (issued past) (Drawn past) s.store.items
  marks : ∀ messageId, s.uncertainAt.get? messageId = mark messageId past
  retained : Retained s

variable {s : AsyncOutboxStore P} {past : List (Call P × Answer P)} {claim : OutboxClaim P} {at_ : Int}
  {issues claims : List (OutboxClaim P)} {drawn : Uuid → Prop} {items : Dict OpaqueId (StoredMessage P)}

/-- Popping ids that are all there returns their messages. -/
theorem hold_ok {messageIds : List OpaqueId} (distinct : messageIds.Nodup)
    (present : ∀ messageId ∈ messageIds, ∃ item, items.get? messageId = some item) :
    ∃ held, hold items messageIds = (.ok held, items.popAll messageIds) ∧ held.map Prod.fst = messageIds ∧
      ∀ entry ∈ held, items.get? entry.1 = some entry.2 := by
  induction messageIds generalizing items with
  | nil => exact ⟨[], rfl, rfl, by simp⟩
  | cons messageId rest ih =>
    obtain ⟨fresh, distinctRest⟩ := List.nodup_cons.mp distinct
    obtain ⟨item, found⟩ := present messageId (List.mem_cons_self ..)
    have others : ∀ other ∈ rest, (items.pop messageId).get? other = items.get? other := by
      intro other member
      have different : other ≠ messageId := fun same => fresh (same ▸ member)
      simp [different]
    obtain ⟨held, popped, keys, stored⟩ := @ih (items.pop messageId) distinctRest fun other member => by
      rw [others other member]
      exact present other (List.mem_cons_of_mem _ member)
    refine ⟨(messageId, item) :: held, ?_, by simp [keys], ?_⟩
    · rw [hold, found]
      dsimp only
      rw [popped]
      rfl
    · intro entry member
      rcases List.mem_cons.mp member with rfl | later
      · exact found
      · have inRest : entry.1 ∈ rest := keys ▸ List.mem_map_of_mem later
        rw [← others _ inRest]
        exact stored entry later

/-- The claims behind the first are still held when the first one's message changes. -/
theorem Holds.setHead {claim : OutboxClaim P} {rest : List (OutboxClaim P)} {items : Dict OpaqueId (StoredMessage P)}
    (holds : Holds issues (claim :: rest) items) (next : StoredMessage P) :
    Holds issues rest (items.set claim.envelope.messageId next) := by
  obtain ⟨fresh, separateRest⟩ := List.nodup_cons.mp holds.separate
  refine ⟨fun chosen member => ?_, fun chosen member => holds.unissued chosen (List.mem_cons_of_mem _ member), separateRest⟩
  have different : chosen.envelope.messageId ≠ claim.envelope.messageId :=
    fun same => fresh (List.mem_map.mpr ⟨chosen, member, same⟩)
  obtain ⟨value, foundValue, isHeld⟩ := holds.held chosen (List.mem_cons_of_mem _ member)
  exact ⟨value, (Dict.get?_set_of_ne different).trans foundValue, isHeld⟩

/-- What a bounded call does to the claims it has made. -/
structure Trimmed (issues claims : List (OutboxClaim P)) (drawn : Uuid → Prop) (items : Dict OpaqueId (StoredMessage P))
    (outcome : Except PyError (List (OutboxClaim P)) × OutboxStore P) : Prop where
  sound : Sound issues drawn outcome.2.items
  frame : ∀ messageId, messageId ∉ claims.map (·.envelope.messageId) → outcome.2.items.get? messageId = items.get? messageId
  selects : ∀ selected, outcome.1 = .ok selected → selected.Sublist claims ∧ Holds issues selected outcome.2.items

theorem bounded_trims {size : P → Except PyError Int} {maxBytes retained : Int} {store : OutboxStore P}
    (sound : Sound issues drawn store.items) (holds : Holds issues claims store.items) :
    Trimmed issues claims drawn store.items (bounded size maxBytes claims retained store) := by
  induction claims generalizing store retained with
  | nil =>
    refine ⟨sound, fun _ _ => rfl, fun selected returned => ?_⟩
    cases returned
    exact ⟨.refl _, holds⟩
  | cons claim rest ih =>
    have stopped : ∀ error, Trimmed issues (claim :: rest) drawn store.items (.error error, store) :=
      fun error => ⟨sound, fun _ _ => rfl, by simp⟩
    have fresh := (List.nodup_cons.mp holds.separate).1
    unfold bounded
    split
    · exact stopped _
    rename_i size' _
    split
    · exact stopped _
    split
    · have trimmed := @ih (retained + size') store sound (holds.sublist (List.sublist_cons_self ..))
      generalize bounded size maxBytes rest (retained + size') store = outcome at trimmed ⊢
      obtain ⟨error | selected, after⟩ := outcome
      · exact ⟨trimmed.sound, fun messageId absent => trimmed.frame messageId (mt (List.mem_cons_of_mem _) absent), by simp⟩
      refine ⟨trimmed.sound, fun messageId absent => trimmed.frame messageId (mt (List.mem_cons_of_mem _) absent), ?_⟩
      intro all returned
      cases returned
      obtain ⟨sub, kept⟩ := trimmed.selects selected rfl
      refine ⟨sub.cons_cons claim, ?_, ?_, holds.separate.sublist ((sub.cons_cons claim).map _)⟩
      · intro chosen member
        rcases List.mem_cons.mp member with rfl | later
        · obtain ⟨item, found, isHeld⟩ := holds.held chosen (List.mem_cons_self ..)
          exact ⟨item, (trimmed.frame _ fresh).trans found, isHeld⟩
        · exact kept.held chosen later
      · exact fun chosen member => holds.unissued chosen ((sub.cons_cons claim).mem member)
    · split
      · exact stopped _
      rename_i item valid
      obtain ⟨found, -⟩ := OutboxStore.valid_some valid
      have others : ∀ messageId, messageId ≠ claim.envelope.messageId →
          (store.items.set claim.envelope.messageId (released item)).get? messageId = store.items.get? messageId :=
        fun messageId different => Dict.get?_set_of_ne different
      have soundNow : Sound issues drawn (store.items.set claim.envelope.messageId (released item)) :=
        sound.put (sound.own _ item found) (Or.inl rfl)
      have trimmed := @ih retained { store with items := store.items.set claim.envelope.messageId (released item) } soundNow
        (Holds.setHead holds _)
      refine ⟨trimmed.sound, fun messageId absent => ?_, fun selected returned => ?_⟩
      · rw [List.map_cons, List.mem_cons, not_or] at absent
        exact (trimmed.frame messageId absent.2).trans (others messageId absent.1)
      · exact (trimmed.selects selected returned).imp_left fun sub => sub.cons claim

/-- The same with or without a bound, for claims that the store holds. -/
theorem limited_trims {size : P → Except PyError Int} {maxBytes : Option Int} {store : OutboxStore P}
    {result : Except PyError (List (OutboxClaim P))} (sound : Sound issues drawn store.items)
    (holds : ∀ claims, result = .ok claims → Holds issues claims store.items) :
    ∃ claims, (result = .ok claims ∨ claims = []) ∧ Trimmed issues claims drawn store.items (limited size maxBytes result store) := by
  unfold limited
  split
  · exact ⟨[], Or.inr rfl, sound, fun _ _ => rfl, by simp⟩
  · rename_i claims
    refine ⟨claims, Or.inl rfl, sound, fun _ _ => rfl, fun selected returned => ?_⟩
    cases returned
    exact ⟨.refl _, holds claims rfl⟩
  · rename_i claims maxBytes
    exact ⟨claims, Or.inl rfl, bounded_trims sound (holds claims rfl)⟩

theorem current_held (isCurrent : s.current claim at_ = true) :
    ∃ item, s.store.items.get? claim.envelope.messageId = some item ∧ item.claimId = some claim.claimId ∧
      s.store.valid claim = some item ∧ at_ < claim.claimedUntil := by
  unfold current at isCurrent
  split at isCurrent
  · cases isCurrent
  rename_i item valid
  obtain ⟨found, holds, -⟩ := OutboxStore.valid_some valid
  rw [Bool.and_eq_true, decide_eq_true_iff, decide_eq_true_iff] at isCurrent
  exact ⟨item, found, holds, valid, isCurrent.2⟩

/-- What the settlements can do with a claim: nothing, or settle it while it is current;
`marking` says that the message is then held. -/
inductive Settling (s : AsyncOutboxStore P) (claim : OutboxClaim P) (at_ : Int) (marking : Bool) :
    Except PyError SettlementResult → AsyncOutboxStore P → Prop
  | refused {result : Except PyError SettlementResult} : succeeded (P := P) (.settled result) = false →
      Settling s claim at_ marking result s
  | done {result : SettlementResult} (change : StoredMessage P → StoredMessage P) (item : StoredMessage P) :
      s.current claim at_ = true → result ≠ .stale → (marking = true → result = .applied) →
      (∀ item, (change item).envelope.messageId = item.envelope.messageId) →
      s.store.items.get? claim.envelope.messageId = some item →
      Settling s claim at_ marking (.ok result)
        ⟨{ s.store with items := s.store.items.set claim.envelope.messageId (released (change item)) },
          if marking then s.uncertainAt.set claim.envelope.messageId at_ else s.uncertainAt⟩

theorem Settling.of_current {marking : Bool} {result : SettlementResult} (change : StoredMessage P → StoredMessage P)
    (isCurrent : s.current claim at_ = true) (success : result ≠ .stale) (marks : marking = true → result = .applied)
    (own : ∀ item, (change item).envelope.messageId = item.envelope.messageId) :
    Settling s claim at_ marking (.ok result)
      ⟨(s.store.settle claim change).2, if marking then s.uncertainAt.set claim.envelope.messageId at_ else s.uncertainAt⟩ := by
  obtain ⟨item, found, -, valid, -⟩ := current_held isCurrent
  rw [OutboxStore.settle, valid]
  exact .done change item isCurrent success marks own found

theorem delivered_settling (s : AsyncOutboxStore P) (claim : OutboxClaim P) (at_ : Int) :
    Settling s claim at_ false (.ok (s.delivered claim at_).1) (s.delivered claim at_).2 := by
  unfold delivered
  split
  · rename_i isCurrent
    exact .of_current (OutboxStore.markDelivered at_) isCurrent (by simp) (by simp) fun _ => rfl
  · exact .refused rfl

theorem retry_settling (s : AsyncOutboxStore P) (claim : OutboxClaim P) (availableAt at_ : Int) :
    Settling s claim at_ false (.ok (s.retry claim availableAt at_).1) (s.retry claim availableAt at_).2 := by
  unfold retry
  split
  · rename_i isCurrent
    exact .of_current (OutboxStore.markRetried availableAt) isCurrent (by simp) (by simp) fun _ => rfl
  · exact .refused rfl

theorem defer_settling (s : AsyncOutboxStore P) (claim : OutboxClaim P) (availableAt at_ : Int) :
    Settling s claim at_ false (.ok (s.defer claim availableAt at_).1) (s.defer claim availableAt at_).2 := by
  unfold defer
  split
  · rename_i isCurrent
    exact .of_current (markDeferred availableAt) isCurrent (by simp) (by simp) fun _ => rfl
  · exact .refused rfl

theorem failed_settling (s : AsyncOutboxStore P) (claim : OutboxClaim P) (reason : String) (at_ : Int) :
    Settling s claim at_ false (s.failed claim reason at_).1 (s.failed claim reason at_).2 := by
  unfold failed
  split
  · rename_i isCurrent
    unfold OutboxStore.failed
    split
    · exact .refused rfl
    · exact .of_current (OutboxStore.markFailed reason at_) isCurrent (by simp) (by simp) fun _ => rfl
  · exact .refused rfl

theorem uncertain_settling (s : AsyncOutboxStore P) (claim : OutboxClaim P) (reason : String) (at_ : Int) :
    Settling s claim at_ true (s.uncertain claim reason at_).1 (s.uncertain claim reason at_).2 := by
  unfold uncertain
  split
  · exact .refused rfl
  split
  · rename_i isCurrent
    exact .of_current id isCurrent (by simp) (by simp) fun _ => rfl
  · exact .refused rfl

section Settling
variable {marking : Bool} {result : Except PyError SettlementResult} {t : AsyncOutboxStore P}

theorem Settling.sound (settling : Settling s claim at_ marking result t) (sound : Sound issues drawn s.store.items) :
    Sound issues drawn t.store.items := by
  cases settling with
  | refused => exact sound
  | done change item isCurrent _ _ own found =>
    exact sound.put ((own item).trans (sound.own _ item found)) (Or.inl rfl)

/-- All uncertain messages stay as they are. -/
theorem Settling.retained (settling : Settling s claim at_ marking result t) (retained : Retained s) : Retained t := by
  cases settling with
  | refused => exact retained
  | done change item isCurrent _ _ own found =>
    intro messageId stamp marked
    dsimp only at marked ⊢
    rw [Dict.get?_set]
    split
    · exact ⟨_, rfl, rfl⟩
    · rename_i different
      refine retained messageId stamp ?_
      split at marked
      · rwa [Dict.get?_set_of_ne different] at marked
      · exact marked

/-- A settlement succeeds with the claim issued last, before it runs out. -/
theorem Settling.latest (settling : Settling s claim at_ marking result t) (sound : Sound issues drawn s.store.items)
    (wasIssued : claim ∈ issues) (success : succeeded (P := P) (.settled result) = true) :
    (issuedFor claim.envelope.messageId issues).getLast? = some claim ∧ at_ < claim.claimedUntil := by
  cases settling with
  | refused refused =>
    rw [refused] at success
    cases success
  | done change item isCurrent _ _ own found =>
    obtain ⟨held, foundHeld, holds, -, running⟩ := current_held isCurrent
    exact ⟨(sound.latest _ held claim foundHeld wasIssued holds).1, running⟩

theorem Settling.certain (settling : Settling s claim at_ marking result t) (retained : Retained s)
    (success : succeeded (P := P) (.settled result) = true) : s.uncertainAt.get? claim.envelope.messageId = none := by
  cases settling with
  | refused refused =>
    rw [refused] at success
    cases success
  | done change item isCurrent =>
    obtain ⟨held, foundHeld, holds, -⟩ := current_held isCurrent
    cases marked : s.uncertainAt.get? claim.envelope.messageId with
    | none => rfl
    | some stamp =>
      obtain ⟨other, foundOther, unclaimed⟩ := retained _ stamp marked
      cases foundHeld.symm.trans foundOther
      cases unclaimed.symm.trans holds

theorem Settling.unmarked (settling : Settling s claim at_ false result t) : t.uncertainAt = s.uncertainAt := by
  cases settling with
  | refused => rfl
  | done => rfl

theorem Settling.marked (settling : Settling s claim at_ true result t) (reason : String) (messageId : OpaqueId) :
    t.uncertainAt.get? messageId =
      followMark messageId (s.uncertainAt.get? messageId) (.uncertain claim reason at_, .settled result) := by
  cases settling with
  | refused refused =>
    rcases result with error | (_ | _ | _)
    · rfl
    · cases refused
    · rfl
    · rfl
  | done _ _ _ _ applied =>
    cases applied rfl
    dsimp only [followMark]
    rw [if_pos rfl, Dict.get?_set]
    by_cases mine : claim.envelope.messageId = messageId
    · rw [if_pos mine, if_pos mine.symm]
    · rw [if_neg mine, if_neg (Ne.symm mine)]

end Settling

/-- What a claim call does; it never touches what is uncertain. -/
structure Served (issues : List (OutboxClaim P)) (drawn : Uuid → Prop) (s : AsyncOutboxStore P)
    (outcome : Except PyError (List (OutboxClaim P)) × AsyncOutboxStore P) : Prop where
  sound : Sound issues drawn outcome.2.store.items
  same : outcome.2.uncertainAt = s.uncertainAt
  frame : ∀ messageId stamp, s.uncertainAt.get? messageId = some stamp →
    outcome.2.store.items.get? messageId = s.store.items.get? messageId
  holds : ∀ claims, outcome.1 = .ok claims → Holds issues claims outcome.2.store.items
  certain : ∀ claims, outcome.1 = .ok claims → ∀ claim ∈ claims, s.uncertainAt.get? claim.envelope.messageId = none

theorem mem_keys {messageId : OpaqueId} : messageId ∈ s.uncertainAt.keys ↔ (s.uncertainAt.get? messageId).isSome := by
  rw [Option.isSome_iff_ne_none, ne_eq, Dict.get?_eq_none, not_not]

theorem Retained.hold_ok (retained : Retained s) :
    ∃ held, hold s.store.items s.uncertainAt.keys = (.ok held, s.store.items.popAll s.uncertainAt.keys) ∧
      held.map Prod.fst = s.uncertainAt.keys ∧ ∀ entry ∈ held, s.store.items.get? entry.1 = some entry.2 := by
  refine AsyncOutboxStore.hold_ok s.uncertainAt.nodup fun messageId member => ?_
  obtain ⟨stamp, marked⟩ := Option.isSome_iff_exists.mp (mem_keys.mp member)
  obtain ⟨item, found, -⟩ := retained messageId stamp marked
  exact ⟨item, found⟩

/-- The store while the uncertain messages are out of it. -/
def certain (s : AsyncOutboxStore P) : OutboxStore P := { s.store with items := s.store.items.popAll s.uncertainAt.keys }

theorem certain_get? (messageId : OpaqueId) :
    s.certain.items.get? messageId = if (s.uncertainAt.get? messageId).isSome then none else s.store.items.get? messageId := by
  rw [certain, Dict.get?_popAll]
  simp only [mem_keys]

theorem certain_sound (sound : Sound issues drawn s.store.items) : Sound issues drawn s.certain.items := by
  refine sound.keep fun messageId item found => ?_
  rw [certain_get?] at found
  split at found
  · cases found
  · exact ⟨sound.own _ _ found, Or.inr ⟨item, found, rfl, rfl⟩⟩

/-- The messages are put back as they were. -/
theorem get?_restored {held : List (OpaqueId × StoredMessage P)} (keys : held.map Prod.fst = s.uncertainAt.keys)
    (stored : ∀ entry ∈ held, s.store.items.get? entry.1 = some entry.2) (messageId : OpaqueId) :
    (items.setAll held).get? messageId =
      if (s.uncertainAt.get? messageId).isSome then s.store.items.get? messageId else items.get? messageId := by
  split
  · rename_i marked
    have member : messageId ∈ held.map Prod.fst := keys ▸ mem_keys.mpr marked
    obtain ⟨entry, inHeld, rfl⟩ := List.mem_map.mp member
    rw [stored entry inHeld]
    exact Dict.get?_setAll_of_mem (keys ▸ s.uncertainAt.nodup) inHeld
  · rename_i unmarked
    refine Dict.get?_setAll_of_not_mem fun member => unmarked ?_
    rw [keys] at member
    exact mem_keys.mp member

variable {size : P → Except PyError Int} {now limit claimTtl : Int} {maxBytes : Option Int} {claimIds : Nat → Uuid}

theorem claim_served (sound : Sound issues drawn s.store.items) (retained : Retained s)
    (injective : Function.Injective claimIds) (unused : ∀ i, ¬drawn (claimIds i)) :
    Served issues (fun claimId => drawn claimId ∨ ∃ i, claimIds i = claimId) s
      (s.claim size now limit claimTtl maxBytes claimIds) := by
  unfold claim
  split
  · exact ⟨sound.drawMore fun _ => Or.inl, rfl, fun _ _ _ => rfl, by simp, by simp⟩
  obtain ⟨held, isHeld, keys, stored⟩ := retained.hold_ok
  rw [isHeld]
  obtain ⟨marked, holds⟩ := (certain_sound sound).claimed injective unused (s.certain.claim_claimed now limit claimTtl claimIds)
  have certain : ∀ claims, (s.certain.claim now limit claimTtl claimIds).1 = .ok claims → ∀ claim ∈ claims,
      s.uncertainAt.get? claim.envelope.messageId = none := by
    intro claims returned claim member
    obtain ⟨item, found, -⟩ := (certain_sound sound).claimed_eligible returned member
    rw [certain_get?] at found
    split at found
    · cases found
    · rename_i unmarked
      simpa using unmarked
  have restored : ∀ messageId, ((s.certain.claim now limit claimTtl claimIds).2.items.setAll held).get? messageId = _ :=
    get?_restored keys stored
  have soundRestored : Sound issues (fun claimId => drawn claimId ∨ ∃ i, claimIds i = claimId)
      ((s.certain.claim now limit claimTtl claimIds).2.items.setAll held) := by
    refine marked.keep fun messageId item found => ?_
    rw [restored] at found
    split at found
    · rename_i isMarked
      obtain ⟨stamp, isStamp⟩ := Option.isSome_iff_exists.mp isMarked
      obtain ⟨kept, foundKept, unclaimed⟩ := retained messageId stamp isStamp
      cases foundKept.symm.trans found
      exact ⟨sound.own _ _ found, Or.inl unclaimed⟩
    · exact ⟨marked.own _ _ found, Or.inr ⟨item, found, rfl, rfl⟩⟩
  have holdsRestored : ∀ claims, (s.certain.claim now limit claimTtl claimIds).1 = .ok claims →
      Holds issues claims ((s.certain.claim now limit claimTtl claimIds).2.items.setAll held) := by
    intro claims returned
    refine ⟨fun claim member => ?_, (holds claims returned).unissued, (holds claims returned).separate⟩
    rw [restored, certain claims returned claim member]
    exact (holds claims returned).held claim member
  obtain ⟨claims, made, trimmed⟩ : ∃ claims, _ ∧ Trimmed issues claims _ _ (limited size maxBytes
      (s.certain.claim now limit claimTtl claimIds).1 { (s.certain.claim now limit claimTtl claimIds).2 with
        items := (s.certain.claim now limit claimTtl claimIds).2.items.setAll held }) :=
    limited_trims soundRestored holdsRestored
  have others : ∀ claim ∈ claims, s.uncertainAt.get? claim.envelope.messageId = none := by
    intro claim member
    rcases made with returned | none
    · exact certain claims returned claim member
    · rw [none] at member
      cases member
  refine ⟨trimmed.sound, rfl, fun messageId stamp isStamp => ?_, fun selected returned => (trimmed.selects selected returned).2,
    fun selected returned claim member => others claim ((trimmed.selects selected returned).1.mem member)⟩
  refine (trimmed.frame messageId fun member => ?_).trans ?_
  · obtain ⟨claim, inClaims, rfl⟩ := List.mem_map.mp member
    cases isStamp.symm.trans (others claim inClaims)
  · change ((s.certain.claim now limit claimTtl claimIds).2.items.setAll held).get? messageId = _
    rw [restored, isStamp]
    rfl

/-- What `resolve_uncertain` can do when all that is uncertain is there. -/
inductive Resolved (s : AsyncOutboxStore P) (messageId : OpaqueId) (expectedAt : Int) (change : StoredMessage P → StoredMessage P) :
    Except PyError SettlementResult → AsyncOutboxStore P → Prop
  | stale : Resolved s messageId expectedAt change (.ok .stale) s
  | applied (item : StoredMessage P) : s.uncertainAt.get? messageId = some expectedAt →
      s.store.items.get? messageId = some item → Resolved s messageId expectedAt change (.ok .applied)
        ⟨{ s.store with items := s.store.items.set messageId (change item) }, s.uncertainAt.pop messageId⟩

theorem resolveUncertain_resolved (retained : Retained s) (messageId : OpaqueId) (expectedAt : Int) (delivered : Bool)
    (availableAt at_ : Int) :
    Resolved s messageId expectedAt (markResolved delivered availableAt at_)
      (s.resolveUncertain messageId expectedAt delivered availableAt at_).1
      (s.resolveUncertain messageId expectedAt delivered availableAt at_).2 := by
  unfold resolveUncertain
  split
  · exact .stale
  rename_i isStamp
  rw [not_not] at isStamp
  obtain ⟨item, found, -⟩ := retained messageId expectedAt isStamp
  rw [found]
  exact .applied item isStamp found

theorem mark_append (messageId : OpaqueId) (past : List (Call P × Answer P)) (event : Call P × Answer P) :
    mark messageId (past ++ [event]) = followMark messageId (mark messageId past) event := by
  simp [mark]

theorem issued_append (past : List (Call P × Answer P)) (event : Call P × Answer P) :
    issued (past ++ [event]) = issued past ++ issuedBy event := by
  simp [issued]

theorem Drawn.append {event : Call P × Answer P} {claimId : Uuid} (drawn : Drawn past claimId) :
    Drawn (past ++ [event]) claimId := by
  obtain ⟨earlier, member, rest⟩ := drawn
  exact ⟨earlier, List.mem_append_left _ member, rest⟩

/-- A settlement keeps the messages and the marks in step. -/
theorem Agrees.settling {marking : Bool} {result : Except PyError SettlementResult} {t : AsyncOutboxStore P} {call : Call P}
    (agrees : Agrees past s) (settling : Settling s claim at_ marking result t)
    (marks : ∀ messageId, t.uncertainAt.get? messageId =
      followMark messageId (s.uncertainAt.get? messageId) (call, .settled result)) :
    Agrees (past ++ [(call, .settled result)]) t where
  sound := by
    rw [issued_append]
    simpa [issuedBy] using settling.sound (agrees.sound.drawMore fun _ => Drawn.append)
  marks := by
    intro messageId
    rw [mark_append, marks, agrees.marks]
  retained := settling.retained agrees.retained

theorem Agrees.add (agrees : Agrees past s) (envelope : OutboxEnvelope P) :
    Agrees (past ++ [(.add envelope, .added (s.add envelope).1)]) (s.add envelope).2 := by
  have added := s.store.add_added envelope
  have before : Sound (issued past) (Drawn (past ++ [(.add envelope, .added (s.add envelope).1)])) s.store.items :=
    agrees.sound.drawMore fun _ => Drawn.append
  refine ⟨?_, fun messageId => ?_, fun messageId stamp marked => ?_⟩
  · rw [issued_append]
    simp only [issuedBy, List.append_nil]
    exact before.added added
  · rw [mark_append]
    exact agrees.marks messageId
  · obtain ⟨item, found, unclaimed⟩ := agrees.retained messageId stamp marked
    refine ⟨item, ?_, unclaimed⟩
    change (s.store.add envelope).2.items.get? messageId = some item
    generalize s.store.add envelope = pair at added ⊢
    obtain ⟨outcome, after⟩ := pair
    cases added with
    | refused => exact found
    | stored absent =>
      have different : messageId ≠ envelope.messageId := by
        intro same
        rw [same, absent] at found
        cases found
      exact (Dict.get?_set_of_ne different).trans found

theorem Agrees.claimed (agrees : Agrees past s) (injective : Function.Injective claimIds) (unused : ∀ i, ¬Drawn past (claimIds i)) :
    Agrees (past ++ [(.claim size now limit claimTtl maxBytes claimIds,
        .claimed (s.claim size now limit claimTtl maxBytes claimIds).1)])
      (s.claim size now limit claimTtl maxBytes claimIds).2 := by
  have served : Served _ _ s (s.claim size now limit claimTtl maxBytes claimIds) :=
    claim_served agrees.sound agrees.retained injective unused
  refine ⟨?_, fun messageId => ?_, fun messageId stamp marked => ?_⟩
  · rw [issued_append]
    have sound : Sound (issued past) (Drawn (past ++ [(.claim size now limit claimTtl maxBytes claimIds,
        .claimed (s.claim size now limit claimTtl maxBytes claimIds).1)]))
        (s.claim size now limit claimTtl maxBytes claimIds).2.store.items := by
      refine served.sound.drawMore ?_
      rintro claimId (known | ⟨i, rfl⟩)
      · exact known.append
      · exact ⟨_, List.mem_append_right _ (List.mem_singleton_self _), size, now, limit, claimTtl, maxBytes, claimIds, i, rfl, rfl⟩
    generalize Drawn (past ++ _) = drawn at sound ⊢
    cases returned : (s.claim size now limit claimTtl maxBytes claimIds).1 with
    | error error => simpa [issuedBy] using sound
    | ok claims => exact sound.report (served.holds claims returned)
  · rw [mark_append, served.same]
    exact agrees.marks messageId
  · rw [served.same] at marked
    obtain ⟨item, found, unclaimed⟩ := agrees.retained messageId stamp marked
    exact ⟨item, (served.frame messageId stamp marked).trans found, unclaimed⟩

theorem Agrees.resolved {messageId : OpaqueId} {expectedAt : Int} {change : StoredMessage P → StoredMessage P}
    {delivered : Bool} {availableAt : Int} {result : Except PyError SettlementResult} {t : AsyncOutboxStore P}
    (agrees : Agrees past s) (resolved : Resolved s messageId expectedAt change result t)
    (own : ∀ item, (change item).envelope.messageId = item.envelope.messageId ∧ (change item).claimId = item.claimId ∧
      (change item).claimedUntil = item.claimedUntil) :
    Agrees (past ++ [(.resolveUncertain messageId expectedAt delivered availableAt at_, .settled result)]) t := by
  cases resolved with
  | stale =>
    refine ⟨?_, fun other => ?_, agrees.retained⟩
    · rw [issued_append]
      simpa [issuedBy] using agrees.sound.drawMore fun _ => Drawn.append
    · rw [mark_append]
      exact agrees.marks other
  | applied item isStamp found =>
    refine ⟨?_, fun other => ?_, fun other stamp marked => ?_⟩
    · rw [issued_append]
      simp only [issuedBy, List.append_nil]
      obtain ⟨sameId, sameClaim, sameUntil⟩ := own item
      exact (agrees.sound.drawMore fun _ => Drawn.append).put (sameId.trans (agrees.sound.own _ item found))
        (Or.inr ⟨item, found, sameClaim.symm, sameUntil.symm⟩)
    · rw [mark_append, Dict.get?_pop, followMark]
      by_cases mine : messageId = other
      · rw [if_pos mine, if_pos mine.symm]
      · rw [if_neg mine, if_neg (Ne.symm mine)]
        exact agrees.marks other
    · rw [Dict.get?_pop] at marked
      split at marked
      · cases marked
      · rename_i different
        dsimp only
        rw [Dict.get?_set_of_ne different]
        exact agrees.retained other stamp marked

theorem Agrees.next (agrees : Agrees past s) {call : Call P} (fresh : Fresh past call) :
    Agrees (past ++ [(call, (s.answer call).1)]) (s.answer call).2 := by
  cases call with
  | add envelope => exact agrees.add envelope
  | claim size now limit claimTtl maxBytes claimIds =>
    obtain ⟨injective, unused⟩ := fresh.supply size now limit claimTtl maxBytes claimIds rfl
    exact agrees.claimed injective unused
  | delivered claim at_ =>
    have settling := s.delivered_settling claim at_
    exact agrees.settling settling fun messageId => congrArg (Dict.get? · messageId) settling.unmarked
  | retry claim availableAt at_ =>
    have settling := s.retry_settling claim availableAt at_
    exact agrees.settling settling fun messageId => congrArg (Dict.get? · messageId) settling.unmarked
  | defer claim availableAt at_ =>
    have settling := s.defer_settling claim availableAt at_
    exact agrees.settling settling fun messageId => congrArg (Dict.get? · messageId) settling.unmarked
  | failed claim reason at_ =>
    have settling := s.failed_settling claim reason at_
    exact agrees.settling settling fun messageId => congrArg (Dict.get? · messageId) settling.unmarked
  | uncertain claim reason at_ =>
    have settling := s.uncertain_settling claim reason at_
    exact agrees.settling settling (settling.marked reason)
  | resolveUncertain messageId expectedAt delivered availableAt at_ =>
    have resolved := resolveUncertain_resolved agrees.retained messageId expectedAt delivered availableAt at_
    exact agrees.resolved resolved fun _ => ⟨rfl, rfl, rfl⟩

theorem Agrees.run {capacity : Nat} (history : Run capacity past s) : Agrees past s := by
  refine history.invariant ⟨Sound.start.drawMore (by simp), fun _ => rfl, fun _ _ marked => nomatch marked⟩ ?_
  exact fun past s call agrees fresh => agrees.next fresh

/-- The attempt of a stored message. -/
def attempt (store : OutboxStore P) (messageId : OpaqueId) : Option Nat := (store.items.get? messageId).map (·.envelope.attempt)

theorem attempt_set {item : StoredMessage P} (changed : StoredMessage P) {messageId : OpaqueId} {store : OutboxStore P}
    (found : store.items.get? messageId = some item) (same : changed.envelope.attempt = item.envelope.attempt) (other : OpaqueId) :
    attempt { store with items := store.items.set messageId changed } other = attempt store other := by
  unfold attempt
  dsimp only
  rw [Dict.get?_set]
  split
  · rename_i mine
    rw [mine, found]
    exact congrArg some same
  · rfl

theorem attempt_settle (change : StoredMessage P → StoredMessage P)
    (same : ∀ item, (change item).envelope.attempt = item.envelope.attempt) (store : OutboxStore P) (other : OpaqueId) :
    attempt (store.settle claim change).2 other = attempt store other := by
  have settled := store.settle_settled claim change
  generalize store.settle claim change = pair at settled ⊢
  obtain ⟨success, after⟩ := pair
  cases settled with
  | stale => rfl
  | done item found => exact attempt_set (released (change item)) found (same item) other

/-- The calls that postpone a message. -/
def postpones : Call P → Bool
  | .defer _ _ _ => true
  | .uncertain _ _ _ => true
  | .resolveUncertain _ _ _ _ _ => true
  | _ => false

theorem postpones_attempt {call : Call P} (postponing : postpones call = true) (messageId : OpaqueId) :
    attempt (s.answer call).2.store messageId = attempt s.store messageId := by
  cases call with
  | add => cases postponing
  | claim => cases postponing
  | delivered => cases postponing
  | retry => cases postponing
  | failed => cases postponing
  | defer claim availableAt at_ =>
    change attempt (s.defer claim availableAt at_).2.store messageId = _
    unfold defer
    split
    · exact attempt_settle (markDeferred availableAt) (fun _ => rfl) s.store messageId
    · rfl
  | uncertain claim reason at_ =>
    change attempt (s.uncertain claim reason at_).2.store messageId = _
    unfold uncertain
    split
    · rfl
    split
    · exact attempt_settle id (fun _ => rfl) s.store messageId
    · rfl
  | resolveUncertain resolved expectedAt delivered availableAt at_ =>
    change attempt (s.resolveUncertain resolved expectedAt delivered availableAt at_).2.store messageId = _
    unfold resolveUncertain
    split
    · rfl
    split
    · rfl
    · rename_i item found
      exact attempt_set (markResolved delivered availableAt at_ item) found rfl messageId

/-- What the next call may do, after the calls so far. -/
structure Obeys (past : List (Call P × Answer P)) (s : AsyncOutboxStore P) (call : Call P) : Prop where
  held : ∀ messageId stamp, mark messageId past = some stamp → messageId ∉ touchedBy (call, (s.answer call).1)
  resolved : ∀ messageId expectedAt delivered availableAt at_,
    call = .resolveUncertain messageId expectedAt delivered availableAt at_ →
    (s.answer call).1 = .settled (.ok .applied) → mark messageId past = some expectedAt
  unchanged : ∀ size now limit claimTtl maxBytes claimIds, call = .claim size now limit claimTtl maxBytes claimIds →
    ∀ messageId stamp, mark messageId past = some stamp →
      (s.answer call).2.store.items.get? messageId = s.store.items.get? messageId
  current : ∀ claim at_, presented call = some (claim, at_) → succeeded (s.answer call).1 = true →
    (issuedFor claim.envelope.messageId (issued past)).getLast? = some claim ∧ at_ < claim.claimedUntil
  attempts : postpones call = true → ∀ messageId,
    attempt (s.answer call).2.store messageId = attempt s.store messageId

/-- A settlement call settles what it presents. -/
theorem answer_settling {call : Call P} (isPresented : presented call = some (claim, at_)) :
    ∃ marking result, (s.answer call).1 = .settled result ∧ Settling s claim at_ marking result (s.answer call).2 := by
  cases call with
  | add => cases isPresented
  | claim => cases isPresented
  | resolveUncertain => cases isPresented
  | delivered =>
    cases isPresented
    exact ⟨_, _, rfl, s.delivered_settling claim at_⟩
  | retry _ availableAt =>
    cases isPresented
    exact ⟨_, _, rfl, s.retry_settling claim availableAt at_⟩
  | defer _ availableAt =>
    cases isPresented
    exact ⟨_, _, rfl, s.defer_settling claim availableAt at_⟩
  | failed _ reason =>
    cases isPresented
    exact ⟨_, _, rfl, s.failed_settling claim reason at_⟩
  | uncertain _ reason =>
    cases isPresented
    exact ⟨_, _, rfl, s.uncertain_settling claim reason at_⟩

theorem mem_touchedBy {event : Call P × Answer P} {messageId : OpaqueId} (touched : messageId ∈ touchedBy event) :
    (∃ claims, event.2 = .claimed (.ok claims) ∧ ∃ claim ∈ claims, claim.envelope.messageId = messageId) ∨
    succeeded event.2 = true ∧ ∃ claim at_, presented event.1 = some (claim, at_) ∧ claim.envelope.messageId = messageId := by
  unfold touchedBy at touched
  split at touched
  · exact Or.inl ⟨_, rfl, List.mem_map.mp touched⟩
  · split at touched
    · rename_i success
      obtain ⟨⟨claim, at_⟩, isPresented, same⟩ := List.mem_map.mp touched
      exact Or.inr ⟨success, claim, at_, Option.mem_toList.mp isPresented, same⟩
    · cases touched

theorem Agrees.obeys (agrees : Agrees past s) {call : Call P} (fresh : Fresh past call) : Obeys past s call where
  held := by
    intro messageId stamp isMarked touched
    rw [← agrees.marks] at isMarked
    rcases mem_touchedBy touched with ⟨claims, returned, claim, member, rfl⟩ | ⟨success, claim, at_, isPresented, rfl⟩
    · cases call with
      | claim size now limit claimTtl maxBytes claimIds =>
        obtain ⟨injective, unused⟩ := fresh.supply size now limit claimTtl maxBytes claimIds rfl
        have served : Served _ _ s (s.claim size now limit claimTtl maxBytes claimIds) :=
          claim_served agrees.sound agrees.retained injective unused
        have certain := served.certain claims (Answer.claimed.inj returned) claim member
        cases certain.symm.trans isMarked
      | _ => cases returned
    · obtain ⟨marking, result, isResult, settling⟩ := answer_settling (s := s) isPresented
      rw [isResult] at success
      have certain := settling.certain agrees.retained success
      cases certain.symm.trans isMarked
  resolved := by
    intro messageId expectedAt delivered availableAt at_ isCall applied
    subst isCall
    have resolved := resolveUncertain_resolved agrees.retained messageId expectedAt delivered availableAt at_
    rw [Answer.settled.inj applied] at resolved
    generalize (s.resolveUncertain messageId expectedAt delivered availableAt at_).2 = after at resolved
    cases resolved with
    | applied item isStamp => exact (agrees.marks messageId).symm.trans isStamp
  unchanged := by
    intro size now limit claimTtl maxBytes claimIds isCall messageId stamp isMarked
    subst isCall
    rw [← agrees.marks] at isMarked
    obtain ⟨injective, unused⟩ := fresh.supply size now limit claimTtl maxBytes claimIds rfl
    have served : Served _ _ s (s.claim size now limit claimTtl maxBytes claimIds) :=
      claim_served agrees.sound agrees.retained injective unused
    exact served.frame messageId stamp isMarked
  current := by
    intro claim at_ isPresented success
    obtain ⟨marking, result, isResult, settling⟩ := answer_settling (s := s) isPresented
    rw [isResult] at success
    exact settling.latest agrees.sound (fresh.issued claim at_ isPresented) success
  attempts := postpones_attempt

/-- A message marked uncertain is in the store, and neither claimed nor settled until
it is resolved under its stamp; what settles is the claim issued last, before it
runs out. -/
theorem uncertain_until_resolved {capacity : Nat} (history : Run capacity past s) :
    (∀ messageId, s.uncertainAt.get? messageId = mark messageId past) ∧
    (∀ messageId ∈ s.uncertainAt.keys, messageId ∈ s.store.items.keys) ∧
    (∃ held, (hold s.store.items s.uncertainAt.keys).1 = .ok held) ∧
    ∀ call, Fresh past call → Obeys past s call := by
  have agrees := Agrees.run history
  refine ⟨agrees.marks, fun messageId member => ?_, ?_, fun call fresh => agrees.obeys fresh⟩
  · obtain ⟨stamp, marked⟩ := Option.isSome_iff_exists.mp (mem_keys.mp member)
    obtain ⟨item, found, -⟩ := agrees.retained messageId stamp marked
    exact Dict.keys_of_get? found
  · obtain ⟨held, isHeld, -⟩ := agrees.retained.hold_ok
    exact ⟨held, by rw [isHeld]⟩

def sampleEnvelope : OutboxEnvelope Unit := ⟨⟨"m", Sample.message_proper⟩, "t", (), 0, 0, 2, Sample.topic_named⟩

/-- A claimed message is marked uncertain; a later claim call finds nothing, and a
resolution under another stamp is refused. -/
def sampleCalls : List (Call Unit) :=
  [.add sampleEnvelope, .claim (fun _ => .ok 1) 0 5 10 (some 3) (Uuid.series 'a'),
    .uncertain ⟨Uuid.series 'a' 0, sampleEnvelope, 10⟩ "lost" 4, .claim (fun _ => .ok 1) 20 5 10 none (Uuid.series 'b'),
    .resolveUncertain sampleEnvelope.messageId 3 true 0 21]

theorem fresh_claim {past : List (Call P × Answer P)} {size : P → Except PyError Int} {now limit claimTtl : Int}
    {maxBytes : Option Int} {claimIds : Nat → Uuid} (injective : Function.Injective claimIds)
    (unused : ∀ i, ¬Drawn past (claimIds i)) : Fresh past (.claim size now limit claimTtl maxBytes claimIds) where
  supply := by
    intro _ _ _ _ _ _ same
    cases same
    exact ⟨injective, unused⟩
  issued := by simp [presented]

theorem uncertain_message_rests :
    ∃ (past : List (Call Unit × Answer Unit)) (s : AsyncOutboxStore Unit), Run 9 past s ∧ (issued past).length = 1 ∧
      mark sampleEnvelope.messageId past = some 4 ∧
      Obeys past s (.resolveUncertain sampleEnvelope.messageId 4 false 30 22) := by
  have run : Run 9 (History.transcript answer (empty 9) sampleCalls) (History.after answer (empty 9) sampleCalls) := by
    refine History.ofInputs ?_
    simp only [History.Permitted, sampleCalls, List.nil_append, List.cons_append]
    refine ⟨⟨by simp, by simp [presented]⟩, fresh_claim (Uuid.series_injective 'a') ?_, ⟨by simp, ?_⟩,
      fresh_claim (Uuid.series_injective 'b') ?_, ⟨by simp, by simp [presented]⟩, trivial⟩
    · rintro i ⟨event, member, size, now, limit, claimTtl, maxBytes, claimIds, j, same, -⟩
      simp only [List.mem_cons, List.not_mem_nil, or_false] at member
      subst member
      cases same
    · intro claim at_ isPresented
      cases isPresented
      decide +kernel
    · rintro i ⟨event, member, size, now, limit, claimTtl, maxBytes, claimIds, j, same, drawn⟩
      simp only [List.mem_cons, List.not_mem_nil, or_false] at member
      rcases member with rfl | rfl | rfl <;> cases same
      exact Uuid.series_disjoint (by decide) j i drawn
  have fresh : Fresh (History.transcript answer (empty 9) sampleCalls) (.resolveUncertain sampleEnvelope.messageId 4 false 30 22) :=
    ⟨by simp, by simp [presented]⟩
  exact ⟨_, _, run, by decide +kernel, by decide +kernel, (uncertain_until_resolved run).2.2.2 _ fresh⟩

end Pytitect.AsyncOutboxStore
