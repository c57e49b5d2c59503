import Pytitect.Outbox.Lifecycle

namespace Pytitect.OutboxStore
variable {P : Type} {s t : OutboxStore P} {past : List (Call P × Answer P)} {call : Call P} {claim other : OutboxClaim P}
  {messageId : OpaqueId} {item : StoredMessage P} {capacity : Nat}

/-- The claim that a settlement presents. -/
def Call.presented : Call P → Option (OutboxClaim P)
  | .delivered claim _ => some claim
  | .retry claim _ => some claim
  | .failed claim _ _ => some claim
  | _ => none

def Call.Claims : Call P → Prop
  | .claim _ _ _ _ => True
  | _ => False

/-- What a call can make of one message. -/
inductive Turn (s : OutboxStore P) : Call P → OpaqueId → Option (StoredMessage P) → Prop
  | same {call : Call P} {messageId : OpaqueId} : Turn s call messageId (s.items.get? messageId)
  | added {envelope : OutboxEnvelope P} : s.items.get? envelope.messageId = none →
      Turn s (.add envelope) envelope.messageId (some ⟨envelope, none, none, none, none, none⟩)
  | claimed {now limit claimTtl : Int} {claimIds : Nat → Uuid} {messageId : OpaqueId} {item : StoredMessage P} (i : Nat)
      (claimedUntil : Option Int) : s.items.get? messageId = some item → item.deliveredAt = none → item.failureReason = none →
      Turn s (.claim now limit claimTtl claimIds) messageId (some { item with claimId := some (claimIds i), claimedUntil })
  | settled {call : Call P} {claim : OutboxClaim P} {item next : StoredMessage P} : call.presented = some claim →
      s.valid claim = some item → next.claimId = none → Turn s call claim.envelope.messageId (some next)
  | removed {call : Call P} {messageId : OpaqueId} :
      (∀ item, s.items.get? messageId = some item → ¬(item.deliveredAt = none ∧ item.failureReason = none)) →
      Turn s call messageId none

theorem claimed_turn (s : OutboxStore P) (now limit claimTtl : Int) (claimIds : Nat → Uuid) (messageId : OpaqueId) :
    Turn s (.claim now limit claimTtl claimIds) messageId ((s.claim now limit claimTtl claimIds).2.items.get? messageId) := by
  have claimed := s.claim_claimed now limit claimTtl claimIds
  generalize (s.claim now limit claimTtl claimIds).1 = result at claimed
  generalize (s.claim now limit claimTtl claimIds).2 = t at claimed ⊢
  cases claimed with
  | refused => exact .same
  | spoiled error spoiledId item found may =>
    dsimp only
    rw [Dict.get?_set]
    split
    · rename_i mine
      subst mine
      have running := eligible_iff.mp may
      exact .claimed 0 item.claimedUntil found running.2.1 running.2.2.1
    · exact .same
  | allReady =>
    have distinct : ((s.ready now limit).map Prod.fst).Nodup := ready_distinct
    rcases get?_marked_cases s.items claimIds (now + claimTtl) distinct messageId with
      ⟨i, entry, isEntry, mine, marked⟩ | ⟨-, same⟩
    · obtain ⟨found, may⟩ := mem_ready (List.mem_of_getElem? isEntry)
      have running := eligible_iff.mp may
      dsimp only
      rw [marked]
      exact .claimed i _ (mine ▸ found) running.2.1 running.2.2.1
    · dsimp only
      rw [same]
      exact .same

theorem settled_turn {change : StoredMessage P → StoredMessage P} (presented : call.presented = some claim) (messageId : OpaqueId) :
    Turn s call messageId ((s.settle claim change).2.items.get? messageId) := by
  unfold settle
  cases valid : s.valid claim with
  | none => exact .same
  | some item =>
    dsimp only
    rw [Dict.get?_set]
    split
    · rename_i mine
      subst mine
      exact .settled presented valid rfl
    · exact .same

/-- A clean-up removes ended messages only. -/
theorem popped_turn {settledAt : StoredMessage P → Option Int} {keep : StoredMessage P → Bool} {plan : OutboxPlan}
    (own : ∀ messageId item, s.items.get? messageId = some item → item.envelope.messageId = messageId)
    (ended : ∀ item, keep item = true → (settledAt item).isSome = true → ¬(item.deliveredAt = none ∧ item.failureReason = none))
    (messageId : OpaqueId) : Turn s call messageId ((s.popped (s.selected settledAt keep plan)).items.get? messageId) := by
  unfold popped
  rw [Dict.get?_popAll]
  split
  · rename_i gone
    refine .removed fun item found => ?_
    obtain ⟨chosen, member, same⟩ := List.mem_map.mp gone
    obtain ⟨inItems, selected⟩ := List.mem_filter.mp (List.mem_of_mem_firstBy member)
    obtain ⟨entry, isEntry, rfl⟩ := List.mem_map.mp inItems
    have stored := Dict.mem_items.mp isEntry
    rw [← own _ _ stored, same] at stored
    cases found.symm.trans stored
    rw [Bool.and_eq_true] at selected
    refine ended _ selected.1 ?_
    cases at_ : settledAt entry.2 with
    | none => simp [at_] at selected
    | some _ => rfl
  · exact .same

theorem answer_turn (own : ∀ messageId item, s.items.get? messageId = some item → item.envelope.messageId = messageId)
    (call : Call P) (messageId : OpaqueId) : Turn s call messageId ((s.answer call).2.items.get? messageId) := by
  cases call with
  | add envelope =>
    change Turn s _ messageId ((s.add envelope).2.items.get? messageId)
    have added := s.add_added envelope
    generalize (s.add envelope).1 = outcome at added
    generalize (s.add envelope).2 = t at added ⊢
    cases added with
    | refused => exact .same
    | stored absent =>
      dsimp only
      rw [Dict.get?_set]
      split
      · rename_i mine
        subst mine
        exact .added absent
      · exact .same
  | claim now limit claimTtl claimIds => exact s.claimed_turn now limit claimTtl claimIds messageId
  | delivered claim at_ => exact settled_turn rfl messageId
  | retry claim availableAt => exact settled_turn rfl messageId
  | failed claim reason at_ =>
    change Turn s _ messageId ((s.failed claim reason at_).2.items.get? messageId)
    unfold failed
    split
    · exact .same
    · exact settled_turn rfl messageId
  | purgeDelivered plan =>
    change Turn s _ messageId ((s.purgeDelivered plan).2.items.get? messageId)
    unfold purgeDelivered
    dsimp only
    split
    · exact .same
    · refine popped_turn own (fun item _ delivered running => ?_) messageId
      rw [running.1] at delivered
      cases delivered
  | archiveFailed plan archive =>
    change Turn s _ messageId ((s.archiveFailed plan archive).2.items.get? messageId)
    unfold archiveFailed
    dsimp only
    split
    · exact .same
    split
    · exact .same
    · refine popped_turn own (fun item failed _ running => ?_) messageId
      rw [running.2] at failed
      cases failed

theorem valid_iff : s.valid claim = some item ↔ s.items.get? claim.envelope.messageId = some item ∧
    item.claimId = some claim.claimId ∧ item.deliveredAt = none ∧ item.failureReason = none := by
  constructor
  · exact valid_some
  · rintro ⟨found, holds, undelivered, unfailed⟩
    unfold valid
    rw [found]
    dsimp only
    rw [if_neg (by simp [holds, undelivered, unfailed])]

/-- An issued claim that is valid after a call was so before, for the same message as it is. -/
theorem Agrees.valid_before (agrees : Agrees past s) (fresh : Fresh past call) (isIssued : claim ∈ issued past)
    (valid : (s.answer call).2.valid claim = some item) : s.valid claim = some item := by
  obtain ⟨found, holds, running⟩ := valid_iff.mp valid
  have turn := answer_turn agrees.sound.own call claim.envelope.messageId
  rw [found] at turn
  generalize before : claim.envelope.messageId = messageId at turn found
  generalize after : some item = value at turn
  cases turn with
  | same =>
    have held := valid_iff.mpr ⟨before ▸ after.symm, holds, running⟩
    exact held.trans after
  | added =>
    cases after
    cases holds
  | claimed i =>
    cases after
    exact absurd (Option.some.inj holds ▸ agrees.sound.supplied claim isIssued) (fresh.2 i)
  | settled _ _ lost =>
    cases after
    cases lost.symm.trans holds
  | removed => cases after

/-- An issued claim stays valid unless a claim call takes its message or it is presented itself. -/
theorem Agrees.valid_after (agrees : Agrees past s) (fresh : Fresh past call) (isIssued : claim ∈ issued past)
    (valid : s.valid claim = some item) :
    (s.answer call).2.valid claim = some item ∨ call.Claims ∨ call.presented = some claim := by
  obtain ⟨found, holds, running⟩ := valid_iff.mp valid
  have turn := answer_turn agrees.sound.own call claim.envelope.messageId
  generalize stored : (s.answer call).2.items.get? claim.envelope.messageId = value at turn
  generalize mine : claim.envelope.messageId = messageId at turn
  cases turn with
  | same => exact Or.inl (valid_iff.mpr ⟨stored.trans (mine ▸ found), holds, running⟩)
  | added absent => cases absent.symm.trans (mine ▸ found)
  | claimed => exact Or.inr (Or.inl trivial)
  | @settled _ presented other next isPresented validOther =>
    obtain ⟨foundOther, holdsOther, -⟩ := valid_iff.mp validOther
    rw [← mine, found] at foundOther
    cases foundOther
    have issuedOther : presented ∈ issued past := by
      cases call with
      | delivered => cases isPresented; exact fresh
      | retry => cases isPresented; exact fresh
      | failed => cases isPresented; exact fresh
      | _ => cases isPresented
    have same := List.inj_on_of_nodup_map agrees.sound.distinct issuedOther isIssued (Option.some.inj (holdsOther.symm.trans holds))
    exact Or.inr (Or.inr (same ▸ isPresented))
  | removed gone => exact absurd running (gone item (mine ▸ found))

/-- The store that the calls lead to. -/
def storeAfter (capacity : Nat) (past : List (Call P × Answer P)) : OutboxStore P :=
  History.after answer (empty capacity) (past.map Prod.fst)

/-- A later claim call has given the message of the claim another claim id. -/
def TakenOver (capacity : Nat) (claim : OutboxClaim P) (past : List (Call P × Answer P)) : Prop :=
  ∃ before event rest, past = before ++ event :: rest ∧ event.1.Claims ∧ ((storeAfter capacity before).valid claim).isSome ∧
    (storeAfter capacity (before ++ [event])).valid claim = none

def Presented (claim : OutboxClaim P) (past : List (Call P × Answer P)) : Prop :=
  ∃ event ∈ past, event.1.presented = some claim

theorem TakenOver.append {more : List (Call P × Answer P)} (taken : TakenOver capacity claim past) :
    TakenOver capacity claim (past ++ more) := by
  obtain ⟨before, event, rest, rfl, lost⟩ := taken
  exact ⟨before, event, rest ++ more, by simp, lost⟩

theorem Presented.append {more : List (Call P × Answer P)} (presented : Presented claim past) : Presented claim (past ++ more) := by
  obtain ⟨event, member, same⟩ := presented
  exact ⟨event, List.mem_append_left _ member, same⟩

/-- A claim that has just been handed out is valid, and shows the message as it is. -/
theorem Agrees.handed_valid (agrees : Agrees past s) (fresh : Fresh past call) (isNew : claim ∈ issuedBy (call, (s.answer call).1)) :
    ∃ item, (s.answer call).2.valid claim = some item ∧ item.envelope = claim.envelope := by
  cases call with
  | claim now limit claimTtl claimIds =>
    change claim ∈ issuedBy (_, .claimed (s.claim now limit claimTtl claimIds).1) at isNew
    change ∃ item, (s.claim now limit claimTtl claimIds).2.valid claim = some item ∧ _
    have claimed := s.claim_claimed now limit claimTtl claimIds
    generalize (s.claim now limit claimTtl claimIds).1 = result at claimed isNew
    generalize (s.claim now limit claimTtl claimIds).2 = t at claimed ⊢
    cases claimed with
    | refused => cases isNew
    | spoiled => cases isNew
    | allReady =>
      obtain ⟨i, bound, rfl⟩ := List.mem_mapIdx.mp isNew
      have isEntry := List.getElem?_eq_getElem bound
      have member := List.mem_of_getElem? isEntry
      obtain ⟨found, may⟩ := mem_ready member
      have running := eligible_iff.mp may
      have marked := get?_marked s.items claimIds (now + claimTtl) ready_distinct isEntry
      rw [← agrees.sound.own _ _ found] at marked
      exact ⟨_, valid_iff.mpr ⟨marked, rfl, running.2.1, running.2.2.1⟩, rfl⟩
  | _ => cases isNew

/-- An issued claim is valid, or it was taken over, or it has been presented; and as long as it is valid,
its envelope is the one of the message. -/
structure Kept (capacity : Nat) (past : List (Call P × Answer P)) (s : OutboxStore P) (claim : OutboxClaim P) : Prop where
  accounted : (s.valid claim).isSome ∨ TakenOver capacity claim past ∨ Presented claim past
  snapshot : ∀ item, s.valid claim = some item → item.envelope = claim.envelope

theorem Kept.next (history : Run capacity past s) (fresh : Fresh past call) (isIssued : claim ∈ issued past)
    (kept : Kept capacity past s claim) : Kept capacity (past ++ [(call, (s.answer call).1)]) (s.answer call).2 claim := by
  have agrees := Agrees.run history
  refine ⟨?_, fun item valid => kept.snapshot item (agrees.valid_before fresh isIssued valid)⟩
  rcases kept.accounted with held | taken | presented
  · obtain ⟨item, valid⟩ := Option.isSome_iff_exists.mp held
    cases later : (s.answer call).2.valid claim with
    | some item => exact Or.inl rfl
    | none =>
      rcases agrees.valid_after fresh isIssued valid with still | claims | presented
      · cases later.symm.trans still
      · have here : storeAfter capacity past = s := history.state_eq.symm
        have next : storeAfter capacity (past ++ [(call, (s.answer call).1)]) = (s.answer call).2 :=
          (history.next call fresh).state_eq.symm
        exact Or.inr (Or.inl ⟨past, _, [], rfl, claims, by rw [here]; exact held, by rw [next]; exact later⟩)
      · exact Or.inr (Or.inr ⟨_, List.mem_append_right _ (List.mem_singleton_self _), presented⟩)
  · exact Or.inr (Or.inl taken.append)
  · exact Or.inr (Or.inr presented.append)

theorem run_kept (history : Run capacity past s) (claim : OutboxClaim P) (isIssued : claim ∈ issued past) :
    Kept capacity past s claim := by
  induction history with
  | start => cases isIssued
  | @next past s call run fresh ih =>
    rw [issued_append] at isIssued
    rcases List.mem_append.mp isIssued with old | new
    · exact (ih old).next run fresh old
    · obtain ⟨item, valid, same⟩ := (Agrees.run run).handed_valid fresh new
      refine ⟨Or.inl (Option.isSome_iff_exists.mpr ⟨item, valid⟩), fun other validOther => ?_⟩
      cases valid.symm.trans validOther
      exact same

end Pytitect.OutboxStore
