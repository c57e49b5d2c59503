import Pytitect.Outbox.Custody

namespace Pytitect.OutboxStore
variable {P : Type} {s : OutboxStore P} {past : List (Call P × Answer P)} {call : Call P} {claim : OutboxClaim P}
  {messageId : OpaqueId} {capacity maxAttempts : Nat}

/-- The message that a call settled, if any. -/
def settledBy : Call P × Answer P → List OpaqueId
  | (.delivered claim _, .settled result) => settledWith claim result
  | (.retry claim _, .settled result) => settledWith claim result
  | (.failed claim _ _, .settled result) => settledWith claim result
  | _ => []

/-- The message that a call settled for good, if any. -/
def endedBy : Call P × Answer P → List OpaqueId
  | (.delivered claim _, .settled result) => settledWith claim result
  | (.failed claim _ _, .settled result) => settledWith claim result
  | _ => []

def addedBy : Call P × Answer P → Option OpaqueId
  | (.add envelope, .added (.ok .added)) => some envelope.messageId
  | _ => none

/-- How often a message was settled in one of these ways since it was added. -/
def settlements (ways : Call P × Answer P → List OpaqueId) (messageId : OpaqueId) (past : List (Call P × Answer P)) : Nat :=
  past.foldl (fun count event => if addedBy event = some messageId then 0 else count + (ways event).count messageId) 0

theorem settlements_append (ways : Call P × Answer P → List OpaqueId) (messageId : OpaqueId) (past : List (Call P × Answer P))
    (event : Call P × Answer P) : settlements ways messageId (past ++ [event]) =
      if addedBy event = some messageId then 0 else settlements ways messageId past + (ways event).count messageId := by
  simp [settlements]

/-- A message has been settled once for each retry, and once more when it has ended. -/
structure Tallied (messageId : OpaqueId) (past : List (Call P × Answer P)) (record : Message P) : Prop where
  settled : settlements settledBy messageId past = record.retries + settlements endedBy messageId past
  ended : settlements endedBy messageId past = if record.ended.isSome then 1 else 0

/-- A call that neither adds nor settles the message leaves the tally as it is. -/
theorem Tallied.quiet {event : Call P × Answer P} {before record : Message P} (tallied : Tallied messageId past before)
    (notAdded : addedBy event ≠ some messageId) (notSettled : messageId ∉ settledBy event) (notEnded : messageId ∉ endedBy event)
    (retries : record.retries = before.retries) (ended : record.ended = before.ended) :
    Tallied messageId (past ++ [event]) record := by
  have settledSame : settlements settledBy messageId (past ++ [event]) = settlements settledBy messageId past := by
    rw [settlements_append, if_neg notAdded, List.count_eq_zero.mpr notSettled, Nat.add_zero]
  have endedSame : settlements endedBy messageId (past ++ [event]) = settlements endedBy messageId past := by
    rw [settlements_append, if_neg notAdded, List.count_eq_zero.mpr notEnded, Nat.add_zero]
  constructor
  · rw [settledSame, endedSame, retries]
    exact tallied.settled
  · rw [endedSame, ended]
    exact tallied.ended

theorem settled_tallied {result : Except PyError Bool} {progress : Message P → Message P} {record : Message P}
    (event : Call P × Answer P) (notAdded : addedBy event = none) (settles : settledBy event = settledWith claim result)
    (ends : ∀ id, id ∈ endedBy event → id ∈ settledBy event)
    (tallied : ∀ record, message messageId past = some record → Tallied messageId past record)
    (moved : ∀ before, message messageId past = some before → messageId = claim.envelope.messageId → result = .ok true →
      Tallied messageId past before → Tallied messageId (past ++ [event]) (progress before))
    (now : followSettled messageId (message messageId past) claim progress result = some record) :
    Tallied messageId (past ++ [event]) record := by
  have notMine : addedBy event ≠ some messageId := by simp [notAdded]
  by_cases success : result = .ok true ∧ claim.envelope.messageId = messageId
  · obtain ⟨rfl, mine⟩ := success
    simp only [followSettled, if_pos mine] at now
    obtain ⟨before, isBefore, rfl⟩ := Option.map_eq_some_iff.mp now
    exact moved before isBefore mine.symm rfl (tallied before isBefore)
  · have same : followSettled messageId (message messageId past) claim progress result = message messageId past := by
      unfold followSettled
      split
      · rw [if_neg fun mine => success ⟨rfl, mine⟩]
      · rfl
    rw [same] at now
    have notSettled : messageId ∉ settledBy event := by
      rw [settles]
      intro member
      obtain ⟨mine, succeeded⟩ := mem_settledWith member
      exact success ⟨succeeded, mine.symm⟩
    exact (tallied record now).quiet notMine notSettled (fun member => notSettled (ends _ member)) rfl rfl

theorem count_settledWith (claim : OutboxClaim P) : (settledWith claim (.ok true)).count claim.envelope.messageId = 1 := by
  simp [settledWith]

/-- A settlement for good of a message that is still running. -/
theorem Tallied.finish {event : Call P × Answer P} {before : Message P} {ending : Ending}
    (tallied : Tallied claim.envelope.messageId past before) (running : before.ended = none)
    (notAdded : addedBy event = none) (settles : settledBy event = settledWith claim (.ok true))
    (ends : endedBy event = settledWith claim (.ok true)) :
    Tallied claim.envelope.messageId (past ++ [event]) { before with pending := none, ended := some ending } := by
  have notMine : addedBy event ≠ some claim.envelope.messageId := by simp [notAdded]
  have settled := tallied.settled
  have none_ := tallied.ended
  rw [running] at none_
  constructor
  · rw [settlements_append, settlements_append, if_neg notMine, if_neg notMine, settles, ends, count_settledWith]
    change _ = before.retries + _
    omega
  · rw [settlements_append, if_neg notMine, ends, count_settledWith, none_]
    rfl

/-- A retry. -/
theorem Tallied.again {event : Call P × Answer P} {before : Message P} (tallied : Tallied claim.envelope.messageId past before)
    (notAdded : addedBy event = none) (settles : settledBy event = settledWith claim (.ok true)) (ends : endedBy event = []) :
    Tallied claim.envelope.messageId (past ++ [event]) { before with pending := none, retries := before.retries + 1 } := by
  have notMine : addedBy event ≠ some claim.envelope.messageId := by simp [notAdded]
  have settled := tallied.settled
  constructor
  · rw [settlements_append, settlements_append, if_neg notMine, if_neg notMine, settles, ends, count_settledWith, List.count_nil]
    dsimp only
    omega
  · rw [settlements_append, if_neg notMine, ends, List.count_nil]
    exact tallied.ended

theorem Agrees.running (agrees : Agrees past s) (call : Call P) {result : Except PyError Bool} {before : Message P}
    (answered : (s.answer call).1 = .settled result) (presented : call.presented = some claim) (success : result = .ok true)
    (isBefore : message claim.envelope.messageId past = some before) : before.ended = none := by
  have touched : claim.envelope.messageId ∈ touchedBy (call, (s.answer call).1) := by
    rw [answered, success]
    cases call with
    | delivered => cases presented; exact List.mem_singleton_self _
    | retry => cases presented; exact List.mem_singleton_self _
    | failed => cases presented; exact List.mem_singleton_self _
    | _ => cases presented
  obtain ⟨record, isRecord, running⟩ := agrees.touched touched
  cases isBefore.symm.trans isRecord
  exact running

theorem Agrees.tallied_next (agrees : Agrees past s)
    (tallied : ∀ record, message messageId past = some record → Tallied messageId past record) (call : Call P) (record : Message P)
    (now : message messageId (past ++ [(call, (s.answer call).1)]) = some record) :
    Tallied messageId (past ++ [(call, (s.answer call).1)]) record := by
  rw [message_append] at now
  cases call with
  | add envelope =>
    change follow messageId _ (_, .added (s.add envelope).1) = _ at now
    change Tallied messageId (past ++ [(_, .added (s.add envelope).1)]) record
    generalize (s.add envelope).1 = outcome at now ⊢
    have unchanged (notAdded : addedBy (Call.add envelope, (Answer.added outcome : Answer P)) ≠ some messageId)
        (same : message messageId past = some record) : Tallied messageId (past ++ [(.add envelope, .added outcome)]) record :=
      (tallied record same).quiet notAdded List.not_mem_nil List.not_mem_nil rfl rfl
    match outcome with
    | .error error => exact unchanged (by simp [addedBy]) now
    | .ok .duplicate => exact unchanged (by simp [addedBy]) now
    | .ok .added =>
      simp only [follow] at now
      split at now
      · rename_i mine
        cases now
        have added : addedBy (Call.add envelope, (Answer.added (.ok .added) : Answer P)) = some messageId := congrArg some mine
        constructor
        · rw [settlements_append, settlements_append, if_pos added, if_pos added]
        · rw [settlements_append, if_pos added]
          rfl
      · rename_i other
        exact unchanged (fun mine => other (Option.some.inj mine)) now
  | claim now_ limit claimTtl claimIds =>
    change followClaims messageId (message messageId past) (s.claim now_ limit claimTtl claimIds).1 = _ at now
    change Tallied messageId (past ++ [(_, .claimed (s.claim now_ limit claimTtl claimIds).1)]) record
    have quiet (before : Message P) (isBefore : message messageId past = some before) (retries : record.retries = before.retries)
        (ended : record.ended = before.ended) : Tallied messageId
          (past ++ [(.claim now_ limit claimTtl claimIds, .claimed (s.claim now_ limit claimTtl claimIds).1)]) record :=
      (tallied before isBefore).quiet (by simp [addedBy]) List.not_mem_nil List.not_mem_nil retries ended
    unfold followClaims at now
    split at now
    · split at now
      · obtain ⟨before, isBefore, rfl⟩ := Option.map_eq_some_iff.mp now
        exact quiet before isBefore rfl rfl
      · exact quiet record now rfl rfl
    · exact quiet record now rfl rfl
  | delivered claim at_ =>
    refine settled_tallied _ rfl rfl (fun _ member => member) tallied (fun before isBefore mine success tally => ?_) now
    subst mine
    have running := agrees.running (.delivered claim at_) rfl rfl success isBefore
    exact tally.finish running rfl (congrArg (settledWith claim) success) (congrArg (settledWith claim) success)
  | retry claim availableAt =>
    refine settled_tallied _ rfl rfl (fun _ member => nomatch member) tallied (fun before isBefore mine success tally => ?_) now
    subst mine
    exact tally.again rfl (congrArg (settledWith claim) success) rfl
  | failed claim reason at_ =>
    refine settled_tallied _ rfl rfl (fun _ member => member) tallied (fun before isBefore mine success tally => ?_) now
    subst mine
    have running := agrees.running (.failed claim reason at_) rfl rfl success isBefore
    exact tally.finish running rfl (congrArg (settledWith claim) success) (congrArg (settledWith claim) success)
  | purgeDelivered plan =>
    have kept : message messageId past = some record := by
      change (if messageId ∈ _ then none else _) = some record at now
      split at now
      · cases now
      · exact now
    exact (tallied record kept).quiet (by simp [addedBy]) List.not_mem_nil List.not_mem_nil rfl rfl
  | archiveFailed plan archive =>
    have kept : message messageId past = some record := by
      change (if messageId ∈ _ then none else _) = some record at now
      split at now
      · cases now
      · exact now
    exact (tallied record kept).quiet (by simp [addedBy]) List.not_mem_nil List.not_mem_nil rfl rfl

theorem run_tallied (history : Run capacity past s) (messageId : OpaqueId) (record : Message P)
    (isRecord : message messageId past = some record) : Tallied messageId past record := by
  induction history generalizing record with
  | start => cases isRecord
  | next call run _ ih => exact (Agrees.run run).tallied_next ih call record isRecord

theorem settle_success (s : OutboxStore P) (claim : OutboxClaim P) (change : StoredMessage P → StoredMessage P) :
    (s.settle claim change).1 = (s.valid claim).isSome := by
  unfold settle
  cases s.valid claim with
  | none => rfl
  | some item => rfl

/-- Where a message's record comes from: from the one before, with one more retry after a retry. -/
inductive Followed (messageId : OpaqueId) (before : Option (Message P)) (record : Message P) : Call P × Answer P → Prop
  | fresh {event : Call P × Answer P} : record.retries = 0 → Followed messageId before record event
  | same {event : Call P × Answer P} {old : Message P} : before = some old → record.added = old.added → record.retries = old.retries →
      Followed messageId before record event
  | again {claim : OutboxClaim P} {availableAt : Int} {old : Message P} : before = some old → record.added = old.added →
      record.retries = old.retries + 1 → claim.envelope.messageId = messageId →
      Followed messageId before record (.retry claim availableAt, .settled (.ok true))

theorem followSettled_followed {before : Option (Message P)} {record : Message P} {result : Except PyError Bool}
    {progress : Message P → Message P} {event : Call P × Answer P}
    (moved : ∀ old, before = some old → claim.envelope.messageId = messageId → result = .ok true →
      Followed messageId before (progress old) event)
    (now : followSettled messageId before claim progress result = some record) : Followed messageId before record event := by
  unfold followSettled at now
  split at now
  · split at now
    · rename_i mine
      obtain ⟨old, isOld, rfl⟩ := Option.map_eq_some_iff.mp now
      exact moved old isOld mine rfl
    · exact .same now rfl rfl
  · exact .same now rfl rfl

theorem follow_followed {before : Option (Message P)} {record : Message P} (event : Call P × Answer P)
    (now : follow messageId before event = some record) : Followed messageId before record event := by
  unfold follow at now
  split at now
  · split at now
    · cases now
      exact .fresh rfl
    · exact .same now rfl rfl
  · unfold followClaims at now
    split at now
    · split at now
      · obtain ⟨old, isOld, rfl⟩ := Option.map_eq_some_iff.mp now
        exact .same isOld rfl rfl
      · exact .same now rfl rfl
    · exact .same now rfl rfl
  · refine followSettled_followed (fun old isOld _ _ => ?_) now
    exact .same isOld rfl rfl
  · refine followSettled_followed (fun old isOld mine success => ?_) now
    subst success
    exact .again isOld rfl rfl mine
  · refine followSettled_followed (fun old isOld _ _ => ?_) now
    exact .same isOld rfl rfl
  · split at now
    · cases now
    · exact .same now rfl rfl
  · exact .same now rfl rfl

/-- No message that started with attempts left has used them up. -/
def Within (maxAttempts : Nat) (past : List (Call P × Answer P)) : Prop :=
  ∀ messageId record, message messageId past = some record → record.added.attempt < maxAttempts →
    record.added.attempt + record.retries < maxAttempts

theorem Within.next (within : Within maxAttempts past) (history : Run capacity past s) (fresh : Fresh past call)
    (budget : ∀ claim availableAt, call = .retry claim availableAt → claim.envelope.attempt + 1 < maxAttempts) :
    Within maxAttempts (past ++ [(call, (s.answer call).1)]) := by
  intro messageId record isRecord left
  rw [message_append] at isRecord
  have followed := follow_followed _ isRecord
  generalize answered : (s.answer call).1 = result at followed
  cases followed with
  | fresh none_ =>
    rw [none_]
    exact left
  | same isOld added retries =>
    rw [added] at left
    rw [added, retries]
    exact within messageId _ isOld left
  | @again claim availableAt old isOld added retries mine =>
    have success : (s.valid claim).isSome := by
      rw [← s.settle_success claim (markRetried availableAt)]
      exact Except.ok.inj (Answer.settled.inj answered)
    obtain ⟨item, valid⟩ := Option.isSome_iff_exists.mp success
    obtain ⟨found, -⟩ := valid_iff.mp valid
    have snapshot := (run_kept history claim fresh).snapshot item valid
    obtain ⟨record', isBefore, reflects⟩ := reflected_stored ((Agrees.run history).reflected _) found
    rw [mine, isOld] at isBefore
    cases isBefore
    have attempt := reflects.attempt
    have more := budget claim availableAt rfl
    rw [snapshot] at attempt
    rw [added, retries]
    omega

/-- A presented claim was issued. -/
theorem Run.presented_issued (history : Run capacity past s) (presented : Presented claim past) : claim ∈ issued past := by
  induction history with
  | start =>
    obtain ⟨event, member, -⟩ := presented
    cases member
  | @next past s call run fresh ih =>
    rw [issued_append]
    refine List.mem_append_left _ ?_
    obtain ⟨event, member, same⟩ := presented
    rcases List.mem_append.mp member with old | new
    · exact ih ⟨event, old, same⟩
    · cases List.mem_singleton.mp new
      cases call with
      | delivered => cases same; exact fresh
      | retry => cases same; exact fresh
      | failed => cases same; exact fresh
      | _ => cases same

/-- The claims of one call are new and distinct. -/
theorem Run.handed_new (history : Run capacity past s) (fresh : Fresh past call) :
    (issuedBy (call, (s.answer call).1)).Nodup ∧ ∀ claim ∈ issuedBy (call, (s.answer call).1), claim ∉ issued past := by
  have distinct := (Agrees.run (history.next call fresh)).sound.distinct
  rw [issued_append, List.map_append, List.nodup_append] at distinct
  obtain ⟨-, new, apart⟩ := distinct
  refine ⟨new.of_map _, fun claim isNew isOld => ?_⟩
  exact apart _ (List.mem_map_of_mem isOld) _ (List.mem_map_of_mem isNew) rfl

/-- A claim was taken over before it was presented. -/
def TakenFirst (capacity : Nat) (claim : OutboxClaim P) (past : List (Call P × Answer P)) : Prop :=
  ∃ before event rest, past = before ++ event :: rest ∧ event.1.presented = some claim ∧ TakenOver capacity claim before

theorem TakenFirst.append {more : List (Call P × Answer P)} (taken : TakenFirst capacity claim past) :
    TakenFirst capacity claim (past ++ more) := by
  obtain ⟨before, event, rest, rfl, first⟩ := taken
  exact ⟨before, event, rest ++ more, by simp, first⟩

end Pytitect.OutboxStore
