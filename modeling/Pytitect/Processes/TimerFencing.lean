import Pytitect.Processes.Timers

namespace Pytitect.ProcessManagerStore
variable {schedules : List (TimerIdentity × TimerSchedule)} {issues : List (Int × ProcessTimerClaim)}
  {completions : List ProcessTimerClaim} {drawn : Uuid → Prop} {timers : Dict TimerIdentity StoredTimer}
  {s : ProcessManagerStore} {past : List (Call × Answer)}

/-- A commit adds its own timers and marks those it cancels. -/
theorem commit_timers (s : ProcessManagerStore) (key : ProcessKey) (decision : ProcessDecision) (state : ProcessState)
    (identity : TimerIdentity) :
    (∃ timer ∈ decision.schedule, identity = (key, timer.timerId) ∧
      (s.commit key decision state).timers.get? identity =
        some ⟨⟨key, timer.timerId, timer.dueAt, timer.effect, 0⟩, false, none, none⟩) ∨
    (s.commit key decision state).timers.get? identity =
      (s.timers.get? identity).map fun stored =>
        if identity.1 = key ∧ identity.2 ∈ decision.cancelTimers then { stored with terminal := true } else stored := by
  by_cases new : identity ∈ (scheduled key decision.schedule).map Prod.fst
  · obtain ⟨⟨added, stored⟩, member, rfl⟩ := List.mem_map.mp new
    have set : (s.commit key decision state).timers.get? added = some stored :=
      Dict.get?_setAll_of_mem (scheduled_distinct key decision) member
    obtain ⟨timer, inSchedule, same⟩ := List.mem_map.mp member
    cases same
    exact Or.inl ⟨timer, inSchedule, rfl, set⟩
  · refine Or.inr ?_
    change (Dict.setAll _ _).get? identity = _
    rw [Dict.get?_setAll_of_not_mem new, cancelAll_get?]

/-- What was there before a commit is still there, at most marked as ended. -/
theorem commit_keeps {key : ProcessKey} {decision : ProcessDecision} (state : ProcessState)
    (newTimers : ∀ timer ∈ decision.schedule, (key, timer.timerId) ∉ s.timers.keys) {identity : TimerIdentity}
    {stored : StoredTimer} (found : s.timers.get? identity = some stored) :
    ∃ next, (s.commit key decision state).timers.get? identity = some next ∧ next.value = stored.value ∧
      next.claimId = stored.claimId ∧ next.claimedUntil = stored.claimedUntil ∧
      (stored.terminal = true → next.terminal = true) := by
  rcases commit_timers s key decision state identity with ⟨timer, member, rfl, -⟩ | same
  · exact absurd (Dict.keys_of_get? found) (newTimers timer member)
  · rw [same, found]
    refine ⟨_, rfl, ?_⟩
    dsimp only
    split
    · exact ⟨rfl, rfl, rfl, fun _ => rfl⟩
    · exact ⟨rfl, rfl, rfl, id⟩

/-- What is there after a commit has been scheduled by it or was there before. -/
theorem commit_origin {key : ProcessKey} {decision : ProcessDecision} {state : ProcessState} {identity : TimerIdentity}
    {next : StoredTimer} (found : (s.commit key decision state).timers.get? identity = some next) :
    (∃ timer ∈ decision.schedule, identity = (key, timer.timerId) ∧
      next = ⟨⟨key, timer.timerId, timer.dueAt, timer.effect, 0⟩, false, none, none⟩) ∨
    ∃ stored, s.timers.get? identity = some stored ∧ next.value = stored.value ∧ next.claimId = stored.claimId := by
  rcases commit_timers s key decision state identity with ⟨timer, member, same, set⟩ | same
  · exact Or.inl ⟨timer, member, same, Option.some.inj (found.symm.trans set)⟩
  · rw [same] at found
    obtain ⟨stored, wasThere, isNext⟩ := Option.map_eq_some_iff.mp found
    refine Or.inr ⟨stored, wasThere, ?_⟩
    subst isNext
    split
    · exact ⟨rfl, rfl⟩
    · exact ⟨rfl, rfl⟩

theorem Sound.commit (sound : Sound schedules issues completions drawn s.timers) {key : ProcessKey}
    {decision : ProcessDecision} (state : ProcessState)
    (newTimers : ∀ timer ∈ decision.schedule, (key, timer.timerId) ∉ s.timers.keys) :
    Sound (schedules ++ decision.schedule.map fun timer => ((key, timer.timerId), timer)) issues completions drawn
      (s.commit key decision state).timers := by
  constructor
  · intro identity next found
    rcases commit_origin found with ⟨timer, member, rfl, rfl⟩ | ⟨stored, wasThere, value, -⟩
    · exact ⟨rfl, timer, List.mem_append_right _ (List.mem_map_of_mem member), rfl⟩
    · obtain ⟨same, schedule, inSchedules, dueAt⟩ := sound.own identity stored wasThere
      rw [value]
      exact ⟨same, schedule, List.mem_append_left _ inSchedules, dueAt⟩
  · intro identity schedule member
    rcases List.mem_append.mp member with before | new
    · obtain ⟨stored, wasThere⟩ := sound.kept identity schedule before
      obtain ⟨next, found, -⟩ := commit_keeps state newTimers wasThere
      exact ⟨next, found⟩
    · obtain ⟨timer, inSchedule, same⟩ := List.mem_map.mp new
      cases same
      exact ⟨_, Dict.get?_setAll_of_mem (scheduled_distinct key decision) (List.mem_map_of_mem inSchedule)⟩
  · intro entry member
    obtain ⟨stored, wasThere, token, covered⟩ := sound.behind entry member
    obtain ⟨next, found, value, -, until_, terminal⟩ := commit_keeps state newTimers wasThere
    rw [← value] at token
    rw [← until_] at covered
    exact ⟨next, found, token, covered.imp_left terminal⟩
  · intro identity next claimId found claimed
    rcases commit_origin found with ⟨timer, member, rfl, rfl⟩ | ⟨stored, wasThere, value, sameId⟩
    · cases claimed
    · rw [value]
      exact sound.owner identity stored claimId wasThere (sameId ▸ claimed)
  · exact sound.supplied
  · intro entry member
    obtain ⟨schedule, inSchedules, isDue⟩ := sound.due entry member
    exact ⟨schedule, List.mem_append_left _ inSchedules, isDue⟩
  · exact sound.fenced
  · intro claim member
    obtain ⟨stored, wasThere, terminal⟩ := sound.ended claim member
    obtain ⟨next, found, -, -, -, stays⟩ := commit_keeps state newTimers wasThere
    exact ⟨next, found, stays terminal⟩
  · exact sound.once

/-- What a walk has handed out is entered, and of the supplied ids some are used up. -/
def Walked (schedules : List (TimerIdentity × TimerSchedule)) (issues : List (Int × ProcessTimerClaim))
    (completions : List ProcessTimerClaim) (drawn : Uuid → Prop) (now : Int) (claimIds : Nat → Uuid)
    (outcome : Except PyError (List ProcessTimerClaim) × Dict TimerIdentity StoredTimer) : Prop :=
  ∃ more, (∀ claimId, more claimId → drawn claimId ∨ ∃ i, claimIds i = claimId) ∧
    Sound schedules (issues ++ reported now outcome.1) completions more outcome.2

/-- A walk claims one timer after the other. -/
theorem Sound.walk {now : Int} {limit : Nat} {claimIds : Nat → Uuid} {deadline : Except PyError Int}
    (ahead : ∀ instant, deadline = .ok instant → now < instant)
    {claim : Nat → TimerIdentity × StoredTimer → Except PyError ProcessTimerClaim × StoredTimer}
    (claims : ∀ count entry, claim count entry = claimTimer deadline (claimIds count) entry.2)
    {entries : List (TimerIdentity × StoredTimer)} {count : Nat} (sound : Sound schedules issues completions drawn timers)
    (distinct : (entries.map Prod.fst).Nodup) (stored : ∀ entry ∈ entries, timers.get? entry.1 = some entry.2)
    (injective : Function.Injective claimIds) (unused : ∀ i, count ≤ i → ¬drawn (claimIds i)) :
    Walked schedules issues completions drawn now claimIds (Dict.walk (claimable now) claim limit entries count timers) := by
  induction entries generalizing issues drawn timers count with
  | nil => exact ⟨drawn, fun _ => Or.inl, by simpa [Dict.walk, reported] using sound⟩
  | cons entry rest ih =>
    obtain ⟨fresh, distinctRest⟩ := List.nodup_cons.mp distinct
    have found := stored entry (List.mem_cons_self ..)
    by_cases full : limit ≤ count
    · rw [Dict.walk, if_pos full]
      exact ⟨drawn, fun _ => Or.inl, by simpa [reported] using sound⟩
    by_cases may : claimable now entry = true
    · cases sum : deadline with
      | error error =>
        rw [Dict.walk, if_neg full, if_pos may, claims, sum]
        have spoiled := sound.spoil found (unused count (Nat.le_refl _))
        refine ⟨_, ?_, by simpa [reported, claimTimer, nextValue] using spoiled⟩
        rintro other (before | same)
        · exact Or.inl before
        · exact Or.inr ⟨count, same.symm⟩
      | ok instant =>
        have issued := sound.issue found may (unused count (Nat.le_refl _)) (ahead instant sum)
        have others : ∀ other ∈ rest, (timers.set entry.1
            { entry.2 with value := nextValue entry.2, claimId := some (claimIds count), claimedUntil := some instant }).get?
            other.1 = some other.2 := by
          intro other member
          have different : other.1 ≠ entry.1 := fun same => fresh (same ▸ List.mem_map_of_mem member)
          rw [Dict.get?_set_of_ne different]
          exact stored other (List.mem_cons_of_mem _ member)
        have later : ∀ i, count + 1 ≤ i → ¬(drawn (claimIds i) ∨ claimIds i = claimIds count) := by
          rintro i after (known | same)
          · exact unused i (by omega) known
          · have equal := injective same
            omega
        obtain ⟨more, within, rested⟩ := ih issued distinctRest others later
        -- No claim of this call overflows, so the rest of the walk returns.
        have returns : ∀ count entry, ∃ made value, claim count entry = (.ok made, value) := by
          intro count entry
          rw [claims, sum]
          exact ⟨_, _, rfl⟩
        obtain ⟨handed, after, returned⟩ := Dict.walk_returns returns rest (count + 1) _
        rw [returned] at rested
        rw [Dict.walk_cons_ok full may (by rw [claims, sum]; rfl) returned]
        refine ⟨more, ?_, by simpa [reported, nextValue] using rested⟩
        intro claimId known
        rcases within claimId known with (before | same) | supplied
        · exact Or.inl before
        · exact Or.inr ⟨count, same.symm⟩
        · exact Or.inr supplied
    · rw [Dict.walk, if_neg full, if_neg may]
      exact ih sound distinctRest (fun other member => stored other (List.mem_cons_of_mem _ member)) unused

/-- The sorted timers are the stored ones. -/
theorem stored_of_sorted {entry : TimerIdentity × StoredTimer} (member : entry ∈ timers.items.insertionSort (timerOrder · ·)) :
    timers.get? entry.1 = some entry.2 :=
  Dict.mem_items.mp ((List.perm_insertionSort _ _).mem_iff.mp member)

theorem sorted_distinct : ((timers.items.insertionSort (timerOrder · ·)).map Prod.fst).Nodup :=
  (((List.perm_insertionSort _ _).map Prod.fst).nodup_iff).mpr timers.nodup

/-- A committed decision named the timer among those to cancel when it was
already scheduled. -/
def Cancelled (past : List (Call × Answer)) (identity : TimerIdentity) : Prop :=
  ∃ before event after, past = before ++ event :: after ∧ identity ∈ cancelledBy event ∧
    ∃ schedule, (identity, schedule) ∈ scheduledIn before

/-- The timers after a run. -/
structure Agrees (past : List (Call × Answer)) (s : ProcessManagerStore) : Prop where
  sound : Sound (scheduledIn past) (issued past) (completedIn past) (Drawn past) s.timers
  distinct : ((scheduledIn past).map Prod.fst).Nodup
  cancelled : ∀ identity, Cancelled past identity → ∃ stored, s.timers.get? identity = some stored ∧ stored.terminal = true

/-- A timer that has ended never runs again. -/
theorem terminal_stays {identity : TimerIdentity} {stored : StoredTimer} (found : s.timers.get? identity = some stored)
    (ended : stored.terminal = true) (call : Call) :
    ∃ next, (s.answer call).2.timers.get? identity = some next ∧ next.terminal = true := by
  cases call with
  | apply key expectedVersion decision at_ =>
    have applied := s.apply_applied key expectedVersion decision at_
    change ∃ next, (s.apply key expectedVersion decision at_).2.timers.get? identity = some next ∧ _
    generalize s.apply key expectedVersion decision at_ = outcome at applied ⊢
    obtain ⟨result, after⟩ := outcome
    cases applied with
    | refused => exact ⟨stored, found, ended⟩
    | committed actual cancelled _ _ newTimers =>
      rcases commit_timers s key decision (nextState key actual decision at_) identity with ⟨timer, member, rfl, -⟩ | same
      · exact absurd (Dict.keys_of_get? found) (newTimers timer member)
      · rw [found] at same
        refine ⟨_, same, ?_⟩
        split
        · rfl
        · exact ended
  | claimTimers now limit claimTtl claimIds =>
    refine ⟨stored, ?_, ended⟩
    change (s.claimTimers now limit claimTtl claimIds).2.timers.get? identity = some stored
    unfold claimTimers
    split
    · exact found
    split
    · exact found
    · refine (Dict.walk_frame fun entry member may mine => ?_).trans found
      have same := stored_of_sorted member
      rw [mine, found] at same
      cases same
      rw [(claimable_iff.mp may).1] at ended
      cases ended
  | completeTimer claim =>
    change ∃ next, (s.completeTimer claim).2.timers.get? identity = some next ∧ _
    unfold completeTimer
    split
    · exact ⟨stored, found, ended⟩
    split
    · exact ⟨stored, found, ended⟩
    · dsimp only
      rw [Dict.get?_set]
      split
      · exact ⟨_, rfl, rfl⟩
      · exact ⟨stored, found, ended⟩

section Append
variable (past : List (Call × Answer)) (event : Call × Answer)

theorem issued_append : issued (past ++ [event]) = issued past ++ issuedBy event := by simp [issued]

theorem scheduledIn_append : scheduledIn (past ++ [event]) = scheduledIn past ++ scheduledBy event := by simp [scheduledIn]

theorem completedIn_append : completedIn (past ++ [event]) = completedIn past ++ (completedBy event).toList := by
  cases completed : completedBy event <;> simp [completedIn, completed]

variable {past event} in
theorem Drawn.append {claimId : Uuid} (drawn : Drawn past claimId) : Drawn (past ++ [event]) claimId := by
  obtain ⟨earlier, member, rest⟩ := drawn
  exact ⟨earlier, List.mem_append_left _ member, rest⟩

end Append

/-- A claim call leaves the timers sound. -/
theorem Sound.claimTimers (sound : Sound schedules issues completions drawn s.timers) (now limit claimTtl : Int)
    {claimIds : Nat → Uuid} (injective : Function.Injective claimIds) (unused : ∀ i, ¬drawn (claimIds i)) :
    Sound schedules (issues ++ reported now (s.claimTimers now limit claimTtl claimIds).1) completions
      (fun claimId => drawn claimId ∨ ∃ i, claimIds i = claimId) (s.claimTimers now limit claimTtl claimIds).2.timers := by
  have unchanged : Sound schedules (issues ++ []) completions (fun claimId => drawn claimId ∨ ∃ i, claimIds i = claimId)
      s.timers := by
    rw [List.append_nil]
    exact sound.drawMore fun _ => Or.inl
  unfold ProcessManagerStore.claimTimers
  split
  · exact unchanged
  split
  · exact unchanged
  rename_i positive
  have ahead : ∀ instant, datetimeAdd now claimTtl = .ok instant → now < instant := by
    intro instant sum
    rw [datetimeAdd_ok sum]
    omega
  obtain ⟨more, within, walked⟩ :=
    sound.walk ahead (fun _ _ => rfl) sorted_distinct (fun _ => stored_of_sorted) injective fun i _ => unused i
  exact walked.drawMore within

/-- A completion presents a running claim of its timer. -/
theorem completeTimer_success {claim : ProcessTimerClaim} (success : (s.completeTimer claim).1 = true) :
    ∃ stored, s.timers.get? claim.timer.identity = some stored ∧ stored.terminal = false ∧
      stored.claimId = some claim.claimId ∧ stored.value.fencingToken = claim.timer.fencingToken ∧
      (s.completeTimer claim).2.timers =
        s.timers.set claim.timer.identity { stored with terminal := true, claimId := none, claimedUntil := none } := by
  unfold completeTimer at success ⊢
  split at success
  · cases success
  rename_i stored found
  split at success
  · cases success
  rename_i current
  push Not at current
  refine ⟨stored, found, by simpa using current.1, current.2.1, current.2.2, ?_⟩
  simp [current]

theorem completeTimer_failure {claim : ProcessTimerClaim} (failure : (s.completeTimer claim).1 = false) :
    (s.completeTimer claim).2 = s := by
  unfold completeTimer at failure ⊢
  split at failure
  · rfl
  split at failure
  · rename_i found refused
    simp [refused]
  · cases failure

theorem Drawn.now {now limit claimTtl : Int} {claimIds : Nat → Uuid} {answer : Answer} {i : Nat} :
    Drawn (past ++ [(.claimTimers now limit claimTtl claimIds, answer)]) (claimIds i) :=
  ⟨_, List.mem_append_right _ (List.mem_singleton_self _), now, limit, claimTtl, claimIds, i, rfl, rfl⟩

/-- A refused decision schedules nothing. -/
theorem scheduledBy_refused {key : ProcessKey} {expectedVersion at_ : Int} {decision : ProcessDecision}
    {result : Except PyError ProcessApplyResult}
    (refused : ∀ state effects scheduled cancelled, result ≠ .ok (.applied state effects scheduled cancelled)) :
    scheduledBy (.apply key expectedVersion decision at_, .applied result) = [] ∧
      cancelledBy (.apply key expectedVersion decision at_, .applied result) = [] := by
  rcases result with error | (_ | _)
  · exact ⟨rfl, rfl⟩
  · exact absurd rfl (refused _ _ _ _)
  · exact ⟨rfl, rfl⟩

theorem Agrees.next (agrees : Agrees past s) {call : Call} (fresh : Fresh past call) :
    Sound (scheduledIn past ++ scheduledBy (call, (s.answer call).1)) (issued past ++ issuedBy (call, (s.answer call).1))
      (completedIn past ++ (completedBy (call, (s.answer call).1)).toList) (Drawn (past ++ [(call, (s.answer call).1)]))
      (s.answer call).2.timers ∧
    ((scheduledBy (call, (s.answer call).1)).map Prod.fst).Nodup ∧
    ∀ entry ∈ scheduledBy (call, (s.answer call).1), entry.1 ∉ s.timers.keys := by
  have sound : Sound (scheduledIn past) (issued past) (completedIn past) (Drawn (past ++ [(call, (s.answer call).1)])) s.timers :=
    agrees.sound.drawMore fun _ => Drawn.append
  cases call with
  | apply key expectedVersion decision at_ =>
    generalize Drawn (past ++ _) = more at sound ⊢
    have applied := s.apply_applied key expectedVersion decision at_
    simp only [answer, issuedBy, completedBy, Option.toList_none, List.append_nil]
    generalize s.apply key expectedVersion decision at_ = outcome at applied ⊢
    obtain ⟨result, after⟩ := outcome
    cases applied with
    | refused none =>
      rw [(scheduledBy_refused none).1, List.append_nil]
      exact ⟨sound, List.nodup_nil, by simp⟩
    | committed actual cancelled _ _ newTimers =>
      refine ⟨sound.commit _ newTimers, ?_, ?_⟩
      · have distinct := scheduled_distinct key decision
        rw [scheduled_keys] at distinct
        simpa [scheduledBy, Function.comp_def] using distinct
      · intro entry member
        obtain ⟨timer, inSchedule, rfl⟩ := List.mem_map.mp member
        exact newTimers timer inSchedule
  | claimTimers now limit claimTtl claimIds =>
    obtain ⟨injective, unused⟩ := fresh
    have claimed := agrees.sound.claimTimers now limit claimTtl injective unused
    have scheduledNone : scheduledBy (.claimTimers now limit claimTtl claimIds,
      (s.answer (.claimTimers now limit claimTtl claimIds)).1) = [] := rfl
    have completedNone : completedBy (.claimTimers now limit claimTtl claimIds,
      (s.answer (.claimTimers now limit claimTtl claimIds)).1) = none := rfl
    rw [scheduledNone, completedNone, List.append_nil, Option.toList_none, List.append_nil]
    refine ⟨claimed.drawMore fun claimId known => ?_, List.nodup_nil, by simp⟩
    rcases known with before | ⟨i, rfl⟩
    · exact before.append
    · exact Drawn.now
  | completeTimer claim =>
    generalize Drawn (past ++ _) = more at sound ⊢
    have nothing : scheduledBy (.completeTimer claim, (s.answer (.completeTimer claim)).1) = [] ∧
        issuedBy (.completeTimer claim, (s.answer (.completeTimer claim)).1) = [] := ⟨rfl, rfl⟩
    rw [nothing.1, nothing.2, List.append_nil, List.append_nil]
    refine ⟨?_, List.nodup_nil, by simp⟩
    change Sound _ _ (_ ++ (completedBy (.completeTimer claim, .completed (s.completeTimer claim).1)).toList) _
      (s.completeTimer claim).2.timers
    cases outcome : (s.completeTimer claim).1 with
    | true =>
      obtain ⟨stored, found, running, -, -, after⟩ := completeTimer_success outcome
      rw [after]
      exact sound.complete found running
    | false =>
      rw [completeTimer_failure outcome]
      simpa [completedBy] using sound

/-- What was cancelled in a longer run was cancelled before or by the last call. -/
theorem Cancelled.last {event : Call × Answer} {identity : TimerIdentity} (cancelled : Cancelled (past ++ [event]) identity) :
    Cancelled past identity ∨ identity ∈ cancelledBy event ∧ ∃ schedule, (identity, schedule) ∈ scheduledIn past := by
  obtain ⟨before, cancelling, after, split, member, scheduled⟩ := cancelled
  rcases List.eq_nil_or_concat after with none | ⟨front, last, same⟩
  · subst none
    obtain ⟨same, final⟩ := List.append_inj' split rfl
    subst same
    cases final
    exact Or.inr ⟨member, scheduled⟩
  · subst same
    rw [List.concat_eq_append, ← List.cons_append, ← List.append_assoc] at split
    exact Or.inl ⟨before, cancelling, front, (List.append_inj' split rfl).1, member, scheduled⟩

/-- A call that cancels a timer of the store ends it. -/
theorem cancelledBy_ends {call : Call} {identity : TimerIdentity} {stored : StoredTimer}
    (found : s.timers.get? identity = some stored) (member : identity ∈ cancelledBy (call, (s.answer call).1)) :
    ∃ next, (s.answer call).2.timers.get? identity = some next ∧ next.terminal = true := by
  cases call with
  | apply key expectedVersion decision at_ =>
    have applied := s.apply_applied key expectedVersion decision at_
    simp only [answer] at member ⊢
    generalize s.apply key expectedVersion decision at_ = outcome at applied member ⊢
    obtain ⟨result, after⟩ := outcome
    cases applied with
    | refused none =>
      rw [(scheduledBy_refused none).2] at member
      cases member
    | committed actual cancelled _ _ newTimers =>
      obtain ⟨timerId, listed, rfl⟩ := List.mem_map.mp member
      rcases commit_timers s key decision (nextState key actual decision at_) (key, timerId) with
        ⟨timer, inSchedule, same, -⟩ | same
      · exact absurd (Dict.keys_of_get? found) (same ▸ newTimers timer inSchedule)
      · rw [found] at same
        exact ⟨_, same, by simp [listed]⟩
  | claimTimers => cases member
  | completeTimer => cases member

theorem Agrees.run {capacity : Nat} (history : Run capacity past s) : Agrees past s := by
  refine history.invariant ⟨Sound.start.drawMore (by simp), List.nodup_nil, ?_⟩ fun past s call agrees fresh => ?_
  · rintro identity ⟨before, event, after, split, -⟩
    simp at split
  obtain ⟨sound, distinct, newTimers⟩ := agrees.next fresh
  rw [← scheduledIn_append, ← issued_append, ← completedIn_append] at sound
  refine ⟨sound, ?_, fun identity cancelled => ?_⟩
  · rw [scheduledIn_append, List.map_append, List.nodup_append]
    refine ⟨agrees.distinct, distinct, fun first old second new same => ?_⟩
    obtain ⟨⟨earlier, schedule⟩, before, rfl⟩ := List.mem_map.mp old
    obtain ⟨later, now, rfl⟩ := List.mem_map.mp new
    obtain ⟨stored, found⟩ := agrees.sound.kept earlier schedule before
    dsimp only at same
    exact newTimers later now (same ▸ Dict.keys_of_get? found)
  · rcases cancelled.last with before | ⟨member, schedule, scheduled⟩
    · obtain ⟨stored, found, ended⟩ := agrees.cancelled identity before
      exact terminal_stays found ended call
    · obtain ⟨stored, found⟩ := agrees.sound.kept identity schedule scheduled
      exact cancelledBy_ends found member

theorem completedBy_success {call : Call} {claim : ProcessTimerClaim}
    (completed : completedBy (call, (s.answer call).1) = some claim) :
    call = .completeTimer claim ∧ (s.completeTimer claim).1 = true := by
  cases call with
  | apply => cases completed
  | claimTimers => cases completed
  | completeTimer presented =>
    change completedBy (_, .completed (s.completeTimer presented).1) = some claim at completed
    cases outcome : (s.completeTimer presented).1 with
    | true =>
      rw [outcome] at completed
      cases completed
      exact ⟨rfl, outcome⟩
    | false =>
      rw [outcome] at completed
      cases completed

theorem claimTimers_made {now limit claimTtl : Int} {claimIds : Nat → Uuid} {claims : List ProcessTimerClaim}
    (returned : (s.claimTimers now limit claimTtl claimIds).1 = .ok claims) :
    ∀ claim ∈ claims, ∃ entry ∈ s.timers.items.insertionSort (timerOrder · ·), claimable now entry = true ∧
      ∃ count, (claimTimer (datetimeAdd now claimTtl) (claimIds count) entry.2).1 = .ok claim := by
  unfold claimTimers at returned
  split at returned
  · cases returned
  split at returned
  · cases returned
  · exact Dict.walk_made (Prod.ext returned rfl)

/-- What a call issues was there to be claimed. -/
theorem Agrees.claimable_of_issued (agrees : Agrees past s) {call : Call} {entry : Int × ProcessTimerClaim}
    (member : entry ∈ issuedBy (call, (s.answer call).1)) :
    ∃ stored, s.timers.get? entry.2.timer.identity = some stored ∧
      claimable entry.1 (entry.2.timer.identity, stored) = true := by
  cases call with
  | apply => cases member
  | completeTimer => cases member
  | claimTimers now limit claimTtl claimIds =>
    change entry ∈ reported now (s.claimTimers now limit claimTtl claimIds).1 at member
    cases returned : (s.claimTimers now limit claimTtl claimIds).1 with
    | error error =>
      rw [returned] at member
      cases member
    | ok claims =>
      rw [returned] at member
      obtain ⟨claim, handed, rfl⟩ := List.mem_map.mp member
      obtain ⟨origin, inTimers, may, count, claimed⟩ := claimTimers_made returned claim handed
      have found := stored_of_sorted inTimers
      have mine : claim.timer.identity = origin.1 := by
        unfold claimTimer at claimed
        split at claimed
        · cases claimed
        · cases claimed
          exact (agrees.sound.own _ _ found).1
      rw [mine]
      exact ⟨origin.2, found, may⟩

/-- What a call may do to a timer, after the calls before it. -/
structure Obeys (before : List (Call × Answer)) (event : Call × Answer) : Prop where
  latest : ∀ claim, completedBy event = some claim →
    ∃ last, (issuedFor claim.timer.identity (issued before)).getLast? = some last ∧ last.2.claimId = claim.claimId ∧
      last.2.timer.fencingToken = claim.timer.fencingToken
  unclaimed : ∀ identity, Cancelled before identity → ∀ entry ∈ issuedBy event, entry.2.timer.identity ≠ identity
  uncompleted : ∀ identity, Cancelled before identity →
    ∀ claim, completedBy event = some claim → claim.timer.identity ≠ identity
  due : ∀ entry ∈ issuedBy event, (∃ schedule, (entry.2.timer.identity, schedule) ∈ scheduledIn before) ∧
    ∀ schedule, (entry.2.timer.identity, schedule) ∈ scheduledIn before → schedule.dueAt ≤ entry.1

theorem Agrees.obeys (agrees : Agrees past s) {call : Call} (fresh : Fresh past call) :
    Obeys past (call, (s.answer call).1) where
  latest := by
    intro claim completed
    obtain ⟨rfl, success⟩ := completedBy_success completed
    obtain ⟨stored, found, -, claimed, token, -⟩ := completeTimer_success success
    obtain ⟨drawn, last⟩ := agrees.sound.owner _ stored _ found claimed
    rw [← token]
    exact last (fresh drawn)
  unclaimed := by
    intro identity cancelled entry member mine
    obtain ⟨stored, found, may⟩ := agrees.claimable_of_issued member
    obtain ⟨ended, foundEnded, terminal⟩ := agrees.cancelled identity cancelled
    rw [mine, foundEnded] at found
    cases found
    rw [(claimable_iff.mp may).1] at terminal
    cases terminal
  uncompleted := by
    intro identity cancelled claim completed mine
    obtain ⟨rfl, success⟩ := completedBy_success completed
    obtain ⟨stored, found, running, -⟩ := completeTimer_success success
    obtain ⟨ended, foundEnded, terminal⟩ := agrees.cancelled identity cancelled
    rw [mine, foundEnded] at found
    cases found
    rw [running] at terminal
    cases terminal
  due := by
    intro entry member
    obtain ⟨stored, found, may⟩ := agrees.claimable_of_issued member
    obtain ⟨-, schedule, scheduled, dueAt⟩ := agrees.sound.own _ stored found
    refine ⟨⟨schedule, scheduled⟩, fun other again => ?_⟩
    have same := List.inj_on_of_nodup_map agrees.distinct again scheduled rfl
    cases same
    rw [dueAt]
    exact (claimable_iff.mp may).2.1

/-- Each timer is completed once, by the claim issued last; once cancelled it is
left alone. It is claimed when it is due, after the earlier claims have run out and
under a greater token. -/
theorem timers_fire_fenced {capacity : Nat} (history : Run capacity past s) :
    ((completedIn past).map (·.timer.identity)).Nodup ∧
    (∀ before event after, past = before ++ event :: after → Obeys before event) ∧
    (issued past).Pairwise Supersedes := by
  refine ⟨(Agrees.run history).sound.once, fun before event after split => ?_, (Agrees.run history).sound.fenced⟩
  exact history.each (fun past s call run fresh => (Agrees.run run).obeys fresh) split

def sampleTimer (timerId : String) (named : timerId ≠ "") : TimerSchedule :=
  ⟨timerId, 3, ⟨"e", .command, "go", .null, Sample.effect_named, null_valid⟩, named⟩

/-- Two timers are scheduled and one of them cancelled; the other is claimed,
claimed again when the first claim has run out, and completed under both claims. -/
def sampleCalls : List Call :=
  let key : ProcessKey := ⟨"p", "1", Sample.process_named⟩
  let timer : ProcessTimer := ⟨key, "a", 3, (sampleTimer "a" Sample.a_named).effect, 0⟩
  [.apply key 0 ⟨.null, .running, [], [sampleTimer "a" Sample.a_named, sampleTimer "b" Sample.b_named], [], null_valid,
      List.nodup_nil, by decide, by simp⟩ 0,
    .apply key 1 ⟨.null, .running, [], [], ["b"], null_valid, List.nodup_nil, List.nodup_nil, by simp⟩ 1,
    .claimTimers 3 5 10 (Uuid.series 'a'), .claimTimers 13 5 10 (Uuid.series 'b'),
    .completeTimer ⟨{ timer with fencingToken := 1 }, Uuid.series 'a' 0, 13⟩,
    .completeTimer ⟨{ timer with fencingToken := 2 }, Uuid.series 'b' 0, 23⟩]

theorem cancelled_timer_rests :
    ∃ past s, Run 9 past s ∧
      (issued past).map (fun entry => (entry.1, entry.2.timer.timerId, entry.2.timer.fencingToken)) = [(3, "a", 1), (13, "a", 2)] ∧
      (completedIn past).map (fun claim => (claim.timer.timerId, claim.timer.fencingToken)) = [("a", 2)] ∧
      (issued past).Pairwise Supersedes := by
  have run : Run 9 (History.transcript answer (empty 9) sampleCalls) (History.after answer (empty 9) sampleCalls) := by
    refine History.ofInputs ?_
    simp only [History.Permitted, sampleCalls, List.nil_append, List.cons_append]
    refine ⟨trivial, trivial, ⟨Uuid.series_injective 'a', ?_⟩, ⟨Uuid.series_injective 'b', ?_⟩, ?_, ?_, trivial⟩
    · rintro i ⟨event, member, now, limit, claimTtl, claimIds, j, same, -⟩
      simp only [List.mem_cons, List.not_mem_nil, or_false] at member
      rcases member with rfl | rfl <;> cases same
    · rintro i ⟨event, member, now, limit, claimTtl, claimIds, j, same, drawn⟩
      simp only [List.mem_cons, List.not_mem_nil, or_false] at member
      rcases member with rfl | rfl | rfl <;> cases same
      exact Uuid.series_disjoint (by decide) j i drawn
    · exact fun _ => by decide +kernel
    · exact fun _ => by decide +kernel
  exact ⟨_, _, run, by decide +kernel, by decide +kernel, (timers_fire_fenced run).2.2⟩

end Pytitect.ProcessManagerStore
