import Pytitect.Lib.History
import Pytitect.Processes.Store

namespace Pytitect.ProcessManagerStore

/-- A call with what `uuid4` supplies during it. -/
inductive Call
  | apply (key : ProcessKey) (expectedVersion : Int) (decision : ProcessDecision) (at_ : Int)
  | claimTimers (now limit claimTtl : Int) (claimIds : Nat → Uuid)
  | completeTimer (claim : ProcessTimerClaim)

inductive Answer
  | applied (result : Except PyError ProcessApplyResult)
  | claimed (result : Except PyError (List ProcessTimerClaim))
  | completed (success : Bool)

def answer (s : ProcessManagerStore) : Call → Answer × ProcessManagerStore
  | .apply key expectedVersion decision at_ =>
    (.applied (s.apply key expectedVersion decision at_).1, (s.apply key expectedVersion decision at_).2)
  | .claimTimers now limit claimTtl claimIds =>
    (.claimed (s.claimTimers now limit claimTtl claimIds).1, (s.claimTimers now limit claimTtl claimIds).2)
  | .completeTimer claim => (.completed (s.completeTimer claim).1, (s.completeTimer claim).2)

/-- The claims in an answer, with the time of the call; a call that raises hands out none. -/
def reported (now : Int) : Except PyError (List ProcessTimerClaim) → List (Int × ProcessTimerClaim)
  | .ok claims => claims.map fun claim => (now, claim)
  | .error _ => []

/-- The claims that one call issued. -/
def issuedBy : Call × Answer → List (Int × ProcessTimerClaim)
  | (.claimTimers now _ _ _, .claimed result) => reported now result
  | _ => []

/-- The timers that one call scheduled. -/
def scheduledBy : Call × Answer → List (TimerIdentity × TimerSchedule)
  | (.apply key _ decision _, .applied (.ok (.applied _ _ _ _))) =>
    decision.schedule.map fun timer => ((key, timer.timerId), timer)
  | _ => []

/-- The timers that one call was to cancel. -/
def cancelledBy : Call × Answer → List TimerIdentity
  | (.apply key _ decision _, .applied (.ok (.applied _ _ _ _))) => decision.cancelTimers.map fun timerId => (key, timerId)
  | _ => []

/-- The claim that one call completed. -/
def completedBy : Call × Answer → Option ProcessTimerClaim
  | (.completeTimer claim, .completed true) => some claim
  | _ => none

def issued (past : List (Call × Answer)) : List (Int × ProcessTimerClaim) := past.flatMap issuedBy

def scheduledIn (past : List (Call × Answer)) : List (TimerIdentity × TimerSchedule) := past.flatMap scheduledBy

def completedIn (past : List (Call × Answer)) : List ProcessTimerClaim := past.filterMap completedBy

/-- `uuid4` supplied the id to some call. -/
def Drawn (past : List (Call × Answer)) (claimId : Uuid) : Prop :=
  ∃ event ∈ past, ∃ now limit claimTtl claimIds i, event.1 = .claimTimers now limit claimTtl claimIds ∧ claimIds i = claimId

/-- `uuid4` supplies no id twice, and nobody can present one that was supplied
but never issued. -/
def Fresh (past : List (Call × Answer)) : Call → Prop
  | .apply _ _ _ _ => True
  | .claimTimers _ _ _ claimIds => Function.Injective claimIds ∧ ∀ i, ¬Drawn past (claimIds i)
  | .completeTimer claim => Drawn past claim.claimId → ∃ entry ∈ issued past, entry.2.claimId = claim.claimId

/-- Any calls at any times, with fresh claim ids. -/
abbrev Run (capacity : Nat) : List (Call × Answer) → ProcessManagerStore → Prop :=
  History answer (fun _ => Fresh) (empty capacity)

/-- The claims issued for one timer, oldest first. -/
def issuedFor (identity : TimerIdentity) (issues : List (Int × ProcessTimerClaim)) : List (Int × ProcessTimerClaim) :=
  issues.filter (·.2.timer.identity = identity)

/-- The later claim of a timer is issued when the earlier one has run out, and
under a greater token. -/
def Supersedes (earlier later : Int × ProcessTimerClaim) : Prop :=
  earlier.2.timer.identity = later.2.timer.identity →
    earlier.2.claimedUntil ≤ later.1 ∧ earlier.2.timer.fencingToken < later.2.timer.fencingToken

/-- How the stored timers agree with what was scheduled, issued and completed. -/
structure Sound (schedules : List (TimerIdentity × TimerSchedule)) (issues : List (Int × ProcessTimerClaim))
    (completions : List ProcessTimerClaim) (drawn : Uuid → Prop) (timers : Dict TimerIdentity StoredTimer) : Prop where
  own : ∀ identity stored, timers.get? identity = some stored → stored.value.identity = identity ∧
    ∃ schedule, (identity, schedule) ∈ schedules ∧ schedule.dueAt = stored.value.dueAt
  kept : ∀ identity schedule, (identity, schedule) ∈ schedules → ∃ stored, timers.get? identity = some stored
  behind : ∀ entry ∈ issues, ∃ stored, timers.get? entry.2.timer.identity = some stored ∧
    entry.2.timer.fencingToken ≤ stored.value.fencingToken ∧
    (stored.terminal = true ∨ ∃ until_, stored.claimedUntil = some until_ ∧ entry.2.claimedUntil ≤ until_)
  owner : ∀ identity stored claimId, timers.get? identity = some stored → stored.claimId = some claimId →
    drawn claimId ∧ ((∃ entry ∈ issues, entry.2.claimId = claimId) →
      ∃ entry, (issuedFor identity issues).getLast? = some entry ∧ entry.2.claimId = claimId ∧
        entry.2.timer.fencingToken = stored.value.fencingToken)
  supplied : ∀ entry ∈ issues, drawn entry.2.claimId
  due : ∀ entry ∈ issues, ∃ schedule, (entry.2.timer.identity, schedule) ∈ schedules ∧ schedule.dueAt ≤ entry.1
  fenced : issues.Pairwise Supersedes
  ended : ∀ claim ∈ completions, ∃ stored, timers.get? claim.timer.identity = some stored ∧ stored.terminal = true
  once : (completions.map (·.timer.identity)).Nodup

variable {schedules : List (TimerIdentity × TimerSchedule)} {issues : List (Int × ProcessTimerClaim)}
  {completions : List ProcessTimerClaim} {drawn : Uuid → Prop} {timers : Dict TimerIdentity StoredTimer}
  {identity : TimerIdentity} {stored : StoredTimer} {now : Int} {claimId : Uuid}

theorem claimable_iff : claimable now (identity, stored) = true ↔
    stored.terminal = false ∧ stored.value.dueAt ≤ now ∧ ∀ until_, stored.claimedUntil = some until_ → until_ ≤ now := by
  unfold claimable
  cases stored.claimedUntil with
  | none => simp
  | some until_ => simp [and_assoc]

/-- The timer as a claim of it has it. -/
def nextValue (stored : StoredTimer) : ProcessTimer := { stored.value with fencingToken := stored.value.fencingToken + 1 }

namespace Sound

theorem start : Sound [] [] [] (fun _ => False) .empty where
  own := by simp
  kept := by simp
  behind := by simp
  owner := by simp
  supplied := by simp
  due := by simp
  fenced := List.Pairwise.nil
  ended := by simp
  once := List.nodup_nil

theorem drawMore {more : Uuid → Prop} (sound : Sound schedules issues completions drawn timers)
    (grown : ∀ claimId, drawn claimId → more claimId) : Sound schedules issues completions more timers :=
  { sound with
    owner := fun identity stored claimId found claimed =>
      ⟨grown _ (sound.owner identity stored claimId found claimed).1, (sound.owner identity stored claimId found claimed).2⟩
    supplied := fun entry member => grown _ (sound.supplied entry member) }

/-- What was issued for a timer that may be claimed again has run out. -/
theorem runOut (sound : Sound schedules issues completions drawn timers) (found : timers.get? identity = some stored)
    (may : claimable now (identity, stored) = true) {entry : Int × ProcessTimerClaim} (member : entry ∈ issues)
    (mine : entry.2.timer.identity = identity) :
    entry.2.claimedUntil ≤ now ∧ entry.2.timer.fencingToken ≤ stored.value.fencingToken := by
  obtain ⟨running, -, free⟩ := claimable_iff.mp may
  obtain ⟨other, foundOther, token, covered⟩ := sound.behind entry member
  rw [mine] at foundOther
  cases found.symm.trans foundOther
  rcases covered with terminal | ⟨until_, claimed, covers⟩
  · rw [running] at terminal
    cases terminal
  · exact ⟨Int.le_trans covers (free until_ claimed), token⟩

/-- One stored timer is replaced by a later state of it. -/
theorem replace (sound : Sound schedules issues completions drawn timers) (found : timers.get? identity = some stored)
    {next : StoredTimer} (sameTimer : next.value.identity = stored.value.identity ∧ next.value.dueAt = stored.value.dueAt)
    (token : stored.value.fencingToken ≤ next.value.fencingToken)
    (covered : ∀ entry ∈ issues, entry.2.timer.identity = identity →
      next.terminal = true ∨ ∃ until_, next.claimedUntil = some until_ ∧ entry.2.claimedUntil ≤ until_)
    (owned : ∀ claimId, next.claimId = some claimId → drawn claimId ∧ ((∃ entry ∈ issues, entry.2.claimId = claimId) →
      ∃ entry, (issuedFor identity issues).getLast? = some entry ∧ entry.2.claimId = claimId ∧
        entry.2.timer.fencingToken = next.value.fencingToken))
    (final : stored.terminal = true → next.terminal = true) :
    Sound schedules issues completions drawn (timers.set identity next) where
  own := by
    intro other value foundOther
    rcases Dict.get?_set_cases foundOther with ⟨rfl, rfl⟩ | ⟨-, before⟩
    · obtain ⟨same, schedule, scheduled, dueAt⟩ := sound.own other stored found
      exact ⟨sameTimer.1.trans same, schedule, scheduled, dueAt.trans sameTimer.2.symm⟩
    · exact sound.own other value before
  kept := by
    intro other schedule member
    rw [Dict.get?_set]
    split
    · exact ⟨_, rfl⟩
    · exact sound.kept other schedule member
  behind := by
    intro entry member
    obtain ⟨value, foundOther, tokenOther, coveredOther⟩ := sound.behind entry member
    rw [Dict.get?_set]
    split
    · rename_i mine
      rw [mine] at foundOther
      cases found.symm.trans foundOther
      exact ⟨next, rfl, Nat.le_trans tokenOther token, covered entry member mine⟩
    · exact ⟨value, foundOther, tokenOther, coveredOther⟩
  owner := by
    intro other value claimId foundOther claimed
    rcases Dict.get?_set_cases foundOther with ⟨rfl, rfl⟩ | ⟨-, before⟩
    · exact owned claimId claimed
    · exact sound.owner other value claimId before claimed
  supplied := sound.supplied
  due := sound.due
  fenced := sound.fenced
  ended := by
    intro claim member
    obtain ⟨value, foundOther, terminal⟩ := sound.ended claim member
    rw [Dict.get?_set]
    split
    · rename_i mine
      rw [mine] at foundOther
      cases found.symm.trans foundOther
      exact ⟨next, rfl, final terminal⟩
    · exact ⟨value, foundOther, terminal⟩
  once := sound.once

/-- A claim that the store holds for a timer is handed out. -/
theorem report (sound : Sound schedules issues completions drawn timers) {claim : ProcessTimerClaim}
    (found : timers.get? claim.timer.identity = some stored) (claimed : stored.claimId = some claim.claimId)
    (until_ : stored.claimedUntil = some claim.claimedUntil)
    (token : stored.value.fencingToken = claim.timer.fencingToken) (isDue : stored.value.dueAt ≤ now)
    (single : ∀ other value, timers.get? other = some value → value.claimId = some claim.claimId →
      other = claim.timer.identity)
    (supersedes : ∀ entry ∈ issues, Supersedes entry (now, claim)) :
    Sound schedules (issues ++ [(now, claim)]) completions drawn timers where
  own := sound.own
  kept := sound.kept
  behind := by
    intro entry member
    rcases List.mem_append.mp member with old | new
    · exact sound.behind entry old
    · cases List.mem_singleton.mp new
      exact ⟨stored, found, Nat.le_of_eq token.symm, Or.inr ⟨_, until_, Int.le_refl _⟩⟩
  owner := by
    intro other value claimId foundOther claimedOther
    obtain ⟨wasDrawn, last⟩ := sound.owner other value claimId foundOther claimedOther
    refine ⟨wasDrawn, fun reported => ?_⟩
    by_cases mine : claim.timer.identity = other
    · subst mine
      cases found.symm.trans foundOther
      cases claimed.symm.trans claimedOther
      exact ⟨(now, claim), by simp [issuedFor], rfl, token.symm⟩
    · have before : ∃ entry ∈ issues, entry.2.claimId = claimId := by
        obtain ⟨entry, member, sameId⟩ := reported
        rcases List.mem_append.mp member with old | new
        · exact ⟨entry, old, sameId⟩
        · cases List.mem_singleton.mp new
          cases sameId
          exact absurd (single other value foundOther claimedOther).symm mine
      obtain ⟨entry, isLast, rest⟩ := last before
      exact ⟨entry, by simpa [issuedFor, mine] using isLast, rest⟩
  supplied := by
    intro entry member
    rcases List.mem_append.mp member with old | new
    · exact sound.supplied entry old
    · cases List.mem_singleton.mp new
      exact (sound.owner _ stored _ found claimed).1
  due := by
    intro entry member
    rcases List.mem_append.mp member with old | new
    · exact sound.due entry old
    · cases List.mem_singleton.mp new
      obtain ⟨-, schedule, scheduled, dueAt⟩ := sound.own _ stored found
      exact ⟨schedule, scheduled, by rw [dueAt]; exact isDue⟩
  fenced := by
    refine List.pairwise_append.mpr ⟨sound.fenced, List.pairwise_singleton _ _, fun entry old last new => ?_⟩
    cases List.mem_singleton.mp new
    exact supersedes entry old
  ended := sound.ended
  once := sound.once

/-- An id that was never drawn is nowhere. -/
theorem unissued (sound : Sound schedules issues completions drawn timers) (unused : ¬drawn claimId) :
    ∀ entry ∈ issues, entry.2.claimId ≠ claimId :=
  fun entry member same => unused (same ▸ sound.supplied entry member)

/-- A claim whose deadline overflows spoils the timer's earlier claim. -/
theorem spoil (sound : Sound schedules issues completions drawn timers) (found : timers.get? identity = some stored)
    (unused : ¬drawn claimId) :
    Sound schedules issues completions (fun other => drawn other ∨ other = claimId)
      (timers.set identity { stored with value := nextValue stored, claimId := some claimId }) := by
  refine (sound.drawMore fun _ => Or.inl).replace found ⟨rfl, rfl⟩ (Nat.le_succ _) (fun entry member mine => ?_)
    (fun other claimed => ?_) id
  · obtain ⟨value, foundOther, -, covered⟩ := sound.behind entry member
    rw [mine] at foundOther
    cases found.symm.trans foundOther
    exact covered
  · cases claimed
    refine ⟨Or.inr rfl, fun reported => ?_⟩
    obtain ⟨entry, member, same⟩ := reported
    exact absurd same (sound.unissued unused entry member)

/-- A timer is claimed: the claim carries its next token and runs until the deadline. -/
theorem issue (sound : Sound schedules issues completions drawn timers) (found : timers.get? identity = some stored)
    (may : claimable now (identity, stored) = true) (unused : ¬drawn claimId) {deadline : Int} (ahead : now < deadline) :
    Sound schedules (issues ++ [(now, ⟨nextValue stored, claimId, deadline⟩)]) completions
      (fun other => drawn other ∨ other = claimId)
      (timers.set identity { stored with value := nextValue stored, claimId := some claimId, claimedUntil := some deadline }) := by
  have mine : (nextValue stored).identity = identity := (sound.own identity stored found).1
  have isDue := (claimable_iff.mp may).2.1
  have replaced : Sound schedules issues completions (fun other => drawn other ∨ other = claimId)
      (timers.set identity { stored with value := nextValue stored, claimId := some claimId, claimedUntil := some deadline }) := by
    refine (sound.drawMore fun _ => Or.inl).replace found ⟨rfl, rfl⟩ (Nat.le_succ _) (fun entry member same => ?_)
      (fun other claimed => ?_) id
    · exact Or.inr ⟨deadline, rfl, Int.le_trans (sound.runOut found may member same).1 (Int.le_of_lt ahead)⟩
    · cases claimed
      refine ⟨Or.inr rfl, fun reported => ?_⟩
      obtain ⟨entry, member, same⟩ := reported
      exact absurd same (sound.unissued unused entry member)
  have held : (timers.set identity
      { stored with value := nextValue stored, claimId := some claimId, claimedUntil := some deadline }).get?
      (nextValue stored).identity =
      some { stored with value := nextValue stored, claimId := some claimId, claimedUntil := some deadline } := by
    rw [mine, Dict.get?_set_self]
  refine replaced.report held rfl rfl rfl isDue (fun other value foundOther claimed => ?_) fun entry member same => ?_
  · rcases Dict.get?_set_cases foundOther with ⟨equal, -⟩ | ⟨-, before⟩
    · exact equal.trans mine.symm
    · exact absurd (sound.owner other value claimId before claimed).1 unused
  · obtain ⟨out, token⟩ := sound.runOut found may member (same.trans mine)
    exact ⟨out, Nat.lt_succ_of_le token⟩

/-- A claim is completed. -/
theorem complete (sound : Sound schedules issues completions drawn timers) {claim : ProcessTimerClaim}
    (found : timers.get? claim.timer.identity = some stored) (running : stored.terminal = false) :
    Sound schedules issues (completions ++ [claim]) drawn
      (timers.set claim.timer.identity { stored with terminal := true, claimId := none, claimedUntil := none }) := by
  have replaced : Sound schedules issues completions drawn
      (timers.set claim.timer.identity { stored with terminal := true, claimId := none, claimedUntil := none }) :=
    sound.replace found ⟨rfl, rfl⟩ (Nat.le_refl _) (fun _ _ _ => Or.inl rfl) (fun _ claimed => nomatch claimed) fun _ => rfl
  refine { replaced with ended := fun other member => ?_, once := ?_ }
  · rcases List.mem_append.mp member with old | new
    · exact replaced.ended other old
    · cases List.mem_singleton.mp new
      exact ⟨_, Dict.get?_set_self .., rfl⟩
  · rw [List.map_append, List.nodup_append]
    refine ⟨sound.once, List.nodup_singleton _, fun first old second new same => ?_⟩
    obtain ⟨earlier, member, isFirst⟩ := List.mem_map.mp old
    cases List.mem_singleton.mp new
    obtain ⟨value, foundOther, terminal⟩ := sound.ended earlier member
    rw [isFirst, same] at foundOther
    cases found.symm.trans foundOther
    rw [running] at terminal
    cases terminal

end Sound

end Pytitect.ProcessManagerStore
