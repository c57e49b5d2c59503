import Pytitect.Json
import Pytitect.Lib.Walk
import Mathlib.Data.List.Sort

namespace Pytitect

@[ext]
structure ProcessKey where
  name : String
  instanceId : String
  nonempty : name ≠ "" ∧ instanceId ≠ ""

instance : DecidableEq ProcessKey := fun _ _ => decidable_of_iff _ ProcessKey.ext_iff.symm

inductive ProcessStatus
  | running
  | compensating
  | completed
  | compensated
  | failed
  deriving DecidableEq

inductive ProcessEffectKind
  | integrationEvent
  | command
  | task
  | compensation
  deriving DecidableEq

structure ProcessEffect where
  effectId : String
  kind : ProcessEffectKind
  name : String
  payload : JsonValue
  nonempty : effectId ≠ "" ∧ name ≠ ""
  valid : validateJson payload .default = .ok ()

structure TimerSchedule where
  timerId : String
  dueAt : Int
  effect : ProcessEffect
  named : timerId ≠ ""

structure ProcessState where
  key : ProcessKey
  version : Nat
  status : ProcessStatus
  state : JsonValue
  updatedAt : Int
  positive : 0 < version
  valid : validateJson state .default = .ok ()

/-- `ProcessDecision`: only decisions that pass `__post_init__` exist. -/
structure ProcessDecision where
  state : JsonValue
  status : ProcessStatus
  effects : List ProcessEffect
  schedule : List TimerSchedule
  cancelTimers : List String
  valid : validateJson state .default = .ok ()
  distinctEffects : (effects.map (·.effectId)).Nodup
  distinctTimers : (schedule.map (·.timerId)).Nodup
  separate : ∀ timer ∈ schedule, timer.timerId ∉ cancelTimers

inductive ProcessApplyResult
  | applied (state : ProcessState) (effects timersScheduled timersCancelled : Nat)
  | stale (expected : Int) (actual : Nat)

structure ProcessTimer where
  process : ProcessKey
  timerId : String
  dueAt : Int
  effect : ProcessEffect
  fencingToken : Nat

structure ProcessTimerClaim where
  timer : ProcessTimer
  claimId : Uuid
  claimedUntil : Int

/-- `_Timer`. -/
structure StoredTimer where
  value : ProcessTimer
  terminal : Bool
  claimId : Option Uuid
  claimedUntil : Option Int

abbrev TimerIdentity : Type := ProcessKey × String

def ProcessTimer.identity (timer : ProcessTimer) : TimerIdentity := (timer.process, timer.timerId)

/-- `InMemoryProcessManagerStore`. -/
structure ProcessManagerStore where
  capacity : Nat
  states : Dict ProcessKey ProcessState
  timers : Dict TimerIdentity StoredTimer
  effects : Dict String (ProcessKey × ProcessEffect)

namespace ProcessManagerStore

def empty (capacity : Nat) : ProcessManagerStore := ⟨capacity, .empty, .empty, .empty⟩

def size (s : ProcessManagerStore) : Nat := s.states.size + s.timers.size + s.effects.size

def load (s : ProcessManagerStore) (key : ProcessKey) : Option ProcessState := s.states.get? key

/-- The loop over `cancel_timers`, with the number of timers it cancelled. -/
def cancelAll (key : ProcessKey) (timers : Dict TimerIdentity StoredTimer) : List String → Dict TimerIdentity StoredTimer × Nat
  | [] => (timers, 0)
  | timerId :: rest =>
    match timers.get? (key, timerId) with
    | some pending =>
      if pending.terminal then cancelAll key timers rest
      else
        let later := cancelAll key (timers.set (key, timerId) { pending with terminal := true }) rest
        (later.1, later.2 + 1)
    | none => cancelAll key timers rest

/-- The entries of a decision's timers and effects. -/
def scheduled (key : ProcessKey) (schedule : List TimerSchedule) : List (TimerIdentity × StoredTimer) :=
  schedule.map fun timer => ((key, timer.timerId), ⟨⟨key, timer.timerId, timer.dueAt, timer.effect, 0⟩, false, none, none⟩)

def recorded (key : ProcessKey) (effects : List ProcessEffect) : List (String × ProcessKey × ProcessEffect) :=
  effects.map fun effect => (effect.effectId, key, effect)

/-- The state a decision leads to. -/
def nextState (key : ProcessKey) (actual : Nat) (decision : ProcessDecision) (at_ : Int) : ProcessState :=
  ⟨key, actual + 1, decision.status, decision.state, at_, Nat.succ_pos _, decision.valid⟩

def commit (s : ProcessManagerStore) (key : ProcessKey) (decision : ProcessDecision) (state : ProcessState) :
    ProcessManagerStore :=
  { s with
    timers := (cancelAll key s.timers decision.cancelTimers).1.setAll (scheduled key decision.schedule)
    effects := s.effects.setAll (recorded key decision.effects)
    states := s.states.set key state }

def apply (s : ProcessManagerStore) (key : ProcessKey) (expectedVersion : Int) (decision : ProcessDecision) (at_ : Int) :
    Except PyError ProcessApplyResult × ProcessManagerStore :=
  let current := s.states.get? key
  let actual : Nat := (current.map (·.version)).getD 0
  if expectedVersion < 0 then (.error (.valueError "expected process version must not be negative"), s)
  else if actual ≠ expectedVersion then (.ok (.stale expectedVersion actual), s)
  else if decision.schedule.any (fun timer => (key, timer.timerId) ∈ s.timers.keys) then
    (.error (.valueError "scheduled timer ID already exists"), s)
  else if decision.effects.any (fun effect => effect.effectId ∈ s.effects.keys) then
    (.error (.valueError "process effect ID already exists"), s)
  else
    let newItems := current.isNone.toNat + decision.schedule.length + decision.effects.length
    if s.capacity < s.size + newItems then (.error (.overflowError "process store capacity exceeded"), s)
    else
      let state := nextState key actual decision at_
      (.ok (.applied state decision.effects.length decision.schedule.length
          (cancelAll key s.timers decision.cancelTimers).2),
        s.commit key decision state)

/-- The order in which timers are looked at. -/
def timerOrder (a b : TimerIdentity × StoredTimer) : Bool :=
  ((compare a.2.value.dueAt b.2.value.dueAt).then
    ((compare a.2.value.process.name b.2.value.process.name).then
      ((compare a.2.value.process.instanceId b.2.value.process.instanceId).then
        (compare a.2.value.timerId b.2.value.timerId)))).isLE

/-- A timer that a call at `now` may claim. -/
def claimable (now : Int) (entry : TimerIdentity × StoredTimer) : Bool :=
  !entry.2.terminal && entry.2.value.dueAt ≤ now && entry.2.claimedUntil.all (· ≤ now)

/-- Claim one timer. The new token and claim id are in place before the new
deadline is computed, which may overflow. -/
def claimTimer (claimedUntil : Except PyError Int) (claimId : Uuid) (stored : StoredTimer) :
    Except PyError ProcessTimerClaim × StoredTimer :=
  let value := { stored.value with fencingToken := stored.value.fencingToken + 1 }
  match claimedUntil with
  | .error error => (.error error, { stored with value, claimId := some claimId })
  | .ok claimedUntil =>
    (.ok ⟨value, claimId, claimedUntil⟩, { stored with value, claimId := some claimId, claimedUntil := some claimedUntil })

/-- `claim_timers`; `claimIds` is what `uuid4` supplies during the call. -/
def claimTimers (s : ProcessManagerStore) (now limit claimTtl : Int) (claimIds : Nat → Uuid) :
    Except PyError (List ProcessTimerClaim) × ProcessManagerStore :=
  if limit ≤ 0 then (.error (.valueError "claim limit must be a positive integer"), s)
  else if claimTtl ≤ 0 then (.error (.valueError "claim ttl must be positive"), s)
  else
    let walked := Dict.walk (claimable now)
      (fun count entry => claimTimer (datetimeAdd now claimTtl) (claimIds count) entry.2) limit.toNat
      (s.timers.items.insertionSort (timerOrder · ·)) 0 s.timers
    (walked.1, { s with timers := walked.2 })

def completeTimer (s : ProcessManagerStore) (claim : ProcessTimerClaim) : Bool × ProcessManagerStore :=
  match s.timers.get? claim.timer.identity with
  | none => (false, s)
  | some stored =>
    if stored.terminal ∨ stored.claimId ≠ some claim.claimId ∨ stored.value.fencingToken ≠ claim.timer.fencingToken then
      (false, s)
    else
      (true, { s with
        timers := s.timers.set claim.timer.identity { stored with terminal := true, claimId := none, claimedUntil := none } })

/-- A timer without its claim and without the mark that it has ended. -/
def timerView (entry : TimerIdentity × StoredTimer) : TimerIdentity × ProcessTimer := (entry.1, entry.2.value)

/-- Cancelling only marks timers. -/
theorem cancelAll_view (key : ProcessKey) (timers : Dict TimerIdentity StoredTimer) (timerIds : List String) :
    (cancelAll key timers timerIds).1.items.map timerView = timers.items.map timerView := by
  induction timerIds generalizing timers with
  | nil => rfl
  | cons timerId rest ih =>
    unfold cancelAll
    split
    · rename_i pending found
      split
      · exact ih timers
      · exact (ih _).trans (Dict.map_items_set_of_mem found rfl)
    · exact ih timers

theorem cancelAll_keys (key : ProcessKey) (timers : Dict TimerIdentity StoredTimer) (timerIds : List String) :
    (cancelAll key timers timerIds).1.keys = timers.keys := by
  have views := congrArg (List.map Prod.fst) (cancelAll_view key timers timerIds)
  rw [List.map_map, List.map_map] at views
  exact views

theorem cancelAll_size (key : ProcessKey) (timers : Dict TimerIdentity StoredTimer) (timerIds : List String) :
    (cancelAll key timers timerIds).1.size = timers.size := by
  have views := congrArg List.length (cancelAll_view key timers timerIds)
  rw [List.length_map, List.length_map] at views
  exact views

/-- Cancelling ends exactly the listed timers of the process. -/
theorem cancelAll_get? (key : ProcessKey) (timers : Dict TimerIdentity StoredTimer) (timerIds : List String)
    (identity : TimerIdentity) :
    (cancelAll key timers timerIds).1.get? identity =
      (timers.get? identity).map fun stored =>
        if identity.1 = key ∧ identity.2 ∈ timerIds then { stored with terminal := true } else stored := by
  induction timerIds generalizing timers with
  | nil => simp [cancelAll]
  | cons timerId rest ih =>
    by_cases mine : identity = (key, timerId)
    · subst mine
      unfold cancelAll
      split
      · rename_i pending found
        split
        · rename_i ended
          have already : { pending with terminal := true } = pending := by
            rw [← ended]
          rw [ih, found]
          simp [already]
        · rw [ih]
          simp [found]
      · rename_i absent
        rw [ih]
        simp [absent]
    · have other : identity.1 = key → identity.2 ≠ timerId := fun sameKey sameId => mine (Prod.ext sameKey sameId)
      have listed : (identity.1 = key ∧ identity.2 ∈ timerId :: rest) ↔ identity.1 = key ∧ identity.2 ∈ rest := by
        rw [List.mem_cons]
        exact ⟨fun both => ⟨both.1, both.2.resolve_left (other both.1)⟩, fun both => ⟨both.1, Or.inr both.2⟩⟩
      simp only [listed]
      unfold cancelAll
      split
      · split
        · exact ih timers
        · rw [ih, Dict.get?_set_of_ne mine]
      · exact ih timers

theorem scheduled_keys (key : ProcessKey) (schedule : List TimerSchedule) :
    (scheduled key schedule).map Prod.fst = schedule.map fun timer => (key, timer.timerId) := by
  simp [scheduled, Function.comp_def]

theorem scheduled_distinct (key : ProcessKey) (decision : ProcessDecision) :
    ((scheduled key decision.schedule).map Prod.fst).Nodup := by
  rw [scheduled_keys]
  have distinct := decision.distinctTimers.map (f := fun timerId => (key, timerId)) fun a b same => congrArg Prod.snd same
  simpa [Function.comp_def] using distinct

theorem recorded_distinct (key : ProcessKey) (decision : ProcessDecision) :
    ((recorded key decision.effects).map Prod.fst).Nodup := by
  simpa [recorded, Function.comp_def] using decision.distinctEffects

/-- What `apply` can do: nothing, or commit a decision whose timers and effects
are new and fit. -/
inductive Applied (s : ProcessManagerStore) (key : ProcessKey) (expectedVersion : Int) (decision : ProcessDecision) (at_ : Int) :
    Except PyError ProcessApplyResult → ProcessManagerStore → Prop
  | refused {result} : (∀ state effects scheduled cancelled, result ≠ .ok (.applied state effects scheduled cancelled)) →
      Applied s key expectedVersion decision at_ result s
  | committed (actual cancelled : Nat) : actual = ((s.states.get? key).map (·.version)).getD 0 → expectedVersion = actual →
      (∀ timer ∈ decision.schedule, (key, timer.timerId) ∉ s.timers.keys) →
      (∀ effect ∈ decision.effects, effect.effectId ∉ s.effects.keys) →
      s.size + ((s.states.get? key).isNone.toNat + decision.schedule.length + decision.effects.length) ≤ s.capacity →
      Applied s key expectedVersion decision at_
        (.ok (.applied (nextState key actual decision at_) decision.effects.length decision.schedule.length cancelled))
        (s.commit key decision (nextState key actual decision at_))

theorem apply_applied (s : ProcessManagerStore) (key : ProcessKey) (expectedVersion : Int) (decision : ProcessDecision)
    (at_ : Int) :
    Applied s key expectedVersion decision at_ (s.apply key expectedVersion decision at_).1
      (s.apply key expectedVersion decision at_).2 := by
  unfold apply
  dsimp only
  split
  · exact .refused (by simp)
  split
  · exact .refused (by simp)
  rename_i current
  split
  · exact .refused (by simp)
  rename_i newTimers
  split
  · exact .refused (by simp)
  rename_i newEffects
  split
  · exact .refused (by simp)
  rename_i room
  refine .committed _ _ rfl (not_not.mp current).symm ?_ ?_ (by omega)
  · simpa using newTimers
  · simpa using newEffects

end ProcessManagerStore

end Pytitect
