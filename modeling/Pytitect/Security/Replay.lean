import Pytitect.Core
import Pytitect.Lib.Dict
import Pytitect.Lib.History
import Pytitect.Lib.Selection
import Pytitect.Lib.Unicode

namespace Pytitect

structure ReplayIdentity where
  ns : Text
  value : Text
  deriving DecidableEq

inductive ReplayDecision
  | accepted (expiresAt : Int)
  | detected (firstSeenUntil : Int)
  | capacityExceeded (capacity : Nat)
  deriving DecidableEq

/-- `InMemoryReplayStore`: until when each identity is remembered. -/
structure ReplayStore where
  capacity : Nat
  entries : Dict ReplayIdentity Int

structure PurgeReplayPlan where
  cutoff : Int
  batchSize : Nat
  dryRun : Bool
  positive : 0 < batchSize

namespace ReplayStore

def empty (capacity : Nat) : ReplayStore := ⟨capacity, .empty⟩

/-- Every reservation first forgets what has expired. -/
def purgeExpired (s : ReplayStore) (now : Int) : ReplayStore :=
  { s with entries := s.entries.popAll ((s.entries.items.filter (fun item => item.2 ≤ now)).map Prod.fst) }

def reserve (s : ReplayStore) (identity : ReplayIdentity) (now ttl : Int) : Except PyError ReplayDecision × ReplayStore :=
  if identity.ns = [] ∨ identity.value = [] ∨ ttl ≤ 0 then
    (.error (.valueError "namespace, value, and positive ttl are required"), s)
  else
    let s := s.purgeExpired now
    match s.entries.get? identity with
    | some existing => (.ok (.detected existing), s)
    | none =>
      if s.capacity ≤ s.entries.size then (.ok (.capacityExceeded s.capacity), s)
      else
        match datetimeAdd now ttl with
        | .error error => (.error error, s)
        | .ok expiresAt => (.ok (.accepted expiresAt), { s with entries := s.entries.set identity expiresAt })

/-- The order of `purge`: oldest first, then the identity. -/
def purgeOrder (a b : ReplayIdentity × Int) : Bool :=
  ((compare a.2 b.2).then ((compare a.1.ns b.1.ns).then (compare a.1.value b.1.value))).isLE

def purge (s : ReplayStore) (plan : PurgeReplayPlan) : MaintenanceSummary × ReplayStore :=
  let selected := (s.entries.items.filter fun item => item.2 ≤ plan.cutoff).firstBy purgeOrder plan.batchSize
  (⟨selected.length, if plan.dryRun then 0 else selected.length, plan.dryRun⟩,
    if plan.dryRun then s else { s with entries := s.entries.popAll (selected.map Prod.fst) })

variable {s : ReplayStore} {identity other : ReplayIdentity} {now ttl until_ : Int}

/-- What is remembered beyond `now` survives the clean-up. -/
theorem purgeExpired_keeps (found : s.entries.get? identity = some until_) (later : now < until_) :
    (s.purgeExpired now).entries.get? identity = some until_ := by
  unfold purgeExpired
  dsimp only
  rw [Dict.get?_popAll, if_neg]
  · exact found
  · intro member
    obtain ⟨⟨key, value⟩, inFilter, same⟩ := List.mem_map.mp member
    obtain ⟨inItems, expired⟩ := List.mem_filter.mp inFilter
    change key = identity at same
    subst same
    cases (Dict.mem_items.mp inItems).symm.trans found
    have early : until_ ≤ now := of_decide_eq_true expired
    omega

/-- A reservation disturbs no identity that is remembered beyond `now`. -/
theorem reserve_keeps (found : s.entries.get? other = some until_) (later : now < until_) :
    (s.reserve identity now ttl).2.entries.get? other = some until_ := by
  have kept := purgeExpired_keeps found later
  unfold reserve
  split
  · exact found
  dsimp only
  split
  · exact kept
  · rename_i absent
    split
    · exact kept
    split
    · exact kept
    · have different : other ≠ identity := by
        rintro rfl
        cases absent.symm.trans kept
      dsimp only
      rw [Dict.get?_set_of_ne different]
      exact kept

/-- An accepted identity was not remembered beyond `now`, and is from then on. -/
theorem reserve_accepted {expiresAt : Int} (accepted : (s.reserve identity now ttl).1 = .ok (.accepted expiresAt)) :
    expiresAt = now + ttl ∧ (s.reserve identity now ttl).2.entries.get? identity = some expiresAt ∧
      ∀ until_, s.entries.get? identity = some until_ → until_ ≤ now := by
  unfold reserve at accepted ⊢
  split at accepted
  · cases accepted
  rename_i valid
  rw [if_neg valid]
  dsimp only at accepted ⊢
  split at accepted
  · cases accepted
  rename_i absent
  split at accepted
  · cases accepted
  rename_i room
  rw [if_neg room]
  cases sum : datetimeAdd now ttl with
  | error error =>
    rw [sum] at accepted
    cases accepted
  | ok expires =>
    rw [sum] at accepted
    cases accepted
    refine ⟨datetimeAdd_ok sum, by simp, fun until_ found => ?_⟩
    by_contra beyond
    have kept := purgeExpired_keeps found (by omega : now < until_)
    cases absent.symm.trans kept

/-- A machine that reserves an identity for `ttl` whenever it accepts an input,
and disturbs no reservation that outlives the instant of its input. -/
structure Guards {ι ο : Type} (step : ReplayStore → ι → ο × ReplayStore) (instant : ι → Int)
    (reserved : ο → Option ReplayIdentity) (ttl : Int) : Prop where
  keeps : ∀ store input identity until_, store.entries.get? identity = some until_ → instant input < until_ →
    (step store input).2.entries.get? identity = some until_
  fresh : ∀ store input identity, reserved (step store input).1 = some identity →
    (step store input).2.entries.get? identity = some (instant input + ttl) ∧
      ∀ until_, store.entries.get? identity = some until_ → until_ ≤ instant input

namespace Guards
variable {ι ο : Type} {step : ReplayStore → ι → ο × ReplayStore} {instant : ι → Int} {reserved : ο → Option ReplayIdentity}
  {allowed : ReplayStore → List (ι × ο) → ι → Prop} {init : ReplayStore} {past : List (ι × ο)}

/-- It is enough that every input leaves the store alone or reserves in it, and
that an identity is only answered when the store has accepted it. -/
theorem of_reserve (touches : ∀ store input, (step store input).2 = store ∨
      ∃ identity, (step store input).2 = (store.reserve identity (instant input) ttl).2)
    (granted : ∀ store input identity, reserved (step store input).1 = some identity →
      ∃ expiresAt, (store.reserve identity (instant input) ttl).1 = .ok (.accepted expiresAt) ∧
        (step store input).2 = (store.reserve identity (instant input) ttl).2) : Guards step instant reserved ttl where
  keeps := by
    intro store input identity until_ found later
    rcases touches store input with same | ⟨mine, same⟩
    · rw [same]
      exact found
    · rw [same]
      exact reserve_keeps found later
  fresh := by
    intro store input identity accepted
    obtain ⟨expiresAt, success, same⟩ := granted store input identity accepted
    obtain ⟨sum, remembered, free⟩ := reserve_accepted success
    rw [same, remembered, sum]
    exact ⟨rfl, free⟩

/-- While no input has come from beyond its end, a reservation is remembered. -/
theorem remembered (guards : Guards step instant reserved ttl) (history : History step allowed init past s) :
    ∀ event ∈ past, ∀ identity, reserved event.2 = some identity →
      (∀ other ∈ past, instant other.1 < instant event.1 + ttl) →
      s.entries.get? identity = some (instant event.1 + ttl) := by
  refine history.invariant (P := fun past s => ∀ event ∈ past, ∀ identity, reserved event.2 = some identity →
    (∀ other ∈ past, instant other.1 < instant event.1 + ttl) →
    s.entries.get? identity = some (instant event.1 + ttl)) (by simp) fun past s input remembered _ => ?_
  intro event member identity accepted within
  rcases List.mem_append.mp member with earlier | last
  · have held := remembered event earlier identity accepted fun other inPast => within other (List.mem_append_left _ inPast)
    have current := within _ (List.mem_append_right _ (List.mem_singleton_self _))
    exact guards.keeps s input identity _ held current
  · cases List.mem_singleton.mp last
    exact (guards.fresh s input identity accepted).1

/-- Under a clock that never goes back, two reservations of one identity lie at
least `ttl` apart. -/
theorem apart (guards : Guards step instant reserved ttl) (history : History step allowed init past s) {input : ι}
    (monotone : ∀ event ∈ past, instant event.1 ≤ instant input) {first : ι × ο} (inPast : first ∈ past)
    (accepted : reserved first.2 = some identity) (again : reserved (step s input).1 = some identity) :
    instant first.1 + ttl ≤ instant input := by
  by_contra early
  have within : ∀ other ∈ past, instant other.1 < instant first.1 + ttl := by
    intro other inPast'
    have ordered := monotone other inPast'
    omega
  have held := guards.remembered history first inPast identity accepted within
  exact early ((guards.fresh s input identity again).2 _ held)

end Guards

end ReplayStore

end Pytitect
