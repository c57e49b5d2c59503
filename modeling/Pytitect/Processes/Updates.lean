import Pytitect.Lib.Numbered
import Pytitect.Processes.Runtime

namespace Pytitect.ProcessManagerRuntime
open ProcessManagerStore

/-- The committed decisions of one process, oldest first. -/
def commitsOf (key : ProcessKey) (commits : List ProcessCommit) : List ProcessCommit := commits.filter (·.key = key)

/-- The states of a process, one behind the other, from none at all. -/
def lineage (commits : List ProcessCommit) : List (Option ProcessState) := none :: commits.map fun commit => some commit.after

theorem lineage_append (commits : List ProcessCommit) (commit : ProcessCommit) :
    lineage (commits ++ [commit]) = lineage commits ++ [some commit.after] := by
  simp [lineage]

/-- Every decision of a process was computed from the state that the one before
it led to; the versions are 1, 2, 3 and so on, and the last state is stored. -/
structure Chained (commits : List ProcessCommit) (stored : Option ProcessState) : Prop where
  befores : commits.map (·.before) = (lineage commits).dropLast
  versions : commits.Numbered (·.after.version)
  last : (lineage commits).getLast (by simp [lineage]) = stored

namespace Chained
variable {commits : List ProcessCommit} {stored : Option ProcessState}

theorem start : Chained [] none := ⟨rfl, List.Numbered.nil, rfl⟩

/-- What is stored is what the last decision led to. -/
theorem stored_cases (chained : Chained commits stored) :
    (commits = [] ∧ stored = none) ∨
      ∃ commit ∈ commits, stored = some commit.after ∧ commit.after.version = commits.length := by
  have last := chained.last
  rcases List.eq_nil_or_concat commits with none | ⟨front, commit, same⟩
  · subst none
    exact Or.inl ⟨rfl, last.symm⟩
  · subst same
    have number := chained.versions.number_getElem (i := front.length) (by simp)
    simp only [List.concat_eq_append, List.getElem_concat_length] at number last ⊢
    exact Or.inr ⟨commit, by simp, by rw [← last]; simp [lineage], by simpa using number⟩

/-- The stored version is the number of decisions. -/
theorem version (chained : Chained commits stored) : (stored.map (·.version)).getD 0 = commits.length := by
  rcases chained.stored_cases with ⟨rfl, rfl⟩ | ⟨commit, -, rfl, number⟩
  · rfl
  · exact number

/-- A state of the current version is the stored one. -/
theorem stored_of_version (chained : Chained commits stored) {commit : ProcessCommit} (member : commit ∈ commits)
    (latest : commit.after.version = commits.length) : stored = some commit.after := by
  rcases chained.stored_cases with ⟨rfl, -⟩ | ⟨final, inCommits, same, number⟩
  · cases member
  · have equal := List.inj_on_of_nodup_map chained.versions.nodup member inCommits (latest.trans number.symm)
    rw [same, equal]

theorem append (chained : Chained commits stored) (commit : ProcessCommit) (fromStored : commit.before = stored)
    (next : commit.after.version = (stored.map (·.version)).getD 0 + 1) :
    Chained (commits ++ [commit]) (some commit.after) where
  befores := by
    rw [lineage_append, List.dropLast_concat, List.map_append, chained.befores, List.map_cons, List.map_nil, fromStored,
      ← chained.last]
    exact List.dropLast_append_getLast _
  versions := by
    refine chained.versions.append ?_
    rw [chained.version] at next
    simp [next]
  last := by simp [lineage]

end Chained

/-- What the committed decisions have left in the store. -/
structure Ledger (capacity : Nat) (calls : Nat → HandleCall) (world : ProcessWorld) : Prop where
  chained : ∀ key, Chained (commitsOf key world.commits) (world.store.states.get? key)
  computed : ∀ commit ∈ world.commits, (calls commit.worker).key = commit.key ∧
    (calls commit.worker).decide commit.before = .ok commit.decision ∧
    ∃ at_, commit.after = nextState commit.key ((commit.before.map (·.version)).getD 0) commit.decision at_
  timers : world.store.timers.items.map timerView =
    world.commits.flatMap fun commit => (scheduled commit.key commit.decision.schedule).map timerView
  effects : world.store.effects.items =
    world.commits.flatMap fun commit => recorded commit.key commit.decision.effects
  limit : world.store.capacity = capacity
  bounded : world.store.size ≤ capacity

theorem Ledger.start (capacity : Nat) (calls : Nat → HandleCall) : Ledger capacity calls ⟨.empty capacity, []⟩ where
  chained := fun _ => Chained.start
  computed := by simp
  timers := rfl
  effects := rfl
  limit := rfl
  bounded := Nat.zero_le _

/-- A commit adds exactly its own timers and effects. -/
theorem commit_items {s : ProcessManagerStore} {key : ProcessKey} {decision : ProcessDecision} (state : ProcessState)
    (newTimers : ∀ timer ∈ decision.schedule, (key, timer.timerId) ∉ s.timers.keys)
    (newEffects : ∀ effect ∈ decision.effects, effect.effectId ∉ s.effects.keys) :
    (s.commit key decision state).timers.items =
        (cancelAll key s.timers decision.cancelTimers).1.items ++ scheduled key decision.schedule ∧
      (s.commit key decision state).effects.items = s.effects.items ++ recorded key decision.effects := by
  constructor
  · refine Dict.items_setAll_of_absent (scheduled_distinct key decision) fun entry member => ?_
    obtain ⟨timer, inSchedule, same⟩ := List.mem_map.mp member
    subst same
    rw [cancelAll_keys]
    exact newTimers timer inSchedule
  · refine Dict.items_setAll_of_absent (recorded_distinct key decision) fun entry member => ?_
    obtain ⟨effect, inEffects, same⟩ := List.mem_map.mp member
    subst same
    exact newEffects effect inEffects

theorem commit_size {s : ProcessManagerStore} {key : ProcessKey} {decision : ProcessDecision} {state : ProcessState}
    (newTimers : ∀ timer ∈ decision.schedule, (key, timer.timerId) ∉ s.timers.keys)
    (newEffects : ∀ effect ∈ decision.effects, effect.effectId ∉ s.effects.keys) :
    (s.commit key decision state).size =
      s.size + ((s.states.get? key).isNone.toNat + decision.schedule.length + decision.effects.length) := by
  obtain ⟨timers, effects⟩ := commit_items state newTimers newEffects
  have timerCount : (s.commit key decision state).timers.size = s.timers.size + decision.schedule.length := by
    have counted := congrArg List.length timers
    rw [List.length_append] at counted
    have same := cancelAll_size key s.timers decision.cancelTimers
    simp only [Dict.size, scheduled, List.length_map] at counted same ⊢
    omega
  have effectCount : (s.commit key decision state).effects.size = s.effects.size + decision.effects.length := by
    have counted := congrArg List.length effects
    simpa [Dict.size, recorded] using counted
  have stateCount : (s.commit key decision state).states.size = s.states.size + (s.states.get? key).isNone.toNat := by
    change (s.states.set key state).size = _
    cases found : s.states.get? key with
    | none => exact Dict.size_set_of_absent (Dict.get?_eq_none.mp found)
    | some current => exact Dict.size_set_of_mem (Dict.keys_of_get? found)
  unfold ProcessManagerStore.size
  omega

/-- A decision computed from the stored state is entered into the ledger. -/
theorem Ledger.commit {capacity : Nat} {calls : Nat → HandleCall} {world : ProcessWorld} (ledger : Ledger capacity calls world) {worker : Nat}
    {before : Option ProcessState} {decision : ProcessDecision} {at_ : Int} {actual : Nat}
    (decided : (calls worker).decide before = .ok decision)
    (stored : world.store.states.get? (calls worker).key = before) (version : actual = (before.map (·.version)).getD 0)
    (newTimers : ∀ timer ∈ decision.schedule, ((calls worker).key, timer.timerId) ∉ world.store.timers.keys)
    (newEffects : ∀ effect ∈ decision.effects, effect.effectId ∉ world.store.effects.keys)
    (room : world.store.size + ((world.store.states.get? (calls worker).key).isNone.toNat + decision.schedule.length +
      decision.effects.length) ≤ world.store.capacity) :
    Ledger capacity calls
      ⟨world.store.commit (calls worker).key decision (nextState (calls worker).key actual decision at_),
        world.commits ++ [⟨worker, (calls worker).key, before, decision, nextState (calls worker).key actual decision at_⟩]⟩ where
  chained := by
    intro key
    change Chained _ ((world.store.states.set (calls worker).key _).get? key)
    rw [Dict.get?_set]
    split
    · rename_i mine
      subst mine
      have longer := (ledger.chained (calls worker).key).append
        ⟨worker, (calls worker).key, before, decision, nextState (calls worker).key actual decision at_⟩ stored.symm
        (by rw [stored, ← version]; rfl)
      simpa [commitsOf] using longer
    · rename_i other
      simpa [commitsOf, Ne.symm other] using ledger.chained key
  computed := by
    intro commit member
    rcases List.mem_append.mp member with old | new
    · exact ledger.computed commit old
    · cases List.mem_singleton.mp new
      exact ⟨rfl, decided, at_, by rw [version]⟩
  timers := by
    rw [(commit_items _ newTimers newEffects).1, List.map_append, cancelAll_view, ledger.timers, List.flatMap_append,
      List.flatMap_singleton]
  effects := by
    rw [(commit_items _ newTimers newEffects).2, ledger.effects, List.flatMap_append, List.flatMap_singleton]
  limit := ledger.limit
  bounded := by
    rw [commit_size newTimers newEffects, ← ledger.limit]
    exact room

/-- What one worker has committed. -/
def commitsBy (worker : Nat) (world : ProcessWorld) : List ProcessCommit := world.commits.filter (·.worker = worker)

/-- Each worker adds to the history, and only under its own name. -/
def protocol (capacity : Nat) (calls : Nat → HandleCall) : Protocol ProcessWorld Unit where
  permits := fun _ _ => True
  inv := Ledger capacity calls
  does := fun i s t => s.commits <+: t.commits ∧ ∀ j ≠ i, commitsBy j t = commitsBy j s
  sees := fun i s t => s.commits <+: t.commits ∧ commitsBy i t = commitsBy i s
  outside := fun _ _ => False
  refl := ⟨List.prefix_refl _, rfl⟩
  trans := fun first second => ⟨first.1.trans second.1, second.2.trans first.2⟩
  seen := fun different done => ⟨done.1, done.2 _ (Ne.symm different)⟩
  seenOutside := fun _ impossible => impossible.elim
  keptOutside := fun _ impossible => impossible.elim

/-- The answer of a call tells whether it has committed its one decision. -/
def Settled (i : Nat) : Except PyError ProcessApplyResult → ProcessWorld → Prop
  | .ok (.applied state _ _ _), world => ∃ commit, commitsBy i world = [commit] ∧ commit.after = state
  | _, world => commitsBy i world = []

/-- After `load`: a loaded state is one that some decision led to, and the call
has committed nothing yet. -/
def Loaded (key : ProcessKey) (i : Nat) (current : Option ProcessState) (world : ProcessWorld) : Prop :=
  commitsBy i world = [] ∧
    ∀ state, current = some state → ∃ commit ∈ commitsOf key world.commits, commit.after = state

variable {capacity : Nat} {calls : Nat → HandleCall} {i : Nat} {world later : ProcessWorld}

theorem Settled.mono {result : Except PyError ProcessApplyResult} (settled : Settled i result world)
    (seen : (protocol capacity calls).sees i world later) : Settled i result later := by
  have own : commitsBy i later = commitsBy i world := seen.2
  unfold Settled at settled ⊢
  split at settled
  · rw [own]
    exact settled
  · rw [own]
    exact settled

theorem Loaded.mono {key : ProcessKey} {current : Option ProcessState} (loaded : Loaded key i current world)
    (seen : (protocol capacity calls).sees i world later) : Loaded key i current later := by
  have own : commitsBy i later = commitsBy i world := seen.2
  refine ⟨own.trans loaded.1, fun state same => ?_⟩
  obtain ⟨commit, member, after⟩ := loaded.2 state same
  exact ⟨commit, (seen.1.sublist.filter _).mem member, after⟩

/-- A loaded state is still the stored one if the version has not changed. -/
theorem Loaded.current {key : ProcessKey} {current : Option ProcessState} (loaded : Loaded key i current world)
    (ledger : Ledger capacity calls world)
    (same : (current.map (·.version)).getD 0 = ((world.store.states.get? key).map (·.version)).getD 0) :
    world.store.states.get? key = current := by
  have chained := ledger.chained key
  rw [chained.version] at same
  cases current with
  | none =>
    have empty : commitsOf key world.commits = [] := List.length_eq_zero_iff.mp same.symm
    rw [← chained.last]
    simp [lineage, empty]
  | some state =>
    obtain ⟨commit, member, rfl⟩ := loaded.2 state rfl
    exact chained.stored_of_version member same

theorem load_safe (fresh : commitsBy i world = []) (key : ProcessKey) :
    (protocol capacity calls).Safe i (fun result w => ∃ current, result = .ok current ∧ Loaded key i current w)
      (Coroutine.act () fun _ w => (.ok (w.store.load key), w) :
        Coroutine ProcessWorld Int Unit PyError (Option ProcessState)) world := by
  refine Protocol.Safe.when (fun _ _ seen _ known => seen.2.trans known)
    (fun _ _ _ seen _ known => ⟨_, known.choose_spec.1, known.choose_spec.2.mono seen⟩)
    (fun _ w ledgerThen none _ _ => ⟨ledgerThen, ⟨List.prefix_refl _, fun _ _ => rfl⟩, _, rfl, none, fun state found => ?_⟩)
    fresh
  rcases (ledgerThen.chained key).stored_cases with ⟨-, absent⟩ | ⟨commit, member, same, -⟩
  · cases absent.symm.trans found
  · exact ⟨commit, member, Option.some.inj (same.symm.trans found)⟩

/-- Applying a decision keeps the ledger: it is refused, or was computed from the stored state. -/
theorem applyDecision_keeps (ledger : Ledger capacity calls world) {current : Option ProcessState} {decision : ProcessDecision}
    (loaded : Loaded (calls i).key i current world) (decided : (calls i).decide current = .ok decision) (at_ : Int) :
    let outcome := applyDecision i (calls i).key current decision at_ world
    Ledger capacity calls outcome.2 ∧ (world.commits <+: outcome.2.commits ∧ ∀ j ≠ i, commitsBy j outcome.2 = commitsBy j world) ∧
      Settled i outcome.1 outcome.2 := by
  unfold applyDecision
  dsimp only
  have applied := world.store.apply_applied (calls i).key ((current.map (·.version)).getD 0 : Nat) decision at_
  generalize world.store.apply (calls i).key ((current.map (·.version)).getD 0 : Nat) decision at_ = outcome at applied ⊢
  obtain ⟨result, store⟩ := outcome
  cases applied with
  | refused none =>
    split
    · rename_i same
      cases same
      exact absurd rfl (none _ _ _ _)
    · rename_i other same
      cases same
      refine ⟨ledger, ⟨List.prefix_refl _, fun _ _ => rfl⟩, ?_⟩
      cases result with
      | error error => exact loaded.1
      | ok answer =>
        cases answer with
        | applied state effects timers cancelled => exact absurd rfl (none _ _ _ _)
        | stale expected actual => exact loaded.1
  | committed actual cancelled version expected newTimers newEffects room =>
    have same : (current.map (·.version)).getD 0 = actual := by exact_mod_cast expected
    have stored := loaded.current ledger (same.trans version)
    refine ⟨ledger.commit decided stored same.symm newTimers newEffects room, ⟨List.prefix_append _ _, fun j other => ?_⟩, ?_⟩
    · simp [commitsBy, Ne.symm other]
    · have none := loaded.1
      unfold commitsBy at none
      simp [Settled, commitsBy, none]

theorem handle_safe (ledger : Ledger capacity calls world) (fresh : commitsBy i world = []) :
    (protocol capacity calls).Safe i (Settled i) ((calls i).handle i) world := by
  have refused : ∀ (error : PyError) (w : ProcessWorld), commitsBy i w = [] →
      (protocol capacity calls).Safe i (Settled i) (Coroutine.raise error : Task) w :=
    fun error w none => Protocol.Safe.done fun t seen _ => seen.2.trans none
  unfold HandleCall.handle
  split
  · exact refused _ world fresh
  refine Protocol.Safe.bind (load_safe fresh (calls i).key) ledger (fun current w ledgerThen loaded => ?_)
    fun error w _ known => ?_
  · obtain ⟨found, same, loaded⟩ := loaded
    cases same
    split
    · exact refused _ w loaded.1
    · rename_i decision decided
      exact Protocol.Safe.when (fun _ _ seen _ known => known.mono seen) (fun _ _ _ seen _ known => known.mono seen)
        (fun at_ v ledgerLast known _ _ => applyDecision_keeps ledgerLast known decided at_) loaded
  · obtain ⟨found, same, -⟩ := known
    cases same

/-- Whatever the order in which calls of `handle` load, decide and apply: the
versions of a process are 1, 2, 3 and so on, each decision was computed by its
caller from the state of the version before, a call that has ended has committed
one decision if it answered so and none otherwise, the store holds the timers and
effects of the committed decisions and no others, an `apply` that commits nothing
changes nothing, and the capacity is kept. -/
theorem handle_loses_no_update (capacity : Nat) (calls : Nat → HandleCall)
    {s : EventLoop ProcessWorld Int Unit PyError ProcessApplyResult} (run : Relation.ReflTransGen Step (start capacity calls) s) :
    (∀ key, (commitsOf key s.shared.commits).map (·.after.version) = List.range' 1 (commitsOf key s.shared.commits).length ∧
      (commitsOf key s.shared.commits).map (·.before) = (lineage (commitsOf key s.shared.commits)).dropLast ∧
      s.shared.store.states.get? key = (lineage (commitsOf key s.shared.commits)).getLast (by simp [lineage])) ∧
    (∀ commit ∈ s.shared.commits, (calls commit.worker).key = commit.key ∧
      (calls commit.worker).decide commit.before = .ok commit.decision) ∧
    (∀ i result, (s.task i).result? = some result → Settled i result s.shared) ∧
    s.shared.store.timers.items.map timerView =
      (s.shared.commits.flatMap fun commit => (scheduled commit.key commit.decision.schedule).map timerView) ∧
    s.shared.store.effects.items = (s.shared.commits.flatMap fun commit => recorded commit.key commit.decision.effects) ∧
    (∀ key expectedVersion decision at_, (∃ state effects timers cancelled,
        (s.shared.store.apply key expectedVersion decision at_).1 = .ok (.applied state effects timers cancelled)) ∨
      (s.shared.store.apply key expectedVersion decision at_).2 = s.shared.store) ∧
    s.shared.store.states.size + s.shared.store.timers.size + s.shared.store.effects.size ≤ capacity := by
  have started : Protocol.AllSafe (protocol capacity calls) Settled (start capacity calls) :=
    ⟨Ledger.start capacity calls, fun i => handle_safe (Ledger.start capacity calls) rfl⟩
  have safe := started.run run
  have ledger : Ledger capacity calls s.shared := safe.1
  refine ⟨fun key => ⟨(ledger.chained key).versions, (ledger.chained key).befores, (ledger.chained key).last.symm⟩,
    fun commit member => ⟨(ledger.computed commit member).1, (ledger.computed commit member).2.1⟩,
    fun i result ended => safe.ended ended, ledger.timers, ledger.effects, fun key expectedVersion decision at_ => ?_,
    ledger.bounded⟩
  have applied := s.shared.store.apply_applied key expectedVersion decision at_
  generalize (s.shared.store.apply key expectedVersion decision at_).1 = result at applied ⊢
  generalize (s.shared.store.apply key expectedVersion decision at_).2 = store at applied ⊢
  cases applied with
  | refused _ => exact Or.inr rfl
  | committed actual cancelled _ _ _ _ _ => exact Or.inl ⟨_, _, _, _, rfl⟩

def sampleKey : ProcessKey := ⟨"p", "1", Sample.process_named⟩

/-- A decision with one effect. -/
def sampleDecision : ProcessDecision :=
  ⟨.null, .running, [⟨"e", .command, "go", .null, Sample.effect_named, null_valid⟩], [], [], null_valid, by decide, List.nodup_nil, by simp⟩

def sampleCall : HandleCall := ⟨Dict.empty.set "p" fun _ _ => .ok sampleDecision, sampleKey, .null⟩

def answeredStale : Except PyError ProcessApplyResult → Bool
  | .ok (.stale _ _) => true
  | _ => false

/-- Two workers load the same state; the second to apply is refused and leaves
no trace. -/
theorem second_apply_stale :
    ∃ s : EventLoop ProcessWorld Int Unit PyError ProcessApplyResult,
      Relation.ReflTransGen Step (start 4 fun _ => sampleCall) s ∧ (s.task 1).result?.any answeredStale ∧
      s.shared.commits.length = 1 ∧
      s.shared.store.effects.items = s.shared.commits.flatMap fun commit => recorded commit.key commit.decision.effects := by
  let schedule : List (Nat × Int) := [(0, 1), (1, 2), (0, 3), (1, 4)]
  have run : Relation.ReflTransGen Step (start 4 fun _ => sampleCall) ((start 4 fun _ => sampleCall).play schedule) :=
    EventLoop.run_of_plays (fun _ _ => true) (fun _ _ _ => trivial) (by decide +kernel)
  obtain ⟨-, -, -, -, effects, -, -⟩ := handle_loses_no_update 4 (fun _ => sampleCall) run
  obtain ⟨s, played⟩ : ∃ s, s = (start 4 fun _ => sampleCall).play schedule := ⟨_, rfl⟩
  rw [← played] at run effects
  refine ⟨s, run, ?_, ?_, effects⟩
  · rw [played]
    decide +kernel
  · rw [played]
    decide +kernel

end Pytitect.ProcessManagerRuntime
