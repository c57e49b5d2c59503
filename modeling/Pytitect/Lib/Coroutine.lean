import Mathlib.Logic.Function.Basic
import Mathlib.Logic.Relation
import Mathlib.Tactic.Common

/-- A task of a cooperative scheduler: it runs undisturbed up to its next
await. There it names the operation it waits for, waits until the operation is
enabled, and acts on the shared state `σ` with what the outside (`ι`) supplies
at that moment. -/
inductive Coroutine (σ ι ω ε α : Type)
  | done (result : Except ε α)
  | await (operation : ω) (enabled : ι → σ → Bool) (next : ι → σ → σ) (resume : ι → σ → Coroutine σ ι ω ε α)

namespace Coroutine
variable {σ ι ω ε ε' α β : Type}

/-- Go on with `k` once the task has returned or raised. -/
def andThen : Coroutine σ ι ω ε α → (Except ε α → Coroutine σ ι ω ε' β) → Coroutine σ ι ω ε' β
  | .done result, k => k result
  | .await operation enabled next resume, k => .await operation enabled next fun input s => (resume input s).andThen k

instance : Monad (Coroutine σ ι ω ε) where
  pure a := .done (.ok a)
  bind t f := t.andThen fun
    | .ok a => f a
    | .error e => .done (.error e)

def raise (e : ε) : Coroutine σ ι ω ε α := .done (.error e)

def mapError (f : ε → ε') (t : Coroutine σ ι ω ε α) : Coroutine σ ι ω ε' α :=
  t.andThen fun
    | .ok a => .done (.ok a)
    | .error e => .done (.error (f e))

/-- Run `cleanup` after the body however that ended, as `finally` does. -/
def ensure (body : Coroutine σ ι ω ε α) (cleanup : Coroutine σ ι ω ε Unit) : Coroutine σ ι ω ε α :=
  body.andThen fun result => cleanup.andThen fun
    | .ok () => .done result
    | .error e => .done (.error e)

/-- One operation on the shared state, carried out when it is enabled. -/
def when (operation : ω) (enabled : ι → σ → Bool) (f : ι → σ → Except ε α × σ) : Coroutine σ ι ω ε α :=
  .await operation enabled (fun input s => (f input s).2) fun input s => .done (f input s).1

def act (operation : ω) (f : ι → σ → Except ε α × σ) : Coroutine σ ι ω ε α := when operation (fun _ _ => true) f

/-- The operation the task waits for. -/
def operation? : Coroutine σ ι ω ε α → Option ω
  | .done _ => none
  | .await operation _ _ _ => some operation

def result? : Coroutine σ ι ω ε α → Option (Except ε α)
  | .done result => some result
  | .await _ _ _ _ => none

/-- Run a task to its end while all others wait; it is stuck at an operation that is not enabled. -/
def alone (input : ι) : Coroutine σ ι ω ε α → σ → Option (Except ε α) × σ
  | .done result, s => (some result, s)
  | .await _ enabled next resume, s =>
    if enabled input s then alone input (resume input s) (next input s) else (none, s)

@[simp] theorem alone_done (input : ι) (result : Except ε α) (s : σ) :
    (done result : Coroutine σ ι ω ε α).alone input s = (some result, s) := rfl

@[simp] theorem alone_pure (input : ι) (value : α) (s : σ) :
    (pure value : Coroutine σ ι ω ε α).alone input s = (some (.ok value), s) := rfl

@[simp] theorem alone_raise (input : ι) (e : ε) (s : σ) :
    (raise e : Coroutine σ ι ω ε α).alone input s = (some (.error e), s) := rfl

@[simp] theorem alone_act (input : ι) (operation : ω) (f : ι → σ → Except ε α × σ) (s : σ) :
    (act operation f).alone input s = (some (f input s).1, (f input s).2) := rfl

theorem alone_andThen (input : ι) (t : Coroutine σ ι ω ε α) (k : Except ε α → Coroutine σ ι ω ε' β) (s : σ) :
    (t.andThen k).alone input s =
      match t.alone input s with
      | (some result, s) => (k result).alone input s
      | (none, s) => (none, s) := by
  induction t generalizing s with
  | done result => rfl
  | await operation enabled next resume ih =>
    by_cases able : enabled input s
    · simp only [andThen, alone, able, if_true]
      exact ih input s _
    · simp [andThen, alone, able]

/-- A first step that returns is followed by the rest. -/
theorem alone_bind {input : ι} {t : Coroutine σ ι ω ε β} {f : β → Coroutine σ ι ω ε α} {s after : σ} {value : β}
    (returned : t.alone input s = (some (.ok value), after)) : (t >>= f).alone input s = (f value).alone input after := by
  have whole := alone_andThen input t (fun
    | .ok a => f a
    | .error e => .done (.error e)) s
  rw [returned] at whole
  exact whole

end Coroutine

/-- Tasks that share one state. -/
structure EventLoop (σ ι ω ε α : Type) where
  shared : σ
  task : Nat → Coroutine σ ι ω ε α

namespace EventLoop
variable {σ ι ω ε α : Type}

/-- One task passes the await it has reached. -/
def turn (s : EventLoop σ ι ω ε α) (i : Nat) (input : ι) : Option (EventLoop σ ι ω ε α) :=
  match s.task i with
  | .done _ => none
  | .await _ enabled next resume =>
    if enabled input s.shared then
      some ⟨next input s.shared, Function.update s.task i (resume input s.shared)⟩
    else none

/-- Let tasks take their turns in the given order; one that cannot is passed over. -/
def play (s : EventLoop σ ι ω ε α) : List (Nat × ι) → EventLoop σ ι ω ε α
  | [] => s
  | (i, input) :: rest => ((s.turn i input).getD s).play rest

/-- A turn of some task whose operation is permitted in this state, or a
change from outside that involves no task. -/
inductive Step (outside : σ → σ → Prop) (permits : ω → σ → Prop) : EventLoop σ ι ω ε α → EventLoop σ ι ω ε α → Prop
  | turn {s t} (i : Nat) (input : ι) : s.turn i input = some t →
      (∀ operation, (s.task i).operation? = some operation → permits operation s.shared) → Step outside permits s t
  | outside {s t} : outside s.shared t → Step outside permits s ⟨t, s.task⟩

theorem turn_getD {s : EventLoop σ ι ω ε α} {i : Nat} {input : ι} (can : (s.turn i input).isSome) :
    s.turn i input = some ((s.turn i input).getD s) := by
  obtain ⟨t, taken⟩ := Option.isSome_iff_exists.mp can
  simp [taken]

/-- All operations of the schedule pass the test when their turn comes. -/
def plays (test : ω → σ → Bool) (s : EventLoop σ ι ω ε α) : List (Nat × ι) → Bool
  | [] => true
  | (i, input) :: rest =>
    (s.task i).operation?.all (test · s.shared) && ((s.turn i input).getD s).plays test rest

theorem run_of_plays {outside : σ → σ → Prop} {permits : ω → σ → Prop} (test : ω → σ → Bool)
    (passed : ∀ operation s, test operation s → permits operation s) {s : EventLoop σ ι ω ε α} {schedule : List (Nat × ι)}
    (tested : s.plays test schedule) : Relation.ReflTransGen (Step outside permits) s (s.play schedule) := by
  induction schedule generalizing s with
  | nil => exact .refl
  | cons entry rest ih =>
    obtain ⟨i, input⟩ := entry
    simp only [plays, Bool.and_eq_true] at tested
    unfold play
    cases taken : s.turn i input with
    | none =>
      rw [taken] at tested
      exact ih tested.2
    | some t =>
      rw [taken] at tested
      refine .head (.turn i input taken fun operation waits => ?_) (ih tested.2)
      have allowed := tested.1
      rw [waits] at allowed
      exact passed operation s.shared allowed

end EventLoop

/-- What tasks promise each other about the state they share: an invariant,
what each may do in one turn, and what each may see of the others. Only runs
of permitted operations are considered. -/
structure Protocol (σ ω : Type) where
  permits : ω → σ → Prop
  inv : σ → Prop
  does : Nat → σ → σ → Prop
  sees : Nat → σ → σ → Prop
  outside : σ → σ → Prop
  refl : ∀ {i s}, sees i s s
  trans : ∀ {i s t u}, sees i s t → sees i t u → sees i s u
  seen : ∀ {i j s t}, j ≠ i → does j s t → sees i s t
  seenOutside : ∀ {i s t}, inv s → outside s t → sees i s t
  keptOutside : ∀ {s t}, inv s → outside s t → inv t

namespace Protocol
variable {σ ι ω ε ε' α β : Type} (protocol : Protocol σ ω)

/-- From this state on the task keeps the protocol in every turn it takes,
whatever the others do in between, and ends in `post`. -/
def Safe (i : Nat) (post : Except ε α → σ → Prop) : Coroutine σ ι ω ε α → σ → Prop
  | .done result, s => ∀ t, protocol.sees i s t → protocol.inv t → post result t
  | .await operation enabled next resume, s => ∀ t, protocol.sees i s t → protocol.inv t → ∀ input, enabled input t →
    protocol.permits operation t → protocol.inv (next input t) ∧ protocol.does i t (next input t) ∧ Safe i post (resume input t) (next input t)

variable {protocol} {i : Nat} {post : Except ε α → σ → Prop}

theorem Safe.later {t : Coroutine σ ι ω ε α} {s u : σ} (safe : protocol.Safe i post t s) (seen : protocol.sees i s u) :
    protocol.Safe i post t u := by
  cases t with
  | done result => exact fun v seenLater => safe v (protocol.trans seen seenLater)
  | await operation enabled next resume => exact fun v seenLater => safe v (protocol.trans seen seenLater)

/-- A weaker end. It may be derived from the stronger one as it stands now and
in whatever state follows. -/
theorem Safe.mono {post' : Except ε α → σ → Prop} {t : Coroutine σ ι ω ε α} {s : σ} (safe : protocol.Safe i post t s)
    (weaker : ∀ result u, protocol.inv u → (∀ v, protocol.sees i u v → protocol.inv v → post result v) → post' result u) :
    protocol.Safe i post' t s := by
  induction t generalizing s with
  | done result =>
    exact fun u seen holds => weaker result u holds fun v later => safe v (protocol.trans seen later)
  | await operation enabled next resume ih =>
    intro u seen holds input may permitted
    obtain ⟨kept, allowed, rest⟩ := safe u seen holds input may permitted
    exact ⟨kept, allowed, ih input u rest⟩

/-- A task followed by another: what the first ends in must make the second safe. -/
theorem Safe.andThen {post' : Except ε' β → σ → Prop} {k : Except ε α → Coroutine σ ι ω ε' β}
    {t : Coroutine σ ι ω ε α} {s : σ} (safe : protocol.Safe i post t s) (holds : protocol.inv s)
    (next : ∀ result u, protocol.inv u → (∀ v, protocol.sees i u v → protocol.inv v → post result v) →
      protocol.Safe i post' (k result) u) : protocol.Safe i post' (t.andThen k) s := by
  induction t generalizing s with
  | done result => exact next result s holds safe
  | await operation enabled after resume ih =>
    intro u seen holdsLater input may permitted
    obtain ⟨kept, allowed, rest⟩ := safe u seen holdsLater input may permitted
    exact ⟨kept, allowed, ih input u rest kept⟩

theorem Safe.bind {mid : Except ε β → σ → Prop} {f : β → Coroutine σ ι ω ε α} {t : Coroutine σ ι ω ε β} {s : σ}
    (safe : protocol.Safe i mid t s) (holds : protocol.inv s)
    (returned : ∀ value u, protocol.inv u → mid (.ok value) u → protocol.Safe i post (f value) u)
    (raised : ∀ error u, protocol.inv u → mid (.error error) u → post (.error error) u) :
    protocol.Safe i post (t >>= f) s := by
  refine Safe.andThen safe holds fun result u holdsThen ended => ?_
  cases result with
  | ok value => exact returned value u holdsThen (ended u protocol.refl holdsThen)
  | error error => exact fun v seen holdsLater => raised error v holdsLater (ended v seen holdsLater)

theorem Safe.mapError {post' : Except ε' α → σ → Prop} {f : ε → ε'} {t : Coroutine σ ι ω ε α} {s : σ}
    (safe : protocol.Safe i post t s) (holds : protocol.inv s)
    (returned : ∀ value u, protocol.inv u → post (.ok value) u → post' (.ok value) u)
    (raised : ∀ error u, protocol.inv u → post (.error error) u → post' (.error (f error)) u) :
    protocol.Safe i post' (t.mapError f) s := by
  refine Safe.andThen safe holds fun result u _ ended => ?_
  cases result with
  | ok value => exact fun v seen holdsLater => returned value v holdsLater (ended v seen holdsLater)
  | error error => exact fun v seen holdsLater => raised error v holdsLater (ended v seen holdsLater)

/-- What a cleanup has to end in after a body that ended with `result`. -/
def Cleaned (post : Except ε α → σ → Prop) (result : Except ε α) : Except ε Unit → σ → Prop
  | .ok (), s => post result s
  | .error error, s => post (.error error) s

theorem Safe.ensure {mid : Except ε α → σ → Prop} {cleanup : Coroutine σ ι ω ε Unit} {t : Coroutine σ ι ω ε α} {s : σ}
    (safe : protocol.Safe i mid t s) (holds : protocol.inv s)
    (cleans : ∀ result u, protocol.inv u → mid result u → protocol.Safe i (Cleaned post result) cleanup u) :
    protocol.Safe i post (t.ensure cleanup) s := by
  refine Safe.andThen safe holds fun result u holdsThen ended => ?_
  refine Safe.andThen (cleans result u holdsThen (ended u protocol.refl holdsThen)) holdsThen fun cleaned v _ after => ?_
  cases cleaned with
  | ok value => exact after
  | error error => exact after

theorem Safe.done {result : Except ε α} {s : σ}
    (reached : ∀ t, protocol.sees i s t → protocol.inv t → post result t) :
    protocol.Safe i post (.done result : Coroutine σ ι ω ε α) s :=
  reached

/-- One operation: it is carried out in a state in which the stable `before`
still holds, and has to keep the protocol and establish what stays true after it. -/
theorem Safe.when {before : σ → Prop} {operation : ω} {enabled : ι → σ → Bool} {f : ι → σ → Except ε α × σ} {s : σ}
    (stable : ∀ t u, protocol.sees i t u → protocol.inv u → before t → before u)
    (stableAfter : ∀ result t u, protocol.sees i t u → protocol.inv u → post result t → post result u)
    (keeps : ∀ input t, protocol.inv t → before t → enabled input t → protocol.permits operation t →
      protocol.inv (f input t).2 ∧
      protocol.does i t (f input t).2 ∧ post (f input t).1 (f input t).2) (now : before s) :
    protocol.Safe i post (Coroutine.when operation enabled f) s := by
  intro t seen holds input may permitted
  obtain ⟨kept, allowed, after⟩ := keeps input t holds (stable s t seen holds now) may permitted
  exact ⟨kept, allowed, fun u seenLater holdsLater => stableAfter _ _ u seenLater holdsLater after⟩

variable (protocol) in
/-- The task keeps the protocol wherever it starts. -/
def Harmless (i : Nat) (t : Coroutine σ ι ω ε α) : Prop := ∀ s, protocol.inv s → protocol.Safe i (fun _ _ => True) t s

theorem Harmless.done {result : Except ε α} : protocol.Harmless i (.done result : Coroutine σ ι ω ε α) :=
  fun _ _ _ _ _ => trivial

theorem Harmless.when {operation : ω} {enabled : ι → σ → Bool} {f : ι → σ → Except ε α × σ}
    (keeps : ∀ input s, protocol.inv s → protocol.inv (f input s).2 ∧ protocol.does i s (f input s).2) :
    protocol.Harmless i (Coroutine.when operation enabled f) :=
  fun _ _ u _ holds input _ _ =>
    ⟨(keeps input u holds).1, (keeps input u holds).2, fun _ _ _ => trivial⟩

theorem Harmless.andThen {t : Coroutine σ ι ω ε α} {k : Except ε α → Coroutine σ ι ω ε' β}
    (first : protocol.Harmless i t) (rest : ∀ result, protocol.Harmless i (k result)) :
    protocol.Harmless i (t.andThen k) :=
  fun s holds => (first s holds).andThen holds fun result u holdsThen _ => rest result u holdsThen

theorem Harmless.bind {t : Coroutine σ ι ω ε α} {f : α → Coroutine σ ι ω ε β} (first : protocol.Harmless i t)
    (rest : ∀ value, protocol.Harmless i (f value)) : protocol.Harmless i (t >>= f) :=
  first.andThen fun
    | .ok value => rest value
    | .error _ => Harmless.done

theorem Harmless.mapError {t : Coroutine σ ι ω ε α} {f : ε → ε'} (first : protocol.Harmless i t) :
    protocol.Harmless i (t.mapError f) :=
  first.andThen fun
    | .ok _ => Harmless.done
    | .error _ => Harmless.done

theorem Harmless.ensure {t : Coroutine σ ι ω ε α} {cleanup : Coroutine σ ι ω ε Unit} (first : protocol.Harmless i t)
    (cleans : protocol.Harmless i cleanup) : protocol.Harmless i (t.ensure cleanup) :=
  first.andThen fun _ => cleans.andThen fun
    | .ok () => Harmless.done
    | .error _ => Harmless.done

/-- All tasks are safe from here on, and the invariant holds. -/
def AllSafe (protocol : Protocol σ ω) (post : Nat → Except ε α → σ → Prop) (s : EventLoop σ ι ω ε α) : Prop :=
  protocol.inv s.shared ∧ ∀ i, protocol.Safe i (post i) (s.task i) s.shared

/-- A step of the system is one the protocol allows, and leaves every task safe. -/
theorem AllSafe.step {post : Nat → Except ε α → σ → Prop} {s t : EventLoop σ ι ω ε α} (safe : AllSafe protocol post s)
    (step : EventLoop.Step protocol.outside protocol.permits s t) :
    AllSafe protocol post t ∧ ((∃ i, protocol.does i s.shared t.shared) ∨ protocol.outside s.shared t.shared) := by
  obtain ⟨holds, each⟩ := safe
  cases step with
  | turn i input taken permitted =>
    unfold EventLoop.turn at taken
    split at taken
    · cases taken
    · rename_i operation enabled next resume waits
      split at taken
      · rename_i may
        cases taken
        have mine := each i
        rw [waits] at mine
        obtain ⟨kept, allowed, rest⟩ := mine s.shared protocol.refl holds input may (permitted operation (by simp [waits, Coroutine.operation?]))
        refine ⟨⟨kept, fun j => ?_⟩, Or.inl ⟨i, allowed⟩⟩
        by_cases same : j = i
        · subst same
          simpa using rest
        · simpa [Function.update_of_ne same] using (each j).later (protocol.seen (Ne.symm same) allowed)
      · cases taken
  | outside changed =>
    exact ⟨⟨protocol.keptOutside holds changed, fun i => (each i).later (protocol.seenOutside holds changed)⟩,
      Or.inr changed⟩

theorem AllSafe.run {post : Nat → Except ε α → σ → Prop} {s t : EventLoop σ ι ω ε α} (safe : AllSafe protocol post s)
    (run : Relation.ReflTransGen (EventLoop.Step protocol.outside protocol.permits) s t) : AllSafe protocol post t := by
  induction run with
  | refl => exact safe
  | tail _ step ih => exact (ih.step step).1

/-- A preorder that contains whatever the protocol allows in one step relates
the two ends of a run. -/
theorem AllSafe.related {post : Nat → Except ε α → σ → Prop} {R : σ → σ → Prop} {s t : EventLoop σ ι ω ε α}
    (refl : ∀ s, R s s) (trans : ∀ {s t u}, R s t → R t u → R s u) (does : ∀ i s t, protocol.does i s t → R s t)
    (outside : ∀ s t, protocol.outside s t → R s t) (safe : AllSafe protocol post s)
    (run : Relation.ReflTransGen (EventLoop.Step protocol.outside protocol.permits) s t) : R s.shared t.shared := by
  induction run with
  | refl => exact refl _
  | tail before step ih =>
    rcases ((safe.run before).step step).2 with ⟨i, done⟩ | changed
    · exact trans ih (does i _ _ done)
    · exact trans ih (outside _ _ changed)

/-- What a finished task ended in holds in every later state. -/
theorem AllSafe.ended {post : Nat → Except ε α → σ → Prop} {s : EventLoop σ ι ω ε α} (safe : AllSafe protocol post s)
    {result : Except ε α} (ended : (s.task i).result? = some result) : post i result s.shared := by
  have mine := safe.2 i
  cases task : s.task i with
  | done last =>
    rw [task] at mine ended
    cases ended
    exact mine s.shared protocol.refl safe.1
  | await operation enabled next resume =>
    rw [task] at ended
    cases ended

end Protocol
