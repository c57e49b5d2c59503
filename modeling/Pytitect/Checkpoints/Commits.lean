import Pytitect.Checkpoints.Atomic

namespace Pytitect
variable {P E : Type}

namespace CheckpointStore
variable {s after : CheckpointStore} {stream : String} {expected : Option Checkpoint} {checkpoint : Checkpoint}

/-- A checkpoint that is advanced takes the place of the expected one. -/
theorem advance_true (advanced : s.advance stream expected checkpoint = (.ok true, after)) :
    s.values.get? stream = expected ∧ ∀ other, after.values.get? other = if stream = other then some checkpoint else s.values.get? other := by
  unfold advance at advanced
  split at advanced
  · cases advanced
  split at advanced
  · cases advanced
  rename_i same
  split at advanced
  · cases advanced
  · cases advanced
    refine ⟨not_not.mp same, fun other => ?_⟩
    rw [Dict.get?_set]
    simp only [eq_comm]

end CheckpointStore

namespace CheckpointDatabase
variable {init db t : CheckpointDatabase E} {i : Nat}

theorem Sound.start (init : CheckpointDatabase E) (unused : init.commits = []) : Sound init init where
  state := by simp [unused]
  held := fun stream => by simp [unused, latest]
  chained := fun before commit after split => by simp [unused] at split

/-- A commit keeps the database sound if it sets its checkpoint on the one that is held. -/
theorem Sound.append (sound : Sound init db) (commit : CheckpointCommit E) {checkpoints : CheckpointStore}
    (values : ∀ stream, checkpoints.values.get? stream =
      if commit.stream = stream then commit.checkpoint.or (db.checkpoints.values.get? stream) else db.checkpoints.values.get? stream)
    (onHeld : ∀ checkpoint, commit.checkpoint = some checkpoint → commit.previous = db.checkpoints.values.get? commit.stream) :
    Sound init ⟨checkpoints, db.state ++ commit.effects, db.commits ++ [commit]⟩ where
  state := by simp [sound.state]
  held := fun stream => by
    rw [values, latest_append, sound.held stream]
  chained := fun before entry after split checkpoint sets => by
    rcases List.eq_nil_or_concat after with rfl | ⟨front, last, rfl⟩
    · obtain ⟨rfl, same⟩ := List.append_inj' split rfl
      cases same
      rw [onHeld checkpoint sets, sound.held]
    · rw [List.concat_eq_append, ← List.cons_append, ← List.append_assoc] at split
      exact sound.chained before entry front (List.append_inj' split rfl).1 checkpoint sets

theorem Sound.rival (sound : Sound init db) (rival : Rival db t) : Sound init t := by
  cases rival with
  | advance stream expected checkpoint effects checkpoints advanced =>
    obtain ⟨held, values⟩ := CheckpointStore.advance_true advanced
    exact sound.append ⟨none, stream, expected, effects, some checkpoint⟩ values fun _ _ => held.symm
  | change stream effects =>
    exact sound.append ⟨none, stream, none, effects, none⟩ (fun stream => by simp) nofun

/-- The commits of one worker. -/
def own (i : Nat) (db : CheckpointDatabase E) : List (CheckpointCommit E) := db.commits.filter (·.worker = some i)

/-- The checkpoint was that of the stream at some time. -/
def Loaded (init : CheckpointDatabase E) (stream : String) (previous : Option Checkpoint) (db : CheckpointDatabase E) : Prop :=
  ∃ before, before <+: db.commits ∧ previous = latest init.checkpoints before stream

/-- A worker commits no more than once a turn; what the others commit leaves its own commits as they are. -/
def protocol (init : CheckpointDatabase E) : Protocol (CheckpointDatabase E) Unit where
  permits := fun _ _ => True
  inv := Sound init
  does := fun i s t => t = s ∨ ∃ commit : CheckpointCommit E, commit.worker = some i ∧ t.commits = s.commits ++ [commit]
  sees := fun i s t => own i t = own i s ∧ s.commits <+: t.commits
  outside := Rival
  refl := ⟨rfl, List.prefix_refl _⟩
  trans := fun first second => ⟨second.1.trans first.1, first.2.trans second.2⟩
  seen := by
    rintro i j s t other (rfl | ⟨commit, mine, added⟩)
    · exact ⟨rfl, List.prefix_refl _⟩
    · rw [own, own, added, List.filter_append]
      have foreign : ¬commit.worker = some i := fun same => other (Option.some.inj (mine.symm.trans same))
      exact ⟨by simp [foreign], List.prefix_append _ _⟩
  seenOutside := by
    rintro i s t - (⟨_, _, _, _, _, _⟩ | ⟨_, _⟩)
    · exact ⟨by simp [own], List.prefix_append _ _⟩
    · exact ⟨by simp [own], List.prefix_append _ _⟩
  keptOutside := Sound.rival

end CheckpointDatabase

namespace AtomicCall
open CheckpointDatabase
variable {init db : CheckpointDatabase E} {call : AtomicCall P E} {i : Nat}

/-- Inside the transaction: nothing is committed, and `previous` was loaded from the stream. -/
def Open (init : CheckpointDatabase E) (i : Nat) (stream : String) (previous : Option Checkpoint) (db : CheckpointDatabase E) : Prop :=
  own i db = [] ∧ Loaded init stream previous db

/-- What a call ends in: a confirmed batch is the one commit of the call, with the effects of all
items and the checkpoint of the last; any other call has committed nothing. -/
def Ended (init : CheckpointDatabase E) (call : AtomicCall P E) (i : Nat) :
    Except CheckpointRaise AtomicCheckpointResult → CheckpointDatabase E → Prop
  | .ok (.confirmed batch), db => ∃ items effects, Applies call.applyState call.items 0 items effects ∧ batch.applied = items.length ∧
      batch.pending = items.getLast?.map (·.checkpoint) ∧ Loaded init call.stream batch.previous db ∧
      own i db = [⟨some i, call.stream, batch.previous, effects, batch.pending⟩]
  | _, db => own i db = []

theorem Open.mono {stream : String} {previous : Option Checkpoint} {s t : CheckpointDatabase E} (open_ : Open init i stream previous s)
    (seen : (protocol init).sees i s t) : Open init i stream previous t := by
  obtain ⟨nothing, before, earlier, same⟩ := open_
  exact ⟨seen.1.trans nothing, before, earlier.trans seen.2, same⟩

theorem Ended.mono {result : Except CheckpointRaise AtomicCheckpointResult} {s t : CheckpointDatabase E} (ended : Ended init call i result s)
    (seen : (protocol init).sees i s t) : Ended init call i result t := by
  rcases result with error | ⟨batch⟩ | ⟨previous, attempted⟩
  · exact seen.1.trans ended
  · obtain ⟨items, effects, applies, applied, pending, ⟨before, earlier, same⟩, only⟩ := ended
    exact ⟨items, effects, applies, applied, pending, ⟨before, earlier.trans seen.2, same⟩, seen.1.trans only⟩
  · exact seen.1.trans ended

/-- What the loop gives, counted on from where it stood. -/
def Looped (init : CheckpointDatabase E) (call : AtomicCall P E) (i : Nat) (previous : Option Checkpoint)
    (rest : List (Except CheckpointRaise (CheckpointItem P))) (applied : Nat) (last : Option Checkpoint) (changes : List E) :
    Except CheckpointRaise (Nat × Option Checkpoint × List E) → CheckpointDatabase E → Prop
  | .ok (total, final, made), db => Open init i call.stream previous db ∧ ∃ items effects,
      Applies call.applyState rest applied items effects ∧ total = applied + items.length ∧
      final = (items.getLast?.map (·.checkpoint)).or last ∧ made = changes ++ effects
  | .error _, db => own i db = []

theorem applyItems_safe {previous : Option Checkpoint} (rest : List (Except CheckpointRaise (CheckpointItem P))) (applied : Nat)
    (last : Option Checkpoint) (changes : List E) (sound : Sound init db) (open_ : Open init i call.stream previous db) :
    (protocol init).Safe i (Looped init call i previous rest applied last changes)
      (applyItems call.applyState rest applied last changes) db := by
  induction rest generalizing applied last changes db with
  | nil =>
    exact Protocol.Safe.done fun t seen _ => ⟨open_.mono seen, [], [], ⟨rfl, rfl⟩, rfl, rfl, (List.append_nil _).symm⟩
  | cons item rest ih =>
    have yielded : (protocol init).Safe i (fun result t => result = item ∧ Open init i call.stream previous t)
        (onDatabase fun db => (item, db)) db :=
      Protocol.Safe.when (fun _ _ seen _ known => Open.mono known seen) (fun _ _ _ seen _ known => ⟨known.1, Open.mono known.2 seen⟩)
        (fun _ _ sound known _ _ => ⟨sound, Or.inl rfl, rfl, known⟩) open_
    refine Protocol.Safe.bind yielded sound (fun first u sound after => ?_) fun error u _ after => after.2.1
    obtain ⟨yields, open_⟩ := after
    cases made : call.applyState applied first.payload with
    | mk effects outcome =>
      cases outcome with
      | error error => exact Protocol.Safe.done fun t seen _ => seen.1.trans open_.1
      | ok =>
        refine (ih (applied + 1) (some first.checkpoint) (changes ++ effects) sound open_).mono fun result v sound later => ?_
        have here := later v (protocol init).refl sound
        rcases result with error | ⟨total, final, all⟩
        · exact here
        · obtain ⟨open_, items, following, applies, count, final, same⟩ := here
          refine ⟨open_, first :: items, effects ++ following, ⟨first, items, effects, following, yields.symm, made, applies, rfl, rfl⟩,
            ?_, ?_, ?_⟩
          · rw [count, List.length_cons]
            omega
          · rw [final, List.getLast?_cons]
            cases items.getLast? with
            | none => rfl
            | some item => rfl
          · rw [same, List.append_assoc]

/-- What the end of a transaction can do: raise and leave the database as it was, or commit what the
transaction has made, on the checkpoint it started from. -/
theorem finish_cases (call : AtomicCall P E) (i applied : Nat) (previous last : Option Checkpoint) (changes : List E)
    (db : CheckpointDatabase E) :
    (∃ raised, call.finish i applied previous last changes db = (.error raised, db)) ∨
    ∃ checkpoints : CheckpointStore,
      call.finish i applied previous last changes db = (.ok ⟨applied, previous, last⟩,
        ⟨checkpoints, db.state ++ changes, db.commits ++ [⟨some i, call.stream, previous, changes, last⟩]⟩) ∧
      (∀ stream, checkpoints.values.get? stream =
        if call.stream = stream then last.or (db.checkpoints.values.get? stream) else db.checkpoints.values.get? stream) ∧
      ∀ checkpoint, last = some checkpoint → previous = db.checkpoints.values.get? call.stream := by
  unfold finish
  dsimp only
  cases closed : call.closing with
  | error error =>
    dsimp only
    cases last with
    | none => exact Or.inl ⟨_, rfl⟩
    | some checkpoint =>
      dsimp only
      split
      · exact Or.inl ⟨_, rfl⟩
      · exact Or.inl ⟨_, rfl⟩
      · exact Or.inl ⟨_, rfl⟩
  | ok =>
    dsimp only
    cases last with
    | none => exact Or.inr ⟨_, rfl, fun stream => by simp, by simp⟩
    | some checkpoint =>
      dsimp only
      split
      · exact Or.inl ⟨_, rfl⟩
      · exact Or.inl ⟨_, rfl⟩
      · rename_i advanced
        obtain ⟨held, values⟩ := CheckpointStore.advance_true advanced
        exact Or.inr ⟨_, rfl, values, fun _ _ => held.symm⟩

theorem finish_safe {previous : Option Checkpoint} {items : List (CheckpointItem P)} {effects : List E}
    (open_ : Open init i call.stream previous db) (applies : Applies call.applyState call.items 0 items effects) :
    (protocol init).Safe i (fun result => Ended init call i (result.map .confirmed))
      (onDatabase (call.finish i items.length previous (items.getLast?.map (·.checkpoint)) effects)) db := by
  refine Protocol.Safe.when (fun _ _ seen _ known => Open.mono known seen)
    (fun _ _ _ seen _ ended => Ended.mono ended seen) (fun _ t sound known _ _ => ?_) open_
  obtain ⟨nothing, before, earlier, same⟩ := known
  rcases call.finish_cases i items.length previous (items.getLast?.map (·.checkpoint)) effects t with
    ⟨raised, refused⟩ | ⟨checkpoints, committed, values, onHeld⟩
  · rw [refused]
    exact ⟨sound, Or.inl rfl, nothing⟩
  · rw [committed]
    let commit : CheckpointCommit E := ⟨some i, call.stream, previous, effects, items.getLast?.map (·.checkpoint)⟩
    refine ⟨sound.append commit values onHeld, Or.inr ⟨commit, rfl, rfl⟩, items, effects, applies, rfl, rfl,
      ⟨before, earlier.trans (List.prefix_append _ _), same⟩, ?_⟩
    rw [own, List.filter_append]
    unfold own at nothing
    simp [nothing]

theorem transaction_safe (sound : Sound init db) (named : call.stream ≠ "") (unused : own i db = []) :
    (protocol init).Safe i (fun result => Ended init call i (result.map .confirmed)) (call.transaction i) db := by
  have loads : (protocol init).Safe i
      (fun result t => match result with
        | .ok previous => Open init i call.stream previous t
        | .error _ => own i t = [])
      (onDatabase fun db => ((db.checkpoints.load call.stream).mapError .error, db)) db := by
    refine Protocol.Safe.when (fun _ _ seen _ nothing => seen.1.trans nothing) (fun result _ _ seen _ known => ?_)
      (fun _ t sound nothing _ _ => ⟨sound, Or.inl rfl, ?_⟩) unused
    · cases result with
      | error error => exact seen.1.trans known
      | ok previous => exact Open.mono known seen
    · have loaded : t.checkpoints.load call.stream = .ok (t.checkpoints.values.get? call.stream) := by
        simp [CheckpointStore.load, validateStream, named]
      rw [loaded]
      exact ⟨nothing, t.commits, List.prefix_refl _, sound.held call.stream⟩
  refine Protocol.Safe.bind loads sound (fun previous t sound open_ => ?_) fun error _ _ nothing => nothing
  refine Protocol.Safe.bind (applyItems_safe call.items 0 none [] sound open_) sound (fun outcome u sound looped => ?_)
    fun error _ _ nothing => nothing
  obtain ⟨applied, last, changes⟩ := outcome
  obtain ⟨open_, items, effects, applies, count, final, same⟩ := looped
  rw [Nat.zero_add] at count
  rw [Option.or_none] at final
  rw [List.nil_append] at same
  subst count final same
  exact finish_safe open_ applies

theorem apply_safe (sound : Sound init db) (call : AtomicCall P E) (unused : own i db = []) :
    (protocol init).Safe i (Ended init call i) (call.apply i) db := by
  unfold apply validateStream
  by_cases named : call.stream = ""
  · rw [if_pos named]
    exact Protocol.Safe.done fun t seen _ => seen.1.trans unused
  · rw [if_neg named]
    refine Protocol.Safe.andThen (transaction_safe sound named unused) sound fun result t sound ended => ?_
    rcases result with (⟨previous, attempted⟩ | error) | batch
    · exact Protocol.Safe.done fun u seen holds => ended u seen holds
    · exact Protocol.Safe.done fun u seen holds => ended u seen holds
    · exact Protocol.Safe.done fun u seen holds => ended u seen holds

/-- Any number of workers, each with its call, on one database. -/
def start (init : CheckpointDatabase E) (calls : Nat → AtomicCall P E) :
    EventLoop (CheckpointDatabase E) Unit Unit CheckpointRaise AtomicCheckpointResult :=
  ⟨init, fun i => (calls i).apply i⟩

/-- Whatever the order in which the calls take their steps and other writers act in between: the
database holds what its commits have made, and each checkpoint was set on the one before it by the
transaction that had loaded that one. A confirmed call has committed once, with the effects of all
its items and the checkpoint of the last; a call that found its checkpoint stale or raised has
committed nothing. -/
theorem atomic_checkpoints_follow (init : CheckpointDatabase E) (unused : init.commits = []) (calls : Nat → AtomicCall P E)
    (s : EventLoop (CheckpointDatabase E) Unit Unit CheckpointRaise AtomicCheckpointResult)
    (run : Relation.ReflTransGen (EventLoop.Step Rival fun _ _ => True) (start init calls) s) :
    Sound init s.shared ∧
    ∀ i result, (s.task i).result? = some result → Ended init (calls i) i result s.shared := by
  have sound : Sound init init := Sound.start init unused
  have safe : Protocol.AllSafe (protocol init) (fun i => Ended init (calls i) i) (start init calls) :=
    ⟨sound, fun i => apply_safe sound (calls i) (by simp [own, unused])⟩
  have after := safe.run run
  exact ⟨after.1, fun i result ended => after.ended ended⟩

/-- A call on stream "s" with one item. -/
def oneItem (checkpoint : UInt8) (payload : Nat) : AtomicCall Nat Nat :=
  ⟨"s", [.ok ⟨⟨[checkpoint], List.cons_ne_nil _ _⟩, payload⟩], fun _ payload => ([payload], .ok ()), .ok ()⟩

def noCheckpoints : CheckpointDatabase Nat := ⟨.empty 5, [], []⟩

/-- Two calls load the same checkpoint: one commits its effect, and the other is rolled back. -/
theorem overtaken_rolled_back :
    ∃ s : EventLoop (CheckpointDatabase Nat) Unit Unit CheckpointRaise AtomicCheckpointResult,
      Relation.ReflTransGen (EventLoop.Step Rival fun _ _ => True) (start noCheckpoints fun i => oneItem (i.toUInt8 + 1) i) s ∧
      (s.task 0).result? = some (.ok (.stale none (some ⟨[1], by decide⟩))) ∧ own 0 s.shared = [] ∧
      (s.task 1).result? = some (.ok (.confirmed ⟨1, none, some ⟨[2], by decide⟩⟩)) ∧ s.shared.state = [1] ∧ Sound noCheckpoints s.shared := by
  let schedule : List (Nat × Unit) := [(0, ()), (1, ()), (0, ()), (1, ()), (1, ()), (0, ())]
  let loop := start noCheckpoints fun i => oneItem (i.toUInt8 + 1) i
  have run : Relation.ReflTransGen (EventLoop.Step Rival fun _ _ => True) loop (loop.play schedule) :=
    EventLoop.run_of_plays (fun _ _ => true) (fun _ _ _ => trivial) rfl
  obtain ⟨sound, ended⟩ := atomic_checkpoints_follow noCheckpoints rfl _ _ run
  exact ⟨loop.play schedule, run, rfl, ended 0 (.ok (.stale none (some ⟨[1], by decide⟩))) rfl, rfl, rfl, sound⟩

end AtomicCall

end Pytitect
