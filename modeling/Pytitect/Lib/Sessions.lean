import Pytitect.Lib.RowLocks

namespace RowLocks
variable {σ ω κ ε α β : Type}

/-- What becomes of a statement: it is carried out, it fails, or it is carried out although its
session gets an error. -/
inductive Outcome (ε : Type)
  | done
  | failed (error : ε)
  | lost (error : ε)

/-- What a session does, statement by statement. -/
abbrev Session (σ ω κ ε α : Type) : Type := Coroutine (Database σ ω κ) (Outcome ε) Unit ε α

namespace Session

/-- One statement, which waits until it is able. -/
def statement (able : Database σ ω κ → Bool) (f : Database σ ω κ → α × Database σ ω κ) : Session σ ω κ ε α :=
  Coroutine.when ()
    (fun outcome d =>
      match outcome with
      | .failed _ => true
      | _ => able d)
    fun outcome d =>
      match outcome with
      | .done => (.ok (f d).1, (f d).2)
      | .failed error => (.error error, d)
      | .lost error => (.error error, (f d).2)

variable (write : ω → σ → σ) (i : Nat)

/-- A query of what the session sees. -/
def query (f : σ → α) : Session σ ω κ ε α := statement (fun _ => true) fun d => (f (d.view write i), d)

def change (w : ω) : Session σ ω κ ε Unit := statement (fun _ => true) fun d => ((), d.write i w)

/-- Start a savepoint, which is known by how much the transaction has done before it. -/
def savepoint : Session σ ω κ ε Nat := statement (fun _ => true) fun d => ((d.journal i).length, d)

variable [DecidableEq κ]

/-- Lock as many rows as may be locked without waiting, in the given order and up to a limit. -/
def selectSkipLocked (rows : σ → List α) (row : α → κ) (limit : Nat) : Session σ ω κ ε (List α) :=
  statement (fun _ => true) fun d =>
    let chosen := ((rows (d.view write i)).filter fun entry => d.free i (row entry)).take limit
    (chosen, d.lockAll i (chosen.map row))

/-- Lock a row, and insert it where the session sees none. -/
def acquire (row : κ) (insert : σ → Option ω) (read : σ → α) : Session σ ω κ ε α :=
  statement (·.free i row) fun d =>
    let locked := d.lock i row
    let present :=
      match insert (locked.view write i) with
      | none => locked
      | some w => locked.write i w
    (read (present.view write i), present)

/-- Lock a row that the session sees, and read it. -/
def selectForUpdate (row : κ) (read : σ → Option α) : Session σ ω κ ε (Option α) :=
  statement (fun d => (read (d.view write i)).isNone || d.free i row) fun d =>
    match read (d.view write i) with
    | none => (none, d)
    | some found => (some found, d.lock i row)

/-- `INSERT … ON CONFLICT DO NOTHING`, or `UPDATE … WHERE` of one row. What the session sees tells what is
to be written, once no other session may still change the row. -/
def writeWhere (row : κ) (change : σ → Option ω) : Session σ ω κ ε Bool :=
  statement (fun d => (change (d.view write i)).isNone || d.free i row) fun d =>
    match change (d.view write i) with
    | none => (false, d)
    | some w => (true, (d.lock i row).write i w)

/-- A rollback takes place even where its session cannot ask for it. -/
def rollback (savepoint : Nat) : Session σ ω κ ε Unit := Coroutine.act () fun _ d => (.ok (), d.keep i savepoint)

/-- `async with session.begin_nested()` -/
def nested (body : Nat → Session σ ω κ ε α) : Session σ ω κ ε α := do
  let mark ← savepoint i
  (body mark).andThen fun
    | .ok a => .done (.ok a)
    | .error error => (rollback i mark).andThen fun _ => .done (.error error)

/-- `async with session.begin()` -/
def transaction (body : Session σ ω κ ε α) : Session σ ω κ ε α :=
  body.andThen fun
    | .ok a => (statement (fun _ => true) fun d => ((), d.commit write i)).andThen fun
      | .ok () => .done (.ok a)
      | .error error => (rollback i 0).andThen fun _ => .done (.error error)
    | .error error => (rollback i 0).andThen fun _ => .done (.error error)

/-- One operation after the other, with what each has answered. -/
def each (operation : β → Session σ ω κ ε α) : List β → Session σ ω κ ε (List α)
  | [] => pure []
  | call :: rest => do
    let answer ← operation call
    let later ← each operation rest
    return answer :: later

/-- One transaction after the other, with the answers of those whose commit was confirmed. -/
def transactions (operation : β → Session σ ω κ ε α) : List (List β) → Session σ ω κ ε (List α)
  | [] => pure []
  | calls :: rest => (transaction write i (each operation calls)).andThen fun
    | .ok answers => do
      let later ← transactions operation rest
      return answers ++ later
    | .error _ => transactions operation rest

section Alone
variable {write : ω → σ → σ} {i : Nat} {d e : Database σ ω κ}

omit [DecidableEq κ] in
@[simp] theorem alone_query (f : σ → α) :
    (query write i f : Session σ ω κ ε α).alone .done d = (some (.ok (f (d.view write i))), d) := rfl

omit [DecidableEq κ] in
@[simp] theorem alone_change (w : ω) : (change i w : Session σ ω κ ε Unit).alone .done d = (some (.ok ()), d.write i w) := rfl

/-- A session that meets no other and no failure gets the lock. -/
theorem alone_acquire {row : κ} {insert : σ → Option ω} {read : σ → α} (free : d.free i row) :
    ∃ e, (acquire write i row insert read : Session σ ω κ ε α).alone .done d = (some (.ok (read (e.view write i))), e) ∧
      e.committed = d.committed ∧
      e.view write i = (insert (d.view write i)).elim (d.view write i) fun w => write w (d.view write i) := by
  have locked : (d.lock i row).view write i = d.view write i := by simp [Database.view, Database.lock, replay, Entry.apply]
  have able : (d.free i row : Bool) = true := free
  refine ⟨match insert ((d.lock i row).view write i) with
    | none => d.lock i row
    | some w => (d.lock i row).write i w, ?_, ?_, ?_⟩
  · simp only [acquire, statement, Coroutine.when, Coroutine.alone, able, if_true]
  · split
    · rfl
    · rfl
  · rw [locked]
    cases insert (d.view write i) with
    | none => exact locked
    | some w =>
      rw [Option.elim_some, ← locked]
      simp [Database.view, Database.write, replay, Entry.apply]

/-- A transaction that meets no failure commits what its body returns with, and what raises is rolled back. -/
theorem alone_transaction {body : Session σ ω κ ε α} {result : Except ε α}
    (ends : body.alone .done d = (some result, e)) (same : e.committed = d.committed) :
    ∃ f, (transaction write i body).alone .done d = (some result, f) ∧ f.journal i = [] ∧
      f.committed = if result.isOk then e.view write i else d.committed := by
  unfold transaction
  rw [Coroutine.alone_andThen, ends]
  cases result with
  | ok a => exact ⟨e.commit write i, rfl, by simp [Database.commit, Database.keep], rfl⟩
  | error error => exact ⟨e.keep i 0, rfl, by simp [Database.keep], same⟩

end Alone

end Session

variable {schema : Schema σ ω κ} {discipline : Discipline schema} {i : Nat} {d e : Database σ ω κ}

variable (discipline) in
/-- What session `i` may go on relying on whatever the others do. -/
def Stays (i : Nat) (knows : Database σ ω κ → Prop) : Prop :=
  ∀ d e, Sees discipline i d e → Kept discipline e → knows d → knows e

variable (discipline) in
/-- What remains true of the tables a session sees, whatever is committed beside it. -/
def Enduring (fact : σ → Prop) : Prop := ∀ s t u, fact s → discipline.good t → schema.Furthest discipline.grows s t u → fact u

variable (discipline) in
/-- What remains true when the tables grow. -/
def Lasting (fact : σ → Prop) : Prop := ∀ s t, Grown discipline s t → fact s → fact t

variable (schema) in
/-- The fact held for what session `i` saw when it started the savepoint. -/
def Marked (i mark : Nat) (fact : σ → Prop) (d : Database σ ω κ) : Prop :=
  mark ≤ (d.journal i).length ∧ fact (replay schema.write d.committed ((d.journal i).take mark))

variable (schema) in
/-- Session `i` has locked the row, and this is known of what it sees there. -/
def Holds (i : Nat) (row : κ) (known : schema.Part row → Prop) (d : Database σ ω κ) : Prop :=
  row ∈ locks (d.journal i) ∧ known (schema.part row (d.view schema.write i))

theorem Lasting.true : Lasting discipline fun _ => True := fun _ _ _ _ => trivial

theorem Lasting.and {first second : σ → Prop} (one : Lasting discipline first) (two : Lasting discipline second) :
    Lasting discipline fun s => first s ∧ second s := fun s t grown both => ⟨one s t grown both.1, two s t grown both.2⟩

theorem Lasting.forall {ι : Sort*} {fact : ι → σ → Prop} (each : ∀ x, Lasting discipline (fact x)) :
    Lasting discipline fun s => ∀ x, fact x s := fun s t grown all x => each x s t grown (all x)

theorem Stays.and {first second : Database σ ω κ → Prop} (one : Stays discipline i first) (two : Stays discipline i second) :
    Stays discipline i fun d => first d ∧ second d :=
  fun d e sees kept both => ⟨one d e sees kept both.1, two d e sees kept both.2⟩

theorem Stays.const (fact : Prop) : Stays discipline i fun (_ : Database σ ω κ) => fact := fun _ _ _ _ known => known

theorem Enduring.good : Enduring discipline discipline.good := fun _ _ _ good committed furthest =>
  discipline.merge good committed furthest

theorem Enduring.and {first second : σ → Prop} (one : Enduring discipline first) (two : Enduring discipline second) :
    Enduring discipline fun s => first s ∧ second s :=
  fun s t u both good furthest => ⟨one s t u both.1 good furthest, two s t u both.2 good furthest⟩

theorem Lasting.enduring {fact : σ → Prop} (lasting : Lasting discipline fact) : Enduring discipline fact := by
  intro s t u known _ furthest
  refine lasting s u (fun row => ?_) known
  rcases furthest row with ⟨same, -⟩ | ⟨-, further⟩
  · rw [same]
    exact discipline.refl
  · exact further

theorem Enduring.stays {fact : σ → Prop} (enduring : Enduring discipline fact) :
    Stays discipline i fun d => fact (d.view schema.write i) :=
  fun _ _ sees kept known => enduring _ _ _ known kept.good (sees.view_furthest kept)

theorem Lasting.stays_committed {fact : σ → Prop} (lasting : Lasting discipline fact) :
    Stays discipline i fun d => fact d.committed :=
  fun _ _ sees _ => lasting _ _ sees.grown

theorem Enduring.stays_marked {fact : σ → Prop} (enduring : Enduring discipline fact) (mark : Nat) :
    Stays discipline i (Marked schema i mark fact) := by
  intro d e sees kept known
  refine ⟨?_, enduring _ _ _ known.2 kept.good (sees.furthest kept mark)⟩
  rw [sees.journal]
  exact known.1

theorem Holds.stays (row : κ) (known : schema.Part row → Prop) : Stays discipline i (Holds schema i row known) := by
  intro d e sees _ holds
  refine ⟨?_, ?_⟩
  · rw [sees.journal]
    exact holds.1
  · rw [sees.view_locked holds.1]
    exact holds.2

theorem Holds.mono {row : κ} {known weaker : schema.Part row → Prop} (holds : Holds schema i row known d)
    (implies : ∀ part, known part → weaker part) : Holds schema i row weaker d :=
  ⟨holds.1, implies _ holds.2⟩

/-- A fact that lasts holds after the savepoint if it held at it. -/
theorem Marked.view {fact : σ → Prop} {mark : Nat} (marked : Marked schema i mark fact d) (lasting : Lasting discipline fact)
    (kept : Kept discipline d) : fact (d.view schema.write i) :=
  lasting _ _ ((kept.growing i).whole mark) marked.2

theorem Marked.start {fact : σ → Prop} (known : fact (d.view schema.write i)) :
    Marked schema i (d.journal i).length fact d := by
  refine ⟨Nat.le_refl _, ?_⟩
  rw [List.take_length]
  exact known

theorem Marked.of_append {fact : σ → Prop} {mark : Nat} {later : List (Entry ω κ)} (marked : Marked schema i mark fact d)
    (journal : e.journal i = d.journal i ++ later) (same : e.committed = d.committed) : Marked schema i mark fact e := by
  obtain ⟨inside, known⟩ := marked
  refine ⟨?_, ?_⟩
  · rw [journal, List.length_append]
    omega
  · rw [journal, List.take_append_of_le_length inside, same]
    exact known

theorem Marked.write {fact : σ → Prop} {mark : Nat} (marked : Marked schema i mark fact d) (w : ω) :
    Marked schema i mark fact (d.write i w) :=
  marked.of_append (journal_write w) rfl

theorem Holds.write_other {row : κ} {known : schema.Part row → Prop} (holds : Holds schema i row known d) {w : ω}
    (untouched : ¬schema.touches w row) : Holds schema i row known (d.write i w) := by
  refine ⟨?_, ?_⟩
  · rw [journal_write, locks_append]
    exact List.mem_append_left _ holds.1
  · rw [view_write, schema.untouched untouched]
    exact holds.2

section Locking
variable [DecidableEq κ]

theorem Marked.lock {fact : σ → Prop} {mark : Nat} (marked : Marked schema i mark fact d) (row : κ) :
    Marked schema i mark fact (d.lock i row) :=
  marked.of_append (journal_lock row) rfl

theorem Marked.keep {fact : σ → Prop} {mark : Nat} (marked : Marked schema i mark fact d) :
    fact ((d.keep i mark).view schema.write i) := by
  unfold Database.view
  rw [journal_keep]
  exact marked.2

theorem Holds.lock_other {row : κ} {known : schema.Part row → Prop} (holds : Holds schema i row known d) (other : κ) :
    Holds schema i row known (d.lock i other) := by
  refine ⟨?_, ?_⟩
  · rw [journal_lock, locks_append]
    exact List.mem_append_left _ holds.1
  · rw [view_lock]
    exact holds.2

theorem mem_locks_lock (row : κ) : row ∈ locks ((d.lock i row).journal i) := by
  rw [journal_lock, locks_append]
  simp

end Locking

variable (discipline) in
/-- What a session sees is good, and the fact holds of it. -/
def Knows (i : Nat) (fact : σ → Prop) (d : Database σ ω κ) : Prop :=
  discipline.good (d.view schema.write i) ∧ fact (d.view schema.write i)

theorem Knows.stays {fact : σ → Prop} (lasting : Lasting discipline fact) : Stays discipline i (Knows discipline i fact) :=
  (Enduring.good.and lasting.enduring).stays

variable (discipline) in
/-- What session `i` goes on knowing while it locks rows and writes to some of them. -/
structure Beside [DecidableEq κ] (i : Nat) (rows : κ → Prop) (knows : Database σ ω κ → Prop) : Prop where
  stays : Stays discipline i knows
  lock : ∀ d other, knows d → knows (d.lock i other)
  write : ∀ d w, (∀ other, schema.touches w other → rows other) → knows d → knows (d.write i w)

section Beside
variable [DecidableEq κ] {rows fewer : κ → Prop}

theorem Beside.and {first second : Database σ ω κ → Prop} (one : Beside discipline i rows first)
    (two : Beside discipline i rows second) : Beside discipline i rows fun d => first d ∧ second d where
  stays := one.stays.and two.stays
  lock := fun d other both => ⟨one.lock d other both.1, two.lock d other both.2⟩
  write := fun d w only both => ⟨one.write d w only both.1, two.write d w only both.2⟩

theorem Beside.mono {knows : Database σ ω κ → Prop} (beside : Beside discipline i rows knows) (sub : ∀ row, fewer row → rows row) :
    Beside discipline i fewer knows where
  stays := beside.stays
  lock := beside.lock
  write := fun d w only => beside.write d w fun other touches => sub other (only other touches)

theorem Enduring.beside_marked {fact : σ → Prop} (enduring : Enduring discipline fact) (mark : Nat) :
    Beside discipline i rows (Marked schema i mark fact) where
  stays := enduring.stays_marked mark
  lock := fun _ other marked => marked.lock other
  write := fun _ w _ marked => marked.write w

theorem Holds.beside {other : κ} (distinct : ¬rows other) (known : schema.Part other → Prop) :
    Beside discipline i rows (Holds schema i other known) where
  stays := Holds.stays other known
  lock := fun _ third holds => holds.lock_other third
  write := fun _ _ only holds => holds.write_other fun touches => distinct (only other touches)

end Beside

/-- How a call ends: with an answer of which something is known, or with an error. -/
def Ends (after : α → Database σ ω κ → Prop) : Except ε α → Database σ ω κ → Prop
  | .ok a, d => after a d
  | .error _, _ => True

theorem Ends.stays {after : α → Database σ ω κ → Prop} (stays : ∀ a, Stays discipline i (after a)) (result : Except ε α) :
    Stays discipline i (Ends after result) := by
  cases result with
  | ok a => exact stays a
  | error error => exact fun _ _ _ _ _ => trivial

variable {before : Database σ ω κ → Prop} {after : α → Database σ ω κ → Prop} {able : Database σ ω κ → Bool}
  {f : Database σ ω κ → α × Database σ ω κ}

/-- A statement that keeps the database and disturbs no one who holds a lock. -/
theorem safe_statement (stays : Stays discipline i before) (staysAfter : ∀ a, Stays discipline i (after a))
    (keeps : ∀ d, Kept discipline d → before d → able d →
      Kept discipline (f d).2 ∧ (∀ j, j ≠ i → Sees discipline j d (f d).2) ∧ after (f d).1 (f d).2) (now : before d) :
    (protocol discipline).Safe i (Ends after) (Session.statement able f : Session σ ω κ ε α) d := by
  refine Protocol.Safe.when (fun t u sees kept => stays t u sees kept)
    (fun result t u sees kept => Ends.stays staysAfter result t u sees kept) (fun outcome t kept known enabled _ => ?_) now
  cases outcome with
  | done => exact keeps t kept known enabled
  | failed error => exact ⟨kept, fun _ _ => Sees.refl, trivial⟩
  | lost error => exact ⟨(keeps t kept known enabled).1, (keeps t kept known enabled).2.1, trivial⟩

theorem safe_query {f : σ → α} (stays : Stays discipline i before) (staysAfter : ∀ a, Stays discipline i (after a))
    (answers : ∀ d, Kept discipline d → before d → after (f (d.view schema.write i)) d) (now : before d) :
    (protocol discipline).Safe i (Ends after) (Session.query schema.write i f : Session σ ω κ ε α) d :=
  safe_statement stays staysAfter (fun d kept known _ => ⟨kept, fun _ _ => Sees.refl, answers d kept known⟩) now

theorem safe_change {w : ω} {after : Database σ ω κ → Prop} (stays : Stays discipline i before) (staysAfter : Stays discipline i after)
    (changes : ∀ d, Kept discipline d → before d →
      (∀ row, schema.touches w row → row ∈ locks (d.journal i)) ∧
      Grown discipline (d.view schema.write i) (schema.write w (d.view schema.write i)) ∧ after (d.write i w)) (now : before d) :
    (protocol discipline).Safe i (Ends fun _ => after) (Session.change i w : Session σ ω κ ε Unit) d := by
  refine safe_statement stays (fun _ => staysAfter) (fun d kept known _ => ?_) now
  obtain ⟨locked, grown, established⟩ := changes d kept known
  exact ⟨kept.write locked grown, fun _ other => sees_write other w, established⟩

theorem safe_savepoint {fact : σ → Prop} (enduring : Enduring discipline fact) (known : fact (d.view schema.write i)) :
    (protocol discipline).Safe i (Ends fun mark d => Marked schema i mark fact d ∧ fact (d.view schema.write i))
      (Session.savepoint i : Session σ ω κ ε Nat) d :=
  safe_statement enduring.stays (fun mark => (enduring.stays_marked mark).and enduring.stays)
    (fun _ kept known _ => ⟨kept, fun _ _ => Sees.refl, Marked.start known, known⟩) known

section Locking
variable [DecidableEq κ]

theorem safe_acquire {row : κ} {insert : σ → Option ω} {read : σ → α} (stays : Stays discipline i before)
    (staysAfter : ∀ a, Stays discipline i (after a))
    (present : ∀ d, Kept discipline d → before d → insert (d.view schema.write i) = none →
      after (read (d.view schema.write i)) (d.lock i row))
    (absent : ∀ d w, Kept discipline d → before d → insert (d.view schema.write i) = some w →
      (∀ other, schema.touches w other → other = row) ∧
      Grown discipline (d.view schema.write i) (schema.write w (d.view schema.write i)) ∧
      after (read (schema.write w (d.view schema.write i))) ((d.lock i row).write i w)) (now : before d) :
    (protocol discipline).Safe i (Ends after) (Session.acquire schema.write i row insert read : Session σ ω κ ε α) d := by
  refine safe_statement stays staysAfter (fun d kept known free => ?_) now
  have locked := kept.lock free
  have seen : ∀ j, j ≠ i → Sees discipline j d (d.lock i row) := fun j other => sees_lock other row
  dsimp only
  rw [view_lock]
  cases found : insert (d.view schema.write i) with
  | none =>
    refine ⟨locked, seen, ?_⟩
    dsimp only
    rw [view_lock]
    exact present d kept known found
  | some w =>
    obtain ⟨touched, grown, established⟩ := absent d w kept known found
    dsimp only
    rw [view_write, view_lock]
    refine ⟨locked.write (fun other touches => ?_) ?_, fun j other => (seen j other).trans (sees_write other w), established⟩
    · rw [touched other touches]
      exact mem_locks_lock row
    · rwa [view_lock]

theorem safe_selectForUpdate {row : κ} {read : σ → Option α} {after : Option α → Database σ ω κ → Prop}
    (stays : Stays discipline i before) (staysAfter : ∀ a, Stays discipline i (after a))
    (absent : ∀ d, Kept discipline d → before d → read (d.view schema.write i) = none → after none d)
    (present : ∀ d a, Kept discipline d → before d → read (d.view schema.write i) = some a → after (some a) (d.lock i row))
    (now : before d) :
    (protocol discipline).Safe i (Ends after) (Session.selectForUpdate schema.write i row read : Session σ ω κ ε (Option α)) d := by
  refine safe_statement stays staysAfter (fun d kept known able => ?_) now
  cases found : read (d.view schema.write i) with
  | none => exact ⟨kept, fun _ _ => Sees.refl, absent d kept known found⟩
  | some a =>
    rw [found] at able
    exact ⟨kept.lock able, fun _ other => sees_lock other row, present d a kept known found⟩

theorem safe_writeWhere {row : κ} {change : σ → Option ω} {after : Bool → Database σ ω κ → Prop}
    (stays : Stays discipline i before) (staysAfter : ∀ a, Stays discipline i (after a))
    (present : ∀ d, Kept discipline d → before d → change (d.view schema.write i) = none → after false d)
    (absent : ∀ d w, Kept discipline d → before d → change (d.view schema.write i) = some w →
      (∀ other, schema.touches w other → other = row) ∧
      Grown discipline (d.view schema.write i) (schema.write w (d.view schema.write i)) ∧
      after true ((d.lock i row).write i w)) (now : before d) :
    (protocol discipline).Safe i (Ends after) (Session.writeWhere schema.write i row change : Session σ ω κ ε Bool) d := by
  refine safe_statement stays staysAfter (fun d kept known able => ?_) now
  cases found : change (d.view schema.write i) with
  | none => exact ⟨kept, fun _ _ => Sees.refl, present d kept known found⟩
  | some w =>
    rw [found] at able
    obtain ⟨touched, grown, established⟩ := absent d w kept known found
    refine ⟨(kept.lock able).write (fun other touches => ?_) ?_,
      fun j other => (sees_lock other row).trans (sees_write other w), established⟩
    · rw [touched other touches]
      exact mem_locks_lock row
    · rwa [view_lock]

theorem safe_rollback {before after : Database σ ω κ → Prop} (mark : Nat) (stays : Stays discipline i before) (staysAfter : Stays discipline i after)
    (reached : ∀ d, Kept discipline d → before d → after (d.keep i mark)) (now : before d) :
    (protocol discipline).Safe i (fun _ => after) (Session.rollback i mark : Session σ ω κ ε Unit) d :=
  Protocol.Safe.when (fun t u sees kept => stays t u sees kept) (fun _ t u sees kept => staysAfter t u sees kept)
    (fun _ t kept known _ _ => ⟨kept.keep i mark, fun _ other => sees_keep other mark, reached t kept known⟩) now

/-- After an error the call is over once it is rolled back. -/
theorem safe_abort {post : Except ε α → Database σ ω κ → Prop} (mark : Nat) (error : ε)
    (stays : Stays discipline i (post (.error error))) (reached : ∀ d, Kept discipline d → post (.error error) (d.keep i mark)) :
    (protocol discipline).Safe i post ((Session.rollback i mark : Session σ ω κ ε Unit).andThen fun _ => .done (.error error)) d := by
  intro t _ kept _ _ _
  exact ⟨kept.keep i mark, fun _ other => sees_keep other mark,
    fun u sees keptThen => stays _ _ sees keptThen (reached t kept)⟩

/-- A body that is rolled back to where it started when it fails. -/
theorem safe_nested {fact : σ → Prop} {body : Nat → Session σ ω κ ε α} (kept : Kept discipline d)
    (enduring : Enduring discipline fact) (known : fact (d.view schema.write i))
    (inside : ∀ mark d, Kept discipline d → Marked schema i mark fact d → fact (d.view schema.write i) →
      (protocol discipline).Safe i (Ends after) (body mark) d) :
    (protocol discipline).Safe i (Ends after) (Session.nested i body) d := by
  refine Protocol.Safe.bind (safe_savepoint enduring known) kept (fun mark d keptThen marked => ?_) fun _ _ _ _ => trivial
  refine Protocol.Safe.andThen (inside mark d keptThen marked.1 marked.2) keptThen fun result e keptLater ended => ?_
  cases result with
  | ok a => exact Protocol.Safe.done fun t sees keptLast => ended t sees keptLast
  | error error => exact safe_abort mark error (Stays.const True) fun _ _ => trivial

/-- The session has no transaction open. -/
def Idle (i : Nat) (d : Database σ ω κ) : Prop := d.journal i = []

omit [DecidableEq κ] in
theorem Idle.stays : Stays discipline i (Idle i) := fun _ _ sees _ idle => sees.journal.trans idle

theorem idle_keep : Idle i (d.keep i 0) := journal_keep 0

/-- What a transaction leaves behind: an idle session, and its answer if the commit was confirmed. -/
def Closed (i : Nat) (fact : α → σ → Prop) (result : Except ε α) (d : Database σ ω κ) : Prop :=
  Idle i d ∧ Ends (fun a d => fact a d.committed) result d

omit [DecidableEq κ] in
theorem Closed.stays {fact : α → σ → Prop} (lasting : ∀ a, Lasting discipline (fact a)) (result : Except ε α) :
    Stays discipline i (Closed i fact result) :=
  Idle.stays.and (Ends.stays (fun a => (lasting a).stays_committed) result)

/-- What a session saw at the end of a body is committed, if the commit is confirmed. -/
theorem safe_transaction {fact : α → σ → Prop} {body : Session σ ω κ ε α} (kept : Kept discipline d)
    (lasting : ∀ a, Lasting discipline (fact a))
    (inside : (protocol discipline).Safe i (Ends fun a => Knows discipline i (fact a)) body d) :
    (protocol discipline).Safe i (Closed i fact) (Session.transaction schema.write i body) d := by
  have abort : ∀ (error : ε) e, (protocol discipline).Safe i (Closed i fact)
      ((Session.rollback i 0 : Session σ ω κ ε Unit).andThen fun _ => .done (.error error)) e :=
    fun error _ => safe_abort 0 error (Closed.stays lasting _) fun _ _ => ⟨idle_keep, trivial⟩
  refine Protocol.Safe.andThen inside kept fun result e keptThen ended => ?_
  cases result with
  | error error => exact abort error e
  | ok a =>
    have commits : (protocol discipline).Safe i (Ends fun (_ : Unit) d => Idle i d ∧ fact a d.committed)
        (Session.statement (fun _ => true) fun d => ((), d.commit schema.write i) : Session σ ω κ ε Unit) e :=
      safe_statement (Knows.stays (lasting a)) (fun _ => Idle.stays.and (lasting a).stays_committed)
        (fun d kept known _ => ⟨kept.commit known.1, fun _ other => kept.sees_commit other, idle_keep, known.2⟩)
        (ended e Sees.refl keptThen)
    refine Protocol.Safe.andThen commits keptThen fun confirmed u keptLater endedLater => ?_
    cases confirmed with
    | ok _ => exact Protocol.Safe.done fun t sees keptLast => endedLater t sees keptLast
    | error error => exact abort error u

omit [DecidableEq κ] in
theorem safe_pure {a : α} (stays : Stays discipline i (after a)) (known : after a d) :
    (protocol discipline).Safe i (Ends after) (pure a : Session σ ω κ ε α) d :=
  Protocol.Safe.done fun t sees kept => stays d t sees kept known

variable (discipline) in
/-- A call keeps what session `i` sees good and establishes a fact of it, and whatever lasts is
kept beside. -/
def Establishes (i : Nat) (fact : α → σ → Prop) (call : Session σ ω κ ε α) : Prop :=
  ∀ ⦃frame : σ → Prop⦄, Lasting discipline frame → ∀ d, Kept discipline d → Knows discipline i frame d →
    (protocol discipline).Safe i (Ends fun a d => Knows discipline i frame d ∧ fact a (d.view schema.write i)) call d

omit [DecidableEq κ] in
/-- Calls that each establish a lasting fact establish all of them. -/
theorem safe_each {operation : β → Session σ ω κ ε α} {calls : List β} {fact : α → σ → Prop}
    (lasting : ∀ a, Lasting discipline (fact a)) (each : ∀ call ∈ calls, Establishes discipline i fact (operation call)) :
    Establishes discipline i (fun answers s => ∀ a ∈ answers, fact a s) (Session.each operation calls) := by
  have lastingAll : ∀ answers : List α, Lasting discipline fun s => ∀ a ∈ answers, fact a s :=
    fun answers => Lasting.forall fun a s t grown known member => lasting a s t grown (known member)
  induction calls with
  | nil =>
    intro frame lastingFrame d _ known
    exact safe_pure ((Knows.stays lastingFrame).and (lastingAll []).enduring.stays) ⟨known, fun a member => by cases member⟩
  | cons call rest ih =>
    intro frame lastingFrame d kept known
    refine Protocol.Safe.bind (each call (List.mem_cons_self ..) lastingFrame d kept known) kept (fun a e keptThen first => ?_)
      fun _ _ _ _ => trivial
    have others := ih (fun other member => each other (List.mem_cons_of_mem _ member)) (lastingFrame.and (lasting a)) e keptThen
      ⟨first.1.1, first.1.2, first.2⟩
    refine Protocol.Safe.bind others keptThen (fun later u _ all => ?_) fun _ _ _ _ => trivial
    refine safe_pure ((Knows.stays lastingFrame).and (lastingAll (a :: later)).enduring.stays)
      ⟨⟨all.1.1, all.1.2.1⟩, fun b member => ?_⟩
    rcases List.mem_cons.mp member with rfl | further
    · exact all.1.2.2
    · exact all.2 b further

end Locking

/-- What lasts of the committed tables holds through every call. -/
theorem safe_frame {frame : σ → Prop} (lasting : Lasting discipline frame) {post : Except ε α → Database σ ω κ → Prop}
    {task : Session σ ω κ ε α} (safe : (protocol discipline).Safe i post task d) (kept : Kept discipline d) (known : frame d.committed) :
    (protocol discipline).Safe i (fun result d => post result d ∧ frame d.committed) task d := by
  induction task generalizing d with
  | done result => exact fun t sees keptThen => ⟨safe t sees keptThen, lasting _ _ (Sees.grown sees) known⟩
  | await operation enabled next resume ih =>
    intro t sees keptThen outcome may permitted
    obtain ⟨keptAfter, done, rest⟩ := safe t sees keptThen outcome may permitted
    have grown : Grown discipline t.committed (next outcome t).committed := (done (i + 1) (Nat.succ_ne_self i)).grown
    exact ⟨keptAfter, done, ih outcome t rest keptAfter (lasting _ _ grown (lasting _ _ (Sees.grown sees) known))⟩

variable [DecidableEq κ]

/-- The answers of all confirmed transactions are true of what is committed from then on. -/
theorem safe_transactions {operation : β → Session σ ω κ ε α} {script : List (List β)} {fact : α → σ → Prop}
    (lasting : ∀ a, Lasting discipline (fact a)) (kept : Kept discipline d) (idle : Idle i d)
    (each : ∀ calls ∈ script, ∀ call ∈ calls, Establishes discipline i fact (operation call)) :
    (protocol discipline).Safe i (Ends fun answers d => ∀ a ∈ answers, fact a d.committed)
      (Session.transactions schema.write i operation script) d := by
  have lastingAll : ∀ answers : List α, Lasting discipline fun s => ∀ a ∈ answers, fact a s :=
    fun answers => Lasting.forall fun a s t grown known member => lasting a s t grown (known member)
  induction script generalizing d with
  | nil => exact safe_pure (lastingAll []).stays_committed fun a member => by cases member
  | cons calls rest ih =>
    have good : discipline.good (d.view schema.write i) := by
      unfold Database.view
      rw [idle]
      exact kept.good
    have body := safe_each lasting (each calls (List.mem_cons_self ..)) Lasting.true d kept ⟨good, trivial⟩
    have first : (protocol discipline).Safe i (Closed i fun answers s => ∀ a ∈ answers, fact a s)
        (Session.transaction schema.write i (Session.each operation calls)) d := safe_transaction kept lastingAll
      (body.mono fun result e keptThen ended => by
        cases result with
        | ok answers => exact ⟨(ended e Sees.refl keptThen).1.1, (ended e Sees.refl keptThen).2⟩
        | error error => trivial)
    refine Protocol.Safe.andThen first kept fun result e keptThen ended => ?_
    obtain ⟨idleThen, answered⟩ := ended e Sees.refl keptThen
    have later := ih keptThen idleThen fun calls member => each calls (List.mem_cons_of_mem _ member)
    cases result with
    | error error => exact later
    | ok answers =>
      refine Protocol.Safe.andThen (safe_frame (lastingAll answers) later keptThen answered) keptThen fun result u _ all => ?_
      cases result with
      | error error => exact Protocol.Safe.done fun _ _ _ => trivial
      | ok more =>
        refine Protocol.Safe.done fun t sees keptLast a member => ?_
        obtain ⟨atRest, before⟩ := all t sees keptLast
        rcases List.mem_append.mp member with early | late
        · exact before a early
        · exact atRest a late

omit [DecidableEq κ] in
/-- A call with another name for what it answers. -/
theorem Establishes.map {fact : α → σ → Prop} {fact' : β → σ → Prop} {call : Session σ ω κ ε α} {answer : α → β}
    (establishes : Establishes discipline i fact call) (lasting : ∀ a, Lasting discipline (fact' (answer a)))
    (same : ∀ a s, fact a s → fact' (answer a) s) : Establishes discipline i fact' (answer <$> call) := by
  intro frame lastingFrame d kept known
  refine Protocol.Safe.bind (establishes lastingFrame d kept known) kept (fun a e _ after => ?_) fun _ _ _ _ => trivial
  exact safe_pure ((Knows.stays lastingFrame).and (lasting a).enduring.stays) ⟨after.1, same a _ after.2⟩

/-- Sessions over one database, each of which ends with a list of answers. -/
abbrev Sessions (σ ω κ ε α : Type) : Type := EventLoop (Database σ ω κ) (Outcome ε) Unit ε (List α)

namespace Sessions

/-- Each session runs its transactions one after the other. A task ends with the answers of the
transactions whose commit was confirmed. -/
def start (write : ω → σ → σ) (s : σ) (operation : Nat → β → Session σ ω κ ε α) (script : Nat → List (List β)) :
    Sessions σ ω κ ε α :=
  ⟨.start s, fun i => Session.transactions write i (operation i) (script i)⟩

/-- Any session executes its next statement, whatever becomes of that. -/
abbrev Step : Sessions σ ω κ ε α → Sessions σ ω κ ε α → Prop := EventLoop.Step (fun _ _ => False) fun _ _ => True

variable {fact : α → σ → Prop} {operation : Nat → β → Session σ ω κ ε α} {script : Nat → List (List β)} {tables : σ}
  {s t : Sessions σ ω κ ε α}

theorem start_safe (good : discipline.good tables) (lasting : ∀ a, Lasting discipline (fact a))
    (each : ∀ i, ∀ calls ∈ script i, ∀ call ∈ calls, Establishes discipline i fact (operation i call)) :
    Protocol.AllSafe (protocol discipline) (fun _ => Ends fun answers d => ∀ a ∈ answers, fact a d.committed)
      (start schema.write tables operation script) := by
  have kept : Kept discipline (.start tables) := Kept.start good
  exact ⟨kept, fun i => safe_transactions lasting kept rfl (each i)⟩

/-- Where each call establishes a lasting fact of what it answers, what is committed is good and only
grows, and every confirmed answer stays true of it. -/
theorem run_safe (good : discipline.good tables) (lasting : ∀ a, Lasting discipline (fact a))
    (each : ∀ i, ∀ calls ∈ script i, ∀ call ∈ calls, Establishes discipline i fact (operation i call))
    (reached : Relation.ReflTransGen Step (start schema.write tables operation script) s) (later : Relation.ReflTransGen Step s t) :
    discipline.good s.shared.committed ∧ Grown discipline s.shared.committed t.shared.committed ∧
      ∀ i answers, (s.task i).result? = some (.ok answers) → ∀ a ∈ answers, fact a t.shared.committed := by
  have safe := (start_safe good lasting each).run reached
  have grown : Grown discipline s.shared.committed t.shared.committed :=
    safe.related (R := fun d e => Grown discipline d.committed e.committed) (fun _ => Grown.refl) Grown.trans
      (fun i _ _ done => (done (i + 1) (Nat.succ_ne_self i)).grown) (fun _ _ (impossible : False) => impossible.elim) later
  refine ⟨safe.1.good, grown, fun i answers ended a member => ?_⟩
  exact lasting a _ _ grown (safe.ended ended a member)

end Sessions

end RowLocks
