import Mathlib.Data.List.Induction
import Pytitect.Lib.Coroutine

/-- Tables `σ`, the writes `ω` that statements make to them, and the rows `κ` that transactions
lock. A row guards a part of the tables: a write that does not touch the row leaves the part as
it is, and what a write makes of the part depends on nothing else. -/
structure Schema (σ ω κ : Type) where
  Part : κ → Type
  part : ∀ row, σ → Part row
  write : ω → σ → σ
  touches : ω → κ → Prop
  untouched : ∀ {w row}, ¬touches w row → ∀ s, part row (write w s) = part row s
  confined : ∀ {w row s t}, part row s = part row t → part row (write w s) = part row (write w t)

/-- The tables take each part from the further one of two others. -/
def Schema.Furthest {σ ω κ : Type} (schema : Schema σ ω κ) (grows : ∀ row, schema.Part row → schema.Part row → Prop) (s t u : σ) :
    Prop :=
  ∀ row, schema.part row u = schema.part row s ∧ grows row (schema.part row t) (schema.part row u) ∨
    schema.part row u = schema.part row t ∧ grows row (schema.part row s) (schema.part row u)

/-- How the tables of a schema may change: each part only grows, and what takes every part from
the further one of two good tables is good. -/
structure Discipline {σ ω κ : Type} (schema : Schema σ ω κ) where
  grows : ∀ row, schema.Part row → schema.Part row → Prop
  refl : ∀ {row part}, grows row part part
  trans : ∀ {row first second third}, grows row first second → grows row second third → grows row first third
  good : σ → Prop
  merge : ∀ {s t u}, good s → good t → schema.Furthest grows s t u → good u

namespace RowLocks
variable {σ ω κ ε α : Type}

/-- What an open transaction has done. -/
inductive Entry (ω κ : Type)
  | locked (row : κ)
  | wrote (write : ω)

namespace Entry

def row? : Entry ω κ → Option κ
  | .locked row => some row
  | .wrote _ => none

def apply (write : ω → σ → σ) : Entry ω κ → σ → σ
  | .locked _, s => s
  | .wrote w, s => write w s

end Entry

def locks (journal : List (Entry ω κ)) : List κ := journal.filterMap Entry.row?

/-- Make the writes of a journal to the tables. -/
def replay (write : ω → σ → σ) (s : σ) (journal : List (Entry ω κ)) : σ :=
  journal.foldl (fun s entry => entry.apply write s) s

/-- A database whose statements see what is committed and what their own session has written.
Each session has one transaction at a time, and a locked row has one holder. -/
structure Database (σ ω κ : Type) where
  committed : σ
  journal : Nat → List (Entry ω κ)
  holder : κ → Option Nat

namespace Database

def start (s : σ) : Database σ ω κ := ⟨s, fun _ => [], fun _ => none⟩

/-- What session `i` sees. -/
def view (write : ω → σ → σ) (d : Database σ ω κ) (i : Nat) : σ := replay write d.committed (d.journal i)

def write (d : Database σ ω κ) (i : Nat) (w : ω) : Database σ ω κ :=
  { d with journal := Function.update d.journal i (d.journal i ++ [.wrote w]) }

variable [DecidableEq κ]

/-- No other session holds the row. -/
def free (d : Database σ ω κ) (i : Nat) (row : κ) : Bool := (d.holder row).all (· = i)

def lock (d : Database σ ω κ) (i : Nat) (row : κ) : Database σ ω κ :=
  { d with
    journal := Function.update d.journal i (d.journal i ++ [.locked row])
    holder := Function.update d.holder row (some i) }

def lockAll (d : Database σ ω κ) (i : Nat) (rows : List κ) : Database σ ω κ := rows.foldl (·.lock i ·) d

/-- Give up all but the first entries of a journal, and the rows that were locked since. -/
def keep (d : Database σ ω κ) (i n : Nat) : Database σ ω κ :=
  { d with
    journal := Function.update d.journal i ((d.journal i).take n)
    holder := fun row => if d.holder row = some i ∧ row ∉ locks ((d.journal i).take n) then none else d.holder row }

def commit (write : ω → σ → σ) (d : Database σ ω κ) (i : Nat) : Database σ ω κ :=
  { d.keep i 0 with committed := d.view write i }

end Database

section Journals
variable {schema : Schema σ ω κ} {journal : List (Entry ω κ)} {s t : σ} {row : κ} {n : Nat}

@[simp] theorem locks_locked (row : κ) : locks [(.locked row : Entry ω κ)] = [row] := rfl

@[simp] theorem locks_wrote (w : ω) : locks [(.wrote w : Entry ω κ)] = [] := rfl

theorem locks_append (first second : List (Entry ω κ)) : locks (first ++ second) = locks first ++ locks second :=
  List.filterMap_append

theorem locks_take_subset (n : Nat) : locks (journal.take n) ⊆ locks journal :=
  ((List.take_sublist n journal).filterMap _).subset

theorem replay_append (write : ω → σ → σ) (s : σ) (first second : List (Entry ω κ)) :
    replay write s (first ++ second) = replay write (replay write s first) second :=
  List.foldl_append

/-- Whatever is done to a part depends on that part alone. -/
theorem part_replay_congr (same : schema.part row s = schema.part row t) :
    schema.part row (replay schema.write s journal) = schema.part row (replay schema.write t journal) := by
  induction journal generalizing s t with
  | nil => exact same
  | cons entry rest ih =>
    refine ih ?_
    cases entry with
    | locked _ => exact same
    | wrote w => exact schema.confined same

variable (schema) in
/-- Every write comes after the locks of the rows it touches. -/
def Guarded (journal : List (Entry ω κ)) : Prop :=
  ∀ before w after, journal = before ++ .wrote w :: after → ∀ row, schema.touches w row → row ∈ locks before

theorem Guarded.nil : Guarded schema [] := fun before w after split => by simp at split

theorem Guarded.of_append {first second : List (Entry ω κ)} (guarded : Guarded schema (first ++ second)) :
    Guarded schema first := fun before w after split => by
  refine guarded before w (after ++ second) ?_
  rw [split, List.append_assoc, List.cons_append]

theorem Guarded.take (guarded : Guarded schema journal) (n : Nat) : Guarded schema (journal.take n) := by
  rw [← List.take_append_drop n journal] at guarded
  exact guarded.of_append

theorem Guarded.append_locked (guarded : Guarded schema journal) (row : κ) : Guarded schema (journal ++ [.locked row]) := by
  intro before w after split
  rcases List.append_eq_append_iff.mp split with ⟨middle, -, last⟩ | ⟨middle, rfl, last⟩
  · cases middle with
    | nil => cases last
    | cons entry rest => simp at last
  · cases middle with
    | nil => cases last
    | cons entry rest =>
      obtain ⟨rfl, -⟩ := List.cons.inj last
      exact guarded before w rest rfl

theorem Guarded.append_wrote (guarded : Guarded schema journal) {w : ω}
    (locked : ∀ row, schema.touches w row → row ∈ locks journal) : Guarded schema (journal ++ [.wrote w]) := by
  intro before other after split
  rcases List.append_eq_append_iff.mp split with ⟨middle, same, last⟩ | ⟨middle, rfl, last⟩
  · cases middle with
    | nil =>
      rw [List.append_nil] at same
      obtain ⟨written, -⟩ := List.cons.inj last
      cases written
      rw [same]
      exact locked
    | cons entry rest => simp at last
  · cases middle with
    | nil =>
      obtain ⟨written, -⟩ := List.cons.inj last
      cases written
      intro row touched
      simpa using locked row touched
    | cons entry rest =>
      obtain ⟨rfl, -⟩ := List.cons.inj last
      exact guarded before other rest rfl

/-- A part whose row is not locked is as it was committed. -/
theorem part_replay_unlocked (guarded : Guarded schema journal) (unlocked : row ∉ locks journal) (s : σ) :
    schema.part row (replay schema.write s journal) = schema.part row s := by
  induction journal using List.reverseRecOn with
  | nil => rfl
  | append_singleton front entry ih =>
    rw [locks_append, List.mem_append, not_or] at unlocked
    rw [replay_append, ← ih guarded.of_append unlocked.1]
    cases entry with
    | locked _ => rfl
    | wrote w => exact schema.untouched (fun touched => unlocked.1 (guarded front w [] rfl row touched)) _

end Journals

section Discipline
variable {schema : Schema σ ω κ} (discipline : Discipline schema) {journal : List (Entry ω κ)} {s t u : σ} {row : κ}

/-- Every part has grown, or is what it was. -/
def Grown (s t : σ) : Prop := ∀ row, discipline.grows row (schema.part row s) (schema.part row t)

variable {discipline}

theorem Grown.refl : Grown discipline s s := fun _ => discipline.refl

theorem Grown.trans (first : Grown discipline s t) (second : Grown discipline t u) : Grown discipline s u :=
  fun row => discipline.trans (first row) (second row)

variable (discipline) in
/-- From one entry of the journal to the next the tables have only grown. -/
def Growing (s : σ) (journal : List (Entry ω κ)) : Prop :=
  ∀ m n, m ≤ n → Grown discipline (replay schema.write s (journal.take m)) (replay schema.write s (journal.take n))

theorem Growing.nil : Growing discipline s [] := fun m n _ => by
  rw [List.take_nil, List.take_nil]
  exact Grown.refl

theorem Growing.whole (growing : Growing discipline s journal) (n : Nat) :
    Grown discipline (replay schema.write s (journal.take n)) (replay schema.write s journal) := by
  rcases Nat.le_total n journal.length with inside | outside
  · have grown := growing n journal.length inside
    rwa [List.take_length] at grown
  · rw [List.take_of_length_le outside]
    exact Grown.refl

theorem Growing.take (growing : Growing discipline s journal) (n : Nat) : Growing discipline s (journal.take n) := by
  intro l m order
  rw [List.take_take, List.take_take]
  exact growing _ _ (by omega)

theorem Growing.append (growing : Growing discipline s journal) {entry : Entry ω κ}
    (grown : Grown discipline (replay schema.write s journal) (entry.apply schema.write (replay schema.write s journal))) :
    Growing discipline s (journal ++ [entry]) := by
  have before : ∀ n, n ≤ journal.length → (journal ++ [entry]).take n = journal.take n :=
    fun n inside => List.take_append_of_le_length inside
  have behind : ∀ n, ¬n ≤ journal.length → (journal ++ [entry]).take n = journal ++ [entry] := fun n outside =>
    List.take_of_length_le (by rw [List.length_append, List.length_singleton]; omega)
  intro m n order
  by_cases inside : n ≤ journal.length
  · rw [before n inside, before m (by omega)]
    exact growing m n order
  · rw [behind n inside]
    by_cases first : m ≤ journal.length
    · rw [before m first, replay_append]
      exact (growing.whole m).trans grown
    · rw [behind m first]
      exact Grown.refl

/-- A journal goes on growing when others commit, as long as they leave the parts alone whose rows
it has locked. -/
theorem Growing.transfer (growing : Growing discipline s journal) (guarded : Guarded schema journal)
    (kept : ∀ row ∈ locks journal, schema.part row t = schema.part row s) : Growing discipline t journal := by
  intro m n order row
  by_cases held : row ∈ locks journal
  · rw [part_replay_congr (kept row held), part_replay_congr (kept row held)]
    exact growing m n order row
  · rw [part_replay_unlocked (guarded.take m) (fun taken => held (locks_take_subset m taken)),
      part_replay_unlocked (guarded.take n) (fun taken => held (locks_take_subset n taken))]
    exact discipline.refl

variable (discipline) in
/-- What holds of the database whatever its sessions do. -/
structure Kept (d : Database σ ω κ) : Prop where
  holders : ∀ row i, d.holder row = some i ↔ row ∈ locks (d.journal i)
  guarded : ∀ i, Guarded schema (d.journal i)
  good : discipline.good d.committed
  growing : ∀ i, Growing discipline d.committed (d.journal i)

variable (discipline) in
/-- What session `i` may see of the others: they commit, but no row it has locked. -/
structure Sees (i : Nat) (d e : Database σ ω κ) : Prop where
  journal : e.journal i = d.journal i
  locked : ∀ row ∈ locks (d.journal i), schema.part row e.committed = schema.part row d.committed
  grown : Grown discipline d.committed e.committed

theorem Sees.refl {i : Nat} {d : Database σ ω κ} : Sees discipline i d d := ⟨rfl, fun _ _ => rfl, Grown.refl⟩

theorem Sees.trans {i : Nat} {d e f : Database σ ω κ} (first : Sees discipline i d e) (second : Sees discipline i e f) :
    Sees discipline i d f where
  journal := second.journal.trans first.journal
  locked := fun row held => (second.locked row (by rwa [first.journal])).trans (first.locked row held)
  grown := first.grown.trans second.grown

variable (discipline) in
/-- All sessions keep the database and disturb no one who holds a lock. -/
def protocol : Protocol (Database σ ω κ) Unit where
  permits := fun _ _ => True
  inv := Kept discipline
  does := fun i d e => ∀ j, j ≠ i → Sees discipline j d e
  sees := Sees discipline
  outside := fun _ _ => False
  refl := Sees.refl
  trans := Sees.trans
  seen := fun other done => done _ (Ne.symm other)
  seenOutside := fun _ impossible => impossible.elim
  keptOutside := fun _ impossible => impossible.elim

theorem Kept.start (good : discipline.good s) : Kept discipline (.start s) where
  holders := fun row i => by simp [Database.start, locks]
  guarded := fun _ => Guarded.nil
  good := good
  growing := fun _ => Growing.nil

variable {d e : Database σ ω κ} {i : Nat}

theorem Kept.view_grown (kept : Kept discipline d) (i : Nat) : Grown discipline d.committed (d.view schema.write i) :=
  (kept.growing i).whole 0

/-- What a session sees of a row it has locked is changed by no other. -/
theorem Sees.view_locked (sees : Sees discipline i d e) {row : κ} (held : row ∈ locks (d.journal i)) :
    schema.part row (e.view schema.write i) = schema.part row (d.view schema.write i) := by
  unfold Database.view
  rw [sees.journal]
  exact part_replay_congr (sees.locked row held)

/-- What a session sees after its first `n` steps: of the rows it has locked what it saw before,
of the others what is committed by now. -/
theorem Sees.furthest (sees : Sees discipline i d e) (kept : Kept discipline e) (n : Nat) :
    schema.Furthest discipline.grows (replay schema.write d.committed ((d.journal i).take n)) e.committed
      (replay schema.write e.committed ((e.journal i).take n)) := by
  intro row
  have guarded := (kept.guarded i).take n
  have grown : Grown discipline e.committed (replay schema.write e.committed ((e.journal i).take n)) :=
    kept.growing i 0 n (Nat.zero_le _)
  rw [sees.journal] at guarded grown ⊢
  by_cases locked : row ∈ locks ((d.journal i).take n)
  · exact Or.inl ⟨part_replay_congr (sees.locked row (locks_take_subset n locked)), grown row⟩
  · refine Or.inr ⟨part_replay_unlocked guarded locked _, ?_⟩
    rw [part_replay_unlocked guarded locked, part_replay_unlocked guarded locked]
    exact sees.grown row

theorem Sees.view_furthest (sees : Sees discipline i d e) (kept : Kept discipline e) :
    schema.Furthest discipline.grows (d.view schema.write i) e.committed (e.view schema.write i) := by
  have whole := sees.furthest kept (d.journal i).length
  rw [sees.journal, List.take_length] at whole
  unfold Database.view
  rwa [sees.journal]

@[simp] theorem journal_write (w : ω) : (d.write i w).journal i = d.journal i ++ [.wrote w] := by
  simp [Database.write]

@[simp] theorem view_write (w : ω) : (d.write i w).view schema.write i = schema.write w (d.view schema.write i) := by
  unfold Database.view
  rw [journal_write, replay_append]
  rfl

theorem sees_write {j : Nat} (other : j ≠ i) (w : ω) : Sees discipline j d (d.write i w) where
  journal := by simp [Database.write, other]
  locked := fun _ _ => rfl
  grown := Grown.refl

/-- A write to rows that the session has locked. -/
theorem Kept.write (kept : Kept discipline d) {w : ω} (locked : ∀ row, schema.touches w row → row ∈ locks (d.journal i))
    (grown : Grown discipline (d.view schema.write i) (schema.write w (d.view schema.write i))) :
    Kept discipline (d.write i w) := by
  have journals : ∀ j, (d.write i w).journal j = if j = i then d.journal i ++ [.wrote w] else d.journal j :=
    fun j => Function.update_apply ..
  refine ⟨fun row j => ?_, fun j => ?_, kept.good, fun j => ?_⟩
  · rw [journals]
    split
    · rename_i same
      subst same
      rw [locks_append, locks_wrote, List.append_nil]
      exact kept.holders row j
    · exact kept.holders row j
  · rw [journals]
    split
    · exact (kept.guarded i).append_wrote locked
    · exact kept.guarded j
  · rw [journals]
    split
    · exact (kept.growing i).append grown
    · exact kept.growing j

variable [DecidableEq κ]

@[simp] theorem journal_lock (row : κ) : (d.lock i row).journal i = d.journal i ++ [.locked row] := by
  simp [Database.lock]

@[simp] theorem view_lock (row : κ) : (d.lock i row).view schema.write i = d.view schema.write i := by
  unfold Database.view
  rw [journal_lock, replay_append]
  rfl

theorem sees_lock {j : Nat} (other : j ≠ i) (row : κ) : Sees discipline j d (d.lock i row) where
  journal := by simp [Database.lock, other]
  locked := fun _ _ => rfl
  grown := Grown.refl

theorem Kept.lock (kept : Kept discipline d) {row : κ} (free : d.free i row) : Kept discipline (d.lock i row) := by
  have journals : ∀ j, (d.lock i row).journal j = if j = i then d.journal i ++ [.locked row] else d.journal j :=
    fun j => Function.update_apply ..
  refine ⟨fun other j => ?_, fun j => ?_, kept.good, fun j => ?_⟩
  · have holder : (d.lock i row).holder other = if other = row then some i else d.holder other := Function.update_apply ..
    rw [holder, journals]
    by_cases same : other = row
    · subst same
      rw [if_pos rfl]
      split
      · rename_i mine
        subst mine
        simp [locks_append]
      · rename_i others
        have unheld : d.holder other ≠ some j := by
          intro held
          rw [Database.free, held] at free
          exact others (by simpa using free)
        simpa [Ne.symm others] using fun held => unheld ((kept.holders other j).mpr held)
    · rw [if_neg same, kept.holders]
      split
      · rename_i mine
        subst mine
        simp [locks_append, same]
      · rfl
  · rw [journals]
    split
    · exact (kept.guarded i).append_locked row
    · exact kept.guarded j
  · rw [journals]
    split
    · exact (kept.growing i).append Grown.refl
    · exact kept.growing j

theorem free_lock {row other : κ} (free : d.free i other) : (d.lock i row).free i other := by
  unfold Database.free at free ⊢
  by_cases same : other = row
  · simp [Database.lock, same]
  · simpa [Database.lock, same] using free

section LockAll
variable {rows : List κ}

@[simp] theorem journal_lockAll : (d.lockAll i rows).journal i = d.journal i ++ rows.map .locked := by
  unfold Database.lockAll
  induction rows generalizing d with
  | nil => simp
  | cons row rest ih => simp [ih]

@[simp] theorem committed_lockAll : (d.lockAll i rows).committed = d.committed := by
  unfold Database.lockAll
  induction rows generalizing d with
  | nil => rfl
  | cons row rest ih => exact ih

@[simp] theorem view_lockAll : (d.lockAll i rows).view schema.write i = d.view schema.write i := by
  unfold Database.lockAll
  induction rows generalizing d with
  | nil => rfl
  | cons row rest ih => exact ih.trans (view_lock row)

theorem sees_lockAll {j : Nat} (other : j ≠ i) : Sees discipline j d (d.lockAll i rows) := by
  unfold Database.lockAll
  induction rows generalizing d with
  | nil => exact Sees.refl
  | cons row rest ih => exact (sees_lock other row).trans ih

theorem Kept.lockAll (kept : Kept discipline d) (free : ∀ row ∈ rows, d.free i row) : Kept discipline (d.lockAll i rows) := by
  unfold Database.lockAll
  induction rows generalizing d with
  | nil => exact kept
  | cons row rest ih =>
    exact ih (kept.lock (free row (List.mem_cons_self ..))) fun other member => free_lock (free other (List.mem_cons_of_mem _ member))

theorem mem_locks_lockAll {row : κ} (member : row ∈ rows) : row ∈ locks ((d.lockAll i rows).journal i) := by
  rw [journal_lockAll, locks_append]
  refine List.mem_append_right _ ?_
  unfold locks
  rw [List.filterMap_map]
  exact List.mem_filterMap.mpr ⟨row, member, rfl⟩

end LockAll

@[simp] theorem journal_keep (n : Nat) : (d.keep i n).journal i = (d.journal i).take n := by
  simp [Database.keep]

theorem sees_keep {j : Nat} (other : j ≠ i) (n : Nat) : Sees discipline j d (d.keep i n) where
  journal := by simp [Database.keep, other]
  locked := fun _ _ => rfl
  grown := Grown.refl

theorem Kept.holders_keep (kept : Kept discipline d) (i n : Nat) (row : κ) (j : Nat) :
    (d.keep i n).holder row = some j ↔ row ∈ locks ((d.keep i n).journal j) := by
  have journals : (d.keep i n).journal j = if j = i then (d.journal i).take n else d.journal j := Function.update_apply ..
  rw [journals]
  change (if d.holder row = some i ∧ row ∉ locks ((d.journal i).take n) then none else d.holder row) = some j ↔ _
  by_cases mine : j = i
  · subst mine
    rw [if_pos rfl]
    split
    · rename_i given
      simp [given.2]
    · rename_i retained
      rw [kept.holders]
      constructor
      · intro held
        by_contra lost
        exact retained ⟨(kept.holders row j).mpr held, lost⟩
      · exact fun held => locks_take_subset n held
  · rw [if_neg mine, ← kept.holders]
    split
    · rename_i given
      rw [given.1]
      simp [Ne.symm mine]
    · rfl

theorem Kept.keep (kept : Kept discipline d) (i n : Nat) : Kept discipline (d.keep i n) := by
  have journals : ∀ j, (d.keep i n).journal j = if j = i then (d.journal i).take n else d.journal j :=
    fun j => Function.update_apply ..
  refine ⟨kept.holders_keep i n, fun j => ?_, kept.good, fun j => ?_⟩
  · rw [journals]
    split
    · exact (kept.guarded i).take n
    · exact kept.guarded j
  · rw [journals]
    split
    · exact (kept.growing i).take n
    · exact kept.growing j

omit [DecidableEq κ] in
/-- A row that one session has locked has been locked by no other. -/
theorem Kept.exclusive (kept : Kept discipline d) {row : κ} {j : Nat} (mine : row ∈ locks (d.journal i))
    (other : row ∈ locks (d.journal j)) : j = i := by
  have first := (kept.holders row i).mpr mine
  have second := (kept.holders row j).mpr other
  exact Option.some.inj (second.symm.trans first)

theorem Kept.sees_commit (kept : Kept discipline d) {j : Nat} (other : j ≠ i) :
    Sees discipline j d (d.commit schema.write i) where
  journal := by simp [Database.commit, Database.keep, other]
  locked := fun row held =>
    part_replay_unlocked (kept.guarded i) (fun mine => other (kept.exclusive mine held)) _
  grown := kept.view_grown i

theorem Kept.commit (kept : Kept discipline d) (good : discipline.good (d.view schema.write i)) :
    Kept discipline (d.commit schema.write i) := by
  have journals : ∀ j, (d.commit schema.write i).journal j = if j = i then (d.journal i).take 0 else d.journal j :=
    fun j => Function.update_apply ..
  refine ⟨fun row j => kept.holders_keep i 0 row j, fun j => ?_, good, fun j => ?_⟩
  · rw [journals]
    split
    · exact Guarded.nil
    · exact kept.guarded j
  · rw [journals]
    split
    · exact Growing.nil
    · rename_i other
      exact (kept.growing j).transfer (kept.guarded j) (kept.sees_commit other).locked

end Discipline

end RowLocks
