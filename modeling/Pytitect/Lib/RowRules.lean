import Pytitect.Lib.Sessions

namespace RowLocks
variable {σ ω κ ε α β : Type} [DecidableEq κ] {schema : Schema σ ω κ} {discipline : Discipline schema} {i : Nat} {d : Database σ ω κ}
  {row : κ} {K : Database σ ω κ → Prop} {before : σ → Prop}

/-- What a log holds stays where it is. -/
theorem found_longer {xs ys : List α} {index : Nat} {a : α} (longer : xs <+: ys) (found : xs[index]? = some a) :
    ys[index]? = some a := by
  obtain ⟨inside, same⟩ := List.getElem?_eq_some_iff.mp found
  rw [List.getElem?_eq_getElem (Nat.lt_of_lt_of_le inside longer.length_le), ← longer.getElem inside, same]

omit [DecidableEq κ] in
/-- Less may be said of how a call ends. -/
theorem safe_weaken {after weaker : α → Database σ ω κ → Prop} {call : Session σ ω κ ε α}
    (safe : (protocol discipline).Safe i (Ends after) call d) (implies : ∀ a d, after a d → weaker a d) :
    (protocol discipline).Safe i (Ends weaker) call d :=
  safe.mono fun result e kept ended => by
    cases result with
    | ok a => exact implies a e (ended e Sees.refl kept)
    | error _ => trivial

/-- A write that touches one row. -/
theorem grown_of_grows {w : ω} {s : σ} (only : ∀ other, schema.touches w other → other = row)
    (grows : discipline.grows row (schema.part row s) (schema.part row (schema.write w s))) :
    Grown discipline s (schema.write w s) := by
  intro other
  by_cases same : other = row
  · subst same
    exact grows
  · rw [schema.untouched (fun touches => same (only other touches))]
    exact discipline.refl

omit [DecidableEq κ] in
/-- What is known while other rows are written to stays known beside a query. -/
theorem safe_query_beside {f : σ → α} {fact : α → σ → Prop} (enduring : Enduring discipline before)
    (enduringFact : ∀ a, Enduring discipline (fact a)) (stays : Stays discipline i K) (answers : ∀ s, before s → fact (f s) s)
    (now : K d ∧ before (d.view schema.write i)) :
    (protocol discipline).Safe i
      (Ends fun a d => K d ∧ before (d.view schema.write i) ∧ fact a (d.view schema.write i))
      (Session.query schema.write i f : Session σ ω κ ε α) d :=
  safe_query (stays.and enduring.stays) (fun a => stays.and (enduring.stays.and (enduringFact a).stays))
    (fun _ _ known => ⟨known.1, known.2, answers _ known.2⟩) now

/-- A write to a row that the session has locked. -/
theorem safe_change_held {w : ω} {after : σ → Prop} {known known' : schema.Part row → Prop} (enduring : Enduring discipline before)
    (enduringAfter : Enduring discipline after) (beside : Beside discipline i (· = row) K)
    (only : ∀ other, schema.touches w other → other = row)
    (changes : ∀ s, before s → known (schema.part row s) →
      discipline.grows row (schema.part row s) (schema.part row (schema.write w s)) ∧ after (schema.write w s) ∧
        known' (schema.part row (schema.write w s)))
    (now : K d ∧ before (d.view schema.write i) ∧ Holds schema i row known d) :
    (protocol discipline).Safe i
      (Ends fun _ d => K d ∧ after (d.view schema.write i) ∧ Holds schema i row known' d)
      (Session.change i w : Session σ ω κ ε Unit) d := by
  refine safe_change (beside.stays.and (enduring.stays.and (Holds.stays _ _)))
    (beside.stays.and (enduringAfter.stays.and (Holds.stays _ _))) (fun d _ all => ?_) now
  obtain ⟨others, holds, locked, held⟩ := all
  obtain ⟨grows, afterwards, heldThen⟩ := changes _ holds held
  refine ⟨fun other touches => ?_, grown_of_grows only grows, beside.write d w only others, ?_, ?_, ?_⟩
  · rw [only other touches]
    exact locked
  · rw [view_write]
    exact afterwards
  · rw [journal_write, locks_append]
    exact List.mem_append_left _ locked
  · rw [view_write]
    exact heldThen

/-- A write where the session sees that there is something to write. It then holds the row. -/
theorem safe_write_beside {change : σ → Option ω} {after : Bool → σ → Prop} {known : schema.Part row → Prop}
    (enduring : Enduring discipline before) (enduringAfter : ∀ written, Enduring discipline (after written))
    (beside : Beside discipline i (· = row) K) (nothing : ∀ s, before s → change s = none → after false s)
    (changes : ∀ s w, before s → change s = some w → (∀ other, schema.touches w other → other = row) ∧
      discipline.grows row (schema.part row s) (schema.part row (schema.write w s)) ∧ after true (schema.write w s) ∧
      known (schema.part row (schema.write w s)))
    (now : K d ∧ before (d.view schema.write i)) :
    (protocol discipline).Safe i
      (Ends fun written d => K d ∧ after written (d.view schema.write i) ∧ (written = true → Holds schema i row known d))
      (Session.writeWhere schema.write i row change : Session σ ω κ ε Bool) d := by
  refine safe_writeWhere (beside.stays.and enduring.stays)
    (fun written => beside.stays.and ((enduringAfter written).stays.and ?_)) ?_ ?_ now
  · exact fun d e sees kept holds same => Holds.stays row known d e sees kept (holds same)
  · exact fun d _ all found => ⟨all.1, nothing _ all.2 found, by simp⟩
  · intro d w _ all found
    obtain ⟨only, grows, afterwards, heldThen⟩ := changes _ w all.2 found
    refine ⟨only, grown_of_grows only grows, beside.write _ w only (beside.lock d row all.1), ?_, fun _ => ⟨?_, ?_⟩⟩
    · rw [view_write, view_lock]
      exact afterwards
    · rw [journal_write, locks_append]
      exact List.mem_append_left _ (mem_locks_lock row)
    · rw [view_write, view_lock]
      exact heldThen

/-- The same write to a row that the session has locked already. -/
theorem safe_write_held {change : σ → Option ω} {after : Bool → σ → Prop} {known : schema.Part row → Prop}
    {known' : Bool → schema.Part row → Prop} (enduring : Enduring discipline before)
    (enduringAfter : ∀ written, Enduring discipline (after written)) (beside : Beside discipline i (· = row) K)
    (nothing : ∀ s, before s → known (schema.part row s) → change s = none → after false s ∧ known' false (schema.part row s))
    (changes : ∀ s w, before s → known (schema.part row s) → change s = some w → (∀ other, schema.touches w other → other = row) ∧
      discipline.grows row (schema.part row s) (schema.part row (schema.write w s)) ∧ after true (schema.write w s) ∧
      known' true (schema.part row (schema.write w s)))
    (now : K d ∧ before (d.view schema.write i) ∧ Holds schema i row known d) :
    (protocol discipline).Safe i
      (Ends fun written d => K d ∧ after written (d.view schema.write i) ∧ Holds schema i row (known' written) d)
      (Session.writeWhere schema.write i row change : Session σ ω κ ε Bool) d := by
  refine safe_writeWhere (beside.stays.and (enduring.stays.and (Holds.stays _ _)))
    (fun written => beside.stays.and ((enduringAfter written).stays.and (Holds.stays _ _))) ?_ ?_ now
  · intro d _ all found
    obtain ⟨others, holds, locked, held⟩ := all
    obtain ⟨afterwards, heldThen⟩ := nothing _ holds held found
    exact ⟨others, afterwards, locked, heldThen⟩
  · intro d w _ all found
    obtain ⟨others, holds, locked, held⟩ := all
    obtain ⟨only, grows, afterwards, heldThen⟩ := changes _ w holds held found
    refine ⟨only, grown_of_grows only grows, beside.write _ w only (beside.lock d row others), ?_, ?_, ?_⟩
    · rw [view_write, view_lock]
      exact afterwards
    · rw [journal_write, locks_append]
      exact List.mem_append_left _ (mem_locks_lock row)
    · rw [view_write, view_lock]
      exact heldThen

/-- A row that was found is locked as it was found. -/
theorem safe_select_beside {read : σ → Option α} {known : α → schema.Part row → Prop} {rows : κ → Prop}
    (enduring : Enduring discipline before) (beside : Beside discipline i rows K) (finds : ∀ s a, before s → read s = some a → known a (schema.part row s))
    (now : K d ∧ before (d.view schema.write i)) :
    (protocol discipline).Safe i
      (Ends fun found d => K d ∧ before (d.view schema.write i) ∧ ∀ a, found = some a → Holds schema i row (known a) d)
      (Session.selectForUpdate schema.write i row read : Session σ ω κ ε (Option α)) d := by
  refine safe_selectForUpdate (beside.stays.and enduring.stays) (fun found => beside.stays.and (enduring.stays.and ?_)) ?_ ?_ now
  · exact fun d e sees kept holds a same => Holds.stays row (known a) d e sees kept (holds a same)
  · exact fun d _ all _ => ⟨all.1, all.2, fun a impossible => by cases impossible⟩
  · intro d a _ all found
    refine ⟨beside.lock d row all.1, ?_, fun b same => ⟨mem_locks_lock row, ?_⟩⟩
    · rw [view_lock]
      exact all.2
    · cases same
      rw [view_lock]
      exact finds _ a all.2 found

/-- What was known at an earlier savepoint is known of it after a rollback to a later one. -/
theorem Marked.keep_later {fact : σ → Prop} {mark later : Nat} (marked : Marked schema i mark fact d) (order : mark ≤ later) :
    Marked schema i mark fact (d.keep i later) := by
  obtain ⟨inside, known⟩ := marked
  refine ⟨?_, ?_⟩
  · rw [journal_keep, List.length_take]
    omega
  · rw [journal_keep, List.take_take, Nat.min_eq_left order]
    exact known

/-- A nested transaction, with what else is known when it starts. -/
theorem safe_nested_beside {fact : σ → Prop} {reached : Nat → Prop} {after : α → Database σ ω κ → Prop} {body : Nat → Session σ ω κ ε α}
    (kept : Kept discipline d) (enduring : Enduring discipline fact) (stays : Stays discipline i K)
    (starts : ∀ d, K d → reached (d.journal i).length) (now : K d ∧ fact (d.view schema.write i))
    (inside : ∀ mark d, Kept discipline d → reached mark → (K d ∧ Marked schema i mark fact d) ∧ fact (d.view schema.write i) →
      (protocol discipline).Safe i (Ends after) (body mark) d) :
    (protocol discipline).Safe i (Ends after) (Session.nested i body) d := by
  have marks : (protocol discipline).Safe i
      (Ends fun mark d => ((K d ∧ Marked schema i mark fact d) ∧ fact (d.view schema.write i)) ∧ reached mark)
      (Session.savepoint i : Session σ ω κ ε Nat) d :=
    safe_statement (stays.and enduring.stays)
      (fun mark => ((stays.and (enduring.stays_marked mark)).and enduring.stays).and (Stays.const _))
      (fun d kept known _ => ⟨kept, fun _ _ => Sees.refl, ⟨⟨known.1, Marked.start known.2⟩, known.2⟩, starts d known.1⟩) now
  refine Protocol.Safe.bind marks kept (fun mark d keptThen known => ?_) fun _ _ _ _ => trivial
  refine Protocol.Safe.andThen (inside mark d keptThen known.2 known.1) keptThen fun result e keptLater ended => ?_
  cases result with
  | ok a => exact Protocol.Safe.done fun t sees keptLast => ended t sees keptLast
  | error error => exact safe_abort mark error (Stays.const True) fun _ _ => trivial

omit [DecidableEq κ] in
/-- One call after the other, each of which keeps what is known. -/
theorem safe_each_keeps {knows : Database σ ω κ → Prop} {calls : List β} {body : β → Session σ ω κ ε α} (stays : Stays discipline i knows)
    (each : ∀ call ∈ calls, ∀ d, Kept discipline d → knows d → (protocol discipline).Safe i (Ends fun _ => knows) (body call) d)
    (kept : Kept discipline d) (now : knows d) :
    (protocol discipline).Safe i (Ends fun _ => knows) (Session.each body calls) d := by
  induction calls generalizing d with
  | nil => exact safe_pure stays now
  | cons call rest ih =>
    refine Protocol.Safe.bind (each call (List.mem_cons_self ..) d kept now) kept (fun _ d kept known => ?_) fun _ _ _ _ => trivial
    have later := ih (fun other member => each other (List.mem_cons_of_mem _ member)) kept known
    exact Protocol.Safe.bind later kept (fun _ _ _ known => safe_pure stays known) fun _ _ _ _ => trivial

section Several
variable {rowOf : α → κ} {known : (a : α) → schema.Part (rowOf a) → Prop}

variable (schema i known) in
/-- Session `i` has locked the rows of all entries. -/
def HoldsAll (entries : List α) (d : Database σ ω κ) : Prop := ∀ a ∈ entries, Holds schema i (rowOf a) (known a) d

omit [DecidableEq κ] in
theorem HoldsAll.stays (entries : List α) : Stays discipline i (HoldsAll schema i known entries) :=
  fun d e sees kept holds a member => Holds.stays (rowOf a) (known a) d e sees kept (holds a member)

theorem HoldsAll.beside {entries : List α} {rows : κ → Prop} (apart : ∀ a ∈ entries, ¬rows (rowOf a)) :
    Beside discipline i rows (HoldsAll schema i known entries) where
  stays := HoldsAll.stays entries
  lock := fun _ other holds a member => (holds a member).lock_other other
  write := fun _ _ only holds a member => (holds a member).write_other fun touches => apart a member (only _ touches)

/-- The rows that are locked stand as they were read. -/
theorem safe_selectSkipLocked {rows : σ → List α} {limit : Nat} (enduring : Enduring discipline before)
    (beside : Beside discipline i (fun _ => False) K)
    (reads : ∀ s, before s → ((rows s).map rowOf).Nodup ∧ ∀ a ∈ rows s, known a (schema.part (rowOf a) s))
    (now : K d ∧ before (d.view schema.write i)) :
    (protocol discipline).Safe i
      (Ends fun found d => K d ∧ before (d.view schema.write i) ∧ (found.map rowOf).Nodup ∧ HoldsAll schema i known found d)
      (Session.selectSkipLocked schema.write i rows rowOf limit : Session σ ω κ ε (List α)) d := by
  refine safe_statement (beside.stays.and enduring.stays)
    (fun found => beside.stays.and (enduring.stays.and ((Stays.const _).and (HoldsAll.stays found)))) (fun d kept all _ => ?_) now
  obtain ⟨distinct, finds⟩ := reads _ all.2
  have chosen : (((rows (d.view schema.write i)).filter fun entry => d.free i (rowOf entry)).take limit).Sublist
      (rows (d.view schema.write i)) := (List.take_sublist _ _).trans List.filter_sublist
  have free : ∀ row ∈ (((rows (d.view schema.write i)).filter fun entry => d.free i (rowOf entry)).take limit).map rowOf,
      d.free i row := by
    intro row member
    obtain ⟨a, inside, rfl⟩ := List.mem_map.mp member
    exact (List.mem_filter.mp (List.mem_of_mem_take inside)).2
  have keepsAll : ∀ (locked : List κ) (d : Database σ ω κ), K d → K (d.lockAll i locked) := by
    intro locked
    induction locked with
    | nil => exact fun _ holds => holds
    | cons row rest ih => exact fun d holds => ih _ (beside.lock d row holds)
  dsimp only
  refine ⟨kept.lockAll free, fun j other => sees_lockAll other, keepsAll _ d all.1, ?_, distinct.sublist (chosen.map rowOf), ?_⟩
  · rw [view_lockAll]
    exact all.2
  · intro a member
    refine ⟨mem_locks_lockAll (List.mem_map_of_mem member), ?_⟩
    rw [view_lockAll]
    exact finds a (chosen.subset member)

variable (known) in
/-- One call for each of several rows that the session has locked. -/
theorem safe_each_held {good frame : σ → Prop} {entries : List α} {body : α → Session σ ω κ ε β} {fact : β → σ → Prop}
    (enduring : Enduring discipline good) (lasting : ∀ b, Lasting discipline (fact b)) (lastingFrame : Lasting discipline frame)
    (distinct : (entries.map rowOf).Nodup) (beside : Beside discipline i (fun row => row ∈ entries.map rowOf) K)
    (kept : Kept discipline d)
    (each : ∀ a ∈ entries, ∀ {frame : σ → Prop} {K : Database σ ω κ → Prop} d, Lasting discipline frame →
      Beside discipline i (· = rowOf a) K → Kept discipline d →
      K d ∧ (good (d.view schema.write i) ∧ frame (d.view schema.write i)) ∧ Holds schema i (rowOf a) (known a) d →
      (protocol discipline).Safe i
        (Ends fun b d => K d ∧ (good (d.view schema.write i) ∧ frame (d.view schema.write i)) ∧ fact b (d.view schema.write i))
        (body a) d)
    (now : K d ∧ (good (d.view schema.write i) ∧ frame (d.view schema.write i)) ∧ HoldsAll schema i known entries d) :
    (protocol discipline).Safe i
      (Ends fun answers d => K d ∧ (good (d.view schema.write i) ∧ frame (d.view schema.write i)) ∧
        ∀ b ∈ answers, fact b (d.view schema.write i))
      (Session.each body entries) d := by
  have lastingAll : ∀ answers : List β, Lasting discipline fun s => ∀ b ∈ answers, fact b s :=
    fun answers => Lasting.forall fun b s t grown known member => lasting b s t grown (known member)
  have staysAfter : ∀ {frame : σ → Prop} {K : Database σ ω κ → Prop} (answers : List β), Lasting discipline frame → Stays discipline i K →
      Stays discipline i fun d => K d ∧ (good (d.view schema.write i) ∧ frame (d.view schema.write i)) ∧
        ∀ b ∈ answers, fact b (d.view schema.write i) := fun answers lastingFrame stays =>
    stays.and ((enduring.and lastingFrame.enduring).stays.and (lastingAll answers).enduring.stays)
  induction entries generalizing frame d with
  | nil => exact safe_pure (staysAfter [] lastingFrame beside.stays) ⟨now.1, now.2.1, fun b member => by cases member⟩
  | cons a rest ih =>
    obtain ⟨others, holds, locked⟩ := now
    obtain ⟨apart, distinctRest⟩ := List.nodup_cons.mp distinct
    have rests : Beside discipline i (· = rowOf a) (HoldsAll schema i known rest) :=
      HoldsAll.beside fun b member same => apart (same ▸ List.mem_map_of_mem member)
    have own : Beside discipline i (· = rowOf a) K := beside.mono fun row same => by
      rw [same]
      exact List.mem_cons_self ..
    have first := each a (List.mem_cons_self ..) d lastingFrame
      (own.and rests) kept
      ⟨⟨others, fun b member => locked b (List.mem_cons_of_mem _ member)⟩, holds, locked a (List.mem_cons_self ..)⟩
    refine Protocol.Safe.bind first kept (fun b d kept known => ?_) fun _ _ _ _ => trivial
    have later := ih (lastingFrame.and (lasting b)) distinctRest (beside.mono fun row member => List.mem_cons_of_mem _ member) kept
      (fun a member => each a (List.mem_cons_of_mem _ member)) ⟨known.1.1, ⟨known.2.1.1, known.2.1.2, known.2.2⟩, known.1.2⟩
    refine Protocol.Safe.bind later kept (fun answers d _ known => ?_) fun _ _ _ _ => trivial
    refine safe_pure (staysAfter (b :: answers) lastingFrame beside.stays) ⟨known.1, ⟨known.2.1.1, known.2.1.2.1⟩, fun c member => ?_⟩
    rcases List.mem_cons.mp member with rfl | further
    · exact known.2.1.2.2
    · exact known.2.2 c further

end Several

end RowLocks
