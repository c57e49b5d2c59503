import Pytitect.SqlAlchemy.Timers

namespace Pytitect.WorkflowTables
open RowLocks
variable {i : Nat} {d : Database WorkflowTables WorkflowWrite WorkflowRow} {frame origin : WorkflowTables → Prop}
  {K : Database WorkflowTables WorkflowWrite WorkflowRow → Prop} {except : Option Unsettled} {tables : WorkflowTables}
  {key : ProcessKey} {decision : ProcessDecision} {message : Option InboxIdentity} {outer : Nat}

/-- A write to a process that adds no decision. -/
theorem process_keeps {write : WorkflowWrite} (later : Option Unsettled) (own : write.row = .process key)
    (lasting : Lasting discipline frame) (open_ : Good except tables ∧ frame tables)
    (only : ∀ unsettled, except = some unsettled → later ≠ some unsettled → unsettled = .process key)
    (decisions : ((write.apply tables).process key).decisions = (tables.process key).decisions)
    (effects : (tables.process key).effects <+: ((write.apply tables).process key).effects)
    (consistent : later ≠ some (.process key) → ((write.apply tables).process key).Consistent) :
    ProcessPart.Grows (tables.process key) ((write.apply tables).process key) ∧ Good later (write.apply tables) ∧ frame (write.apply tables) := by
  have grows : ProcessPart.Grows (tables.process key) ((write.apply tables).process key) :=
    ⟨decisions ▸ List.prefix_refl _, effects⟩
  have part : Grows (.process key) (tables.part (.process key)) ((write.apply tables).part (.process key)) := grows
  refine ⟨grows, open_.1.of_process own decisions consistent only, ?_⟩
  rw [← own] at part
  exact frame_write lasting open_.2 part

/-- The row of a process that has none yet. -/
theorem createProcess_safe {at_ : Int} (lasting : Lasting discipline frame) (beside : Beside discipline i (· = .process key) K)
    (now : Amid i K none frame d) :
    (protocol discipline).Safe i (Ends fun _ => Amid i K none frame)
      (Session.writeWhere WorkflowWrite.apply i (.process key) fun tables =>
        if (tables.processes.get? key).isNone then some (.createProcess key (.new at_)) else none : WorkflowTask Bool) d := by
  have written : (protocol discipline).Safe i
      (Ends fun written d => K d ∧ (Good none (d.view WorkflowWrite.apply i) ∧ frame (d.view WorkflowWrite.apply i)) ∧
        (written = true → Holds schema i (.process key) (fun _ => True) d))
      (Session.writeWhere WorkflowWrite.apply i (.process key) fun tables =>
        if (tables.processes.get? key).isNone then some (.createProcess key (.new at_)) else none : WorkflowTask Bool) d := by
    refine safe_write_beside (enduring_open none lasting) (fun _ => enduring_open none lasting) beside (fun _ open_ _ => open_)
      (fun s w open_ found => ?_) now
    obtain ⟨new, same⟩ := Option.ite_none_right_eq_some.mp found
    cases same
    have absent : (s.process key).row = none := Option.isNone_iff_eq_none.mp new
    have write : (WorkflowWrite.createProcess key (.new at_)).row = .process key := rfl
    obtain ⟨grows, after⟩ := process_keeps none write lasting open_ (fun _ same other => absurd same other)
      (by
        rw [process_createProcess])
      (by
        rw [process_createProcess])
      (fun _ => by
        rw [process_createProcess]
        exact (open_.1.processes key (by simp)).create absent rfl)
    exact ⟨fun _ touches => touches.symm, grows, after, trivial⟩
  exact safe_weaken written fun _ _ known => ⟨known.1, known.2.1⟩

section Advance
variable {base : ProcessPart} {saved : List ProcessEffect}

/-- The effects of a decision are saved before the decision is. -/
theorem saveEffects_safe (effects : List ProcessEffect) (lasting : Lasting discipline frame)
    (beside : Beside discipline i (· = .process key) K) (kept : Kept discipline d)
    (now : Amid i K (some (.process key)) frame d ∧
      Holds schema i (.process key) (fun part => part = (⟨base.row, base.effects ++ saved, base.decisions⟩ : ProcessPart)) d) :
    (protocol discipline).Safe i
      (Ends fun _ d => Amid i K (some (.process key)) frame d ∧
        Holds schema i (.process key) (fun part => part = (⟨base.row, base.effects ++ (saved ++ effects), base.decisions⟩ : ProcessPart)) d)
      (Session.each (fun effect => Session.change i (.saveEffect key effect)) effects : WorkflowTask (List Unit)) d := by
  have stays : ∀ part : ProcessPart, Stays discipline i fun d =>
      Amid i K (some (.process key)) frame d ∧ Holds schema i (.process key) (fun other => other = part) d :=
    fun part => (Amid.stays lasting beside).and (Holds.stays _ _)
  induction effects generalizing saved d with
  | nil =>
    refine safe_pure (stays _) ?_
    rw [List.append_nil]
    exact now
  | cons effect rest ih =>
    have written : (protocol discipline).Safe i
        (Ends fun _ d => K d ∧ (Good (some (.process key)) (d.view WorkflowWrite.apply i) ∧ frame (d.view WorkflowWrite.apply i)) ∧
          Holds schema i (.process key) (fun part => part = (⟨base.row, base.effects ++ (saved ++ [effect]), base.decisions⟩ : ProcessPart)) d)
        (Session.change i (.saveEffect key effect) : WorkflowTask Unit) d := by
      refine safe_change_held (enduring_open _ lasting) (enduring_open _ lasting) beside (fun _ touches => touches.symm)
        (fun s open_ held => ?_) ⟨now.1.1, now.1.2, now.2⟩
      have same : s.process key = ⟨base.row, base.effects ++ saved, base.decisions⟩ := held
      have write : (WorkflowWrite.saveEffect key effect).row = .process key := rfl
      obtain ⟨grows, after⟩ := process_keeps (some (.process key)) write lasting open_ (fun _ same other => absurd same other)
        (by
          rw [process_saveEffect])
        (by
          rw [process_saveEffect]
          exact List.prefix_append _ _)
        (fun impossible => absurd rfl impossible)
      refine ⟨grows, after, ?_⟩
      change (WorkflowWrite.apply _ s).process key = _
      rw [process_saveEffect, same]
      dsimp only
      rw [List.append_assoc]
    refine Protocol.Safe.bind written kept (fun _ d kept known => ?_) fun _ _ _ _ => trivial
    have later := ih kept ⟨⟨known.1, known.2.1⟩, known.2.2⟩
    refine Protocol.Safe.bind later kept (fun _ d _ known => ?_) fun _ _ _ _ => trivial
    refine safe_pure (stays _) ?_
    rw [List.append_assoc] at known
    exact known

/-- How a decision ends in session `i`: it is applied, with its message still to be completed, or it is
refused and nothing was done since the call began. -/
def Decided (key : ProcessKey) (decision : ProcessDecision) (message : Option InboxIdentity) (i : Nat)
    (K refused : Database WorkflowTables WorkflowWrite WorkflowRow → Prop) (frame : WorkflowTables → Prop) :
    ProcessApplyResult → Database WorkflowTables WorkflowWrite WorkflowRow → Prop
  | .applied state _ _ _, d => Amid i K (message.map fun identity => .message identity key state.version) frame d ∧
    Applied key state ⟨decision, message⟩ (d.view WorkflowWrite.apply i)
  | .stale _ _, d => refused d ∧ Knows discipline i frame d

/-- The rows that a decision writes to. -/
def Concerns (key : ProcessKey) (row : WorkflowRow) : Prop := row = .process key ∨ ∃ timerId, row = .timer (key, timerId)

variable {row : ProcessRow} {at_ : Int} {refused : Database WorkflowTables WorkflowWrite WorkflowRow → Prop}

/-- The decision takes the next place, after its effects. -/
theorem saveDecision_safe (lasting : Lasting discipline frame) (beside : Beside discipline i (· = .process key) K)
    (isRow : base.row = some row) (consistent : base.Consistent)
    (now : Amid i K (some (.process key)) frame d ∧
      Holds schema i (.process key) (fun part => part = (⟨base.row, base.effects ++ decision.effects, base.decisions⟩ : ProcessPart)) d) :
    (protocol discipline).Safe i
      (Ends fun _ d => Amid i K (message.map fun identity => .message identity key (row.version + 1)) frame d ∧
        ∀ state : ProcessState, state.version = row.version + 1 → state.state = decision.state → state.status = decision.status →
          Applied key state ⟨decision, message⟩ (d.view WorkflowWrite.apply i))
      (Session.change i (.advance key (row.next decision at_) ⟨decision, message⟩) : WorkflowTask Unit) d := by
  have counted : row.version = base.decisions.length := by
    rw [← consistent.counted, isRow]
    rfl
  have lastingApplied : Lasting discipline fun tables => frame tables ∧
      ∀ state : ProcessState, state.version = row.version + 1 → state.state = decision.state → state.status = decision.status →
        Applied key state ⟨decision, message⟩ tables :=
    lasting.and (Lasting.forall fun state => Lasting.forall fun _ => Lasting.forall fun _ => Lasting.forall fun _ => lasting_applied key state _)
  have written : (protocol discipline).Safe i
      (Ends fun _ d => K d ∧ (Good (message.map fun identity => .message identity key (row.version + 1)) (d.view WorkflowWrite.apply i) ∧
          frame (d.view WorkflowWrite.apply i) ∧
          ∀ state : ProcessState, state.version = row.version + 1 → state.state = decision.state → state.status = decision.status →
            Applied key state ⟨decision, message⟩ (d.view WorkflowWrite.apply i)) ∧ Holds schema i (.process key) (fun _ => True) d)
      (Session.change i (.advance key (row.next decision at_) ⟨decision, message⟩) : WorkflowTask Unit) d := by
    refine safe_change_held (enduring_open _ lasting) (enduring_open _ lastingApplied) beside (fun _ touches => touches.symm)
      (fun s open_ held => ?_) ⟨now.1.1, now.1.2, now.2⟩
    have same : s.process key = ⟨base.row, base.effects ++ decision.effects, base.decisions⟩ := held
    have advanced : (WorkflowWrite.apply (.advance key (row.next decision at_) ⟨decision, message⟩) s).process key =
        ⟨some (row.next decision at_), base.effects ++ decision.effects, base.decisions ++ [⟨decision, message⟩]⟩ := by
      rw [process_advance, same]
    have grows : ProcessPart.Grows (s.process key)
        ((WorkflowWrite.apply (.advance key (row.next decision at_) ⟨decision, message⟩) s).process key) := by
      rw [advanced, same]
      exact ⟨List.prefix_append _ _, List.prefix_refl _⟩
    have version : (row.next decision at_).version = base.decisions.length + 1 := congrArg (· + 1) counted
    have settled : ProcessPart.Consistent
        ((WorkflowWrite.apply (.advance key (row.next decision at_) ⟨decision, message⟩) s).process key) := by
      rw [advanced]
      have shows : (row.next decision at_).state = (AppliedDecision.mk decision message).decision.state ∧
          (row.next decision at_).status = (AppliedDecision.mk decision message).decision.status := ⟨rfl, rfl⟩
      exact consistent.advance version shows
    have framed : frame (WorkflowWrite.apply (.advance key (row.next decision at_) ⟨decision, message⟩) s) := by
      refine frame_write lasting open_.2 ?_
      exact grows
    have good := open_.1.advance settled
    rw [same] at good
    dsimp only at good
    rw [← counted] at good
    refine ⟨grows, ⟨good, framed, fun state versions states statuses => ⟨?_, states, statuses⟩⟩, trivial⟩
    change ((WorkflowWrite.apply _ s).process key).decisions[_]? = _
    rw [advanced, versions, counted, Nat.add_sub_cancel]
    exact List.getElem?_concat_length
  exact safe_weaken written fun _ _ known => ⟨⟨known.1, known.2.1.1, known.2.1.2.1⟩, known.2.1.2.2⟩

theorem advance_safe (lasting : Lasting discipline frame) (beside : Beside discipline i (Concerns key) K) (kept : Kept discipline d)
    (now : Amid i K none frame d ∧ Holds schema i (.process key) (fun part => ProcessPart.row part = some row) d) :
    (protocol discipline).Safe i (Ends (Decided key decision message i K refused frame))
      (ProcessStatements.advance i key row decision message at_) d := by
  obtain ⟨base, same⟩ : ∃ base, base = (d.view WorkflowWrite.apply i).process key := ⟨_, rfl⟩
  have isRow : base.row = some row := same ▸ now.2.2
  have consistent : base.Consistent := same ▸ now.1.2.1.processes key (by simp)
  have own : Beside discipline i (· = .process key) K := beside.mono fun _ same => Or.inl same
  have timers : ∀ timerId, Beside discipline i (· = .timer (key, timerId)) fun d =>
      K d ∧ Holds schema i (.process key) (fun part => part = base) d :=
    fun timerId => (beside.mono fun _ same => Or.inr ⟨timerId, same⟩).and (Holds.beside (by simp) _)
  have stays : Stays discipline i
      (Amid i (fun d => K d ∧ Holds schema i (.process key) (fun part => part = base) d) none frame) :=
    Amid.stays lasting (timers "")
  have start : Amid i (fun d => K d ∧ Holds schema i (.process key) (fun part => part = base) d) none frame d :=
    ⟨⟨now.1.1, now.2.1, same.symm⟩, now.1.2⟩
  refine Protocol.Safe.bind (safe_each_keeps stays (fun timerId _ d _ known =>
    cancelTimer_safe (by simp) lasting (timers timerId) known) kept start) kept (fun cancelled d kept known => ?_) fun _ _ _ _ => trivial
  refine Protocol.Safe.bind (safe_each_keeps stays (fun timer _ d kept known =>
    scheduleTimer_safe (by simp) lasting (timers timer.timerId) kept known) kept known) kept (fun _ d kept known => ?_) fun _ _ _ _ => trivial
  have saves : (protocol discipline).Safe i
      (Ends fun _ d => Amid i K (some (.process key)) frame d ∧ Holds schema i (.process key)
        (fun part => part = (⟨base.row, base.effects ++ ([] ++ decision.effects), base.decisions⟩ : ProcessPart)) d)
      (Session.each (fun effect => Session.change i (.saveEffect key effect)) decision.effects : WorkflowTask (List Unit)) d := by
    refine saveEffects_safe decision.effects lasting own kept ⟨⟨known.1.1, known.2.1.weaken _, known.2.2⟩, ?_⟩
    rw [List.append_nil]
    exact known.1.2
  refine Protocol.Safe.bind saves kept (fun _ d kept known => ?_) fun _ _ _ _ => trivial
  refine Protocol.Safe.bind (saveDecision_safe lasting own isRow consistent known) kept (fun _ d _ known => ?_) fun _ _ _ _ => trivial
  exact safe_pure ((Amid.stays lasting own).and (lasting_applied key _ _).enduring.stays) ⟨known.1, known.2 _ rfl rfl rfl⟩

end Advance

/-- A call within an outer savepoint. What was known there is kept for a rollback. -/
theorem apply_safe {expectedVersion at_ : Int} (lasting : Lasting discipline frame) (enduringOrigin : Enduring discipline origin)
    (beside : Beside discipline i (Concerns key) K) (kept : Kept discipline d)
    (now : Amid i (fun d => K d ∧ Marked schema i outer origin d) none frame d) :
    (protocol discipline).Safe i
      (Ends (Decided key decision message i (fun d => K d ∧ Marked schema i outer origin d) (Marked schema i outer origin) frame))
      (ProcessStatements.apply i key expectedVersion decision message at_) d := by
  have enduring := enduring_open none lasting
  have both : Beside discipline i (Concerns key) fun d => K d ∧ Marked schema i outer origin d :=
    beside.and (enduringOrigin.beside_marked outer)
  unfold ProcessStatements.apply
  split
  · exact Protocol.Safe.done fun _ _ _ => trivial
  refine safe_nested_beside kept enduring both.stays (fun d known => known.2.1) now fun mark d kept order known => ?_
  obtain ⟨known, open_⟩ := known
  have all : Beside discipline i (Concerns key) fun d =>
      (K d ∧ Marked schema i outer origin d) ∧ Marked schema i mark (fun tables => Good none tables ∧ frame tables) d :=
    both.and (enduring.beside_marked mark)
  have own : Beside discipline i (· = .process key) fun d =>
      (K d ∧ Marked schema i outer origin d) ∧ Marked schema i mark (fun tables => Good none tables ∧ frame tables) d :=
    all.mono fun _ same => Or.inl same
  refine Protocol.Safe.bind (createProcess_safe lasting own ⟨known, open_⟩) kept (fun _ d kept known => ?_) fun _ _ _ _ => trivial
  have selected : (protocol discipline).Safe i
      (Ends fun found d => ((K d ∧ Marked schema i outer origin d) ∧ Marked schema i mark (fun tables => Good none tables ∧ frame tables) d) ∧
        (Good none (d.view WorkflowWrite.apply i) ∧ frame (d.view WorkflowWrite.apply i)) ∧
        ∀ row, found = some row → Holds schema i (.process key) (fun part => ProcessPart.row part = some row) d)
      (Session.selectForUpdate WorkflowWrite.apply i (.process key) fun tables => tables.processes.get? key : WorkflowTask _) d :=
    safe_select_beside enduring all (fun _ _ _ found => found) known
  refine Protocol.Safe.bind selected kept (fun found d kept known => ?_) fun _ _ _ _ => trivial
  obtain ⟨marks, open_, holds⟩ := known
  split
  · exact Protocol.Safe.done fun _ _ _ => trivial
  rename_i row
  split
  · have back : (protocol discipline).Safe i
        (fun _ d => Marked schema i outer origin d ∧ Knows discipline i frame d) (Session.rollback i mark : WorkflowTask Unit) d :=
      safe_rollback mark all.stays ((enduringOrigin.stays_marked outer).and (Knows.stays lasting))
        (fun _ _ marks => ⟨marks.1.2.keep_later order, marks.2.keep⟩) marks
    refine Protocol.Safe.bind back kept (fun _ d _ known => ?_) fun _ _ _ _ => trivial
    exact Protocol.Safe.done fun t sees keptThen => ((enduringOrigin.stays_marked outer).and (Knows.stays lasting)) _ t sees keptThen known
  · exact advance_safe lasting both kept ⟨⟨marks.1, open_⟩, holds row rfl⟩

/-- What `apply` has answered. -/
def Applies (key : ProcessKey) (decision : ProcessDecision) (message : Option InboxIdentity) (tables : WorkflowTables) :
    ProcessApplyResult → Prop
  | .applied state _ _ _ => Applied key state ⟨decision, message⟩ tables
  | .stale _ _ => True

theorem lasting_applies (result : ProcessApplyResult) : Lasting discipline fun tables => Applies key decision message tables result := by
  cases result with
  | applied state _ _ _ => exact lasting_applied key state _
  | stale _ _ => exact fun _ _ _ _ => trivial

theorem apply_establishes {expectedVersion at_ : Int} :
    Establishes discipline i (fun result tables => Applies key decision none tables result)
      (ProcessStatements.apply i key expectedVersion decision none at_) := by
  intro frame lasting d kept known
  have trivially : Beside discipline i (Concerns key) fun _ => True :=
    ⟨Stays.const True, fun _ _ _ => trivial, fun _ _ _ _ => trivial⟩
  have unmarked : Enduring discipline fun _ => True := fun _ _ _ _ _ _ => trivial
  have decided : (protocol discipline).Safe i (Ends (Decided key decision none i (fun d => True ∧ Marked schema i 0 (fun _ => True) d)
      (Marked schema i 0 fun _ => True) frame)) (ProcessStatements.apply i key expectedVersion decision none at_) d :=
    apply_safe lasting unmarked trivially kept ⟨⟨trivial, Nat.zero_le _, trivial⟩, known⟩
  exact safe_weaken decided fun result d ends => by
    cases result with
    | applied _ _ _ _ => exact ⟨ends.1.2, ends.2⟩
    | stale _ _ => exact ⟨ends.2, trivial⟩

section Messages
variable {identity : InboxIdentity} {token : String} {at_ ttl clock : Int}

/-- The message is reserved and not completed, so that it has led to no decision. -/
def Unhandled (part : MessagePart) : Prop := ∃ entry, part.entry = some entry ∧ entry.completedAt = none ∧ part.handled = none

/-- What session `i` knows of a message whose reservation was asked for. -/
def Reserved (identity : InboxIdentity) (i : Nat) : InboxDecision → Database WorkflowTables WorkflowWrite WorkflowRow → Prop
  | .accepted _, d => Holds schema i (.message identity) (fun part => Unhandled part) d
  | .duplicate completedAt, d => Completed identity completedAt (d.view WorkflowWrite.apply i)
  | .inProgress _, _ => True
  | .capacityExceeded _, _ => True

theorem Reserved.stays (reservation : InboxDecision) : Stays discipline i (Reserved identity i reservation) := by
  cases reservation with
  | accepted _ => exact Holds.stays _ _
  | duplicate completedAt => exact (lasting_completed identity completedAt).enduring.stays
  | inProgress _ => exact Stays.const True
  | capacityExceeded _ => exact Stays.const True

/-- A message is written that had not been completed. -/
theorem message_keeps {write : WorkflowWrite} (own : write.row = .message identity) (lasting : Lasting discipline frame)
    (open_ : Good except tables ∧ frame tables)
    (only : ∀ unsettled, except = some unsettled → ∃ name version, unsettled = .message identity name version)
    (unhandled : (tables.message identity).handled = none)
    (uncompleted : ∀ entry, (tables.message identity).entry = some entry → entry.completedAt = none)
    (consistent : ((write.apply tables).message identity).Consistent)
    (handled : ∀ name index applied, (tables.process name).decisions[index]? = some applied → applied.message = some identity →
      ((write.apply tables).message identity).handled = some (name, index + 1)) :
    MessagePart.Grows (tables.message identity) ((write.apply tables).message identity) ∧ Good none (write.apply tables) ∧
      frame (write.apply tables) := by
  have grows : MessagePart.Grows (tables.message identity) ((write.apply tables).message identity) := by
    refine ⟨fun place found => ?_, fun entry completedAt found completed => ?_⟩
    · rw [unhandled] at found
      cases found
    · rw [uncompleted entry found] at completed
      cases completed
  have part : Grows (.message identity) (tables.part (.message identity)) ((write.apply tables).part (.message identity)) := grows
  refine ⟨grows, open_.1.of_message own consistent (fun name index applied found isFor _ => handled name index applied found isFor)
    (fun unsettled same _ => only unsettled same), ?_⟩
  rw [← own] at part
  exact frame_write lasting open_.2 part

/-- A message that has not been completed has led to no decision. -/
theorem Good.unhandled (good : Good except tables)
    (uncompleted : ∀ entry, (tables.message identity).entry = some entry → entry.completedAt = none) :
    (tables.message identity).handled = none := by
  by_contra other
  obtain ⟨place, handled⟩ := Option.ne_none_iff_exists'.mp other
  obtain ⟨entry, _, found, completed⟩ := good.messages identity place handled
  rw [uncompleted entry found] at completed
  cases completed

/-- A reservation of a message that has not been completed. -/
theorem reserve_keeps {entry : InboxEntry} (lasting : Lasting discipline frame) (open_ : Good none tables ∧ frame tables)
    (new : entry.completedAt = none)
    (uncompleted : ∀ entry, (tables.message identity).entry = some entry → entry.completedAt = none) :
    MessagePart.Grows (tables.message identity) ((WorkflowWrite.apply (.reserveMessage identity entry) tables).message identity) ∧
      (Good none (WorkflowWrite.apply (.reserveMessage identity entry) tables) ∧
        frame (WorkflowWrite.apply (.reserveMessage identity entry) tables)) ∧
      Unhandled ((WorkflowWrite.apply (.reserveMessage identity entry) tables).message identity) := by
  have write : (WorkflowWrite.reserveMessage identity entry).row = .message identity := rfl
  have unhandled := open_.1.unhandled uncompleted
  obtain ⟨grows, after⟩ := message_keeps write lasting open_ (fun _ impossible => by cases impossible) unhandled uncompleted
    (by
      rw [message_reserveMessage]
      intro place found
      rw [show _ = none from unhandled] at found
      cases found)
    (fun name index applied found isFor => by
      have handled := open_.1.handled name index applied identity found isFor (by simp)
      rw [unhandled] at handled
      cases handled)
  refine ⟨grows, after, ?_⟩
  rw [message_reserveMessage]
  exact ⟨entry, rfl, new, unhandled⟩

theorem begin_safe (lasting : Lasting discipline frame) (beside : Beside discipline i (· = .message identity) K)
    (kept : Kept discipline d) (now : Amid i K none frame d) :
    (protocol discipline).Safe i (Ends fun reservation d => Amid i K none frame d ∧ Reserved identity i reservation d)
      (InboxStatements.begin i identity token at_ ttl) d := by
  have stays : ∀ reservation, Stays discipline i fun d => Amid i K none frame d ∧ Reserved identity i reservation d :=
    fun reservation => (Amid.stays lasting beside).and (Reserved.stays reservation)
  unfold InboxStatements.begin
  split
  · exact Protocol.Safe.done fun _ _ _ => trivial
  split
  · exact Protocol.Safe.done fun _ _ _ => trivial
  rename_i expiresAt _
  have written : (protocol discipline).Safe i
      (Ends fun written d => K d ∧ (Good none (d.view WorkflowWrite.apply i) ∧ frame (d.view WorkflowWrite.apply i)) ∧
        (written = true → Holds schema i (.message identity) (fun part => Unhandled part) d))
      (Session.writeWhere WorkflowWrite.apply i (.message identity) fun tables =>
        if (tables.inbox.get? identity).isNone then some (.reserveMessage identity ⟨token, expiresAt, none⟩) else none : WorkflowTask Bool) d := by
    refine safe_write_beside (enduring_open none lasting) (fun _ => enduring_open none lasting) beside (fun _ open_ _ => open_)
      (fun s w open_ found => ?_) now
    obtain ⟨new, same⟩ := Option.ite_none_right_eq_some.mp found
    cases same
    have absent : (s.message identity).entry = none := Option.isNone_iff_eq_none.mp new
    exact ⟨fun _ touches => touches.symm, reserve_keeps lasting open_ rfl fun entry found => by
      rw [absent] at found
      cases found⟩
  refine Protocol.Safe.bind written kept (fun inserted d kept known => ?_) fun _ _ _ _ => trivial
  split
  · rename_i inserts
    exact safe_pure (stays _) ⟨⟨known.1, known.2.1⟩, known.2.2 inserts⟩
  have selected : (protocol discipline).Safe i
      (Ends fun found d => K d ∧ (Good none (d.view WorkflowWrite.apply i) ∧ frame (d.view WorkflowWrite.apply i)) ∧
        ∀ entry, found = some entry → Holds schema i (.message identity) (fun part => MessagePart.entry part = some entry) d)
      (Session.selectForUpdate WorkflowWrite.apply i (.message identity) fun tables => tables.inbox.get? identity : WorkflowTask _) d :=
    safe_select_beside (enduring_open none lasting) beside (fun _ _ _ found => found) ⟨known.1, known.2.1⟩
  refine Protocol.Safe.bind selected kept (fun found d kept known => ?_) fun _ _ _ _ => trivial
  obtain ⟨others, open_, holds⟩ := known
  split
  · exact Protocol.Safe.done fun _ _ _ => trivial
  rename_i entry
  split
  · rename_i completedAt completed
    exact safe_pure (stays _) ⟨⟨others, open_⟩, entry, (holds entry rfl).2, completed⟩
  rename_i uncompleted
  split
  · exact safe_pure (stays _) ⟨⟨others, open_⟩, trivial⟩
  have written : (protocol discipline).Safe i
      (Ends fun _ d => K d ∧ (Good none (d.view WorkflowWrite.apply i) ∧ frame (d.view WorkflowWrite.apply i)) ∧
        Holds schema i (.message identity) (fun part => Unhandled part) d)
      (Session.change i (.reserveMessage identity ⟨token, expiresAt, none⟩) : WorkflowTask Unit) d := by
    refine safe_change_held (enduring_open none lasting) (enduring_open none lasting) beside (fun _ touches => touches.symm)
      (fun s open_ held => ?_) ⟨others, open_, holds entry rfl⟩
    have isEntry : (s.message identity).entry = some entry := held
    exact reserve_keeps lasting open_ rfl fun other found => by
      rw [isEntry] at found
      cases found
      exact uncompleted
  refine Protocol.Safe.bind written kept (fun _ d kept known => ?_) fun _ _ _ _ => trivial
  exact safe_pure (stays _) ⟨⟨known.1, known.2.1⟩, known.2.2⟩

/-- The message of a decision is completed. -/
theorem complete_safe {version : Nat} (lasting : Lasting discipline frame) (beside : Beside discipline i (· = .message identity) K)
    (kept : Kept discipline d)
    (now : Amid i K (some (.message identity key version)) frame d ∧ Holds schema i (.message identity) (fun part => Unhandled part) d) :
    (protocol discipline).Safe i
      (Ends fun completed d => completed = true →
        Amid i K none frame d ∧ Handled identity key version (d.view WorkflowWrite.apply i))
      (InboxStatements.complete i identity token at_ clock (key, version)) d := by
  have enduring := enduring_open (some (.message identity key version)) lasting
  have selected : (protocol discipline).Safe i
      (Ends fun _ d => (K d ∧ Holds schema i (.message identity) (fun part => Unhandled part) d) ∧
        (Good (some (.message identity key version)) (d.view WorkflowWrite.apply i) ∧ frame (d.view WorkflowWrite.apply i)))
      (Session.selectForUpdate WorkflowWrite.apply i (.message identity) fun tables => tables.inbox.get? identity : WorkflowTask _) d := by
    have both : Beside discipline i (fun _ => False) fun d => K d ∧ Holds schema i (.message identity) (fun part => Unhandled part) d :=
      (beside.mono fun _ impossible => impossible.elim).and (Holds.beside not_false _)
    have found : (protocol discipline).Safe i
        (Ends fun found d => (K d ∧ Holds schema i (.message identity) (fun part => Unhandled part) d) ∧
          (Good (some (.message identity key version)) (d.view WorkflowWrite.apply i) ∧ frame (d.view WorkflowWrite.apply i)) ∧
          ∀ entry, found = some entry → Holds schema i (.message identity) (fun _ => True) d)
        (Session.selectForUpdate WorkflowWrite.apply i (.message identity) fun tables => tables.inbox.get? identity : WorkflowTask _) d :=
      safe_select_beside enduring both (fun _ _ _ _ => trivial) ⟨⟨now.1.1, now.2⟩, now.1.2⟩
    exact safe_weaken found fun _ _ known => ⟨known.1, known.2.1⟩
  refine Protocol.Safe.bind selected kept (fun _ d kept known => ?_) fun _ _ _ _ => trivial
  have written : (protocol discipline).Safe i
      (Ends fun completed d => K d ∧ (Good (if completed then none else some (.message identity key version)) (d.view WorkflowWrite.apply i) ∧
          frame (d.view WorkflowWrite.apply i) ∧ (completed = true → Handled identity key version (d.view WorkflowWrite.apply i))) ∧
        Holds schema i (.message identity) (fun _ => True) d)
      (Session.writeWhere WorkflowWrite.apply i (.message identity) fun tables =>
        ((tables.inbox.get? identity).filter (InboxStatements.completes token at_ clock)).map fun entry =>
          .completeMessage identity { entry with completedAt := some (max at_ clock) } (key, version) : WorkflowTask Bool) d := by
    have lastingHandled : ∀ completed : Bool, Lasting discipline fun tables =>
        frame tables ∧ (completed = true → Handled identity key version tables) :=
      fun completed => lasting.and (Lasting.forall fun _ => lasting_handled identity key version)
    refine safe_write_held enduring (fun completed => enduring_open _ (lastingHandled completed)) beside
      (fun s open_ _ _ => ⟨⟨open_.1, open_.2, fun impossible => by cases impossible⟩, trivial⟩) (fun s w open_ held found => ?_)
      ⟨known.1.1, known.2, known.1.2⟩
    obtain ⟨entry, isEntry, uncompleted, unhandled⟩ := held
    obtain ⟨other, chosen, rfl⟩ := Option.map_eq_some_iff.mp found
    have write : (WorkflowWrite.completeMessage identity { other with completedAt := some (max at_ clock) } (key, version)).row =
      .message identity := rfl
    obtain ⟨grows, good, framed⟩ := message_keeps write lasting open_ (fun unsettled same => ⟨key, version, (Option.some.inj same).symm⟩) unhandled
      (fun other found => by
        rw [show (s.message identity).entry = some entry from isEntry] at found
        cases found
        exact uncompleted)
      (by
        rw [message_completeMessage]
        exact fun _ _ => ⟨_, _, rfl, rfl⟩)
      (fun name index applied found isFor => by
        rw [message_completeMessage]
        by_contra others
        have handled := open_.1.handled name index applied identity found isFor fun unsettled => others (by
          cases unsettled
          rfl)
        rw [show (s.message identity).handled = none from unhandled] at handled
        cases handled)
    refine ⟨fun _ touches => touches.symm, grows, ⟨good, framed, fun _ => ?_⟩, trivial⟩
    change ((WorkflowWrite.apply _ s).message identity).handled = _
    rw [message_completeMessage]
  refine safe_weaken written fun completed d known completes => ?_
  rw [if_pos completes] at known
  exact ⟨⟨known.1, known.2.1.1, known.2.1.2.1⟩, known.2.1.2.2 completes⟩

/-- What `apply_message` has answered. -/
def AppliesMessage (key : ProcessKey) (decision : ProcessDecision) (identity : InboxIdentity) (tables : WorkflowTables) : MessageResult → Prop
  | .process (.applied state _ _ _) => Applied key state ⟨decision, some identity⟩ tables ∧ Handled identity key state.version tables
  | .inbox (.duplicate completedAt) => Completed identity completedAt tables
  | _ => True

theorem lasting_appliesMessage (result : MessageResult) :
    Lasting discipline fun tables => AppliesMessage key decision identity tables result := by
  cases result with
  | process result =>
    cases result with
    | applied state _ _ _ => exact (lasting_applied key state _).and (lasting_handled identity key state.version)
    | stale _ _ => exact fun _ _ _ _ => trivial
  | inbox reservation =>
    cases reservation with
    | duplicate completedAt => exact lasting_completed identity completedAt
    | accepted _ => exact fun _ _ _ _ => trivial
    | inProgress _ => exact fun _ _ _ _ => trivial
    | capacityExceeded _ => exact fun _ _ _ _ => trivial

theorem applyMessage_establishes {expectedVersion beginAt applyAt completeAt : Int} {token : Uuid} :
    Establishes discipline i (fun result tables => AppliesMessage key decision identity tables result)
      (ProcessStatements.applyMessage i key expectedVersion decision identity token ttl beginAt applyAt completeAt clock) := by
  intro frame lasting d kept known
  have enduring := enduring_open none lasting
  have answer : ∀ {result : MessageResult} {e : Database WorkflowTables WorkflowWrite WorkflowRow}, Knows discipline i frame e →
      AppliesMessage key decision identity (e.view WorkflowWrite.apply i) result →
      (protocol discipline).Safe i
        (Ends fun result e => Knows discipline i frame e ∧ AppliesMessage key decision identity (e.view WorkflowWrite.apply i) result)
        (pure result : WorkflowTask MessageResult) e :=
    fun knows answered => safe_pure ((Knows.stays lasting).and (lasting_appliesMessage _).enduring.stays) ⟨knows, answered⟩
  refine safe_nested kept enduring known fun mark d kept marked known => ?_
  refine Protocol.Safe.bind (begin_safe lasting (enduring.beside_marked mark) kept ⟨marked, known⟩) kept
    (fun reservation d kept known => ?_) fun _ _ _ _ => trivial
  cases reservation with
  | duplicate completedAt => exact answer known.1.2 known.2
  | inProgress _ => exact answer known.1.2 trivial
  | capacityExceeded _ => exact answer known.1.2 trivial
  | accepted _ =>
    obtain ⟨⟨marked, open_⟩, holds⟩ := known
    have others : Beside discipline i (Concerns key) fun d => Holds schema i (.message identity) (fun part => Unhandled part) d :=
      Holds.beside (by simp [Concerns]) _
    refine Protocol.Safe.bind (apply_safe lasting enduring others kept ⟨⟨holds, marked⟩, open_⟩) kept
      (fun result d kept known => ?_) fun _ _ _ _ => trivial
    cases result with
    | stale expected actual =>
      refine Protocol.Safe.bind (safe_rollback mark (enduring.stays_marked mark) (Knows.stays lasting) (fun _ _ marked => marked.keep) known.1)
        kept (fun _ e _ knows => ?_) fun _ _ _ _ => trivial
      exact answer knows trivial
    | applied state _ _ _ =>
      obtain ⟨⟨⟨holds, marked⟩, good, framed⟩, applied⟩ := known
      have lastingBoth := lasting.and (lasting_applied key state ⟨decision, some identity⟩)
      refine Protocol.Safe.bind (complete_safe lastingBoth (enduring.beside_marked mark) kept ⟨⟨marked, good, framed, applied⟩, holds⟩) kept
        (fun completed d _ known => ?_) fun _ _ _ _ => trivial
      cases completed with
      | false => exact Protocol.Safe.done fun _ _ _ => trivial
      | true =>
        obtain ⟨⟨-, good, framed, applied⟩, handled⟩ := known rfl
        exact answer ⟨good, framed⟩ ⟨applied, handled⟩

end Messages

end Pytitect.WorkflowTables
